import TcpProxy.Proxy.Forwarding
import TcpProxy.Balancer.Cooling

/-! # Why a backend is out of rotation

In a run of the proxy all statuses are stored by its connections.  A target is cooling only
because an attempt of a client on it failed, no longer ago than the cooldown lasts, and its
cooldown ends early only because an attempt of a client connected. -/

namespace TcpProxy

open Effects Effects.Program Lts SimpleCooldownHandler

variable {w : Nat} {Stream : Type}

namespace Proxy

variable {config : ProxyConfig} {targets : TargetState} {C Q copyBufSize : Nat} {bindAddr : IpAddr}
  {clock : Instant} {es : List (Event Stream)} {x : Proxy w Stream}

theorem connectCalls (es : List (Event Stream)) : ConnectCalls (es.filterMap Event.task?) := by
  intro i call spawned
  obtain ⟨-, port, same, -⟩ := entered_of_call spawned
  exact ⟨port, same⟩

/-- A connection loads only the statuses of targets of the app that lists its port. -/
theorem loads_listed {raw : RawConfig} (accepted : ProxyConfig.tryFrom raw = .ok config)
    (run : Run (Step config copyBufSize) (new config targets C Q bindAddr clock) es x) {i : Nat}
    {target : String} {a : Except ProxyError BackendStatus} (loaded : ⟨.load target, a⟩ ∈ asked i es) :
    ∃ port app, x.server.portOf? i = some port ∧ app ∈ raw.apps ∧ port ∈ app.ports ∧
      target ∈ app.targets := by
  obtain ⟨c, calls, -⟩ := calls_run run
  obtain ⟨pre, post, u, v, split, before, step, -⟩ := calls.mem_step (Pool.mem_traceOf.mp loaded)
  cases step with
  | act running answered =>
    obtain ⟨call, spawned, steps⟩ := Pool.spawned_steps before rfl running
    obtain ⟨e, port, rfl, entered⟩ := entered_of_call (split ▸ List.mem_append_left _ spawned)
    obtain ⟨pool, found, listed⟩ := (uses_steps steps (Call.uses_body config _)).1
    have at_port := port_of_enter run entered
    have served := Server.portOf?_mem (server_run run) at_port
    obtain ⟨app, present, lists⟩ := (ProxyConfig.mem_ports_iff accepted).mp served
    rw [ProxyConfig.getPool_of_lists accepted present lists] at found
    cases found
    exact ⟨port, app, at_port, present, lists, listed⟩

/-- What a connection does to the balancer is a step of its call. -/
theorem calls_step {y : Proxy w Stream}
    (run : Run (Step config copyBufSize) (new config targets C Q bindAddr clock) es x) {i : Nat} {op : StackOp}
    {a : (Stack Stream).Ans op} (step : Step config copyBufSize x (.act i ⟨.inl op, a⟩) y) :
    ∃ c d : Tasks w Stream,
      Run (Tasks.Step config) (.idle (.new config targets clock)) (es.filterMap Event.task?) c ∧
      Tasks.Step config c (.act i ⟨op, a⟩) d ∧ c.store = x.bodies.store ∧ d.store = y.bodies.store := by
  cases step with
  | act connecting acted =>
    cases acted with
    | act running answered =>
      obtain ⟨c, calls, shown⟩ := calls_run run
      obtain ⟨p, running', shows_p⟩ := shown.running running
      obtain ⟨next', rfl, -⟩ := shows_p.asks
      have same : c.store = x.bodies.store := shown.store.symm
      have answered : x.bodies.store.Answers ⟨op, a⟩ _ := answered
      rw [← same] at answered
      exact ⟨c, _, calls, .act running' answered, same, rfl⟩

/-- A status changes only by a store on it. -/
theorem targetStatus_step {y : Proxy w Stream} {e : Event Stream}
    (run : Run (Step config copyBufSize) (new config targets C Q bindAddr clock) es x)
    (step : Step config copyBufSize x e y) (target : String) :
    y.bodies.store.targets.targetStatus target = x.bodies.store.targets.targetStatus target ∨
      ∃ i status a, e = .act i ⟨.inl (.store target status), a⟩ ∧
        y.bodies.store.targets.targetStatus target = some status := by
  cases e with
  | server | enter =>
    cases step
    exact .inl rfl
  | act i e =>
    obtain ⟨op | copy, a⟩ := e
    · obtain ⟨c, d, -, moved, before, after⟩ := calls_step run step
      rw [← before, ← after]
      refine (status_step moved target).imp_right ?_
      rintro ⟨j, status, b, same, stored⟩
      cases same
      exact ⟨i, status, _, rfl, stored⟩
    · cases step with
      | act connecting acted =>
        cases acted with
        | act running answered =>
          cases answered
          exact .inl rfl

/-- A status changes only by a store that the attempt before it earned. -/
theorem status_change_earned {y : Proxy w Stream} {e : Event Stream}
    (run : Run (Step config copyBufSize) (new config targets C Q bindAddr clock) es x)
    (step : Step config copyBufSize x e y) {t : String}
    (changed : y.bodies.store.targets.targetStatus t ≠ x.bodies.store.targets.targetStatus t) :
    ∃ i status a, e = .act i ⟨.inl (.store t status), a⟩ ∧
      y.bodies.store.targets.targetStatus t = some status ∧ Earned t (asked i es) status := by
  obtain ⟨i, status, a, rfl, stored⟩ := (targetStatus_step run step t).resolve_left changed
  obtain ⟨c, d, calls, moved, -⟩ := calls_step run step
  exact ⟨i, status, a, rfl, stored, store_earned calls (connectCalls es) moved⟩

/-- A status is the initial one, or a connection earned it. -/
theorem stored_earned (run : Run (Step config copyBufSize) (new config targets C Q bindAddr clock) es x)
    {target : String} {status : BackendStatus}
    (stored : x.bodies.store.targets.targetStatus target = some status) :
    targets.targetStatus target = some status ∨ ∃ j tr, tr <+: asked j es ∧ Earned target tr status := by
  obtain ⟨c, calls, shown⟩ := calls_run run
  have same : c.store = x.bodies.store := shown.store.symm
  rw [← same] at stored
  exact status_earned calls (connectCalls es) stored

/-- A load answers with the status that is stored. -/
theorem stored_of_load {y : Proxy w Stream} {i : Nat} {target : String} {status : BackendStatus}
    (step : Step config copyBufSize x (.act i ⟨.inl (.load target), .ok status⟩) y) :
    x.bodies.store.targets.targetStatus target = some status := by
  cases step with
  | act connecting acted =>
    cases acted with
    | act running answered =>
      have answered : x.bodies.store.Answers (⟨.load target, .ok status⟩ : (Stack Stream).Event) _ := answered
      exact status_of_ok answered.1

theorem loaded_earned (run : Run (Step config copyBufSize) (new config targets C Q bindAddr clock) es x) {i : Nat}
    {target : String} {status : BackendStatus} (loaded : ⟨.load target, .ok status⟩ ∈ asked i es) :
    targets.targetStatus target = some status ∨ ∃ j tr, tr <+: asked j es ∧ Earned target tr status := by
  obtain ⟨pre, post, u, v, rfl, before, step, -⟩ := run.mem_step (mem_asked.mp (Pool.mem_traceOf.mp loaded))
  refine (stored_earned before (stored_of_load step)).imp_right ?_
  rintro ⟨j, tr, old, earned⟩
  refine ⟨j, tr, old.trans ?_, earned⟩
  rw [asked_append]
  exact List.prefix_append _ _

theorem clock_le {y : Proxy w Stream} (run : Run (Step config copyBufSize) x es y) :
    x.bodies.store.clock ≤ y.bodies.store.clock := by
  refine run.invariant (I := fun z => x.bodies.store.clock ≤ z.bodies.store.clock) (Nat.le_refl _) ?_
  intro u e v before step
  refine Nat.le_trans before ?_
  cases step with
  | server | enter => exact Nat.le_refl _
  | act connecting acted =>
    cases acted with
    | @act _ op _ _ _ running answered =>
      cases op with
      | inl op => exact clock_mono (.single (show Store.Answers _ _ _ from answered))
      | inr copy =>
        cases answered
        exact Nat.le_refl _

/-- What a connection reads off the clock is past. -/
theorem reading_le (run : Run (Step config copyBufSize) (new config targets C Q bindAddr clock) es x) {i : Nat}
    {reading : Instant} (reads : ⟨.now, reading⟩ ∈ asked i es) : reading ≤ x.bodies.store.clock := by
  obtain ⟨c, calls, shown⟩ := calls_run run
  have same : c.store = x.bodies.store := shown.store.symm
  rw [← same]
  exact readings_past calls i reading (Pool.mem_traceOf.mp reads)

/-- Without a store on it a status stays. -/
theorem targetStatus_kept {y : Proxy w Stream} {later : List (Event Stream)}
    (run : Run (Step config copyBufSize) (new config targets C Q bindAddr clock) es x)
    (more : Run (Step config copyBufSize) x later y) {target : String}
    (kept : ∀ i status a, .act i ⟨.inl (.store target status), a⟩ ∉ later) :
    y.bodies.store.targets.targetStatus target = x.bodies.store.targets.targetStatus target := by
  induction more generalizing es with
  | nil => rfl
  | @cons x z y e later step rest ih =>
    rw [ih (run.append (.single step)) fun i status a h => kept i status a (List.mem_cons_of_mem _ h)]
    rcases targetStatus_step run step target with same | ⟨i, status, a, rfl, -⟩
    · exact same
    · exact absurd List.mem_cons_self (kept i status a)

end Proxy

/-! A client finds the only backend of its app unresolved. -/

def unresolved : List (Proxy.Event Unit) :=
  listening.map .server ++
    [.server (.listen 0 (.accept (.ok ()))), .enter (.poll 0) ⟨80, 0⟩,
      .act 0 ⟨.inl (.fetchAdd 80), some 0⟩, .act 0 ⟨.inl (.load "localhost:8080"), .ok (.alive none)⟩,
      .act 0 ⟨.inl (.lookupHost "localhost:8080"), .error (.dnsNxError "no such host")⟩,
      .act 0 ⟨.inl (.load "localhost:8080"), .ok (.alive none)⟩, .act 0 ⟨.inl .now, (5 : Instant)⟩,
      .act 0 ⟨.inl .now, (7 : Instant)⟩]

def cooledDown : Proxy.Event Unit :=
  .act 0 ⟨.inl (.store "localhost:8080" (.alive (some (7 + COOLDOWN)))), .ok ()⟩

theorem unresolved_run : ∃ x y : Proxy 64 Unit,
    Run (Proxy.Step onePort 1024) (.new onePort onePortTargets 1 1 localhostAddr 0) unresolved x ∧
    Proxy.Step onePort 1024 x cooledDown y ∧
    x.bodies.store.targets.targetStatus "localhost:8080" = some (.alive none) ∧
    y.bodies.store.targets.targetStatus "localhost:8080" = some (.alive (some (7 + COOLDOWN))) := by
  refine ⟨_, _, .cons (.server rfl rfl trivial) (.cons (.server rfl rfl trivial)
    (.cons (.server rfl rfl trivial) (.cons (.server rfl rfl trivial) (.cons (.server rfl rfl trivial)
    (.cons (.enter rfl rfl rfl) (.cons (.act rfl (.act rfl ⟨rfl, rfl⟩))
    (.cons (.act rfl (.act rfl ⟨rfl, rfl⟩)) (.cons (.act rfl (.act rfl rfl))
    (.cons (.act rfl (.act rfl ⟨rfl, rfl⟩)) (.cons (.act rfl (.act rfl ⟨by decide, rfl⟩))
    (.cons (.act rfl (.act rfl ⟨by decide, rfl⟩)) (.nil _)))))))))))),
    .act rfl (.act rfl ⟨rfl, rfl⟩), rfl, rfl⟩

theorem unresolved_earns : ∃ x y : Proxy 64 Unit,
    Run (Proxy.Step onePort 1024) (.new onePort onePortTargets 1 1 localhostAddr 0) unresolved x ∧
    Proxy.Step onePort 1024 x cooledDown y ∧
    ∃ i status a, cooledDown = .act i ⟨.inl (.store "localhost:8080" status), a⟩ ∧
      y.bodies.store.targets.targetStatus "localhost:8080" = some status ∧
      Earned "localhost:8080" (Proxy.asked i unresolved) status := by
  obtain ⟨x, y, run, step, before, after⟩ := unresolved_run
  refine ⟨x, y, run, step, Proxy.status_change_earned run step ?_⟩
  rw [before, after]
  decide

/-- In every reachable state a target is alive, and one that has a cooldown was attempted by a
    client of an app that lists it, the attempt failed, and the cooldown counts from a
    reading of the clock after that. -/
theorem cooling_after_failed_attempt {raw : RawConfig} {config : ProxyConfig} {targets : TargetState}
    (accepted : ProxyConfig.tryFrom raw = .ok config) (fresh : TargetState.tryFrom raw = .ok targets)
    {C Q copyBufSize : Nat} {bindAddr : IpAddr} {clock : Instant} {es : List (Proxy.Event Stream)}
    {x : Proxy w Stream}
    (run : Run (Proxy.Step config copyBufSize) (.new config targets C Q bindAddr clock) es x)
    {t : String} {status : BackendStatus}
    (stored : x.bodies.store.targets.targetStatus t = some status) :
    status = .alive none ∨ ∃ i port app before loaded now reading, status = .alive (some (reading + COOLDOWN)) ∧
      reading ≤ x.bodies.store.clock ∧ x.server.portOf? i = some port ∧ app ∈ raw.apps ∧ port ∈ app.ports ∧
      t ∈ app.targets ∧
      before ++ [⟨.load t, .ok (.alive loaded)⟩, ⟨.now, now⟩, ⟨.now, reading⟩] <+: Proxy.asked i es ∧
      AttemptFailed t (before.filterMap stackNetwork?) := by
  rcases Proxy.stored_earned run stored with initial | ⟨i, tr, old, earned⟩
  · left
    rw [TargetState.tryFrom_status fresh t] at initial
    split at initial
    next => exact (Option.some.inj initial).symm
    next => cases initial
  · cases earned with
    | cleared => exact .inl rfl
    | @cooldown before loaded now reading failed =>
      right
      have loads := old.subset (List.mem_append_right before List.mem_cons_self)
      have reads : ⟨.now, reading⟩ ∈ Proxy.asked i es := old.subset (by simp)
      obtain ⟨port, app, at_port, present, lists, listed⟩ := Proxy.loads_listed accepted run loads
      exact ⟨i, port, app, before, loaded, now, reading, rfl, Proxy.reading_le run reads, at_port, present, lists,
        listed, old, failed⟩

theorem unresolved_cools : ∃ y : Proxy 64 Unit,
    Run (Proxy.Step onePort 1024) (.new onePort onePortTargets 1 1 localhostAddr 0)
      (unresolved ++ [cooledDown]) y ∧
    ∃ i port app before loaded now reading, BackendStatus.alive (some (7 + COOLDOWN)) = .alive (some (reading + COOLDOWN)) ∧
      reading ≤ y.bodies.store.clock ∧ y.server.portOf? i = some port ∧ app ∈ onePortRaw.apps ∧
      port ∈ app.ports ∧ "localhost:8080" ∈ app.targets ∧
      before ++ [⟨.load "localhost:8080", .ok (.alive loaded)⟩, ⟨.now, now⟩, ⟨.now, reading⟩] <+:
        Proxy.asked i (unresolved ++ [cooledDown]) ∧
      AttemptFailed "localhost:8080" (before.filterMap stackNetwork?) := by
  obtain ⟨x, y, run, step, -, after⟩ := unresolved_run
  have whole := run.append (.single step)
  refine ⟨y, whole, ?_⟩
  exact (cooling_after_failed_attempt (show ProxyConfig.tryFrom onePortRaw = .ok onePort from rfl)
    onePortTargets_loaded whole after).resolve_left (by decide)

end TcpProxy
