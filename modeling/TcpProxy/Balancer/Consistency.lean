import TcpProxy.Balancer.Concurrent
import TcpProxy.Balancer.Selection

/-! # Pools, counters and statuses agree

The pools, the counters and the status map are built from one raw config by separate
loops.  `Keyed` is what they must agree on: every port has a counter and every backend
a status.  It holds of a new store and every operation keeps it, so an operation about
a port or a backend of the config never meets a missing entry. -/

namespace TcpProxy

open Effects Effects.Program Effects.Pool Lts RoundRobin

variable {w : Nat} {Stream : Type} {raw : RawConfig} {config : ProxyConfig}

def Backend (raw : RawConfig) (target : String) : Prop := ∃ app ∈ raw.apps, target ∈ app.targets

/-- Calls on the ports of the config, reports and drains on its backends. -/
def Call.Addressed (raw : RawConfig) (config : ProxyConfig) : Call → Prop
  | .connectBackend port => port ∈ config.ports
  | .reportConnectionAttempt target _ => Backend raw target
  | .drain target => Backend raw target

/-- The operation names a port or a backend of the config, if it names any. -/
def Known (raw : RawConfig) (config : ProxyConfig) : StackOp → Prop
  | .fetchAdd port => port ∈ config.ports
  | .load target => Backend raw target
  | .store target _ => Backend raw target
  | _ => True

/-- The operation did not meet a missing counter or a missing status. -/
def Found : (Stack Stream).Event → Prop
  | ⟨.fetchAdd _, a⟩ => ∃ counter, a = some counter
  | ⟨.load _, a⟩ => ∃ status, a = .ok status
  | ⟨.store _ _, a⟩ => a = .ok ()
  | _ => True

/-- The same one level up, for the calls the balancer makes. -/
def Answered : (Balancer Stream).Event → Prop
  | ⟨.fetchAdd _, a⟩ => ∃ counter, a = some counter
  | ⟨.getTargetStatus _, a⟩ => ∃ status, a = .ok status
  | ⟨.reportConnectionAttempt _ _, a⟩ => a = .ok ()
  | _ => True

structure Keyed (raw : RawConfig) (config : ProxyConfig) (s : Store w) : Prop where
  counters : ∀ port ∈ config.ports, ∃ counter, s.counters port = some counter
  statuses : ∀ target, Backend raw target → ∃ status, s.targets.targetStatus target = some status

/-! ## The invariant -/

theorem keyed_new {targets : TargetState} (statuses : TargetState.tryFrom raw = .ok targets)
    (clock : Instant) : Keyed raw config (.new config targets clock : Store w) := by
  constructor
  · intro port hport
    exact Option.isSome_iff_exists.mp (Store.newCounters_isSome.mpr hport)
  · intro target backend
    have status := TargetState.tryFrom_status statuses target
    exact ⟨.alive none, status.trans (if_pos backend)⟩

theorem Keyed.answers {s t : Store w} {e : (Stack Stream).Event} (keyed : Keyed raw config s)
    (answered : s.Answers e t) : Keyed raw config t := by
  obtain ⟨op, a⟩ := e
  cases op with
  | fetchAdd port =>
    obtain ⟨-, rfl⟩ := answered
    refine ⟨fun q hq => ?_, keyed.statuses⟩
    obtain ⟨counter, hcounter⟩ := keyed.counters q hq
    by_cases same : q = port
    · exact ⟨counter + 1, by simp [← same, hcounter]⟩
    · exact ⟨counter, by simp [same, hcounter]⟩
  | store target status =>
    obtain ⟨-, rfl⟩ := answered
    refine ⟨keyed.counters, fun t backend => ?_⟩
    rw [← Option.isSome_iff_exists, TargetState.updateTargetStatus_isSome, Option.isSome_iff_exists]
    exact keyed.statuses t backend
  | load target => obtain ⟨-, rfl⟩ := answered; exact keyed
  | now => obtain ⟨-, rfl⟩ := answered; exact ⟨keyed.counters, keyed.statuses⟩
  | lookupHost | connectAddr => cases answered; exact keyed

theorem Keyed.found {s t : Store w} {e : (Stack Stream).Event} (keyed : Keyed raw config s)
    (known : Known raw config e.op) (answered : s.Answers e t) : Found e := by
  obtain ⟨op, a⟩ := e
  cases op with
  | fetchAdd port =>
    obtain ⟨counter, hcounter⟩ := keyed.counters port known
    exact ⟨counter.toNat, by rw [answered.1, hcounter]; rfl⟩
  | load target =>
    obtain ⟨status, hstatus⟩ := keyed.statuses target known
    exact ⟨status, by rw [answered.1, TargetState.getTargetStatus_of_some hstatus]⟩
  | store target status =>
    have present := Option.isSome_iff_exists.mpr (keyed.statuses target known)
    show a = .ok ()
    rw [answered.1, (TargetState.updateTargetStatus_eq present).2]
  | now | lookupHost | connectAddr => trivial

/-- An addressed call asks only about ports and backends of the config. -/
theorem known_of_mayAsk (accepted : ProxyConfig.tryFrom raw = .ok config) {call : Call}
    (addressed : call.Addressed raw config) {op : StackOp} (asks : call.MayAsk config op) :
    Known raw config op := by
  have served : ∀ target, call.Serves config target → Backend raw target := by
    intro target serves
    cases call with
    | connectBackend port =>
      obtain ⟨pool, hpool, member⟩ := serves
      obtain ⟨app, happ, -, rfl⟩ := ProxyConfig.exists_app_of_getPool accepted hpool
      exact ⟨app, happ, member⟩
    | reportConnectionAttempt | drain => cases serves; exact addressed
  cases op with
  | fetchAdd port => cases asks; exact addressed
  | load target => exact served target asks
  | store target status => exact served target asks
  | now | lookupHost | connectAddr => trivial

section Runs

variable {s : Store w} {ls : List (TaskLabel Stream)} {c : Tasks w Stream}

theorem keyed_of_run (run : Run (Tasks.Step config) (Tasks.idle s) ls c)
    (keyed : Keyed raw config s) : Keyed raw config c.store :=
  run.invariant (I := fun c => Keyed raw config c.store) keyed fun u l v hu step => by
    cases step with
    | spawn => exact hu
    | act _ answered => exact hu.answers answered

theorem found_of_run (accepted : ProxyConfig.tryFrom raw = .ok config)
    (run : Run (Tasks.Step config) (Tasks.idle s) ls c) (keyed : Keyed raw config s)
    (addressed : ∀ i call, .spawn i call ∈ ls → call.Addressed raw config) :
    ∀ i e, .act i e ∈ ls → Found e := by
  intro i e he
  have known : Known raw config e.op :=
    uses_invariant (fun _ => Known raw config)
      (fun i call spawned => uses_mono
        (fun op asks => known_of_mayAsk accepted (addressed i call spawned) asks)
        (Call.uses_body config call))
      (by simp [Tasks.idle]) run i e he
  obtain ⟨before, after, u, v, rfl, toStep, step, -⟩ := run.mem_step he
  cases step with
  | act _ answered => exact (keyed_of_run toStep keyed).found known answered

end Runs

/-! ## Reports and results -/

theorem report_ok {target : String} {result : ConnectResult} {tr : List (Stack Stream).Event}
    {out : Except ProxyError Unit} (report : SimpleCooldownHandler.Report target result tr out)
    (found : ∀ e ∈ tr, Found e) : out = .ok () := by
  cases report with
  | missing e =>
    obtain ⟨status, hstatus⟩ : Found ⟨.load target, .error e⟩ := found _ List.mem_cons_self
    cases hstatus
  | drained => rfl
  | cooled coolUntil now later =>
    exact found ⟨.store target (.alive (some (later + SimpleCooldownHandler.COOLDOWN))), out⟩ (by simp)
  | kept => rfl
  | cleared => exact found ⟨.store target (.alive none), out⟩ (by simp)

theorem answered_of_found {T : List (Balancer Stream).Event} {tr : List (Stack Stream).Event}
    (un : Unfolds SimpleCooldownHandler.handle T tr) (found : ∀ e ∈ tr, Found e) :
    ∀ e ∈ T, Answered e := by
  intro e he
  obtain ⟨sub, run, within⟩ := un.infix he
  have found : ∀ e ∈ sub, Found e := fun e he => found e (within.subset he)
  obtain ⟨op, a⟩ := e
  cases op with
  | fetchAdd port =>
    obtain rfl := exec_perform.mp run
    exact found _ List.mem_cons_self
  | getTargetStatus target =>
    obtain rfl := exec_perform.mp run
    exact found _ List.mem_cons_self
  | reportConnectionAttempt target result =>
    exact report_ok (SimpleCooldownHandler.reportConnectionAttempt_exec run) found
  | now | lookupHost | connectAddr => trivial

def emptyPoolError (port : UInt16) : ProxyError :=
  .targetResolutionError port s!"Empty backends list for port {port}"

/-- With every counter and status in place, the errors of `connect_backend` are the
    empty pool, no backend left to try, and what the resolver answered. -/
theorem connectBackend_errors {port : UInt16} {pool : List String}
    (hpool : config.getPool port = some pool) {T : List (Balancer Stream).Event}
    {r : Connected Stream} (run : Exec (linkedConnectBackend config port) T r)
    (answered : ∀ e ∈ T, Answered e) :
    (pool = [] → r = .error (emptyPoolError port)) ∧
      (pool ≠ [] → ∀ e, r = .error e →
        e = exhaustedError port ∨ ∃ target, ⟨.lookupHost target, .error e⟩ ∈ T) := by
  constructor
  · rintro rfl
    rw [linkedConnectBackend, connectBackend, hpool] at run
    exact (exec_ret.mp run).2.symm
  · intro nonempty e he
    have positive : 0 < pool.length := List.length_pos_iff.mpr nonempty
    obtain ⟨selected, hselected, un⟩ := exec_interp.mp run
    obtain ⟨drawn, tail, rfl, cont⟩ := connectBackend_exec hpool positive hselected
    have lifted : ∀ x ∈ tail, ∃ sub, Exec (link x.op) sub x.ans ∧ sub <:+: T := fun x hx =>
      un.infix (List.mem_cons_of_mem _ hx)
    obtain ⟨sub, hsub, within⟩ := un.infix (e := ⟨.fetchAdd port, drawn⟩) List.mem_cons_self
    obtain rfl := exec_perform.mp hsub
    obtain ⟨counter, rfl⟩ : Answered ⟨.fetchAdd port, drawn⟩ :=
      answered _ (within.subset List.mem_cons_self)
    obtain ⟨first, second, ending, rfl, -, ends, hr⟩ := firstPass_selects cont
    have shown := (ends ending).mpr rfl
    rw [he] at hr
    cases ending with
    | connected s => cases hr
    | exhausted => cases hr; exact .inl rfl
    | fatal e' =>
      cases hr
      obtain ⟨target, hlast⟩ := shown
      obtain ⟨_, rest, rfl, -, rest_unfolds⟩ := un.uncons
      have looked := lookup_of_attempted rest_unfolds (List.mem_of_getLast? hlast)
      exact .inr ⟨target, List.mem_append_right _ looked⟩
    | checkFailed e' =>
      obtain ⟨target, hlast⟩ := shown
      have asked := mem_of_failed (List.mem_of_getLast? hlast)
      obtain ⟨sub, hsub, within⟩ := lifted _ (List.mem_append_left second asked)
      obtain rfl := exec_perform.mp hsub
      obtain ⟨status, hstatus⟩ : Answered ⟨.getTargetStatus target, .error e'⟩ :=
        answered _ (within.subset List.mem_cons_self)
      cases hstatus

/-- The resolver answered one of the thread's lookups with `e`. -/
def LookupFailed (ls : List (TaskLabel Stream)) (i : Nat) (e : ProxyError) : Prop :=
  ∃ target, .act i ⟨.lookupHost target, .error e⟩ ∈ ls

theorem lookupFailed_of_unfolds {ls : List (TaskLabel Stream)} {i : Nat} {e : ProxyError}
    {T : List (Balancer Stream).Event} (un : Unfolds SimpleCooldownHandler.handle T (traceOf i ls))
    {target : String} (h : ⟨.lookupHost target, .error e⟩ ∈ T) : LookupFailed ls i e := by
  obtain ⟨sub, hsub, within⟩ := un.infix h
  obtain rfl := exec_perform.mp hsub
  exact ⟨target, mem_traceOf.mp (within.subset List.mem_cons_self)⟩

/-- A report or a drain that met no missing entry has returned `Ok`. -/
theorem updated_ok {s : Store w} {ls : List (TaskLabel Stream)} {c : Tasks w Stream}
    (run : Run (Tasks.Step config) (Tasks.idle s) ls c) {i : Nat}
    (found : ∀ e ∈ traceOf i ls, Found e) {r : Except ProxyError Unit}
    (returned : c.threads i = some (.ret (.updated r))) : r = .ok () := by
  obtain ⟨call, -, steps⟩ := spawned_steps run rfl returned
  cases call with
  | connectBackend port =>
    obtain ⟨r', tr₁, tr₂, -, -, done⟩ := exec_bind.mp steps
    cases (exec_ret.mp done).2
  | reportConnectionAttempt target result =>
    obtain ⟨r', tr₁, tr₂, split, report, done⟩ := exec_bind.mp steps
    obtain ⟨rfl, same⟩ := exec_ret.mp done
    cases same
    refine report_ok (SimpleCooldownHandler.reportConnectionAttempt_exec report) fun e he => ?_
    exact found e (by rw [split]; simpa using he)
  | drain target =>
    obtain ⟨r', tr₁, tr₂, split, drained, done⟩ := exec_bind.mp steps
    obtain ⟨rfl, same⟩ := exec_ret.mp done
    cases same
    obtain rfl := exec_perform.mp drained
    exact found ⟨.store target .drain, r⟩ (by rw [split]; simp)

/-- For an accepted config and the status map built from it, in every run of calls on its
    ports, with reports and drains on its backends, no access meets a missing entry, and a
    call fails to resolve its targets exactly when the app of its port has none. -/
theorem derived_structures_agree (accepted : ProxyConfig.tryFrom raw = .ok config)
    {targets : TargetState} (statuses : TargetState.tryFrom raw = .ok targets) {clock : Instant}
    {ls : List (TaskLabel Stream)} {c : Tasks w Stream}
    (run : Run (Tasks.Step config) (Tasks.idle (.new config targets clock)) ls c)
    (addressed : ∀ i call, .spawn i call ∈ ls → call.Addressed raw config) :
    (∀ port ∈ config.ports, (∃ counter, c.store.counters port = some counter) ∧
      ∃ app ∈ raw.apps, port ∈ app.ports ∧ config.getPool port = some app.targets) ∧
    (∀ target, Backend raw target → ∃ status, c.store.targets.getTargetStatus target = .ok status) ∧
    (∀ i e, .act i e ∈ ls → Found e) ∧
    (∀ i r, c.threads i = some (.ret (.updated r)) → r = .ok ()) ∧
    ∀ i port r, .spawn i (.connectBackend port) ∈ ls →
      c.threads i = some (.ret (.connected r)) →
      (∃ T, Exec (linkedConnectBackend config port) T r ∧
        Unfolds SimpleCooldownHandler.handle T (traceOf i ls) ∧ ∀ e ∈ T, Answered e) ∧
      ∀ app ∈ raw.apps, port ∈ app.ports →
        (app.targets = [] → r = .error (emptyPoolError port)) ∧
        (app.targets ≠ [] → ∀ e, r = .error e → e = exhaustedError port ∨ LookupFailed ls i e) ∧
        ((∀ q m, ¬ LookupFailed ls i (.targetResolutionError q m)) →
          ((∃ q m, r = .error (.targetResolutionError q m)) ↔ app.targets = [])) := by
  have initially : Keyed raw config (.new config targets clock : Store w) := keyed_new statuses clock
  have atEnd := keyed_of_run run initially
  have found := found_of_run accepted run initially addressed
  have foundIn : ∀ i, ∀ e ∈ traceOf i ls, Found e := fun i e he => found i e (mem_traceOf.mp he)
  refine ⟨?_, ?_, found, ?_, ?_⟩
  · intro port hport
    obtain ⟨app, happ, lists⟩ := (ProxyConfig.mem_ports_iff accepted).mp hport
    exact ⟨atEnd.counters port hport, app, happ, lists,
      ProxyConfig.getPool_of_lists accepted happ lists⟩
  · intro target backend
    obtain ⟨status, hstatus⟩ := atEnd.statuses target backend
    exact ⟨status, TargetState.getTargetStatus_of_some hstatus⟩
  · intro i r returned
    exact updated_ok run (foundIn i) returned
  · intro i port r spawned returned
    obtain ⟨T, hT, un⟩ := exec_interp.mp (exec_of_connected run spawned returned)
    have answered := answered_of_found un (foundIn i)
    refine ⟨⟨T, hT, un, answered⟩, fun app happ lists => ?_⟩
    obtain ⟨whenEmpty, otherwise⟩ :=
      connectBackend_errors (ProxyConfig.getPool_of_lists accepted happ lists) hT answered
    have resolved : app.targets ≠ [] → ∀ e, r = .error e →
        e = exhaustedError port ∨ LookupFailed ls i e := fun nonempty e he =>
      (otherwise nonempty e he).imp_right fun ⟨_, looked⟩ => lookupFailed_of_unfolds un looked
    refine ⟨whenEmpty, resolved, fun honest => ⟨?_, fun h => ⟨_, _, whenEmpty h⟩⟩⟩
    rintro ⟨q, m, hr⟩
    by_contra nonempty
    cases resolved nonempty _ hr with
    | inl exhausted => cases exhausted
    | inr looked => exact honest q m looked

/-! One app without targets, and a drain of the other app's backend. -/

def twoApps : RawConfig := ⟨[⟨"web", [8080], ["a:1"]⟩, ⟨"idle", [9090], []⟩]⟩

def twoAppsConfig : ProxyConfig :=
  ⟨[["a:1"], []], ((∅ : Std.TreeMap UInt16 Nat).insert 8080 0).insert 9090 1⟩

def twoAppsTargets : TargetState := ⟨fun t => if t = "a:1" then some (.alive none) else none⟩

def drainAndConnect : List (TaskLabel Unit) :=
  [.spawn 0 (.drain "a:1"), .spawn 1 (.connectBackend 9090), .act 0 ⟨.store "a:1" .drain, .ok ()⟩]

theorem drainAndConnect_addressed (i : Nat) (call : Call) (h : .spawn i call ∈ drainAndConnect) :
    call.Addressed twoApps twoAppsConfig := by
  simp only [drainAndConnect, List.mem_cons, Label.spawn.injEq, reduceCtorEq, List.not_mem_nil,
    or_false] at h
  rcases h with ⟨-, rfl⟩ | ⟨-, rfl⟩
  · exact ⟨⟨"web", [8080], ["a:1"]⟩, by simp [twoApps], by simp⟩
  · show 9090 ∈ twoAppsConfig.ports
    decide

theorem drainAndConnect_agree : ∃ c : Tasks 64 Unit,
    Run (Tasks.Step twoAppsConfig) (Tasks.idle (.new twoAppsConfig twoAppsTargets 0)) drainAndConnect c ∧
    (∀ i e, .act i e ∈ drainAndConnect → Found e) ∧
    c.threads 0 = some (.ret (.updated (.ok ()))) ∧
    c.threads 1 = some (.ret (.connected (.error (emptyPoolError 9090)))) := by
  have run : ∃ c : Tasks 64 Unit, Run (Tasks.Step twoAppsConfig)
      (Tasks.idle (.new twoAppsConfig twoAppsTargets 0)) drainAndConnect c ∧
      c.threads 0 = some (.ret (.updated (.ok ()))) ∧
      c.threads 1 = some (.ret (.connected (.error (emptyPoolError 9090)))) := by
    refine ⟨_, .cons (.spawn rfl) (.cons (.spawn rfl) (.cons (.act rfl ⟨rfl, rfl⟩) (.nil _))), ?_, ?_⟩
    · rfl
    · rfl
  obtain ⟨c, run, drained, refused⟩ := run
  have agree := derived_structures_agree (show ProxyConfig.tryFrom twoApps = .ok twoAppsConfig from rfl)
    (show TargetState.tryFrom twoApps = .ok twoAppsTargets from rfl) run drainAndConnect_addressed
  exact ⟨c, run, agree.2.2.1, drained, refused⟩

end TcpProxy
