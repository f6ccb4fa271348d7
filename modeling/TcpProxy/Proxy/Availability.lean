import TcpProxy.Proxy.Outages
import TcpProxy.Proxy.Production
import TcpProxy.Proxy.Progress

/-! # One backend is enough

While one target of an app is up, no client of the app is turned away, whatever becomes of
its other targets and of the clients of other apps: each comes to be connected to a backend.
That a target is up is said of the answers of the network only, never of the statuses the
proxy keeps. -/

namespace TcpProxy

open Effects Effects.Program Lts SimpleCooldownHandler

variable {w : Nat} {Stream Listener : Type} {parse : String → Option SocketAddr}

/-- The target can be reached at the address: every lookup of it gives the address, and every
    connect to that is made in time. -/
def Proxy.Event.Upholds (target : String) (addr : SocketAddr) : Proxy.Event Stream → Prop
  | .act _ ⟨.inl (.lookupHost host), a⟩ => host = target → ∃ addrs, a = .ok addrs ∧ addr ∈ addrs
  | .act _ ⟨.inl (.connectAddr other), out⟩ => other = addr → RoundRobin.Connects out
  | _ => True

/-- The target is an address, or `host:port`. -/
def WellFormed (parse : String → Option SocketAddr) (target : String) : Prop :=
  parse target ≠ none ∨ ∃ host port, HostPort target host port

/-- What a call has seen of a target that is up at the address. -/
structure Reachable (target : String) (addr : SocketAddr) (tr : List (Stack Stream).Event) : Prop where
  looked : ∀ a, ⟨.lookupHost target, a⟩ ∈ tr → ∃ addrs, a = .ok addrs ∧ addr ∈ addrs
  connects : ∀ out, ⟨.connectAddr addr, out⟩ ∈ tr → RoundRobin.Connects out

/-- It is not tried in vain. -/
theorem Reachable.not_inVain {target : String} {addr : SocketAddr} {tr : List (Stack Stream).Event}
    (up : Reachable target addr tr) : ¬ InVain target tr := by
  rintro (⟨e, -, looked⟩ | ⟨addrs, looked, refused⟩)
  · obtain ⟨addrs, same, -⟩ := up.looked _ looked
    cases same
  · obtain ⟨addrs', same, given⟩ := up.looked _ looked
    cases same
    obtain ⟨out, fails, dialed⟩ := refused addr given
    exact fails (up.connects out dialed)

namespace Proxy

variable {raw : RawConfig} {config : ProxyConfig} {targets : TargetState} {C Q copyBufSize : Nat}
  {bindAddr : IpAddr} {clock : Instant} {es : List (Event Stream)} {x : Proxy w Stream} {i : Nat}
  {target : String} {addr : SocketAddr}

/-- The proxy never drains a target. -/
theorem not_drained (fresh : TargetState.tryFrom raw = .ok targets)
    (run : Run (Step config copyBufSize) (new config targets C Q bindAddr clock) es x)
    (loaded : ⟨.load target, .ok .drain⟩ ∈ asked i es) : False := by
  rcases loaded_earned run loaded with initial | ⟨j, tr, -, earned⟩
  · rw [TargetState.tryFrom_status fresh target] at initial
    split at initial
    next => cases initial
    next => cases initial
  · cases earned

theorem reachable_asked (up : ∀ a, .act i a ∈ es → (Event.act i a).Upholds target addr) :
    Reachable target addr (asked i es) where
  looked _ h := up _ (mem_asked.mp (Pool.mem_traceOf.mp h)) rfl
  connects _ h := up _ (mem_asked.mp (Pool.mem_traceOf.mp h)) rfl

/-- The body of a client returns only after the copy, if a target of its app is up. -/
theorem copied_of_returned (accepted : ProxyConfig.tryFrom raw = .ok config)
    (fresh : TargetState.tryFrom raw = .ok targets)
    (run : Run (Step config copyBufSize) (new config targets C Q bindAddr clock) es x)
    (produced : ∀ e ∈ es, e.Produced Listener parse) {port : UInt16} {app : App}
    (present : app ∈ raw.apps) (lists : port ∈ app.ports)
    (formed : ∀ t ∈ app.targets, WellFormed parse t) (listed : target ∈ app.targets)
    (up : ∀ e ∈ es, e.Upholds target addr) {v : Except ProxyError Unit}
    (steps : Steps (doConnection config port i copyBufSize) (trace i es) (.ret v)) :
    ∃ sock a, .act i ⟨.inr sock, a⟩ ∈ es := by
  cases v with
  | error e =>
    cases failure_of_error accepted fresh run produced present lists steps with
    | empty none_listed =>
      rw [none_listed] at listed
      cases listed
    | exhausted _ passed =>
      rcases passed target listed with drained | in_vain
      · exact (not_drained fresh run drained).elim
      · exact absurd in_vain (reachable_asked fun a h => up _ h).not_inVain
    | @refused t there literal ungrammatical =>
      rcases formed t there with address | ⟨host, p, grammatical⟩
      · exact absurd literal address
      · exact absurd grammatical (ungrammatical host p)
    | copy copied => exact ⟨_, _, copied⟩
  | ok u =>
    obtain ⟨r, asks, rest, split, -, relays⟩ := exec_bind.mp steps
    cases r with
    | error e => cases (exec_ret.mp relays).2
    | ok s =>
      obtain ⟨a, rest, rfl, -⟩ := exec_ask.mp relays
      refine ⟨_, a, mem_trace.mp ?_⟩
      rw [split]
      exact List.mem_append_right _ List.mem_cons_self

/-- What is asked of a task was asked in its `do_connection`. -/
theorem asks_of_act {y : Proxy w Stream} {a : (Forward Stream).Event}
    (step : Step config copyBufSize x (.act i a) y) :
    x.asks? i = some a.1 ∧ x.phase? i = some .connecting := by
  cases step with
  | act connecting acted =>
    cases acted with
    | act asking _ => exact ⟨asks?_some.mpr ⟨_, asking⟩, connecting⟩

/-- A task does not leave `do_connection` but by its end. -/
theorem begun_step {y : Proxy w Stream} {e : Event Stream} (orderly : Orderly C Q x)
    (before : ∃ p, x.phase? i = some p ∧ p.begun = true) (step : Step config copyBufSize x e y) :
    ∃ p, y.phase? i = some p ∧ p.begun = true := by
  obtain ⟨p, here, begun⟩ := before
  cases step with
  | server moved _ _ => exact Server.begun_step orderly.synced.accounted.waiting moved here begun
  | enter moved _ _ => exact Server.begun_step orderly.synced.accounted.waiting moved here begun
  | act _ _ => exact ⟨p, here, begun⟩

end Proxy

/-- A client of an app whose target is up is connected at last, unless it is cut off. -/
theorem served_while_up {raw : RawConfig} {config : ProxyConfig} {targets : TargetState}
    (accepted : ProxyConfig.tryFrom raw = .ok config) (fresh : TargetState.tryFrom raw = .ok targets)
    {app : App} (present : app ∈ raw.apps) (formed : ∀ t ∈ app.targets, WellFormed parse t)
    {target : String} (listed : target ∈ app.targets) {addr : SocketAddr} {C Q copyBufSize : Nat}
    {bindAddr : IpAddr} {clock : Instant} {b : Behaviour (@Proxy.Step w Stream config copyBufSize)}
    (start : b.state 0 = .new config targets C Q bindAddr clock) (room : 0 < C)
    (fair : ∀ i, b.WeaklyFair fun e => e.mover? = some i)
    (produced : ∀ n e, b.label n = some e → e.Produced Listener parse)
    (up : ∀ n e, b.label n = some e → e.Upholds target addr) (i : Nat) :
    b.LeadsTo
      (fun x => ∃ port ∈ app.ports, x.server.portOf? i = some port ∧
        ∃ p, x.phase? i = some p ∧ p.begun = false)
      fun x => (∃ sock, x.asks? i = some (.inr sock)) ∨ x.phase? i = some (.finished .aborted) ∨
        x.phase? i = some (.finished .panicked) := by
  have always := Proxy.orderly_always start
  rintro n ⟨port, lists, at_port, p, here, before⟩
  obtain ⟨m, after, r, ended⟩ := Proxy.task_ends always fair room i n ⟨p, here⟩
  by_cases cut : r = .aborted
  · subst cut
    exact ⟨m, after, .inr (.inl ended)⟩
  by_cases broken : r = .panicked
  · subst broken
    exact ⟨m, after, .inr (.inr ended)⟩
  -- It has run to its end, so it has been through the copy.
  obtain ⟨es, run, taken⟩ := b.reached start m
  obtain ⟨port', v, at_port', -, steps⟩ := Proxy.returned_steps run ended cut broken
  have kept : (b.state m).server.portOf? i = some port :=
    Behaviour.stays (P := fun x => x.server.portOf? i = some port) always
      (fun _ _ _ _ known step => Proxy.portOf?_run (.single step) known) at_port after
  obtain rfl : port' = port := Option.some.inj (at_port'.symm.trans kept)
  have along {Q : Proxy.Event Stream → Prop} (all : ∀ n e, b.label n = some e → Q e) : ∀ e ∈ es, Q e := by
    intro e inside
    obtain ⟨k, -, step⟩ := taken e inside
    exact all k e step
  obtain ⟨sock, a, copied⟩ := Proxy.copied_of_returned accepted fresh run (along produced) present lists formed
    listed (along up) steps
  obtain ⟨k, -, copies⟩ := taken _ copied
  obtain ⟨asks, connecting⟩ := Proxy.asks_of_act (b.moves k _ copies)
  refine ⟨k, ?_, .inl ⟨sock, asks⟩⟩
  -- Before `n` it had not begun.
  by_contra early
  obtain ⟨q, at_q, begun⟩ := Behaviour.stays (P := fun x => ∃ p, x.phase? i = some p ∧ p.begun = true) always
    (fun _ _ _ => Proxy.begun_step) ⟨_, connecting, rfl⟩ (Nat.le_of_not_le early)
  rw [here] at at_q
  cases at_q
  rw [before] at begun
  cases begun

theorem servedToEnd_up : ∀ e ∈ servedToEnd,
    e.Produced Unit (fun _ => none) ∧ e.Upholds "localhost:8080" localBackend := by
  intro e he
  rcases List.mem_append.mp he with before | last
  · refine ⟨forwarded_produced e before, ?_⟩
    simp only [forwarded, listening, List.map_cons, List.map_nil, List.cons_append, List.nil_append,
      List.mem_cons, List.not_mem_nil, or_false] at before
    rcases before with rfl | rfl | rfl | rfl | rfl | rfl | rfl | rfl | rfl | rfl | rfl | rfl
    case inr.inr.inr.inr.inr.inr.inr.inr.inl => exact fun _ => ⟨[localBackend], rfl, List.mem_cons_self⟩
    case inr.inr.inr.inr.inr.inr.inr.inr.inr.inl => exact fun _ => ⟨(), rfl⟩
    all_goals trivial
  · simp only [List.mem_cons, List.not_mem_nil, or_false] at last
    rcases last with rfl | rfl
    · exact ⟨trivial, trivial⟩
    · exact ⟨trivial, trivial⟩

theorem servedToEnd_served : ∃ b : Behaviour (@Proxy.Step 64 Unit onePort 1024),
    b.state 0 = .new onePort onePortTargets 1 1 localhostAddr 0 ∧
    b.LeadsTo
      (fun x => ∃ port ∈ [(80 : UInt16)], x.server.portOf? 0 = some port ∧
        ∃ p, x.phase? 0 = some p ∧ p.begun = false)
      fun x => (∃ sock, x.asks? 0 = some (.inr sock)) ∨ x.phase? 0 = some (.finished .aborted) ∨
        x.phase? 0 = some (.finished .panicked) := by
  obtain ⟨b, start, fair, along⟩ := servedToEnd_fair
  have number : Decimal ['8', '0', '8', '0'] 8080 := ⟨nofun, by simp, rfl⟩
  have grammatical : WellFormed (fun _ => none) "localhost:8080" :=
    .inr ⟨"localhost", 8080, _, by decide, by decide, [], _, rfl, .inl rfl, number⟩
  have present : ⟨"web", [80], ["localhost:8080"]⟩ ∈ onePortRaw.apps := List.mem_cons_self
  exact ⟨b, start, served_while_up (show ProxyConfig.tryFrom onePortRaw = .ok onePort from rfl)
    onePortTargets_loaded present (List.forall_mem_singleton.mpr grammatical) List.mem_cons_self start
    (by decide) fair (fun n e taken => (servedToEnd_up e (along n e taken)).1)
    (fun n e taken => (servedToEnd_up e (along n e taken)).2) 0⟩

end TcpProxy
