import TcpProxy.Proxy.Forwarding
import TcpProxy.Balancer.Tickets
import TcpProxy.Balancer.Consistency

/-! # Tickets go to admitted connections

Which connection draws which value of the round-robin counter, in a run of the whole proxy:
a connection draws once, when it has been let into `do_connection`, and the values are
handed out in that order, so rejected and queued connections never shift the rotation. -/

namespace TcpProxy

open Effects Effects.Program Effects.Pool Lts

variable {w : Nat} {Stream : Type}

/-! ## Draws and who makes them -/

/-- A draw from the counter of `port`: who drew, and what. -/
def drawnBy? (port : UInt16) : TaskLabel Stream → Option (Nat × Nat)
  | .act i ⟨.fetchAdd q, some k⟩ => if q = port then some (i, k) else none
  | _ => none

def tickets (port : UInt16) (ls : List (TaskLabel Stream)) : List (Nat × Nat) :=
  ls.filterMap (drawnBy? port)

def isDraw (port : UInt16) : (Stack Stream).Event → Bool
  | ⟨.fetchAdd q, some _⟩ => q = port
  | _ => false

theorem drawnBy?_act {port : UInt16} {i j k : Nat} {e : (Stack Stream).Event} :
    drawnBy? port (.act j e) = some (i, k) ↔ j = i ∧ e = ⟨.fetchAdd port, some k⟩ := by
  obtain ⟨op, a⟩ := e
  cases op with
  | fetchAdd q =>
    cases a with
    | none => simp [drawnBy?]
    | some k' =>
      by_cases same : q = port
      · subst same
        simp [drawnBy?]
      · simp [drawnBy?, same]
  | load | store | now | lookupHost | connectAddr => simp [drawnBy?]

theorem mem_tickets {port : UInt16} {i k : Nat} {ls : List (TaskLabel Stream)} :
    (i, k) ∈ tickets port ls ↔ .act i ⟨.fetchAdd port, some k⟩ ∈ ls := by
  rw [tickets, List.mem_filterMap]
  constructor
  · rintro ⟨l, present, drew⟩
    cases l with
    | spawn j call => cases drew
    | act j e =>
      obtain ⟨rfl, rfl⟩ := drawnBy?_act.mp drew
      exact present
  · intro present
    exact ⟨_, present, drawnBy?_act.mpr ⟨rfl, rfl⟩⟩

theorem tickets_values (port : UInt16) (ls : List (TaskLabel Stream)) :
    (tickets port ls).map Prod.snd = draws port ls := by
  rw [tickets, draws, List.map_filterMap]
  refine List.filterMap_congr fun l _ => ?_
  rcases l with ⟨j, call⟩ | ⟨j, op, a⟩
  · rfl
  · cases op with
    | fetchAdd q =>
      cases a with
      | none => rfl
      | some k =>
        simp only [drawnBy?, drawn?]
        split
        · rfl
        · rfl
    | load | store | now | lookupHost | connectAddr => rfl

theorem isDraw_iff {port : UInt16} {e : (Stack Stream).Event} :
    isDraw port e = true ↔ ∃ k, e = ⟨.fetchAdd port, some k⟩ := by
  obtain ⟨op, a⟩ := e
  cases op with
  | fetchAdd q => cases a <;> simp [isDraw]
  | load | store | now | lookupHost | connectAddr => simp [isDraw]

/-- The draws of one task among the draws of all. -/
theorem count_tickets (port : UInt16) (i : Nat) (ls : List (TaskLabel Stream)) :
    ((tickets port ls).map Prod.fst).count i = (traceOf i ls).countP (isDraw port) := by
  induction ls with
  | nil => rfl
  | cons l ls ih =>
    cases l with
    | spawn j call => exact ih
    | act j e =>
      cases draw : drawnBy? port (.act j e) with
      | none =>
        have other : isDraw port e = false := by
          by_contra drew
          obtain ⟨k, rfl⟩ := isDraw_iff.mp (by simpa using drew)
          simp [drawnBy?] at draw
        rw [tickets, List.filterMap_cons_none draw, ← tickets, ih, traceOf]
        by_cases same : j = i
        · simp [same, other]
        · simp [same]
      | some drew =>
        obtain ⟨-, rfl⟩ := drawnBy?_act.mp draw
        rw [tickets, List.filterMap_cons_some draw, ← tickets, List.map_cons, List.count_cons, ih, traceOf]
        obtain ⟨rfl, -⟩ := drawnBy?_act.mp draw
        by_cases same : drew.1 = i
        · simp [same, isDraw]
        · simp [same]

theorem countP_noDraw {port : UInt16} {tr : List (Stack Stream).Event} (quiet : ∀ e ∈ tr, NoDraw e.op) :
    tr.countP (isDraw port) = 0 := by
  rw [List.countP_eq_zero]
  intro e he draw
  obtain ⟨k, rfl⟩ := isDraw_iff.mp draw
  exact quiet _ he

/-- Every counter starts at zero. -/
theorem Store.newCounters_zero {config : ProxyConfig} {port : UInt16} (listed : port ∈ config.ports) :
    newCounters (w := w) config port = some 0 := by
  have general : ∀ (ports : List UInt16) (counters : UInt16 → Option (BitVec w)),
      (∀ k, counters port = some k → k = 0) →
      ∀ k, ports.foldl (fun counters port q => if q = port then some 0 else counters q) counters port =
        some k → k = 0 := by
    intro ports
    induction ports with
    | nil => exact fun _ zero => zero
    | cons p ports ih =>
      intro counters zero
      refine ih _ fun k hk => ?_
      by_cases same : port = p
      · simpa [same] using hk.symm
      · exact zero k (by simpa [same] using hk)
  obtain ⟨k, hk⟩ := Option.isSome_iff_exists.mp (newCounters_isSome.mpr listed)
  have initially : ∀ k : BitVec w, (none : Option (BitVec w)) = some k → k = 0 := by
    intro k absent
    cases absent
  rw [hk, general config.ports (fun _ => none) initially k hk]

section Calls

variable {config : ProxyConfig} {ls : List (TaskLabel Stream)} {s : Store w} {c : Tasks w Stream}

/-- No task draws twice. -/
theorem nodup_tickets (run : Run (Tasks.Step config) (.idle s) ls c) (port : UInt16) :
    ((tickets port ls).map Prod.fst).Nodup := by
  rw [List.nodup_iff_count_le_one]
  intro i
  rw [count_tickets]
  by_cases drew : ∃ k, .act i ⟨.fetchAdd port, some k⟩ ∈ ls
  · obtain ⟨k, drew⟩ := drew
    obtain ⟨call, q, -, -, steps⟩ := acting_steps run rfl drew
    obtain ⟨-, pool, rest, -, -, first, quiet, -⟩ := draw_of_call steps (mem_traceOf.mpr drew)
    rw [first, List.countP_cons, countP_noDraw quiet]
    split
    · exact Nat.le_refl _
    · exact Nat.zero_le _
  · have none_drawn : (traceOf i ls).countP (isDraw port) = 0 := by
      rw [List.countP_eq_zero]
      intro e he draw
      obtain ⟨k, rfl⟩ := isDraw_iff.mp draw
      exact drew ⟨k, mem_traceOf.mp he⟩
    rw [none_drawn]
    exact Nat.zero_le _

/-- A call on a pool that is not empty starts with its draw. -/
theorem draws_first {port : UInt16} {pool : List String} (hpool : config.getPool port = some pool)
    (nonempty : 0 < pool.length) {tr : List (Stack Stream).Event}
    {q : Program (Stack Stream) (CallResult Stream)}
    (steps : Steps (Call.body config (.connectBackend port)) tr q) (started : tr ≠ []) :
    ∃ a rest, tr = ⟨.fetchAdd port, a⟩ :: rest := by
  obtain ⟨next, starts, -⟩ : ∃ next : Option Nat → Program (Stack Stream) (CallResult Stream),
      Call.body config (.connectBackend port) = .ask (.fetchAdd port) next ∧
      (∀ drawn, Uses NoDraw (next drawn)) ∧
      ∀ k, ∃ target, pool[k % pool.length]? = some target ∧
        ∃ later, next (some k) = .ask (.load target) later := call_after_draw hpool nonempty
  rw [starts] at steps
  rcases steps_ask steps with ⟨rfl, -⟩ | ⟨a, rest, rfl, -⟩
  · exact absurd rfl started
  · exact ⟨a, rest, rfl⟩

end Calls

/-! ## In a run of the proxy -/

section Proxy

variable {raw : RawConfig} {config : ProxyConfig} {targets : TargetState} {C Q copyBufSize : Nat}
  {bindAddr : IpAddr} {clock : Instant} {es : List (Proxy.Event Stream)} {x : Proxy w Stream}

/-- Calls are made on the port their connection was accepted on, which is a configured one. -/
theorem Proxy.port_of_call
    (run : Run (Proxy.Step config copyBufSize) (.new config targets C Q bindAddr clock) es x)
    {i : Nat} {call : Call} (spawned : .spawn i call ∈ es.filterMap Proxy.Event.task?) :
    ∃ port ∈ config.ports, call = .connectBackend port ∧ x.server.portOf? i = some port := by
  obtain ⟨e, port, rfl, entered⟩ := Proxy.entered_of_call spawned
  have at_port : x.server.portOf? i = some port := Proxy.port_of_enter run entered
  exact ⟨port, Server.portOf?_mem (Proxy.server_run run) at_port, rfl, at_port⟩

/-- The connections that draw on a port are those that were accepted on it and have begun to
    ask something of the balancer; each draws once, first of all, the values count up in the
    order of the draws, and the first backend a connection checks is the one at its ticket. -/
theorem dispatched_in_turn (accepted : ProxyConfig.tryFrom raw = .ok config)
    (statuses : TargetState.tryFrom raw = .ok targets) {port : UInt16} {pool : List String}
    (hpool : config.getPool port = some pool) (nonempty : 0 < pool.length)
    (run : Run (Proxy.Step config copyBufSize) (.new config targets C Q bindAddr clock) es x) :
    let drawn := tickets port (es.filterMap Proxy.Event.task?)
    drawn.map Prod.snd = (List.range drawn.length).map (· % 2 ^ w) ∧
    (drawn.map Prod.fst).Nodup ∧
    (∀ i, (∃ k, (i, k) ∈ drawn) ↔ x.server.portOf? i = some port ∧ Proxy.asked i es ≠ []) ∧
    ∀ i k, (i, k) ∈ drawn →
      (∃ p, x.server.admission.phase? i = some p ∧ p.begun = true) ∧
      ∃ rest, Proxy.asked i es = ⟨.fetchAdd port, some k⟩ :: rest ∧ (∀ e ∈ rest, NoDraw e.op) ∧
        ∀ e ∈ rest.head?, ∃ target, pool[k % pool.length]? = some target ∧ e.op = .load target := by
  intro drawn
  obtain ⟨c, calls, watched⟩ := Proxy.calls_run run
  have listed : port ∈ config.ports := by
    obtain ⟨app, present, lists, -⟩ := ProxyConfig.exists_app_of_getPool accepted hpool
    exact (ProxyConfig.mem_ports_iff accepted).mpr ⟨app, present, lists⟩
  have synced : Proxy.Synced C Q x :=
    run.invariant (Proxy.synced_new config targets C Q bindAddr clock)
      fun _ _ _ synced step => Proxy.synced_step synced step
  refine ⟨?_, nodup_tickets calls port, fun i => ⟨?_, ?_⟩, ?_⟩
  · have values := draws_of_run calls (Store.newCounters_zero listed)
    rw [← tickets_values, List.length_map] at values
    simpa using values
  · rintro ⟨k, drew⟩
    have acts := mem_tickets.mp drew
    obtain ⟨call, q, spawned, -, steps⟩ := acting_steps calls rfl acts
    obtain ⟨rfl, -⟩ := draw_of_call steps (mem_traceOf.mpr acts)
    obtain ⟨port', -, same, at_port⟩ := Proxy.port_of_call run spawned
    cases same
    exact ⟨at_port, List.ne_nil_of_mem (mem_traceOf.mpr acts)⟩
  · rintro ⟨at_port, started⟩
    obtain ⟨e, he⟩ := List.exists_mem_of_ne_nil _ started
    obtain ⟨call, q, spawned, -, steps⟩ := acting_steps calls rfl (mem_traceOf.mp he)
    obtain ⟨port', -, rfl, at_port'⟩ := Proxy.port_of_call run spawned
    rw [at_port] at at_port'
    cases at_port'
    obtain ⟨a, rest, first⟩ := draws_first hpool nonempty steps started
    have acts : .act i ⟨.fetchAdd port, a⟩ ∈ es.filterMap Proxy.Event.task? :=
      mem_traceOf.mp (by rw [first]; exact List.mem_cons_self)
    have addressed : ∀ j call, .spawn j call ∈ es.filterMap Proxy.Event.task? →
        call.Addressed raw config := by
      intro j call spawned
      obtain ⟨q, configured, rfl, -⟩ := Proxy.port_of_call run spawned
      exact configured
    obtain ⟨k, rfl⟩ := found_of_run accepted calls (keyed_new statuses clock) addressed i _ acts
    exact ⟨k, mem_tickets.mpr acts⟩
  · intro i k drew
    have acts := mem_tickets.mp drew
    obtain ⟨call, q, spawned, running, steps⟩ := acting_steps calls rfl acts
    obtain ⟨rfl, targets', rest, hpool', -, first, quiet, start⟩ :=
      draw_of_call steps (mem_traceOf.mpr acts)
    rw [hpool] at hpool'
    cases hpool'
    refine ⟨?_, rest, first, quiet, start k rfl⟩
    have related := watched.threads i
    rw [running] at related
    generalize hbody : x.bodies.threads i = body at related
    cases related with
    | some _ => exact synced.begun i _ hbody

end Proxy

theorem forwarded_in_turn : ∃ x : Proxy 64 Unit,
    Run (Proxy.Step onePort 1024) (.new onePort onePortTargets 1 1 localhostAddr 0) forwarded x ∧
    tickets 80 (forwarded.filterMap Proxy.Event.task?) = [(0, 0)] ∧
    ((tickets 80 (forwarded.filterMap Proxy.Event.task?)).map Prod.fst).Nodup := by
  obtain ⟨x, run, -⟩ := forwarded_run
  obtain ⟨-, nodup, -⟩ := dispatched_in_turn (show ProxyConfig.tryFrom onePortRaw = .ok onePort from rfl)
    onePortTargets_loaded (show onePort.getPool 80 = some ["localhost:8080"] from rfl) (by decide) run
  exact ⟨x, run, rfl, nodup⟩

end TcpProxy
