import TcpProxy.Balancer.Concurrent

/-! # Ports with disjoint pools

A call asks only about its own counter and the targets of its own pool.  So a view of
the store that keeps the counter of one port, the status of its targets and the clock
cannot tell the calls of a port with a disjoint pool from nothing at all, and those
calls may be removed from any run. -/

namespace TcpProxy

open Effects Effects.Program Effects.Pool Lts

variable {w : Nat} {Stream : Type} {config : ProxyConfig} {port : UInt16}

/-- Thread `i` was started with a call on `port`. -/
def onPort (port : UInt16) (ls : List (TaskLabel Stream)) (i : Nat) : Bool :=
  ls.any fun
    | .spawn j call => j == i && call == .connectBackend port
    | .act _ _ => false

/-- The part of a run that belongs to calls on `port`. -/
def callsOn (port : UInt16) (ls : List (TaskLabel Stream)) : List (TaskLabel Stream) :=
  ls.filter fun l => onPort port ls l.thread

/-- The pools of the two ports share no target. -/
def Apart (config : ProxyConfig) (port other : UInt16) : Prop :=
  ∀ target, (Call.connectBackend port).Serves config target →
    ¬ (Call.connectBackend other).Serves config target

/-- The operations answered by the clock, the resolver and the connector. -/
def FromEnvironment : StackOp → Prop
  | .now => True
  | .lookupHost _ => True
  | .connectAddr _ => True
  | _ => False

theorem onPort_iff {ls : List (TaskLabel Stream)} {i : Nat} :
    onPort port ls i = true ↔ .spawn i (.connectBackend port) ∈ ls := by
  simp only [onPort, List.any_eq_true]
  constructor
  · intro h
    obtain ⟨l, hl, found⟩ := h
    cases l with
    | spawn j call =>
      simp only [Bool.and_eq_true, beq_iff_eq] at found
      rw [found.1, found.2] at hl
      exact hl
    | act j e => cases found
  · intro h
    exact ⟨_, h, by simp⟩

/-! ## The view of one port -/

/-- What the calls on `port` can see of a store agrees in `s` and `t`; the clock of `t`
    may lag behind. -/
structure SameView (config : ProxyConfig) (port : UInt16) (s t : Store w) : Prop where
  counter : t.counters port = s.counters port
  status : ∀ target, (Call.connectBackend port).Serves config target →
    t.targets.targetStatus target = s.targets.targetStatus target
  clock : t.clock ≤ s.clock

variable {s t s' : Store w} {e : (Stack Stream).Event}

/-- A step of a call on a port with a disjoint pool does not change the view. -/
theorem SameView.invisible {other : UInt16} (view : SameView config port s t) (ne : other ≠ port)
    (apart : Apart config port other) (asks : (Call.connectBackend other).MayAsk config e.op)
    (answered : s.Answers e s') : SameView config port s' t := by
  obtain ⟨op, a⟩ := e
  cases op with
  | fetchAdd q =>
    obtain ⟨-, rfl⟩ := answered
    have same : other = q := by simpa [Call.MayAsk] using asks
    subst same
    refine ⟨?_, view.status, view.clock⟩
    rw [Store.bump_counters, if_neg ne.symm]
    exact view.counter
  | load target =>
    obtain ⟨-, rfl⟩ := answered
    exact view
  | store target status =>
    obtain ⟨-, rfl⟩ := answered
    refine ⟨view.counter, fun own serves => ?_, view.clock⟩
    -- The stored target is in the other pool, so it is not one of ours.
    have differs : own ≠ target := by
      intro same
      rw [same] at serves
      exact apart target serves asks
    rw [TargetState.updateTargetStatus_ne differs]
    exact view.status own serves
  | now =>
    obtain ⟨later, rfl⟩ := answered
    exact ⟨view.counter, view.status, view.clock.trans later⟩
  | lookupHost target => cases answered; exact view
  | connectAddr addr => cases answered; exact view

/-- A step of a call on `port` can be repeated with the same answer in any store with
    the same view. -/
theorem SameView.repeats (view : SameView config port s t)
    (asks : (Call.connectBackend port).MayAsk config e.op) (answered : s.Answers e s') :
    ∃ t', t.Answers e t' ∧ SameView config port s' t' := by
  obtain ⟨op, a⟩ := e
  cases op with
  | fetchAdd q =>
    obtain ⟨rfl, rfl⟩ := answered
    have same : port = q := by simpa [Call.MayAsk] using asks
    subst same
    refine ⟨t.bump port, ⟨by rw [view.counter], rfl⟩, ?_, view.status, view.clock⟩
    simp [view.counter]
  | load target =>
    obtain ⟨rfl, rfl⟩ := answered
    have same := view.status target asks
    refine ⟨t, ⟨?_, rfl⟩, view⟩
    rw [TargetState.getTargetStatus, TargetState.getTargetStatus, same]
  | store target status =>
    obtain ⟨rfl, rfl⟩ := answered
    have same := view.status target asks
    refine ⟨_, ⟨?_, rfl⟩, view.counter, fun own serves => ?_, view.clock⟩
    · simp only [TargetState.updateTargetStatus, same]
      cases s.targets.targetStatus target <;> rfl
    · show (t.targets.updateTargetStatus target status).1.targetStatus own = _
      rw [TargetState.updateTargetStatus_status, TargetState.updateTargetStatus_status, same,
        view.status own serves]
  | now =>
    obtain ⟨later, rfl⟩ := answered
    exact ⟨_, ⟨view.clock.trans later, rfl⟩, view.counter, view.status, Nat.le_refl _⟩
  | lookupHost target => cases answered; exact ⟨t, rfl, view⟩
  | connectAddr addr => cases answered; exact ⟨t, rfl, view⟩

/-! ## Determinism up to the environment -/

theorem answer_determined {op : StackOp} {a a' : (Stack Stream).Ans op}
    (own : ¬ FromEnvironment op) (h : s.Answers ⟨op, a⟩ t) (h' : s.Answers ⟨op, a'⟩ s') :
    a = a' := by
  cases op with
  | fetchAdd | load | store => rw [h.1, h'.1]
  | now | lookupHost | connectAddr => exact absurd trivial own

theorem effect_determined (h : s.Answers e t) (h' : s.Answers e s') : t = s' := by
  obtain ⟨op, a⟩ := e
  cases op with
  | fetchAdd | load | store | now => rw [h.2, h'.2]
  | lookupHost | connectAddr => cases h; cases h'; rfl

/-! ## Removing the other ports -/

/-- Calls on ports whose pools share no target with that of `port` can be removed from
    any run.  What is left is a run by itself, and it is the only one the clock, the
    resolver and the connector can lead to when they answer alike: each call makes the
    same operations with the same answers and returns the same result. -/
theorem disjoint_ports_isolated {ls : List (TaskLabel Stream)} {c : Tasks w Stream}
    (run : Run (Tasks.Step config) (Tasks.idle s) ls c)
    (calls : ∀ i call, .spawn i call ∈ ls →
      ∃ q, call = .connectBackend q ∧ (q ≠ port → Apart config port q)) :
    (∃ d, Run (Tasks.Step config) (Tasks.idle s) (callsOn port ls) d) ∧
    ∀ ms d, Run (Tasks.Step config) (Tasks.idle s) ms d →
      List.Forall₂ (Alike FromEnvironment) (callsOn port ls) ms →
      (∀ i, onPort port ls i = true →
        traceOf i ms = traceOf i ls ∧ d.threads i = c.threads i) ∧
      d.store.counters port = c.store.counters port ∧
      ∀ target, (Call.connectBackend port).Serves config target →
        d.store.targets.targetStatus target = c.store.targets.targetStatus target := by
  let kept : StackOp → Prop := (Call.connectBackend port).MayAsk config
  let removed : StackOp → Prop := fun op =>
    ∃ q, q ≠ port ∧ Apart config port q ∧ (Call.connectBackend q).MayAsk config op
  -- Every operation of the run belongs to one side or the other.
  have ops : ∀ i e, .act i e ∈ ls → if onPort port ls i = true then kept e.op else removed e.op := by
    refine uses_invariant (fun i op => if onPort port ls i = true then kept op else removed op)
      (fun i call spawned => ?_) (by simp [Tasks.idle]) run
    obtain ⟨q, rfl, apart⟩ := calls i call spawned
    by_cases own : onPort port ls i = true
    · have same : Call.connectBackend q = .connectBackend port :=
        spawn_once run spawned (onPort_iff.mp own)
      simp only [if_pos own]
      rw [same]
      exact Call.uses_body config _
    · have ne : q ≠ port := by
        intro same
        rw [same] at spawned
        exact own (onPort_iff.mpr spawned)
      simp only [if_neg own]
      exact uses_mono (fun op asks => ⟨q, ne, apart ne, asks⟩) (Call.uses_body config _)
  have agree : Agree (fun i => onPort port ls i = true) (SameView config port) (Tasks.idle s)
      (Tasks.idle s : Tasks w Stream) :=
    ⟨⟨rfl, fun _ _ => rfl, Nat.le_refl _⟩, fun _ _ => rfl⟩
  obtain ⟨d, alone, view, threads⟩ := unwinding (fun i => onPort port ls i = true) kept removed
    (fun view ⟨_, ne, apart, asks⟩ answered => view.invisible ne apart asks answered)
    (fun view asks answered => view.repeats asks answered) run ops agree
  have same : (ls.filter fun l => decide (onPort port ls l.thread = true)) = callsOn port ls := by
    simp [callsOn]
  rw [same] at alone
  refine ⟨⟨d, alone⟩, ?_⟩
  intro ms d' alone' alike
  obtain ⟨rfl, rfl⟩ := run_determined answer_determined effect_determined alone alone' alike
  refine ⟨fun i own => ⟨?_, threads i own⟩, view.counter, view.status⟩
  rw [← same]
  exact traceOf_filter (fun i => onPort port ls i = true) own ls

/-! Two ports with one backend each, and a call on the second inside a call on the first. -/

def twoPorts : ProxyConfig :=
  ⟨[["a:1"], ["b:2"]], ((∅ : Std.TreeMap UInt16 Nat).insert 8080 0).insert 9090 1⟩

def twoPortsStore : Store 64 := .new twoPorts ⟨fun _ => some (.alive none)⟩ 0

def interleavedCalls : List (TaskLabel Unit) :=
  [.spawn 0 (.connectBackend 8080), .spawn 1 (.connectBackend 9090),
    .act 1 ⟨.fetchAdd 9090, some 0⟩, .act 0 ⟨.fetchAdd 8080, some 0⟩,
    .act 1 ⟨.load "b:2", .ok (.alive none)⟩, .act 0 ⟨.load "a:1", .ok (.alive none)⟩]

theorem interleavedCalls_run :
    ∃ c, Run (Tasks.Step twoPorts) (Tasks.idle twoPortsStore) interleavedCalls c :=
  ⟨_, .cons (.spawn rfl) (.cons (.spawn rfl) (.cons (.act rfl ⟨rfl, rfl⟩) (.cons (.act rfl ⟨rfl, rfl⟩)
    (.cons (.act rfl ⟨rfl, rfl⟩) (.cons (.act rfl ⟨rfl, rfl⟩) (.nil _))))))⟩

theorem interleavedCalls_apart (i : Nat) (call : Call) (h : .spawn i call ∈ interleavedCalls) :
    ∃ q, call = .connectBackend q ∧ (q ≠ 8080 → Apart twoPorts 8080 q) := by
  have started : call = .connectBackend 8080 ∨ call = .connectBackend 9090 := by
    simp only [interleavedCalls, List.mem_cons, Label.spawn.injEq, reduceCtorEq, List.not_mem_nil,
      or_false] at h
    exact h.imp And.right And.right
  cases started with
  | inl own => exact ⟨8080, own, fun ne => absurd rfl ne⟩
  | inr other =>
    refine ⟨9090, other, fun _ target serves served => ?_⟩
    obtain ⟨pool, hpool, member⟩ := serves
    obtain ⟨pool', hpool', member'⟩ := served
    have first : twoPorts.getPool 8080 = some ["a:1"] := rfl
    have second : twoPorts.getPool 9090 = some ["b:2"] := rfl
    rw [first] at hpool
    rw [second] at hpool'
    cases hpool
    cases hpool'
    simp only [List.mem_singleton] at member member'
    rw [member] at member'
    simp at member'

theorem interleavedCalls_isolated : ∃ c, Run (Tasks.Step twoPorts) (Tasks.idle twoPortsStore)
      interleavedCalls c ∧
    (∃ d, Run (Tasks.Step twoPorts) (Tasks.idle twoPortsStore) (callsOn 8080 interleavedCalls) d) ∧
    ∀ ms d, Run (Tasks.Step twoPorts) (Tasks.idle twoPortsStore) ms d →
      List.Forall₂ (Alike FromEnvironment) (callsOn 8080 interleavedCalls) ms →
      (∀ i, onPort 8080 interleavedCalls i = true →
        traceOf i ms = traceOf i interleavedCalls ∧ d.threads i = c.threads i) ∧
      d.store.counters 8080 = c.store.counters 8080 ∧
      ∀ target, (Call.connectBackend 8080).Serves twoPorts target →
        d.store.targets.targetStatus target = c.store.targets.targetStatus target := by
  obtain ⟨c, run⟩ := interleavedCalls_run
  exact ⟨c, run, disjoint_ports_isolated run interleavedCalls_apart⟩

end TcpProxy
