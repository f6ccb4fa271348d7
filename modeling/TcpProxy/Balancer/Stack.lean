import TcpProxy.Balancer.SimpleCooldownHandler
import TcpProxy.Ingest
import Mathlib.Data.BitVec

/-! # The store of the production stack

All calls share one balancer: a counter map, a status map and the clock.  `Answers`
says which answer every operation may get from a store and what it leaves behind.
The resolver and the connector may answer anything, the clock never runs backwards,
and counters are `w`-bit and wrap. -/

namespace TcpProxy

open Effects Lts

variable {w : Nat} {Stream : Type}

/-- The shared state of `RoundRobinBalancer` and `SimpleCooldownHandler`. -/
structure Store (w : Nat) where
  counters : UInt16 → Option (BitVec w)
  targets : TargetState
  clock : Instant

namespace Store

/-- The `HashMap` of counters built by `RoundRobinBalancer::new`. -/
def newCounters (config : ProxyConfig) : UInt16 → Option (BitVec w) :=
  config.ports.foldl (fun counters port q => if q = port then some 0 else counters q)
    fun _ => none

/-- `RoundRobinBalancer::new` over a `SimpleCooldownHandler::new(targets)`. -/
def new (config : ProxyConfig) (targets : TargetState) (clock : Instant) : Store w :=
  ⟨newCounters config, targets, clock⟩

/-- `fetch_add(1)` on the counter of `port`. -/
def bump (s : Store w) (port : UInt16) : Store w :=
  { s with counters := fun q => if q = port then (s.counters q).map (· + 1) else s.counters q }

/-- `s.Answers e t`: the operation of `e` may be answered as `e` says in `s`, which
    leaves `t`. -/
def Answers (s : Store w) : (Stack Stream).Event → Store w → Prop
  | ⟨.fetchAdd port, a⟩, t => a = (s.counters port).map BitVec.toNat ∧ t = s.bump port
  | ⟨.load target, a⟩, t => a = s.targets.getTargetStatus target ∧ t = s
  | ⟨.store target status, a⟩, t =>
    a = (s.targets.updateTargetStatus target status).2 ∧
      t = { s with targets := (s.targets.updateTargetStatus target status).1 }
  | ⟨.now, reading⟩, t => s.clock ≤ reading ∧ t = { s with clock := reading }
  | ⟨.lookupHost _, _⟩, t => t = s
  | ⟨.connectAddr _, _⟩, t => t = s

/-- The store moves from `s` to `t` along the answered operations `tr`. -/
abbrev Runs (s : Store w) (tr : List (Stack Stream).Event) (t : Store w) : Prop :=
  Run Answers s tr t

@[simp] theorem bump_counters (s : Store w) (port q : UInt16) : (s.bump port).counters q =
    if q = port then (s.counters q).map (· + 1) else s.counters q := rfl

theorem newCounters_isSome {config : ProxyConfig} {port : UInt16} :
    (newCounters (w := w) config port).isSome ↔ port ∈ config.ports := by
  have general : ∀ (ports : List UInt16) (c : UInt16 → Option (BitVec w)),
      (ports.foldl (fun counters port q => if q = port then some 0 else counters q) c port).isSome ↔
        port ∈ ports ∨ (c port).isSome := by
    intro ports
    induction ports with
    | nil => intro c; simp
    | cons p ports ih =>
      intro c
      rw [List.foldl_cons, ih]
      by_cases h : port = p <;> simp [h]
  rw [newCounters, general]
  simp

end Store

namespace TargetState

theorem updateTargetStatus_status (s : TargetState) (target t : String) (status : BackendStatus) :
    (s.updateTargetStatus target status).1.targetStatus t =
      if t = target ∧ (s.targetStatus target).isSome then some status else s.targetStatus t := by
  unfold updateTargetStatus
  cases h : s.targetStatus target with
  | none => simp
  | some old => simp

/-- No operation adds or removes an entry of the status map. -/
theorem updateTargetStatus_isSome (s : TargetState) (target t : String) (status : BackendStatus) :
    ((s.updateTargetStatus target status).1.targetStatus t).isSome = (s.targetStatus t).isSome := by
  rw [updateTargetStatus_status]
  split
  next h => rw [h.1, h.2]; rfl
  · rfl

theorem updateTargetStatus_ne {s : TargetState} {target t : String} {status : BackendStatus}
    (h : t ≠ target) : (s.updateTargetStatus target status).1.targetStatus t = s.targetStatus t := by
  rw [updateTargetStatus_status, if_neg fun hc => h hc.1]

theorem updateTargetStatus_eq {s : TargetState} {target : String} {status : BackendStatus}
    (h : (s.targetStatus target).isSome) :
    (s.updateTargetStatus target status).1.targetStatus target = some status ∧
      (s.updateTargetStatus target status).2 = .ok () := by
  constructor
  · rw [updateTargetStatus_status, if_pos ⟨rfl, h⟩]
  · obtain ⟨old, hold⟩ := Option.isSome_iff_exists.mp h
    simp [updateTargetStatus, hold]

theorem getTargetStatus_of_some {s : TargetState} {target : String} {status : BackendStatus}
    (h : s.targetStatus target = some status) : s.getTargetStatus target = .ok status := by
  simp [getTargetStatus, h]

end TargetState

end TcpProxy
