import TcpProxy.Errors
import TcpProxy.Lib.Semaphore
import TcpProxy.Lib.Run
import Mathlib.Data.List.Basic

/-! # Admission of connections

The two semaphores of `ProxyServer` and every connection task spawned under them by
`accept_connection`, in the order of their spawning.  A task is known by its place in
that list, which is also how it stands in the waiters of `openConnections`; nobody
waits for a queue slot, so `queuedConnections` has no possible waiter. -/

namespace TcpProxy

/-- What a change to one element leaves alone, it leaves alone in the whole list. -/
theorem map_modify_eq {α β : Type} (l : List α) (i : Nat) {f : α → α} {g : α → β}
    (h : ∀ x, g (f x) = g x) : (l.modify i f).map g = l.map g := by
  apply List.ext_getElem?
  intro j
  rw [List.getElem?_map, List.getElem?_map, List.getElem?_modify]
  by_cases same : i = j
  · cases l[j]? <;> simp [same, h]
  · cases l[j]? <;> simp [same]

/-- A change to one element moves a sum by the change of its weight. -/
theorem sum_modify {α : Type} {l : List α} {i : Nat} {x : α} (h : l[i]? = some x) (f : α → α)
    (weight : α → Nat) :
    ((l.modify i f).map weight).sum + weight x = (l.map weight).sum + weight (f x) := by
  induction l generalizing i with
  | nil => cases h
  | cons a l ih =>
    cases i with
    | zero =>
      cases h
      simp only [List.modify_zero_cons, List.map_cons, List.sum_cons]
      omega
    | succ i =>
      have rest := ih h
      simp only [List.modify_succ_cons, List.map_cons, List.sum_cons]
      omega

theorem countP_eq_sum {α : Type} (l : List α) (p : α → Bool) :
    l.countP p = (l.map fun x => (p x).toNat).sum := by
  induction l with
  | nil => rfl
  | cons a l ih =>
    rw [List.countP_cons, List.map_cons, List.sum_cons, ih]
    cases p a with
    | false => simp
    | true =>
      simp only [if_true, Bool.toNat_true]
      omega

/-- How a connection task ended: `do_connection` returned or panicked, or the task was
    aborted with the `JoinSet` that held it. -/
inductive TaskEnd where
  | ok
  | err (e : ProxyError)
  | panicked
  | aborted
  deriving DecidableEq

/-- Where a connection task stands. -/
inductive Phase where
  /-- spawned with an open permit, not polled yet -/
  | accepted
  /-- spawned with a queue slot, not polled yet -/
  | queued
  /-- in the FIFO of `openConnections` -/
  | waiting
  /-- assigned an open permit, not resumed yet -/
  | assigned
  /-- resumed with the open permit, `queue_slot` not dropped yet -/
  | admitted
  /-- in `do_connection` -/
  | connecting
  | finished (result : TaskEnd)
  deriving DecidableEq

namespace Phase

/-- An open permit is held by the task or assigned to it. -/
def holdsOpen : Phase → Bool
  | accepted | assigned | admitted | connecting => true
  | queued | waiting | finished _ => false

def holdsSlot : Phase → Bool
  | queued | waiting | assigned | admitted => true
  | accepted | connecting | finished _ => false

def isConnecting : Phase → Bool
  | connecting => true
  | _ => false

def unfinished : Phase → Bool
  | finished _ => false
  | _ => true

end Phase

/-- A connection task, in the `JoinSet` of its listener until it is reaped. -/
structure Connection where
  listener : Nat
  phase : Phase
  reaped : Bool
  deriving DecidableEq

structure Admission where
  openConnections : Semaphore Nat
  queuedConnections : Semaphore Empty
  connections : List Connection
  deriving DecidableEq

namespace Admission

def new (maxConnections maxQueue : Nat) : Admission :=
  ⟨.new maxConnections, .new maxQueue, []⟩

def phase? (s : Admission) (i : Nat) : Option Phase := (s.connections[i]?).map Connection.phase

def setPhase (s : Admission) (i : Nat) (p : Phase) : Admission :=
  { s with connections := s.connections.modify i ({ · with phase := p }) }

def spawn (s : Admission) (listener : Nat) (p : Phase) : Admission :=
  { s with connections := s.connections ++ [⟨listener, p, false⟩] }

/-- The drop of an open permit: it is handed to the first waiter. -/
def releaseOpen (s : Admission) : Admission :=
  let t := { s with openConnections := s.openConnections.release.2 }
  match s.openConnections.release.1 with
  | none => t
  | some i => t.setPhase i .assigned

/-- The drop of a `queue_slot`. -/
def releaseSlot (s : Admission) : Admission :=
  { s with queuedConnections := s.queuedConnections.release.2 }

/-- The tasks whose phase is one of `q`. -/
def held (s : Admission) (q : Phase → Bool) : Nat := s.connections.countP fun c => q c.phase

@[simp] theorem setPhase_open (s : Admission) (i : Nat) (p : Phase) :
    (s.setPhase i p).openConnections = s.openConnections := rfl

@[simp] theorem setPhase_slots (s : Admission) (i : Nat) (p : Phase) :
    (s.setPhase i p).queuedConnections = s.queuedConnections := rfl

theorem phase?_setPhase (s : Admission) (i j : Nat) (p : Phase) :
    (s.setPhase i p).phase? j = if i = j then (s.phase? j).map fun _ => p else s.phase? j := by
  simp only [phase?, setPhase, List.getElem?_modify]
  split <;> cases s.connections[j]? <;> rfl

theorem phase?_setPhase_self {s : Admission} {i : Nat} {p : Phase} (h : s.phase? i = some p)
    (p' : Phase) : (s.setPhase i p').phase? i = some p' := by
  simp [phase?_setPhase, h]

theorem phase?_setPhase_ne (s : Admission) {i j : Nat} (h : i ≠ j) (p : Phase) :
    (s.setPhase i p).phase? j = s.phase? j := by
  simp [phase?_setPhase, h]

theorem phase?_spawn (s : Admission) (listener j : Nat) (p : Phase) :
    (s.spawn listener p).phase? j = if j = s.connections.length then some p else s.phase? j := by
  simp only [phase?, spawn, List.getElem?_append]
  by_cases before : j < s.connections.length
  · have inside : j ≠ s.connections.length := by omega
    simp [before, inside]
  · by_cases last : j = s.connections.length
    · simp [last]
    · have outside : j - s.connections.length ≠ 0 := by omega
      simp [before, last, outside]

/-- Moving one task to another phase moves it from one count to another. -/
theorem held_setPhase {s : Admission} {i : Nat} {p : Phase} (h : s.phase? i = some p)
    (p' : Phase) (q : Phase → Bool) :
    (s.setPhase i p').held q + (q p).toNat = s.held q + (q p').toNat := by
  obtain ⟨c, hc, rfl⟩ := Option.map_eq_some_iff.mp h
  simp only [held, countP_eq_sum]
  exact sum_modify hc _ _

theorem held_spawn (s : Admission) (listener : Nat) (p : Phase) (q : Phase → Bool) :
    (s.spawn listener p).held q = s.held q + (q p).toNat := by
  cases hq : q p <;> simp [held, spawn, List.countP_append, hq]

/-! ## The steps of the tasks -/

/-- The first `try_acquire_owned` of `accept_connection`. -/
def tryOpen (s : Admission) (listener : Nat) : Option Admission :=
  s.openConnections.tryAcquire.map fun sem =>
    { s with openConnections := sem }.spawn listener .accepted

/-- The second `try_acquire_owned` of `accept_connection`. -/
def tryQueue (s : Admission) (listener : Nat) : Option Admission :=
  s.queuedConnections.tryAcquire.map fun sem =>
    { s with queuedConnections := sem }.spawn listener .queued

/-- A poll that makes progress: a task spawned with its permit enters `do_connection`, a
    queued one asks for an open permit, and one that was assigned a permit resumes. -/
def poll (s : Admission) (i : Nat) : Option Admission :=
  match s.phase? i with
  | some .accepted => some (s.setPhase i .connecting)
  | some .queued =>
    let t := { s with openConnections := (s.openConnections.acquire i).2 }
    some (t.setPhase i (if (s.openConnections.acquire i).1 then .admitted else .waiting))
  | some .assigned => some (s.setPhase i .admitted)
  | _ => none

/-- `drop(queue_slot)`, and into `do_connection`. -/
def dropQueueSlot (s : Admission) (i : Nat) : Option Admission :=
  match s.phase? i with
  | some .admitted => some (s.setPhase i .connecting).releaseSlot
  | _ => none

/-- `do_connection` is over and the task drops its open permit. -/
def finish (s : Admission) (i : Nat) (result : TaskEnd) : Option Admission :=
  match s.phase? i with
  | some .connecting =>
    if result = .aborted then none else some (s.setPhase i (.finished result)).releaseOpen
  | _ => none

/-- The future of an unfinished task is dropped with everything it holds. -/
def abort (s : Admission) (i : Nat) : Option Admission :=
  let t := s.setPhase i (.finished .aborted)
  match s.phase? i with
  | some .accepted | some .connecting => some t.releaseOpen
  | some .queued => some t.releaseSlot
  | some .waiting =>
    some { t with openConnections := t.openConnections.forget i }.releaseSlot
  | some .assigned | some .admitted => some t.releaseOpen.releaseSlot
  | _ => none

/-- A finished task leaves its `JoinSet`. -/
def reap (s : Admission) (i : Nat) : Option Admission :=
  match s.connections[i]? with
  | some ⟨_, .finished _, false⟩ =>
    some { s with connections := s.connections.modify i ({ · with reaped := true }) }
  | _ => none

/-- What can happen to the tasks and the semaphores they share. -/
inductive Event where
  | tryOpen (listener : Nat)
  | tryQueue (listener : Nat)
  | poll (i : Nat)
  | dropQueueSlot (i : Nat)
  | finish (i : Nat) (result : TaskEnd)
  | abort (i : Nat)
  | reap (i : Nat)
  deriving DecidableEq

def step (s : Admission) : Event → Option Admission
  | .tryOpen listener => s.tryOpen listener
  | .tryQueue listener => s.tryQueue listener
  | .poll i => s.poll i
  | .dropQueueSlot i => s.dropQueueSlot i
  | .finish i result => s.finish i result
  | .abort i => s.abort i
  | .reap i => s.reap i

/-- Reaping takes a task out of its `JoinSet` and changes no phase and no permit. -/
theorem reap_frame {s t : Admission} {i : Nat} (h : s.reap i = some t) :
    t.openConnections = s.openConnections ∧ t.queuedConnections = s.queuedConnections ∧
      (∀ j, t.phase? j = s.phase? j) ∧ ∀ q, t.held q = s.held q := by
  unfold reap at h
  split at h
  next c found =>
    cases h
    have unchanged : (s.connections.modify i ({ · with reaped := true })).map Connection.phase =
        s.connections.map Connection.phase := map_modify_eq s.connections i (by simp)
    refine ⟨rfl, rfl, ?_, ?_⟩
    · intro j
      simp only [phase?, ← List.getElem?_map, unchanged]
    · intro q
      have counted := congrArg (List.countP q) unchanged
      rw [List.countP_map, List.countP_map] at counted
      exact counted
  next => cases h

end Admission

end TcpProxy
