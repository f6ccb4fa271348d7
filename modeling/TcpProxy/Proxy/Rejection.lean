import TcpProxy.Proxy.Permits
import TcpProxy.Proxy.Steps

/-! # Rejected connections

A call of `accept_connection` that is refused has found no open permit at its first
`try_acquire_owned` and no queue slot at its second.  The pool and the queue are full at
some instant of that call only if at some instant both semaphores are exhausted and no
task counts against both of them. -/

namespace TcpProxy

open Lts (Run Fires exec run_of_exec)

namespace Server

/-- Listener `l` accepts a stream in `s`, other tasks move along `es`, and in `t` the
    second half of `accept_connection` is about to refuse that stream. -/
structure RejectedCall (l : Nat) (s : Server) (es : List Event) (t : Server) : Prop where
  run : Run (Fires step) s (.listen l (.accept (.ok ())) :: es) t
  others : ∀ e, .listen l e ∉ es
  queueing : t.listenPhase? l = some .queueing
  refused : (t.admission.acceptQueue l).1 = .rejectedTooManyConnections

/-- `u` is passed through on the way from `s` to `t`. -/
def During (s : Server) (es : List Event) (t u : Server) : Prop :=
  ∃ before after, es = before ++ after ∧ Run (Fires step) s before u ∧ Run (Fires step) u after t

/-- The states of a call, from the return of `accept()` to its second `try_acquire_owned`. -/
def DuringCall (l : Nat) (s : Server) (es : List Event) (t u : Server) : Prop :=
  During s (.listen l (.accept (.ok ())) :: es) t u

/-- A listener stays where it is while only others move. -/
theorem listenPhase?_of_others {s t : Server} {es : List Event} {l : Nat} {p : ListenPhase}
    (run : Run (Fires step) s es t) (others : ∀ e, .listen l e ∉ es)
    (at_p : s.listenPhase? l = some p) : t.listenPhase? l = some p := by
  induction run with
  | nil => exact at_p
  | @cons s u t e es hs _ ih =>
    refine ih (fun le hle => others le (List.mem_cons_of_mem _ hle)) ?_
    rcases step_listener hs l with ⟨le, p, p', rfl, -⟩ | ⟨-, absent, -⟩ | ⟨-, same⟩
    · exact absurd List.mem_cons_self (others le)
    · rw [at_p] at absent
      cases absent
    · rw [same, at_p]

/-- The first `try_acquire_owned` of a rejected call found no open permit. -/
theorem RejectedCall.pool {l : Nat} {s t : Server} {es : List Event} (call : RejectedCall l s es t) :
    s.admission.openConnections.free = 0 := by
  obtain ⟨u, first, rest⟩ := call.run.uncons
  obtain ⟨p, at_p, hp⟩ := Option.bind_eq_some_iff.mp first
  simp only [listen] at hp
  split at hp
  · cases hp
    cases taken : s.admission.tryOpen l with
    | none => exact Semaphore.tryAcquire_none.mp (Option.map_eq_none_iff.mp taken)
    | some a =>
      -- with a permit the listener would be back in its loop, and stay there
      have looping : (s.acceptConnection l (.ok ())).listenPhase? l = some .reaping := by
        simp only [acceptConnection, taken, afterAccept, listenPhase?_setListen, if_pos]
        exact congrArg (Option.map fun _ => ListenPhase.reaping) at_p
      have stays := listenPhase?_of_others rest call.others looping
      rw [call.queueing] at stays
      cases stays
  · cases hp

/-- The second one found no queue slot. -/
theorem RejectedCall.queue {l : Nat} {s t : Server} {es : List Event} (call : RejectedCall l s es t) :
    t.admission.queuedConnections.free = 0 := by
  have refused := call.refused
  cases taken : t.admission.tryQueue l with
  | none => exact Semaphore.tryAcquire_none.mp (Option.map_eq_none_iff.mp taken)
  | some a =>
    simp only [Admission.acceptQueue, taken] at refused
    cases refused

end Server

namespace Admission

/-- In the queue: a slot, and no open permit. -/
def inQueue (p : Phase) : Bool := p.holdsSlot && !p.holdsOpen

/-- `C + Q` connections are unfinished, `C` of them active and `Q` of them queued. -/
structure Full (C Q : Nat) (s : Admission) : Prop where
  unfinished : C + Q ≤ s.held Phase.unfinished
  active : C ≤ s.held Phase.holdsOpen
  queued : Q ≤ s.held inQueue

/-- No permit is free, and no task that has an open permit still keeps its slot. -/
structure Exhausted (s : Admission) : Prop where
  pool : s.openConnections.free = 0
  queue : s.queuedConnections.free = 0
  noHandOver : ∀ i p, s.phase? i = some p → both p = false

theorem held_eq_zero {s : Admission} {q : Phase → Bool} :
    s.held q = 0 ↔ ∀ i p, s.phase? i = some p → q p = false := by
  constructor
  · intro none_held i p hp
    cases hq : q p with
    | false => rfl
    | true =>
      have := held_pos hp hq
      omega
  · intro absent
    refine List.countP_eq_zero.mpr fun c hc holds => ?_
    obtain ⟨i, hi⟩ := List.mem_iff_getElem?.mp hc
    have := absent i c.phase (by simp [phase?, hi])
    rw [this] at holds
    cases holds

theorem held_slots (s : Admission) : s.held inQueue + s.held both = s.held Phase.holdsSlot := by
  have split := s.held_or inQueue both
  have whole : (fun p => inQueue p || both p) = Phase.holdsSlot :=
    funext fun p => by cases p <;> rfl
  have apart : (fun p => inQueue p && both p) = fun _ => false :=
    funext fun p => by cases p <;> rfl
  have nobody : s.held (fun _ => false) = 0 := held_eq_zero.mpr fun _ _ _ => rfl
  rw [whole, apart, nobody] at split
  exact split.symm

/-- Both limits are reached by connections that count once exactly when the semaphores
    are exhausted and no hand-over is pending. -/
theorem full_iff {C Q : Nat} {s : Admission} (h : Accounted C Q s) : Full C Q s ↔ Exhausted s := by
  have opens := h.opens
  have slots := h.slots
  have counted := s.held_unfinished
  have split := s.held_slots
  constructor
  · intro full
    have active := full.active
    have queued := full.queued
    exact ⟨by omega, by omega, held_eq_zero.mp (by omega)⟩
  · intro out
    have pool := out.pool
    have queue := out.queue
    have once := held_eq_zero.mpr out.noHandOver
    exact ⟨by omega, by omega, by omega⟩

end Admission

open Server (RejectedCall DuringCall)

/-- One connection is active and one waits, with room for one of each. -/
def atCapacity : List Server.Event :=
  listening ++
    [.listen 0 (.accept (.ok ())), .poll 0, .listen 0 .reaped,
     .listen 0 (.accept (.ok ())), .listen 0 .queue, .poll 1, .listen 0 .reaped]

theorem atCapacity_runs :
    Run (Fires Server.step) (.new onePort 1 1 localhostAddr) atCapacity (reachedBy atCapacity) :=
  run_of_exec rfl

end TcpProxy
