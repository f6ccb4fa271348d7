import TcpProxy.Proxy.Permits
import TcpProxy.Proxy.Steps

/-! # The connections in a `JoinSet`

A listener adds at most one task to its `JoinSet` between two of its reaping loops, and
after one only unfinished tasks are left, which the two semaphores bound.  So finished
tasks that were not reaped yet never take more than one place beyond the permits. -/

namespace TcpProxy

open Lts (Run Fires exec run_of_exec)
open ListenPhase (Moves)
open Admission (Accounted)

namespace Admission

variable {s t : Admission}

/-- The listener of every task, and whether the task has left its `JoinSet`. -/
def entries (s : Admission) : List (Nat × Bool) := s.connections.map fun c => (c.listener, c.reaped)

theorem joinSet_length (s : Admission) (l : Nat) :
    (s.joinSet l).length = s.entries.countP fun entry => entry.1 = l ∧ entry.2 = false := by
  rw [joinSet, entries, List.countP_map, List.countP_eq_length_filter]
  rfl

theorem entries_setPhase (s : Admission) (i : Nat) (p : Phase) : (s.setPhase i p).entries = s.entries :=
  map_modify_eq s.connections i fun _ => rfl

theorem entries_releaseOpen (s : Admission) : s.releaseOpen.entries = s.entries := by
  unfold releaseOpen
  split
  · rfl
  · exact entries_setPhase _ _ _

/-- The event spawns a task on the `JoinSet` of `l`. -/
def Event.adds (l : Nat) : Event → Bool
  | .tryOpen k | .tryQueue k => k = l
  | _ => false

theorem entries_step {f : Event} (h : s.step f = some t) :
    (∃ k, (f = .tryOpen k ∨ f = .tryQueue k) ∧ t.entries = s.entries ++ [(k, false)]) ∨
    (∃ i, f = .reap i) ∨ t.entries = s.entries := by
  cases f with
  | tryOpen k =>
    obtain ⟨sem, -, rfl⟩ := Option.map_eq_some_iff.mp h
    exact .inl ⟨k, .inl rfl, by simp [entries, spawn]⟩
  | tryQueue k =>
    obtain ⟨sem, -, rfl⟩ := Option.map_eq_some_iff.mp h
    exact .inl ⟨k, .inr rfl, by simp [entries, spawn]⟩
  | reap i => exact .inr (.inl ⟨i, rfl⟩)
  | poll i =>
    simp only [step, poll] at h
    split at h
    all_goals cases h
    all_goals exact .inr (.inr (entries_setPhase _ _ _))
  | dropQueueSlot i =>
    simp only [step, dropQueueSlot] at h
    split at h
    all_goals cases h
    exact .inr (.inr (entries_setPhase _ _ _))
  | finish i result =>
    simp only [step, finish] at h
    split at h
    · split at h
      all_goals cases h
      exact .inr (.inr ((entries_releaseOpen _).trans (entries_setPhase _ _ _)))
    · cases h
  | abort i =>
    simp only [step, abort] at h
    split at h
    all_goals cases h
    all_goals right
    all_goals right
    · exact (entries_releaseOpen _).trans (entries_setPhase _ _ _)
    · exact (entries_releaseOpen _).trans (entries_setPhase _ _ _)
    · exact entries_setPhase _ _ _
    · exact entries_setPhase _ _ _
    · exact (entries_releaseOpen _).trans (entries_setPhase _ _ _)
    · exact (entries_releaseOpen _).trans (entries_setPhase _ _ _)

theorem joinSet_reap {i : Nat} (h : s.reap i = some t) (l : Nat) :
    (t.joinSet l).length ≤ (s.joinSet l).length := by
  unfold reap at h
  split at h
  next owner result found =>
    cases h
    -- The reaped task no longer counts; all others count as before.
    have moved := sum_modify found ({ · with reaped := true })
      fun c => (decide (c.listener = l ∧ c.reaped = false)).toNat
    simp only [joinSet, ← List.countP_eq_length_filter, countP_eq_sum]
    simp only [reduceCtorEq, and_false, decide_false, Bool.toNat_false] at moved
    omega
  next => cases h

/-- Only a spawn adds to a `JoinSet`, and it adds one task. -/
theorem joinSet_step {f : Event} (h : s.step f = some t) (l : Nat) :
    (t.joinSet l).length ≤ (s.joinSet l).length + (f.adds l).toNat := by
  rcases entries_step h with ⟨k, spawns, added⟩ | ⟨i, rfl⟩ | same
  · rw [joinSet_length, joinSet_length, added, List.countP_append, List.countP_singleton]
    have here : f.adds l = decide (k = l) := by
      cases spawns with
      | inl opened => rw [opened]; rfl
      | inr queued => rw [queued]; rfl
    rw [here]
    by_cases mine : k = l
    · simp [mine]
    · simp [mine]
  · exact Nat.le_add_right_of_le (joinSet_reap h l)
  · rw [joinSet_length, joinSet_length, same]
    exact Nat.le_add_right _ _

/-- Each unfinished task holds a permit of one of the semaphores. -/
theorem Accounted.unfinished_le {C Q : Nat} (h : Accounted C Q s) : s.held Phase.unfinished ≤ C + Q := by
  have counted := s.held_unfinished
  have opens := h.opens
  have slots := h.slots
  omega

theorem joinSet_le_unfinished {l : Nat} (unfinished : ∀ c ∈ s.joinSet l, c.phase.unfinished = true) :
    (s.joinSet l).length ≤ s.held Phase.unfinished := by
  rw [joinSet, ← List.countP_eq_length_filter]
  apply List.countP_mono_left
  intro c present inside
  exact unfinished c (List.mem_filter.mpr ⟨present, inside⟩)

end Admission

/-- The places a task needs beyond the permits, where the listener stands. -/
def ListenPhase.slack : ListenPhase → Nat
  | reaping | panicked _ => 1
  | _ => 0

theorem ListenPhase.slack_le_one (p : ListenPhase) : p.slack ≤ 1 := by
  cases p <;> simp [slack]

namespace Server

variable {C Q : Nat} {s t : Server}

def room (C Q : Nat) : Option ListenPhase → Nat
  | none => 0
  | some p => C + Q + p.slack

/-- The `JoinSet` of every listener fits in its room. -/
def Roomy (C Q : Nat) (s : Server) : Prop :=
  ∀ l, (s.admission.joinSet l).length ≤ room C Q (s.listenPhase? l)

theorem adds_event {e : Event} {f : Admission.Event} {l : Nat} (asks : e.onAdmission = some f)
    (adds : f.adds l = true) : e = .listen l (.accept (.ok ())) ∨ e = .listen l .queue := by
  unfold Event.onAdmission at asks
  split at asks
  case h_1 k =>
    cases asks
    cases of_decide_eq_true adds
    exact .inl rfl
  case h_2 k =>
    cases asks
    cases of_decide_eq_true adds
    exact .inr rfl
  all_goals cases asks
  all_goals cases adds

/-- The `JoinSet` of `l` grows only where `l` itself accepts or queues a connection. -/
theorem joinSet_grows {e : Event} (hs : s.step e = some t) (l : Nat) :
    (t.admission.joinSet l).length ≤ (s.admission.joinSet l).length ∨
      (t.admission.joinSet l).length ≤ (s.admission.joinSet l).length + 1 ∧
        (e = .listen l (.accept (.ok ())) ∨ e = .listen l .queue) := by
  rcases projects_step hs with same | ⟨f, asks, hf⟩
  · rw [same]
    exact .inl (Nat.le_refl _)
  · have grown := Admission.joinSet_step hf l
    cases adds : f.adds l with
    | false =>
      rw [adds] at grown
      exact .inl grown
    | true =>
      rw [adds] at grown
      exact .inr ⟨grown, adds_event asks adds⟩

/-- `accept_connection` adds a task only on its way back to the reaping loop. -/
theorem joinSet_accept {l : Nat} {result : Except ProxyError Unit} {p' : ListenPhase}
    (hs : s.step (.listen l (.accept result)) = some t) (at_p' : t.listenPhase? l = some p') :
    (t.admission.joinSet l).length ≤ (s.admission.joinSet l).length + p'.slack := by
  obtain ⟨p, at_p, hp⟩ := Option.bind_eq_some_iff.mp hs
  simp only [listen] at hp
  split at hp
  next =>
    cases hp
    cases result with
    | error e =>
      rw [acceptConnection, afterAccept_admission]
      exact Nat.le_add_right _ _
    | ok u =>
      cases taken : s.admission.tryOpen l with
      | none =>
        simp only [acceptConnection, taken]
        exact Nat.le_add_right _ _
      | some a =>
        have grown := Admission.joinSet_step (f := .tryOpen l) taken l
        have here : p' = .reaping := by
          simp only [acceptConnection, taken, afterAccept, listenPhase?_setListen, if_pos] at at_p'
          obtain ⟨-, -, same⟩ := Option.map_eq_some_iff.mp at_p'
          exact same.symm
        simp only [acceptConnection, taken, afterAccept_admission, here, ListenPhase.slack]
        simpa [Admission.Event.adds] using grown
  next => cases hp

/-- The reaping loop ends where no task of the `JoinSet` is finished. -/
theorem joinSet_reaped {l : Nat} (hs : s.step (.listen l .reaped) = some t) :
    t.admission = s.admission ∧ ∀ c ∈ s.admission.joinSet l, c.phase.unfinished = true := by
  obtain ⟨p, at_p, hp⟩ := Option.bind_eq_some_iff.mp hs
  simp only [listen] at hp
  split at hp
  next =>
    split at hp
    next all_unfinished =>
      cases hp
      exact ⟨rfl, List.all_eq_true.mp all_unfinished⟩
    next => cases hp
  next => cases hp

theorem roomy_moves {l : Nat} {le : ListenEvent} {p p' : ListenPhase} (fair : Accounted C Q s.admission)
    (h : (s.admission.joinSet l).length ≤ C + Q + p.slack) (hs : s.step (.listen l le) = some t)
    (moves : Moves p le p') (at_p' : t.listenPhase? l = some p') :
    (t.admission.joinSet l).length ≤ C + Q + p'.slack := by
  -- Where the listener neither accepts nor queues, its set does not grow.
  have quiet : le ≠ .accept (.ok ()) → le ≠ .queue →
      (t.admission.joinSet l).length ≤ (s.admission.joinSet l).length := by
    intro no_accept no_queue
    rcases joinSet_grows hs l with same | ⟨-, accepts | queues⟩
    · exact same
    · cases accepts
      exact absurd rfl no_accept
    · cases queues
      exact absurd rfl no_queue
  cases moves with
  | connected | noPermit | transient | permanent =>
    have added := joinSet_accept hs at_p'
    simp only [ListenPhase.slack] at h added ⊢
    omega
  -- The queued task may take the place beyond the permits, until the next reaping loop ends.
  | queue =>
    have added : (t.admission.joinSet l).length ≤ (s.admission.joinSet l).length + 1 := by
      cases joinSet_grows hs l with
      | inl same => exact Nat.le_succ_of_le same
      | inr one => exact one.1
    simp only [ListenPhase.slack] at h ⊢
    omega
  | reaped =>
    obtain ⟨same, unfinished⟩ := joinSet_reaped hs
    rw [same]
    exact (Admission.joinSet_le_unfinished unfinished).trans fair.unfinished_le
  | reap => exact (quiet (by simp) (by simp)).trans h
  | cancelled idle =>
    have no_slack : p.slack = 0 := by
      cases idle with
      | inl spawned => rw [spawned]; rfl
      | inr accepting => rw [accepting]; rfl
    rw [no_slack] at h
    exact (quiet (by simp) (by simp)).trans h
  -- A new listener begins with a reaping loop, where there is room for one task more.
  | start => exact ((quiet (by simp) (by simp)).trans h).trans (Nat.le_succ _)
  | drained | deadline => exact (quiet (by simp) (by simp)).trans h
  -- A panic keeps the set as it was, wherever the listener stood.
  | panic =>
    have bound := p.slack_le_one
    have same := quiet (by simp) (by simp)
    show _ ≤ C + Q + 1
    omega

theorem roomy_step {e : Event} (fair : Accounted C Q s.admission) (h : Roomy C Q s)
    (hs : s.step e = some t) : Roomy C Q t := by
  intro l
  have here := h l
  rcases step_listener hs l with ⟨le, p, p', rfl, at_p, moves, at_p'⟩ | ⟨rfl, absent, spawned⟩ | ⟨other, same⟩
  · rw [at_p] at here
    rw [at_p']
    exact roomy_moves fair here hs moves at_p'
  · rw [absent] at here
    have empty : (t.admission.joinSet l).length ≤ 0 := by
      rcases joinSet_grows hs l with same | ⟨-, accepts | queues⟩
      · exact same.trans here
      · cases accepts
      · cases queues
    exact empty.trans (Nat.zero_le _)
  · rw [same]
    rcases joinSet_grows hs l with less | ⟨-, accepts | queues⟩
    · exact less.trans here
    · exact absurd accepts (other _)
    · exact absurd queues (other _)

theorem roomy_of_run {config : ProxyConfig} {bindAddr : IpAddr} {es : List Event}
    (run : Run (Fires step) (.new config C Q bindAddr) es s) : Roomy C Q s := by
  have both := run.invariant (I := fun u => Accounted C Q u.admission ∧ Roomy C Q u) ?_ ?_
  · exact both.2
  · exact ⟨Admission.accounted_new C Q, fun l => Nat.zero_le _⟩
  · intro u e v hu hs
    exact ⟨accounted_step hu.1 hs, roomy_step hu.1 hu.2 hs⟩

end Server

/-- In every reachable state the `JoinSet` of each listener holds at most one task more than
    there are permits, finished tasks included, and none more while the listener awaits a
    connection or a queue slot.  When a reaping loop ends it holds no finished task. -/
theorem finished_tasks_do_not_pile_up {config : ProxyConfig} {C Q : Nat} {bindAddr : IpAddr}
    {es : List Server.Event} {s : Server}
    (run : Run (Fires Server.step) (.new config C Q bindAddr) es s) :
    (∀ l, (s.admission.joinSet l).length ≤ C + Q + 1) ∧
    (∀ l, s.listenPhase? l = some .accepting ∨ s.listenPhase? l = some .queueing →
      (s.admission.joinSet l).length ≤ C + Q) ∧
    ∀ l t, s.step (.listen l .reaped) = some t →
      ∀ c ∈ t.admission.joinSet l, c.phase.unfinished = true := by
  have roomy := Server.roomy_of_run run
  refine ⟨?_, ?_, ?_⟩
  · intro l
    apply (roomy l).trans
    cases s.listenPhase? l with
    | none => exact Nat.zero_le _
    | some p => exact Nat.add_le_add_left p.slack_le_one (C + Q)
  · intro l awaits
    have bound := roomy l
    cases awaits with
    | inl accepting => rw [accepting] at bound; exact bound
    | inr queueing => rw [queueing] at bound; exact bound
  · intro l t hs
    obtain ⟨same, unfinished⟩ := Server.joinSet_reaped hs
    rw [same]
    exact unfinished

/-- One connection is active and one queued when the listener goes back to `accept()`; the
    first ends, the second takes its permit, and a third one is queued. -/
def fullJoinSet : List Server.Event :=
  listening ++
    [.listen 0 (.accept (.ok ())), .poll 0, .listen 0 .reaped, .listen 0 (.accept (.ok ())),
     .listen 0 .queue, .poll 1, .listen 0 .reaped, .finish 0 .ok, .poll 1, .dropQueueSlot 1,
     .listen 0 (.accept (.ok ())), .listen 0 .queue]

/-- The bound is attained: one task is finished, one active and one queued. -/
theorem fullJoinSet_full :
    ((reachedBy fullJoinSet).admission.joinSet 0).map (·.phase) = [.finished .ok, .connecting, .queued] ∧
      ((reachedBy fullJoinSet).admission.joinSet 0).length ≤ 1 + 1 + 1 := by
  have run : Run (Fires Server.step) (.new onePort 1 1 localhostAddr) fullJoinSet
      (reachedBy fullJoinSet) := run_of_exec rfl
  exact ⟨by decide, (finished_tasks_do_not_pile_up run).1 0⟩

end TcpProxy
