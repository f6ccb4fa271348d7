import TcpProxy.Proxy.Permits

/-! # The order of the queue

Tasks stand in `connections` in the order in which `accept_connection` spawned them, but
a queued one enters the FIFO of the semaphore only when it is first polled.  As long as
nobody asks for an open permit ahead of a queued task that was not polled yet, the FIFO
is sorted and the tasks outside it are younger, and then permits go out in queue order. -/

namespace TcpProxy

open Lts (Run Fires exec run_of_exec)

/-- In the queue: no open permit yet, and none assigned. -/
def Phase.pending : Phase → Bool
  | queued | waiting => true
  | _ => false

namespace Admission

variable {C Q : Nat} {s t u : Admission}

/-- Task `i` is spawned and in a phase of `q`. -/
def stands (s : Admission) (q : Phase → Bool) (i : Nat) : Bool := (s.phase? i).any q

theorem stands_setPhase_ne (s : Admission) {i j : Nat} (h : i ≠ j) (p : Phase) (q : Phase → Bool) :
    (s.setPhase i p).stands q j = s.stands q j := by
  rw [stands, phase?_setPhase_ne s h, stands]

theorem stands_setPhase_self {i : Nat} {p : Phase} (h : s.phase? i = some p) (p' : Phase)
    (q : Phase → Bool) : (s.setPhase i p').stands q i = q p' := by
  rw [stands, phase?_setPhase_self h, Option.any_some]

theorem pending_cases {i : Nat} (h : s.stands Phase.pending i = true) :
    s.phase? i = some .queued ∨ s.phase? i = some .waiting := by
  unfold stands at h
  cases hp : s.phase? i with
  | none => simp [hp] at h
  | some p => cases p <;> simp_all [Phase.pending]

/-- Whoever asks for an open permit, the taker of a free one by `accept_connection` or a
    queued task at its first poll, does so when every task queued before it was polled. -/
def InTurn (s : Admission) : Event → Prop
  | .tryOpen _ =>
    0 < s.openConnections.free → ∀ j < s.connections.length, s.phase? j ≠ some .queued
  | .poll i => s.phase? i = some .queued → ∀ j < i, s.phase? j ≠ some .queued
  | _ => True

instance (s : Admission) (e : Event) : Decidable (s.InTurn e) :=
  match e with
  | .tryOpen _ =>
    inferInstanceAs
      (Decidable (0 < s.openConnections.free → ∀ j < s.connections.length, s.phase? j ≠ some .queued))
  | .poll i =>
    inferInstanceAs (Decidable (s.phase? i = some .queued → ∀ j < i, s.phase? j ≠ some .queued))
  | .tryQueue _ | .dropQueueSlot _ | .finish _ _ | .abort _ | .reap _ => .isTrue trivial

theorem lt_length_of_phase? {i : Nat} {p : Phase} (h : s.phase? i = some p) :
    i < s.connections.length := by
  obtain ⟨_, found, -⟩ := Option.map_eq_some_iff.mp h
  exact (List.getElem?_eq_some_iff.mp found).1

/-- The waiters stand in queue order, before every queued task that was not polled. -/
structure Ordered (s : Admission) : Prop where
  sorted : s.openConnections.waiters.Pairwise (· < ·)
  behind : ∀ i j, s.phase? i = some .waiting → s.phase? j = some .queued → i < j

/-- No task joins the waiters or the queue. -/
structure Fewer (s t : Admission) : Prop where
  waiters : t.openConnections.waiters.Sublist s.openConnections.waiters
  waiting : ∀ i, t.phase? i = some .waiting → s.phase? i = some .waiting
  queued : ∀ i, t.phase? i = some .queued → s.phase? i = some .queued

theorem Fewer.ordered (h : Fewer s t) (ordered : Ordered s) : Ordered t where
  sorted := ordered.sorted.sublist h.waiters
  behind i j hi hj := ordered.behind i j (h.waiting i hi) (h.queued j hj)

theorem Fewer.trans (h₁ : Fewer s t) (h₂ : Fewer t u) : Fewer s u where
  waiters := h₂.waiters.trans h₁.waiters
  waiting i hi := h₁.waiting i (h₂.waiting i hi)
  queued i hi := h₁.queued i (h₂.queued i hi)

theorem fewer_setPhase (s : Admission) (i : Nat) {p : Phase} (h : p.pending = false) :
    Fewer s (s.setPhase i p) := by
  have stays : ∀ r : Phase, r.pending = true → ∀ j, (s.setPhase i p).phase? j = some r →
      s.phase? j = some r := by
    intro r pending j hj
    rw [phase?_setPhase] at hj
    split at hj
    · obtain ⟨_, _, rfl⟩ := Option.map_eq_some_iff.mp hj
      rw [h] at pending
      cases pending
    · exact hj
  exact ⟨.refl _, stays _ rfl, stays _ rfl⟩

theorem fewer_releaseOpen (s : Admission) : Fewer s s.releaseOpen := by
  rcases s.openConnections.release_cases with
    ⟨nobody, served, -, waiters⟩ | ⟨i, rest, first, served, -, waiters⟩
  · rw [releaseOpen, served]
    refine ⟨?_, fun _ hi => hi, fun _ hi => hi⟩
    change s.openConnections.release.2.waiters.Sublist _
    rw [waiters]
    exact List.nil_sublist _
  · rw [releaseOpen, served]
    have assigned := fewer_setPhase s i (p := .assigned) rfl
    refine ⟨?_, assigned.waiting, assigned.queued⟩
    change s.openConnections.release.2.waiters.Sublist _
    rw [waiters, first]
    exact List.sublist_cons_self i rest

theorem fewer_releaseSlot (s : Admission) : Fewer s s.releaseSlot :=
  ⟨.refl _, fun _ hi => hi, fun _ hi => hi⟩

theorem fewer_forget (s : Admission) (i : Nat) :
    Fewer s { s with openConnections := s.openConnections.forget i } :=
  ⟨List.filter_sublist, fun _ hi => hi, fun _ hi => hi⟩

/-! ## Permits go out in order -/

/-- From `s` to `t`, no task obtains an open permit ahead of an older one in the queue. -/
def Fair (s t : Admission) : Prop :=
  ∀ b, s.stands Phase.holdsOpen b = false → t.stands Phase.holdsOpen b = true →
    ∀ a < b, s.stands Phase.pending a = false

/-- Where nobody obtains a permit, nobody is overtaken. -/
theorem fair_of_none
    (h : ∀ b, t.stands Phase.holdsOpen b = true → s.stands Phase.holdsOpen b = true) :
    Fair s t := by
  intro b lacks obtains
  rw [h b obtains] at lacks
  cases lacks

/-- A task outside the queue changes phase, without an open permit from it. -/
theorem fair_setPhase {i : Nat} {p : Phase} (hp : s.phase? i = some p) (p' : Phase)
    (h : p'.holdsOpen = true → p.holdsOpen = true) : Fair s (s.setPhase i p') := by
  refine fair_of_none fun b holds => ?_
  by_cases same : i = b
  · subst same
    rw [stands_setPhase_self hp] at holds
    rw [stands, hp, Option.any_some]
    exact h holds
  · rwa [stands_setPhase_ne s same] at holds

/-- A task outside the queue ends, and what it held goes out fairly. -/
theorem Fair.after_end {i : Nat} {p : Phase} {result : TaskEnd} (hp : s.phase? i = some p)
    (outside : p.pending = false) (h : Fair (s.setPhase i (.finished result)) t) : Fair s t := by
  intro b lacks obtains a before
  by_cases same : i = b
  · subst same
    -- The ended task cannot be the one that obtains a permit.
    have gone : (s.setPhase i (.finished result)).stands Phase.holdsOpen i = false :=
      stands_setPhase_self hp _ _
    have := h i gone obtains a before
    rwa [stands_setPhase_ne s (by omega)] at this
  · by_cases self : i = a
    · rw [← self, stands, hp, Option.any_some]
      exact outside
    · have := h b (by rwa [stands_setPhase_ne s same]) obtains a before
      rwa [stands_setPhase_ne s self] at this

/-- While a permit is free nobody waits, so only tasks that were not polled are in the
    queue. -/
theorem Waits.pending_of_free (h : s.Waits) (free : 0 < s.openConnections.free)
    {a : Nat} (pending : s.stands Phase.pending a = true) : s.phase? a = some .queued := by
  rcases pending_cases pending with queued | waits
  · exact queued
  · have listed := (h a).mpr waits
    rw [Semaphore.waiters_of_free free] at listed
    cases listed

/-- A released permit goes to the oldest task in the queue. -/
theorem fair_releaseOpen (h : s.Waits) (ordered : Ordered s) : Fair s s.releaseOpen := by
  rcases s.openConnections.release_cases with
    ⟨-, served, -, -⟩ | ⟨i, rest, first, served, -, -⟩
  · rw [releaseOpen, served]
    exact fair_of_none fun _ holds => holds
  · rw [releaseOpen, served]
    intro b lacks obtains a before
    by_cases same : i = b
    · subst same
      have waits : s.phase? i = some .waiting := (h i).mp (by rw [first]; exact List.mem_cons_self)
      cases pending : s.stands Phase.pending a with
      | false => rfl
      | true =>
        rcases pending_cases pending with queued | waits_too
        · have := ordered.behind i a waits queued
          omega
        · -- `a` waits behind the first waiter
          have listed := (h a).mpr waits_too
          have sorted := ordered.sorted
          rw [first] at listed sorted
          rcases List.mem_cons.mp listed with rfl | later
          · omega
          · have := (List.pairwise_cons.mp sorted).1 a later
            omega
    · have unchanged : (s.setPhase i .assigned).stands Phase.holdsOpen b = true := obtains
      rw [stands_setPhase_ne s same, lacks] at unchanged
      cases unchanged

/-! ## One step -/

/-- A step keeps the order, and is fair to the queue. -/
structure Keeps (s t : Admission) : Prop where
  ordered : Ordered t
  fair : Fair s t

theorem keeps_of_fewer (ordered : Ordered s) (fewer : Fewer s t) (fair : Fair s t) : Keeps s t :=
  ⟨fewer.ordered ordered, fair⟩

theorem keeps_tryOpen {listener : Nat} (waits : s.Waits) (ordered : Ordered s)
    (turn : InTurn s (.tryOpen listener)) (hs : s.tryOpen listener = some t) : Keeps s t := by
  obtain ⟨sem, taken, rfl⟩ := Option.map_eq_some_iff.mp hs
  obtain ⟨free, waiters⟩ := Semaphore.tryAcquire_some taken
  have positive : 0 < s.openConnections.free := by omega
  have stays : ∀ r : Phase, r ≠ .accepted → ∀ i,
      (spawn { s with openConnections := sem } listener .accepted).phase? i = some r →
        s.phase? i = some r := by
    intro r other i hi
    rw [phase?_spawn] at hi
    split at hi
    · exact absurd (Option.some.inj hi).symm other
    · exact hi
  refine keeps_of_fewer ordered
    ⟨by rw [← waiters]; exact .refl _, stays _ (by decide), stays _ (by decide)⟩ ?_
  intro b _ _ a _
  cases pending : s.stands Phase.pending a with
  | false => rfl
  | true =>
    have queued := waits.pending_of_free positive pending
    exact absurd queued (turn positive a (lt_length_of_phase? queued))

theorem keeps_tryQueue {listener : Nat} (ordered : Ordered s)
    (hs : s.tryQueue listener = some t) : Keeps s t := by
  obtain ⟨sem, -, rfl⟩ := Option.map_eq_some_iff.mp hs
  refine ⟨⟨ordered.sorted, ?_⟩, ?_⟩
  · -- the new task is younger than every waiter
    intro i j hi hj
    rw [phase?_spawn] at hi hj
    split at hi
    · cases hi
    · have waits : s.phase? i = some .waiting := hi
      split at hj
      next last =>
        rw [last]
        exact lt_length_of_phase? waits
      · exact ordered.behind i j waits hj
  · refine fair_of_none fun b holds => ?_
    rw [stands, phase?_spawn] at holds
    split at holds
    · cases holds
    · exact holds

theorem keeps_poll {i : Nat} (waits : s.Waits) (ordered : Ordered s)
    (turn : InTurn s (.poll i)) (hs : s.poll i = some t) : Keeps s t := by
  unfold poll at hs
  split at hs
  next ready =>
    cases hs
    exact keeps_of_fewer ordered (fewer_setPhase s i rfl) (fair_setPhase ready _ fun _ => rfl)
  next asks =>
    cases hs
    have first_to_ask := turn asks
    rcases s.openConnections.acquire_cases i with
      ⟨granted, free, nobody, waiters⟩ | ⟨queued, none_free, -, waiters⟩
    -- A permit is free, so nobody waits and `i` is the oldest task in the queue.
    · rw [granted]
      have moved := fewer_setPhase s i (p := .admitted) rfl
      refine keeps_of_fewer ordered ⟨?_, moved.waiting, moved.queued⟩ ?_
      · change (s.openConnections.acquire i).2.waiters.Sublist _
        rw [waiters]
        exact List.nil_sublist _
      · intro b lacks obtains a before
        have only : i = b := by
          by_contra other
          have unchanged : (s.setPhase i .admitted).stands Phase.holdsOpen b = true := obtains
          rw [stands_setPhase_ne s other, lacks] at unchanged
          cases unchanged
        cases pending : s.stands Phase.pending a with
        | false => rfl
        | true =>
          have positive : 0 < s.openConnections.free := by omega
          exact absurd (waits.pending_of_free positive pending) (first_to_ask a (only ▸ before))
    -- No permit is free: `i` joins the waiters at the end, as the oldest that was not polled.
    · rw [queued]
      refine ⟨⟨?_, ?_⟩, ?_⟩
      · change (s.openConnections.acquire i).2.waiters.Pairwise _
        rw [waiters]
        refine List.pairwise_append.mpr ⟨ordered.sorted, by simp, fun w hw k hk => ?_⟩
        rw [List.mem_singleton.mp hk]
        exact ordered.behind w i ((waits w).mp hw) asks
      · intro w j hw hj
        change (s.setPhase i .waiting).phase? w = _ at hw
        change (s.setPhase i .waiting).phase? j = _ at hj
        by_cases polled : i = j
        · subst polled
          rw [phase?_setPhase_self asks] at hj
          cases hj
        · rw [phase?_setPhase_ne s polled] at hj
          by_cases joined : i = w
          · have := first_to_ask j
            by_contra late
            exact this (by omega) hj
          · rw [phase?_setPhase_ne s joined] at hw
            exact ordered.behind w j hw hj
      · exact fair_setPhase asks .waiting nofun
  next resumes =>
    cases hs
    exact keeps_of_fewer ordered (fewer_setPhase s i rfl) (fair_setPhase resumes _ fun _ => rfl)
  next => cases hs

theorem keeps_dropQueueSlot {i : Nat} (ordered : Ordered s)
    (hs : s.dropQueueSlot i = some t) : Keeps s t := by
  unfold dropQueueSlot at hs
  split at hs
  next holds =>
    cases hs
    exact keeps_of_fewer ordered
      ((fewer_setPhase s i (p := .connecting) rfl).trans (fewer_releaseSlot _))
      (fair_setPhase holds .connecting fun _ => rfl)
  next => cases hs

/-- A task outside the queue ends and gives its open permit back. -/
theorem keeps_end {i : Nat} {p : Phase} (waits : s.Waits) (ordered : Ordered s)
    (hp : s.phase? i = some p) (outside : p.pending = false) (result : TaskEnd) :
    Keeps s (s.setPhase i (.finished result)).releaseOpen := by
  have fewer := fewer_setPhase s i (p := .finished result) rfl
  have leaves : p ≠ .waiting := by
    rintro rfl
    cases outside
  have waits_after := waits.setPhase hp (.finished result) leaves (by simp)
  exact keeps_of_fewer ordered (fewer.trans (fewer_releaseOpen _))
    ((fair_releaseOpen waits_after (fewer.ordered ordered)).after_end hp outside)

theorem keeps_finish {i : Nat} {result : TaskEnd} (waits : s.Waits) (ordered : Ordered s)
    (hs : s.finish i result = some t) : Keeps s t := by
  unfold finish at hs
  split at hs
  next holds =>
    split at hs
    · cases hs
    · cases hs
      exact keeps_end waits ordered holds rfl _
  next => cases hs

theorem keeps_abort {i : Nat} (waits : s.Waits) (ordered : Ordered s)
    (hs : s.abort i = some t) : Keeps s t := by
  have fewer := fewer_setPhase s i (p := .finished .aborted) rfl
  unfold abort at hs
  split at hs
  next holds =>
    cases hs
    exact keeps_end waits ordered holds rfl _
  next holds =>
    cases hs
    exact keeps_end waits ordered holds rfl _
  next holds =>
    cases hs
    exact keeps_of_fewer ordered (fewer.trans (fewer_releaseSlot _))
      (fair_setPhase holds (.finished .aborted) nofun)
  next holds =>
    cases hs
    exact keeps_of_fewer ordered ((fewer.trans (fewer_forget _ i)).trans (fewer_releaseSlot _))
      (fair_setPhase holds (.finished .aborted) nofun)
  next holds =>
    cases hs
    obtain ⟨ordered_after, fair⟩ := keeps_end waits ordered holds rfl .aborted
    exact ⟨(fewer_releaseSlot _).ordered ordered_after, fair⟩
  next holds =>
    cases hs
    obtain ⟨ordered_after, fair⟩ := keeps_end waits ordered holds rfl .aborted
    exact ⟨(fewer_releaseSlot _).ordered ordered_after, fair⟩
  next => cases hs

theorem keeps_step {e : Event} (waits : s.Waits) (ordered : Ordered s) (turn : InTurn s e)
    (hs : s.step e = some t) : Keeps s t := by
  cases e with
  | tryOpen listener => exact keeps_tryOpen waits ordered turn hs
  | tryQueue listener => exact keeps_tryQueue ordered hs
  | poll i => exact keeps_poll waits ordered turn hs
  | dropQueueSlot i => exact keeps_dropQueueSlot ordered hs
  | finish i result => exact keeps_finish waits ordered hs
  | abort i => exact keeps_abort waits ordered hs
  | reap i =>
    obtain ⟨same_open, -, same_phases, -⟩ := reap_frame hs
    refine keeps_of_fewer ordered ⟨by rw [same_open], ?_, ?_⟩
      (fair_of_none fun b holds => by rwa [stands, same_phases] at holds)
    · intro j hj
      rwa [same_phases] at hj
    · intro j hj
      rwa [same_phases] at hj

end Admission

namespace Server

/-- A step in which nobody asks for an open permit out of turn. -/
def orderly (s : Server) (e : Event) : Option Server :=
  if ∀ f ∈ e.onAdmission, s.admission.InTurn f then s.step e else none

theorem orderly_some {s t : Server} {e : Event} (h : s.orderly e = some t) :
    s.step e = some t ∧ ∀ f ∈ e.onAdmission, s.admission.InTurn f := by
  unfold orderly at h
  split at h
  next turn => exact ⟨h, turn⟩
  next => cases h

theorem keeps_step {C Q : Nat} {s t : Server} {e : Event}
    (accounted : Admission.Accounted C Q s.admission) (ordered : s.admission.Ordered)
    (h : s.orderly e = some t) : s.admission.Keeps t.admission := by
  obtain ⟨hs, turn⟩ := orderly_some h
  rcases projects_step hs with same | ⟨f, asked, hf⟩
  · rw [same]
    exact ⟨ordered, Admission.fair_of_none fun _ holds => holds⟩
  · exact Admission.keeps_step accounted.waiting ordered (turn f asked) hf

theorem ordered_of_run {config : ProxyConfig} {C Q : Nat} {bindAddr : IpAddr} {es : List Event}
    {s : Server} (run : Run (Fires orderly) (.new config C Q bindAddr) es s) :
    Admission.Accounted C Q s.admission ∧ s.admission.Ordered := by
  refine run.invariant (I := fun s => Admission.Accounted C Q s.admission ∧ s.admission.Ordered)
    ⟨Admission.accounted_new C Q, .nil, by simp [new, Admission.new, Admission.phase?]⟩ ?_
  rintro u e v ⟨accounted, ordered⟩ hs
  exact ⟨accounted_step accounted (orderly_some hs).1, (keeps_step accounted ordered hs).ordered⟩

end Server

/-- In a run in which every open permit is asked for in turn, no connection obtains one
    while an older connection is in the queue.  A connection that was queued before
    another one was accepted stands before it in `connections`. -/
theorem queue_is_fifo {config : ProxyConfig} {C Q : Nat} {bindAddr : IpAddr}
    {es : List Server.Event} {s t : Server} {e : Server.Event}
    (run : Run (Fires Server.orderly) (.new config C Q bindAddr) es s)
    (step : s.orderly e = some t) {a b : Nat} (older : a < b)
    (lacks : s.admission.stands Phase.holdsOpen b = false)
    (obtains : t.admission.stands Phase.holdsOpen b = true) :
    s.admission.stands Phase.pending a = false := by
  obtain ⟨accounted, ordered⟩ := Server.ordered_of_run run
  exact (Server.keeps_step accounted ordered step).fair b lacks obtains a older

/-- Two connections wait behind an active one, with room for both. -/
def twoQueued : List Server.Event :=
  listening ++
    [.listen 0 (.accept (.ok ())), .poll 0, .listen 0 .reaped,
     .listen 0 (.accept (.ok ())), .listen 0 .queue, .poll 1, .listen 0 .reaped,
     .listen 0 (.accept (.ok ())), .listen 0 .queue, .poll 2]

/-- The active connection and the first waiter end, and the second waiter has its turn. -/
theorem twoQueued_in_order :
    ∃ s t, Run (Fires Server.orderly) (.new onePort 1 2 localhostAddr)
        (twoQueued ++ [.finish 0 .ok, .poll 1, .dropQueueSlot 1]) s ∧
      s.orderly (.finish 1 .ok) = some t ∧ t.admission.stands Phase.holdsOpen 2 = true ∧
      s.admission.stands Phase.pending 1 = false := by
  let s := (exec Server.orderly (.new onePort 1 2 localhostAddr)
    (twoQueued ++ [.finish 0 .ok, .poll 1, .dropQueueSlot 1])).getD (.new onePort 1 2 localhostAddr)
  let t := (s.orderly (.finish 1 .ok)).getD s
  have run : Run (Fires Server.orderly) (.new onePort 1 2 localhostAddr)
      (twoQueued ++ [.finish 0 .ok, .poll 1, .dropQueueSlot 1]) s := run_of_exec rfl
  have step : s.orderly (.finish 1 .ok) = some t := rfl
  have obtains : t.admission.stands Phase.holdsOpen 2 = true := by decide
  exact ⟨s, t, run, step, obtains,
    queue_is_fifo run step (a := 1) (b := 2) (by decide) (by decide) obtains⟩

/-- Connection 1 is queued behind an active one and not polled; the active one ends. -/
def unpolledBehindActive : List Server.Event :=
  listening ++
    [.listen 0 (.accept (.ok ())), .poll 0, .listen 0 .reaped,
     .listen 0 (.accept (.ok ())), .listen 0 .queue, .listen 0 .reaped, .finish 0 .ok]

/-- Connection 2 is accepted then and takes the free permit at once; connection 1 gets one
    only after it. -/
theorem accepted_overtakes_queued :
    ∃ s t u v, Run (Fires Server.step) (.new onePort 1 1 localhostAddr) unpolledBehindActive s ∧
      s.admission.stands Phase.pending 1 = true ∧ s.admission.phase? 2 = none ∧
      s.step (.listen 0 (.accept (.ok ()))) = some t ∧
      t.admission.stands Phase.holdsOpen 2 = true ∧ t.admission.stands Phase.pending 1 = true ∧
      Run (Fires Server.step) t [.poll 2, .finish 2 .ok] u ∧
      u.admission.stands Phase.pending 1 = true ∧
      u.step (.poll 1) = some v ∧ v.admission.stands Phase.holdsOpen 1 = true := by
  let s := reachedBy unpolledBehindActive
  let t := s.acceptConnection 0 (.ok ())
  let u := (exec Server.step t [.poll 2, .finish 2 .ok]).getD t
  exact ⟨s, t, u, (u.step (.poll 1)).getD u, run_of_exec rfl, by decide, by decide, rfl,
    by decide, by decide, run_of_exec rfl, by decide, rfl, by decide⟩

end TcpProxy
