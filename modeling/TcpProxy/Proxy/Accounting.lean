import TcpProxy.Proxy.Admission

/-! # The permits are accounted for

`Accounted C Q s` balances both semaphores against the phases of the tasks: every open
permit is free or with a task, every queue slot is free or with a task, and the waiters
of `openConnections` are the waiting tasks.  The two numbers are parameters, so that
the halves of a step which moves a permit are lemmas of their own: one task changes
phase, and a permit is taken or comes back. -/

namespace TcpProxy.Admission

/-- The waiters of `openConnections` are the waiting tasks. -/
def Waits (s : Admission) : Prop :=
  ∀ i, i ∈ s.openConnections.waiters ↔ s.phase? i = some .waiting

structure Accounted (C Q : Nat) (s : Admission) : Prop where
  opens : s.openConnections.free + s.held Phase.holdsOpen = C
  slots : s.queuedConnections.free + s.held Phase.holdsSlot = Q
  nodup : s.openConnections.waiters.Nodup
  waiting : s.Waits

variable {C Q : Nat} {s t : Admission}

theorem accounted_new (C Q : Nat) : Accounted C Q (.new C Q) where
  opens := rfl
  slots := rfl
  nodup := .nil
  waiting := by simp [Waits, new, phase?]

theorem Waits.setPhase (h : s.Waits) {i : Nat} {p : Phase} (hp : s.phase? i = some p) (p' : Phase)
    (leaves : p ≠ .waiting) (joins : p' ≠ .waiting) : (s.setPhase i p').Waits := by
  intro j
  rw [setPhase_open, h j]
  by_cases same : i = j
  · subst same
    rw [phase?_setPhase_self hp, hp]
    simp [leaves, joins]
  · rw [phase?_setPhase_ne s same]

/-- A task that neither leaves nor joins the waiters changes phase: what it holds
    besides comes from or goes to the two totals. -/
theorem Accounted.setPhase (h : Accounted C Q s) {i : Nat} {p : Phase}
    (hp : s.phase? i = some p) (p' : Phase) (leaves : p ≠ .waiting) (joins : p' ≠ .waiting)
    {C' Q' : Nat}
    (open_moved : C + p'.holdsOpen.toNat = C' + p.holdsOpen.toNat)
    (slot_moved : Q + p'.holdsSlot.toNat = Q' + p.holdsSlot.toNat) :
    Accounted C' Q' (s.setPhase i p') where
  opens := by
    have moved := held_setPhase hp p' Phase.holdsOpen
    have := h.opens
    simp only [setPhase_open]
    omega
  slots := by
    have moved := held_setPhase hp p' Phase.holdsSlot
    have := h.slots
    simp only [setPhase_slots]
    omega
  nodup := h.nodup
  waiting := h.waiting.setPhase hp p' leaves joins

theorem Accounted.spawn (h : Accounted C Q s) (listener : Nat) {p : Phase} (joins : p ≠ .waiting) :
    Accounted (C + p.holdsOpen.toNat) (Q + p.holdsSlot.toNat) (s.spawn listener p) where
  opens := by
    rw [held_spawn, ← h.opens]
    exact (Nat.add_assoc ..).symm
  slots := by
    rw [held_spawn, ← h.slots]
    exact (Nat.add_assoc ..).symm
  nodup := h.nodup
  waiting := by
    intro j
    rw [phase?_spawn]
    refine (h.waiting j).trans ?_
    by_cases last : j = s.connections.length
    · subst last
      simp [phase?, joins]
    · rw [if_neg last]

theorem Accounted.takeOpen (h : Accounted (C + 1) Q s) {sem : Semaphore Nat}
    (free : s.openConnections.free = sem.free + 1) (waiters : sem.waiters = s.openConnections.waiters) :
    Accounted C Q { s with openConnections := sem } := by
  refine ⟨?_, h.slots, ?_, ?_⟩
  · have := h.opens
    change sem.free + s.held Phase.holdsOpen = C
    omega
  · rw [waiters]
    exact h.nodup
  · intro i
    rw [waiters]
    exact h.waiting i

theorem Accounted.takeSlot (h : Accounted C (Q + 1) s) {sem : Semaphore Empty}
    (free : s.queuedConnections.free = sem.free + 1) :
    Accounted C Q { s with queuedConnections := sem } := by
  refine ⟨h.opens, ?_, h.nodup, h.waiting⟩
  have := h.slots
  change sem.free + s.held Phase.holdsSlot = Q
  omega

/-- A queued task finds no free permit and goes to the end of the FIFO. -/
theorem Accounted.enqueue (h : Accounted C Q s) {i : Nat} (asks : s.phase? i = some .queued)
    {sem : Semaphore Nat} (free : sem.free = s.openConnections.free)
    (waiters : sem.waiters = s.openConnections.waiters ++ [i]) :
    Accounted C Q (Admission.setPhase { s with openConnections := sem } i .waiting) := by
  have absent : i ∉ s.openConnections.waiters := by
    intro present
    rw [(h.waiting i).mp present] at asks
    cases asks
  refine ⟨?_, ?_, ?_, ?_⟩
  · have moved := held_setPhase asks .waiting Phase.holdsOpen
    have := h.opens
    change sem.free + (s.setPhase i .waiting).held Phase.holdsOpen = C
    simp only [Phase.holdsOpen, Bool.toNat_false] at moved
    omega
  · have moved := held_setPhase asks .waiting Phase.holdsSlot
    have := h.slots
    change s.queuedConnections.free + (s.setPhase i .waiting).held Phase.holdsSlot = Q
    simp only [Phase.holdsSlot, Bool.toNat_true] at moved
    omega
  · change sem.waiters.Nodup
    rw [waiters]
    exact List.nodup_append.mpr
      ⟨h.nodup, by simp, fun j hj k hk => by
        rw [List.mem_singleton.mp hk]
        exact fun same => absent (same ▸ hj)⟩
  · intro j
    change j ∈ sem.waiters ↔ (s.setPhase i .waiting).phase? j = _
    rw [waiters, List.mem_append, h.waiting j, List.mem_singleton]
    by_cases same : i = j
    · subst same
      simp [phase?_setPhase_self asks]
    · simp [phase?_setPhase_ne s same, Ne.symm same]

/-- A dropped open permit becomes free, or goes to the longest waiting task. -/
theorem Accounted.releaseOpen (h : Accounted C Q s) : Accounted (C + 1) Q s.releaseOpen := by
  rcases s.openConnections.release_cases with
    ⟨nobody, served, free, waiters⟩ | ⟨i, rest, first, served, free, waiters⟩
  · have same : s.releaseOpen = { s with openConnections := s.openConnections.release.2 } := by
      rw [Admission.releaseOpen, served]
    rw [same]
    refine ⟨?_, h.slots, ?_, ?_⟩
    · have := h.opens
      change s.openConnections.release.2.free + s.held Phase.holdsOpen = C + 1
      omega
    · rw [waiters]
      exact .nil
    · intro j
      rw [waiters, ← nobody]
      exact h.waiting j
  · have handed : s.releaseOpen =
        ({ s with openConnections := s.openConnections.release.2 } : Admission).setPhase i .assigned := by
      rw [Admission.releaseOpen, served]
    have waits : s.phase? i = some .waiting := (h.waiting i).mp (by rw [first]; exact List.mem_cons_self)
    have once := first ▸ h.nodup
    rw [handed]
    refine ⟨?_, ?_, ?_, ?_⟩
    · have moved := held_setPhase waits .assigned Phase.holdsOpen
      have := h.opens
      change s.openConnections.release.2.free + (s.setPhase i .assigned).held Phase.holdsOpen = C + 1
      simp only [Phase.holdsOpen, Bool.toNat_true, Bool.toNat_false] at moved
      omega
    · have moved := held_setPhase waits .assigned Phase.holdsSlot
      have := h.slots
      change s.queuedConnections.free + (s.setPhase i .assigned).held Phase.holdsSlot = Q
      simp only [Phase.holdsSlot, Bool.toNat_true] at moved
      omega
    · change s.openConnections.release.2.waiters.Nodup
      rw [waiters]
      exact once.of_cons
    · intro j
      change j ∈ s.openConnections.release.2.waiters ↔ (s.setPhase i .assigned).phase? j = _
      rw [waiters]
      by_cases same : i = j
      · subst same
        rw [phase?_setPhase_self waits]
        simp [(List.nodup_cons.mp once).1]
      · rw [phase?_setPhase_ne s same, ← h.waiting j, first]
        simp [Ne.symm same]

theorem Accounted.releaseSlot (h : Accounted C Q s) : Accounted C (Q + 1) s.releaseSlot := by
  refine ⟨h.opens, ?_, h.nodup, h.waiting⟩
  have := h.slots
  change s.queuedConnections.release.2.free + s.held Phase.holdsSlot = Q + 1
  rw [Semaphore.release_free_of_empty]
  omega

/-- A waiter is aborted: it leaves the FIFO and its slot is owed to the semaphore. -/
theorem Accounted.forget (h : Accounted C (Q + 1) s) {i : Nat} (waits : s.phase? i = some .waiting)
    (result : TaskEnd) :
    Accounted C Q { s.setPhase i (.finished result) with
      openConnections := s.openConnections.forget i } := by
  refine ⟨?_, ?_, h.nodup.filter _, ?_⟩
  · have moved := held_setPhase waits (.finished result) Phase.holdsOpen
    have := h.opens
    simp only [Phase.holdsOpen, Bool.toNat_false] at moved
    change s.openConnections.free + (s.setPhase i (.finished result)).held Phase.holdsOpen = C
    omega
  · have moved := held_setPhase waits (.finished result) Phase.holdsSlot
    have := h.slots
    simp only [Phase.holdsSlot, Bool.toNat_false, Bool.toNat_true] at moved
    change s.queuedConnections.free + (s.setPhase i (.finished result)).held Phase.holdsSlot = Q
    omega
  · intro j
    change j ∈ (s.openConnections.forget i).waiters ↔ (s.setPhase i _).phase? j = _
    rw [Semaphore.mem_forget, h.waiting j]
    by_cases same : i = j
    · subst same
      rw [phase?_setPhase_self waits]
      simp
    · rw [phase?_setPhase_ne s same]
      simp [Ne.symm same]

theorem held_pos {i : Nat} {p : Phase} (hp : s.phase? i = some p) {q : Phase → Bool}
    (hq : q p = true) : 0 < s.held q := by
  obtain ⟨c, hc, rfl⟩ := Option.map_eq_some_iff.mp hp
  exact List.countP_pos_iff.mpr ⟨c, List.mem_of_getElem? hc, hq⟩

/-! ## One step -/

theorem accounted_tryOpen {listener : Nat} (h : Accounted C Q s)
    (hs : s.tryOpen listener = some t) : Accounted C Q t := by
  obtain ⟨sem, taken, rfl⟩ := Option.map_eq_some_iff.mp hs
  obtain ⟨free, waiters⟩ := Semaphore.tryAcquire_some taken
  obtain ⟨c, rfl⟩ : ∃ c, C = c + 1 := ⟨C - 1, by have := h.opens; omega⟩
  exact (h.takeOpen free waiters).spawn listener (p := .accepted) (by decide)

theorem accounted_tryQueue {listener : Nat} (h : Accounted C Q s)
    (hs : s.tryQueue listener = some t) : Accounted C Q t := by
  obtain ⟨sem, taken, rfl⟩ := Option.map_eq_some_iff.mp hs
  obtain ⟨free, -⟩ := Semaphore.tryAcquire_some taken
  obtain ⟨q, rfl⟩ : ∃ q, Q = q + 1 := ⟨Q - 1, by have := h.slots; omega⟩
  exact (h.takeSlot free).spawn listener (p := .queued) (by decide)

theorem accounted_poll {i : Nat} (h : Accounted C Q s) (hs : s.poll i = some t) :
    Accounted C Q t := by
  unfold poll at hs
  split at hs
  next ready =>
    cases hs
    exact h.setPhase ready .connecting (by decide) (by decide) rfl rfl
  next asks =>
    cases hs
    rcases s.openConnections.acquire_cases i with
      ⟨granted, free, nobody, waiters⟩ | ⟨queued, none_free, free, waiters⟩
    · obtain ⟨c, rfl⟩ : ∃ c, C = c + 1 := ⟨C - 1, by have := h.opens; omega⟩
      rw [granted]
      exact (h.takeOpen free (waiters.trans nobody.symm)).setPhase asks .admitted (by decide)
        (by decide) rfl rfl
    · rw [queued]
      exact h.enqueue asks (free.trans none_free.symm) waiters
  next resumes =>
    cases hs
    exact h.setPhase resumes .admitted (by decide) (by decide) rfl rfl
  next => cases hs

theorem accounted_dropQueueSlot {i : Nat} (h : Accounted C Q s)
    (hs : s.dropQueueSlot i = some t) : Accounted C Q t := by
  unfold dropQueueSlot at hs
  split at hs
  next holds =>
    cases hs
    have := held_pos holds (q := Phase.holdsSlot) rfl
    obtain ⟨q, rfl⟩ : ∃ q, Q = q + 1 := ⟨Q - 1, by have := h.slots; omega⟩
    exact (h.setPhase holds .connecting (by decide) (by decide) rfl rfl).releaseSlot
  next => cases hs

theorem accounted_finish {i : Nat} {result : TaskEnd} (h : Accounted C Q s)
    (hs : s.finish i result = some t) : Accounted C Q t := by
  unfold finish at hs
  split at hs
  next holds =>
    split at hs
    · cases hs
    · cases hs
      have := held_pos holds (q := Phase.holdsOpen) rfl
      obtain ⟨c, rfl⟩ : ∃ c, C = c + 1 := ⟨C - 1, by have := h.opens; omega⟩
      exact (h.setPhase holds (.finished result) (by decide) (by simp) rfl rfl).releaseOpen
  next => cases hs

/-- An abort gives back exactly what the phase of the task holds. -/
theorem accounted_abort {i : Nat} (h : Accounted C Q s) (hs : s.abort i = some t) :
    Accounted C Q t := by
  have open_held : ∀ p, s.phase? i = some p → p.holdsOpen = true → ∃ c, C = c + 1 :=
    fun p hp holds => ⟨C - 1, by have := h.opens; have := held_pos hp holds; omega⟩
  have slot_held : ∀ p, s.phase? i = some p → p.holdsSlot = true → ∃ q, Q = q + 1 :=
    fun p hp holds => ⟨Q - 1, by have := h.slots; have := held_pos hp holds; omega⟩
  unfold abort at hs
  split at hs
  next holds =>
    cases hs
    obtain ⟨c, rfl⟩ := open_held _ holds rfl
    exact (h.setPhase holds (.finished .aborted) (by decide) (by simp) rfl rfl).releaseOpen
  next holds =>
    cases hs
    obtain ⟨c, rfl⟩ := open_held _ holds rfl
    exact (h.setPhase holds (.finished .aborted) (by decide) (by simp) rfl rfl).releaseOpen
  next holds =>
    cases hs
    obtain ⟨q, rfl⟩ := slot_held _ holds rfl
    exact (h.setPhase holds (.finished .aborted) (by decide) (by simp) rfl rfl).releaseSlot
  next waits =>
    cases hs
    obtain ⟨q, rfl⟩ := slot_held _ waits rfl
    exact (h.forget waits .aborted).releaseSlot
  next holds =>
    cases hs
    obtain ⟨c, rfl⟩ := open_held _ holds rfl
    obtain ⟨q, rfl⟩ := slot_held _ holds rfl
    exact (h.setPhase holds (.finished .aborted) (by decide) (by simp) rfl rfl).releaseOpen.releaseSlot
  next holds =>
    cases hs
    obtain ⟨c, rfl⟩ := open_held _ holds rfl
    obtain ⟨q, rfl⟩ := slot_held _ holds rfl
    exact (h.setPhase holds (.finished .aborted) (by decide) (by simp) rfl rfl).releaseOpen.releaseSlot
  next => cases hs

theorem accounted_step {e : Event} (h : Accounted C Q s) (hs : s.step e = some t) :
    Accounted C Q t := by
  cases e with
  | tryOpen listener => exact accounted_tryOpen h hs
  | tryQueue listener => exact accounted_tryQueue h hs
  | poll i => exact accounted_poll h hs
  | dropQueueSlot i => exact accounted_dropQueueSlot h hs
  | finish i result => exact accounted_finish h hs
  | abort i => exact accounted_abort h hs
  | reap i =>
    obtain ⟨same_open, same_slots, same_phases, same_held⟩ := reap_frame hs
    refine ⟨?_, ?_, ?_, ?_⟩
    · rw [same_open, same_held]
      exact h.opens
    · rw [same_slots, same_held]
      exact h.slots
    · rw [same_open]
      exact h.nodup
    · intro j
      rw [same_open, same_phases]
      exact h.waiting j

end TcpProxy.Admission
