import Mathlib.Data.List.Basic

/-! # A fair counting semaphore

Permits are taken at once by `tryAcquire`, or asked for by `acquire`, which queues the
caller when none is free.  A released permit goes to the first waiter if there is one
and to the free count otherwise, so a permit is never free while somebody waits for
it: the structure carries that as a field. -/

structure Semaphore (ι : Type) where
  free : Nat
  waiters : List ι
  parked : waiters = [] ∨ free = 0
  deriving DecidableEq

namespace Semaphore

variable {ι : Type}

def new (permits : Nat) : Semaphore ι := ⟨permits, [], .inl rfl⟩

def tryAcquire (s : Semaphore ι) : Option (Semaphore ι) :=
  if 0 < s.free then
    some ⟨s.free - 1, s.waiters, s.parked.imp_right fun h => by omega⟩
  else none

/-- The first poll of a request by `i`: granted at once, or queued behind the others. -/
def acquire (s : Semaphore ι) (i : ι) : Bool × Semaphore ι :=
  if h : 0 < s.free then
    (true, ⟨s.free - 1, s.waiters, s.parked.imp_right fun h => by omega⟩)
  else (false, ⟨s.free, s.waiters ++ [i], .inr (by omega)⟩)

/-- A permit comes back: the waiter it is assigned to, if any. -/
def release (s : Semaphore ι) : Option ι × Semaphore ι :=
  match h : s.waiters with
  | [] => (none, ⟨s.free + 1, [], .inl rfl⟩)
  | i :: rest => (some i, ⟨s.free, rest, .inr (s.parked.resolve_left (by simp [h]))⟩)

/-- A waiter that no permit has been assigned to gives up. -/
def forget [DecidableEq ι] (s : Semaphore ι) (i : ι) : Semaphore ι :=
  ⟨s.free, s.waiters.filter (· ≠ i), s.parked.imp_left fun h => by simp [h]⟩

@[simp] theorem new_free (permits : Nat) : (new permits : Semaphore ι).free = permits := rfl

@[simp] theorem new_waiters (permits : Nat) : (new permits : Semaphore ι).waiters = [] := rfl

theorem waiters_of_free {s : Semaphore ι} (h : 0 < s.free) : s.waiters = [] :=
  s.parked.resolve_right (by omega)

theorem tryAcquire_some {s t : Semaphore ι} (h : s.tryAcquire = some t) :
    s.free = t.free + 1 ∧ t.waiters = s.waiters := by
  unfold tryAcquire at h
  split at h
  · cases h
    exact ⟨by simp only; omega, rfl⟩
  · cases h

theorem tryAcquire_none {s : Semaphore ι} : s.tryAcquire = none ↔ s.free = 0 := by
  unfold tryAcquire
  split <;> simp <;> omega

/-- What `acquire` can do: take a free permit, or join the waiters when none is free. -/
theorem acquire_cases (s : Semaphore ι) (i : ι) :
    ((s.acquire i).1 = true ∧ s.free = (s.acquire i).2.free + 1 ∧ s.waiters = [] ∧
      (s.acquire i).2.waiters = []) ∨
    ((s.acquire i).1 = false ∧ s.free = 0 ∧ (s.acquire i).2.free = 0 ∧
      (s.acquire i).2.waiters = s.waiters ++ [i]) := by
  by_cases h : 0 < s.free
  · have none_wait := waiters_of_free h
    left
    simp only [acquire, dif_pos h, none_wait, and_true, true_and]
    omega
  · right
    simp only [acquire, dif_neg h, and_true, true_and]
    omega

/-- What `release` can do: add to the free count, or serve the first waiter. -/
theorem release_cases (s : Semaphore ι) :
    (s.waiters = [] ∧ s.release.1 = none ∧ s.release.2.free = s.free + 1 ∧
      s.release.2.waiters = []) ∨
    (∃ i rest, s.waiters = i :: rest ∧ s.release.1 = some i ∧ s.release.2.free = s.free ∧
      s.release.2.waiters = rest) := by
  obtain ⟨free, waiters, parked⟩ := s
  cases waiters with
  | nil => exact .inl ⟨rfl, rfl, rfl, rfl⟩
  | cons i rest => exact .inr ⟨i, rest, rfl, rfl, rfl, rfl⟩

/-- Where nobody can wait, every released permit becomes free. -/
@[simp] theorem release_free_of_empty (s : Semaphore Empty) : s.release.2.free = s.free + 1 := by
  rcases s.release_cases with ⟨_, _, h, _⟩ | ⟨i, _⟩
  · exact h
  · exact i.elim

@[simp] theorem mem_forget [DecidableEq ι] {s : Semaphore ι} {i j : ι} :
    j ∈ (s.forget i).waiters ↔ j ∈ s.waiters ∧ j ≠ i := by
  simp [forget]

/-! ## The place of a waiter -/

section Place

variable [DecidableEq ι] {s : Semaphore ι} {i j : ι}

/-- How many wait before `i`. -/
def ahead (s : Semaphore ι) (i : ι) : Nat := s.waiters.idxOf i

theorem ahead_acquire (waits : i ∈ s.waiters) : (s.acquire j).2.ahead i = s.ahead i := by
  rcases s.acquire_cases j with ⟨-, -, nobody, -⟩ | ⟨-, -, -, joined⟩
  · rw [nobody] at waits
    cases waits
  · rw [ahead, joined]
    exact List.idxOf_append_of_mem waits

theorem ahead_forget (other : j ≠ i) : (s.forget j).ahead i ≤ s.ahead i := by
  change (s.waiters.filter (· ≠ j)).idxOf i ≤ s.waiters.idxOf i
  induction s.waiters with
  | nil => simp
  | cons k rest ih =>
    by_cases here : k = i
    · subst here
      simp [other.symm]
    · rw [List.idxOf_cons_ne rest here, List.filter_cons]
      split
      · rw [List.idxOf_cons_ne _ here]
        omega
      · omega

/-- Who still waits after a release has moved up by one. -/
theorem ahead_release (once : s.waiters.Nodup) (waits : i ∈ s.release.2.waiters) :
    s.release.2.ahead i + 1 = s.ahead i := by
  rcases s.release_cases with ⟨-, -, -, nobody⟩ | ⟨first, rest, queue, -, -, left⟩
  · rw [nobody] at waits
    cases waits
  · rw [left] at waits
    have other : first ≠ i := by
      rintro rfl
      rw [queue] at once
      exact (List.nodup_cons.mp once).1 waits
    rw [ahead, ahead, left, queue, List.idxOf_cons_ne rest other]

end Place

end Semaphore
