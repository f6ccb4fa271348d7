import Mathlib.Data.List.Nodup
import Mathlib.Data.List.Range
import Mathlib.Data.Nat.ModEq
import Mathlib.Data.Nat.Periodic
import Mathlib.Algebra.Order.Interval.Finset.Basic

/-! # Cyclic scans

`scan start n` is the order in which a loop over `0..n` with index `(start + i) % n`
visits the positions `0..n`.  When some positions stop the scan, `advance` is the number
of steps to the first of them, and the scans from `n` consecutive starts share the stops
by the length of the arcs before them (`card_arrivals`).  A counter that wraps at `N`
points at every position once in `n` consecutive values, except around the wrap when `n`
does not divide `N` (`nodup_tickets_iff`). -/

namespace Cyclic

def scan (start n : Nat) : List Nat := (List.range n).map fun i => (start + i) % n

@[simp] theorem length_scan (start n : Nat) : (scan start n).length = n := by simp [scan]

/-- A scan visits no position twice. -/
theorem nodup_scan (start n : Nat) : (scan start n).Nodup := by
  refine (List.nodup_map_iff_inj_on List.nodup_range).mpr ?_
  intro i hi j hj heq
  have hi := List.mem_range.mp hi
  have hj := List.mem_range.mp hj
  have cancelled : i % n = j % n := Nat.ModEq.add_left_cancel' start heq
  rwa [Nat.mod_eq_of_lt hi, Nat.mod_eq_of_lt hj] at cancelled

/-- A scan visits every position. -/
theorem scan_perm (start n : Nat) : (scan start n).Perm (List.range n) := by
  apply List.Subperm.perm_of_length_le
  · apply List.subperm_of_subset (nodup_scan start n)
    intro p member
    obtain ⟨i, hi, rfl⟩ := List.mem_map.mp member
    exact List.mem_range.mpr (Nat.mod_lt _ (Nat.zero_lt_of_lt (List.mem_range.mp hi)))
  · simp

/-! ## Arcs -/

/-- Steps from `x` to the first stop at or after it. -/
def advance (stop : Nat → Bool) (n x : Nat) : Nat :=
  (List.range n).findIdx fun i => stop ((x + i) % n)

/-- The distance to `j` from the nearest stop before it, `n` when there is no other. -/
def gap (stop : Nat → Bool) (n j : Nat) : Nat :=
  (List.range n).findIdx (fun i => stop ((j + n - (i + 1)) % n)) + 1

theorem le_findIdx_range {q : Nat → Bool} {i n : Nat} (h : i ≤ n) :
    i ≤ (List.range n).findIdx q ↔ ∀ k < i, q k = false := by
  constructor
  · intro le k hk
    have early : k < (List.range n).findIdx q := by omega
    simpa using List.not_of_lt_findIdx early
  · intro clear
    by_contra late
    have inside : (List.range n).findIdx q < (List.range n).length := by
      rw [List.length_range]; omega
    have hit := List.findIdx_getElem (w := inside)
    rw [List.getElem_range, clear _ (by omega)] at hit
    cases hit

variable {stop : Nat → Bool} {n j : Nat}

theorem advance_le {x m : Nat} (h : m < n) (hit : stop ((x + m) % n) = true) :
    advance stop n x ≤ m := by
  by_contra late
  have clear := (le_findIdx_range (q := fun i => stop ((x + i) % n)) (Nat.succ_le_of_lt h)).mp
    (Nat.lt_of_not_le late) m (Nat.lt_succ_self m)
  rw [hit] at clear
  cases clear

theorem advance_eq {x m : Nat} (h : m < n) (hit : stop ((x + m) % n) = true) :
    advance stop n x = m ↔ ∀ i < m, stop ((x + i) % n) = false := by
  rw [← le_findIdx_range (q := fun i => stop ((x + i) % n)) h.le]
  exact ⟨fun eq => eq.ge, fun lower => Nat.le_antisymm (advance_le h hit) lower⟩

theorem advance_add (x : Nat) : advance stop n (x + n) = advance stop n x := by
  have same : ∀ i, (x + n + i) % n = (x + i) % n := by
    intro i
    rw [Nat.add_right_comm, Nat.add_mod_right]
  simp only [advance, same]

theorem advance_mod (x : Nat) : advance stop n (x % n) = advance stop n x := by
  simp only [advance, Nat.mod_add_mod]

/-- Every position is on every scan. -/
theorem exists_step (start : Nat) (hj : j < n) : ∃ i < n, (start % n + i) % n = j := by
  have bound := Nat.mod_lt start (Nat.zero_lt_of_lt hj)
  refine ⟨(j + n - start % n) % n, Nat.mod_lt _ (Nat.zero_lt_of_lt hj), ?_⟩
  rw [Nat.add_mod_mod, show start % n + (j + n - start % n) = j + n by omega, Nat.add_mod_right,
    Nat.mod_eq_of_lt hj]

theorem gap_le (hj : j < n) (hstop : stop j = true) : gap stop n j ≤ n := by
  by_contra late
  have clear := (le_findIdx_range (q := fun i => stop ((j + n - (i + 1)) % n)) (Nat.le_refl n)).mp
    (Nat.le_of_lt_succ (Nat.lt_of_not_le late)) (n - 1) (by omega)
  have last : j + n - (n - 1 + 1) = j := by omega
  simp only [last, Nat.mod_eq_of_lt hj, hstop] at clear
  cases clear

/-- Inside the window that ends at `j + n`, a scan arrives at `j` exactly when it starts in
    the arc between the stop before it and `j`. -/
theorem arrives_iff (hj : j < n) (hstop : stop j = true) {x : Nat} (lower : j < x)
    (upper : x ≤ j + n) :
    (x + advance stop n x) % n = j ↔ j + n < x + gap stop n j := by
  obtain ⟨i, hi⟩ := Nat.exists_eq_add_of_le upper
  have bound : i < n := by omega
  have hit : stop ((x + i) % n) = true := by
    rw [← hi, Nat.add_mod_right, Nat.mod_eq_of_lt hj, hstop]
  have first := advance_le bound hit
  have landing : (x + advance stop n x) % n = j ↔ advance stop n x = i := by
    constructor
    · intro arrived
      have congruent : x + advance stop n x ≡ j + n [MOD n] := by
        rw [Nat.ModEq, arrived, Nat.add_mod_right, Nat.mod_eq_of_lt hj]
      have divides := (Nat.modEq_iff_dvd' (by omega)).mp congruent
      have := Nat.eq_zero_of_dvd_of_lt divides (by omega)
      omega
    · intro arrived
      rw [arrived, ← hi, Nat.add_mod_right, Nat.mod_eq_of_lt hj]
  rw [landing, advance_eq bound hit]
  -- Counted from `x` and counted back from `j`, the same positions are clear.
  have reversed : (∀ k < i, stop ((x + k) % n) = false) ↔
      ∀ k < i, stop ((j + n - (k + 1)) % n) = false := by
    constructor
    · intro clear k hk
      have := clear (i - 1 - k) (by omega)
      rwa [show x + (i - 1 - k) = j + n - (k + 1) by omega] at this
    · intro clear k hk
      have := clear (i - 1 - k) (by omega)
      rwa [show j + n - (i - 1 - k + 1) = x + k by omega] at this
  rw [reversed, ← le_findIdx_range (q := fun k => stop ((j + n - (k + 1)) % n)) bound.le, gap]
  omega

/-- Of the scans from `n` consecutive starts, as many arrive at `j` as the arc that ends in
    it is long. -/
theorem card_arrivals (hj : j < n) (hstop : stop j = true) (c : Nat) :
    ((Finset.range n).filter fun k => (c + k + advance stop n (c + k)) % n = j).card =
      gap stop n j := by
  let arrives : Nat → Prop := fun x => (x + advance stop n x) % n = j
  have periodic : Function.Periodic arrives n := by
    intro x
    simp only [arrives, advance_add]
    rw [Nat.add_right_comm, Nat.add_mod_right]
  have window : ∀ a, ((Finset.Ico a (a + n)).filter arrives).card = n.count arrives := fun a =>
    Nat.filter_Ico_card_eq_of_periodic a n arrives periodic
  have shifted : ((Finset.range n).filter fun k => (c + k + advance stop n (c + k)) % n = j).card =
      ((Finset.Ico c (c + n)).filter arrives).card := by
    have moved : Finset.Ico c (c + n) = (Finset.range n).map (addLeftEmbedding c) := by
      rw [Finset.range_eq_Ico, Finset.map_add_left_Ico, Nat.add_zero]
    rw [moved, Finset.filter_map, Finset.card_map]
    rfl
  have arc : (Finset.Ico (j + 1) (j + 1 + n)).filter arrives =
      Finset.Ico (j + n + 1 - gap stop n j) (j + n + 1) := by
    have short := gap_le hj hstop
    ext x
    simp only [Finset.mem_filter, Finset.mem_Ico]
    constructor
    · intro inside
      have := (arrives_iff hj hstop (by omega) (by omega)).mp inside.2
      omega
    · intro inside
      exact ⟨by omega, (arrives_iff hj hstop (by omega) (by omega)).mpr (by omega)⟩
  have short := gap_le hj hstop
  rw [shifted, window, ← window (j + 1), arc, Nat.card_Ico]
  omega

example : gap (fun j => j = 0 ∨ j = 3) 4 3 = 3 ∧ gap (fun j => j = 2) 4 2 = 4 := by decide

/-! ## Tickets of a wrapping counter -/

/-- The position after the one a wrapping counter points at follows it cyclically, unless the
    counter wraps between the two and `n` does not divide its range. -/
theorem next_ticket_iff {N n c : Nat} (bound : c < N) :
    (c + 1) % N % n = (c % n + 1) % n ↔ c + 1 < N ∨ n ∣ N := by
  rw [Nat.mod_add_mod]
  by_cases short : c + 1 < N
  · simp [Nat.mod_eq_of_lt short, short]
  · have wraps : c + 1 = N := by omega
    rw [wraps, Nat.mod_self, Nat.zero_mod, Nat.dvd_iff_mod_eq_zero]
    simp [eq_comm]

/-- The positions that `n` consecutive values of a counter point at, which wraps at `N`. -/
def tickets (N n c : Nat) : List Nat := (List.range n).map fun k => (c + k) % N % n

@[simp] theorem length_tickets (N n c : Nat) : (tickets N n c).length = n := by simp [tickets]

theorem tickets_eq_scan {N n c : Nat} (fits : c + n ≤ N ∨ n ∣ N) : tickets N n c = scan c n := by
  apply List.map_congr_left
  intro k hk
  have hk := List.mem_range.mp hk
  cases fits with
  | inl short => rw [Nat.mod_eq_of_lt (by omega : c + k < N)]
  | inr divides => exact Nat.mod_mod_of_dvd _ divides

/-- A stretch of consecutive values of a wrapping counter is counted from its own first value. -/
theorem window_of_range {N a m : Nat} {before window after : List Nat} {first : Nat}
    (values : before ++ window ++ after = (List.range m).map fun k => (a + k) % N)
    (head : window.head? = some first) :
    window = (List.range window.length).map fun k => (first + k) % N := by
  have at_index : ∀ j, j < window.length → window[j]? = some ((a + (before.length + j)) % N) := by
    intro j hj
    have inside : before.length + j < m := by
      have := congrArg List.length values
      simp at this
      omega
    have same := congrArg (·[before.length + j]?) values
    simp [List.append_assoc, List.getElem?_append_right, inside] at same
    rwa [List.getElem?_append_left hj] at same
  have start : first = (a + before.length) % N := by
    have nonempty : 0 < window.length := by
      cases window with
      | nil => cases head
      | cons x rest => simp
    have := at_index 0 nonempty
    rw [← List.head?_eq_getElem?, head] at this
    simpa using this
  apply List.ext_getElem?
  intro j
  by_cases hj : j < window.length
  · rw [at_index j hj, start]
    simp [hj, Nat.add_assoc]
  · simp [hj]

/-- No position comes twice exactly when the counter does not wrap within the window, or
    `n` divides its range. -/
theorem nodup_tickets_iff {N n c : Nat} (bound : c < N) :
    (tickets N n c).Nodup ↔ c + n ≤ N ∨ n ∣ N := by
  constructor
  · intro nodup
    by_contra wraps
    rw [not_or, Nat.not_le] at wraps
    have same := (List.nodup_map_iff_inj_on List.nodup_range).mp nodup
    simp only [List.mem_range] at same
    -- `r` values are left over by the last full round before the wrap, `m` values are left.
    obtain ⟨q, r, hr, rfl⟩ : ∃ q r, r < n ∧ N = n * q + r :=
      ⟨N / n, N % n, Nat.mod_lt _ (by omega), (Nat.div_add_mod N n).symm⟩
    have positive : 0 < r := by
      apply Nat.pos_of_ne_zero
      rintro rfl
      exact wraps.2 ⟨q, rfl⟩
    obtain ⟨m, hm⟩ : ∃ m, c + m = n * q + r := ⟨n * q + r - c, by omega⟩
    by_cases enough : r ≤ m
    · -- The last round and the wrap itself both point at position `0`.
      have early : (c + (m - r)) % (n * q + r) % n = 0 := by
        rw [show c + (m - r) = n * q by omega, Nat.mod_eq_of_lt (show n * q < n * q + r by omega),
          Nat.mul_mod_right]
      have late : (c + m) % (n * q + r) % n = 0 := by rw [hm, Nat.mod_self, Nat.zero_mod]
      have := same (m - r) (by omega) m (by omega) (early.trans late.symm)
      omega
    · -- The first value and the one `r` later are a whole number of rounds apart.
      have early : c % (n * q + r) % n = r - m := by
        rw [Nat.mod_eq_of_lt bound, show c = n * q + (r - m) by omega, Nat.mul_add_mod,
          Nat.mod_eq_of_lt (by omega)]
      have late : (c + r) % (n * q + r) % n = r - m := by
        rw [show c + r = n * q + r + (r - m) by omega, Nat.add_mod_left,
          Nat.mod_eq_of_lt (show r - m < n * q + r by omega), Nat.mod_eq_of_lt (by omega)]
      have := same 0 (by omega) r (by omega) (early.trans late.symm)
      omega
  · intro fits
    rw [tickets_eq_scan fits]
    exact nodup_scan c n

/-- Among `n` positions below `n`, each comes once exactly when none comes twice. -/
theorem count_eq_one_iff {n : Nat} {ps : List Nat} (len : ps.length = n) (small : ∀ p ∈ ps, p < n) :
    (∀ p < n, ps.count p = 1) ↔ ps.Nodup := by
  constructor
  · intro once
    apply List.nodup_iff_count_le_one.mpr
    intro p
    by_cases member : p ∈ ps
    · exact (once p (small p member)).le
    · simp [List.count_eq_zero.mpr member]
  · intro nodup p hp
    have all : ps.Perm (List.range n) := by
      apply (List.subperm_of_subset nodup fun p member => List.mem_range.mpr (small p member)).perm_of_length_le
      simp [len]
    rw [all.count_eq, List.count_eq_one_of_mem List.nodup_range (List.mem_range.mpr hp)]

end Cyclic
