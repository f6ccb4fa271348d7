import Mathlib.Data.List.Basic

/-! # Splitting and reading numbers

Two steps many small grammars are made of: cutting a word at its first separator, and
reading a number digit by digit under a bound, failing as soon as it is exceeded. -/

namespace Parsing

variable {α : Type}

/-! ## The first separator -/

section Split

variable [DecidableEq α] {sep : α}

/-- What stands before and after the first `sep`. -/
def splitFirst (sep : α) : List α → Option (List α × List α)
  | [] => none
  | a :: rest =>
    if a = sep then some ([], rest) else (splitFirst sep rest).map (Prod.map (a :: ·) id)

theorem splitFirst_eq_none_iff {word : List α} : splitFirst sep word = none ↔ sep ∉ word := by
  induction word with
  | nil => simp [splitFirst]
  | cons a word ih =>
    by_cases first : a = sep
    · simp [splitFirst, first]
    · simp [splitFirst, first, ih, Ne.symm first]

theorem splitFirst_append {before after : List α} (absent : sep ∉ before) :
    splitFirst sep (before ++ sep :: after) = some (before, after) := by
  induction before with
  | nil => simp [splitFirst]
  | cons a before ih =>
    have first : a ≠ sep := fun same => absent (by simp [same])
    have later : sep ∉ before := fun member => absent (List.mem_cons_of_mem a member)
    simp [splitFirst, first, ih later]

theorem splitFirst_eq_some_iff {word before after : List α} :
    splitFirst sep word = some (before, after) ↔ word = before ++ sep :: after ∧ sep ∉ before := by
  constructor
  · intro split
    induction word generalizing before with
    | nil => cases split
    | cons a word ih =>
      by_cases first : a = sep
      · simp only [splitFirst, if_pos first, Option.some.injEq, Prod.mk.injEq] at split
        obtain ⟨rfl, rfl⟩ := split
        simp [first]
      · simp only [splitFirst, if_neg first, Option.map_eq_some_iff] at split
        obtain ⟨⟨front, back⟩, split, same⟩ := split
        cases same
        obtain ⟨rfl, absent⟩ := ih split
        refine ⟨rfl, ?_⟩
        simp [absent, Ne.symm first]
  · rintro ⟨rfl, absent⟩
    exact splitFirst_append absent

end Split

/-! ## Numbers -/

section Numbers

variable {base bound : Nat} {digit : α → Option Nat}

/-- The number whose digits, the most significant first, follow those of `start`. -/
def value (base start : Nat) (digits : List Nat) : Nat :=
  digits.foldl (fun n d => n * base + d) start

/-- Reads the digits of a number, as long as it does not exceed `bound`. -/
def readDigits (digit : α → Option Nat) (base bound : Nat) : Nat → List α → Option Nat
  | n, [] => some n
  | n, a :: word => do
    let d ← digit a
    if n * base + d ≤ bound then readDigits digit base bound (n * base + d) word else none

theorem le_value (positive : 0 < base) (start : Nat) (digits : List Nat) :
    start ≤ value base start digits := by
  induction digits generalizing start with
  | nil => exact Nat.le_refl _
  | cons d digits ih =>
    calc start ≤ start * base := Nat.le_mul_of_pos_right start positive
      _ ≤ start * base + d := Nat.le_add_right _ _
      _ ≤ value base start (d :: digits) := ih _

/-- A bound that the number keeps in the end is kept on the way. -/
theorem readDigits_eq_some_iff (positive : 0 < base) {start n : Nat} (within : start ≤ bound)
    {word : List α} :
    readDigits digit base bound start word = some n ↔
      ∃ digits, word.map digit = digits.map some ∧ n = value base start digits ∧ n ≤ bound := by
  induction word generalizing start with
  | nil =>
    constructor
    · intro read
      cases read
      exact ⟨[], rfl, rfl, within⟩
    · rintro ⟨digits, none_left, same, -⟩
      cases digits with
      | nil => rw [same]; rfl
      | cons d digits => cases none_left
  | cons a word ih =>
    constructor
    · intro read
      obtain ⟨d, is_digit, read⟩ := Option.bind_eq_some_iff.mp read
      split at read
      next still =>
        obtain ⟨digits, all, same, kept⟩ := (ih still).mp read
        exact ⟨d :: digits, by simp [is_digit, all], same, kept⟩
      next => cases read
    · rintro ⟨digits, all, same, kept⟩
      cases digits with
      | nil => cases all
      | cons d digits =>
        obtain ⟨is_digit, all⟩ : digit a = some d ∧ word.map digit = digits.map some := by
          simpa using all
        have still : start * base + d ≤ bound := by
          have grown := le_value positive (start * base + d) digits
          have same : n = value base (start * base + d) digits := same
          omega
        rw [readDigits, is_digit]
        show (if start * base + d ≤ bound then _ else none) = some n
        rw [if_pos still]
        exact (ih still).mpr ⟨digits, all, same, kept⟩

end Numbers

end Parsing
