import TcpProxy.Lib.Run

/-! # Fair behaviours

An infinite behaviour of a labelled transition system takes a step or pauses at each time.
Under weak fairness a class of labels that stays enabled is taken at last, under strong
fairness one that is enabled again and again, and what must happen is proved from that by
`leadsTo_of_fair` and `leadsTo_of_stronglyFair`, one step at a time, and by
`LeadsTo.of_rank`, along a measure. -/

namespace Lts

variable {σ ℓ : Type} {step : σ → ℓ → σ → Prop}

structure Behaviour (step : σ → ℓ → σ → Prop) where
  state : Nat → σ
  label : Nat → Option ℓ
  moves : ∀ n l, label n = some l → step (state n) l (state (n + 1))
  rests : ∀ n, label n = none → state (n + 1) = state n

/-- A step with a label of the class can be taken. -/
def Enabled (step : σ → ℓ → σ → Prop) (A : ℓ → Prop) (s : σ) : Prop := ∃ l t, A l ∧ step s l t

namespace Behaviour

variable {b : Behaviour step} {I P P' Q R : σ → Prop} {A : ℓ → Prop}

/-- A class of labels that is enabled from some time on is taken after that time. -/
def WeaklyFair (b : Behaviour step) (A : ℓ → Prop) : Prop :=
  ∀ n, (∀ m, n ≤ m → Enabled step A (b.state m)) → ∃ m l, n ≤ m ∧ b.label m = some l ∧ A l

/-- A class of labels that is enabled again and again is taken. -/
def StronglyFair (b : Behaviour step) (A : ℓ → Prop) : Prop :=
  ∀ n, (∀ m, n ≤ m → ∃ k, m ≤ k ∧ Enabled step A (b.state k)) →
    ∃ m l, n ≤ m ∧ b.label m = some l ∧ A l

def LeadsTo (b : Behaviour step) (P Q : σ → Prop) : Prop :=
  ∀ n, P (b.state n) → ∃ m, n ≤ m ∧ Q (b.state m)

theorem always (b : Behaviour step) (init : I (b.state 0)) (keep : ∀ s l t, I s → step s l t → I t)
    (n : Nat) : I (b.state n) := by
  induction n with
  | zero => exact init
  | succ n ih =>
    cases taken : b.label n with
    | none =>
      rw [b.rests n taken]
      exact ih
    | some l => exact keep _ l _ ih (b.moves n l taken)

/-- Every state of a behaviour is reached by a run along its labels before. -/
theorem reached {s₀ : σ} (start : b.state 0 = s₀) (n : Nat) :
    ∃ ls, Run step s₀ ls (b.state n) ∧ ∀ l ∈ ls, ∃ k < n, b.label k = some l := by
  induction n with
  | zero =>
    rw [start]
    exact ⟨[], .nil s₀, nofun⟩
  | succ n ih =>
    obtain ⟨ls, run, before⟩ := ih
    have earlier (l : ℓ) (h : l ∈ ls) : ∃ k < n + 1, b.label k = some l := by
      obtain ⟨k, inside, taken⟩ := before l h
      exact ⟨k, Nat.lt_succ_of_lt inside, taken⟩
    cases taken : b.label n with
    | none =>
      rw [b.rests n taken]
      exact ⟨ls, run, earlier⟩
    | some l =>
      refine ⟨ls ++ [l], run.append (.single (b.moves n l taken)), fun l' present => ?_⟩
      rcases List.mem_append.mp present with old | new
      · exact earlier l' old
      · rw [List.mem_singleton.mp new]
        exact ⟨n, Nat.lt_succ_self n, taken⟩

theorem LeadsTo.of_always (always : ∀ n, I (b.state n)) (h : ∀ s, I s → P s → Q s) : b.LeadsTo P Q :=
  fun n holds => ⟨n, Nat.le_refl n, h _ (always n) holds⟩

theorem LeadsTo.trans (first : b.LeadsTo P Q) (later : b.LeadsTo Q R) : b.LeadsTo P R := by
  intro n holds
  obtain ⟨m, after, holds⟩ := first n holds
  obtain ⟨k, after', holds⟩ := later m holds
  exact ⟨k, Nat.le_trans after after', holds⟩

theorem LeadsTo.mono (h : b.LeadsTo P Q) (stronger : ∀ s, P' s → P s) (weaker : ∀ s, Q s → R s) :
    b.LeadsTo P' R := by
  intro n holds
  obtain ⟨m, after, holds⟩ := h n (stronger _ holds)
  exact ⟨m, after, weaker _ holds⟩

/-- The goal is reached, or else a state from which it is. -/
theorem LeadsTo.resolve (first : b.LeadsTo P fun s => Q s ∨ R s) (later : b.LeadsTo R Q) :
    b.LeadsTo P Q := by
  intro n holds
  obtain ⟨m, after, reached | between⟩ := first n holds
  · exact ⟨m, after, reached⟩
  · obtain ⟨k, after', reached⟩ := later m between
    exact ⟨k, Nat.le_trans after after', reached⟩

theorem LeadsTo.exists {ι : Type} {P : ι → σ → Prop} (h : ∀ i, b.LeadsTo (P i) Q) :
    b.LeadsTo (fun s => ∃ i, P i s) Q := by
  rintro n ⟨i, holds⟩
  exact h i n holds

/-- Where each state short of the goal leads on to one of smaller rank, the goal is reached. -/
theorem LeadsTo.of_rank (rank : σ → Nat)
    (lower : ∀ k, b.LeadsTo (fun s => P s ∧ rank s = k) fun s => Q s ∨ P s ∧ rank s < k) :
    b.LeadsTo P Q := by
  intro n holds
  induction hk : rank (b.state n) using Nat.strongRecOn generalizing n with
  | _ k ih =>
    obtain ⟨m, after, reached | ⟨short, less⟩⟩ := lower k n ⟨holds, hk⟩
    · exact ⟨m, after, reached⟩
    · obtain ⟨m', after', reached⟩ := ih _ less m short rfl
      exact ⟨m', Nat.le_trans after after', reached⟩

/-- What only the goal ends goes on for ever if the goal is not reached. -/
theorem lasts (always : ∀ n, I (b.state n)) (keep : ∀ s l t, I s → P s → step s l t → Q t ∨ P t)
    {n : Nat} (holds : P (b.state n)) (never : ∀ m, n ≤ m → ¬ Q (b.state m)) {m : Nat} (after : n ≤ m) :
    P (b.state m) := by
  induction after with
  | refl => exact holds
  | @step m after ih =>
    cases taken : b.label m with
    | none =>
      rw [b.rests m taken]
      exact ih
    | some l =>
      have next := keep _ l _ (always m) ih (b.moves m l taken)
      exact next.resolve_left (never _ (Nat.le_succ_of_le after))

/-- `P` holds until the goal is reached, and as long as it does a step of the class is
    enabled, each of which reaches the goal. -/
theorem leadsTo_of_fair (always : ∀ n, I (b.state n)) (fair : b.WeaklyFair A)
    (keep : ∀ s l t, I s → P s → step s l t → Q t ∨ P t ∧ ¬ A l)
    (enabled : ∀ s, I s → P s → Enabled step A s) : b.LeadsTo P Q := by
  intro n holds
  by_contra never
  have short : ∀ m, n ≤ m → ¬ Q (b.state m) := fun m after reached => never ⟨m, after, reached⟩
  have still {m : Nat} (after : n ≤ m) : P (b.state m) :=
    lasts always (fun s l t ok now moved => (keep s l t ok now moved).imp_right And.left) holds short after
  obtain ⟨m, l, after, taken, own⟩ := fair n fun m after => enabled _ (always m) (still after)
  have next := keep _ l _ (always m) (still after) (b.moves m l taken)
  exact (next.resolve_left (short _ (Nat.le_succ_of_le after))).2 own

/-- The same for a class that is only enabled again and again. -/
theorem leadsTo_of_stronglyFair (always : ∀ n, I (b.state n)) (fair : b.StronglyFair A)
    (keep : ∀ s l t, I s → P s → step s l t → Q t ∨ P t ∧ ¬ A l)
    (again : b.LeadsTo P fun s => Q s ∨ Enabled step A s) : b.LeadsTo P Q := by
  intro n holds
  by_contra never
  have short : ∀ m, n ≤ m → ¬ Q (b.state m) := fun m after reached => never ⟨m, after, reached⟩
  have still {m : Nat} (after : n ≤ m) : P (b.state m) :=
    lasts always (fun s l t ok now moved => (keep s l t ok now moved).imp_right And.left) holds short after
  obtain ⟨m, l, after, taken, own⟩ := fair n fun m after => by
    obtain ⟨k, later, reached | enabled⟩ := again m (still after)
    · exact absurd reached (short k (Nat.le_trans after later))
    · exact ⟨k, later, enabled⟩
  have next := keep _ l _ (always m) (still after) (b.moves m l taken)
  exact (next.resolve_left (short _ (Nat.le_succ_of_le after))).2 own

/-- What only the goal ends still holds when something that it leads to is reached. -/
theorem LeadsTo.within (h : b.LeadsTo P' R) (always : ∀ n, I (b.state n)) (starts : ∀ s, P s → P' s)
    (keep : ∀ s l t, I s → P s → step s l t → Q t ∨ P t) : b.LeadsTo P fun s => Q s ∨ P s ∧ R s := by
  intro n holds
  by_contra never
  obtain ⟨m, after, reached⟩ := h n (starts _ holds)
  have still : P (b.state m) :=
    lasts always keep holds (fun m after goal => never ⟨m, after, .inl goal⟩) after
  exact never ⟨m, after, .inr ⟨still, reached⟩⟩

/-- What only the goal ends leads to the goal, if it leads to something that excludes it. -/
theorem LeadsTo.before (h : b.LeadsTo P' R) (always : ∀ n, I (b.state n))
    (starts : ∀ s, P s → P' s) (excludes : ∀ s, R s → ¬ P s)
    (keep : ∀ s l t, I s → P s → step s l t → Q t ∨ P t) : b.LeadsTo P Q :=
  (h.within always starts keep).mono (fun _ => id) fun s ends =>
    ends.resolve_right fun both => excludes s both.2 both.1

theorem stays (always : ∀ n, I (b.state n)) (stable : ∀ s l t, I s → P s → step s l t → P t) {n m : Nat}
    (holds : P (b.state n)) (after : n ≤ m) : P (b.state m) :=
  lasts (Q := fun _ => False) always (fun s l t ok now moved => .inr (stable s l t ok now moved)) holds
    (fun _ _ => id) after

/-- What lasts still holds when the goal is reached. -/
theorem LeadsTo.also (h : b.LeadsTo P Q) (always : ∀ n, I (b.state n))
    (stable : ∀ s l t, I s → R s → step s l t → R t) :
    b.LeadsTo (fun s => P s ∧ R s) fun s => Q s ∧ R s := by
  rintro n ⟨holds, lasting⟩
  obtain ⟨m, after, reached⟩ := h n holds
  exact ⟨m, after, reached, stays always stable lasting after⟩

/-- Goals that last are reached together, if only finitely many are open at the start. -/
theorem LeadsTo.all {Q : Nat → σ → Prop} (always : ∀ n, I (b.state n))
    (stable : ∀ i s l t, I s → Q i s → step s l t → Q i t) (h : ∀ i, b.LeadsTo P (Q i))
    (finite : ∀ s, P s → ∃ k, ∀ i, k ≤ i → Q i s) : b.LeadsTo P fun s => ∀ i, Q i s := by
  intro n holds
  have below (k : Nat) : ∃ m, n ≤ m ∧ ∀ i < k, Q i (b.state m) := by
    induction k with
    | zero => exact ⟨n, Nat.le_refl n, nofun⟩
    | succ k ih =>
      obtain ⟨m, after, earlier⟩ := ih
      obtain ⟨m', after', last⟩ := h k n holds
      refine ⟨max m m', Nat.le_trans after (Nat.le_max_left ..), fun i inside => ?_⟩
      rcases Nat.lt_succ_iff_lt_or_eq.mp inside with before | rfl
      · exact stays always (stable i) (earlier i before) (Nat.le_max_left ..)
      · exact stays always (stable i) last (Nat.le_max_right ..)
  obtain ⟨k, beyond⟩ := finite _ holds
  obtain ⟨m, after, inside⟩ := below k
  refine ⟨m, after, fun i => ?_⟩
  rcases Nat.lt_or_ge i k with before | past
  · exact inside i before
  · exact stays always (stable i) (beyond i past) after

/-- A finite run, and then a pause for ever. -/
theorem exists_of_run {s t : σ} {ls : List ℓ} (run : Run step s ls t) :
    ∃ b : Behaviour step, b.state 0 = s ∧ (∀ n, ls.length ≤ n → b.state n = t ∧ b.label n = none) ∧
      ∀ n l, b.label n = some l → l ∈ ls := by
  induction run with
  | nil s =>
    exact ⟨⟨fun _ => s, fun _ => none, nofun, fun _ _ => rfl⟩, rfl, fun _ _ => ⟨rfl, rfl⟩, nofun⟩
  | @cons s u t l ls first _ ih =>
    obtain ⟨b, start, stop, along⟩ := ih
    refine ⟨⟨fun | 0 => s | n + 1 => b.state n, fun | 0 => some l | n + 1 => b.label n, ?_, ?_⟩, rfl, ?_, ?_⟩
    · intro n l' taken
      cases n with
      | zero =>
        cases taken
        change step s l (b.state 0)
        rw [start]
        exact first
      | succ n => exact b.moves n l' taken
    · intro n paused
      cases n with
      | zero => cases paused
      | succ n => exact b.rests n paused
    · intro n after
      cases n with
      | zero => cases after
      | succ n => exact stop n (Nat.le_of_succ_le_succ after)
    · intro n l' taken
      cases n with
      | zero =>
        cases taken
        exact List.mem_cons_self
      | succ n => exact List.mem_cons_of_mem _ (along n l' taken)

/-- It is fair to whatever is not enabled at its end. -/
theorem weaklyFair_of_stop {t : σ} {k : Nat} (stop : ∀ n, k ≤ n → b.state n = t ∧ b.label n = none)
    (idle : ¬ Enabled step A t) : b.WeaklyFair A := by
  intro n enabled
  have last := enabled (max n k) (Nat.le_max_left ..)
  rw [(stop _ (Nat.le_max_right ..)).1] at last
  exact absurd last idle

theorem stronglyFair_of_stop {t : σ} {k : Nat} (stop : ∀ n, k ≤ n → b.state n = t ∧ b.label n = none)
    (idle : ¬ Enabled step A t) : b.StronglyFair A := by
  intro n enabled
  obtain ⟨m, after, last⟩ := enabled (max n k) (Nat.le_max_left ..)
  rw [(stop _ (Nat.le_trans (Nat.le_max_right ..) after)).1] at last
  exact absurd last idle

end Behaviour

end Lts
