import Mathlib.Data.List.Basic

/-! # Labelled runs

`Run step s ls t` says that the labelled transition relation `step` leads from `s`
to `t` along the labels `ls`.  Everything that holds "in every reachable state" or
"after any history" is proved through the induction rules below; a deterministic
machine given as a function `σ → ℓ → Option σ` is embedded by `Fires`.
-/

namespace Lts

variable {σ τ ℓ κ : Type}

/-- The finite runs of a labelled transition relation. -/
inductive Run (step : σ → ℓ → σ → Prop) : σ → List ℓ → σ → Prop
  | nil (s : σ) : Run step s [] s
  | cons {s t u : σ} {l : ℓ} {ls : List ℓ} :
      step s l t → Run step t ls u → Run step s (l :: ls) u

variable {step : σ → ℓ → σ → Prop}

theorem Run.single {s t : σ} {l : ℓ} (h : step s l t) : Run step s [l] t :=
  .cons h (.nil t)

theorem Run.append {s t u : σ} {ls ms : List ℓ} (h₁ : Run step s ls t) (h₂ : Run step t ms u) :
    Run step s (ls ++ ms) u := by
  induction h₁ with
  | nil => exact h₂
  | cons hs _ ih => exact .cons hs (ih h₂)

/-- A run along a concatenation passes through an intermediate state. -/
theorem Run.split {s u : σ} {ls ms : List ℓ} (h : Run step s (ls ++ ms) u) :
    ∃ t, Run step s ls t ∧ Run step t ms u := by
  induction ls generalizing s with
  | nil => exact ⟨s, .nil s, h⟩
  | cons l ls ih =>
    cases h with
    | cons hs hrest =>
      obtain ⟨t, h₁, h₂⟩ := ih hrest
      exact ⟨t, .cons hs h₁, h₂⟩

theorem Run.nil_eq {s t : σ} (h : Run step s [] t) : s = t := by
  cases h; rfl

theorem Run.uncons {s t : σ} {l : ℓ} {ls : List ℓ} (h : Run step s (l :: ls) t) :
    ∃ u, step s l u ∧ Run step u ls t := by
  cases h with
  | cons hs hrest => exact ⟨_, hs, hrest⟩

theorem Run.of_single {s t : σ} {l : ℓ} (h : Run step s [l] t) : step s l t := by
  cases h with
  | cons hs hrest => cases hrest.nil_eq; exact hs

/-- Induction at the far end of a run: `I` relates the labels seen so far to the
    state they led to. -/
theorem Run.history {s t : σ} {ls : List ℓ} (h : Run step s ls t)
    (I : List ℓ → σ → Prop) (init : I [] s)
    (next : ∀ pre u l v, I pre u → step u l v → I (pre ++ [l]) v) : I ls t := by
  have general : ∀ {s t : σ} {ls : List ℓ}, Run step s ls t → ∀ pre, I pre s → I (pre ++ ls) t := by
    intro s t ls run
    induction run with
    | nil => intro pre hpre; simpa using hpre
    | @cons s t u l ls hs _ ih =>
      intro pre hpre
      have := ih (pre ++ [l]) (next pre _ l _ hpre hs)
      simpa using this
  simpa using general h [] init

/-- A property of states kept by every step holds at the end of every run. -/
theorem Run.invariant {s t : σ} {ls : List ℓ} (h : Run step s ls t) {I : σ → Prop}
    (init : I s) (keep : ∀ u l v, I u → step u l v → I v) : I t :=
  h.history (fun _ u => I u) init fun _ u l v hu hs => keep u l v hu hs

/-- A step from one state to the next inside a run. -/
theorem Run.mem_step {s t : σ} {ls : List ℓ} (h : Run step s ls t) {l : ℓ} (hl : l ∈ ls) :
    ∃ pre post u v, ls = pre ++ l :: post ∧ Run step s pre u ∧ step u l v ∧ Run step v post t := by
  obtain ⟨pre, post, rfl⟩ := List.append_of_mem hl
  obtain ⟨u, h₁, h₂⟩ := h.split
  cases h₂ with
  | cons hs hrest => exact ⟨pre, post, u, _, rfl, h₁, hs, hrest⟩

/-- At every point of a run along `ls` there is one of a run along `ms` such that `P` holds of
    the labels before the two points and the states at them. -/
def Throughout (step : σ → ℓ → σ → Prop) (step' : τ → κ → τ → Prop)
    (P : List ℓ → List κ → σ → τ → Prop) (s : σ) (t : τ) (ls : List ℓ) (ms : List κ) : Prop :=
  ∀ pre post, ls = pre ++ post → ∃ u pre' post' v, Run step s pre u ∧ ms = pre' ++ post' ∧
    Run step' t pre' v ∧ P pre pre' u v

theorem Throughout.mono {step' : τ → κ → τ → Prop} {P P' : List ℓ → List κ → σ → τ → Prop} {s : σ} {t : τ}
    {ls : List ℓ} {ms : List κ} (h : Throughout step step' P s t ls ms)
    (weaker : ∀ {pre pre' u v}, P pre pre' u v → P' pre pre' u v) :
    Throughout step step' P' s t ls ms := by
  intro pre post split
  obtain ⟨u, pre', post', v, left, split', right, holds⟩ := h pre post split
  exact ⟨u, pre', post', v, left, split', right, weaker holds⟩

/-- Where each step of one system is matched by steps of the other, a run of the one is
    matched by a run of the other, at every point. -/
theorem Run.simulated {s s' : σ} {t : τ} {ls : List ℓ} (run : Run step s ls s')
    {step' : τ → κ → τ → Prop} {M : List ℓ → List κ → Prop} {R : σ → τ → Prop} (nothing : M [] [])
    (join : ∀ {ls ms ls' ms'}, M ls ms → M ls' ms' → M (ls ++ ls') (ms ++ ms'))
    (matched : ∀ {s t l s'}, R s t → step s l s' → ∃ ms t', Run step' t ms t' ∧ M [l] ms ∧ R s' t')
    (start : R s t) :
    ∃ ms t', Run step' t ms t' ∧ (M ls ms ∧ R s' t') ∧
      Throughout step step' (fun pre pre' u v => M pre pre' ∧ R u v) s t ls ms := by
  have general := run.history
    (fun ls s' => Run step s ls s' ∧ ∃ ms t', Run step' t ms t' ∧ (M ls ms ∧ R s' t') ∧
      Throughout step step' (fun pre pre' u v => M pre pre' ∧ R u v) s t ls ms) ?_ ?_
  · exact general.2
  · refine ⟨.nil s, [], t, .nil t, ⟨nothing, start⟩, ?_⟩
    intro pre post split
    obtain ⟨rfl, rfl⟩ := List.append_eq_nil_iff.mp split.symm
    exact ⟨s, [], [], t, .nil s, rfl, .nil t, nothing, start⟩
  · rintro done u l v ⟨reach, ms, t', run', ⟨same, related⟩, points⟩ step
    obtain ⟨ms', t'', more, same', related'⟩ := matched related step
    have left := reach.append (.single step)
    have right := run'.append more
    refine ⟨left, ms ++ ms', t'', right, ⟨join same same', related'⟩, ?_⟩
    intro pre post split
    -- The new point is the end of both runs; the others are points of the runs before.
    rcases List.eq_nil_or_concat post with rfl | ⟨post, last, rfl⟩
    · rw [List.append_nil] at split
      subst split
      exact ⟨v, ms ++ ms', [], t'', left, by simp, right, join same same', related'⟩
    · rw [List.concat_eq_append, ← List.append_assoc] at split
      obtain ⟨u', pre', post', v', before, rfl, before', both⟩ :=
        points pre post (List.append_inj' split rfl).1
      exact ⟨u', pre', post' ++ ms', v', before, by simp, before', both⟩

/-- Where every state short of the goal has a step of its own that lowers a measure,
    a run of such steps reaches the goal. -/
theorem exists_run_of_measure (μ : σ → Nat) {I : List ℓ → σ → Prop} {goal : σ → Prop}
    {own : ℓ → Prop}
    (next : ∀ ls s, I ls s → ¬ goal s →
      ∃ l t, own l ∧ step s l t ∧ I (ls ++ [l]) t ∧ μ t < μ s)
    {ls : List ℓ} {s : σ} (init : I ls s) :
    ∃ ms t, Run step s ms t ∧ (∀ m ∈ ms, own m) ∧ goal t := by
  induction hn : μ s using Nat.strongRecOn generalizing ls s with
  | _ n ih =>
    by_cases done : goal s
    · exact ⟨[], s, .nil s, by simp, done⟩
    · obtain ⟨l, t, hl, hs, ht, lower⟩ := next ls s init done
      obtain ⟨ms, u, run, owned, reached⟩ := ih (μ t) (hn ▸ lower) ht rfl
      exact ⟨l :: ms, u, .cons hs run, List.forall_mem_cons.mpr ⟨hl, owned⟩, reached⟩

/-! ## Machines given by a partial step function -/

/-- The transition relation of a partial step function. -/
def Fires (f : σ → ℓ → Option σ) (s : σ) (l : ℓ) (t : σ) : Prop := f s l = some t

/-- Runs a partial step function along a list of labels. -/
def exec (f : σ → ℓ → Option σ) : σ → List ℓ → Option σ
  | s, [] => some s
  | s, l :: ls => (f s l).bind fun t => exec f t ls

theorem run_of_exec {f : σ → ℓ → Option σ} {s t : σ} {ls : List ℓ} (h : exec f s ls = some t) :
    Run (Fires f) s ls t := by
  induction ls generalizing s with
  | nil => cases h; exact .nil _
  | cons l ls ih =>
    obtain ⟨u, hu, hrest⟩ := Option.bind_eq_some_iff.mp h
    exact .cons hu (ih hrest)

end Lts
