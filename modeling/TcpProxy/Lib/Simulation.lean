import TcpProxy.Lib.Interleaving

/-! # Programs that differ in what does not matter

Two runs of one program may get different answers and still do the same, when the program
treats the answers alike.  `Similar` compares programs up to a tolerance: which answers of
one side may stand for which of the other, and which operations the left side may make in
addition.  Pools of similar programs over related stores follow each other's runs
(`follows`, `leads`), step by step. -/

namespace Effects

open Lts

variable {I J : Interface} {α β : Type}

/-- What a comparison of two programs overlooks. -/
structure Tolerance (I : Interface) where
  /-- The answers that the left side has to deal with. -/
  expected : I.Event → Prop
  /-- Answers on the left and on the right that stand for each other. -/
  twin : (op : I.Op) → I.Ans op → I.Ans op → Prop
  /-- Operations that only the left side may make. -/
  silent : I.Op → Prop

namespace Program

/-- The program is not over. -/
def Asks : Program I α → Prop
  | .ask _ _ => True
  | .ret _ => False

/-- The programs make the same operations, but for silent ones on the left, and return
    related values, as long as the answers are expected and twins. -/
inductive Similar (tol : Tolerance I) (post : α → β → Prop) : Program I α → Program I β → Prop
  | ret {a : α} {b : β} : post a b → Similar tol post (.ret a) (.ret b)
  | ask {op : I.Op} {next : I.Ans op → Program I α} {next' : I.Ans op → Program I β} :
      (∀ a b, tol.expected ⟨op, a⟩ → tol.twin op a b → Similar tol post (next a) (next' b)) →
      Similar tol post (.ask op next) (.ask op next')
  | skip {op : I.Op} {next : I.Ans op → Program I α} {q : Program I β} : tol.silent op → q.Asks →
      (∀ a, tol.expected ⟨op, a⟩ → Similar tol post (next a) q) → Similar tol post (.ask op next) q

variable {tol : Tolerance I} {post : α → β → Prop}

theorem Asks.bind {γ : Type} {p : Program I α} (asks : p.Asks) (f : α → Program I γ) :
    (p >>= f).Asks := by
  cases p with
  | ret a => cases asks
  | ask op next => trivial

theorem Similar.mono {post' : α → β → Prop} {p : Program I α} {q : Program I β}
    (h : Similar tol post p q) (weaker : ∀ a b, post a b → post' a b) : Similar tol post' p q := by
  induction h with
  | ret related => exact .ret (weaker _ _ related)
  | ask _ ih => exact .ask fun a b he ht => ih a b he ht
  | skip silent asks _ ih => exact .skip silent asks fun a he => ih a he

/-- A program is similar to itself when it asks nothing whose answers may differ. -/
theorem similar_self {p : Program I α}
    (uses : Uses (fun op => ∀ a b, tol.twin op a b → a = b) p) : Similar tol Eq p p := by
  induction p with
  | ret a => exact .ret rfl
  | ask op next ih =>
    apply Similar.ask
    intro a b _ twins
    rw [← uses.1 a b twins]
    exact ih a (uses.2 a)

theorem Similar.bind {γ δ : Type} {post' : γ → δ → Prop} {p : Program I α} {q : Program I β}
    {f : α → Program I γ} {g : β → Program I δ} (h : Similar tol post p q)
    (later : ∀ a b, post a b → Similar tol post' (f a) (g b)) :
    Similar tol post' (p >>= f) (q >>= g) := by
  induction h with
  | ret related => exact later _ _ related
  | ask _ ih => exact .ask fun a b he ht => ih a b he ht
  | skip silent asks _ ih => exact .skip silent (asks.bind g) fun a he => ih a he

/-- Similarity survives carrying out the operations, when every operation is carried out
    similarly on both sides and the silent ones can be left out on the right. -/
theorem Similar.interp {tol' : Tolerance J} {h : (op : I.Op) → Program J (I.Ans op)}
    {p : Program I α} {q : Program I β} (similar : Similar tol post p q)
    (asks : ∀ op, (h op).Asks)
    (carries : ∀ op, Similar tol' (fun a b => tol.expected ⟨op, a⟩ ∧ tol.twin op a b) (h op) (h op))
    (skips : ∀ op, tol.silent op → ∀ {next : I.Ans op → Program J α} {r : Program J β}, r.Asks →
      (∀ a, tol.expected ⟨op, a⟩ → Similar tol' post (next a) r) →
      Similar tol' post (h op >>= next) r) :
    Similar tol' post (interp h p) (interp h q) := by
  induction similar with
  | ret related => exact .ret related
  | ask _ ih => exact (carries _).bind fun a b both => ih a b both.1 both.2
  | @skip op next q silent later _ ih =>
    apply skips op silent _ ih
    cases q with
    | ret b => cases later
    | ask op' next' => exact (asks op').bind _

end Program

namespace Pool

variable {σ ι κ : Type}

/-- The label lists agree up to twin answers and silent operations on the left. -/
inductive Matched (tol : Tolerance I) : List (Label ι κ I) → List (Label ι κ I) → Prop
  | nil : Matched tol [] []
  | spawn {i : ι} {call : κ} {ls ms : List (Label ι κ I)} : Matched tol ls ms →
      Matched tol (.spawn i call :: ls) (.spawn i call :: ms)
  | act {i : ι} {op : I.Op} {a b : I.Ans op} {ls ms : List (Label ι κ I)} : tol.twin op a b →
      Matched tol ls ms → Matched tol (.act i ⟨op, a⟩ :: ls) (.act i ⟨op, b⟩ :: ms)
  | skip {i : ι} {op : I.Op} {a : I.Ans op} {ls ms : List (Label ι κ I)} : tol.silent op →
      Matched tol ls ms → Matched tol (.act i ⟨op, a⟩ :: ls) ms

theorem Matched.append {tol : Tolerance I} {ls ms ls' ms' : List (Label ι κ I)} (h : Matched tol ls ms)
    (h' : Matched tol ls' ms') : Matched tol (ls ++ ls') (ms ++ ms') := by
  induction h with
  | nil => exact h'
  | spawn _ ih => exact .spawn ih
  | act twins _ ih => exact .act twins ih
  | skip silent _ ih => exact .skip silent ih

/-- Labels that neither side may leave out nor answer differently are the same on both. -/
theorem Matched.filter {tol : Tolerance I} {ls ms : List (Label ι κ I)} (h : Matched tol ls ms)
    (shown : Label ι κ I → Bool)
    (loud : ∀ i e, shown (.act i e) = true → ¬ tol.silent e.op)
    (same : ∀ i op a b, tol.twin op a b → a ≠ b →
      shown (.act i ⟨op, a⟩) = false ∧ shown (.act i ⟨op, b⟩) = false) :
    ls.filter shown = ms.filter shown := by
  induction h with
  | nil => rfl
  | spawn _ ih => simp only [List.filter_cons, ih]
  | @act i op a b ls ms twins _ ih =>
    by_cases equal : a = b
    · subst equal
      simp only [List.filter_cons, ih]
    · obtain ⟨left, right⟩ := same i op a b twins equal
      simp [left, right, ih]
  | @skip i op a ls ms silent _ ih =>
    have hidden : shown (.act i ⟨op, a⟩) = false := by
      by_contra visible
      exact loud i ⟨op, a⟩ (by simpa using visible) silent
    simp [hidden, ih]

variable {tol : Tolerance I} {answers : σ → I.Event → σ → Prop}
  {body : κ → Program I α} {rel : σ → σ → Prop} {c c' d d' : Pool σ ι I α}
  {ls ms : List (Label ι κ I)}

/-- Thread by thread, what is left to run is similar, and the stores are related. -/
structure Alongside (tol : Tolerance I) (rel : σ → σ → Prop) (c d : Pool σ ι I α) : Prop where
  store : rel c.store d.store
  threads : ∀ i, Option.Rel (Program.Similar tol Eq) (c.threads i) (d.threads i)

theorem Alongside.similar {i : ι} {p q : Program I α} (h : Alongside tol rel c d)
    (left : c.threads i = some p) (right : d.threads i = some q) : Program.Similar tol Eq p q := by
  have related := h.threads i
  rw [left, right] at related
  cases related with
  | some similar => exact similar

theorem Alongside.free_iff {i : ι} (h : Alongside tol rel c d) :
    c.threads i = none ↔ d.threads i = none := by
  have related := h.threads i
  generalize c.threads i = left, d.threads i = right at related ⊢
  cases related with
  | none => exact Iff.rfl
  | some _ => simp

/-- A thread of one side runs on the other, too. -/
theorem Alongside.running {i : ι} {p : Program I α} (h : Alongside tol rel c d)
    (left : c.threads i = some p) : ∃ q, d.threads i = some q := by
  have related := h.threads i
  rw [left] at related
  cases hq : d.threads i with
  | some q => exact ⟨q, rfl⟩
  | none => rw [hq] at related; cases related

theorem Alongside.running' {i : ι} {q : Program I α} (h : Alongside tol rel c d)
    (right : d.threads i = some q) : ∃ p, c.threads i = some p := by
  have related := h.threads i
  rw [right] at related
  cases hp : c.threads i with
  | some p => exact ⟨p, rfl⟩
  | none => rw [hp] at related; cases related

variable [DecidableEq ι]

theorem Alongside.update {s t : σ} {i : ι} {p q : Program I α} (h : Alongside tol rel c d)
    (store : rel s t) (similar : Program.Similar tol Eq p q) :
    Alongside tol rel ⟨s, Function.update c.threads i (some p)⟩
      ⟨t, Function.update d.threads i (some q)⟩ := by
  refine ⟨store, fun j => ?_⟩
  by_cases same : j = i
  · subst same
    simpa using Option.Rel.some similar
  · simpa [same] using h.threads j

/-- The right side follows a step of the left one, when its store has a twin answer to
    whatever the left one answers. -/
theorem follows
    (both : ∀ {s t s' op a}, rel s t → answers s ⟨op, a⟩ s' → tol.expected ⟨op, a⟩ ∧
      ∃ b t', tol.twin op a b ∧ answers t ⟨op, b⟩ t' ∧ rel s' t')
    (left : ∀ {s t s' op a}, rel s t → tol.silent op → answers s ⟨op, a⟩ s' → rel s' t)
    (bodies : ∀ call, Program.Similar tol Eq (body call) (body call)) {l : Label ι κ I}
    (h : Alongside tol rel c d) (step : Step answers body c l c') :
    ∃ ms d', Run (Step answers body) d ms d' ∧ Matched tol [l] ms ∧ Alongside tol rel c' d' := by
  cases step with
  | @spawn i call free =>
    have free' : d.threads i = none := h.free_iff.mp free
    exact ⟨_, _, .single (.spawn free'), .spawn .nil, h.update h.store (bodies call)⟩
  | @act i op next a s running answered =>
    obtain ⟨q, running'⟩ := h.running running
    cases h.similar running running' with
    | ask similar =>
      obtain ⟨expected, b, t', twins, answered', related⟩ := both h.store answered
      exact ⟨_, _, .single (.act running' answered'), .act twins .nil,
        h.update related (similar a b expected twins)⟩
    | skip silent _ similar =>
      -- The right side stays where it is.
      have same : Function.update d.threads i (some q) = d.threads := by
        rw [← running', Function.update_eq_self]
      have still := h.update (i := i) (left h.store silent answered) (similar a (both h.store answered).1)
      rw [same] at still
      exact ⟨[], d, .nil d, .skip silent .nil, still⟩

/-- Before an operation that the right side makes, the left one makes its silent ones. -/
theorem catch_up (body : κ → Program I α)
    (right : ∀ {s t op}, rel s t → tol.silent op →
      ∃ a s', tol.expected ⟨op, a⟩ ∧ answers s ⟨op, a⟩ s' ∧ rel s' t)
    {i : ι} {op : I.Op} {p q : Program I α} {next' : I.Ans op → Program I α}
    (similar : Program.Similar tol Eq p q) (asks : q = .ask op next') {s t : σ}
    {threads : ι → Option (Program I α)} (running : threads i = some p) (store : rel s t) :
    ∃ (ls : List (Label ι κ I)) (s' : σ) (next : I.Ans op → Program I α),
      Run (Step answers body) ⟨s, threads⟩ ls ⟨s', Function.update threads i (some (.ask op next))⟩ ∧
      rel s' t ∧ (∀ {ns ms}, Matched tol ns ms → Matched tol (ls ++ ns) ms) ∧
      ∀ a b, tol.expected ⟨op, a⟩ → tol.twin op a b → Program.Similar tol Eq (next a) (next' b) := by
  induction similar generalizing s threads with
  | ret => cases asks
  | @ask op₁ next next₁ similar _ =>
    cases asks
    refine ⟨[], s, next, ?_, store, id, similar⟩
    rw [← running, Function.update_eq_self]
    exact .nil _
  | @skip op₁ next q silent _ _ ih =>
    -- The store gives an answer to the silent operation, and the thread goes on from there.
    obtain ⟨a, s₁, expected, answered, store₁⟩ := right store silent
    obtain ⟨ls, s', last, run, store', matched, similar⟩ :=
      ih a expected asks (show Function.update threads i (some (next a)) i = some (next a) by simp) store₁
    rw [Function.update_idem] at run
    exact ⟨_, s', last, .cons (.act running answered) run, store', fun h => .skip silent (matched h),
      similar⟩

/-- The left side follows a step of the right one, after its silent operations. -/
theorem leads
    (both : ∀ {s t t' op b}, rel s t → answers t ⟨op, b⟩ t' →
      ∃ a s', tol.expected ⟨op, a⟩ ∧ tol.twin op a b ∧ answers s ⟨op, a⟩ s' ∧ rel s' t')
    (right : ∀ {s t op}, rel s t → tol.silent op →
      ∃ a s', tol.expected ⟨op, a⟩ ∧ answers s ⟨op, a⟩ s' ∧ rel s' t)
    (bodies : ∀ call, Program.Similar tol Eq (body call) (body call)) {m : Label ι κ I}
    (h : Alongside tol rel c d) (step : Step answers body d m d') :
    ∃ ls c', Run (Step answers body) c ls c' ∧ Matched tol ls [m] ∧ Alongside tol rel c' d' := by
  cases step with
  | @spawn i call free =>
    have free' : c.threads i = none := h.free_iff.mpr free
    exact ⟨_, _, .single (.spawn free'), .spawn .nil, h.update h.store (bodies call)⟩
  | @act i op next' b t' running answered =>
    obtain ⟨p, running'⟩ := h.running' running
    obtain ⟨ls, s', next, caught, store, prefixed, similar⟩ :=
      catch_up body right (h.similar running' running) rfl running' h.store
    obtain ⟨a, s'', expected, twins, answered', store'⟩ := both store answered
    have step' : Step answers body ⟨s', Function.update c.threads i (some (.ask op next))⟩
        (.act i ⟨op, a⟩) ⟨s'', Function.update c.threads i (some (next a))⟩ := by
      have acted : Step answers body ⟨s', Function.update c.threads i (some (.ask op next))⟩
          (.act i ⟨op, a⟩) _ := .act (Function.update_self ..) answered'
      simpa using acted
    exact ⟨_, _, caught.append (.single step'), prefixed (.act twins .nil),
      h.update store' (similar a b expected twins)⟩

end Pool

end Effects
