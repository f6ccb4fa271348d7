import TcpProxy.Lib.Interleaving
import Mathlib.Data.Option.Basic

/-! # Hiding the operations of one interface

A program over two interfaces side by side, watched at the first one only.  `Shows R q p`
says that what is seen of `q` is the program `p`, with results related by `R`; runs of a
pool of such programs are then seen as runs of a pool of the programs they show, so what
is known of the smaller pool holds inside the larger one. -/

namespace Effects

open Lts Program

variable {I J : Interface} {α β γ : Type}

/-- What the first interface sees of an event. -/
def Interface.Event.left? : (I.sum J).Event → Option I.Event
  | ⟨.inl op, a⟩ => some ⟨op, a⟩
  | ⟨.inr _, _⟩ => none

namespace Program

/-- A program over the first of two interfaces, as a program over both. -/
def inLeft : Program I α → Program (I.sum J) α :=
  interp fun op => perform (I := I.sum J) (.inl op)

/-- With the operations of the second interface hidden, the first program is the second. -/
inductive Shows (R : β → γ → Prop) : Program (I.sum J) β → Program I γ → Prop
  | ret {b : β} {v : γ} : R b v → Shows R (.ret b) (.ret v)
  | left {op : I.Op} {next : I.Ans op → Program (I.sum J) β} {next' : I.Ans op → Program I γ} :
      (∀ a, Shows R (next a) (next' a)) → Shows R (.ask (.inl op) next) (.ask op next')
  | right {op : J.Op} {next : J.Ans op → Program (I.sum J) β} {p : Program I γ} :
      (∀ a, Shows R (next a) p) → Shows R (.ask (.inr op) next) p

variable {R : β → γ → Prop}

theorem shows_bind {p : Program I α} {f : α → Program (I.sum J) β} {g : α → Program I γ}
    (h : ∀ a, Shows R (f a) (g a)) : Shows R (inLeft p >>= f) (p >>= g) := by
  induction p with
  | ret a => exact h a
  | ask op next ih => exact .left ih

/-- An execution of a program over the first interface, seen there. -/
theorem exec_inLeft {p : Program I α} {tr : List (I.sum J).Event} {v : α} (run : Exec (inLeft p) tr v) :
    Exec p (tr.filterMap Interface.Event.left?) v := by
  induction p generalizing tr with
  | ret a =>
    obtain ⟨rfl, rfl⟩ := exec_ret.mp run
    exact .nil _
  | ask op next ih =>
    obtain ⟨a, rest, rfl, goes_on⟩ := exec_ask.mp run
    exact .cons (ih a goes_on)

/-- Part of an execution is seen as part of an execution. -/
theorem Shows.steps {q q' : Program (I.sum J) β} {p : Program I γ} {tr : List (I.sum J).Event}
    (shows_p : Shows R q p) (run : Steps q tr q') :
    ∃ p', Steps p (tr.filterMap Interface.Event.left?) p' ∧ Shows R q' p' := by
  induction shows_p generalizing tr with
  | ret related =>
    cases run
    exact ⟨_, .nil _, .ret related⟩
  | left later ih =>
    rcases steps_ask run with ⟨rfl, rfl⟩ | ⟨a, rest, rfl, goes_on⟩
    · exact ⟨_, .nil _, .left later⟩
    · obtain ⟨p', steps, shown⟩ := ih a goes_on
      exact ⟨p', .cons steps, shown⟩
  | right later ih =>
    rcases steps_ask run with ⟨rfl, rfl⟩ | ⟨a, rest, rfl, goes_on⟩
    · exact ⟨_, .nil _, .right later⟩
    · rw [List.filterMap_cons_none rfl]
      exact ih a goes_on

/-- Before an operation of the first interface, the program it shows asks the same. -/
theorem Shows.asks {op : I.Op} {next : I.Ans op → Program (I.sum J) β} {p : Program I γ}
    (shows_p : Shows R (.ask (.inl op) next) p) : ∃ next', p = .ask op next' ∧ ∀ a, Shows R (next a) (next' a) := by
  cases shows_p with
  | left later => exact ⟨_, rfl, later⟩

theorem Shows.returned {b : β} {p : Program I γ} (shows_p : Shows R (.ret b : Program (I.sum J) β) p) :
    ∃ v, p = .ret v ∧ R b v := by
  cases shows_p with
  | ret related => exact ⟨_, rfl, related⟩

end Program

namespace Pool

variable {σ τ ι κ κ' : Type}

/-- What the first interface sees of a label. -/
def Label.left? (call : κ → κ') : Label ι κ (I.sum J) → Option (Label ι κ' I)
  | .spawn i c => some (.spawn i (call c))
  | .act i e => e.left?.map (.act i)

theorem traceOf_left [DecidableEq ι] (call : κ → κ') (i : ι) (ls : List (Label ι κ (I.sum J))) :
    traceOf i (ls.filterMap (Label.left? call)) = (traceOf i ls).filterMap Interface.Event.left? := by
  induction ls with
  | nil => rfl
  | cons l ls ih =>
    rcases l with ⟨j, c⟩ | ⟨j, op | op, a⟩
    · exact ih
    · by_cases same : j = i
      · simpa [Label.left?, Interface.Event.left?, traceOf, same] using ih
      · simpa [Label.left?, Interface.Event.left?, traceOf, same] using ih
    · rw [List.filterMap_cons_none rfl, ih, traceOf]
      by_cases same : j = i
      · rw [if_pos same, List.filterMap_cons_none rfl]
      · rw [if_neg same]

theorem mem_left (call : κ → κ') {i : ι} {e : I.Event} {ls : List (Label ι κ (I.sum J))} :
    .act i e ∈ ls.filterMap (Label.left? call) ↔ .act i ⟨.inl e.op, e.ans⟩ ∈ ls := by
  rw [List.mem_filterMap]
  constructor
  · rintro ⟨l, present, seen⟩
    rcases l with ⟨j, c⟩ | ⟨j, op | op, a⟩
    · cases seen
    · cases seen
      exact present
    · cases seen
  · intro present
    exact ⟨_, present, rfl⟩

/-- The threads of `c` show those of `d`, over the part of the store that is seen. -/
structure Watched (R : β → γ → Prop) (view : σ → τ) (c : Pool σ ι (I.sum J) β) (d : Pool τ ι I γ) :
    Prop where
  store : view c.store = d.store
  threads : ∀ i, Option.Rel (Shows R) (c.threads i) (d.threads i)

variable {R : β → γ → Prop} {view : σ → τ} {c c' : Pool σ ι (I.sum J) β} {d : Pool τ ι I γ}

theorem Watched.free (watched : Watched R view c d) {i : ι} (free : c.threads i = none) :
    d.threads i = none := by
  have related := watched.threads i
  rw [free] at related
  generalize d.threads i = seen at related ⊢
  cases related
  rfl

theorem Watched.running (watched : Watched R view c d) {i : ι} {q : Program (I.sum J) β}
    (running : c.threads i = some q) : ∃ p, d.threads i = some p ∧ Shows R q p := by
  have related := watched.threads i
  rw [running] at related
  generalize d.threads i = seen at related
  cases related with
  | some shown => exact ⟨_, rfl, shown⟩

variable [DecidableEq ι]

theorem Watched.update (watched : Watched R view c d) {s : σ} {t : τ} (store : view s = t) (i : ι)
    {q : Program (I.sum J) β} {p : Program I γ} (shown : Shows R q p) :
    Watched R view ⟨s, Function.update c.threads i (some q)⟩ ⟨t, Function.update d.threads i (some p)⟩ := by
  refine ⟨store, fun j => ?_⟩
  by_cases same : j = i
  · subst same
    simpa using Option.Rel.some shown
  · simpa [same] using watched.threads j

/-- The run of a pool of programs over two interfaces, seen from the first. -/
theorem watched_run {answers : σ → (I.sum J).Event → σ → Prop} {answers' : τ → I.Event → τ → Prop}
    {body : κ → Program (I.sum J) β} {body' : κ' → Program I γ} {call : κ → κ'}
    (seen : ∀ {s t op a}, answers s ⟨.inl op, a⟩ t → answers' (view s) ⟨op, a⟩ (view t))
    (hidden : ∀ {s t op a}, answers s ⟨.inr op, a⟩ t → view t = view s)
    (shown : ∀ k, Shows R (body k) (body' (call k))) {ls : List (Label ι κ (I.sum J))}
    (run : Run (Step answers body) c ls c') (watched : Watched R view c d) :
    ∃ d', Run (Step answers' body') d (ls.filterMap (Label.left? call)) d' ∧ Watched R view c' d' := by
  induction run generalizing d with
  | nil => exact ⟨d, .nil d, watched⟩
  | cons step _ ih =>
    cases step with
    | @spawn i k free =>
      obtain ⟨d', run', watched'⟩ := ih (watched.update watched.store i (shown k))
      exact ⟨d', .cons (.spawn (watched.free free)) run', watched'⟩
    | @act i op next a s running answered =>
      obtain ⟨p, running', shown'⟩ := watched.running running
      cases op with
      | inl op =>
        obtain ⟨next', rfl, later⟩ := shown'.asks
        have answered' := seen answered
        rw [watched.store] at answered'
        obtain ⟨d', run', watched'⟩ := ih (watched.update rfl i (later a))
        exact ⟨d', .cons (.act running' answered') run', watched'⟩
      | inr op =>
        cases shown' with
        | right later =>
          -- The thread it shows stands still.
          have still := watched.update ((hidden answered).trans watched.store) i (later a)
          rw [← running', Function.update_eq_self] at still
          exact ih still

end Pool

end Effects
