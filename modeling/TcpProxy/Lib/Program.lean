import TcpProxy.Lib.Run

/-! # Programs over an interface of operations

A `Program I α` asks operations of the interface `I` one at a time and continues
with whatever the environment answers.  The tree records nothing about *how* the
operations are carried out, so one program text serves three purposes: its traces
under arbitrary answers (`Steps`, `Exec`), its behaviour over a store (`World`
runs), and its refinement to operations of a lower interface (`interp`).
-/

namespace Effects

open Lts

/-- Operations and the type of their answers. -/
structure Interface where
  Op : Type
  Ans : Op → Type

/-- One answered operation. -/
structure Interface.Event (I : Interface) where
  op : I.Op
  ans : I.Ans op

/-- The operations of two interfaces side by side. -/
abbrev Interface.sum (I J : Interface) : Interface where
  Op := I.Op ⊕ J.Op
  Ans := Sum.elim I.Ans J.Ans

/-- A computation that asks operations of `I` and returns an `α`. -/
inductive Program (I : Interface) (α : Type) where
  | ret (value : α)
  | ask (op : I.Op) (next : I.Ans op → Program I α)

namespace Program

variable {I J : Interface} {α β γ : Type}

def bind (p : Program I α) (f : α → Program I β) : Program I β :=
  match p with
  | .ret a => f a
  | .ask op next => .ask op fun a => (next a).bind f

instance : Monad (Program I) where
  pure := .ret
  bind := bind

/-- The program that asks one operation and returns its answer. -/
def perform (op : I.Op) : Program I (I.Ans op) := .ask op .ret

@[simp] theorem pure_eq (a : α) : (pure a : Program I α) = .ret a := rfl

@[simp] theorem ret_bind (a : α) (f : α → Program I β) : (Program.ret a >>= f) = f a := rfl

@[simp] theorem ask_bind (op : I.Op) (next : I.Ans op → Program I α) (f : α → Program I β) :
    (Program.ask op next >>= f) = .ask op fun a => next a >>= f := rfl

@[simp] theorem perform_bind (op : I.Op) (f : I.Ans op → Program I β) :
    (perform op >>= f) = .ask op f := rfl

theorem bind_bind (p : Program I α) (f : α → Program I β) (g : β → Program I γ) :
    (p >>= f) >>= g = p >>= fun a => f a >>= g := by
  induction p with
  | ret a => rfl
  | ask op next ih =>
    simp only [ask_bind]
    congr 1
    funext a
    exact ih a

/-! ## Traces -/

/-- `Steps p tr q`: answered as `tr` says, `p` becomes `q`. -/
inductive Steps : Program I α → List I.Event → Program I α → Prop
  | nil (p : Program I α) : Steps p [] p
  | cons {op : I.Op} {next : I.Ans op → Program I α} {a : I.Ans op} {tr : List I.Event}
      {q : Program I α} : Steps (next a) tr q → Steps (.ask op next) (⟨op, a⟩ :: tr) q

/-- A complete execution: answered as `tr` says, `p` returns `v`. -/
def Exec (p : Program I α) (tr : List I.Event) (v : α) : Prop := Steps p tr (.ret v)

theorem exec_ret {v w : α} {tr : List I.Event} : Exec (.ret v) tr w ↔ tr = [] ∧ v = w := by
  constructor
  · intro h; cases h; exact ⟨rfl, rfl⟩
  · rintro ⟨rfl, rfl⟩; exact .nil _

/-- An execution of a program that starts with `op` starts with an answer to it. -/
theorem exec_ask {op : I.Op} {next : I.Ans op → Program I α} {tr : List I.Event} {v : α} :
    Exec (.ask op next) tr v ↔ ∃ a rest, tr = ⟨op, a⟩ :: rest ∧ Exec (next a) rest v := by
  constructor
  · intro h; cases h with
    | cons h => exact ⟨_, _, rfl, h⟩
  · rintro ⟨a, rest, rfl, h⟩; exact .cons h

theorem Steps.nil_eq {p q : Program I α} (run : Steps p [] q) : p = q := by
  cases run; rfl

theorem steps_ask {op : I.Op} {next : I.Ans op → Program I α} {tr : List I.Event}
    {q : Program I α} (run : Steps (.ask op next) tr q) :
    (tr = [] ∧ q = .ask op next) ∨ ∃ a rest, tr = ⟨op, a⟩ :: rest ∧ Steps (next a) rest q := by
  cases run with
  | nil => exact .inl ⟨rfl, rfl⟩
  | cons run => exact .inr ⟨_, _, rfl, run⟩

theorem asked_first {op : I.Op} {next : I.Ans op → Program I α} {tr : List I.Event}
    {q : Program I α} (run : Steps (.ask op next) tr q) : ∀ e ∈ tr.head?, e.op = op := by
  intro e first
  cases run with
  | nil => cases first
  | cons _ =>
    cases first
    rfl

theorem Steps.append {p q r : Program I α} {tr₁ tr₂ : List I.Event} (h₁ : Steps p tr₁ q)
    (h₂ : Steps q tr₂ r) : Steps p (tr₁ ++ tr₂) r := by
  induction h₁ with
  | nil => exact h₂
  | cons _ ih => exact .cons (ih h₂)

theorem Steps.bind {p q : Program I α} {tr : List I.Event} (h : Steps p tr q)
    (f : α → Program I β) : Steps (p >>= f) tr (q >>= f) := by
  induction h with
  | nil => exact .nil _
  | cons _ ih => exact .cons ih

/-- An execution of a sequence is an execution of the first part followed by one of
    the second. -/
theorem exec_bind {p : Program I α} {f : α → Program I β} {tr : List I.Event} {w : β} :
    Exec (p >>= f) tr w ↔
      ∃ v tr₁ tr₂, tr = tr₁ ++ tr₂ ∧ Exec p tr₁ v ∧ Exec (f v) tr₂ w := by
  constructor
  · intro run
    induction p generalizing tr with
    | ret a => exact ⟨a, [], tr, rfl, .nil _, run⟩
    | ask op next ih =>
      obtain ⟨a, rest, rfl, tail⟩ := exec_ask.mp run
      obtain ⟨v, tr₁, tr₂, rfl, h₁, h₂⟩ := ih a tail
      exact ⟨v, _, tr₂, rfl, .cons h₁, h₂⟩
  · rintro ⟨v, tr₁, tr₂, rfl, h₁, h₂⟩
    exact (h₁.bind f).append h₂

/-- A single operation leaves a single event. -/
theorem exec_perform {op : I.Op} {tr : List I.Event} {v : I.Ans op} :
    Exec (perform op) tr v ↔ tr = [⟨op, v⟩] := by
  constructor
  · intro run
    obtain ⟨a, rest, rfl, done⟩ := exec_ask.mp run
    obtain ⟨rfl, rfl⟩ := exec_ret.mp done
    rfl
  · rintro rfl
    exact .cons (.nil _)

/-- The answers determine how far an execution goes and what it returns. -/
theorem exec_unique {p : Program I α} {tr tr' rest rest' : List I.Event} {v v' : α}
    (h : Exec p tr v) (h' : Exec p tr' v') (same : tr ++ rest = tr' ++ rest') : tr = tr' ∧ v = v' := by
  induction p generalizing tr tr' with
  | ret a =>
    obtain ⟨rfl, rfl⟩ := exec_ret.mp h
    obtain ⟨rfl, rfl⟩ := exec_ret.mp h'
    exact ⟨rfl, rfl⟩
  | ask op next ih =>
    obtain ⟨a, tail, rfl, cont⟩ := exec_ask.mp h
    obtain ⟨a', tail', rfl, cont'⟩ := exec_ask.mp h'
    simp only [List.cons_append, List.cons.injEq, Interface.Event.mk.injEq, heq_eq_eq, true_and] at same
    obtain ⟨rfl, later⟩ := same
    obtain ⟨rfl, rfl⟩ := ih a cont cont' later
    exact ⟨rfl, rfl⟩

/-- Part of an execution of a sequence ends inside the first part, before one of its
    operations, or after it. -/
theorem steps_bind {p : Program I α} {f : α → Program I β} {tr : List I.Event} {q : Program I β}
    (run : Steps (p >>= f) tr q) :
    (∃ op next, Steps p tr (.ask op next) ∧ q = .ask op next >>= f) ∨
      ∃ a tr₁ tr₂, tr = tr₁ ++ tr₂ ∧ Exec p tr₁ a ∧ Steps (f a) tr₂ q := by
  induction p generalizing tr with
  | ret a => exact .inr ⟨a, [], tr, rfl, .nil _, run⟩
  | ask op next ih =>
    cases run with
    | nil => exact .inl ⟨op, next, .nil _, rfl⟩
    | @cons _ _ a tr q run =>
      cases ih a run with
      | inl inside =>
        obtain ⟨op', next', steps, rfl⟩ := inside
        exact .inl ⟨op', next', .cons steps, rfl⟩
      | inr past =>
        obtain ⟨b, tr₁, tr₂, rfl, exec, steps⟩ := past
        exact .inr ⟨b, _, tr₂, rfl, .cons exec, steps⟩

/-! ## Refinement of operations -/

/-- Carries out every operation of `I` by a program over `J`. -/
def interp (h : (op : I.Op) → Program J (I.Ans op)) : Program I α → Program J α
  | .ret a => .ret a
  | .ask op next => h op >>= fun a => interp h (next a)

/-- The lower trace `tr` carries out the answered operations `T` one after the other. -/
inductive Unfolds (h : (op : I.Op) → Program J (I.Ans op)) : List I.Event → List J.Event → Prop
  | nil : Unfolds h [] []
  | cons {e : I.Event} {T : List I.Event} {sub tr : List J.Event} :
      Exec (h e.op) sub e.ans → Unfolds h T tr → Unfolds h (e :: T) (sub ++ tr)

theorem Unfolds.uncons {h : (op : I.Op) → Program J (I.Ans op)} {e : I.Event} {T : List I.Event}
    {tr : List J.Event} (un : Unfolds h (e :: T) tr) :
    ∃ sub rest, tr = sub ++ rest ∧ Exec (h e.op) sub e.ans ∧ Unfolds h T rest := by
  cases un with
  | cons run un => exact ⟨_, _, rfl, run, un⟩

/-- The lower trace of one operation is a contiguous part of the whole. -/
theorem Unfolds.infix {h : (op : I.Op) → Program J (I.Ans op)} {T : List I.Event}
    {tr : List J.Event} (un : Unfolds h T tr) {e : I.Event} (he : e ∈ T) :
    ∃ sub, Exec (h e.op) sub e.ans ∧ sub <:+: tr := by
  induction un with
  | nil => cases he
  | @cons head T sub tr run _ ih =>
    rcases List.mem_cons.mp he with rfl | he
    · exact ⟨sub, run, (List.prefix_append sub tr).isInfix⟩
    · obtain ⟨sub', run', hin⟩ := ih he
      exact ⟨sub', run', hin.trans (List.suffix_append sub tr).isInfix⟩

/-- Executions of the interpreted program are the executions of the program with
    every operation carried out by an execution of its implementation. -/
theorem exec_interp {h : (op : I.Op) → Program J (I.Ans op)} {p : Program I α}
    {tr : List J.Event} {v : α} :
    Exec (interp h p) tr v ↔ ∃ T, Exec p T v ∧ Unfolds h T tr := by
  constructor
  · intro run
    induction p generalizing tr with
    | ret a =>
      obtain ⟨rfl, rfl⟩ := exec_ret.mp run
      exact ⟨[], .nil _, .nil⟩
    | ask op next ih =>
      obtain ⟨a, sub, rest, rfl, hsub, hrest⟩ := exec_bind.mp run
      obtain ⟨T, hT, hun⟩ := ih a hrest
      exact ⟨⟨op, a⟩ :: T, .cons hT, .cons hsub hun⟩
  · rintro ⟨T, hT, hun⟩
    induction p generalizing T tr with
    | ret a =>
      obtain ⟨rfl, rfl⟩ := exec_ret.mp hT
      cases hun; exact .nil _
    | ask op next ih =>
      obtain ⟨a, rest, rfl, hrest⟩ := exec_ask.mp hT
      cases hun with
      | cons hsub hun => exact exec_bind.mpr ⟨a, _, _, rfl, hsub, ih a _ hrest hun⟩

theorem Unfolds.split {h : (op : I.Op) → Program J (I.Ans op)} {T U : List I.Event}
    {tr : List J.Event} (un : Unfolds h (T ++ U) tr) :
    ∃ front back, tr = front ++ back ∧ Unfolds h T front ∧ Unfolds h U back := by
  induction T generalizing tr with
  | nil => exact ⟨[], tr, rfl, .nil, un⟩
  | cons e T ih =>
    obtain ⟨sub, rest, rfl, run, un⟩ := un.uncons
    obtain ⟨front, back, rfl, hfront, hback⟩ := ih un
    exact ⟨sub ++ front, back, (List.append_assoc ..).symm, .cons run hfront, hback⟩

/-- An answered operation together with the lower trace that carried it out. -/
structure Chunk (I J : Interface) where
  event : I.Event
  trace : List J.Event

theorem Unfolds.chunks {h : (op : I.Op) → Program J (I.Ans op)} {T : List I.Event}
    {tr : List J.Event} (un : Unfolds h T tr) :
    ∃ cs : List (Chunk I J), cs.map (·.event) = T ∧ cs.flatMap (·.trace) = tr ∧
      ∀ c ∈ cs, Exec (h c.event.op) c.trace c.event.ans := by
  induction un with
  | nil => exact ⟨[], rfl, rfl, by simp⟩
  | @cons e T sub tr run _ ih =>
    obtain ⟨cs, rfl, rfl, carried⟩ := ih
    refine ⟨⟨e, sub⟩ :: cs, rfl, rfl, fun c hc => ?_⟩
    rcases List.mem_cons.mp hc with rfl | hc
    · exact run
    · exact carried c hc

theorem interp_bind (h : (op : I.Op) → Program J (I.Ans op)) (p : Program I α)
    (f : α → Program I β) : interp h (p >>= f) = interp h p >>= fun a => interp h (f a) := by
  induction p with
  | ret a => rfl
  | ask op next ih =>
    show (h op >>= fun a => interp h (next a >>= f)) = (h op >>= fun a => interp h (next a)) >>= _
    simp only [ih]
    exact (bind_bind _ _ _).symm

/-- Part of an execution of an interpreted program is some operations of the program, carried
    out, and then its end or part of one more operation. -/
theorem steps_interp {h : (op : I.Op) → Program J (I.Ans op)} {p : Program I α}
    {tr : List J.Event} {q : Program J α} (run : Steps (interp h p) tr q) :
    (∃ T v, Exec p T v ∧ Unfolds h T tr ∧ q = .ret v) ∨
      ∃ T op next front back op' next', tr = front ++ back ∧ Steps p T (.ask op next) ∧
        Unfolds h T front ∧ Steps (h op) back (.ask op' next') ∧
        q = .ask op' next' >>= fun a => interp h (next a) := by
  induction p generalizing tr with
  | ret v =>
    cases run
    exact .inl ⟨[], v, .nil _, .nil, rfl⟩
  | ask op next ih =>
    cases steps_bind (p := h op) run with
    | inl inside =>
      obtain ⟨op', next', steps, rfl⟩ := inside
      exact .inr ⟨[], op, next, [], tr, op', next', rfl, .nil _, .nil, steps, rfl⟩
    | inr past =>
      obtain ⟨a, sub, rest, rfl, done, later⟩ := past
      rcases ih a later with ⟨T, v, exec, un, rfl⟩ |
        ⟨T, op₂, next₂, front, back, op', next', rfl, steps, un, current, rfl⟩
      · exact .inl ⟨⟨op, a⟩ :: T, v, .cons exec, .cons done un, rfl⟩
      · exact .inr ⟨⟨op, a⟩ :: T, op₂, next₂, sub ++ front, back, op', next',
          (List.append_assoc ..).symm, .cons steps, .cons done un, current, rfl⟩

/-- A lower trace carries out only one execution of a program. -/
theorem unfolds_unique {h : (op : I.Op) → Program J (I.Ans op)} {p : Program I α}
    {T T' : List I.Event} {tr : List J.Event} {v v' : α} (run : Exec p T v) (un : Unfolds h T tr)
    (run' : Exec p T' v') (un' : Unfolds h T' tr) : T = T' ∧ v = v' := by
  induction p generalizing T T' tr with
  | ret a =>
    obtain ⟨rfl, rfl⟩ := exec_ret.mp run
    obtain ⟨rfl, rfl⟩ := exec_ret.mp run'
    exact ⟨rfl, rfl⟩
  | ask op next ih =>
    obtain ⟨a, tail, rfl, cont⟩ := exec_ask.mp run
    obtain ⟨a', tail', rfl, cont'⟩ := exec_ask.mp run'
    obtain ⟨sub, rest, rfl, hsub, un⟩ := un.uncons
    obtain ⟨sub', rest', split, hsub', un'⟩ := un'.uncons
    obtain ⟨rfl, rfl⟩ := exec_unique hsub hsub' split
    obtain rfl := List.append_cancel_left split
    obtain ⟨rfl, rfl⟩ := ih _ cont un cont' un'
    exact ⟨rfl, rfl⟩

/-- Two refinements in a row are one. -/
theorem interp_interp {K : Interface} (g : (op : J.Op) → Program K (J.Ans op))
    (h : (op : I.Op) → Program J (I.Ans op)) (p : Program I α) :
    interp g (interp h p) = interp (fun op => interp g (h op)) p := by
  induction p with
  | ret a => rfl
  | ask op next ih =>
    show interp g (h op >>= fun a => interp h (next a)) = _
    rw [interp_bind]
    simp only [ih]
    rfl

/-! ## Bounding the operations a program can ask -/

/-- Every operation the program can ever ask is allowed. -/
def Uses (allowed : I.Op → Prop) : Program I α → Prop
  | .ret _ => True
  | .ask op next => allowed op ∧ ∀ a, Uses allowed (next a)

theorem uses_any (p : Program I α) : Uses (fun _ => True) p := by
  induction p with
  | ret a => trivial
  | ask op next ih => exact ⟨trivial, ih⟩

theorem uses_mono {allowed allowed' : I.Op → Prop} (weaker : ∀ op, allowed op → allowed' op)
    {p : Program I α} (hp : Uses allowed p) : Uses allowed' p := by
  induction p with
  | ret a => trivial
  | ask op next ih => exact ⟨weaker op hp.1, fun a => ih a (hp.2 a)⟩

theorem uses_bind {allowed : I.Op → Prop} {p : Program I α} {f : α → Program I β}
    (hp : Uses allowed p) (hf : ∀ a, Uses allowed (f a)) : Uses allowed (p >>= f) := by
  induction p with
  | ret a => exact hf a
  | ask op next ih => exact ⟨hp.1, fun a => ih a (hp.2 a)⟩

theorem uses_of_bind {allowed : I.Op → Prop} {p : Program I α} {f : α → Program I β}
    (h : Uses allowed (p >>= f)) : Uses allowed p := by
  induction p with
  | ret a => trivial
  | ask op next ih => exact ⟨h.1, fun a => ih a (h.2 a)⟩

theorem uses_interp {allowed : I.Op → Prop} {allowed' : J.Op → Prop}
    {h : (op : I.Op) → Program J (I.Ans op)} {p : Program I α} (hp : Uses allowed p)
    (hop : ∀ op, allowed op → Uses allowed' (h op)) : Uses allowed' (interp h p) := by
  induction p with
  | ret a => trivial
  | ask op next ih => exact uses_bind (hop op hp.1) fun a => ih a (hp.2 a)

theorem uses_steps {allowed : I.Op → Prop} {p q : Program I α} {tr : List I.Event}
    (run : Steps p tr q) (hp : Uses allowed p) : Uses allowed q := by
  induction run with
  | nil => exact hp
  | cons _ ih => exact ih (hp.2 _)

theorem uses_trace {allowed : I.Op → Prop} {p q : Program I α} {tr : List I.Event}
    (run : Steps p tr q) (hp : Uses allowed p) : ∀ e ∈ tr, allowed e.op := by
  induction run with
  | nil => simp
  | cons _ ih =>
    intro e he
    cases List.mem_cons.mp he with
    | inl first => rw [first]; exact hp.1
    | inr later => exact ih (hp.2 _) e later

/-- While every answer is expected, the program asks only allowed operations and returns
    values that satisfy `post`. -/
def Safe (allowed : I.Op → Prop) (expected : I.Event → Prop) (post : α → Prop) :
    Program I α → Prop
  | .ret a => post a
  | .ask op next => allowed op ∧ ∀ a, expected ⟨op, a⟩ → Safe allowed expected post (next a)

variable {allowed : I.Op → Prop} {expected : I.Event → Prop}

theorem Uses.safe {p : Program I α} (hp : Uses allowed p) :
    Safe allowed expected (fun _ => True) p := by
  induction p with
  | ret a => trivial
  | ask op next ih => exact ⟨hp.1, fun a _ => ih a (hp.2 a)⟩

theorem safe_bind {post : α → Prop} {post' : β → Prop} {p : Program I α} {f : α → Program I β}
    (hp : Safe allowed expected post p) (hf : ∀ a, post a → Safe allowed expected post' (f a)) :
    Safe allowed expected post' (p >>= f) := by
  induction p with
  | ret a => exact hf a hp
  | ask op next ih => exact ⟨hp.1, fun a ha => ih a (hp.2 a ha)⟩

/-- Answered as expected, a safe program makes only allowed operations. -/
theorem safe_trace {post : α → Prop} {p q : Program I α} {tr : List I.Event} (run : Steps p tr q)
    (hp : Safe allowed expected post p) (answers : ∀ e ∈ tr, expected e) : ∀ e ∈ tr, allowed e.op := by
  induction run with
  | nil => simp
  | cons _ ih =>
    intro e he
    cases List.mem_cons.mp he with
    | inl first => rw [first]; exact hp.1
    | inr later =>
      exact ih (hp.2 _ (answers _ List.mem_cons_self))
        (fun e he => answers e (List.mem_cons_of_mem _ he)) e later

/-- Operations are carried out safely when their implementations are safe and return
    expected answers. -/
theorem safe_interp {allowed' : J.Op → Prop} {expected' : J.Event → Prop} {post : α → Prop}
    {h : (op : I.Op) → Program J (I.Ans op)} {p : Program I α} (hp : Safe allowed expected post p)
    (hop : ∀ op, allowed op → Safe allowed' expected' (fun a => expected ⟨op, a⟩) (h op)) :
    Safe allowed' expected' post (interp h p) := by
  induction p with
  | ret a => exact hp
  | ask op next ih => exact safe_bind (hop op hp.1) fun a ha => ih a (hp.2 a ha)

end Program

end Effects
