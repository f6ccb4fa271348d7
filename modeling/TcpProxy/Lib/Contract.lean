import TcpProxy.Lib.Hiding

/-! # Contracts over histories

`Contract expected pre post h p`: after the answered operations `h`, and while every answer
is one that `expected` allows, `p` asks only what `pre` allows after the history so far, and
what it returns satisfies `post` of the whole history.  The rules follow the ways programs
are put together: a contract of a part is used at its place in the whole, and one over the
operations of an interface is carried down to the programs that carry them out. -/

namespace Effects.Program

open Lts

variable {I J : Interface} {α β : Type}

def Contract (expected : I.Event → Prop) (pre : List I.Event → I.Op → Prop)
    (post : List I.Event → α → Prop) : List I.Event → Program I α → Prop
  | h, .ret a => post h a
  | h, .ask op next =>
    pre h op ∧ ∀ a, expected ⟨op, a⟩ → Contract expected pre post (h ++ [⟨op, a⟩]) (next a)

variable {expected : I.Event → Prop} {pre : List I.Event → I.Op → Prop}
  {post : List I.Event → α → Prop} {h : List I.Event} {p q : Program I α}

theorem Contract.mono (hp : Contract expected pre post h p) {pre' : List I.Event → I.Op → Prop}
    {post' : List I.Event → α → Prop} (asks : ∀ {h op}, pre h op → pre' h op)
    (returns : ∀ {h a}, post h a → post' h a) : Contract expected pre' post' h p := by
  induction p generalizing h with
  | ret a => exact returns hp
  | ask op next ih => exact ⟨asks hp.1, fun a ha => ih a (hp.2 a ha)⟩

theorem contract_perform {op : I.Op} {post : List I.Event → I.Ans op → Prop} (asks : pre h op)
    (returns : ∀ a, expected ⟨op, a⟩ → post (h ++ [⟨op, a⟩]) a) :
    Contract expected pre post h (perform op) :=
  ⟨asks, returns⟩

theorem contract_bind {f : α → Program I β} {post' : List I.Event → β → Prop}
    (hp : Contract expected pre post h p)
    (hf : ∀ {h a}, post h a → Contract expected pre post' h (f a)) :
    Contract expected pre post' h (p >>= f) := by
  induction p generalizing h with
  | ret a => exact hf hp
  | ask op next ih => exact ⟨hp.1, fun a ha => ih a (hp.2 a ha)⟩

/-- What a program returns it returns after the history it started from. -/
theorem Contract.grows (hp : Contract expected pre post h p) :
    Contract expected pre (fun later a => h <+: later ∧ post later a) h p := by
  induction p generalizing h with
  | ret a => exact ⟨List.prefix_refl h, hp⟩
  | ask op next ih =>
    refine ⟨hp.1, fun a ha => (ih a (hp.2 a ha)).mono id ?_⟩
    rintro later v ⟨longer, holds⟩
    exact ⟨(List.prefix_append h _).trans longer, holds⟩

/-- A program that uses only some operations adds only those to the history. -/
theorem contract_of_uses {allowed : I.Op → Prop} (hp : Uses allowed p) :
    Contract expected (fun _ op => allowed op)
      (fun later _ => ∃ tr, later = h ++ tr ∧ ∀ e ∈ tr, allowed e.op) h p := by
  induction p generalizing h with
  | ret a => exact ⟨[], by simp, by simp⟩
  | ask op next ih =>
    refine ⟨hp.1, fun a _ => (ih a (hp.2 a)).mono id ?_⟩
    rintro later v ⟨tr, rfl, allowed_tr⟩
    exact ⟨⟨op, a⟩ :: tr, by simp, List.forall_mem_cons.mpr ⟨hp.1, allowed_tr⟩⟩

/-- A contract over operations carried out by programs over a lower interface: `rel` relates
    the history of the operations to the lower one. -/
theorem contract_interp {carry : (op : I.Op) → Program J (I.Ans op)} {expected' : J.Event → Prop}
    {pre' : List J.Event → J.Op → Prop} (rel : List I.Event → List J.Event → Prop)
    {lower : List J.Event} (hp : Contract expected pre post h p) (start : rel h lower)
    (hop : ∀ {h lower op}, rel h lower → pre h op → Contract expected' pre'
      (fun later a => expected ⟨op, a⟩ ∧ rel (h ++ [⟨op, a⟩]) later) lower (carry op)) :
    Contract expected' pre' (fun later v => ∃ above, rel above later ∧ post above v) lower
      (interp carry p) := by
  induction p generalizing h lower with
  | ret a => exact ⟨h, start, hp⟩
  | ask op next ih =>
    apply contract_bind (hop start hp.1)
    rintro later a ⟨answered, related⟩
    exact ih a (hp.2 a answered) related

/-- A program over the first of two interfaces keeps its contract among the operations of both. -/
theorem contract_inLeft {expected' : (I.sum J).Event → Prop} {both : List (I.sum J).Event}
    {pre' : List (I.sum J).Event → (I.sum J).Op → Prop}
    (hp : Contract expected pre post (both.filterMap Interface.Event.left?) p)
    (answers : ∀ {op a}, expected' ⟨.inl op, a⟩ → expected ⟨op, a⟩)
    (asks : ∀ {both op}, pre (both.filterMap Interface.Event.left?) op → pre' both (.inl op)) :
    Contract expected' pre' (fun both v => post (both.filterMap Interface.Event.left?) v) both
      (inLeft p) := by
  refine (contract_interp (fun h both => h = both.filterMap Interface.Event.left?) hp rfl ?_).mono
    id ?_
  · rintro h both op rfl allowed
    refine ⟨asks allowed, fun a answered => ⟨answers answered, ?_⟩⟩
    rw [List.filterMap_append]
    rfl
  · rintro both v ⟨h, rfl, holds⟩
    exact holds

/-- Part of an execution, answered as expected, asks what the contract allows, and the rest
    is under the same contract. -/
theorem Contract.steps {tr : List I.Event} (run : Steps p tr q)
    (hp : Contract expected pre post h p) (answers : ∀ e ∈ tr, expected e) :
    Contract expected pre post (h ++ tr) q ∧
      ∀ before e after, tr = before ++ e :: after → pre (h ++ before) e.op := by
  induction run generalizing h with
  | nil => simpa using hp
  | @cons op next a tr q _ ih =>
    have rest := ih (hp.2 a (answers _ List.mem_cons_self)) fun e he =>
      answers e (List.mem_cons_of_mem _ he)
    simp only [List.append_assoc, List.cons_append, List.nil_append] at rest
    refine ⟨rest.1, fun before e after split => ?_⟩
    cases before with
    | nil =>
      cases split
      simpa using hp.1
    | cons first before =>
      obtain ⟨rfl, later⟩ := List.cons.inj split
      exact rest.2 before e after later

theorem Contract.exec {tr : List I.Event} {v : α} (run : Exec p tr v)
    (hp : Contract expected pre post [] p) (answers : ∀ e ∈ tr, expected e) : post tr v :=
  (hp.steps run answers).1

end Effects.Program
