import TcpProxy.Lib.Program
import Mathlib.Logic.Function.Basic

/-! # Interleaved programs over a shared store

Any number of programs run over one store, one operation at a time, in any order;
`answers s e t` is the effect of an answered operation on the store.  Two facts carry
over everything else: each thread sees an ordinary trace of its own program
(`thread_steps`), and threads whose operations a view of the store cannot tell apart
from nothing may be removed from a run (`unwinding`). -/

namespace Effects

open Lts Program

variable {σ ι κ : Type} {I : Interface} {α : Type}

structure Pool (σ ι : Type) (I : Interface) (α : Type) where
  store : σ
  threads : ι → Option (Program I α)

namespace Pool

/-- A thread starts a call, or has its next operation answered. -/
inductive Label (ι κ : Type) (I : Interface) where
  | spawn (thread : ι) (call : κ)
  | act (thread : ι) (event : I.Event)

def Label.thread : Label ι κ I → ι
  | .spawn i _ => i
  | .act i _ => i

@[simp] theorem thread_spawn (i : ι) (call : κ) : (Label.spawn (I := I) i call).thread = i := rfl

@[simp] theorem thread_act (i : ι) (e : I.Event) : (Label.act (κ := κ) i e).thread = i := rfl

variable [DecidableEq ι]

/-- Thread names are never reused: a thread that returned keeps its result. -/
inductive Step (answers : σ → I.Event → σ → Prop) (body : κ → Program I α) :
    Pool σ ι I α → Label ι κ I → Pool σ ι I α → Prop
  | spawn {c : Pool σ ι I α} {i : ι} {call : κ} : c.threads i = none →
      Step answers body c (.spawn i call)
        { c with threads := Function.update c.threads i (some (body call)) }
  | act {c : Pool σ ι I α} {i : ι} {op : I.Op} {next : I.Ans op → Program I α} {a : I.Ans op}
      {s : σ} : c.threads i = some (.ask op next) → answers c.store ⟨op, a⟩ s →
      Step answers body c (.act i ⟨op, a⟩) ⟨s, Function.update c.threads i (some (next a))⟩

/-- The operations of one thread, in order. -/
def traceOf (i : ι) : List (Label ι κ I) → List I.Event
  | [] => []
  | .spawn _ _ :: ls => traceOf i ls
  | .act j e :: ls => if j = i then e :: traceOf i ls else traceOf i ls

theorem mem_traceOf {i : ι} {e : I.Event} {ls : List (Label ι κ I)} :
    e ∈ traceOf i ls ↔ .act i e ∈ ls := by
  induction ls with
  | nil => simp [traceOf]
  | cons l ls ih =>
    cases l with
    | spawn j call => simp [traceOf, ih]
    | act j e' =>
      by_cases same : j = i
      · simp [traceOf, same, ih]
      · have other : i ≠ j := fun h => same h.symm
        simp [traceOf, same, other, ih]

theorem traceOf_append (i : ι) (ls ms : List (Label ι κ I)) :
    traceOf i (ls ++ ms) = traceOf i ls ++ traceOf i ms := by
  induction ls with
  | nil => rfl
  | cons l ls ih =>
    cases l with
    | spawn j c => exact ih
    | act j e =>
      by_cases same : j = i
      · simp [traceOf, same, ih]
      · simp [traceOf, same, ih]

variable {answers : σ → I.Event → σ → Prop} {body : κ → Program I α}
  {c c' : Pool σ ι I α} {ls : List (Label ι κ I)}

/-- A running thread follows its program, answered as the run says. -/
theorem thread_steps (run : Run (Step answers body) c ls c') {i : ι} {p : Program I α}
    (h : c.threads i = some p) : ∃ q, c'.threads i = some q ∧ Steps p (traceOf i ls) q := by
  induction run generalizing p with
  | nil => exact ⟨p, h, .nil p⟩
  | cons step _ ih =>
    cases step with
    | @spawn j call free =>
      have other : i ≠ j := by rintro rfl; rw [h] at free; cases free
      exact ih (by simpa [other] using h)
    | @act j op next a s running _ =>
      by_cases same : j = i
      · subst same
        rw [h] at running
        cases running
        obtain ⟨q, hq, steps⟩ := ih (p := next a) (by simp)
        exact ⟨q, hq, by simpa [traceOf] using steps.cons⟩
      · have other : i ≠ j := fun e => same e.symm
        obtain ⟨q, hq, steps⟩ := ih (p := p) (by simpa [other] using h)
        exact ⟨q, hq, by simpa [traceOf, same] using steps⟩

/-- A thread that was not running at the start of the run was spawned in it, and its
    whole trace belongs to the call it was spawned with. -/
theorem spawned_steps (run : Run (Step answers body) c ls c') {i : ι} {q : Program I α}
    (before : c.threads i = none) (after : c'.threads i = some q) :
    ∃ call, .spawn i call ∈ ls ∧ Steps (body call) (traceOf i ls) q := by
  induction run with
  | nil => rw [before] at after; cases after
  | cons step rest ih =>
    -- Either this step spawns the thread, or it was spawned later.
    cases step with
    | @spawn j call free =>
      by_cases same : j = i
      · subst same
        obtain ⟨q', hq', steps⟩ := thread_steps rest (i := j) (p := body call) (by simp)
        rw [after] at hq'
        cases hq'
        exact ⟨call, List.mem_cons_self, steps⟩
      · have other : i ≠ j := fun e => same e.symm
        obtain ⟨call', hmem, steps⟩ := ih (by simpa [other] using before) after
        exact ⟨call', List.mem_cons_of_mem _ hmem, steps⟩
    | @act j op next a s running _ =>
      have other : j ≠ i := by rintro rfl; rw [before] at running; cases running
      obtain ⟨call, hmem, steps⟩ := ih (by simpa [other.symm] using before) after
      exact ⟨call, List.mem_cons_of_mem _ hmem, by simpa [traceOf, other] using steps⟩

/-- A thread that acts in a run it was not running before was spawned in it. -/
theorem acting_steps (run : Run (Step answers body) c ls c') {i : ι} {e : I.Event}
    (before : c.threads i = none) (acts : .act i e ∈ ls) :
    ∃ call q, .spawn i call ∈ ls ∧ c'.threads i = some q ∧ Steps (body call) (traceOf i ls) q := by
  obtain ⟨q, after⟩ : ∃ q, c'.threads i = some q := by
    obtain ⟨pre, post, u, v, -, -, step, rest⟩ := run.mem_step acts
    cases step with
    | @act _ op next a s running _ =>
      obtain ⟨q, after, -⟩ := thread_steps rest (i := i) (p := next a) (by simp)
      exact ⟨q, after⟩
  obtain ⟨call, spawned, steps⟩ := spawned_steps run before after
  exact ⟨call, q, spawned, after, steps⟩

/-- A thread spawned in a run was free before it. -/
theorem free_of_spawn (run : Run (Step answers body) c ls c') {i : ι} {call : κ}
    (h : .spawn i call ∈ ls) : c.threads i = none := by
  induction run with
  | nil => cases h
  | cons step _ ih =>
    cases step with
    | @spawn j call' free =>
      by_cases same : i = j
      · rw [same]; exact free
      · have later := (List.mem_cons.mp h).resolve_left fun e => same (by cases e; rfl)
        simpa [same] using ih later
    | @act j op next a s running _ =>
      have later := (List.mem_cons.mp h).resolve_left nofun
      have free := ih later
      by_cases same : i = j
      · simp [same] at free
      · simpa [same] using free

/-- A thread runs one call only. -/
theorem spawn_once (run : Run (Step answers body) c ls c') {i : ι} {call call' : κ}
    (h : .spawn i call ∈ ls) (h' : .spawn i call' ∈ ls) : call = call' := by
  induction run with
  | nil => cases h
  | cons step rest ih =>
    cases step with
    | @spawn j call'' free =>
      rcases List.mem_cons.mp h with e | later
      · rcases List.mem_cons.mp h' with e' | later'
        · cases e; cases e'; rfl
        · cases e; simpa using free_of_spawn rest later'
      · rcases List.mem_cons.mp h' with e' | later'
        · cases e'; simpa using free_of_spawn rest later
        · exact ih later later'
    | @act j op next a s running _ =>
      exact ih ((List.mem_cons.mp h).resolve_left nofun) ((List.mem_cons.mp h').resolve_left nofun)

/-- Dropping other threads' labels leaves a thread's trace. -/
theorem traceOf_filter (keep : ι → Prop) [DecidablePred keep] {i : ι} (hi : keep i)
    (ls : List (Label ι κ I)) : traceOf i (ls.filter fun l => keep l.thread) = traceOf i ls := by
  induction ls with
  | nil => rfl
  | cons l ls ih =>
    cases l with
    | spawn j call => by_cases hj : keep j <;> simp [hj, traceOf, ih]
    | act j e =>
      by_cases same : j = i
      · subst same; simp [hi, traceOf, ih]
      · by_cases hj : keep j <;> simp [hj, traceOf, same, ih]

/-- What holds of a new program of one thread and of all the threads before holds of all
    the threads. -/
theorem forall_update {P : ι → Program I α → Prop} {threads : ι → Option (Program I α)} {j : ι}
    {q : Program I α} (old : ∀ i p, threads i = some p → P i p) (new : P j q) :
    ∀ i p, Function.update threads j (some q) i = some p → P i p := by
  intro i p hp
  by_cases same : i = j
  · subst same
    obtain rfl : q = p := by simpa using hp
    exact new
  · exact old i p (by simpa [same] using hp)

/-- An invariant of the store and of the operations threads can still ask. -/
theorem uses_invariant (allowed : ι → I.Op → Prop)
    (bodies : ∀ i call, .spawn i call ∈ ls → Uses (allowed i) (body call))
    (start : ∀ i p, c.threads i = some p → Uses (allowed i) p)
    (run : Run (Step answers body) c ls c') :
    ∀ i e, .act i e ∈ ls → allowed i e.op := by
  induction run with
  | nil => simp
  | cons step rest ih =>
    intro i e he
    cases step with
    | @spawn j call free =>
      refine ih (fun i call' h => bodies i call' (List.mem_cons_of_mem _ h)) ?_ i e (by simpa using he)
      exact forall_update start (bodies j call List.mem_cons_self)
    | @act j op next a s running _ =>
      have uses := start j _ running
      rcases List.mem_cons.mp he with heq | he
      · cases heq; exact uses.1
      · refine ih (fun i call' h => bodies i call' (List.mem_cons_of_mem _ h)) ?_ i e he
        exact forall_update start (uses.2 a)

/-- A property of the store that the allowed operations keep, while the answers it gives
    are the ones the threads are safe under. -/
theorem safe_invariant (inv : σ → Prop) {allowed : I.Op → Prop} {expected : I.Event → Prop}
    {post : α → Prop} (gives : ∀ {s e t}, inv s → answers s e t → expected e)
    (keeps : ∀ {s e t}, inv s → allowed e.op → answers s e t → inv t)
    (bodies : ∀ i call, .spawn i call ∈ ls → Safe allowed expected post (body call))
    (threads : ∀ i p, c.threads i = some p → Safe allowed expected post p) (store : inv c.store)
    (run : Run (Step answers body) c ls c') : inv c'.store := by
  induction run with
  | nil => exact store
  | cons step _ ih =>
    have later := fun i call h => bodies i call (List.mem_cons_of_mem _ h)
    cases step with
    | @spawn j call free =>
      apply ih later _ store
      exact forall_update threads (bodies j call List.mem_cons_self)
    | @act j op next a s running answered =>
      have safe := threads j _ running
      apply ih later _ (keeps store safe.1 answered)
      exact forall_update threads (safe.2 a (gives store answered))

/-- A new thread may run its call by itself. -/
theorem run_alone {i : ι} {call : κ} {tr : List I.Event} {q : Program I α} {t : σ}
    (free : c.threads i = none) (steps : Steps (body call) tr q) (moves : Run answers c.store tr t) :
    Run (Step answers body) c (.spawn i call :: tr.map (.act i))
      ⟨t, Function.update c.threads i (some q)⟩ := by
  have goes_on : ∀ {p q : Program I α} {tr : List I.Event}, Steps p tr q → ∀ {s t : σ}
      {threads : ι → Option (Program I α)}, Run answers s tr t → threads i = some p →
      Run (Step answers body) ⟨s, threads⟩ (tr.map (.act i)) ⟨t, Function.update threads i (some q)⟩ := by
    intro p q tr steps
    induction steps with
    | nil p =>
      intro s t threads moves running
      rw [moves.nil_eq, ← running, Function.update_eq_self]
      exact .nil _
    | @cons op next a tr q _ ih =>
      intro s t threads moves running
      obtain ⟨u, answered, later⟩ := moves.uncons
      have rest := ih later (show Function.update threads i (some (next a)) i = some (next a) by simp)
      rw [Function.update_idem] at rest
      exact .cons (.act running answered) rest
  have ran := goes_on steps moves
    (show Function.update c.threads i (some (body call)) i = some (body call) by simp)
  rw [Function.update_idem] at ran
  exact .cons (.spawn free) ran

/-! ## Removing threads -/

/-- The pools agree on the threads that are kept, and `view` relates their stores. -/
def Agree (keep : ι → Prop) (view : σ → σ → Prop) (c d : Pool σ ι I α) : Prop :=
  view c.store d.store ∧ (∀ i, keep i → d.threads i = c.threads i)

section Agree

variable {keep : ι → Prop} {threads threads' : ι → Option (Program I α)} {j : ι} {p : Option (Program I α)}

theorem kept_update (agree : ∀ i, keep i → threads' i = threads i) :
    ∀ i, keep i → Function.update threads' j p i = Function.update threads j p i := by
  intro i kept
  by_cases same : i = j
  · subst same
    simp
  · simpa [same] using agree i kept

theorem removed_update (agree : ∀ i, keep i → threads' i = threads i) (removed : ¬ keep j) :
    ∀ i, keep i → threads' i = Function.update threads j p i := by
  intro i kept
  have other : i ≠ j := by
    rintro rfl
    exact removed kept
  simpa [other] using agree i kept

end Agree

/-- Unwinding: operations of removed threads leave the view as it is, operations of
    kept threads can be repeated on any related store with the same answer.  Then the
    kept labels of a run are a run by themselves. -/
theorem unwinding (keep : ι → Prop) [DecidablePred keep] {view : σ → σ → Prop}
    (kept removed : I.Op → Prop)
    (invisible : ∀ {s t s' e}, view s t → removed e.op → answers s e s' → view s' t)
    (repeats : ∀ {s t s' e}, view s t → kept e.op → answers s e s' →
      ∃ t', answers t e t' ∧ view s' t')
    (run : Run (Step answers body) c ls c')
    (ops : ∀ i e, .act i e ∈ ls → if keep i then kept e.op else removed e.op)
    {d : Pool σ ι I α} (agree : Agree keep view c d) :
    ∃ d', Run (Step answers body) d (ls.filter fun l => keep l.thread) d' ∧
      Agree keep view c' d' := by
  induction run generalizing d with
  | nil => exact ⟨d, .nil d, agree⟩
  | cons step _ ih =>
    have ops' := fun i e h => ops i e (List.mem_cons_of_mem _ h)
    cases step with
    | @spawn j call free =>
      by_cases hj : keep j
      · have free' : d.threads j = none := by rw [agree.2 j hj, free]
        obtain ⟨d', run', agree'⟩ := ih ops'
          (d := { d with threads := Function.update d.threads j (some (body call)) })
          ⟨agree.1, kept_update agree.2⟩
        exact ⟨d', by simpa [hj] using run'.cons (.spawn free'), agree'⟩
      · obtain ⟨d', run', agree'⟩ := ih ops' (d := d) ⟨agree.1, removed_update agree.2 hj⟩
        exact ⟨d', by simpa [hj] using run', agree'⟩
    | @act j op next a s running answered =>
      have hop := ops j _ List.mem_cons_self
      by_cases hj : keep j
      · rw [if_pos hj] at hop
        obtain ⟨t', answered', view'⟩ := repeats agree.1 hop answered
        have running' : d.threads j = some (.ask op next) := by rw [agree.2 j hj, running]
        obtain ⟨d', run', agree'⟩ := ih ops'
          (d := ⟨t', Function.update d.threads j (some (next a))⟩) ⟨view', kept_update agree.2⟩
        exact ⟨d', by simpa [hj] using run'.cons (.act running' answered'), agree'⟩
      · rw [if_neg hj] at hop
        obtain ⟨d', run', agree'⟩ := ih ops' (d := d)
          ⟨invisible agree.1 hop answered, removed_update agree.2 hj⟩
        exact ⟨d', by simpa [hj] using run', agree'⟩

/-! ## Determinism -/

/-- The same schedule, with equal answers from the environment: the answers of the
    store itself may still differ. -/
inductive Alike (environment : I.Op → Prop) : Label ι κ I → Label ι κ I → Prop
  | spawn (i : ι) (call : κ) : Alike environment (.spawn i call) (.spawn i call)
  | act {i : ι} {e e' : I.Event} : (environment e.op → e = e') →
      Alike environment (.act i e) (.act i e')

/-- A schedule together with the answers of the environment determines a run. -/
theorem run_determined {environment : I.Op → Prop}
    (answer : ∀ {s op a a' t t'}, ¬ environment op → answers s ⟨op, a⟩ t → answers s ⟨op, a'⟩ t' →
      a = a')
    (effect : ∀ {s e t t'}, answers s e t → answers s e t' → t = t')
    {ms : List (Label ι κ I)} {d : Pool σ ι I α}
    (run : Run (Step answers body) c ls c') (run' : Run (Step answers body) c ms d)
    (alike : List.Forall₂ (Alike environment) ls ms) : ms = ls ∧ d = c' := by
  induction run generalizing ms with
  | nil =>
    cases alike
    exact ⟨rfl, run'.nil_eq.symm⟩
  | @cons c u c' l ls step rest ih =>
    cases alike with
    | @cons _ m _ ms hl hls =>
      cases run' with
      | @cons _ u' _ _ _ step' rest' =>
        -- The schedules agree on who moves, and a store gives one answer only.
        have same : m = l ∧ u' = u := by
          cases hl with
          | spawn i call => cases step; cases step'; exact ⟨rfl, rfl⟩
          | act henv =>
            cases step with
            | @act i op next a s running answered =>
              cases step' with
              | @act _ op' next' a' s' running' answered' =>
                rw [running] at running'
                cases running'
                have equal : a = a' := by
                  by_cases env : environment op
                  · have := henv env
                    simpa using this
                  · exact answer env answered answered'
                subst equal
                rw [effect answered answered']
                exact ⟨rfl, rfl⟩
        obtain ⟨rfl, rfl⟩ := same
        obtain ⟨rfl, rfl⟩ := ih rest' hls
        exact ⟨rfl, rfl⟩

end Pool

end Effects
