import TcpProxy.Balancer.Concurrent
import TcpProxy.Balancer.Selection

/-! # Draining a backend

`connect_backend` checks a target's status before it attempts the target in its first
pass, but goes through the targets it saved as cooling without checking again.  So a
drain keeps new attempts off a backend exactly as far as no running call has it saved. -/

namespace TcpProxy

open Effects Effects.Program Effects.Pool Lts RoundRobin SimpleCooldownHandler

variable {w : Nat} {Stream : Type}

/-! ## Inside a call -/

/-- The targets that a call in the middle of an attempt has saved as cooling and not tried
    again, when `T` are the operations it has completed. Attempts without a check of their
    own are retries, the current one included. -/
def saved (T : List (Select Stream).Event) : List String :=
  (targetsSeen .cooling (observations T)).drop
    ((attempts T).length + 1 - (targetsSeen .usable (observations T)).length)

theorem secondPass_running {forPort port : UInt16} {cooling : List String} {x : String}
    {T : List (Select Stream).Event} {next : _ → Program (Select Stream) (Connected Stream)}
    (run : Steps (secondPass forPort cooling) T (.ask (.connect x port) next)) :
    observations T = [] ∧
      ∀ out, next out = resume (secondPass forPort (cooling.drop ((attempts T).length + 1))) out := by
  induction cooling generalizing T with
  | nil => cases run
  | cons target cooling ih =>
    rcases steps_ask run with ⟨rfl, same⟩ | ⟨out, tail, rfl, cont⟩
    · cases same
      refine ⟨rfl, fun out => ?_⟩
      cases out <;> rfl
    · cases out with
      | ready s => cases cont
      | fatal e => cases cont
      | tryNext => exact ih cont

section FirstPass

variable {backends : List String} {nonempty : 0 < backends.length} {startIdx : Nat}
  {forPort port : UInt16} {x : String} {T : List (Select Stream).Event}
  {next : ConnectAttempt (Stream × SocketAddr) → Program (Select Stream) (Connected Stream)}

theorem firstPass_running_cons {i : Nat} {rest : List Nat} {cooling : List String}
    (run : Steps (firstPass backends nonempty startIdx forPort (i :: rest) cooling) T
      (.ask (.connect x port) next)) :
    ∃ target o check tail, Check target o check ∧ T = check ++ tail ∧
      match o with
      | .failed _ => False
      | .drained =>
        Steps (firstPass backends nonempty startIdx forPort rest cooling) tail (.ask (.connect x port) next)
      | .cooling =>
        Steps (firstPass backends nonempty startIdx forPort rest (cooling ++ [target])) tail
          (.ask (.connect x port) next)
      | .usable =>
        (tail = [] ∧
          ∀ out, next out = resume (firstPass backends nonempty startIdx forPort rest cooling) out) ∨
        ∃ after, tail = ⟨.connect target forPort, .tryNext⟩ :: after ∧
          Steps (firstPass backends nonempty startIdx forPort rest cooling) after
            (.ask (.connect x port) next) := by
  rw [firstPass_cons] at run
  generalize backends.get _ = target at run
  have attempted : ∀ {tail : List (Select Stream).Event}, Steps
      (perform (I := Select Stream) (.connect target forPort) >>=
        resume (firstPass backends nonempty startIdx forPort rest cooling)) tail (.ask (.connect x port) next) →
      (tail = [] ∧
        ∀ out, next out = resume (firstPass backends nonempty startIdx forPort rest cooling) out) ∨
      ∃ after, tail = ⟨.connect target forPort, .tryNext⟩ :: after ∧
        Steps (firstPass backends nonempty startIdx forPort rest cooling) after
          (.ask (.connect x port) next) := by
    intro tail attempt
    rcases steps_ask attempt with ⟨rfl, same⟩ | ⟨out, after, rfl, cont⟩
    · cases same
      refine .inl ⟨rfl, fun out => ?_⟩
      cases out <;> rfl
    · cases out with
      | ready s => cases cont
      | fatal e => cases cont
      | tryNext => exact .inr ⟨after, rfl, cont⟩
  rcases steps_ask run with ⟨rfl, same⟩ | ⟨status, tail, rfl, cont⟩
  · cases same
  rcases status with e | (time | _)
  · cases cont
  · cases time with
    | none => exact ⟨target, _, _, tail, .alive, rfl, attempted cont⟩
    | some time =>
      rcases steps_ask cont with ⟨rfl, same⟩ | ⟨reading, after, rfl, compared⟩
      · cases same
      change Steps (if time > reading then _ else _) after _ at compared
      by_cases later : time > reading
      · rw [if_pos later] at compared
        exact ⟨target, _, _, after, .cooling later, rfl, compared⟩
      · rw [if_neg later] at compared
        exact ⟨target, _, _, after, .expired later, rfl, attempted compared⟩
  · exact ⟨target, _, _, tail, .drained, rfl, cont⟩

/-- A call in the middle of an attempt either is in its first pass, with what it found
    cooling so far saved, or retries the saved targets one after the other. -/
theorem firstPass_running {is : List Nat} {cooling : List String}
    (run : Steps (firstPass backends nonempty startIdx forPort is cooling) T
      (.ask (.connect x port) next)) :
    (∃ rest, (attempts T).length + 1 = (targetsSeen .usable (observations T)).length ∧
      ∀ out, next out = resume (firstPass backends nonempty startIdx forPort rest
        (cooling ++ targetsSeen .cooling (observations T))) out) ∨
    ∃ n, (attempts T).length + 1 = (targetsSeen .usable (observations T)).length + n ∧
      ∀ out, next out = resume (secondPass forPort
        ((cooling ++ targetsSeen .cooling (observations T)).drop n)) out := by
  induction is generalizing cooling T with
  | nil =>
    obtain ⟨none_seen, resumes⟩ := secondPass_running run
    refine .inr ⟨(attempts T).length + 1, by simp [none_seen, targetsSeen], ?_⟩
    simpa [none_seen, targetsSeen] using resumes
  | cons i is ih =>
    obtain ⟨target, o, check, tail, hcheck, rfl, rest⟩ := firstPass_running_cons run
    have hobs := hcheck.observations tail
    have hatt := hcheck.attempts tail
    cases o with
    | failed e => exact absurd rest id
    | drained => simpa [hobs, hatt, targetsSeen] using ih rest
    | cooling => simpa [hobs, hatt, targetsSeen] using ih rest
    | usable =>
      rcases rest with ⟨rfl, resumes⟩ | ⟨after, rfl, rest⟩
      · rw [List.append_nil] at hobs hatt ⊢
        refine .inl ⟨is, by simp [hobs, hatt, targetsSeen, observations, attempts], ?_⟩
        simpa [hobs, targetsSeen, observations] using resumes
      · have later := ih rest
        simp only [observations, attempts] at hobs hatt
        simp only [hobs, hatt, targetsSeen, List.length_cons] at later ⊢
        rcases later with ⟨rest', count, resumes⟩ | ⟨n, count, resumes⟩
        · refine .inl ⟨rest', ?_, ?_⟩
          · simpa using count
          · simpa using resumes
        · refine .inr ⟨n, ?_, ?_⟩
          · simp at count ⊢; omega
          · simpa using resumes

end FirstPass

/-! ## While a target stays drained -/

section Drained

variable {t : String}

/-- The selection asks for no attempt on `t`. -/
def NotConnect (t : String) : SelectOp → Prop
  | .connect target _ => target ≠ t
  | _ => True

def NotLookup (t : String) : StackOp → Prop
  | .lookupHost target => target ≠ t
  | _ => True

/-- A status check of `t` finds it drained. -/
def ChecksDrained (t : String) : (Select Stream).Event → Prop
  | ⟨.getTargetStatus target, a⟩ => target = t → a = .ok .drain
  | _ => True

def LoadsDrained (t : String) : (Stack Stream).Event → Prop
  | ⟨.load target, a⟩ => target = t → a = .ok .drain
  | _ => True

/-- While `t` is drained, `p` begins no attempt on it. -/
abbrev SelectAvoids (t : String) (p : Program (Select Stream) (Connected Stream)) : Prop :=
  Safe (NotConnect t) (ChecksDrained t) (fun _ => True) p

abbrev Avoids {α : Type} (t : String) (p : Program (Stack Stream) α) : Prop :=
  Safe (NotLookup t) (LoadsDrained t) (fun _ => True) p

theorem avoids_resume {k : Program (Select Stream) (Connected Stream)} (hk : SelectAvoids t k)
    (out : ConnectAttempt (Stream × SocketAddr)) : SelectAvoids t (resume k out) := by
  cases out with
  | tryNext => exact hk
  | ready | fatal => trivial

theorem avoids_secondPass {forPort : UInt16} {cooling : List String} (unsaved : t ∉ cooling) :
    SelectAvoids t (secondPass forPort cooling : Program (Select Stream) _) := by
  induction cooling with
  | nil => trivial
  | cons target cooling ih =>
    rw [List.mem_cons, not_or] at unsaved
    refine ⟨fun same => unsaved.1 same.symm, fun out _ => ?_⟩
    cases out with
    | tryNext => exact ih unsaved.2
    | ready | fatal => trivial

theorem avoids_firstPass {backends : List String} {nonempty : 0 < backends.length} {startIdx : Nat}
    {forPort : UInt16} {is : List Nat} {cooling : List String} (unsaved : t ∉ cooling) :
    SelectAvoids t
      (firstPass backends nonempty startIdx forPort is cooling : Program (Select Stream) _) := by
  induction is generalizing cooling with
  | nil => exact avoids_secondPass unsaved
  | cons i is ih =>
    rw [firstPass_cons]
    generalize backends.get _ = target
    have attempted : target ≠ t → SelectAvoids t (perform (I := Select Stream) (.connect target forPort) >>=
        resume (firstPass backends nonempty startIdx forPort is cooling)) := by
      intro differs
      refine ⟨differs, fun out _ => ?_⟩
      cases out with
      | tryNext => exact ih unsaved
      | ready | fatal => trivial
    refine ⟨trivial, fun status drained => ?_⟩
    rcases status with e | (time | _)
    · trivial
    · -- A target that is not found drained is not `t`.
      have differs : target ≠ t := by
        intro same
        cases drained same
      cases time with
      | none => exact attempted differs
      | some time =>
        refine ⟨trivial, fun reading _ => ?_⟩
        show SelectAvoids t (if time > reading then _ else _)
        split
        · refine ih fun member => ?_
          cases List.mem_append.mp member with
          | inl early => exact unsaved early
          | inr last => exact differs (List.mem_singleton.mp last).symm
        · exact attempted differs
    · exact ih unsaved

theorem avoids_connectBackend (config : ProxyConfig) (forPort : UInt16) :
    SelectAvoids t (connectBackend config forPort : Program (Select Stream) _) := by
  unfold connectBackend
  split
  · trivial
  · split
    · refine ⟨trivial, fun drawn _ => ?_⟩
      cases drawn with
      | none => trivial
      | some counter => exact avoids_firstPass List.not_mem_nil
    · trivial

/-- Once its lookup is answered, an attempt looks nothing up. -/
theorem carry_connect (t x : String) (forPort : UInt16) :
    ∃ next : _ → Program (Stack Stream) _, carry (.connect x forPort) = .ask (.lookupHost x) next ∧
      ∀ ans, Uses (NotLookup t) (next ans) := by
  let allowed : BalancerOp → Prop
    | .lookupHost _ => False
    | _ => True
  have asks : ∃ next : _ → Program (Balancer Stream) _,
      connect x forPort = .ask (.lookupHost x) next ∧ ∀ ans, Uses allowed (next ans) :=
    connect_asks (fun _ => trivial) (fun _ => trivial) forPort
  obtain ⟨next, same, uses⟩ := asks
  refine ⟨fun ans => interp handle (next ans), ?_, fun ans => uses_interp (uses ans) fun op hop => ?_⟩
  · rw [carry, link, same]
    rfl
  · refine Call.uses_handle trivial (fun _ _ => trivial) (fun _ _ => ⟨trivial, fun _ => trivial⟩) ?_
      fun _ => trivial
    rintro target rfl
    exact absurd hop id

theorem safe_carry {op : SelectOp} (allowed : NotConnect t op) :
    Safe (NotLookup t) (LoadsDrained t) (fun a => ChecksDrained t ⟨op, a⟩)
      (carry op : Program (Stack Stream) _) := by
  cases op with
  | fetchAdd | now => exact ⟨trivial, fun _ _ => trivial⟩
  | getTargetStatus target => exact ⟨trivial, fun _ drained => drained⟩
  | connect x forPort =>
    have asks : ∃ next : _ → Program (Stack Stream) _, carry (.connect x forPort) = .ask (.lookupHost x) next ∧
        ∀ ans, Uses (NotLookup t) (next ans) := carry_connect t x forPort
    obtain ⟨next, same, uses⟩ := asks
    rw [same]
    exact ⟨allowed, fun ans _ => (uses ans).safe⟩

theorem avoids_body (config : ProxyConfig) (call : Call) :
    Avoids t (call.body config : Program (Stack Stream) _) := by
  cases call with
  | connectBackend forPort =>
    have selected : Avoids t (stackConnectBackend config forPort : Program (Stack Stream) _) := by
      rw [stackConnectBackend_eq]
      exact safe_interp (avoids_connectBackend config forPort) fun op hop => safe_carry hop
    exact safe_bind selected fun _ _ => trivial
  | reportConnectionAttempt target result =>
    have reported : Uses (I := Stack Stream) (NotLookup t) (reportConnectionAttempt target result) :=
      uses_reportConnectionAttempt trivial trivial fun _ => trivial
    exact safe_bind reported.safe fun _ _ => trivial
  | drain target => exact ⟨trivial, fun _ _ => trivial⟩

end Drained

/-! ## Runs around a drain -/

/-- The call has returned, has not been polled yet, or is suspended in a lookup or a connect. -/
def AtAwait {α : Type} (tr : List (Stack Stream).Event) : Program (Stack Stream) α → Prop
  | .ret _ => True
  | .ask op _ => tr = [] ∨ op.Network

/-- A call on `port` that made the operations `tr` is in an attempt, after it completed `T`. -/
def MidAttempt (config : ProxyConfig) (port : UInt16) (tr : List (Stack Stream).Event)
    (T : List (Select Stream).Event) : Prop :=
  ∃ x forPort next front back op rest, tr = front ++ back ∧
    Steps (connectBackend config port) T (.ask (.connect x forPort) next) ∧ Unfolds carry T front ∧
    Steps (carry (.connect x forPort)) back (.ask op rest)

/-- A step after which `t` is drained. -/
def DrainedStep (config : ProxyConfig) (t : String) (c : Tasks w Stream) (l : TaskLabel Stream)
    (c' : Tasks w Stream) : Prop :=
  Tasks.Step config c l c' ∧ c'.store.targets.targetStatus t = some .drain

/-- The step `l` that led to `c` left its task at the start of an attempt on `t`. -/
def Begins (t : String) (l : TaskLabel Stream) (c : Tasks w Stream) : Prop :=
  ∃ next, c.threads l.thread = some (.ask (.lookupHost t) next)

/-- No attempt on `t` but the one the task is already waiting in. -/
def Finishing {α : Type} (t : String) (q : Program (Stack Stream) α) : Prop :=
  Avoids t q ∨ ∃ next, q = .ask (.lookupHost t) next ∧ ∀ ans, Avoids t (next ans)

section Runs

variable {config : ProxyConfig} {t : String} {s : Store w} {pre : List (TaskLabel Stream)}
  {c : Tasks w Stream}

theorem not_begins_of_avoids {α : Type} {q : Program (Stack Stream) α} (h : Avoids t q) :
    ¬ ∃ next, q = .ask (.lookupHost t) next := by
  rintro ⟨next, rfl⟩
  exact h.1 rfl

/-- What follows an attempt of a call that has not saved `t`. -/
theorem avoids_after_attempt {port forPort : UInt16} {x : String} {T : List (Select Stream).Event}
    {next : ConnectAttempt (Stream × SocketAddr) → Program (Select Stream) (Connected Stream)}
    (run : Steps (connectBackend config port) T (.ask (.connect x forPort) next))
    (unsaved : t ∉ saved T) (out : ConnectAttempt (Stream × SocketAddr)) :
    SelectAvoids t (next out) := by
  unfold connectBackend at run
  split at run
  · cases run
  next backends _ =>
    split at run
    next nonempty =>
      rcases steps_ask run with ⟨-, same⟩ | ⟨drawn, tail, rfl, cont⟩
      · cases same
      cases drawn with
      | none => cases cont
      | some counter =>
        rw [saved] at unsaved
        rcases firstPass_running cont with ⟨rest, count, resumes⟩ | ⟨n, count, resumes⟩
        · rw [resumes out]
          refine avoids_resume (avoids_firstPass ?_) out
          simpa [observations, attempts, count] using unsaved
        · rw [resumes out]
          refine avoids_resume (avoids_secondPass ?_) out
          simpa [observations, attempts, count] using unsaved
    · cases run

/-- At the drain, a suspended call that has not saved `t` only finishes what it is waiting in. -/
theorem finishing_of_awaiting {call : Call} {tr : List (Stack Stream).Event}
    {q : Program (Stack Stream) (CallResult Stream)} (run : Steps (call.body config) tr q)
    (awaits : AtAwait tr q)
    (unsaved : ∀ port T, call = .connectBackend port → MidAttempt config port tr T → t ∉ saved T) :
    Finishing t q := by
  cases q with
  | ret r => exact .inl trivial
  | ask op next =>
    cases awaits with
    | inl unpolled =>
      subst unpolled
      rw [← run.nil_eq]
      exact .inl (avoids_body config call)
    | inr network =>
      cases call with
      | reportConnectionAttempt target result =>
        have uses : Uses (fun op : StackOp => ¬ op.Network)
            (Call.body config (.reportConnectionAttempt target result) : Program (Stack Stream) _) :=
          uses_bind (uses_reportConnectionAttempt id id fun _ => id) fun _ => trivial
        exact absurd network (uses_steps run uses).1
      | drain target =>
        have uses : Uses (fun op : StackOp => ¬ op.Network)
            (Call.body config (.drain target) : Program (Stack Stream) _) := ⟨id, fun _ => trivial⟩
        exact absurd network (uses_steps run uses).1
      | connectBackend port =>
        rcases steps_bind run with ⟨op₁, next₁, inside, same⟩ | ⟨r, tr₁, tr₂, -, -, done⟩
        · rw [stackConnectBackend_eq] at inside
          rcases steps_interp inside with ⟨T, v, -, -, ended⟩ |
            ⟨T, opS, nextS, front, back, op₂, next₂, rfl, selected, un, current, same₂⟩
          · cases ended
          · cases same₂
            cases same
            cases opS with
            | fetchAdd | getTargetStatus | now =>
              rcases steps_ask current with ⟨-, waiting⟩ | ⟨a, rest, -, settled⟩
              · cases waiting; cases network
              · cases settled
            | connect x forPort =>
              have after := avoids_after_attempt selected
                (unsaved port T rfl ⟨x, forPort, nextS, front, back, op, next₂, rfl, selected, un, current⟩)
              -- The rest of the call after the current attempt, on the stack.
              have later : ∀ out, Avoids t (interp carry (nextS out) >>= fun r =>
                  (Program.ret (.connected r) : Program (Stack Stream) (CallResult Stream))) := fun out =>
                safe_bind (safe_interp (after out) fun op hop => safe_carry hop) fun _ _ => trivial
              have finish : ∀ {p : Program (Stack Stream) _}, Uses (NotLookup t) p →
                  Avoids t ((p >>= fun out => interp carry (nextS out)) >>= fun r =>
                    (Program.ret (.connected r) : Program (Stack Stream) (CallResult Stream))) := by
                intro p uses
                rw [bind_bind]
                exact safe_bind uses.safe fun out _ => later out
              obtain ⟨k, asks, uses⟩ : ∃ k : _ → Program (Stack Stream) _,
                  carry (.connect x forPort) = .ask (.lookupHost x) k ∧
                    ∀ ans, Uses (NotLookup t) (k ans) := carry_connect t x forPort
              rw [asks] at current
              rcases steps_ask current with ⟨-, waiting⟩ | ⟨ans, rest, -, looked⟩
              · cases waiting
                by_cases other : x = t
                · subst other
                  exact .inr ⟨_, rfl, fun ans => finish (uses ans)⟩
                · exact .inl ⟨other, fun ans _ => finish (uses ans)⟩
              · have residual := uses_steps looked (uses ans)
                exact .inl ⟨residual.1, fun a _ => finish (residual.2 a)⟩
        · cases done

/-- While `t` stays drained, tasks that only finish what they are waiting in stay so, and
    none begins an attempt on `t`. -/
theorem finishing_step {u v : Tasks w Stream} {l : TaskLabel Stream}
    (drained : u.store.targets.targetStatus t = some .drain)
    (finishing : ∀ i q, u.threads i = some q → Finishing t q) (step : Tasks.Step config u l v) :
    (∀ i q, v.threads i = some q → Finishing t q) ∧ ¬ Begins t l v := by
  have moved : ∀ {i : Nat} {q : Program (Stack Stream) (CallResult Stream)} {s : Store w}, Avoids t q →
      (∀ j p, Function.update u.threads i (some q) j = some p → Finishing t p) ∧
      ¬ ∃ next, (⟨s, Function.update u.threads i (some q)⟩ : Tasks w Stream).threads i =
        some (.ask (.lookupHost t) next) := by
    intro i q s avoids
    constructor
    · intro j p hp
      by_cases same : j = i
      · subst same
        rw [Function.update_self] at hp
        cases hp
        exact .inl avoids
      · rw [Function.update_of_ne same] at hp
        exact finishing j p hp
    · rintro ⟨next, hnext⟩
      change Function.update u.threads i (some q) i = _ at hnext
      rw [Function.update_self] at hnext
      exact not_begins_of_avoids avoids ⟨next, Option.some.inj hnext⟩
  cases step with
  | @spawn i call free => exact moved (avoids_body config call)
  | @act i op next a s running answered =>
    have expected : LoadsDrained t ⟨op, a⟩ := by
      cases op with
      | load target =>
        rintro rfl
        rw [answered.1, TargetState.getTargetStatus_of_some drained]
      | fetchAdd | store | now | lookupHost | connectAddr => trivial
    rcases finishing i _ running with avoids | ⟨next', same, later⟩
    · exact moved (avoids.2 a expected)
    · cases same
      exact moved (later a)

/-- When every call is suspended as `drain(t)` completes and no unfinished call still has `t`
    among the cooling targets it saved, no call begins a new attempt on `t` as long as its
    status stays `Drain`. -/
theorem drained_target_not_attempted {d : Nat} {a : Except ProxyError Unit} {u : Tasks w Stream}
    (before : Run (Tasks.Step config) (Tasks.idle s) pre c) (drains : .spawn d (.drain t) ∈ pre)
    (drain : Tasks.Step config c (.act d ⟨.store t .drain, a⟩) u)
    (drained : u.store.targets.targetStatus t = some .drain)
    (awaits : ∀ i q, i ≠ d → c.threads i = some q → AtAwait (traceOf i pre) q)
    (unsaved : ∀ i port T, .spawn i (.connectBackend port) ∈ pre →
      MidAttempt config port (traceOf i pre) T → t ∉ saved T) :
    ∀ post l x y, Run (DrainedStep config t) u post x → DrainedStep config t x l y →
      ¬ Begins t l y := by
  have initially : ∀ i q, u.threads i = some q → Finishing t q := by
    cases drain with
    | @act _ _ next _ s running answered =>
      intro i q hq
      change Function.update c.threads d (some (next a)) i = some q at hq
      by_cases same : i = d
      · subst same
        rw [Function.update_self] at hq
        cases hq
        obtain ⟨call, spawned, steps⟩ := spawned_steps before rfl running
        obtain rfl := spawn_once before drains spawned
        have uses : Uses (NotLookup t) (Call.body config (.drain t) : Program (Stack Stream) _) :=
          ⟨trivial, fun _ => trivial⟩
        exact .inl ((uses_steps steps uses).2 a).safe
      · rw [Function.update_of_ne same] at hq
        obtain ⟨call, spawned, steps⟩ := spawned_steps before rfl hq
        refine finishing_of_awaiting steps (awaits i q same hq) fun port T hcall mid => ?_
        subst hcall
        exact unsaved i port T spawned mid
  intro post l x y after step
  have kept := after.invariant
    (I := fun x => x.store.targets.targetStatus t = some .drain ∧
      ∀ i q, x.threads i = some q → Finishing t q) ⟨drained, initially⟩
    fun x l y hx step => ⟨step.2, (finishing_step hx.1 hx.2 step.1).1⟩
  exact (finishing_step kept.1 kept.2 step.1).2

end Runs

/-! A drain while the only call has not been polled yet. -/

def coolingStore : Store 64 :=
  .new twoBackends ⟨fun t => if t = "a:1" then some (.alive (some 100)) else some (.alive none)⟩ 0

def unpolledThenDrain : List (TaskLabel Unit) :=
  [.spawn 0 (.connectBackend 8080), .spawn 1 (.drain "b:2")]

theorem not_midAttempt_of_unpolled {config : ProxyConfig} {port : UInt16}
    {T : List (Select Stream).Event} : ¬ MidAttempt config port [] T := by
  rintro ⟨x, forPort, next, front, back, op, rest, split, selected, un, -⟩
  have unpolled : front = [] := (List.append_eq_nil_iff.mp split.symm).1
  subst unpolled
  -- Every operation of a call leaves something behind, and the first one is not an attempt.
  cases T with
  | nil =>
    have same := selected.nil_eq
    unfold connectBackend at same
    split at same
    · cases same
    · split at same <;> cases same
  | cons e T =>
    obtain ⟨sub, tail, none_left, run, -⟩ := un.uncons
    have empty : sub = [] := (List.append_eq_nil_iff.mp none_left.symm).1
    subst empty
    obtain ⟨op, a⟩ := e
    cases op <;> cases run

theorem unpolledThenDrain_not_attempted : ∃ u : Tasks 64 Unit,
    u.store.targets.targetStatus "b:2" = some .drain ∧
    ∀ post l x y, Run (DrainedStep twoBackends "b:2") u post x → DrainedStep twoBackends "b:2" x l y →
      ¬ Begins "b:2" l y := by
  obtain ⟨c, u, run, others, drain, drained⟩ : ∃ c u : Tasks 64 Unit,
      Run (Tasks.Step twoBackends) (Tasks.idle coolingStore) unpolledThenDrain c ∧
      (∀ i q, i ≠ 1 → c.threads i = some q → i = 0) ∧
      Tasks.Step twoBackends c (.act 1 ⟨.store "b:2" .drain, .ok ()⟩) u ∧
      u.store.targets.targetStatus "b:2" = some .drain := by
    refine ⟨_, _, .cons (.spawn rfl) (.cons (.spawn rfl) (.nil _)), ?_, .act rfl ⟨rfl, rfl⟩, rfl⟩
    intro i q other running
    by_contra stranger
    simp [Tasks.idle, stranger, other] at running
  refine ⟨u, drained, drained_target_not_attempted run (by simp [unpolledThenDrain]) drain drained
    (fun i q other running => ?_) fun i port T spawned mid => ?_⟩
  · cases others i q other running
    cases q with
    | ret r => trivial
    | ask op next => exact .inl rfl
  · have caller : i = 0 := by
      simp only [unpolledThenDrain, List.mem_cons, Label.spawn.injEq, reduceCtorEq, and_false,
        List.not_mem_nil, or_false] at spawned
      exact spawned.1
    subst caller
    exact absurd mid not_midAttempt_of_unpolled

/-! A call that saved `a:1` as cooling is waiting for the lookup of `b:2` when `a:1` is drained. -/

def callThenDrain : List (TaskLabel Unit) :=
  [.spawn 0 (.connectBackend 8080), .act 0 ⟨.fetchAdd 8080, some 0⟩,
    .act 0 ⟨.load "a:1", .ok (.alive (some 100))⟩, .act 0 ⟨.now, 2⟩,
    .act 0 ⟨.load "b:2", .ok (.alive none)⟩, .spawn 1 (.drain "a:1")]

def failedLookup : List (TaskLabel Unit) :=
  [.act 0 ⟨.lookupHost "b:2", .ok []⟩, .act 0 ⟨.load "b:2", .ok (.alive none)⟩, .act 0 ⟨.now, 3⟩,
    .act 0 ⟨.now, 3⟩]

theorem cooling_target_attempted_after_drain : ∃ c u x y : Tasks 64 Unit,
    Run (Tasks.Step twoBackends) (Tasks.idle coolingStore) callThenDrain c ∧
    (∀ i q, i ≠ 1 → c.threads i = some q → AtAwait (traceOf i callThenDrain) q) ∧
    Tasks.Step twoBackends c (.act 1 ⟨.store "a:1" .drain, .ok ()⟩) u ∧
    Run (DrainedStep twoBackends "a:1") u failedLookup x ∧
    DrainedStep twoBackends "a:1" x
      (.act 0 ⟨.store "b:2" (.alive (some (3 + COOLDOWN))), .ok ()⟩) y ∧
    Begins "a:1" (.act (κ := Call) 0 ⟨.store "b:2" (.alive (some (3 + COOLDOWN))), .ok ()⟩) y := by
  refine ⟨_, _, _, _, .cons (.spawn rfl) (.cons (.act rfl ⟨rfl, rfl⟩) (.cons (.act rfl ⟨rfl, rfl⟩)
    (.cons (.act rfl ⟨by decide, rfl⟩) (.cons (.act rfl ⟨rfl, rfl⟩) (.cons (.spawn rfl) (.nil _)))))),
    ?_, .act rfl ⟨rfl, rfl⟩,
    .cons ⟨.act rfl rfl, rfl⟩ (.cons ⟨.act rfl ⟨rfl, rfl⟩, rfl⟩ (.cons ⟨.act rfl ⟨by decide, rfl⟩, rfl⟩
      (.cons ⟨.act rfl ⟨by decide, rfl⟩, rfl⟩ (.nil _)))), ⟨.act rfl ⟨rfl, rfl⟩, rfl⟩, _, rfl⟩
  intro i q other running
  by_cases caller : i = 0
  · subst caller
    cases running
    exact .inr trivial
  · simp [Tasks.idle, caller, other] at running

end TcpProxy
