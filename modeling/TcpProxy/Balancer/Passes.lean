import TcpProxy.Balancer.RoundRobin

/-! # The two passes of `connect_backend`

A trace of `connect_backend` is read back as the status checks it made, with what
each observed, and the attempts it made, with how each ended.  `firstPass_exec`
says how the two lists of every execution hang together. -/

namespace TcpProxy.RoundRobin

open Effects Effects.Program

variable {Stream : Type}

/-! ## Reading a trace -/

/-- What one status check found, compared with the clock where the source compares it. -/
inductive Observation where
  | drained
  | cooling
  | usable
  | failed (e : ProxyError)
  deriving DecidableEq

def observations : List (Select Stream).Event → List (String × Observation)
  | [] => []
  | ⟨.getTargetStatus target, .error e⟩ :: tr => (target, .failed e) :: observations tr
  | ⟨.getTargetStatus target, .ok .drain⟩ :: tr => (target, .drained) :: observations tr
  | ⟨.getTargetStatus target, .ok (.alive none)⟩ :: tr => (target, .usable) :: observations tr
  | ⟨.getTargetStatus target, .ok (.alive (some time))⟩ :: ⟨.now, reading⟩ :: tr =>
    (target, if time > reading then .cooling else .usable) :: observations tr
  | _ :: tr => observations tr

abbrev Attempted (Stream : Type) := String × ConnectAttempt (Stream × SocketAddr)

def attempts : List (Select Stream).Event → List (Attempted Stream)
  | [] => []
  | ⟨.connect target _, outcome⟩ :: tr => (target, outcome) :: attempts tr
  | _ :: tr => attempts tr

theorem attempts_append (tr₁ tr₂ : List (Select Stream).Event) :
    attempts (tr₁ ++ tr₂) = attempts tr₁ ++ attempts tr₂ := by
  induction tr₁ with
  | nil => rfl
  | cons e tr₁ ih =>
    obtain ⟨op, a⟩ := e
    cases op <;> simp [attempts, ih]

theorem mem_of_attempted {tr : List (Select Stream).Event} {a : Attempted Stream}
    (h : a ∈ attempts tr) : ∃ forPort, ⟨.connect a.1 forPort, a.2⟩ ∈ tr := by
  induction tr with
  | nil => cases h
  | cons e tr ih =>
    obtain ⟨op, ans⟩ := e
    cases op with
    | connect target forPort =>
      rcases List.mem_cons.mp h with rfl | h
      · exact ⟨forPort, List.mem_cons_self⟩
      · obtain ⟨port, hport⟩ := ih h
        exact ⟨port, List.mem_cons_of_mem _ hport⟩
    | fetchAdd | getTargetStatus | now =>
      obtain ⟨port, hport⟩ := ih h
      exact ⟨port, List.mem_cons_of_mem _ hport⟩

theorem mem_of_failed {tr : List (Select Stream).Event} {target : String} {e : ProxyError}
    (h : (target, .failed e) ∈ observations tr) : ⟨.getTargetStatus target, .error e⟩ ∈ tr := by
  induction tr using observations.induct with
  | case1 => cases h
  | case2 t e' tr ih =>
    simp only [observations, List.mem_cons, Prod.mk.injEq, Observation.failed.injEq] at h
    rcases h with ⟨rfl, rfl⟩ | h
    · exact List.mem_cons_self
    · exact List.mem_cons_of_mem _ (ih h)
  | case3 t tr ih | case4 t tr ih =>
    exact List.mem_cons_of_mem _ (ih (by simpa [observations] using h))
  | case5 t time reading tr ih =>
    simp only [observations, List.mem_cons, Prod.mk.injEq] at h
    rcases h with ⟨-, seen⟩ | h
    · split at seen <;> cases seen
    · exact List.mem_cons_of_mem _ (List.mem_cons_of_mem _ (ih h))
  | case6 e' tr _ _ _ _ ih =>
    exact List.mem_cons_of_mem _ (ih (by simpa [observations] using h))

/-- The targets some check observed as `o`, in order. -/
def targetsSeen (o : Observation) (obs : List (String × Observation)) : List String :=
  (obs.filter (·.2 = o)).map (·.1)

def AllTryNext (att : List (Attempted Stream)) : Prop := ∀ a ∈ att, a.2 = .tryNext

def NoFailure (obs : List (String × Observation)) : Prop := ∀ o ∈ obs, ∀ e, o.2 ≠ .failed e

/-- The events of one status check of `target`, by what it observed. -/
inductive Check (target : String) : Observation → List (Select Stream).Event → Prop
  | failed (e : ProxyError) : Check target (.failed e) [⟨.getTargetStatus target, .error e⟩]
  | drained : Check target .drained [⟨.getTargetStatus target, .ok .drain⟩]
  | cooling {time reading : Instant} : time > reading → Check target .cooling
      [⟨.getTargetStatus target, .ok (.alive (some time))⟩, ⟨.now, reading⟩]
  | alive : Check target .usable [⟨.getTargetStatus target, .ok (.alive none)⟩]
  | expired {time reading : Instant} : ¬ time > reading → Check target .usable
      [⟨.getTargetStatus target, .ok (.alive (some time))⟩, ⟨.now, reading⟩]

theorem Check.observations {target : String} {o : Observation} {check : List (Select Stream).Event}
    (h : Check target o check) (tr : List (Select Stream).Event) :
    observations (check ++ tr) = (target, o) :: observations tr := by
  cases h with
  | failed | drained | alive => rfl
  | cooling h | expired h => simp [RoundRobin.observations, h]

theorem Check.attempts {target : String} {o : Observation} {check : List (Select Stream).Event}
    (h : Check target o check) (tr : List (Select Stream).Event) :
    attempts (check ++ tr) = attempts tr := by
  cases h <;> rfl

/-! ## Executions of the passes -/

/-- The attempts stop at one that is not `TryNext`, which decides the result. -/
def Stopped (att : List (Attempted Stream)) (r : Connected Stream) : Prop :=
  ∃ before target, AllTryNext before ∧
    ((∃ s, att = before ++ [(target, .ready s)] ∧ r = .ok s) ∨
      ∃ e, att = before ++ [(target, .fatal e)] ∧ r = .error e)

def exhaustedError (forPort : UInt16) : ProxyError :=
  .connectionError forPort s!"Unable to connect to any backend for port {forPort}"

/-- The attempts of the second pass go through `cooling` until one stops, or through all
    of it. -/
def Retries (forPort : UInt16) (cooling : List String) (att : List (Attempted Stream))
    (r : Connected Stream) : Prop :=
  (Stopped att r ∧ att.map (·.1) <+: cooling) ∨
    (AllTryNext att ∧ att.map (·.1) = cooling ∧ r = .error (exhaustedError forPort))

theorem AllTryNext.append {att att' : List (Attempted Stream)} (h : AllTryNext att)
    (h' : AllTryNext att') : AllTryNext (att ++ att') := by
  intro a ha
  rcases List.mem_append.mp ha with ha | ha
  · exact h a ha
  · exact h' a ha

theorem AllTryNext.single (target : String) : AllTryNext [((target, .tryNext) : Attempted Stream)] := by
  simp [AllTryNext]

theorem Stopped.after {before att : List (Attempted Stream)} {r : Connected Stream}
    (skipped : AllTryNext before) (h : Stopped att r) : Stopped (before ++ att) r := by
  obtain ⟨first, target, hfirst, ends⟩ := h
  refine ⟨before ++ first, target, skipped.append hfirst, ?_⟩
  simpa only [List.append_assoc, List.append_cancel_left_eq] using ends

theorem secondPass_exec {forPort : UInt16} {cooling : List String}
    {tr : List (Select Stream).Event} {r : Connected Stream}
    (run : Exec (secondPass forPort cooling) tr r) :
    observations tr = [] ∧ Retries forPort cooling (attempts tr) r := by
  induction cooling generalizing tr with
  | nil =>
    obtain ⟨rfl, rfl⟩ := exec_ret.mp run
    exact ⟨rfl, .inr ⟨by simp [AllTryNext, attempts], rfl, rfl⟩⟩
  | cons target cooling ih =>
    obtain ⟨outcome, tail, rfl, cont⟩ := exec_ask.mp run
    cases outcome with
    | ready s =>
      obtain ⟨rfl, rfl⟩ := exec_ret.mp cont
      exact ⟨rfl, .inl ⟨⟨[], target, by simp [AllTryNext], .inl ⟨s, rfl, rfl⟩⟩,
        by simp [attempts]⟩⟩
    | fatal e =>
      obtain ⟨rfl, rfl⟩ := exec_ret.mp cont
      exact ⟨rfl, .inl ⟨⟨[], target, by simp [AllTryNext], .inr ⟨e, rfl, rfl⟩⟩,
        by simp [attempts]⟩⟩
    | tryNext =>
      obtain ⟨hobs, hret⟩ := ih cont
      refine ⟨hobs, ?_⟩
      rcases hret with ⟨hstop, hpre⟩ | ⟨hall, hmap, hr⟩
      · exact .inl ⟨hstop.after (.single target), by simpa [attempts] using hpre⟩
      · exact .inr ⟨(AllTryNext.single target).append hall, by simpa [attempts] using hmap, hr⟩

section FirstPass

variable {backends : List String} {nonempty : 0 < backends.length} {startIdx : Nat}
  {forPort : UInt16}

/-- One iteration of the first loop: the check, and what follows each observation. -/
theorem firstPass_exec_cons {i : Nat} {rest : List Nat} {cooling : List String}
    {tr : List (Select Stream).Event} {r : Connected Stream}
    (run : Exec (firstPass backends nonempty startIdx forPort (i :: rest) cooling) tr r) :
    ∃ target o check tail, backends[position startIdx i backends.length]? = some target ∧
      Check target o check ∧ tr = check ++ tail ∧
      match o with
      | .failed e => tail = [] ∧ r = .error e
      | .drained => Exec (firstPass backends nonempty startIdx forPort rest cooling) tail r
      | .cooling =>
        Exec (firstPass backends nonempty startIdx forPort rest (cooling ++ [target])) tail r
      | .usable => ∃ outcome after, tail = ⟨.connect target forPort, outcome⟩ :: after ∧
        match outcome with
        | .ready s => after = [] ∧ r = .ok s
        | .fatal e => after = [] ∧ r = .error e
        | .tryNext => Exec (firstPass backends nonempty startIdx forPort rest cooling) after r := by
  have bound : position startIdx i backends.length < backends.length := Nat.mod_lt _ nonempty
  refine ⟨backends.get ⟨_, bound⟩, ?_⟩
  generalize htarget : backends.get ⟨position startIdx i backends.length, bound⟩ = target
  have hget : backends[position startIdx i backends.length]? = some target := by
    rw [List.getElem?_eq_getElem bound, ← htarget]; rfl
  rw [firstPass_cons, htarget] at run
  -- The attempt on a usable target, shared by the two ways of being usable.
  have attempted : ∀ {tail : List (Select Stream).Event}, Exec
      (perform (I := Select Stream) (.connect target forPort) >>=
        resume (firstPass backends nonempty startIdx forPort rest cooling)) tail r →
      ∃ outcome after, tail = ⟨.connect target forPort, outcome⟩ :: after ∧
        match outcome with
        | .ready s => after = [] ∧ r = .ok s
        | .fatal e => after = [] ∧ r = .error e
        | .tryNext => Exec (firstPass backends nonempty startIdx forPort rest cooling) after r := by
    intro tail attempt
    obtain ⟨outcome, after, rfl, cont⟩ := exec_ask.mp attempt
    refine ⟨outcome, after, rfl, ?_⟩
    cases outcome with
    | ready s => obtain ⟨rfl, hr⟩ := exec_ret.mp cont; exact ⟨rfl, hr.symm⟩
    | fatal e => obtain ⟨rfl, hr⟩ := exec_ret.mp cont; exact ⟨rfl, hr.symm⟩
    | tryNext => exact cont
  obtain ⟨status, tail, rfl, cont⟩ := exec_ask.mp run
  rcases status with e | (time | _)
  · obtain ⟨rfl, rfl⟩ := exec_ret.mp cont
    exact ⟨_, _, [], hget, .failed e, rfl, rfl, rfl⟩
  · cases time with
    | none => exact ⟨_, _, tail, hget, .alive, rfl, attempted cont⟩
    | some time =>
      obtain ⟨reading, after, rfl, compared⟩ := exec_ask.mp cont
      change Exec (if time > reading then _ else _) after r at compared
      by_cases later : time > reading
      · rw [if_pos later] at compared
        exact ⟨_, _, after, hget, .cooling later, rfl, compared⟩
      · rw [if_neg later] at compared
        exact ⟨_, _, after, hget, .expired later, rfl, attempted compared⟩
  · exact ⟨_, _, tail, hget, .drained, rfl, cont⟩

/-- How an execution of the first pass over `n` positions ends. -/
inductive Ends (forPort : UInt16) (n : Nat) (cooling : List String)
    (first second : List (Select Stream).Event) (r : Connected Stream) : Prop
  | stopped : second = [] → NoFailure (observations first) → Stopped (attempts first) r →
      Ends forPort n cooling first second r
  | checkFailed (before : List (String × Observation)) (target : String) (e : ProxyError) :
      second = [] → AllTryNext (attempts first) →
      observations first = before ++ [(target, .failed e)] → NoFailure before → r = .error e →
      Ends forPort n cooling first second r
  | passed : (observations first).length = n → NoFailure (observations first) →
      AllTryNext (attempts first) →
      Retries forPort (cooling ++ targetsSeen .cooling (observations first)) (attempts second) r →
      Ends forPort n cooling first second r

/-- One more iteration in front, which attempted nothing or ended in `TryNext`. -/
theorem Ends.skip {n : Nat} {cooling : List String} {target : String} {o : Observation}
    (skipped : List (Attempted Stream)) {first first' second : List (Select Stream).Event}
    {r : Connected Stream} (hobs : observations first' = (target, o) :: observations first)
    (hatt : attempts first' = skipped ++ attempts first)
    (notFailed : ∀ e, o ≠ .failed e) (hskipped : AllTryNext skipped)
    (h : Ends forPort n (cooling ++ targetsSeen .cooling [(target, o)]) first second r) :
    Ends forPort (n + 1) cooling first' second r := by
  have noFailure : ∀ obs, NoFailure obs → NoFailure ((target, o) :: obs) := by
    intro obs hobs x hx
    rcases List.mem_cons.mp hx with rfl | hx
    · exact notFailed
    · exact hobs x hx
  have allTryNext : AllTryNext (attempts first) → AllTryNext (attempts first') := by
    intro hall a ha
    rw [hatt] at ha
    rcases List.mem_append.mp ha with ha | ha
    · exact hskipped a ha
    · exact hall a ha
  cases h with
  | stopped hs hf hstop =>
    refine .stopped hs (by rw [hobs]; exact noFailure _ hf) ?_
    obtain ⟨before, last, hbefore, hend⟩ := hstop
    refine ⟨skipped ++ before, last, ?_, ?_⟩
    · intro a ha
      rcases List.mem_append.mp ha with ha | ha
      · exact hskipped a ha
      · exact hbefore a ha
    · simpa only [hatt, List.append_assoc, List.append_cancel_left_eq] using hend
  | checkFailed before last e hs hall hlast hf hr =>
    exact .checkFailed ((target, o) :: before) last e hs (allTryNext hall)
      (by rw [hobs, hlast]; rfl) (noFailure _ hf) hr
  | passed hn hf hall hret =>
    refine .passed (by simp [hobs, hn]) (by rw [hobs]; exact noFailure _ hf) (allTryNext hall) ?_
    rw [hobs, ← List.singleton_append, targetsSeen, List.filter_append, List.map_append,
      ← List.append_assoc]
    exact hret

/-- The second pass goes through the targets found cooling, as far as it gets. -/
theorem Ends.retried {n : Nat} {cooling : List String} {first second : List (Select Stream).Event}
    {r : Connected Stream} (h : Ends forPort n cooling first second r) :
    (attempts second).map (·.1) <+: cooling ++ targetsSeen .cooling (observations first) := by
  cases h with
  | stopped none_left _ _ =>
    rw [none_left]
    exact List.nil_prefix
  | checkFailed _ _ _ none_left _ _ _ _ =>
    rw [none_left]
    exact List.nil_prefix
  | passed _ _ _ retries =>
    cases retries with
    | inl stopped => exact stopped.2
    | inr exhausted => exact exhausted.2.1 ▸ List.prefix_rfl

/-- The second pass begins when the first has gone over all its positions in vain. -/
theorem Ends.retriesLast {n : Nat} {cooling : List String} {first second : List (Select Stream).Event}
    {r : Connected Stream} (h : Ends forPort n cooling first second r) (retried : attempts second ≠ []) :
    (observations first).length = n ∧ AllTryNext (attempts first) := by
  cases h with
  | stopped none_left _ _ =>
    rw [none_left] at retried
    exact absurd rfl retried
  | checkFailed _ _ _ none_left _ _ _ _ =>
    rw [none_left] at retried
    exact absurd rfl retried
  | passed looked _ all_failed _ => exact ⟨looked, all_failed⟩

/-- An attempt stops the call, or all attempts fail and so does the call. -/
theorem Ends.stopped_or_failed {n : Nat} {cooling : List String}
    {first second : List (Select Stream).Event} {r : Connected Stream}
    (h : Ends forPort n cooling first second r) :
    Stopped (attempts (first ++ second)) r ∨
      (AllTryNext (attempts (first ++ second)) ∧ ∃ e, r = .error e) := by
  cases h with
  | stopped none_left _ stopped =>
    rw [none_left, List.append_nil]
    exact .inl stopped
  | checkFailed _ _ e none_left all_failed _ _ failed =>
    rw [none_left, List.append_nil]
    exact .inr ⟨all_failed, e, failed⟩
  | passed _ _ all_failed retries =>
    rw [attempts_append]
    cases retries with
    | inl stopped => exact .inl (stopped.1.after all_failed)
    | inr exhausted => exact .inr ⟨all_failed.append exhausted.1, _, exhausted.2.2⟩

/-- Every execution of the first pass splits into a part with all the checks and a part
    of retries.  The induction is on the remaining iterations, with the cooling targets
    collected so far. -/
theorem firstPass_exec {is : List Nat} {cooling : List String}
    {tr : List (Select Stream).Event} {r : Connected Stream}
    (run : Exec (firstPass backends nonempty startIdx forPort is cooling) tr r) :
    ∃ first second, tr = first ++ second ∧ observations second = [] ∧
      (observations first).map (some ·.1) <+:
        is.map (backends[position startIdx · backends.length]?) ∧
      (attempts first).map (·.1) = targetsSeen .usable (observations first) ∧
      Ends forPort is.length cooling first second r := by
  induction is generalizing cooling tr with
  | nil =>
    obtain ⟨hobs, hret⟩ := secondPass_exec run
    exact ⟨[], tr, rfl, hobs, by simp [observations], rfl,
      .passed rfl (by simp [NoFailure, observations]) (by simp [AllTryNext, attempts])
        (by simpa [targetsSeen, observations] using hret)⟩
  | cons i is ih =>
    obtain ⟨target, o, check, tail, hget, hcheck, rfl, hnext⟩ := firstPass_exec_cons run
    have hobs := hcheck.observations
    have hatt := hcheck.attempts
    cases o with
    | failed e =>
      obtain ⟨rfl, rfl⟩ := hnext
      have hobs := hobs []
      have hatt := hatt []
      rw [List.append_nil] at hobs hatt ⊢
      exact ⟨check, [], by simp, rfl, by simp [hobs, hget, observations],
        by simp [hobs, hatt, targetsSeen, observations, attempts],
        .checkFailed [] target e rfl (by simp [hatt, attempts, AllTryNext])
          (by simpa [observations] using hobs) (by simp [NoFailure]) rfl⟩
    | drained =>
      obtain ⟨first, second, rfl, hlate, hpre, hdirect, hends⟩ := ih hnext
      exact ⟨check ++ first, second, by simp, hlate, by simpa [hobs, hget] using hpre,
        by simpa [hobs, hatt, targetsSeen] using hdirect,
        .skip [] (hobs first) (hatt first) (by simp) (by simp [AllTryNext])
          (by simpa [targetsSeen] using hends)⟩
    | cooling =>
      obtain ⟨first, second, rfl, hlate, hpre, hdirect, hends⟩ := ih hnext
      exact ⟨check ++ first, second, by simp, hlate, by simpa [hobs, hget] using hpre,
        by simpa [hobs, hatt, targetsSeen] using hdirect,
        .skip [] (hobs first) (hatt first) (by simp) (by simp [AllTryNext])
          (by simpa [targetsSeen] using hends)⟩
    | usable =>
      obtain ⟨outcome, after, rfl, hnext⟩ := hnext
      have hobs := hobs (⟨.connect target forPort, outcome⟩ :: after)
      have hatt := hatt (⟨.connect target forPort, outcome⟩ :: after)
      cases outcome with
      | ready s =>
        obtain ⟨rfl, rfl⟩ := hnext
        exact ⟨_, [], by simp, rfl, by simp [hobs, hget, observations],
          by simp [hobs, hatt, targetsSeen, observations, attempts],
          .stopped rfl (by simp [hobs, NoFailure, observations])
            ⟨[], target, by simp [AllTryNext], .inl ⟨s, hatt, rfl⟩⟩⟩
      | fatal e =>
        obtain ⟨rfl, rfl⟩ := hnext
        exact ⟨_, [], by simp, rfl, by simp [hobs, hget, observations],
          by simp [hobs, hatt, targetsSeen, observations, attempts],
          .stopped rfl (by simp [hobs, NoFailure, observations])
            ⟨[], target, by simp [AllTryNext], .inr ⟨e, hatt, rfl⟩⟩⟩
      | tryNext =>
        obtain ⟨first, second, rfl, hlate, hpre, hdirect, hends⟩ := ih hnext
        have hobs := hcheck.observations (⟨.connect target forPort, .tryNext⟩ :: first)
        have hatt := hcheck.attempts (⟨.connect target forPort, .tryNext⟩ :: first)
        simp only [observations, attempts] at hobs hatt
        exact ⟨check ++ ⟨.connect target forPort, .tryNext⟩ :: first, second, by simp, hlate,
          by simpa [hobs, hget] using hpre, by simpa [hobs, hatt, targetsSeen] using hdirect,
          .skip [(target, .tryNext)] hobs hatt (by simp) (by simp [AllTryNext])
            (by simpa [targetsSeen] using hends)⟩

end FirstPass

/-- A call on a configured, non-empty pool draws a counter value first. -/
theorem connectBackend_exec {config : ProxyConfig} {forPort : UInt16} {pool : List String}
    {tr : List (Select Stream).Event} {r : Connected Stream}
    (hpool : config.getPool forPort = some pool) (nonempty : 0 < pool.length)
    (run : Exec (connectBackend config forPort) tr r) :
    ∃ drawn tail, tr = ⟨.fetchAdd forPort, drawn⟩ :: tail ∧
      match drawn with
      | some counter => Exec (firstPass pool nonempty (counter % pool.length) forPort
          (List.range pool.length) []) tail r
      | none => tail = [] ∧ r = .error (.proxyStateError
          s!"Failed to load round robin counter for port {forPort}") := by
  simp only [connectBackend, hpool, dif_pos nonempty] at run
  obtain ⟨drawn, tail, rfl, cont⟩ := exec_ask.mp run
  refine ⟨drawn, tail, rfl, ?_⟩
  cases drawn with
  | some counter => exact cont
  | none =>
    obtain ⟨rfl, hr⟩ := exec_ret.mp cont
    exact ⟨rfl, hr.symm⟩

end TcpProxy.RoundRobin
