import TcpProxy.Balancer.Draining
import TcpProxy.Balancer.History

/-! # Reports and drains racing

A report loads the status of its target, reads the clock and only then stores, so other
reports and drains may store in between.  What a store leaves behind is explained by the
operations its own task made before: the status it loaded, and the clock it read. -/

namespace TcpProxy

open Effects Effects.Program Effects.Pool Lts SimpleCooldownHandler

variable {w : Nat} {Stream : Type}

/-- Only reports and drains are started. -/
def HandlerCalls (ls : List (TaskLabel Stream)) : Prop :=
  ∀ i port, .spawn i (.connectBackend port) ∉ ls

theorem HandlerCalls.left {ls ms : List (TaskLabel Stream)} (h : HandlerCalls (ls ++ ms)) :
    HandlerCalls ls :=
  fun i port spawned => h i port (List.mem_append_left _ spawned)

/-! ## Inside a report -/

/-- A call that is about to store, with the operations it made before. -/
inductive AboutToStore (target : String) : Call → List (Stack Stream).Event → BackendStatus → Prop
  | drained : AboutToStore target (.drain target) [] .drain
  | cooled (coolUntil : Option Instant) (now later : Instant) :
      AboutToStore target (.reportConnectionAttempt target .failure)
        [⟨.load target, .ok (.alive coolUntil)⟩, ⟨.now, now⟩, ⟨.now, later⟩]
        (.alive (some (later + COOLDOWN)))
  | cleared {u now : Instant} : u > now →
      AboutToStore target (.reportConnectionAttempt target .success)
        [⟨.load target, .ok (.alive (some u))⟩, ⟨.now, now⟩] (.alive none)

/-- An alive status is stored by a report that loaded one. -/
theorem AboutToStore.loaded {target : String} {call : Call} {tr : List (Stack Stream).Event}
    {coolUntil : Option Instant} (about : AboutToStore target call tr (.alive coolUntil)) :
    ∃ result loaded, call = .reportConnectionAttempt target result ∧
      ⟨.load target, .ok (.alive loaded)⟩ ∈ tr := by
  cases about with
  | cooled loaded now later => exact ⟨.failure, loaded, rfl, List.mem_cons_self⟩
  | @cleared u now running => exact ⟨.success, some u, rfl, List.mem_cons_self⟩

/-- An unfinished report has done nothing yet, or it has loaded an alive status. -/
theorem report_running {target : String} {result : ConnectResult} {tr : List (Stack Stream).Event}
    {op : StackOp} {next : (Stack Stream).Ans op → Program (Stack Stream) (Except ProxyError Unit)}
    (run : Steps (reportConnectionAttempt target result) tr (.ask op next)) :
    (tr = [] ∧ op = .load target) ∨
      ∃ coolUntil rest, tr = ⟨.load target, .ok (.alive coolUntil)⟩ :: rest := by
  cases steps_ask run with
  | inl unpolled =>
    obtain ⟨rfl, same⟩ := unpolled
    cases same
    exact .inl ⟨rfl, rfl⟩
  | inr loaded =>
    obtain ⟨status, tail, rfl, cont⟩ := loaded
    right
    cases status with
    | error e => cases cont
    | ok status =>
      cases status with
      | drain => cases cont
      | alive coolUntil => exact ⟨coolUntil, tail, rfl⟩

theorem report_stores {target x : String} {result : ConnectResult} {status : BackendStatus}
    {tr : List (Stack Stream).Event}
    {next : Except ProxyError Unit → Program (Stack Stream) (Except ProxyError Unit)}
    (run : Steps (reportConnectionAttempt x result) tr (.ask (.store target status) next)) :
    AboutToStore target (.reportConnectionAttempt x result) tr status := by
  -- The last operation of a report: the store itself, with nothing in between.
  have storing : ∀ {s : BackendStatus} {rest : List (Stack Stream).Event},
      Steps (perform (I := Stack Stream) (.store x s)) rest (.ask (.store target status) next) →
      rest = [] ∧ x = target ∧ s = status := by
    intro s rest last
    cases steps_ask last with
    | inl stores =>
      obtain ⟨rfl, same⟩ := stores
      cases same
      exact ⟨rfl, rfl, rfl⟩
    | inr past =>
      obtain ⟨a, tail, -, done⟩ := past
      cases done
  -- A report that is about to store has loaded, read the clock and compared.
  obtain ⟨loaded, afterLoad, rfl, compared⟩ := (steps_ask run).resolve_left (by simp)
  cases loaded with
  | error e => cases compared
  | ok loaded =>
    cases loaded with
    | drain => cases compared
    | alive coolUntil =>
      obtain ⟨now, afterNow, rfl, branch⟩ := (steps_ask compared).resolve_left (by simp)
      cases result with
      | failure =>
        obtain ⟨later, afterLater, rfl, last⟩ := (steps_ask branch).resolve_left (by simp)
        obtain ⟨rfl, rfl, rfl⟩ := storing last
        exact .cooled coolUntil now later
      | success =>
        cases coolUntil with
        -- A success without a cooldown has nothing to clear.
        | none =>
          change Steps (.ret _) afterNow _ at branch
          cases branch
        | some u =>
          change Steps (if u > now then _ else _) afterNow _ at branch
          by_cases running : u > now
          · rw [if_pos running] at branch
            obtain ⟨rfl, rfl, rfl⟩ := storing branch
            exact .cleared running
          · rw [if_neg running] at branch
            cases branch

theorem call_stores {config : ProxyConfig} {call : Call} {target : String} {status : BackendStatus}
    {tr : List (Stack Stream).Event}
    {next : Except ProxyError Unit → Program (Stack Stream) (CallResult Stream)}
    (handler : ∀ port, call ≠ .connectBackend port)
    (run : Steps (call.body config) tr (.ask (.store target status) next)) :
    AboutToStore target call tr status := by
  cases call with
  | connectBackend port => exact absurd rfl (handler port)
  | reportConnectionAttempt x result =>
    cases steps_bind (p := reportConnectionAttempt x result) run with
    | inl inside =>
      obtain ⟨op, later, steps, same⟩ := inside
      cases same
      exact report_stores steps
    | inr past =>
      obtain ⟨a, front, back, -, -, done⟩ := past
      cases done
  | drain x =>
    cases steps_ask run with
    | inl stores =>
      obtain ⟨rfl, same⟩ := stores
      cases same
      exact .drained
    | inr past =>
      obtain ⟨a, tail, -, done⟩ := past
      cases done

/-! ## The order of loads and stores -/

section Order

variable {config : ProxyConfig} {s : Store w} {ls : List (TaskLabel Stream)} {c c' : Tasks w Stream}
  {t : String}

/-- A status changes by the store of a task only. -/
theorem status_step {l : TaskLabel Stream} (step : Tasks.Step config c l c') (t : String) :
    c'.store.targets.targetStatus t = c.store.targets.targetStatus t ∨
      ∃ i status a, l = .act i ⟨.store t status, a⟩ ∧ c'.store.targets.targetStatus t = some status := by
  cases step with
  | spawn free => exact .inl rfl
  | @act i op next a u running answered =>
    cases op with
    | lookupHost | connectAddr => cases answered; exact .inl rfl
    | fetchAdd | load | now => rw [answered.2]; exact .inl rfl
    | store target status =>
      rw [answered.2]
      show (c.store.targets.updateTargetStatus target status).1.targetStatus t = _ ∨ _
      rw [TargetState.updateTargetStatus_status]
      by_cases stored : t = target ∧ (c.store.targets.targetStatus target).isSome
      · rw [stored.1]
        exact .inr ⟨i, status, a, rfl, by simp [stored.2]⟩
      · rw [if_neg stored]
        exact .inl rfl

/-- A task about to store is a report or a drain of that target. -/
theorem task_stores (run : Run (Tasks.Step config) (.idle s) ls c) (handlers : HandlerCalls ls)
    {i : Nat} {status : BackendStatus}
    {next : Except ProxyError Unit → Program (Stack Stream) (CallResult Stream)}
    (running : c.threads i = some (.ask (.store t status) next)) :
    ∃ call, .spawn i call ∈ ls ∧ AboutToStore t call (traceOf i ls) status := by
  obtain ⟨call, spawned, steps⟩ := spawned_steps run rfl running
  refine ⟨call, spawned, call_stores (fun port same => ?_) steps⟩
  subst same
  exact handlers i port spawned

theorem store_step (run : Run (Tasks.Step config) (.idle s) ls c) (handlers : HandlerCalls ls)
    {i : Nat} {status : BackendStatus} {a : Except ProxyError Unit}
    (step : Tasks.Step config c (.act i ⟨.store t status, a⟩) c') :
    ∃ call, .spawn i call ∈ ls ∧ AboutToStore t call (traceOf i ls) status := by
  cases step with
  | act running answered => exact task_stores run handlers running

theorem drain_spawned (run : Run (Tasks.Step config) (.idle s) ls c) (handlers : HandlerCalls ls)
    {i : Nat} {a : Except ProxyError Unit} (stored : .act i ⟨.store t .drain, a⟩ ∈ ls) :
    .spawn i (.drain t) ∈ ls := by
  obtain ⟨pre, post, u, v, rfl, before, step, -⟩ := run.mem_step stored
  obtain ⟨call, spawned, about⟩ := store_step before handlers.left step
  generalize traceOf i pre = tr at about
  cases about
  exact List.mem_append_left _ spawned

/-- Between a moment when `t` is alive and one when it is drained lies a last drain of it. -/
theorem exists_last_drain (run : Run (Tasks.Step config) c ls c') {loaded : Option Instant}
    (alive : c.store.targets.targetStatus t = some (.alive loaded))
    (drained : c'.store.targets.targetStatus t = some .drain) :
    ∃ before j a after, ls = before ++ .act j ⟨.store t .drain, a⟩ :: after ∧
      ∀ k b, .act k ⟨.store t .drain, b⟩ ∉ after := by
  have history := run.history
    (fun done u => (∃ coolUntil, u.store.targets.targetStatus t = some (.alive coolUntil)) ∨
      ∃ before j a after, done = before ++ .act j ⟨.store t .drain, a⟩ :: after ∧
        ∀ k b, .act k ⟨.store t .drain, b⟩ ∉ after)
    (.inl ⟨loaded, alive⟩) ?_
  · cases history with
    | inl still =>
      obtain ⟨coolUntil, still⟩ := still
      rw [drained] at still
      cases still
    | inr last => exact last
  · intro done u l v earlier step
    -- A drain in the last step is itself the last one.
    by_cases drains : ∃ j a, l = .act j ⟨.store t .drain, a⟩
    · obtain ⟨j, a, rfl⟩ := drains
      exact .inr ⟨done, j, a, [], rfl, by simp⟩
    cases earlier with
    | inl still =>
      -- Without a drain the status stays alive: reports store nothing else.
      obtain ⟨coolUntil, still⟩ := still
      left
      cases status_step step t with
      | inl same => exact ⟨coolUntil, by rw [same, still]⟩
      | inr stored =>
        obtain ⟨i, status, a, rfl, stored⟩ := stored
        cases status with
        | drain => exact absurd ⟨i, a, rfl⟩ drains
        | alive fresh => exact ⟨fresh, stored⟩
    | inr last =>
      obtain ⟨before, j, a, after, rfl, none_later⟩ := last
      refine .inr ⟨before, j, a, after ++ [l], by simp, fun k b member => ?_⟩
      cases List.mem_append.mp member with
      | inl early => exact none_later k b early
      | inr last => exact drains ⟨k, b, (List.mem_singleton.mp last).symm⟩

end Order

/-! ## Losing a drain -/

section Lost

variable {config : ProxyConfig} {s : Store w} {ls : List (TaskLabel Stream)} {c : Tasks w Stream}
  {t : String}

/-- The task is in the middle of a report on `t` that loaded an alive status. -/
def HoldsAlive (t : String) (ls : List (TaskLabel Stream)) (c : Tasks w Stream) (i : Nat) : Prop :=
  ∃ result coolUntil op next, .spawn i (.reportConnectionAttempt t result) ∈ ls ∧
    .act i ⟨.load t, .ok (.alive coolUntil)⟩ ∈ ls ∧ c.threads i = some (.ask op next)

/-- The operation does not take `t` out of its drain. -/
def KeepsDrain (t : String) : StackOp → Prop
  | .store target (.alive _) => target ≠ t
  | _ => True

/-- While `t` is drained, the call stores no alive status on it. -/
abbrev Respects {α : Type} (t : String) (p : Program (Stack Stream) α) : Prop :=
  Safe (KeepsDrain t) (LoadsDrained t) (fun _ => True) p

theorem uses_report_of_ne {target : String} {result : ConnectResult} (other : target ≠ t) :
    Uses (KeepsDrain t) (reportConnectionAttempt target result : Program (Stack Stream) _) := by
  apply uses_reportConnectionAttempt trivial trivial
  intro status
  cases status with
  | alive coolUntil => exact other
  | drain => trivial

theorem uses_drain (target : String) :
    Uses (KeepsDrain t) (Call.body config (.drain target) : Program (Stack Stream) _) :=
  ⟨trivial, fun _ => trivial⟩

theorem respects_body {call : Call} (handler : ∀ port, call ≠ .connectBackend port) :
    Respects t (call.body config : Program (Stack Stream) _) := by
  cases call with
  | connectBackend port => exact absurd rfl (handler port)
  | drain target => exact (uses_drain target).safe
  | reportConnectionAttempt target result =>
    have report : Respects t (reportConnectionAttempt target result : Program (Stack Stream) _) := by
      by_cases other : target = t
      · subst other
        -- The drained status it loads ends the report.
        refine ⟨trivial, fun loaded drained => ?_⟩
        rw [drained rfl]
        trivial
      · exact (uses_report_of_ne other).safe
    exact safe_bind report fun _ _ => trivial

/-- A task that holds no alive status of `t` stores none while `t` is drained. -/
theorem respects_thread (run : Run (Tasks.Step config) (.idle s) ls c) (handlers : HandlerCalls ls)
    {i : Nat} {q : Program (Stack Stream) (CallResult Stream)} (running : c.threads i = some q)
    (free : ¬ HoldsAlive t ls c i) : Respects t q := by
  obtain ⟨call, spawned, steps⟩ := spawned_steps run rfl running
  cases call with
  | connectBackend port => exact absurd spawned (handlers i port)
  | drain target => exact (uses_steps steps (uses_drain target)).safe
  | reportConnectionAttempt target result =>
    by_cases other : target = t
    · subst other
      cases steps_bind (p := reportConnectionAttempt target result) steps with
      | inl inside =>
        obtain ⟨op, next, reporting, rfl⟩ := inside
        cases report_running reporting with
        -- It will load the drained status itself.
        | inl unpolled =>
          rw [unpolled.1] at steps
          rw [← steps.nil_eq]
          exact respects_body (by simp)
        | inr loaded =>
          -- With an alive status loaded it would be one of the tasks excluded here.
          obtain ⟨coolUntil, rest, htrace⟩ := loaded
          refine absurd ⟨result, coolUntil, op, _, spawned, ?_, running⟩ free
          apply mem_traceOf.mp
          rw [htrace]
          exact List.mem_cons_self
      | inr past =>
        obtain ⟨a, front, back, -, -, done⟩ := past
        cases done
        trivial
    · have uses : Uses (KeepsDrain t)
          (Call.body config (.reportConnectionAttempt target result) : Program (Stack Stream) _) :=
        uses_bind (uses_report_of_ne other) fun _ => trivial
      exact (uses_steps steps uses).safe

theorem drained_store {u v : Store w} {e : (Stack Stream).Event}
    (drained : u.targets.targetStatus t = some .drain) (keeps : KeepsDrain t e.op)
    (answered : u.Answers e v) : v.targets.targetStatus t = some .drain := by
  obtain ⟨op, a⟩ := e
  cases op with
  | lookupHost | connectAddr => cases answered; exact drained
  | fetchAdd | load | now => rw [answered.2]; exact drained
  | store target status =>
    rw [answered.2]
    show (u.targets.updateTargetStatus target status).1.targetStatus t = some .drain
    by_cases same : t = target
    · subst same
      cases status with
      | alive coolUntil => exact absurd rfl keeps
      | drain =>
        apply (TargetState.updateTargetStatus_eq _).1
        rw [drained]
        rfl
    · rw [TargetState.updateTargetStatus_ne same, drained]

theorem loadsDrained_of_answers {u v : Store w} {e : (Stack Stream).Event}
    (drained : u.targets.targetStatus t = some .drain) (answered : u.Answers e v) :
    LoadsDrained t e := by
  obtain ⟨op, a⟩ := e
  cases op with
  | load target =>
    rintro rfl
    rw [answered.1, TargetState.getTargetStatus_of_some drained]
  | fetchAdd | store | now | lookupHost | connectAddr => trivial

/-- A drain is lost only to a report in flight: the store that makes a drained target alive
    again is that of a report on it which loaded the status before the latest drain stored.
    So once `t` is drained and no unfinished report on it holds an alive status it loaded,
    `t` stays drained. -/
theorem drain_lost_to_report_in_flight (run : Run (Tasks.Step config) (.idle s) ls c)
    (handlers : HandlerCalls ls) (t : String) :
    (∀ l c' coolUntil, Tasks.Step config c l c' → c.store.targets.targetStatus t = some .drain →
      c'.store.targets.targetStatus t = some (.alive coolUntil) →
      ∃ i result a loaded before between j b after,
        l = .act i ⟨.store t (.alive coolUntil), a⟩ ∧
        .spawn i (.reportConnectionAttempt t result) ∈ ls ∧ .spawn j (.drain t) ∈ ls ∧
        ls = before ++ .act i ⟨.load t, .ok (.alive loaded)⟩ :: between ++
          .act j ⟨.store t .drain, b⟩ :: after ∧
        ∀ k b', .act k ⟨.store t .drain, b'⟩ ∉ after) ∧
    (c.store.targets.targetStatus t = some .drain → (∀ i, ¬ HoldsAlive t ls c i) →
      ∀ ms c', Run (Tasks.Step config) c ms c' → HandlerCalls ms →
        c'.store.targets.targetStatus t = some .drain) := by
  constructor
  · intro l c' coolUntil step drained alive
    obtain ⟨i, status, a, rfl, stored⟩ :=
      (status_step step t).resolve_left fun same => by rw [same, drained] at alive; cases alive
    rw [alive] at stored
    cases stored
    obtain ⟨call, spawned, about⟩ := store_step run handlers step
    obtain ⟨result, loaded, rfl, member⟩ := about.loaded
    obtain ⟨before, rest, u, v, rfl, first, load, second⟩ := run.mem_step (mem_traceOf.mp member)
    -- The status was alive at the load and is drained now.
    have aliveThen : v.store.targets.targetStatus t = some (.alive loaded) := by
      cases load with
      | act _ answered => rw [answered.2]; exact status_of_ok answered.1
    obtain ⟨between, j, b, after, rfl, none_later⟩ := exists_last_drain second aliveThen drained
    refine ⟨i, result, a, loaded, before, between, j, b, after, rfl, spawned, ?_, ?_, none_later⟩
    · have stored : .act j ⟨.store t .drain, b⟩ ∈ between ++ .act j ⟨.store t .drain, b⟩ :: after :=
        List.mem_append_right _ List.mem_cons_self
      exact drain_spawned run handlers (List.mem_append_right _ (List.mem_cons_of_mem _ stored))
    · simp
  · intro drained free ms c' later handlers'
    have bodies : ∀ i (call : Call), .spawn i call ∈ ms →
        Respects t (call.body config : Program (Stack Stream) _) := by
      intro i call spawned
      apply respects_body
      rintro port rfl
      exact handlers' i port spawned
    have threads : ∀ i q, c.threads i = some q → Respects t q :=
      fun i q running => respects_thread run handlers running (free i)
    exact safe_invariant (fun u => u.targets.targetStatus t = some .drain) loadsDrained_of_answers
      drained_store bodies threads drained later

end Lost

/-! A success report on `a:1`, which was cooling when it loaded the status, stores after a drain. -/

def staleReport : List (TaskLabel Unit) :=
  [.spawn 0 (.reportConnectionAttempt "a:1" .success), .act 0 ⟨.load "a:1", .ok (.alive (some 100))⟩,
    .act 0 ⟨.now, 1⟩, .spawn 1 (.drain "a:1"), .act 1 ⟨.store "a:1" .drain, .ok ()⟩]

theorem staleReport_loses_drain : ∃ c c' : Tasks 64 Unit,
    Run (Tasks.Step RoundRobin.twoBackends) (.idle coolingStore) staleReport c ∧
    Tasks.Step RoundRobin.twoBackends c (.act 0 ⟨.store "a:1" (.alive none), .ok ()⟩) c' ∧
    c.store.targets.targetStatus "a:1" = some .drain ∧
    c'.store.targets.targetStatus "a:1" = some (.alive none) ∧
    ∃ i loaded before between j b after,
      staleReport = before ++ .act i ⟨.load "a:1", .ok (.alive loaded)⟩ :: between ++
        .act j ⟨.store "a:1" .drain, b⟩ :: after := by
  obtain ⟨c, c', run, step, drained, alive⟩ : ∃ c c' : Tasks 64 Unit,
      Run (Tasks.Step RoundRobin.twoBackends) (.idle coolingStore) staleReport c ∧
      Tasks.Step RoundRobin.twoBackends c (.act 0 ⟨.store "a:1" (.alive none), .ok ()⟩) c' ∧
      c.store.targets.targetStatus "a:1" = some .drain ∧
      c'.store.targets.targetStatus "a:1" = some (.alive none) :=
    ⟨_, _, .cons (.spawn rfl) (.cons (.act rfl ⟨rfl, rfl⟩) (.cons (.act rfl ⟨Nat.zero_le 1, rfl⟩)
      (.cons (.spawn rfl) (.cons (.act rfl ⟨rfl, rfl⟩) (.nil _))))), .act rfl ⟨rfl, rfl⟩, rfl, rfl⟩
  have handlers : HandlerCalls staleReport := by
    intro i port
    simp [staleReport]
  obtain ⟨i, result, a, loaded, before, between, j, b, after, -, -, -, split, -⟩ :=
    (drain_lost_to_report_in_flight run handlers "a:1").1 _ c' none step drained alive
  exact ⟨c, c', run, step, drained, alive, i, loaded, before, between, j, b, after, split⟩

/-! ## Where a cooldown comes from -/

section Justified

variable {config : ProxyConfig} {s : Store w} {ls : List (TaskLabel Stream)} {c c' : Tasks w Stream}
  {t : String}

/-- A failure report on `t` read the clock at `reading`. -/
def FailureRead (t : String) (ls : List (TaskLabel Stream)) (reading : Instant) : Prop :=
  ∃ i, .spawn i (.reportConnectionAttempt t .failure) ∈ ls ∧ .act i ⟨.now, reading⟩ ∈ ls

/-- A cooldown is stored by a failure report that read the clock `COOLDOWN` before its end. -/
theorem AboutToStore.counted {target : String} {call : Call} {tr : List (Stack Stream).Event}
    {u : Instant} (about : AboutToStore target call tr (.alive (some u))) :
    ∃ reading, u = reading + COOLDOWN ∧ call = .reportConnectionAttempt target .failure ∧
      ⟨.now, reading⟩ ∈ tr := by
  cases about with
  | cooled loaded now later => exact ⟨later, rfl, rfl, by simp⟩

theorem clock_step {l : TaskLabel Stream} (step : Tasks.Step config c l c') :
    c.store.clock ≤ c'.store.clock := by
  cases step with
  | spawn free => exact Nat.le_refl _
  | act running answered => exact clock_mono (.single answered)

/-- The clock is at or after every reading so far. -/
theorem readings_past (run : Run (Tasks.Step config) (.idle s) ls c) :
    ∀ i reading, .act i ⟨.now, reading⟩ ∈ ls → reading ≤ c.store.clock := by
  apply run.history fun done u => ∀ i reading, .act i ⟨.now, reading⟩ ∈ done → reading ≤ u.store.clock
  · simp
  · intro done u l v earlier step i reading member
    cases List.mem_append.mp member with
    | inl early => exact (earlier i reading early).trans (clock_step step)
    | inr last =>
      cases List.mem_singleton.mp last
      cases step with
      | act running answered => rw [answered.2]

theorem stored_cooldown (run : Run (Tasks.Step config) (.idle s) ls c) (handlers : HandlerCalls ls)
    (fresh : ∀ t status, s.targets.targetStatus t = some status → status = .alive none) :
    ∀ u, c.store.targets.targetStatus t = some (.alive (some u)) →
      ∃ reading, FailureRead t ls reading ∧ u = reading + COOLDOWN := by
  have history := run.history (fun done v => Run (Tasks.Step config) (.idle s) done v ∧
      (HandlerCalls done → ∀ u, v.store.targets.targetStatus t = some (.alive (some u)) →
        ∃ reading, FailureRead t done reading ∧ u = reading + COOLDOWN)) ⟨.nil _, ?_⟩ ?_
  · exact history.2 handlers
  · intro _ u stored
    cases fresh t _ stored
  · intro done x l v earlier step
    refine ⟨earlier.1.append (.single step), fun handlers u stored => ?_⟩
    cases status_step step t with
    | inl same =>
      rw [same] at stored
      obtain ⟨reading, ⟨i, spawned, read⟩, counted⟩ := earlier.2 handlers.left u stored
      exact ⟨reading, ⟨i, List.mem_append_left _ spawned, List.mem_append_left _ read⟩, counted⟩
    | inr changed =>
      obtain ⟨i, status, a, rfl, stored'⟩ := changed
      rw [stored] at stored'
      cases stored'
      -- The reading was made by the storing task itself, whatever happened since.
      obtain ⟨call, spawned, about⟩ := store_step earlier.1 handlers.left step
      obtain ⟨reading, counted, rfl, read⟩ := about.counted
      exact ⟨reading, ⟨i, List.mem_append_left _ spawned,
        List.mem_append_left _ (mem_traceOf.mp read)⟩, counted⟩

/-- Under any interleaving of reports and drains, a stored cooldown ends exactly `COOLDOWN`
    after a clock reading of a failure report on that very target, so a target is cooling
    only within `COOLDOWN` of one. -/
theorem cooldown_from_failure (run : Run (Tasks.Step config) (.idle s) ls c)
    (handlers : HandlerCalls ls)
    (fresh : ∀ t status, s.targets.targetStatus t = some status → status = .alive none) (t : String) :
    (∀ u, c.store.targets.targetStatus t = some (.alive (some u)) →
      ∃ reading, FailureRead t ls reading ∧ u = reading + COOLDOWN ∧ reading ≤ c.store.clock) ∧
    ∀ T, c.store.clock ≤ T → Cooling c.store t T →
      ∃ reading, FailureRead t ls reading ∧ reading ≤ T ∧ T < reading + COOLDOWN := by
  have justified : ∀ u, c.store.targets.targetStatus t = some (.alive (some u)) →
      ∃ reading, FailureRead t ls reading ∧ u = reading + COOLDOWN ∧ reading ≤ c.store.clock := by
    intro u stored
    obtain ⟨reading, ⟨i, spawned, reads⟩, counted⟩ := stored_cooldown run handlers fresh u stored
    exact ⟨reading, ⟨i, spawned, reads⟩, counted, readings_past run i reading reads⟩
  refine ⟨justified, fun T later cooling => ?_⟩
  obtain ⟨u, stored, running⟩ := cooling
  obtain ⟨reading, made, rfl, past⟩ := justified u stored
  exact ⟨reading, made, past.trans later, running⟩

end Justified

/-! A failure report on `a:1` stores after a whole success report has come and gone. -/

def delayedFailure : List (TaskLabel Unit) :=
  [.spawn 0 (.reportConnectionAttempt "a:1" .failure), .act 0 ⟨.load "a:1", .ok (.alive none)⟩,
    .act 0 ⟨.now, 1⟩, .act 0 ⟨.now, 2⟩, .spawn 1 (.reportConnectionAttempt "a:1" .success),
    .act 1 ⟨.load "a:1", .ok (.alive none)⟩, .act 1 ⟨.now, 50⟩,
    .act 0 ⟨.store "a:1" (.alive (some (2 + COOLDOWN))), .ok ()⟩]

theorem delayedFailure_counted : ∃ c : Tasks 64 Unit,
    Run (Tasks.Step oneAppConfig) (.idle (.new oneAppConfig oneAppTargets 0)) delayedFailure c ∧
    Cooling c.store "a:1" 60 ∧
    ∃ reading, FailureRead "a:1" delayedFailure reading ∧ reading ≤ 60 ∧ 60 < reading + COOLDOWN := by
  obtain ⟨c, run, clock, stored⟩ : ∃ c : Tasks 64 Unit,
      Run (Tasks.Step oneAppConfig) (.idle (.new oneAppConfig oneAppTargets 0)) delayedFailure c ∧
      c.store.clock = 50 ∧ c.store.targets.targetStatus "a:1" = some (.alive (some (2 + COOLDOWN))) :=
    ⟨_, .cons (.spawn rfl) (.cons (.act rfl ⟨rfl, rfl⟩) (.cons (.act rfl ⟨Nat.zero_le 1, rfl⟩)
      (.cons (.act rfl ⟨Nat.le_succ 1, rfl⟩) (.cons (.spawn rfl) (.cons (.act rfl ⟨rfl, rfl⟩)
        (.cons (.act rfl ⟨Nat.le_add_right 2 48, rfl⟩) (.cons (.act rfl ⟨rfl, rfl⟩) (.nil _)))))))),
      rfl, rfl⟩
  have handlers : HandlerCalls delayedFailure := by
    intro i port
    simp [delayedFailure]
  have fresh : ∀ t status, oneAppTargets.targetStatus t = some status → status = .alive none := by
    intro t status stored
    by_cases known : t = "a:1"
    · simp [oneAppTargets, known] at stored
      exact stored.symm
    · simp [oneAppTargets, known] at stored
  have cooling : Cooling c.store "a:1" 60 := ⟨_, stored, by decide⟩
  exact ⟨c, run, cooling, (cooldown_from_failure run handlers fresh "a:1").2 60
    (by rw [clock]; decide) cooling⟩

end TcpProxy
