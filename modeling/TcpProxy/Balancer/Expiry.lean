import TcpProxy.Balancer.Concurrent
import TcpProxy.Balancer.History
import TcpProxy.Lib.Simulation

/-! # Expired cooldowns

A cooldown is never cleared when it runs out: the status check and the report each compare
it with a clock reading of their own.  Both comparisons treat an instant that is not in the
future like no cooldown at all, so a store with expired cooldowns and one without them are
alike for every call, now and later. -/

namespace TcpProxy

open Effects Effects.Program Effects.Pool Lts RoundRobin SimpleCooldownHandler

variable {w : Nat} {Stream : Type} {since : Instant}

/-! ## Programs do not tell the difference -/

/-- The two answers of a status load are the same, or a cooldown that was over at `since`
    stands against none. -/
inductive Unchanged (since : Instant) :
    Except ProxyError BackendStatus → Except ProxyError BackendStatus → Prop
  | same (a : Except ProxyError BackendStatus) : Unchanged since a a
  | expired {u : Instant} : u ≤ since → Unchanged since (.ok (.alive (some u))) (.ok (.alive none))

/-- The clock reading of a status check falls away when there is no cooldown to compare. -/
def selectTolerance (Stream : Type) (since : Instant) : Tolerance (Select Stream) where
  expected
    | ⟨.now, reading⟩ => since ≤ reading
    | _ => True
  twin
    | .getTargetStatus _ => Unchanged since
    | _ => Eq
  silent op := op = .now

def balancerTolerance (Stream : Type) (since : Instant) : Tolerance (Balancer Stream) where
  expected
    | ⟨.now, reading⟩ => since ≤ reading
    | _ => True
  twin
    | .getTargetStatus _ => Unchanged since
    | _ => Eq
  silent _ := False

def stackTolerance (Stream : Type) (since : Instant) : Tolerance (Stack Stream) where
  expected
    | ⟨.now, reading⟩ => since ≤ reading
    | _ => True
  twin
    | .load _ => Unchanged since
    | _ => Eq
  silent op := op = .now

theorem similar_firstPass {pool : List String} {nonempty : 0 < pool.length} {start : Nat}
    {port : UInt16} {is : List Nat} {cooling : List String} :
    Similar (selectTolerance Stream since) Eq (firstPass pool nonempty start port is cooling)
      (firstPass pool nonempty start port is cooling) := by
  induction is generalizing cooling with
  | nil =>
    apply similar_self
    apply uses_secondPass
    intro target _ a b same
    exact same
  | cons i is ih =>
    rw [firstPass_cons]
    generalize pool.get _ = target
    have attempted : Similar (selectTolerance Stream since) Eq
        (perform (I := Select Stream) (.connect target port) >>=
          resume (firstPass pool nonempty start port is cooling))
        (perform (I := Select Stream) (.connect target port) >>=
          resume (firstPass pool nonempty start port is cooling)) := by
      apply Similar.ask
      intro out out' _ same
      cases same
      cases out with
      | tryNext => exact ih
      | ready | fatal => exact .ret rfl
    apply Similar.ask
    intro a b _ twins
    -- Twin loads are equal, or the left one found a cooldown that was over at `since`.
    cases twins with
    | same =>
      cases a with
      | error e => exact .ret rfl
      | ok status =>
        cases status with
        | drain => exact ih
        | alive coolUntil =>
          cases coolUntil with
          | none => exact attempted
          | some time =>
            apply Similar.ask
            intro reading reading' _ same
            cases same
            show Similar _ _ (if time > reading then _ else _) (if time > reading then _ else _)
            split
            · exact ih
            · exact attempted
    | @expired u past =>
      -- The left side reads the clock, finds the cooldown over and attempts the target, too.
      refine .skip rfl ?_ fun reading later => ?_
      · trivial
      · show Similar _ _ (if u > reading then _ else _) _
        rw [if_neg (Nat.not_lt.mpr (Nat.le_trans past later))]
        exact attempted

theorem similar_connectBackend (config : ProxyConfig) (port : UInt16) :
    Similar (selectTolerance Stream since) Eq (connectBackend config port)
      (connectBackend config port) := by
  unfold connectBackend
  split
  · exact .ret rfl
  · split
    · apply Similar.ask
      intro drawn drawn' _ same
      cases same
      cases drawn with
      | none => exact .ret rfl
      | some k => exact similar_firstPass
    · exact .ret rfl

theorem similar_store (target : String) (status : BackendStatus) :
    Similar (stackTolerance Stream since) Eq (perform (I := Stack Stream) (.store target status))
      (perform (I := Stack Stream) (.store target status)) :=
  .ask fun _ _ _ same => .ret same

theorem similar_report (target : String) (result : ConnectResult) :
    Similar (stackTolerance Stream since) Eq (reportConnectionAttempt target result)
      (reportConnectionAttempt target result) := by
  apply Similar.ask
  intro a b _ twins
  cases twins with
  | same =>
    cases a with
    | error e => exact .ret rfl
    | ok status =>
      cases status with
      | drain => exact .ret rfl
      | alive coolUntil =>
        apply Similar.ask
        intro now now' _ same
        cases same
        cases result with
        | failure =>
          apply Similar.ask
          intro later later' _ same
          cases same
          exact similar_store target _
        | success =>
          cases coolUntil with
          | none => exact .ret rfl
          | some u =>
            show Similar _ _ (if u > now then _ else _) (if u > now then _ else _)
            split
            · exact similar_store target _
            · exact .ret rfl
  | @expired u past =>
    apply Similar.ask
    intro now now' since_now same
    cases same
    cases result with
    -- A failure stores the same new cooldown, whatever was loaded.
    | failure =>
      apply Similar.ask
      intro later later' _ same
      cases same
      exact similar_store target _
    | success =>
      -- Nothing to remove on either side: the cooldown is over, or there is none.
      show Similar _ _ (if u > now then _ else _) (.ret (Except.ok ()))
      rw [if_neg (Nat.not_lt.mpr (Nat.le_trans past since_now))]
      exact .ret rfl

theorem similar_carry (op : SelectOp) :
    Similar (stackTolerance Stream since)
      (fun a b => (selectTolerance Stream since).expected ⟨op, a⟩ ∧
        (selectTolerance Stream since).twin op a b) (carry op) (carry op) := by
  cases op with
  | fetchAdd | getTargetStatus | now => exact .ask fun a b expected twins => .ret ⟨expected, twins⟩
  | connect target port =>
    have attempt : Similar (balancerTolerance Stream since) Eq (connect target port)
        (connect target port) := by
      apply similar_self
      apply uses_connect
      · intro a b same
        exact same
      · intro result a b same
        exact same
      · intro addr a b same
        exact same
    have carried : Similar (stackTolerance Stream since) Eq (carry (.connect target port))
        (carry (.connect target port)) := by
      apply attempt.interp
      · intro op
        cases op <;> trivial
      · intro op
        cases op with
        | reportConnectionAttempt t result =>
          exact (similar_report t result).mono fun a b same => ⟨trivial, same⟩
        | fetchAdd | getTargetStatus | now | lookupHost | connectAddr =>
          exact .ask fun a b expected twins => .ret ⟨expected, twins⟩
      · intro op silent
        cases silent
    exact carried.mono fun a b same => ⟨trivial, same⟩

/-- No call does anything different when an expired cooldown is taken for none. -/
theorem similar_body (config : ProxyConfig) (call : Call) :
    Similar (stackTolerance Stream since) Eq (call.body config) (call.body config) := by
  have wrapped : ∀ {β : Type} {p : Program (Stack Stream) β} (wrap : β → CallResult Stream),
      Similar (stackTolerance Stream since) Eq p p →
      Similar (stackTolerance Stream since) Eq (p >>= fun r => .ret (wrap r))
        (p >>= fun r => .ret (wrap r)) := by
    intro β p wrap similar
    apply similar.bind
    intro a b same
    exact .ret (congrArg wrap same)
  cases call with
  | reportConnectionAttempt target result => exact wrapped .updated (similar_report target result)
  | drain target => exact wrapped .updated (similar_store target .drain)
  | connectBackend port =>
    have selects : Similar (stackTolerance Stream since) Eq (stackConnectBackend config port)
        (stackConnectBackend config port) := by
      rw [stackConnectBackend_eq]
      apply (similar_connectBackend config port).interp _ similar_carry
      · intro op silent next r asks similar
        cases silent
        exact .skip rfl asks similar
      · intro op
        cases op <;> trivial
    exact wrapped .connected selects

/-! ## Stores that differ in expired cooldowns -/

/-- An expired cooldown is replaced by none. -/
def BackendStatus.renew (now : Instant) : BackendStatus → BackendStatus
  | .alive (some u) => if u ≤ now then .alive none else .alive (some u)
  | status => status

/-- The store with the expired cooldowns of the chosen targets replaced by none. -/
def Store.renew (s : Store w) (chosen : String → Bool) : Store w :=
  { s with targets := ⟨fun t => (s.targets.targetStatus t).map fun status =>
      if chosen t then status.renew s.clock else status⟩ }

/-- The same counters, and the same statuses up to cooldowns that were over at `since`. -/
structure Renewed (since : Instant) (s t : Store w) : Prop where
  counters : t.counters = s.counters
  statuses : ∀ x, t.targets.targetStatus x = s.targets.targetStatus x ∨
    ∃ u ≤ since, s.targets.targetStatus x = some (.alive (some u)) ∧
      t.targets.targetStatus x = some (.alive none)

section Renewed

variable {s t : Store w} {x : String}

theorem renewed_renew (s : Store w) (chosen : String → Bool) :
    Renewed s.clock s (s.renew chosen) := by
  refine ⟨rfl, fun x => ?_⟩
  show (s.targets.targetStatus x).map _ = _ ∨ ∃ u ≤ s.clock, _ ∧ (s.targets.targetStatus x).map _ = _
  cases stored : s.targets.targetStatus x with
  | none => exact .inl rfl
  | some status =>
    cases chosen x with
    | false => exact .inl rfl
    | true =>
      cases status with
      | drain => exact .inl rfl
      | alive coolUntil =>
        cases coolUntil with
        | none => exact .inl rfl
        | some u =>
          by_cases past : u ≤ s.clock
          · exact .inr ⟨u, past, rfl, by simp [BackendStatus.renew, past]⟩
          · exact .inl (by simp [BackendStatus.renew, past])

theorem Renewed.isSome (h : Renewed since s t) :
    (t.targets.targetStatus x).isSome = (s.targets.targetStatus x).isSome := by
  cases h.statuses x with
  | inl same => rw [same]
  | inr expired =>
    obtain ⟨u, -, left, right⟩ := expired
    rw [left, right]
    rfl

theorem Renewed.load (h : Renewed since s t) :
    Unchanged since (s.targets.getTargetStatus x) (t.targets.getTargetStatus x) := by
  cases h.statuses x with
  | inl same =>
    have equal : t.targets.getTargetStatus x = s.targets.getTargetStatus x := by
      simp only [TargetState.getTargetStatus, same]
    rw [equal]
    exact .same _
  | inr expired =>
    obtain ⟨u, past, left, right⟩ := expired
    rw [TargetState.getTargetStatus_of_some left, TargetState.getTargetStatus_of_some right]
    exact .expired past

/-- Storing the same status takes expired entries away on both sides. -/
theorem Renewed.store (h : Renewed since s t) (x : String) (status : BackendStatus) :
    (t.targets.updateTargetStatus x status).2 = (s.targets.updateTargetStatus x status).2 ∧
      Renewed since { s with targets := (s.targets.updateTargetStatus x status).1 }
        { t with targets := (t.targets.updateTargetStatus x status).1 } := by
  have known : (t.targets.targetStatus x).isSome = (s.targets.targetStatus x).isSome := h.isSome
  constructor
  · simp only [TargetState.updateTargetStatus]
    cases left : s.targets.targetStatus x <;> cases right : t.targets.targetStatus x <;>
      simp [left, right] at known ⊢
  · refine ⟨h.counters, fun y => ?_⟩
    simp only [TargetState.updateTargetStatus_status, known]
    split
    · exact .inl rfl
    · exact h.statuses y

theorem Renewed.bump (h : Renewed since s t) (port : UInt16) :
    Renewed since (s.bump port) (t.bump port) :=
  ⟨funext fun q => by simp [h.counters], h.statuses⟩

/-- The stores cannot be told apart by a comparison with the clock. -/
theorem Renewed.cooling_iff (h : Renewed since s t) {T : Instant} (later : since ≤ T) :
    Cooling s x T ↔ Cooling t x T := by
  cases h.statuses x with
  | inl same => simp only [Cooling, same]
  | inr expired =>
    obtain ⟨u, past, left, right⟩ := expired
    simp [Cooling, left, right, past.trans later]

/-- Whatever `s` answers, `t` has a twin answer to, if its clock lags behind. -/
theorem Renewed.follows (h : Renewed since s t) (start : since ≤ t.clock) (lags : t.clock ≤ s.clock)
    {op : StackOp} {a : (Stack Stream).Ans op} {s' : Store w} (answered : s.Answers ⟨op, a⟩ s') :
    (stackTolerance Stream since).expected ⟨op, a⟩ ∧
      ∃ b t', (stackTolerance Stream since).twin op a b ∧ t.Answers ⟨op, b⟩ t' ∧
        Renewed since s' t' ∧ since ≤ t'.clock ∧ t'.clock ≤ s'.clock := by
  cases op with
  | fetchAdd port =>
    obtain ⟨drawn, rfl⟩ := answered
    refine ⟨trivial, a, t.bump port, rfl, ⟨?_, rfl⟩, h.bump port, start, lags⟩
    rw [h.counters]
    exact drawn
  | load x =>
    obtain ⟨rfl, rfl⟩ := answered
    exact ⟨trivial, _, t, h.load, ⟨rfl, rfl⟩, h, start, lags⟩
  | store x status =>
    obtain ⟨rfl, rfl⟩ := answered
    obtain ⟨same, stored⟩ := h.store x status
    exact ⟨trivial, _, _, same.symm, ⟨rfl, rfl⟩, stored, start, lags⟩
  | now =>
    obtain ⟨later, rfl⟩ := answered
    have past := start.trans (lags.trans later)
    exact ⟨past, a, _, rfl, ⟨lags.trans later, rfl⟩, ⟨h.counters, h.statuses⟩, past, Nat.le_refl _⟩
  | lookupHost | connectAddr =>
    cases answered
    exact ⟨trivial, a, t, rfl, rfl, h, start, lags⟩

/-- Whatever `t` answers, `s` has a twin answer to, if its clock lags behind. -/
theorem Renewed.leads (h : Renewed since s t) (start : since ≤ s.clock) (lags : s.clock ≤ t.clock)
    {op : StackOp} {b : (Stack Stream).Ans op} {t' : Store w} (answered : t.Answers ⟨op, b⟩ t') :
    ∃ a s', (stackTolerance Stream since).expected ⟨op, a⟩ ∧
      (stackTolerance Stream since).twin op a b ∧ s.Answers ⟨op, a⟩ s' ∧
        Renewed since s' t' ∧ since ≤ s'.clock ∧ s'.clock ≤ t'.clock := by
  cases op with
  | fetchAdd port =>
    obtain ⟨drawn, rfl⟩ := answered
    refine ⟨b, s.bump port, trivial, rfl, ⟨?_, rfl⟩, h.bump port, start, lags⟩
    rw [← h.counters]
    exact drawn
  | load x =>
    obtain ⟨rfl, rfl⟩ := answered
    exact ⟨_, s, trivial, h.load, ⟨rfl, rfl⟩, h, start, lags⟩
  | store x status =>
    obtain ⟨rfl, rfl⟩ := answered
    obtain ⟨same, stored⟩ := h.store x status
    exact ⟨_, _, trivial, same.symm, ⟨rfl, rfl⟩, stored, start, lags⟩
  | now =>
    obtain ⟨later, rfl⟩ := answered
    have past := start.trans (lags.trans later)
    exact ⟨b, _, past, rfl, ⟨lags.trans later, rfl⟩, ⟨h.counters, h.statuses⟩, past, Nat.le_refl _⟩
  | lookupHost | connectAddr =>
    cases answered
    exact ⟨b, s, trivial, rfl, rfl, h, start, lags⟩

end Renewed

/-! ## Runs -/

/-- Every label but a status load and a clock reading: draws, lookups, connects and stores. -/
def Effectful : TaskLabel Stream → Bool
  | .act _ ⟨.load _, _⟩ => false
  | .act _ ⟨.now, _⟩ => false
  | _ => true

/-- Two runs that do the same: they go through the same draws, lookups, connects and stores in
    the same order, their loads agree up to cooldowns over at `since`, the same calls have
    returned the same results, and the stores they leave behind agree in the same way. -/
structure Indistinct (since : Instant) (ls ms : List (TaskLabel Stream)) (c d : Tasks w Stream) :
    Prop where
  matched : Matched (stackTolerance Stream since) ls ms
  effects : ls.filter Effectful = ms.filter Effectful
  results : ∀ i r, c.threads i = some (.ret r) ↔ d.threads i = some (.ret r)
  stores : Renewed since c.store d.store
  cooling : ∀ x T, since ≤ T → (Cooling c.store x T ↔ Cooling d.store x T)

theorem indistinct_of_alongside {rel : Store w → Store w → Prop} {ls ms : List (TaskLabel Stream)}
    {c d : Tasks w Stream} (matched : Matched (stackTolerance Stream since) ls ms)
    (alongside : Alongside (stackTolerance Stream since) rel c d)
    (renewed : ∀ {s t}, rel s t → Renewed since s t) : Indistinct since ls ms c d := by
  have stores := renewed alongside.store
  refine ⟨matched, ?_, fun i r => ⟨fun returned => ?_, fun returned => ?_⟩, stores,
    fun x T later => stores.cooling_iff later⟩
  · apply matched.filter
    -- Clock readings and loads, in which the runs may differ, are not among the effects.
    · intro i e shown silent
      obtain ⟨op, a⟩ := e
      cases silent
      cases shown
    · intro i op a b twins differ
      cases op with
      | load x => exact ⟨rfl, rfl⟩
      | fetchAdd | store | now | lookupHost | connectAddr => exact absurd twins differ
  · obtain ⟨q, running⟩ := alongside.running returned
    have similar := alongside.similar returned running
    cases similar with
    | ret same => rw [running, same]
  · obtain ⟨p, running⟩ := alongside.running' returned
    have similar := alongside.similar running returned
    cases similar with
    | ret same => rw [running, same]
    | skip _ asks _ => cases asks

/-- An expired cooldown is as good as none: replacing any of them in the store changes
    nothing in any run of calls, at any of its points, but the answers of the loads that find
    it and the clock readings it is compared with. -/
theorem expired_cooldown_is_none (config : ProxyConfig) (s : Store w) (chosen : String → Bool) :
    (∀ (ls : List (TaskLabel Stream)) (c : Tasks w Stream), Run (Tasks.Step config) (.idle s) ls c →
      ∃ ms d, Run (Tasks.Step config) (.idle (s.renew chosen)) ms d ∧ Indistinct s.clock ls ms c d ∧
        Throughout (Tasks.Step config) (Tasks.Step config) (Indistinct s.clock) (.idle s)
          (.idle (s.renew chosen)) ls ms) ∧
    ∀ (ms : List (TaskLabel Stream)) (d : Tasks w Stream),
      Run (Tasks.Step config) (.idle (s.renew chosen)) ms d →
      ∃ ls c, Run (Tasks.Step config) (.idle s) ls c ∧ Indistinct s.clock ls ms c d ∧
        Throughout (Tasks.Step config) (Tasks.Step config) (fun ms ls d c => Indistinct s.clock ls ms c d)
          (.idle (s.renew chosen)) (.idle s) ms ls := by
  have initially := renewed_renew s chosen
  have idle : ∀ i : Nat, Option.Rel (Similar (stackTolerance Stream s.clock) Eq)
      ((Tasks.idle s : Tasks w Stream).threads i)
      ((Tasks.idle (s.renew chosen) : Tasks w Stream).threads i) := fun _ => .none
  constructor
  · intro ls c run
    -- Only the left side reads the clock for an expired cooldown, so its clock may be ahead.
    let ahead : Store w → Store w → Prop := fun s' t =>
      Renewed s.clock s' t ∧ s.clock ≤ t.clock ∧ t.clock ≤ s'.clock
    have start : Alongside (stackTolerance Stream s.clock) ahead (Tasks.idle s)
        (Tasks.idle (s.renew chosen)) :=
      ⟨⟨initially, Nat.le_refl _, Nat.le_refl _⟩, idle⟩
    have steps : ∀ {c d : Tasks w Stream} {l c'}, Alongside (stackTolerance Stream s.clock) ahead c d →
        Tasks.Step config c l c' → ∃ ms d', Run (Tasks.Step config) d ms d' ∧
          Matched (stackTolerance Stream s.clock) [l] ms ∧
          Alongside (stackTolerance Stream s.clock) ahead c' d' :=
      Pool.follows (fun h answered => h.1.follows h.2.1 h.2.2 answered)
        (fun h silent answered => by
          cases silent
          obtain ⟨later, rfl⟩ := answered
          exact ⟨⟨h.1.counters, h.1.statuses⟩, h.2.1, h.2.2.trans later⟩)
        (similar_body config)
    obtain ⟨ms, d, run', ⟨matched, alongside⟩, points⟩ := run.simulated .nil .append steps start
    exact ⟨ms, d, run', indistinct_of_alongside matched alongside fun h => h.1,
      points.mono fun both => indistinct_of_alongside both.1 both.2 fun h => h.1⟩
  · intro ms d run
    -- The left side makes its additional readings at the instant its clock shows.
    let behind : Store w → Store w → Prop := fun s' t =>
      Renewed s.clock s' t ∧ s.clock ≤ s'.clock ∧ s'.clock ≤ t.clock
    have start : Alongside (stackTolerance Stream s.clock) behind (Tasks.idle s)
        (Tasks.idle (s.renew chosen)) :=
      ⟨⟨initially, Nat.le_refl _, Nat.le_refl _⟩, idle⟩
    have steps : ∀ {d c : Tasks w Stream} {m d'}, Alongside (stackTolerance Stream s.clock) behind c d →
        Tasks.Step config d m d' → ∃ ls c', Run (Tasks.Step config) c ls c' ∧
          Matched (stackTolerance Stream s.clock) ls [m] ∧
          Alongside (stackTolerance Stream s.clock) behind c' d' :=
      Pool.leads (fun h answered => h.1.leads h.2.1 h.2.2 answered)
        (fun {s' t} op h silent => by
          cases silent
          exact ⟨s'.clock, s', h.2.1, ⟨Nat.le_refl _, rfl⟩, h⟩)
        (similar_body config)
    obtain ⟨ls, c, run', ⟨matched, alongside⟩, points⟩ := run.simulated
      (M := fun ms ls => Matched (stackTolerance Stream s.clock) ls ms)
      (R := fun d c => Alongside (stackTolerance Stream s.clock) behind c d) .nil .append steps start
    exact ⟨ls, c, run', indistinct_of_alongside matched alongside fun h => h.1,
      points.mono fun both => indistinct_of_alongside both.1 both.2 fun h => h.1⟩

end TcpProxy
