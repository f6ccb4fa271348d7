import TcpProxy.Balancer.Stack
import TcpProxy.Balancer.Attempt
import TcpProxy.Balancer.Passes

/-! # Cooldowns and the history of attempts

Calls run one after the other on the production stack.  The status of a target that was
never drained is a function of the last attempt on it that did not end fatally: a failed
one left a cooldown counted from the clock reading of its report, a successful one left
no cooldown that still runs, and before the first one there is none. -/

namespace TcpProxy

open Effects Effects.Program Lts RoundRobin SimpleCooldownHandler

variable {w : Nat} {Stream : Type}

/-! ## Attempts -/

abbrev Part (Stream : Type) := Chunk (Select Stream) (Stack Stream)

/-- An attempt that ended, with the operations it made. -/
structure PastAttempt (Stream : Type) where
  target : String
  outcome : ConnectAttempt (Stream × SocketAddr)
  trace : List (Stack Stream).Event

def attempt? : Part Stream → Option (PastAttempt Stream)
  | ⟨⟨.connect target _, outcome⟩, trace⟩ => some ⟨target, outcome, trace⟩
  | _ => none

/-- The last clock reading of a trace. A failed attempt ends in its report, so this is the
    reading the report counted the cooldown from. -/
def lastReading (tr : List (Stack Stream).Event) : Option Instant :=
  (tr.filterMap fun
    | ⟨.now, reading⟩ => some reading
    | _ => none).getLast?

theorem lastReading_append {tr tr' : List (Stack Stream).Event} {reading : Instant}
    (h : lastReading tr' = some reading) : lastReading (tr ++ tr') = some reading := by
  rw [lastReading] at h ⊢
  rw [List.filterMap_append, List.getLast?_append, h]
  rfl

theorem network_runs {s t : Store w} {tr : List (Stack Stream).Event}
    (network : ∀ e ∈ tr, e.op.Network) (runs : s.Runs tr t) : t = s := by
  induction runs with
  | nil => rfl
  | @cons s u t e tr answered _ ih =>
    have still : u = s := by
      obtain ⟨op, a⟩ := e
      have outside := network _ List.mem_cons_self
      cases op with
      | lookupHost | connectAddr => exact answered
      | fetchAdd | load | store | now => cases outside
    rw [ih fun x hx => network x (List.mem_cons_of_mem _ hx), still]

theorem clock_mono {s t : Store w} {tr : List (Stack Stream).Event} (runs : s.Runs tr t) :
    s.clock ≤ t.clock := by
  induction runs with
  | nil => exact Nat.le_refl _
  | @cons s u t e tr answered _ ih =>
    refine Nat.le_trans ?_ ih
    obtain ⟨op, a⟩ := e
    cases op with
    | now => obtain ⟨later, rfl⟩ := answered; exact later
    | fetchAdd | load | store => exact (congrArg Store.clock answered.2).ge
    | lookupHost | connectAddr => cases answered; exact Nat.le_refl _

theorem network_carried {B : List (Balancer Stream).Event} {tr : List (Stack Stream).Event}
    (network : ∀ e ∈ B, e.op.Network) (un : Unfolds handle B tr) : ∀ e ∈ tr, e.op.Network := by
  induction un with
  | nil => simp
  | @cons e B sub tr run _ ih =>
    have rest := ih fun x hx => network x (List.mem_cons_of_mem _ hx)
    have head : ∀ x ∈ sub, x.op.Network := by
      obtain ⟨op, a⟩ := e
      have outside := network _ List.mem_cons_self
      cases op with
      | lookupHost | connectAddr =>
        obtain rfl := exec_perform.mp run
        intro x hx
        rw [List.mem_singleton.mp hx]
        trivial
      | fetchAdd | getTargetStatus | now | reportConnectionAttempt => cases outside
    intro x hx
    cases List.mem_append.mp hx with
    | inl early => exact head x early
    | inr late => exact rest x late

/-- `connect_report`, carried out by the production handler. -/
theorem attempt_exec {target : String} {port : UInt16} {tr : List (Stack Stream).Event}
    {out : ConnectAttempt (Stream × SocketAddr)} (run : Exec (carry (.connect target port)) tr out) :
    (out.isFatal = true ∧ ∀ e ∈ tr, e.op.Network) ∨
      ∃ front rep result a, tr = front ++ rep ∧ (∀ e ∈ front, e.op.Network) ∧
        Report target result rep a ∧ Reports result out := by
  obtain ⟨B, whole, un⟩ := exec_interp.mp run
  have whole : Exec (connect target port) B out := whole
  rcases connect_report whole with ⟨fatal, e, rfl⟩ | ⟨front, result, a, network, rfl, outcome⟩
  · refine .inl ⟨fatal, network_carried (fun x hx => ?_) un⟩
    rw [List.mem_singleton.mp hx]
    trivial
  · obtain ⟨early, late, rfl, hearly, hlate⟩ := un.split
    obtain ⟨rep, rest, rfl, hrep, hrest⟩ := hlate.uncons
    cases hrest
    exact .inr ⟨early, rep, result, a, by simp, network_carried network hearly,
      reportConnectionAttempt_exec hrep, outcome⟩

/-! ## Effects on the store -/

/-- What a report leaves in the store. -/
inductive Reported (target : String) (tr : List (Stack Stream).Event) (s t : Store w) :
    ConnectResult → Prop
  | skipped {result : ConnectResult} : (∀ c, s.targets.targetStatus target ≠ some (.alive c)) →
      t.targets = s.targets → Reported target tr s t result
  | cooled {c : Option Instant} (reading : Instant) :
      s.targets.targetStatus target = some (.alive c) → lastReading tr = some reading →
      t.targets = (s.targets.updateTargetStatus target (.alive (some (reading + COOLDOWN)))).1 →
      Reported target tr s t .failure
  | kept {c : Option Instant} : s.targets.targetStatus target = some (.alive c) →
      (∀ u, c = some u → u ≤ t.clock) → t.targets = s.targets → Reported target tr s t .success
  | cleared {c : Option Instant} : s.targets.targetStatus target = some (.alive c) →
      t.targets = (s.targets.updateTargetStatus target (.alive none)).1 →
      Reported target tr s t .success

theorem status_of_ok {s : TargetState} {target : String} {status : BackendStatus}
    (h : .ok status = s.getTargetStatus target) : s.targetStatus target = some status := by
  rw [TargetState.getTargetStatus] at h
  cases found : s.targetStatus target with
  | none => rw [found] at h; cases h
  | some status' => rw [found] at h; cases h; rfl

theorem report_runs {target : String} {result : ConnectResult} {tr : List (Stack Stream).Event}
    {a : Except ProxyError Unit} (report : Report target result tr a) {s t : Store w}
    (runs : s.Runs tr t) : Reported target tr s t result := by
  cases report with
  | missing e =>
    obtain ⟨u, ⟨loaded, rfl⟩, rest⟩ := runs.uncons
    cases rest.nil_eq
    refine .skipped (fun c alive => ?_) rfl
    rw [TargetState.getTargetStatus_of_some alive] at loaded
    cases loaded
  | drained =>
    obtain ⟨u, ⟨loaded, rfl⟩, rest⟩ := runs.uncons
    cases rest.nil_eq
    refine .skipped (fun c alive => ?_) rfl
    rw [status_of_ok loaded] at alive
    cases alive
  | cooled coolUntil now later =>
    obtain ⟨u, ⟨loaded, rfl⟩, rest⟩ := runs.uncons
    obtain ⟨u, ⟨-, rfl⟩, rest⟩ := rest.uncons
    obtain ⟨u, ⟨-, rfl⟩, rest⟩ := rest.uncons
    obtain ⟨u, ⟨-, rfl⟩, rest⟩ := rest.uncons
    cases rest.nil_eq
    exact .cooled later (status_of_ok loaded) rfl rfl
  | @kept coolUntil now settled =>
    obtain ⟨u, ⟨loaded, rfl⟩, rest⟩ := runs.uncons
    obtain ⟨u, ⟨-, rfl⟩, rest⟩ := rest.uncons
    cases rest.nil_eq
    exact .kept (status_of_ok loaded) (fun u hu => Nat.le_of_not_lt (settled u hu)) rfl
  | cleared =>
    obtain ⟨u, ⟨loaded, rfl⟩, rest⟩ := runs.uncons
    obtain ⟨u, ⟨-, rfl⟩, rest⟩ := rest.uncons
    obtain ⟨u, ⟨-, rfl⟩, rest⟩ := rest.uncons
    cases rest.nil_eq
    exact .cleared (status_of_ok loaded) rfl

/-- What an attempt leaves in the store. -/
structure Effect (a : PastAttempt Stream) (s t : Store w) : Prop where
  frame : ∀ other, other ≠ a.target →
    t.targets.targetStatus other = s.targets.targetStatus other
  still : (a.outcome.isFatal = true ∨ ∀ c, s.targets.targetStatus a.target ≠ some (.alive c)) →
    t.targets = s.targets
  failed : a.outcome = .tryNext → ∀ c, s.targets.targetStatus a.target = some (.alive c) →
    ∃ reading, lastReading a.trace = some reading ∧
      t.targets.targetStatus a.target = some (.alive (some (reading + COOLDOWN)))
  connected : ∀ x, a.outcome = .ready x → ∀ c, s.targets.targetStatus a.target = some (.alive c) →
    ∃ c', t.targets.targetStatus a.target = some (.alive c') ∧ ∀ u, c' = some u → u ≤ t.clock

theorem effect_of_reported {a : PastAttempt Stream} {front tr : List (Stack Stream).Event}
    {s t : Store w} {result : ConnectResult} (htrace : a.trace = front ++ tr)
    (reported : Reported a.target tr s t result) (reports : Reports result a.outcome) :
    Effect a s t := by
  have notFatal : a.outcome.isFatal = false := by
    cases result <;> cases h : a.outcome <;> simp_all [Reports, ConnectAttempt.isFatal]
  cases reported with
  -- The report found the target drained, or found no entry, and stored nothing.
  | skipped dead same =>
    exact ⟨fun other _ => by rw [same], fun _ => same, fun _ c alive => absurd alive (dead c),
      fun _ _ c alive => absurd alive (dead c)⟩
  | @cooled c reading alive hreading stored =>
    have present : (s.targets.targetStatus a.target).isSome := by rw [alive]; rfl
    refine ⟨fun other ne => ?_, fun h => ?_, fun _ _ _ => ⟨reading, ?_, ?_⟩, fun x hx => ?_⟩
    · rw [stored, TargetState.updateTargetStatus_ne ne]
    · rw [notFatal] at h
      exact absurd alive (h.resolve_left nofun c)
    · rw [htrace]; exact lastReading_append hreading
    · rw [stored]; exact (TargetState.updateTargetStatus_eq present).1
    · rw [hx] at reports; cases reports
  -- A success found no cooldown running.
  | @kept c alive settled same =>
    refine ⟨fun other _ => by rw [same], fun _ => same, fun hx => ?_, fun _ _ _ _ => ⟨c, ?_, settled⟩⟩
    · rw [hx] at reports; cases reports
    · rw [same]; exact alive
  | @cleared c alive stored =>
    have present : (s.targets.targetStatus a.target).isSome := by rw [alive]; rfl
    refine ⟨fun other ne => ?_, fun h => ?_, fun hx => ?_, fun _ _ _ _ => ⟨none, ?_, nofun⟩⟩
    · rw [stored, TargetState.updateTargetStatus_ne ne]
    · rw [notFatal] at h
      exact absurd alive (h.resolve_left nofun c)
    · rw [hx] at reports; cases reports
    · rw [stored]; exact (TargetState.updateTargetStatus_eq present).1

theorem effect_of_exec {target : String} {port : UInt16} {tr : List (Stack Stream).Event}
    {out : ConnectAttempt (Stream × SocketAddr)} (run : Exec (carry (.connect target port)) tr out)
    {s t : Store w} (runs : s.Runs tr t) : Effect ⟨target, out, tr⟩ s t := by
  rcases attempt_exec run with ⟨fatal, network⟩ | ⟨front, rep, result, a, rfl, network, report, reports⟩
  · have same : t = s := network_runs network runs
    subst same
    refine ⟨fun _ _ => rfl, fun _ => rfl, fun h => ?_, fun x h => ?_⟩
    · have h : out = .tryNext := h
      rw [h] at fatal; cases fatal
    · have h : out = .ready x := h
      rw [h] at fatal; cases fatal
  · obtain ⟨u, before, reporting⟩ := runs.split
    obtain rfl := network_runs network before
    exact effect_of_reported rfl (report_runs report reporting) reports

/-- An operation that is not an attempt does not touch the statuses. -/
theorem targets_of_check {op : SelectOp} (check : ∀ target port, op ≠ .connect target port)
    {tr : List (Stack Stream).Event} {a : (Select Stream).Ans op} (run : Exec (carry op) tr a)
    {s t : Store w} (runs : s.Runs tr t) : t.targets = s.targets := by
  cases op with
  | connect target port => exact absurd rfl (check target port)
  | fetchAdd port =>
    obtain rfl := exec_perform.mp run
    rw [runs.of_single.2]; rfl
  | getTargetStatus target =>
    obtain rfl := exec_perform.mp run
    rw [runs.of_single.2]
  | now =>
    obtain rfl := exec_perform.mp run
    rw [runs.of_single.2]

/-! ## Calls one after the other -/

def PartStep (s : Store w) (p : Part Stream) (t : Store w) : Prop :=
  Exec (carry p.event.op) p.trace p.event.ans ∧ s.Runs p.trace t

/-- A call that has returned. -/
inductive Completed (Stream : Type) where
  | connectBackend (port : UInt16) (parts : List (Part Stream)) (r : Connected Stream)
  | drain (target : String) (a : Except ProxyError Unit)

def Completed.attempts : Completed Stream → List (PastAttempt Stream)
  | .connectBackend _ parts _ => parts.filterMap attempt?
  | .drain _ _ => []

/-- One call runs from start to end on the store. -/
inductive Sequential (config : ProxyConfig) : Store w → Completed Stream → Store w → Prop
  | connectBackend {s t : Store w} {port : UInt16} {parts : List (Part Stream)}
      {r : Connected Stream} : Exec (connectBackend config port) (parts.map (·.event)) r →
      Run PartStep s parts t → Sequential config s (.connectBackend port parts r) t
  | drain {s t : Store w} {target : String} {tr : List (Stack Stream).Event}
      {a : Except ProxyError Unit} : Exec (SimpleCooldownHandler.drain target) tr a → s.Runs tr t →
      Sequential config s (.drain target a) t

theorem run_of_carried {s t : Store w} {parts : List (Part Stream)}
    (carried : ∀ p ∈ parts, Exec (carry p.event.op) p.trace p.event.ans)
    (runs : s.Runs (parts.flatMap (·.trace)) t) : Run PartStep s parts t := by
  induction parts generalizing s with
  | nil => rw [runs.nil_eq]; exact .nil t
  | cons p parts ih =>
    obtain ⟨u, now, later⟩ := runs.split
    exact .cons ⟨carried p List.mem_cons_self, now⟩
      (ih (fun q hq => carried q (List.mem_cons_of_mem _ hq)) later)

/-- Every execution of the production `connect_backend` is such a call. -/
theorem sequential_of_exec {config : ProxyConfig} {port : UInt16} {s t : Store w}
    {tr : List (Stack Stream).Event} {r : Connected Stream}
    (run : Exec (stackConnectBackend config port) tr r) (runs : s.Runs tr t) :
    ∃ parts, parts.flatMap (·.trace) = tr ∧
      Sequential config s (.connectBackend port parts r) t := by
  rw [stackConnectBackend_eq] at run
  obtain ⟨T, hT, un⟩ := exec_interp.mp run
  obtain ⟨parts, rfl, rfl, carried⟩ := un.chunks
  exact ⟨parts, rfl, .connectBackend hT (run_of_carried carried runs)⟩

/-! ## The history of a target -/

/-- The attempts on `target` that did not end fatally. -/
def nonFatalOn (target : String) (as : List (PastAttempt Stream)) : List (PastAttempt Stream) :=
  as.filter fun a => a.target = target ∧ a.outcome.isFatal = false

/-- What the last of these attempts says about the stored cooldown. -/
def Reflects (clock : Instant) (coolUntil : Option Instant) : Option (PastAttempt Stream) → Prop
  | none => coolUntil = none
  | some a =>
    match a.outcome with
    | .tryNext => ∃ reading, lastReading a.trace = some reading ∧ coolUntil = some (reading + COOLDOWN)
    | _ => ∀ u, coolUntil = some u → u ≤ clock

theorem Reflects.mono {clock clock' : Instant} {coolUntil : Option Instant}
    {last : Option (PastAttempt Stream)} (h : Reflects clock coolUntil last) (later : clock ≤ clock') :
    Reflects clock' coolUntil last := by
  cases last with
  | none => exact h
  | some a =>
    obtain ⟨target, out, tr⟩ := a
    cases out with
    | tryNext => exact h
    | ready | fatal => exact fun u hu => (h u hu).trans later

theorem part_frame {target : String} {s t : Store w} {p : Part Stream} (step : PartStep s p t)
    (fatal : ∀ a, attempt? p = some a → a.target = target → a.outcome.isFatal = true) :
    t.targets.targetStatus target = s.targets.targetStatus target := by
  obtain ⟨⟨op, out⟩, tr⟩ := p
  cases op with
  | connect target' port =>
    have effect := effect_of_exec step.1 step.2
    by_cases same : target = target'
    · rw [effect.still (.inl (fatal _ rfl same.symm))]
    · exact effect.frame target same
  | fetchAdd | getTargetStatus | now => rw [targets_of_check (by simp) step.1 step.2]

theorem part_drained {target : String} {s t : Store w} {p : Part Stream} (step : PartStep s p t)
    (drained : s.targets.targetStatus target = some .drain) :
    t.targets.targetStatus target = some .drain := by
  obtain ⟨⟨op, out⟩, tr⟩ := p
  cases op with
  | connect target' port =>
    have effect := effect_of_exec step.1 step.2
    by_cases same : target = target'
    · have dead : ∀ c, s.targets.targetStatus target' ≠ some (.alive c) := by
        intro c alive
        rw [← same, drained] at alive
        cases alive
      rw [effect.still (.inr dead), drained]
    · rw [effect.frame target same, drained]
  | fetchAdd | getTargetStatus | now => rw [targets_of_check (by simp) step.1 step.2, drained]

theorem part_reflects {target : String} {s t : Store w} {p : Part Stream} (step : PartStep s p t)
    {past : List (PastAttempt Stream)} {c : Option Instant}
    (alive : s.targets.targetStatus target = some (.alive c))
    (reflects : Reflects s.clock c (nonFatalOn target past).getLast?) :
    ∃ c', t.targets.targetStatus target = some (.alive c') ∧
      Reflects t.clock c' (nonFatalOn target (past ++ (attempt? p).toList)).getLast? := by
  have later := clock_mono step.2
  -- Where the part adds no attempt on the target, its status stays what it was.
  have unmoved : (∀ a, attempt? p = some a → a.target = target → a.outcome.isFatal = true) →
      ∃ c', t.targets.targetStatus target = some (.alive c') ∧
        Reflects t.clock c' (nonFatalOn target (past ++ (attempt? p).toList)).getLast? := by
    intro fatal
    have skipped : nonFatalOn target (past ++ (attempt? p).toList) = nonFatalOn target past := by
      cases h : attempt? p with
      | none => simp
      | some a =>
        have out : ¬ (a.target = target ∧ a.outcome.isFatal = false) := by
          intro both
          rw [fatal a h both.1] at both
          cases both.2
        simp [nonFatalOn, out]
    rw [skipped, part_frame step fatal]
    exact ⟨c, alive, reflects.mono later⟩
  obtain ⟨⟨op, out⟩, tr⟩ := p
  cases op with
  | fetchAdd | getTargetStatus | now => exact unmoved nofun
  | connect target' port =>
    by_cases counted : target' = target ∧ out.isFatal = false
    -- The attempt is the last of those on its target from now on.
    · obtain ⟨rfl, notFatal⟩ := counted
      have last : (nonFatalOn target' (past ++ [(⟨target', out, tr⟩ : PastAttempt Stream)])).getLast? =
          some ⟨target', out, tr⟩ := by
        have one : nonFatalOn target' [(⟨target', out, tr⟩ : PastAttempt Stream)] = [⟨target', out, tr⟩] := by
          simp [nonFatalOn, notFatal]
        rw [nonFatalOn, List.filter_append, ← nonFatalOn, ← nonFatalOn, one, List.getLast?_concat]
      have effect := effect_of_exec step.1 step.2
      show ∃ c', _ ∧ Reflects t.clock c' (nonFatalOn target' (past ++ [_])).getLast?
      rw [last]
      cases out with
      | tryNext =>
        obtain ⟨reading, hreading, stored⟩ := effect.failed rfl c alive
        exact ⟨_, stored, reading, hreading, rfl⟩
      | ready x =>
        obtain ⟨c', stored, settled⟩ := effect.connected x rfl c alive
        exact ⟨c', stored, settled⟩
      | fatal e => cases notFatal
    · refine unmoved fun a ha same => ?_
      cases ha
      by_contra notFatal
      exact counted ⟨same, by simpa using notFatal⟩

def Drained (target : String) (calls : List (Completed Stream)) : Prop :=
  ∃ a, .drain target a ∈ calls

/-- The target is cooling at the instant `T`. -/
def Cooling (s : Store w) (target : String) (T : Instant) : Prop :=
  ∃ u, s.targets.targetStatus target = some (.alive (some u)) ∧ T < u

/-- The stored status of a target after a history of calls. -/
def Explained (target : String) (calls : List (Completed Stream)) (s : Store w) : Prop :=
  (Drained target calls → s.targets.targetStatus target = some .drain) ∧
  (¬ Drained target calls → ∃ c, s.targets.targetStatus target = some (.alive c) ∧
    Reflects s.clock c (nonFatalOn target (calls.flatMap Completed.attempts)).getLast?)

theorem drained_append {target : String} {calls : List (Completed Stream)} {call : Completed Stream} :
    Drained target (calls ++ [call]) ↔ Drained target calls ∨ ∃ a, call = .drain target a := by
  simp only [Drained, List.mem_append, List.mem_singleton]
  constructor
  · intro h
    obtain ⟨a, early | last⟩ := h
    · exact .inl ⟨a, early⟩
    · exact .inr ⟨a, last.symm⟩
  · intro h
    cases h with
    | inl early => obtain ⟨a, early⟩ := early; exact ⟨a, .inl early⟩
    | inr last => obtain ⟨a, last⟩ := last; exact ⟨a, .inr last.symm⟩

/-- A returned call extends the history by its attempts, or by a drain. -/
theorem explained_step {config : ProxyConfig} {target : String} {calls : List (Completed Stream)}
    {call : Completed Stream} {s t : Store w} (h : Explained target calls s)
    (step : Sequential config s call t) : Explained target (calls ++ [call]) t := by
  cases step with
  | @connectBackend _ port parts r whole run =>
    have same : Drained target (calls ++ [.connectBackend port parts r]) ↔ Drained target calls := by
      simp [drained_append]
    constructor
    · intro drained
      exact run.invariant (h.1 (same.mp drained)) fun u p v before step => part_drained step before
    · intro notDrained
      have parted := run.history
        (fun done u => ∃ c, u.targets.targetStatus target = some (.alive c) ∧
          Reflects u.clock c (nonFatalOn target
            (calls.flatMap Completed.attempts ++ done.filterMap attempt?)).getLast?)
        (by simpa using h.2 fun drained => notDrained (same.mpr drained))
        (fun done u p v before step => by
          obtain ⟨c, alive, reflects⟩ := before
          have extended := part_reflects step alive reflects
          cases hp : attempt? p <;> simpa [hp] using extended)
      simpa [Completed.attempts] using parted
  -- A drain is one store, on `other`.
  | @drain _ other tr a executed runs =>
    obtain rfl := exec_perform.mp executed
    have stored := runs.of_single
    have later : s.clock ≤ t.clock := clock_mono runs
    by_cases same : target = other
    · subst same
      refine ⟨fun _ => ?_, fun notDrained => absurd (drained_append.mpr (.inr ⟨a, rfl⟩)) notDrained⟩
      have present : (s.targets.targetStatus target).isSome := by
        by_cases drained : Drained target calls
        · rw [h.1 drained]; rfl
        · obtain ⟨c, alive, -⟩ := h.2 drained
          rw [alive]; rfl
      rw [stored.2]
      exact (TargetState.updateTargetStatus_eq present).1
    · have kept : t.targets.targetStatus target = s.targets.targetStatus target := by
        rw [stored.2]
        exact TargetState.updateTargetStatus_ne same
      have drains : Drained target (calls ++ [.drain other a]) ↔ Drained target calls := by
        have ne : other ≠ target := fun e => same e.symm
        simp [drained_append, ne]
      rw [Explained, drains, kept]
      refine ⟨h.1, fun notDrained => ?_⟩
      obtain ⟨c, alive, reflects⟩ := h.2 notDrained
      exact ⟨c, alive, by simpa [Completed.attempts] using reflects.mono later⟩

/-- After any sequence of calls and drains, a target that was never drained is cooling
    exactly while the cooldown of its last non-fatal attempt runs, if that one failed; a
    drained target stays drained; fatal attempts and skipped targets change nothing. -/
theorem cooldown_is_history {raw : RawConfig} {config : ProxyConfig} {targets : TargetState}
    (statuses : TargetState.tryFrom raw = .ok targets) {clock : Instant}
    {calls : List (Completed Stream)} {s : Store w}
    (run : Run (Sequential config) (.new config targets clock) calls s) {target : String}
    (backend : ∃ app ∈ raw.apps, target ∈ app.targets) :
    (¬ Drained target calls → ∀ T, s.clock ≤ T → (Cooling s target T ↔
      ∃ a reading, (nonFatalOn target (calls.flatMap Completed.attempts)).getLast? = some a ∧
        a.outcome = .tryNext ∧ lastReading a.trace = some reading ∧ T < reading + COOLDOWN)) ∧
    (Drained target calls → s.targets.targetStatus target = some .drain) ∧
    ∀ (u v : Store w) (parts : List (Part Stream)), Run PartStep u parts v →
      (∀ a ∈ parts.filterMap attempt?, a.target = target → a.outcome.isFatal = true) →
      v.targets.targetStatus target = u.targets.targetStatus target := by
  have initially : Explained target ([] : List (Completed Stream)) (.new config targets clock : Store w) := by
    have status := TargetState.tryFrom_status statuses target
    rw [if_pos backend] at status
    exact ⟨fun drained => by simp [Drained] at drained, fun _ => ⟨none, status, rfl⟩⟩
  have explained := run.history (Explained target) initially fun _ _ _ _ h step => explained_step h step
  refine ⟨fun notDrained T later => ?_, explained.1, fun u v parts run fatal => ?_⟩
  · obtain ⟨c, alive, reflects⟩ := explained.2 notDrained
    constructor
    · intro cooling
      obtain ⟨until_, stored, running⟩ := cooling
      rw [alive] at stored
      cases stored
      cases hlast : (nonFatalOn target (calls.flatMap Completed.attempts)).getLast? with
      | none => rw [hlast] at reflects; cases reflects
      | some a =>
        rw [hlast] at reflects
        obtain ⟨t, out, tr⟩ := a
        -- Only a failed attempt leaves a cooldown that is not over.
        cases out with
        | tryNext =>
          obtain ⟨reading, hreading, hc⟩ := reflects
          cases hc
          exact ⟨_, reading, rfl, rfl, hreading, running⟩
        | ready | fatal =>
          exact absurd running (Nat.not_lt.mpr ((reflects until_ rfl).trans later))
    · intro failed
      obtain ⟨a, reading, hlast, hout, hreading, running⟩ := failed
      rw [hlast] at reflects
      obtain ⟨t, out, tr⟩ := a
      cases hout
      obtain ⟨reading', hreading', rfl⟩ := reflects
      have same : reading' = reading := Option.some.inj (hreading'.symm.trans hreading)
      exact ⟨_, alive, by rw [same]; exact running⟩
  · have frame := run.history
      (fun done x => (∀ a ∈ done.filterMap attempt?, a.target = target → a.outcome.isFatal = true) →
        x.targets.targetStatus target = u.targets.targetStatus target)
      (fun _ => rfl)
      (fun done x p y before step fatal => by
        rw [List.filterMap_append] at fatal
        rw [part_frame step fun a ha => fatal a (List.mem_append_right _ (by simp [ha]))]
        exact before fun a ha => fatal a (List.mem_append_left _ ha))
    exact frame fatal

/-! One backend whose name resolves to nothing. -/

def oneApp : RawConfig := ⟨[⟨"web", [8080], ["a:1"]⟩]⟩

def oneAppConfig : ProxyConfig := ⟨[["a:1"]], (∅ : Std.TreeMap UInt16 Nat).insert 8080 0⟩

def oneAppTargets : TargetState := ⟨fun t => if t = "a:1" then some (.alive none) else none⟩

def failedAttempt : PastAttempt Unit where
  target := "a:1"
  outcome := .tryNext
  trace := [⟨.lookupHost "a:1", .ok []⟩, ⟨.load "a:1", .ok (.alive none)⟩, ⟨.now, 5⟩, ⟨.now, 7⟩,
    ⟨.store "a:1" (.alive (some (7 + COOLDOWN))), .ok ()⟩]

def failedCall : Completed Unit :=
  .connectBackend 8080
    [⟨⟨.fetchAdd 8080, some 0⟩, [⟨.fetchAdd 8080, some 0⟩]⟩,
      ⟨⟨.getTargetStatus "a:1", .ok (.alive none)⟩, [⟨.load "a:1", .ok (.alive none)⟩]⟩,
      ⟨⟨.connect "a:1" 8080, .tryNext⟩, failedAttempt.trace⟩]
    (.error (exhaustedError 8080))

theorem failedCall_sequential :
    ∃ s : Store 64, s.clock = 7 ∧
      Sequential oneAppConfig (.new oneAppConfig oneAppTargets 0) failedCall s := by
  let start : Store 64 := .new oneAppConfig oneAppTargets 0
  have attempted : ∃ s : Store 64, (start.bump 8080).Runs failedAttempt.trace s ∧ s.clock = 7 :=
    ⟨_, .cons rfl (.cons ⟨rfl, rfl⟩ (.cons ⟨by decide, rfl⟩ (.cons ⟨by decide, rfl⟩
      (.cons ⟨rfl, rfl⟩ (.nil _))))), rfl⟩
  obtain ⟨s, runs, clock⟩ := attempted
  have drawn : start.Runs [(⟨.fetchAdd 8080, some 0⟩ : (Stack Unit).Event)] (start.bump 8080) :=
    .single ⟨rfl, rfl⟩
  have checked : (start.bump 8080).Runs [(⟨.load "a:1", .ok (.alive none)⟩ : (Stack Unit).Event)]
      (start.bump 8080) := .single ⟨rfl, rfl⟩
  exact ⟨s, clock, .connectBackend (.cons (.cons (.cons (.nil _))))
    (.cons ⟨.cons (.nil _), drawn⟩ (.cons ⟨.cons (.nil _), checked⟩
      (.cons ⟨.cons (.cons (.cons (.cons (.cons (.nil _))))), runs⟩ (.nil s))))⟩

theorem failedCall_cools :
    ∃ s : Store 64, Run (Sequential oneAppConfig) (.new oneAppConfig oneAppTargets 0) [failedCall] s ∧
      Cooling s "a:1" 8 ∧ ¬ Cooling s "a:1" (7 + COOLDOWN) := by
  obtain ⟨s, clock, call⟩ := failedCall_sequential
  have backend : ∃ app ∈ oneApp.apps, "a:1" ∈ app.targets :=
    ⟨_, List.mem_singleton.mpr rfl, List.mem_singleton.mpr rfl⟩
  have history := (cooldown_is_history (show TargetState.tryFrom oneApp = .ok oneAppTargets from rfl)
    (.single call) backend).1 (by simp [Drained, failedCall])
  refine ⟨s, .single call, (history 8 (by rw [clock]; decide)).mpr ?_, fun cooling => ?_⟩
  · exact ⟨failedAttempt, 7, rfl, rfl, rfl, by decide⟩
  · obtain ⟨a, reading, hlast, -, hreading, running⟩ :=
      (history (7 + COOLDOWN) (by rw [clock]; decide)).mp cooling
    cases (show some failedAttempt = some a from hlast)
    cases (show some 7 = some reading from hreading)
    exact absurd running (Nat.lt_irrefl _)

end TcpProxy
