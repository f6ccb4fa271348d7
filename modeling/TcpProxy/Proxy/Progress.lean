import TcpProxy.Proxy.Forwarding
import TcpProxy.Lib.Fair

/-! # No connection starves

Where tasks are scheduled fairly and what `do_connection` asks is always answered at last,
every accepted connection comes to its end.  A task with an open permit goes through its
phases and its program to the end; a queued one waits for those before it, and each end of
a task with an open permit moves it up. -/

namespace TcpProxy

open Effects Effects.Program Lts

variable {w : Nat} {Stream : Type}

namespace Admission

variable {C Q : Nat} {s t : Admission} {e : Event} {i j : Nat}

@[simp] theorem releaseOpen_open (s : Admission) :
    s.releaseOpen.openConnections = s.openConnections.release.2 := by
  rw [releaseOpen]
  split <;> rfl

/-- What a step does to the open permits. -/
theorem open_step (h : s.step e = some t) :
    t.openConnections.waiters = s.openConnections.waiters ∨
      (∃ j, t.openConnections = (s.openConnections.acquire j).2) ∨
      (∃ j, t.openConnections = s.openConnections.forget j) ∨
      t.openConnections = s.openConnections.release.2 := by
  cases e with
  | tryOpen l =>
    obtain ⟨sem, taken, rfl⟩ := Option.map_eq_some_iff.mp h
    exact .inl (Semaphore.tryAcquire_some taken).2
  | tryQueue l =>
    obtain ⟨sem, -, rfl⟩ := Option.map_eq_some_iff.mp h
    exact .inl rfl
  | reap j => exact .inl (congrArg Semaphore.waiters (reap_frame h).1)
  | poll j =>
    simp only [step, poll] at h
    split at h
    next => cases h; exact .inl rfl
    next => cases h; exact .inr (.inl ⟨j, rfl⟩)
    next => cases h; exact .inl rfl
    next => cases h
  | dropQueueSlot j =>
    simp only [step, dropQueueSlot] at h
    split at h
    next => cases h; exact .inl rfl
    next => cases h
  | finish j result =>
    simp only [step, finish] at h
    split at h
    next =>
      split at h
      next => cases h
      next => cases h; exact .inr (.inr (.inr (releaseOpen_open _)))
    next => cases h
  | abort j =>
    simp only [step, abort] at h
    split at h
    next => cases h; exact .inr (.inr (.inr (releaseOpen_open _)))
    next => cases h; exact .inr (.inr (.inr (releaseOpen_open _)))
    next => cases h; exact .inl rfl
    next => cases h; exact .inr (.inr (.inl ⟨j, rfl⟩))
    next => cases h; exact .inr (.inr (.inr (releaseOpen_open _)))
    next => cases h; exact .inr (.inr (.inr (releaseOpen_open _)))
    next => cases h

/-- A task that ends with an open permit gives it back. -/
theorem open_of_end (waits : s.Waits) (h : s.step e = some t) {p : Phase} {r : TaskEnd}
    (holds : p.holdsOpen = true) (before : s.phase? j = some p) (after : t.phase? j = some (.finished r)) :
    t.openConnections = s.openConnections.release.2 := by
  have mine : e.task? = some j := by
    by_contra other
    rcases step_other waits h other with same | ⟨-, -, now⟩ | ⟨-, was, -⟩
    · rw [same, before] at after
      cases after
      cases holds
    · rw [after] at now
      cases now
    · rw [before] at was
      cases was
  obtain ⟨q, q', was, now, moves⟩ := step_self waits h mine
  rw [before] at was
  rw [after] at now
  cases was
  cases now
  cases moves with
  | ends =>
    simp only [step, finish, before] at h
    split at h
    next => cases h
    next => cases h; exact releaseOpen_open _
  | aborted =>
    simp only [step, abort, before] at h
    cases p with
    | queued | waiting | finished => cases holds
    | accepted | connecting => cases h; exact releaseOpen_open _
    | assigned | admitted => cases h; exact releaseOpen_open _

theorem ahead_step (fair : Accounted C Q s) (h : s.step e = some t) (before : s.phase? i = some .waiting)
    (after : t.phase? i = some .waiting) : t.openConnections.ahead i ≤ s.openConnections.ahead i := by
  have waits := (fair.waiting i).mpr before
  have still := ((accounted_step fair h).waiting i).mpr after
  rcases open_step h with same | ⟨j, asked⟩ | ⟨j, gone⟩ | served
  · rw [Semaphore.ahead, same]
    rfl
  · rw [asked, Semaphore.ahead_acquire waits]
  · rw [gone] at still ⊢
    exact Semaphore.ahead_forget (Semaphore.mem_forget.mp still).2.symm
  · rw [served] at still ⊢
    have moved := Semaphore.ahead_release fair.nodup still
    omega

theorem ahead_of_end (fair : Accounted C Q s) (h : s.step e = some t) {p : Phase} {r : TaskEnd}
    (holds : p.holdsOpen = true) (before : s.phase? j = some p) (after : t.phase? j = some (.finished r))
    (waits : t.phase? i = some .waiting) : t.openConnections.ahead i < s.openConnections.ahead i := by
  have still := ((accounted_step fair h).waiting i).mpr waits
  rw [open_of_end fair.waiting h holds before after] at still ⊢
  have moved := Semaphore.ahead_release fair.nodup still
  omega

/-- While somebody waits, every open permit is with a task. -/
theorem Accounted.holder (fair : Accounted C Q s) (room : 0 < C) (waits : s.phase? i = some .waiting) :
    ∃ j p, s.phase? j = some p ∧ p.holdsOpen = true := by
  have queue := (fair.waiting i).mpr waits
  have none_free := s.openConnections.parked.resolve_left fun empty => by
    rw [empty] at queue
    cases queue
  have held : 0 < s.held Phase.holdsOpen := by
    have := fair.opens
    omega
  obtain ⟨c, present, holds⟩ := List.countP_pos_iff.mp held
  obtain ⟨j, found⟩ := List.mem_iff_getElem?.mp present
  exact ⟨j, c.phase, congrArg (Option.map Connection.phase) found, holds⟩

end Admission

/-- An open permit stays with its task until that ends. -/
theorem Phase.Moves.keeps_open {j : Nat} {p p' : Phase} {f : Admission.Event}
    (moves : p.Moves j f p')
    (holds : p.holdsOpen = true) : p'.holdsOpen = true ∨ ∃ r, p' = .finished r := by
  cases moves with
  | granted | parked => cases holds
  | start | resume | enter => exact .inl rfl
  | ends | aborted => exact .inr ⟨_, rfl⟩

/-- Every connection came in on a port. -/
theorem Server.Owned.port {s : Server} (h : s.Owned) {i : Nat} {p : Phase}
    (here : s.admission.phase? i = some p) : ∃ port, s.portOf? i = some port := by
  obtain ⟨c, found, rfl⟩ := Option.map_eq_some_iff.mp here
  have owner : s.admission.owner? i = some c.listener := congrArg (Option.map Connection.listener) found
  obtain ⟨gone, at_i⟩ := Admission.record?_of_owner? owner
  obtain ⟨p, at_p⟩ := h i c.listener gone at_i
  obtain ⟨listener, listens, -⟩ := Option.map_eq_some_iff.mp at_p
  exact ⟨listener.port, by rw [portOf?, owner, Option.bind_some, listens, Option.map_some]⟩

/-- Every operation can be answered. -/
theorem Store.answerable (s : Store w) (op : (Forward Stream).Op) :
    ∃ a t, s.Forwards ⟨op, a⟩ t := by
  cases op with
  | inl op =>
    cases op with
    | fetchAdd port => exact ⟨_, _, rfl, rfl⟩
    | load target => exact ⟨_, _, rfl, rfl⟩
    | store target status => exact ⟨_, _, rfl, rfl⟩
    | now => exact ⟨s.clock, _, Nat.le_refl _, rfl⟩
    | lookupHost target => exact ⟨.ok [], _, rfl⟩
    | connectAddr addr => exact ⟨.error .elapsed, _, rfl⟩
  | inr copy => exact ⟨.ok (0, 0), _, rfl⟩

namespace Proxy

variable {config : ProxyConfig} {copyBufSize C Q : Nat} {x y : Proxy w Stream} {e : Event Stream}
  {i j : Nat}

def phase? (x : Proxy w Stream) (i : Nat) : Option Phase := x.server.admission.phase? i

/-- The task whose step an event is, its abort included. -/
def Event.mover? : Event Stream → Option Nat
  | .server e | .enter e _ => e.onAdmission.bind Admission.Event.task?
  | .act i _ => some i

/-- What a step does to the phase of one connection, and who does it. -/
theorem phase_step (waits : x.server.admission.Waits) (step : Step config copyBufSize x e y) (i : Nat) :
    (y.phase? i = x.phase? i ∧ (e.mover? = some i → ∃ a, e = .act i a)) ∨
      (∃ f p p', x.phase? i = some p ∧ y.phase? i = some p' ∧ p.Moves i f p') ∨
      (x.phase? i = some .waiting ∧ y.phase? i = some .assigned) ∨ x.phase? i = none := by
  have of_server : ∀ {f : Server.Event} {t : Server}, x.server.step f = some t →
      (t.admission.phase? i = x.phase? i ∧ f.onAdmission.bind Admission.Event.task? ≠ some i) ∨
        (∃ f p p', x.phase? i = some p ∧ t.admission.phase? i = some p' ∧ p.Moves i f p') ∨
        (x.phase? i = some .waiting ∧ t.admission.phase? i = some .assigned) ∨ x.phase? i = none := by
    intro f t moved
    by_cases mine : f.onAdmission.bind Admission.Event.task? = some i
    · obtain ⟨g, asks, task⟩ := Option.bind_eq_some_iff.mp mine
      obtain ⟨p, p', before, after, moves⟩ :=
        Admission.step_self waits (Server.task_step moved asks task) task
      exact .inr (.inl ⟨g, p, p', before, after, moves⟩)
    · rcases Server.step_phase waits moved i with same | ⟨g, -, -, ⟨p, p', -, move⟩ | ⟨-, handed⟩ | ⟨-, new, -⟩⟩
      · exact .inl ⟨same, mine⟩
      · exact .inr (.inl ⟨g, p, p', move⟩)
      · exact .inr (.inr (.inl handed))
      · exact .inr (.inr (.inr new))
  cases step with
  | server moved _ _ =>
    exact (of_server moved).imp_left fun ⟨same, other⟩ => ⟨same, fun mine => absurd mine other⟩
  | enter moved _ _ =>
    exact (of_server moved).imp_left fun ⟨same, other⟩ => ⟨same, fun mine => absurd mine other⟩
  | act _ _ =>
    refine .inl ⟨rfl, fun mine => ?_⟩
    cases mine
    exact ⟨_, rfl⟩

/-- What the invariants of the server and of the bodies say of every state. -/
structure Orderly (C Q : Nat) (x : Proxy w Stream) : Prop where
  synced : Synced C Q x
  owned : x.server.Owned

theorem orderly_step (h : Orderly C Q x) (step : Step config copyBufSize x e y) : Orderly C Q y := by
  refine ⟨synced_step h.synced step, ?_⟩
  cases step with
  | server moved _ _ => exact Server.owned_step h.owned moved
  | enter moved _ _ => exact Server.owned_step h.owned moved
  | act _ _ => exact h.owned

/-- The body of a task moves on only by the answers it gets. -/
theorem threads_step (h : Synced C Q x) (step : Step config copyBufSize x e y)
    {q : Program (Forward Stream) (Except ProxyError Unit)} (running : x.bodies.threads j = some q) :
    y.bodies.threads j = some q ∨
      ∃ op next a, q = .ask op next ∧ y.bodies.threads j = some (next a) := by
  cases step with
  | server moved _ _ => exact .inl running
  | @enter f t client moved enters port =>
    have other : j ≠ client.inSock := by
      rintro rfl
      rw [h.free moved enters] at running
      cases running
    exact .inl (by simpa [other] using running)
  | @act i _ _ connecting acted =>
    cases acted with
    | @act _ op next a s asking answered =>
      by_cases same : j = i
      · subst same
        rw [running] at asking
        cases asking
        exact .inr ⟨op, next, a, rfl, Function.update_self ..⟩
      · exact .inl (by simpa [same] using running)

/-- An answer takes the body of its task on. -/
theorem threads_act {a : (Forward Stream).Event} (step : Step config copyBufSize x (.act j a) y)
    {op : (Forward Stream).Op} {next : (Forward Stream).Ans op → Program (Forward Stream) _}
    (running : x.bodies.threads j = some (.ask op next)) : ∃ b, y.bodies.threads j = some (next b) := by
  cases step with
  | act _ acted =>
    cases acted with
    | @act _ op next' b s asking answered =>
      rw [running] at asking
      cases asking
      exact ⟨b, Function.update_self ..⟩

/-- A task that is not waiting for a permit can take the step into its next phase. -/
theorem ready_step (orderly : Orderly C Q x) {p : Phase} (here : x.phase? j = some p)
    (unfinished : p.unfinished = true) (active : p ≠ .waiting) (outside : p ≠ .connecting) :
    Enabled (Step config copyBufSize) (fun e => e.mover? = some j) x := by
  obtain ⟨port, at_port⟩ := orderly.owned.port here
  have at_p : x.server.admission.phase? j = some p := here
  have polled : ∀ a, x.server.admission.poll j = some a → ∃ t, x.server.step (.poll j) = some t :=
    fun a taken => ⟨{ x.server with admission := a }, congrArg (Option.map _) taken⟩
  cases p with
  | waiting => exact absurd rfl active
  | connecting => exact absurd rfl outside
  | finished => cases unfinished
  | accepted =>
    obtain ⟨t, moved⟩ := polled _ (by rw [Admission.poll, at_p])
    exact ⟨.enter (.poll j) ⟨port, j⟩, _, rfl, .enter moved (if_pos at_p) at_port⟩
  | queued =>
    obtain ⟨t, moved⟩ := polled _ (by rw [Admission.poll, at_p])
    exact ⟨.server (.poll j), _, rfl, .server moved (if_neg (by simp [at_p])) trivial⟩
  | assigned =>
    obtain ⟨t, moved⟩ := polled _ (by rw [Admission.poll, at_p])
    exact ⟨.server (.poll j), _, rfl, .server moved (if_neg (by simp [at_p])) trivial⟩
  | admitted =>
    have dropped : x.server.admission.dropQueueSlot j =
        some (x.server.admission.setPhase j .connecting).releaseSlot := by
      rw [Admission.dropQueueSlot, at_p]
    exact ⟨.enter (.dropQueueSlot j) ⟨port, j⟩, ⟨{ x.server with admission := _ }, _, _⟩, rfl,
      .enter (congrArg (Option.map _) dropped) rfl at_port⟩

/-- A task stays in `do_connection`, or is over. -/
theorem connecting_step (orderly : Orderly C Q x) (here : x.phase? j = some .connecting)
    (step : Step config copyBufSize x e y) :
    (∃ r, y.phase? j = some (.finished r)) ∨
      y.phase? j = some .connecting ∧ (e.mover? = some j → ∃ a, e = .act j a) := by
  rcases phase_step orderly.synced.accounted.waiting step j with
    ⟨same, mine⟩ | ⟨f, p, p', before, after, moves⟩ | ⟨waits, -⟩ | absent
  · exact .inr ⟨same.trans here, mine⟩
  · rw [here] at before
    cases before
    cases moves with
    | ends | aborted => exact .inl ⟨_, after⟩
  · rw [here] at waits
    cases waits
  · rw [here] at absent
    cases absent

/-- A task whose program has returned can end. -/
theorem finish_enabled (here : x.phase? j = some .connecting) {r : Except ProxyError Unit}
    (running : x.bodies.threads j = some (.ret r)) :
    Enabled (Step config copyBufSize) (fun e => e.mover? = some j) x := by
  have returned : TaskEnd.of r ≠ .aborted := by
    rcases r with e | u
    · exact TaskEnd.noConfusion
    · exact TaskEnd.noConfusion
  have ended : x.server.admission.finish j (.of r) =
      some (x.server.admission.setPhase j (.finished (.of r))).releaseOpen := by
    have at_p : x.server.admission.phase? j = some .connecting := here
    simp only [Admission.finish, at_p, if_neg returned]
  have lets : x.Lets (.finish j (.of r)) := by
    rcases r with e | u
    · exact ⟨_, running, rfl⟩
    · exact ⟨_, running, rfl⟩
  exact ⟨.server (.finish j (.of r)), ⟨{ x.server with admission := _ }, _⟩, rfl,
    .server (congrArg (Option.map _) ended) rfl lets⟩

/-- Task `i` waits behind at most `k` others, and task `j` has an open permit. -/
structure Behind (i j k : Nat) (x : Proxy w Stream) : Prop where
  waiting : x.phase? i = some .waiting
  ahead : x.server.admission.openConnections.ahead i ≤ k
  holder : ∃ p, x.phase? j = some p ∧ p.holdsOpen = true

theorem Behind.unfinished {k : Nat} (h : Behind i j k x) {r : TaskEnd} :
    x.phase? j ≠ some (.finished r) := by
  intro past
  obtain ⟨p, here, holds⟩ := h.holder
  rw [past] at here
  cases here
  cases holds

theorem admission_step (step : Step config copyBufSize x e y) :
    y.server.admission = x.server.admission ∨
      ∃ f, x.server.admission.step f = some y.server.admission := by
  cases step with
  | server moved _ _ => exact (Server.projects_step moved).imp_right fun ⟨f, _, step⟩ => ⟨f, step⟩
  | enter moved _ _ => exact (Server.projects_step moved).imp_right fun ⟨f, _, step⟩ => ⟨f, step⟩
  | act _ _ => exact .inl rfl

theorem behind_step {k : Nat} (orderly : Orderly C Q x) (h : Behind i j k x)
    (step : Step config copyBufSize x e y) :
    ((y.phase? i = some .assigned ∨ ∃ r, y.phase? i = some (.finished r)) ∨
      y.phase? i = some .waiting ∧ y.server.admission.openConnections.ahead i < k) ∨
    Behind i j k y := by
  have fair := orderly.synced.accounted
  obtain ⟨waiting, at_most, p, holder, holds⟩ := h
  rcases phase_step fair.waiting step i with
    ⟨same, -⟩ | ⟨f, q, q', before, after, moves⟩ | ⟨-, served⟩ | absent
  · have still := same.trans waiting
    have no_later : y.server.admission.openConnections.ahead i ≤ k := by
      rcases admission_step step with same | ⟨f, moved⟩
      · rw [same]
        exact at_most
      · exact Nat.le_trans (Admission.ahead_step fair moved waiting still) at_most
    -- Either `j` keeps its permit, or it gives it back and `i` moves up.
    rcases phase_step fair.waiting step j with
      ⟨same, -⟩ | ⟨f, q, q', before, after, moves⟩ | ⟨waits, -⟩ | absent
    · exact .inr ⟨still, no_later, p, same.trans holder, holds⟩
    · rw [holder] at before
      cases before
      rcases moves.keeps_open holds with kept | ⟨r, rfl⟩
      · exact .inr ⟨still, no_later, q', after, kept⟩
      · rcases admission_step step with same | ⟨g, moved⟩
        · rw [phase?, same] at after
          rw [phase?, after] at holder
          cases holder
          cases holds
        · have up := Admission.ahead_of_end fair moved holds holder after still
          exact .inl (.inr ⟨still, by omega⟩)
    · rw [holder] at waits
      cases waits
      cases holds
    · rw [holder] at absent
      cases absent
  · rw [waiting] at before
    cases before
    cases moves with
    | aborted => exact .inl (.inl (.inr ⟨_, after⟩))
  · exact .inl (.inl (.inl served))
  · rw [waiting] at absent
    cases absent

section Fair

variable {b : Behaviour (@Step w Stream config copyBufSize)}
  (always : ∀ n, Orderly C Q (b.state n)) (fair : ∀ i, b.WeaklyFair fun e => e.mover? = some i)

include always fair

/-- A task that is not waiting for a permit, and not in `do_connection`, moves on. -/
theorem moves_on (j : Nat) {p : Phase} (unfinished : p.unfinished = true) (active : p ≠ .waiting)
    (outside : p ≠ .connecting) :
    b.LeadsTo (fun x => x.phase? j = some p) fun x => ∃ f p', x.phase? j = some p' ∧ p.Moves j f p' := by
  refine Behaviour.leadsTo_of_fair always (fair j) ?_ ?_
  · intro x e y orderly here step
    rcases phase_step orderly.synced.accounted.waiting step j with
      ⟨same, mine⟩ | ⟨f, q, p', before, after, moves⟩ | ⟨waits, -⟩ | absent
    · refine .inr ⟨same.trans here, fun taken => ?_⟩
      obtain ⟨a, rfl⟩ := mine taken
      cases step with
      | act connecting _ =>
        rw [phase?] at here
        rw [connecting] at here
        cases here
        exact outside rfl
    · rw [here] at before
      cases before
      exact .inl ⟨f, p', after, moves⟩
    · rw [here] at waits
      cases waits
      exact absurd rfl active
    · rw [here] at absent
      cases absent
  · intro x orderly here
    exact ready_step orderly here unfinished active outside

/-- What the program asks is answered, down to its result, and then the task ends. -/
theorem connecting_ends (j : Nat) :
    b.LeadsTo (fun x => x.phase? j = some .connecting) fun x => ∃ r, x.phase? j = some (.finished r) := by
  have ends : ∀ q : Program (Forward Stream) (Except ProxyError Unit),
      b.LeadsTo (fun x => x.phase? j = some .connecting ∧ x.bodies.threads j = some q)
        fun x => ∃ r, x.phase? j = some (.finished r) := by
    intro q
    induction q with
    | ret r =>
      refine Behaviour.leadsTo_of_fair always (fair j) ?_ fun x _ ⟨here, running⟩ => ?_
      · intro x e y orderly ⟨here, running⟩ step
        refine (connecting_step orderly here step).imp_right fun ⟨still, mine⟩ => ⟨⟨still, ?_⟩, fun taken => ?_⟩
        · rcases threads_step orderly.synced step running with same | ⟨op, next, a, asks, -⟩
          · exact same
          · cases asks
        · obtain ⟨a, rfl⟩ := mine taken
          cases step with
          | act _ acted =>
            cases acted with
            | act asking _ =>
              rw [running] at asking
              cases asking
      · exact finish_enabled here running
    | ask op next ih =>
      refine .resolve (R := fun x => ∃ a, x.phase? j = some .connecting ∧ x.bodies.threads j = some (next a))
        (Behaviour.leadsTo_of_fair always (fair j) ?_ fun x _ ⟨here, running⟩ => ?_) (.exists ih)
      · intro x e y orderly ⟨here, running⟩ step
        rcases connecting_step orderly here step with past | ⟨still, mine⟩
        · exact .inl (.inl past)
        · by_cases own : e.mover? = some j
          · obtain ⟨a, rfl⟩ := mine own
            obtain ⟨a, goes_on⟩ := threads_act step running
            exact .inl (.inr ⟨a, still, goes_on⟩)
          · rcases threads_step orderly.synced step running with same | ⟨_, _, a, asks, goes_on⟩
            · exact .inr ⟨⟨still, same⟩, own⟩
            · cases asks
              exact .inl (.inr ⟨a, still, goes_on⟩)
      · obtain ⟨a, t, answered⟩ := x.bodies.store.answerable op
        exact ⟨.act j ⟨op, a⟩, _, rfl, .act here (.act running answered)⟩
  refine .trans (.of_always always fun x orderly here => ?_) (.exists ends)
  obtain ⟨q, running⟩ := orderly.synced.bodies j here
  exact ⟨q, here, running⟩

/-- A task ends from a phase, if it does from each that can follow. -/
theorem ends_from (j : Nat) {p : Phase} (unfinished : p.unfinished = true) (active : p ≠ .waiting)
    (outside : p ≠ .connecting) (next : ∀ f p', p.Moves j f p' → b.LeadsTo (fun x => x.phase? j = some p')
      fun x => ∃ r, x.phase? j = some (.finished r)) :
    b.LeadsTo (fun x => x.phase? j = some p) fun x => ∃ r, x.phase? j = some (.finished r) := by
  refine (moves_on always fair j unfinished active outside).trans ?_
  rintro n ⟨f, p', here, moves⟩
  exact next f p' moves n here

/-- A task with an open permit ends. -/
theorem holder_ends (j : Nat) : b.LeadsTo (fun x => ∃ p, x.phase? j = some p ∧ p.holdsOpen = true)
    fun x => ∃ r, x.phase? j = some (.finished r) := by
  have past (r : TaskEnd) : b.LeadsTo (fun x => x.phase? j = some (.finished r))
      fun x => ∃ r, x.phase? j = some (.finished r) := .of_always always fun _ _ here => ⟨r, here⟩
  have connecting := connecting_ends always fair j
  have accepted := ends_from always fair j (p := .accepted) rfl (by decide) (by decide) fun _ _ moves => by
    cases moves with
    | start => exact connecting
    | aborted => exact past .aborted
  have admitted := ends_from always fair j (p := .admitted) rfl (by decide) (by decide) fun _ _ moves => by
    cases moves with
    | enter => exact connecting
    | aborted => exact past .aborted
  have assigned := ends_from always fair j (p := .assigned) rfl (by decide) (by decide) fun _ _ moves => by
    cases moves with
    | resume => exact admitted
    | aborted => exact past .aborted
  rintro n ⟨p, here, holds⟩
  cases p with
  | queued | waiting | finished => cases holds
  | accepted => exact accepted n here
  | assigned => exact assigned n here
  | admitted => exact admitted n here
  | connecting => exact connecting n here

/-- A waiting task gets its permit: while it waits some task has an open permit, and each
    time one that has ends, it moves up in the FIFO. -/
theorem waiting_served (room : 0 < C) (i : Nat) : b.LeadsTo (fun x => x.phase? i = some .waiting)
    fun x => x.phase? i = some .assigned ∨ ∃ r, x.phase? i = some (.finished r) := by
  refine .of_rank (fun x => x.server.admission.openConnections.ahead i) fun k => ?_
  have moves_up (j : Nat) := (holder_ends always fair j).before (P := Behind i j k) always
    (fun x behind => behind.holder) (fun x ⟨r, past⟩ behind => behind.unfinished past)
    fun x e y orderly behind step => behind_step orderly behind step
  refine .trans (.of_always always fun x orderly ⟨here, at_k⟩ => ?_) (.exists moves_up)
  obtain ⟨j, holder⟩ := orderly.synced.accounted.holder room here
  exact ⟨j, here, Nat.le_of_eq at_k, holder⟩

/-- Every task ends. -/
theorem task_ends (room : 0 < C) (i : Nat) : b.LeadsTo (fun x => ∃ p, x.phase? i = some p)
    fun x => ∃ r, x.phase? i = some (.finished r) := by
  have past (r : TaskEnd) : b.LeadsTo (fun x => x.phase? i = some (.finished r))
      fun x => ∃ r, x.phase? i = some (.finished r) := .of_always always fun _ _ here => ⟨r, here⟩
  have holder {p : Phase} (holds : p.holdsOpen = true) : b.LeadsTo (fun x => x.phase? i = some p)
      fun x => ∃ r, x.phase? i = some (.finished r) := fun n here => holder_ends always fair i n ⟨p, here, holds⟩
  have waiting : b.LeadsTo (fun x => x.phase? i = some .waiting)
      fun x => ∃ r, x.phase? i = some (.finished r) :=
    .resolve (.mono (waiting_served always fair room i) (fun _ => id) fun _ => Or.symm)
      (holder (p := .assigned) rfl)
  rintro n ⟨p, here⟩
  cases p with
  | accepted | assigned | admitted | connecting => exact holder rfl n here
  | waiting => exact waiting n here
  | finished r => exact past r n here
  | queued =>
    refine ends_from always fair i (p := .queued) rfl (by decide) (by decide) (fun _ _ moves => ?_) n here
    cases moves with
    | granted => exact holder rfl
    | parked => exact waiting
    | aborted => exact past .aborted

end Fair

/-- Only a task that is not over takes steps. -/
theorem unfinished_of_mover (waits : x.server.admission.Waits) (step : Step config copyBufSize x e y)
    (mine : e.mover? = some i) : ∃ p, x.phase? i = some p ∧ p.unfinished = true := by
  have of_server : ∀ {f : Server.Event} {t : Server}, x.server.step f = some t →
      f.onAdmission.bind Admission.Event.task? = some i → ∃ p, x.phase? i = some p ∧ p.unfinished = true := by
    intro f t moved mine
    obtain ⟨g, asks, task⟩ := Option.bind_eq_some_iff.mp mine
    obtain ⟨p, p', before, -, moves⟩ := Admission.step_self waits (Server.task_step moved asks task) task
    refine ⟨p, before, ?_⟩
    cases moves with
    | aborted unfinished => exact unfinished
    | start | granted | parked | resume | enter | ends => rfl
  cases step with
  | server moved _ _ => exact of_server moved mine
  | enter moved _ _ => exact of_server moved mine
  | act connecting _ =>
    cases mine
    exact ⟨_, connecting, rfl⟩

theorem orderly_always {targets : TargetState} {bindAddr : IpAddr} {clock : Instant}
    {b : Behaviour (@Step w Stream config copyBufSize)}
    (start : b.state 0 = new config targets C Q bindAddr clock) (n : Nat) : Orderly C Q (b.state n) := by
  refine b.always ?_ (fun _ _ _ => orderly_step) n
  rw [start]
  exact ⟨synced_new config targets C Q bindAddr clock, Server.owned_new config C Q bindAddr⟩

/-- Under fair scheduling, and where every operation is answered at last, every accepted
    connection ends; and one that has not been served yet is served first, unless it is
    aborted. -/
theorem no_connection_starves {targets : TargetState} {bindAddr : IpAddr} {clock : Instant}
    {b : Behaviour (@Step w Stream config copyBufSize)}
    (start : b.state 0 = new config targets C Q bindAddr clock) (room : 0 < C)
    (fair : ∀ i, b.WeaklyFair fun e => e.mover? = some i) (i : Nat) :
    b.LeadsTo (fun x => ∃ p, x.phase? i = some p) (fun x => ∃ r, x.phase? i = some (.finished r)) ∧
    b.LeadsTo (fun x => ∃ p, x.phase? i = some p ∧ p.begun = false)
      (fun x => x.phase? i = some .connecting ∨ x.phase? i = some (.finished .aborted)) := by
  have always := orderly_always start
  refine ⟨task_ends always fair room i, (task_ends always fair room i).before always ?_ ?_ ?_⟩
  · exact fun x ⟨p, here, _⟩ => ⟨p, here⟩
  · rintro x ⟨r, past⟩ ⟨p, here, before⟩
    rw [past] at here
    cases here
    cases before
  · rintro x e y orderly ⟨p, here, before⟩ step
    rcases phase_step orderly.synced.accounted.waiting step i with
      ⟨same, -⟩ | ⟨f, q, q', was, after, moves⟩ | ⟨-, served⟩ | absent
    · exact .inr ⟨p, same.trans here, before⟩
    · rw [here] at was
      cases was
      cases moves with
      | start | enter => exact .inl (.inl after)
      | ends => cases before
      | aborted => exact .inl (.inr after)
      | granted | parked | resume => exact .inr ⟨_, after, rfl⟩
    · exact .inr ⟨.assigned, served, rfl⟩
    · rw [here] at absent
      cases absent

end Proxy

/-- The copy ends, and with it the connection. -/
def servedToEnd : List (Proxy.Event Unit) :=
  forwarded ++ [.act 0 ⟨.inr ⟨0, (), 1024, 1024⟩, .ok (3, 5)⟩, .server (.finish 0 .ok)]

theorem servedToEnd_run : ∃ x : Proxy 64 Unit,
    Run (Proxy.Step onePort 1024) (.new onePort onePortTargets 1 1 localhostAddr 0) servedToEnd x ∧
    ∀ i p, x.phase? i = some p → p.unfinished = false := by
  obtain ⟨x, run, active, running⟩ := forwarded_run
  have here : x.server.admission.phase? 0 = some .connecting := by rw [Admission.phase?, active]; rfl
  have ended : x.server.admission.finish 0 .ok =
      some (x.server.admission.setPhase 0 (.finished .ok)).releaseOpen := by
    rw [Admission.finish, here]
    rfl
  have returned : (Function.update x.bodies.threads 0
      (some (.ret (.ok ()) : Program (Forward Unit) (Except ProxyError Unit)))) 0 = some (.ret (.ok ())) :=
    Function.update_self ..
  refine ⟨_, run.append (.cons (.act here (.act running rfl))
    (.cons (.server (congrArg (Option.map _) ended) rfl ⟨_, returned, rfl⟩) (.nil _))), ?_⟩
  have past : ∀ i p, (x.server.admission.setPhase 0 (.finished .ok)).phase? i = some p →
      p = .finished .ok := by
    intro i p here
    rw [Admission.phase?, Admission.setPhase, active] at here
    cases i with
    | zero => exact (Option.some.inj here).symm
    | succ i => cases here
  have waits := (Server.accounted_of_run (Proxy.server_run run)).waiting.setPhase here
    (.finished .ok) (by decide) (by decide)
  intro i p at_p
  rcases Admission.phase?_releaseOpen waits i with same | ⟨waiting, -⟩
  · obtain rfl := past i p (same.symm.trans at_p)
    rfl
  · cases past i _ waiting

theorem servedToEnd_fair : ∃ b : Behaviour (@Proxy.Step 64 Unit onePort 1024),
    b.state 0 = .new onePort onePortTargets 1 1 localhostAddr 0 ∧
    (∀ i, b.WeaklyFair fun e => e.mover? = some i) ∧ ∀ n e, b.label n = some e → e ∈ servedToEnd := by
  obtain ⟨x, run, past⟩ := servedToEnd_run
  have waits := (Server.accounted_of_run (Proxy.server_run run)).waiting
  obtain ⟨b, start, stop, along⟩ := Behaviour.exists_of_run run
  refine ⟨b, start, fun i => Behaviour.weaklyFair_of_stop stop ?_, along⟩
  rintro ⟨e, y, mine, step⟩
  obtain ⟨p, here, unfinished⟩ := Proxy.unfinished_of_mover waits step mine
  rw [past i p here] at unfinished
  cases unfinished

theorem servedToEnd_does_not_starve : ∃ b : Behaviour (@Proxy.Step 64 Unit onePort 1024),
    b.state 0 = .new onePort onePortTargets 1 1 localhostAddr 0 ∧
    b.LeadsTo (fun x => ∃ p, x.phase? 0 = some p) (fun x => ∃ r, x.phase? 0 = some (.finished r)) ∧
    b.LeadsTo (fun x => ∃ p, x.phase? 0 = some p ∧ p.begun = false)
      (fun x => x.phase? 0 = some .connecting ∨ x.phase? 0 = some (.finished .aborted)) := by
  obtain ⟨b, start, fair, -⟩ := servedToEnd_fair
  exact ⟨b, start, Proxy.no_connection_starves start (by decide) fair 0⟩

end TcpProxy
