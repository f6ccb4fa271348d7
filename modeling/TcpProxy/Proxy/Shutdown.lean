import TcpProxy.Proxy.Lifecycle
import TcpProxy.Proxy.Rejection

/-! # Shutdown

What becomes of the connections once a listener has left its accept loop: no new one comes,
and one is cut off only if the listener panicked or its drain deadline fired.  `Timed` adds
the clock, by which the deadline fires no sooner than ten seconds after the listener began
to drain. -/

namespace TcpProxy

open Lts (Run Fires exec run_of_exec)

theorem ListenPhase.Moves.closed {p p' : ListenPhase} {e : ListenEvent} (moves : Moves p e p')
    (h : p.accepts = false) : p'.accepts = false := by
  cases moves with
  | start | reaped | connected | noPermit | transient | permanent | queue => cases h
  | reap => exact h
  | cancelled | drained | deadline | panic => rfl

namespace Server

variable {C Q : Nat} {es : List Event} {s t : Server} {e : Event} {i l : Nat}

theorem listenPhase?_closed (h : s.step e = some t) {p : ListenPhase}
    (before : s.listenPhase? l = some p) (closed : p.accepts = false) :
    ∃ p', t.listenPhase? l = some p' ∧ p'.accepts = false := by
  rcases step_listener h l with ⟨le, q, p', -, at_q, moves, after⟩ | ⟨-, absent, -⟩ | ⟨-, same⟩
  · rw [before] at at_q
    cases at_q
    exact ⟨p', after, moves.closed closed⟩
  · rw [before] at absent
    cases absent
  · exact ⟨p, same.trans before, closed⟩

/-- What holds in every run about the tasks of listeners that are going down. -/
structure Shutting (C Q : Nat) (es : List Event) (s : Server) : Prop where
  accounted : Admission.Accounted C Q s.admission
  owned : s.Owned
  reaped : ∀ i l, s.admission.record? i = some (l, true) → ∃ r, s.admission.phase? i = some (.finished r)
  panicked : ∀ l m, s.listenPhase? l = some (.panicked m) → .listen l (.panic m) ∈ es
  emptied : ∀ l r, s.listenPhase? l = some (.returned r) →
    .listen l .deadline ∈ es ∨ ∀ i gone, s.admission.record? i = some (l, gone) → gone = true
  aborted : ∀ i l gone, s.admission.phase? i = some (.finished .aborted) →
    s.admission.record? i = some (l, gone) → .listen l .deadline ∈ es ∨ ∃ m, .listen l (.panic m) ∈ es

theorem reaped_step (h : Shutting C Q es s) (hs : s.step e = some t)
    (after : t.admission.record? i = some (l, true)) :
    ∃ r, t.admission.phase? i = some (.finished r) := by
  obtain ⟨r, past⟩ : ∃ r, s.admission.phase? i = some (.finished r) := by
    rcases record?_step hs after with before | ⟨-, -, past⟩ | ⟨new, -⟩
    · exact h.reaped i l before
    · exact past
    · cases new
  exact ⟨r, finished_step h.accounted.waiting hs past⟩

theorem panicked_step (h : Shutting C Q es s) (hs : s.step e = some t) {m : String}
    (after : t.listenPhase? l = some (.panicked m)) : .listen l (.panic m) ∈ es ++ [e] := by
  rcases step_listener hs l with ⟨le, p, p', rfl, before, moves, now⟩ | ⟨-, -, now⟩ | ⟨-, same⟩
  · rw [after] at now
    cases now
    cases moves with
    | panic => simp
    | reap => exact List.mem_append_left _ (h.panicked l m before)
  · rw [after] at now
    cases now
  · exact List.mem_append_left _ (h.panicked l m (same.symm.trans after))

/-- A listener that returned without its deadline has waited for all its tasks. -/
theorem emptied_step (h : Shutting C Q es s) (hs : s.step e = some t)
    {r : Except ProxyError Unit} (after : t.listenPhase? l = some (.returned r)) :
    .listen l .deadline ∈ es ++ [e] ∨ ∀ i gone, t.admission.record? i = some (l, gone) → gone = true := by
  -- Nothing is added to the `JoinSet` of a listener that had returned already.
  have still : s.listenPhase? l = some (.returned r) →
      .listen l .deadline ∈ es ++ [e] ∨ ∀ i gone, t.admission.record? i = some (l, gone) → gone = true := by
    intro before
    refine (h.emptied l r before).imp (List.mem_append_left _) fun all i gone at_i => ?_
    rcases record?_step hs at_i with old | ⟨gone, -⟩ | ⟨-, -, p, at_p, accepts⟩
    · exact all i gone old
    · exact gone
    · rw [before] at at_p
      cases at_p
      cases accepts
  rcases step_listener hs l with ⟨le, p, p', rfl, before, moves, now⟩ | ⟨-, -, now⟩ | ⟨-, same⟩
  · rw [after] at now
    cases now
    cases moves with
    | deadline => exact .inl (by simp)
    | reap => exact still before
    | drained =>
      right
      obtain ⟨p, at_p, heard⟩ := Option.bind_eq_some_iff.mp hs
      rw [before] at at_p
      cases at_p
      simp only [listen] at heard
      split at heard
      next empty =>
        cases heard
        intro i gone at_i
        change s.admission.record? i = _ at at_i
        rw [Admission.record?, Admission.entries, List.getElem?_map] at at_i
        obtain ⟨c, found, same⟩ := Option.map_eq_some_iff.mp at_i
        cases same
        have left := List.filter_eq_nil_iff.mp empty c (List.mem_of_getElem? found)
        simpa using left
      next => cases heard
  · rw [after] at now
    cases now
  · exact still (same.symm.trans after)

theorem aborted_step (h : Shutting C Q es s) (hs : s.step e = some t) {gone : Bool}
    (after : t.admission.phase? i = some (.finished .aborted))
    (at_i : t.admission.record? i = some (l, gone)) :
    .listen l .deadline ∈ es ++ [e] ∨ ∃ m, .listen l (.panic m) ∈ es ++ [e] := by
  have kept : (.listen l .deadline ∈ es ∨ ∃ m, .listen l (.panic m) ∈ es) →
      .listen l .deadline ∈ es ++ [e] ∨ ∃ m, .listen l (.panic m) ∈ es ++ [e] :=
    Or.imp (List.mem_append_left _) fun ⟨m, present⟩ => ⟨m, List.mem_append_left _ present⟩
  rcases step_phase h.accounted.waiting hs i with same |
    ⟨f, asks, step, ⟨p, p', -, before, now, moves⟩ | ⟨-, -, now⟩ | ⟨-, -, ⟨k, -, now⟩ | ⟨k, -, now⟩⟩⟩
  · rw [same] at after
    rcases record?_step hs at_i with old | ⟨-, old, -⟩ | ⟨-, absent, -⟩
    · exact kept (h.aborted i l gone after old)
    · exact kept (h.aborted i l false after old)
    · have none_there : s.admission.phase? i = none := by
        rw [Admission.record?, Admission.entries, List.getElem?_map, Option.map_eq_none_iff] at absent
        rw [Admission.phase?, absent]
        rfl
      rw [none_there] at after
      cases after
  · rw [after] at now
    cases now
    cases moves with
    | ends other => exact absurd rfl other
    | aborted unfinished =>
      -- The listener of an aborted task has ended, and not because its `JoinSet` was empty.
      have aborts := (onAdmission_task asks).2.2.2 rfl
      have old : s.admission.record? i = some (l, gone) := by
        rcases record?_admission step at_i with old | ⟨reap, -⟩ | ⟨-, -, opens | queues⟩
        · exact old
        · cases reap
        · cases opens
        · cases queues
      rw [aborts] at hs
      simp only [Server.step] at hs
      split at hs
      next ended =>
        rw [Admission.owner?_of_record? old, Option.bind_some] at ended
        obtain ⟨q, at_q, ended⟩ := (Option.any_eq_true _ _).mp ended
        apply kept
        cases q with
        | spawned | reaping | accepting | queueing | draining => cases ended
        | panicked m => exact .inr ⟨m, h.panicked l m at_q⟩
        | returned r =>
          refine (h.emptied l r at_q).imp_right fun all => ?_
          rw [all i gone old] at old
          obtain ⟨r', past⟩ := h.reaped i l old
          rw [before] at past
          cases past
          cases unfinished
      next => cases hs
  all_goals rw [after] at now
  all_goals cases now

theorem shutting_step (h : Shutting C Q es s) (hs : s.step e = some t) : Shutting C Q (es ++ [e]) t where
  accounted := accounted_step h.accounted hs
  owned := owned_step h.owned hs
  reaped _ _ := reaped_step h hs
  panicked _ _ := panicked_step h hs
  emptied _ _ := emptied_step h hs
  aborted _ _ _ := aborted_step h hs

theorem shutting_of_run {config : ProxyConfig} {bindAddr : IpAddr}
    (run : Run (Fires step) (.new config C Q bindAddr) es s) : Shutting C Q es s := by
  refine run.history (Shutting C Q) ⟨Admission.accounted_new C Q, owned_new config C Q bindAddr, ?_, ?_, ?_, ?_⟩
    fun _ _ _ _ h hs => shutting_step h hs
  all_goals intros
  all_goals simp_all [new, Admission.new, Admission.record?, Admission.entries, listenPhase?]

/-- A run of the server that is over has joined all its listeners. -/
theorem ended_of_returned {config : ProxyConfig} {bindAddr : IpAddr}
    (run : Run (Fires step) (.new config C Q bindAddr) es s) {r : Except ProxyError Unit}
    (returned : s.phase = .returned r) {p : ListenPhase} (at_p : s.listenPhase? l = some p) :
    p.ended = true := by
  obtain ⟨listener, found, rfl⟩ := Option.map_eq_some_iff.mp at_p
  obtain ⟨-, recorded, progress⟩ := explained_of_run run
  unfold Progress at progress
  rw [returned] at progress
  rcases progress with ⟨-, -, -, -, -, -, -, none_spawned, -⟩ | ⟨-, -, all_joined, -⟩
  · rw [none_spawned] at found
    cases found
  · have joined := List.all_eq_true.mp all_joined listener (List.mem_of_getElem? found)
    exact (recorded.joins l listener found joined).1

end Server

/-- `run` returns only when the connections are over: no connection of a listener is cut
    off whose deadline did not fire and that did not panic, and where no listener's did all
    permits are back. -/
theorem shutdown_drains {config : ProxyConfig} {C Q : Nat} {bindAddr : IpAddr}
    {es : List Server.Event} {s : Server} {r : Except ProxyError Unit}
    (run : Run (Fires Server.step) (.new config C Q bindAddr) es s) (returned : s.phase = .returned r) :
    (∀ i l, s.admission.owner? i = some l → .listen l .deadline ∉ es →
      (∀ message, .listen l (.panic message) ∉ es) →
        ∃ result, s.admission.phase? i = some (.finished result) ∧ result ≠ .aborted) ∧
    ((∀ l, .listen l .deadline ∉ es ∧ ∀ message, .listen l (.panic message) ∉ es) →
      s.admission.openConnections.free = C ∧ s.admission.queuedConnections.free = Q) := by
  have shutting := Server.shutting_of_run run
  have drained : ∀ i l, s.admission.owner? i = some l → .listen l .deadline ∉ es →
      (∀ message, .listen l (.panic message) ∉ es) →
        ∃ result, s.admission.phase? i = some (.finished result) ∧ result ≠ .aborted := by
    intro i l owner in_time alive
    obtain ⟨gone, at_i⟩ := Admission.record?_of_owner? owner
    obtain ⟨p, at_p⟩ := shutting.owned i l gone at_i
    have ended := Server.ended_of_returned run returned at_p
    cases p with
    | spawned | reaping | accepting | queueing | draining => cases ended
    | panicked message => exact absurd (shutting.panicked l message at_p) (alive message)
    | returned acceptRes =>
      have all_gone := (shutting.emptied l acceptRes at_p).resolve_left in_time
      rw [all_gone i gone at_i] at at_i
      obtain ⟨result, at_end⟩ := shutting.reaped i l at_i
      refine ⟨result, at_end, ?_⟩
      rintro rfl
      rcases shutting.aborted i l true at_end at_i with late | ⟨message, panicked⟩
      · exact in_time late
      · exact alive message panicked
  refine ⟨drained, fun calm => ?_⟩
  have nothing_held : ∀ q : Phase → Bool, (∀ result, q (.finished result) = false) →
      s.admission.held q = 0 := by
    intro q free
    refine Admission.held_eq_zero.mpr fun i p here => ?_
    obtain ⟨c, found, -⟩ := Option.map_eq_some_iff.mp here
    obtain ⟨result, at_end, -⟩ := drained i c.listener (congrArg (Option.map Connection.listener) found)
      (calm c.listener).1 (calm c.listener).2
    rw [at_end] at here
    cases here
    exact free result
  obtain ⟨opens, slots, -, -⟩ := shutting.accounted
  rw [nothing_held Phase.holdsOpen fun _ => rfl] at opens
  rw [nothing_held Phase.holdsSlot fun _ => rfl] at slots
  exact ⟨opens, slots⟩

/-- One connection is served to its end while the proxy shuts down. -/
def drainedShutdown : List Server.Event :=
  listening ++
    [.listen 0 (.accept (.ok ())), .poll 0, .listen 0 .reaped, .cancel, .listen 0 .cancelled,
     .finish 0 .ok, .listen 0 (.reap 0), .listen 0 .drained, .join 0, .ret]

theorem drainedShutdown_drains :
    (reachedBy drainedShutdown).admission.phase? 0 = some (.finished .ok) ∧
      (reachedBy drainedShutdown).admission.openConnections.free = 1 := by
  have run : Run (Fires Server.step) (.new onePort 1 1 localhostAddr) drainedShutdown
      (reachedBy drainedShutdown) := run_of_exec rfl
  have calm : ∀ l, .listen l .deadline ∉ drainedShutdown ∧
      ∀ message, .listen l (.panic message) ∉ drainedShutdown := by
    intro l
    simp [drainedShutdown, listening]
  obtain ⟨-, permits⟩ := shutdown_drains run (r := .ok ()) (by decide)
  exact ⟨by decide, (permits calm).1⟩

/-! ## The grace period -/

/-- `sleep(Duration::from_secs(10))`, in nanoseconds. -/
def shutdownDeadline : Nat := 10 * 10 ^ 9

/-- The server with its clock; `since` is when each listener left its accept loop, which is
    when it starts the sleep. -/
structure Timed where
  server : Server
  clock : Instant
  since : Nat → Option Instant

namespace Timed

inductive Event where
  | tick (elapsed : Nat)
  | server (e : Server.Event)

def new (config : ProxyConfig) (maxConnections maxQueue : Nat) (bindAddr : IpAddr) (clock : Instant) :
    Timed :=
  ⟨.new config maxConnections maxQueue bindAddr, clock, fun _ => none⟩

/-- The listener is in its second `select!`. -/
def drains (s : Server) (l : Nat) : Bool :=
  (s.listenPhase? l).any fun | .draining _ => true | _ => false

/-- The starts of the sleeps after a step to `t`. -/
def started (x : Timed) (t : Server) (l : Nat) : Option Instant :=
  (x.since l).or (if drains t l then some x.clock else none)

/-- A sleep is over no sooner than its duration after its start. -/
def Due (x : Timed) : Server.Event → Prop
  | .listen l .deadline => ∃ start, x.since l = some start ∧ start + shutdownDeadline ≤ x.clock
  | _ => True

inductive Step : Timed → Event → Timed → Prop
  | tick {x : Timed} (elapsed : Nat) : Step x (.tick elapsed) { x with clock := x.clock + elapsed }
  | server {x : Timed} {e : Server.Event} {t : Server} :
      x.server.step e = some t → x.Due e → Step x (.server e) ⟨t, x.clock, x.started t⟩

def Event.server? : Event → Option Server.Event
  | .tick _ => none
  | .server e => some e

variable {config : ProxyConfig} {C Q : Nat} {bindAddr : IpAddr} {clock : Instant} {es : List Event}
  {x y : Timed} {i l : Nat}

theorem server_run (run : Run Step x es y) :
    Run (Fires Server.step) x.server (es.filterMap Event.server?) y.server := by
  induction run with
  | nil => exact .nil _
  | cons step _ ih =>
    cases step with
    | tick => exact ih
    | server moved _ => exact .cons moved ih

theorem mem_server {e : Server.Event} : e ∈ es.filterMap Event.server? ↔ .server e ∈ es := by
  rw [List.mem_filterMap]
  constructor
  · rintro ⟨event, present, same⟩
    cases event with
    | tick => cases same
    | server e' =>
      cases same
      exact present
  · intro present
    exact ⟨_, present, rfl⟩

theorem clock_run (run : Run Step x es y) : x.clock ≤ y.clock := by
  refine run.invariant (I := fun z => x.clock ≤ z.clock) (Nat.le_refl _) ?_
  intro u e v before step
  cases step with
  | tick elapsed => exact Nat.le_trans before (Nat.le_add_right ..)
  | server => exact before

/-- At an earlier point of the run listener `l` was in its drain, and the time was `start`. -/
def Drained (x₀ : Timed) (es : List Event) (x : Timed) (l : Nat) (start : Instant) : Prop :=
  ∃ pre post z, es = pre ++ post ∧ Run Step x₀ pre z ∧ Run Step z post x ∧
    drains z.server l = true ∧ z.clock = start

theorem started_of_run (run : Run Step (new config C Q bindAddr clock) es x) {start : Instant}
    (since : x.since l = some start) : Drained (new config C Q bindAddr clock) es x l start := by
  have general := run.history
    (fun es x => Run Step (new config C Q bindAddr clock) es x ∧ ∀ l start, x.since l = some start →
      Drained (new config C Q bindAddr clock) es x l start) ⟨.nil _, fun _ _ => nofun⟩ ?_
  · exact general.2 l start since
  · intro done u e v ⟨reach, known⟩ step
    have here := reach.append (.single step)
    refine ⟨here, fun l start since => ?_⟩
    have earlier (old : u.since l = some start) :
        Drained (new config C Q bindAddr clock) (done ++ [e]) v l start := by
      obtain ⟨pre, post, z, rfl, before, after, draining, at_start⟩ := known l start old
      exact ⟨pre, post ++ [e], z, List.append_assoc .., before, after.append (.single step), draining,
        at_start⟩
    cases step with
    | tick => exact earlier since
    | @server e t moved due =>
      rcases Option.or_eq_some_iff.mp since with old | ⟨-, now⟩
      · exact earlier old
      · split at now
        next draining =>
          cases now
          exact ⟨_, [], _, (List.append_nil _).symm, here, .nil _, draining, rfl⟩
        next => cases now

/-- A listener that has left its accept loop gets no connection any more. -/
theorem owner?_of_drains (run : Run Step x es y) (closed : drains x.server l = true)
    (owner : y.server.admission.owner? i = some l) : x.server.admission.owner? i = some l := by
  have kept := run.invariant
    (I := fun z => (∃ p, z.server.listenPhase? l = some p ∧ p.accepts = false) ∧
      ∀ i, z.server.admission.owner? i = some l → x.server.admission.owner? i = some l) ?_ ?_
  · exact kept.2 i owner
  · obtain ⟨p, at_p, draining⟩ := (Option.any_eq_true _ _).mp closed
    refine ⟨⟨p, at_p, ?_⟩, fun _ => id⟩
    cases p with
    | draining => rfl
    | spawned | reaping | accepting | queueing | returned | panicked => cases draining
  · intro u e v ⟨⟨p, at_p, out⟩, old⟩ step
    cases step with
    | tick => exact ⟨⟨p, at_p, out⟩, old⟩
    | server moved _ =>
      refine ⟨Server.listenPhase?_closed moved at_p out, fun j owner => ?_⟩
      obtain ⟨gone, at_j⟩ := Admission.record?_of_owner? owner
      rcases Server.record?_step moved at_j with same | ⟨-, before, -⟩ | ⟨-, -, q, at_q, accepts⟩
      · exact old j (Admission.owner?_of_record? same)
      · exact old j (Admission.owner?_of_record? before)
      · rw [at_p] at at_q
        cases at_q
        rw [out] at accepts
        cases accepts

/-- A connection whose listener did not panic is cut off no sooner than ten seconds after
    the listener stopped accepting, and was accepted before that. -/
theorem cut_off_after_deadline (run : Run Step (new config C Q bindAddr clock) es x)
    (cut : x.server.admission.phase? i = some (.finished .aborted))
    (owner : x.server.admission.owner? i = some l)
    (alive : ∀ message, .server (.listen l (.panic message)) ∉ es) :
    ∃ pre post y, es = pre ++ post ∧ Run Step (new config C Q bindAddr clock) pre y ∧
      Run Step y post x ∧ drains y.server l = true ∧ y.server.admission.owner? i = some l ∧
      y.clock + shutdownDeadline ≤ x.clock := by
  obtain ⟨gone, at_i⟩ := Admission.record?_of_owner? owner
  rcases (Server.shutting_of_run (server_run run)).aborted i l gone cut at_i with late | ⟨m, panicked⟩
  · obtain ⟨done, rest, u, v, rfl, reach, fired, after⟩ := run.mem_step (mem_server.mp late)
    cases fired with
    | server moved due =>
      obtain ⟨start, since, passed⟩ := due
      obtain ⟨pre, post, y, rfl, before, between, draining, rfl⟩ := started_of_run reach since
      have onwards : Run Step y (post ++ .server (.listen l .deadline) :: rest) x :=
        between.append (.cons (.server moved ⟨_, since, passed⟩) after)
      refine ⟨pre, _, y, List.append_assoc .., before, onwards, draining,
        owner?_of_drains onwards draining owner, ?_⟩
      exact Nat.le_trans passed (clock_run (.cons (.server moved ⟨_, since, passed⟩) after))
  · exact absurd (mem_server.mp panicked) (alive m)

def cancelledWhileActive : List Server.Event :=
  listening ++
    [.listen 0 (.accept (.ok ())), .poll 0, .listen 0 .reaped, .cancel, .listen 0 .cancelled]

/-- A connection that does not end is aborted at the deadline of its listener. -/
def lateAbort : List Event :=
  cancelledWhileActive.map .server ++
    [.tick shutdownDeadline, .server (.listen 0 .deadline), .server (.abort 0)]

theorem lateAbort_after_deadline : ∃ x : Timed,
    Run Step (.new onePort 1 1 localhostAddr 0) lateAbort x ∧ x.clock = shutdownDeadline ∧
    ∃ pre post y, lateAbort = pre ++ post ∧ Run Step (.new onePort 1 1 localhostAddr 0) pre y ∧
      Run Step y post x ∧ drains y.server 0 = true ∧ y.server.admission.owner? 0 = some 0 ∧
      y.clock + shutdownDeadline ≤ x.clock := by
  have run : ∃ x, Run Step (.new onePort 1 1 localhostAddr 0) lateAbort x ∧
      x.server.admission.phase? 0 = some (.finished .aborted) ∧
      x.server.admission.owner? 0 = some 0 ∧ x.clock = shutdownDeadline := by
    refine ⟨_, .cons (.server rfl trivial) (.cons (.server rfl trivial) (.cons (.server rfl trivial)
      (.cons (.server rfl trivial) (.cons (.server rfl trivial) (.cons (.server rfl trivial)
      (.cons (.server rfl trivial) (.cons (.server rfl trivial) (.cons (.server rfl trivial)
      (.cons (.tick _) (.cons (.server rfl ⟨0, rfl, Nat.le_refl _⟩)
      (.cons (.server rfl trivial) (.nil _)))))))))))), rfl, rfl, rfl⟩
  obtain ⟨x, run, cut, owner, now⟩ := run
  refine ⟨x, run, now, cut_off_after_deadline run cut owner fun message => ?_⟩
  simp [lateAbort, cancelledWhileActive, listening]

end Timed

end TcpProxy
