import TcpProxy.Proxy.Lifecycle
import TcpProxy.Balancer.Concurrent
import TcpProxy.Lib.Hiding

/-! # Forwarding of connections

`do_connection`, and the whole proxy: the server of `Proxy/Server.lean` together with the
bodies of its connection tasks, which share the production stack of `Balancer/Stack.lean`.
A task starts its body with the step that takes it into `do_connection`; it can end only
when the body has returned, and be dropped only where the body is suspended. -/

namespace TcpProxy

open Effects Effects.Program Lts SimpleCooldownHandler

variable {w : Nat} {Stream : Type}

/-- The arguments of `tokio::io::copy_bidirectional_with_sizes`; the stream of a client is
    known by the connection it came in on. -/
structure CopyBidirectional (Stream : Type) where
  inSock : Nat
  outSock : Stream
  aToBBufSize : Nat
  bToABufSize : Nat

/-- The bytes copied in the two directions, or the error that ended the copy. -/
abbrev Relay (Stream : Type) : Interface where
  Op := CopyBidirectional Stream
  Ans _ := Except IoError (Nat × Nat)

/-- What `do_connection` asks: the production stack, and the copy. -/
abbrev Forward (Stream : Type) : Interface := (Stack Stream).sum (Relay Stream)

/-- What follows `connect_backend` in `do_connection`. -/
def relay (inSock copyBufSize : Nat) :
    RoundRobin.Connected Stream → Program (Forward Stream) (Except ProxyError Unit)
  | .error e => return .error e
  | .ok (outSock, _) => do
    match ← perform (I := Forward Stream) (.inr ⟨inSock, outSock, copyBufSize, copyBufSize⟩) with
    | .error e => return .error (.ioError e)
    | .ok _ => return .ok ()

def doConnection (config : ProxyConfig) (port : UInt16) (inSock copyBufSize : Nat) :
    Program (Forward Stream) (Except ProxyError Unit) := do
  relay inSock copyBufSize (← inLeft (stackConnectBackend config port))

/-- The copy leaves the balancer as it is. -/
def Store.Forwards (s : Store w) : (Forward Stream).Event → Store w → Prop
  | ⟨.inl op, a⟩, t => s.Answers ⟨op, a⟩ t
  | ⟨.inr _, _⟩, t => t = s

/-- How the task ends when `do_connection` returns `r`; an error is only logged. -/
def TaskEnd.of : Except ProxyError Unit → TaskEnd
  | .ok () => .ok
  | .error e => .err e

namespace Server

/-- The connection that goes into `do_connection` with this event. -/
def entering (s : Server) : Event → Option Nat
  | .poll i => if s.admission.phase? i = some .accepted then some i else none
  | .dropQueueSlot i => some i
  | _ => none

end Server

/-- The operations a task can be suspended in. -/
def Awaited : (Forward Stream).Op → Prop
  | .inl op => op.Network
  | .inr _ => True

/-- The client that `do_connection` serves. -/
structure Client where
  port : UInt16
  inSock : Nat
  deriving DecidableEq

abbrev Bodies (w : Nat) (Stream : Type) :=
  Pool (Store w) Nat (Forward Stream) (Except ProxyError Unit)

structure Proxy (w : Nat) (Stream : Type) where
  server : Server
  bodies : Bodies w Stream

namespace Proxy

inductive Event (Stream : Type) where
  | server (e : Server.Event)
  /-- the step that takes a connection into `do_connection` -/
  | enter (e : Server.Event) (client : Client)
  | act (i : Nat) (e : (Forward Stream).Event)

def new (config : ProxyConfig) (targets : TargetState) (maxConnections maxQueue : Nat)
    (bindAddr : IpAddr) (clock : Instant) : Proxy w Stream :=
  ⟨.new config maxConnections maxQueue bindAddr, .new config targets clock, fun _ => none⟩

/-- What the body of task `i` asks next. -/
def asks? (x : Proxy w Stream) (i : Nat) : Option (Forward Stream).Op :=
  match x.bodies.threads i with
  | some (.ask op _) => some op
  | _ => none

theorem asks?_some {x : Proxy w Stream} {i : Nat} {op : (Forward Stream).Op} :
    x.asks? i = some op ↔ ∃ next, x.bodies.threads i = some (.ask op next) := by
  constructor
  · intro h
    unfold asks? at h
    split at h
    next op' next running =>
      cases h
      exact ⟨next, running⟩
    next => cases h
  · rintro ⟨next, running⟩
    simp [asks?, running]

/-- The body of task `i` waits for an answer from outside. -/
def Suspended (x : Proxy w Stream) (i : Nat) : Prop :=
  ∃ op next, x.bodies.threads i = some (.ask op next) ∧ Awaited op

/-- What the end of a task requires of its body. -/
def Lets (x : Proxy w Stream) : Server.Event → Prop
  | .finish i .panicked => x.Suspended i
  | .finish i result => ∃ r, x.bodies.threads i = some (.ret r) ∧ result = .of r
  | .abort i => x.server.admission.phase? i = some .connecting → x.Suspended i
  | _ => True

def body (config : ProxyConfig) (copyBufSize : Nat) (client : Client) :
    Program (Forward Stream) (Except ProxyError Unit) :=
  doConnection config client.port client.inSock copyBufSize

inductive Step (config : ProxyConfig) (copyBufSize : Nat) :
    Proxy w Stream → Event Stream → Proxy w Stream → Prop
  | server {x : Proxy w Stream} {e : Server.Event} {t : Server} :
      x.server.step e = some t → x.server.entering e = none → x.Lets e →
        Step config copyBufSize x (.server e) ⟨t, x.bodies⟩
  | enter {x : Proxy w Stream} {e : Server.Event} {t : Server} {client : Client} :
      x.server.step e = some t → x.server.entering e = some client.inSock →
        x.server.portOf? client.inSock = some client.port →
        Step config copyBufSize x (.enter e client)
          ⟨t, x.bodies.store, Function.update x.bodies.threads client.inSock
            (some (body config copyBufSize client))⟩
  | act {x : Proxy w Stream} {i : Nat} {e : (Forward Stream).Event} {bodies : Bodies w Stream} :
      x.server.admission.phase? i = some .connecting →
        Pool.Step Store.Forwards (body config copyBufSize) x.bodies (.act i e) bodies →
        Step config copyBufSize x (.act i e) ⟨x.server, bodies⟩

/-- The step of the server in an event. -/
def Event.server? : Event Stream → Option Server.Event
  | .server e | .enter e _ => some e
  | .act _ _ => none

/-- The step of the bodies in an event. -/
def Event.label? : Event Stream → Option (Pool.Label Nat Client (Forward Stream))
  | .server _ => none
  | .enter _ client => some (.spawn client.inSock client)
  | .act i e => some (.act i e)

end Proxy

/-! ## Into `do_connection` -/

namespace Server

variable {s t : Server} {e : Event} {i : Nat}

/-- A connection is in `do_connection` after a step only if it was before, or goes into it
    with this step. -/
theorem entering_of_connecting (waits : s.admission.Waits) (h : s.step e = some t)
    (after : t.admission.phase? i = some .connecting) :
    s.admission.phase? i = some .connecting ∨ s.entering e = some i := by
  rcases step_phase waits h i with same | ⟨f, asks, -, ⟨p, p', -, before, now, moves⟩ | ⟨-, -, now⟩ |
    ⟨-, -, ⟨l, -, now⟩ | ⟨l, -, now⟩⟩⟩
  · exact .inl (same.symm.trans after)
  · rw [after] at now
    cases now
    cases moves with
    | start =>
      rw [(onAdmission_task asks).1 rfl]
      exact .inr (if_pos before)
    | enter =>
      rw [(onAdmission_task asks).2.1 rfl]
      exact .inr rfl
  all_goals rw [after] at now
  all_goals cases now

theorem entered (h : s.step e = some t) (enters : s.entering e = some i) :
    (s.admission.phase? i = some .accepted ∨ s.admission.phase? i = some .admitted) ∧
      t.admission.phase? i = some .connecting := by
  unfold entering at enters
  split at enters
  next j =>
    split at enters
    next ready =>
      cases enters
      obtain ⟨a, polled, rfl⟩ := Option.map_eq_some_iff.mp h
      simp only [Admission.poll, ready, Option.some.injEq] at polled
      rw [← polled]
      exact ⟨.inl ready, Admission.phase?_setPhase_self ready _⟩
    next => cases enters
  next j =>
    cases enters
    obtain ⟨a, dropped, rfl⟩ := Option.map_eq_some_iff.mp h
    unfold Admission.dropQueueSlot at dropped
    split at dropped
    next ready =>
      cases dropped
      exact ⟨.inr ready, Admission.phase?_setPhase_self ready _⟩
    next => cases dropped
  next => cases enters

end Server

namespace Proxy

variable {config : ProxyConfig} {copyBufSize : Nat} {x y : Proxy w Stream} {es : List (Event Stream)}

/-- What every run keeps: the permits balance, and the tasks that have reached
    `do_connection` are those with a body. -/
structure Synced (C Q : Nat) (x : Proxy w Stream) : Prop where
  accounted : Admission.Accounted C Q x.server.admission
  begun : ∀ i q, x.bodies.threads i = some q →
    ∃ p, x.server.admission.phase? i = some p ∧ p.begun = true
  bodies : ∀ i, x.server.admission.phase? i = some .connecting → ∃ q, x.bodies.threads i = some q

theorem synced_step {C Q : Nat} {e : Event Stream} (h : Synced C Q x)
    (step : Step config copyBufSize x e y) : Synced C Q y := by
  obtain ⟨accounted, begun, bodies⟩ := h
  cases step with
  | @server e t moved outside _ =>
    refine ⟨Server.accounted_step accounted moved, ?_, ?_⟩
    · intro i q running
      obtain ⟨p, before, reached⟩ := begun i q running
      exact Server.begun_step accounted.waiting moved before reached
    · intro i connecting
      rcases Server.entering_of_connecting accounted.waiting moved connecting with before | enters
      · exact bodies i before
      · rw [outside] at enters
        cases enters
  | @enter e t client moved enters port =>
    refine ⟨Server.accounted_step accounted moved, ?_, ?_⟩
    · intro i q running
      by_cases same : i = client.inSock
      · rw [same]
        exact ⟨_, (Server.entered moved enters).2, rfl⟩
      · obtain ⟨p, before, reached⟩ := begun i q (by simpa [same] using running)
        exact Server.begun_step accounted.waiting moved before reached
    · intro i connecting
      by_cases same : i = client.inSock
      · subst same
        exact ⟨_, Function.update_self ..⟩
      · rcases Server.entering_of_connecting accounted.waiting moved connecting with before | other
        · obtain ⟨q, running⟩ := bodies i before
          exact ⟨q, by simpa [same] using running⟩
        · rw [enters] at other
          exact absurd (Option.some.inj other).symm same
  | @act i e after connecting acted =>
    cases acted with
    | @act _ op next a s running answered =>
      refine ⟨accounted, ?_, ?_⟩
      · intro j q running'
        by_cases same : j = i
        · rw [same]
          exact ⟨_, connecting, rfl⟩
        · exact begun j q (by simpa [same] using running')
      · intro j at_j
        by_cases same : j = i
        · subst same
          exact ⟨_, Function.update_self ..⟩
        · obtain ⟨q, running'⟩ := bodies j at_j
          exact ⟨q, by simpa [same] using running'⟩

theorem synced_new (config : ProxyConfig) (targets : TargetState) (C Q : Nat) (bindAddr : IpAddr)
    (clock : Instant) : Synced C Q (new config targets C Q bindAddr clock : Proxy w Stream) :=
  ⟨Admission.accounted_new C Q, by simp [new], by simp [new, Server.new, Admission.new, Admission.phase?]⟩

/-- A task with a body is past the phases from which `do_connection` is entered. -/
theorem Synced.free {C Q : Nat} (h : Synced C Q x) {e : Server.Event} {t : Server} {i : Nat}
    (moved : x.server.step e = some t) (enters : x.server.entering e = some i) :
    x.bodies.threads i = none := by
  cases running : x.bodies.threads i with
  | none => rfl
  | some q =>
    obtain ⟨p, before, begun⟩ := h.begun i q running
    rcases (Server.entered moved enters).1 with at_p | at_p
    all_goals rw [before] at at_p
    all_goals cases at_p
    all_goals cases begun

/-- A run of the proxy is one of its server. -/
theorem server_run (run : Run (Step config copyBufSize) x es y) :
    Run (Fires Server.step) x.server (es.filterMap Event.server?) y.server := by
  induction run with
  | nil => exact .nil _
  | cons step _ ih =>
    cases step with
    | server moved _ _ => exact .cons moved ih
    | enter moved _ _ => exact .cons moved ih
    | act _ _ => exact ih

/-- A run of the proxy is one of the bodies: no task goes into `do_connection` twice. -/
theorem bodies_run {C Q : Nat} (h : Synced C Q x) (run : Run (Step config copyBufSize) x es y) :
    Run (Pool.Step Store.Forwards (body config copyBufSize)) x.bodies
      (es.filterMap Event.label?) y.bodies := by
  induction run with
  | nil => exact .nil _
  | cons step _ ih =>
    have later := ih (synced_step h step)
    cases step with
    | server _ _ _ => exact later
    | act _ acted => exact .cons acted later
    | enter moved enters _ => exact .cons (.spawn (h.free moved enters)) later

/-- The operations of connection `i`, in order. -/
def trace (i : Nat) (es : List (Event Stream)) : List (Forward Stream).Event :=
  Pool.traceOf i (es.filterMap Event.label?)

theorem trace_append (i : Nat) (es more : List (Event Stream)) :
    trace i (es ++ more) = trace i es ++ trace i more := by
  rw [trace, List.filterMap_append, Pool.traceOf_append]
  rfl

theorem mem_trace {i : Nat} {e : (Forward Stream).Event} : e ∈ trace i es ↔ .act i e ∈ es := by
  rw [trace, Pool.mem_traceOf, List.mem_filterMap]
  constructor
  · rintro ⟨event, present, label⟩
    cases event with
    | server | enter => cases label
    | act j e' =>
      cases label
      exact present
  · intro present
    exact ⟨_, present, rfl⟩

theorem finished_step {C Q : Nat} (h : Synced C Q x) {e : Event Stream} {i : Nat} {r : TaskEnd}
    (before : x.server.admission.phase? i = some (.finished r))
    (step : Step config copyBufSize x e y) : y.server.admission.phase? i = some (.finished r) := by
  cases step with
  | server moved _ _ => exact Server.finished_step h.accounted.waiting moved before
  | enter moved _ _ => exact Server.finished_step h.accounted.waiting moved before
  | act _ _ => exact before

theorem portOf?_run (run : Run (Step config copyBufSize) x es y) {i : Nat} {port : UInt16}
    (at_port : x.server.portOf? i = some port) : y.server.portOf? i = some port :=
  (server_run run).invariant (I := fun s => s.portOf? i = some port) at_port
    fun _ _ _ at_port moved => Server.portOf?_step moved at_port

section FromStart

variable {targets : TargetState} {C Q : Nat} {bindAddr : IpAddr} {clock : Instant}

/-- A client is served on the port of the listener that accepted it. -/
theorem port_of_enter (run : Run (Step config copyBufSize) (new config targets C Q bindAddr clock) es x)
    {e : Server.Event} {client : Client} (entered : .enter e client ∈ es) :
    x.server.portOf? client.inSock = some client.port := by
  obtain ⟨pre, post, u, v, -, -, step, rest⟩ := run.mem_step entered
  cases step with
  | enter moved _ at_port => exact portOf?_run rest (Server.portOf?_step moved at_port)

theorem body_steps (run : Run (Step config copyBufSize) (new config targets C Q bindAddr clock) es x)
    {i : Nat} {q : Program (Forward Stream) (Except ProxyError Unit)}
    (running : x.bodies.threads i = some q) :
    ∃ port, x.server.portOf? i = some port ∧
      Steps (doConnection config port i copyBufSize) (trace i es) q := by
  obtain ⟨client, spawned, steps⟩ :=
    Pool.spawned_steps (bodies_run (synced_new config targets C Q bindAddr clock) run) rfl running
  obtain ⟨event, present, label⟩ := List.mem_filterMap.mp spawned
  cases event with
  | server | act => cases label
  | enter =>
    cases label
    exact ⟨client.port, port_of_enter run present, steps⟩

end FromStart

/-! ## Seen from the balancer -/

/-- What the result of `do_connection` says of that of `connect_backend`. -/
def Relayed : Except ProxyError Unit → CallResult Stream → Prop
  | r, .connected (.error e) => r = .error e
  | r, .connected (.ok _) => r = .ok () ∨ ∃ e, r = .error (.ioError e)
  | _, .updated _ => False

theorem body_shows (config : ProxyConfig) (copyBufSize : Nat) (client : Client) :
    Shows Relayed (body config copyBufSize client : Program (Forward Stream) _)
      (Call.body config (.connectBackend client.port)) := by
  refine shows_bind fun r => ?_
  cases r with
  | error e => exact .ret rfl
  | ok s =>
    refine .right fun a => ?_
    cases a with
    | error e => exact .ret (.inr ⟨e, rfl⟩)
    | ok n => exact .ret (.inl rfl)

/-- The step of the balancer in an event. -/
def Event.task? (e : Event Stream) : Option (TaskLabel Stream) :=
  e.label?.bind (Pool.Label.left? fun client => .connectBackend client.port)

/-- The operations connection `i` asks of the balancer, in order. -/
def asked (i : Nat) (es : List (Event Stream)) : List (Stack Stream).Event :=
  Pool.traceOf i (es.filterMap Event.task?)

theorem asked_eq (i : Nat) (es : List (Event Stream)) :
    asked i es = (trace i es).filterMap Interface.Event.left? := by
  rw [trace, ← Pool.traceOf_left fun client : Client => Call.connectBackend client.port,
    List.filterMap_filterMap]
  rfl

theorem asked_append (i : Nat) (es more : List (Event Stream)) :
    asked i (es ++ more) = asked i es ++ asked i more := by
  simp only [asked_eq, trace_append, List.filterMap_append]

theorem mem_asked {i : Nat} {e : (Stack Stream).Event} :
    .act i e ∈ es.filterMap Event.task? ↔ .act i ⟨.inl e.op, e.ans⟩ ∈ es := by
  rw [← mem_trace, trace, Pool.mem_traceOf,
    ← Pool.mem_left fun client : Client => Call.connectBackend client.port,
    List.filterMap_filterMap]
  rfl

/-- The only calls are those of the connections that went into `do_connection`. -/
theorem entered_of_call {i : Nat} {call : Call} (spawned : .spawn i call ∈ es.filterMap Event.task?) :
    ∃ e port, call = .connectBackend port ∧ .enter e ⟨port, i⟩ ∈ es := by
  obtain ⟨event, present, label⟩ := List.mem_filterMap.mp spawned
  cases event with
  | server => cases label
  | act j e =>
    obtain ⟨op | op, a⟩ := e
    · cases label
    · cases label
  | enter e client =>
    cases label
    exact ⟨e, client.port, rfl, present⟩

/-- A run of the proxy is, for the balancer, one of concurrent calls of `connect_backend`. -/
theorem calls_run {targets : TargetState} {C Q : Nat} {bindAddr : IpAddr} {clock : Instant}
    (run : Run (Step config copyBufSize) (new config targets C Q bindAddr clock) es x) :
    ∃ c : Tasks w Stream,
      Run (Tasks.Step config) (.idle (.new config targets clock)) (es.filterMap Event.task?) c ∧
      Pool.Watched Relayed id x.bodies c := by
  have watched : Pool.Watched Relayed id (new config targets C Q bindAddr clock : Proxy w Stream).bodies
      (Tasks.idle (.new config targets clock)) := ⟨rfl, fun _ => .none⟩
  have answered : ∀ {s t : Store w} {op : StackOp} {a : (Stack Stream).Ans op},
      s.Forwards ⟨.inl op, a⟩ t → s.Answers ⟨op, a⟩ t := id
  have copied : ∀ {s t : Store w} {op : CopyBidirectional Stream} {a : (Relay Stream).Ans op},
      s.Forwards ⟨.inr op, a⟩ t → t = s := id
  obtain ⟨c, calls, shown⟩ := Pool.watched_run answered copied (body_shows config copyBufSize)
    (bodies_run (synced_new config targets C Q bindAddr clock) run) watched
  rw [List.filterMap_filterMap] at calls
  exact ⟨c, calls, shown⟩

end Proxy

/-! One client of one app, up to the copy to its backend. -/

def onePortRaw : RawConfig := ⟨[⟨"web", [80], ["localhost:8080"]⟩]⟩

def onePortTargets : TargetState :=
  ⟨fun target => if target = "localhost:8080" then some (.alive none) else none⟩

theorem onePortTargets_loaded : TargetState.tryFrom onePortRaw = .ok onePortTargets := by
  simp only [TargetState.tryFrom, onePortRaw, List.foldl_cons, List.foldl_nil, TargetState.insert,
    onePortTargets]

def localBackend : SocketAddr := ⟨localhostAddr, 8080⟩

def forwarded : List (Proxy.Event Unit) :=
  listening.map .server ++
    [.server (.listen 0 (.accept (.ok ()))), .enter (.poll 0) ⟨80, 0⟩,
      .act 0 ⟨.inl (.fetchAdd 80), some 0⟩, .act 0 ⟨.inl (.load "localhost:8080"), .ok (.alive none)⟩,
      .act 0 ⟨.inl (.lookupHost "localhost:8080"), .ok [localBackend]⟩,
      .act 0 ⟨.inl (.connectAddr localBackend), .ok (.ok ())⟩,
      .act 0 ⟨.inl (.load "localhost:8080"), .ok (.alive none)⟩, .act 0 ⟨.inl .now, (0 : Instant)⟩]

theorem forwarded_run : ∃ x : Proxy 64 Unit,
    Run (Proxy.Step onePort 1024) (.new onePort onePortTargets 1 1 localhostAddr 0) forwarded x ∧
    x.server.admission.connections = [⟨0, .connecting, false⟩] ∧
    x.bodies.threads 0 = some (relay 0 1024 (.ok ((), localBackend))) := by
  refine ⟨_, .cons (.server rfl rfl trivial) (.cons (.server rfl rfl trivial)
    (.cons (.server rfl rfl trivial) (.cons (.server rfl rfl trivial) (.cons (.server rfl rfl trivial)
    (.cons (.enter rfl rfl rfl) (.cons (.act rfl (.act rfl ⟨rfl, rfl⟩))
    (.cons (.act rfl (.act rfl ⟨rfl, rfl⟩)) (.cons (.act rfl (.act rfl rfl))
    (.cons (.act rfl (.act rfl rfl)) (.cons (.act rfl (.act rfl ⟨rfl, rfl⟩))
    (.cons (.act rfl (.act rfl ⟨by decide, rfl⟩)) (.nil _)))))))))))), rfl, rfl⟩

end TcpProxy
