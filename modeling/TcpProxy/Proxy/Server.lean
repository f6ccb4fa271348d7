import TcpProxy.State
import TcpProxy.Proxy.Admission

/-! # The server

`ProxyServer::run` and the `listen` tasks it spawns, over the connection tasks of
`Proxy/Admission.lean`.  A step is one thing that one task does between two awaits, or
one answer from outside (a bind, an `accept()`, the cancellation of the token); the
two `try_acquire_owned` of `accept_connection` are separate steps, since other tasks
may release or take permits between them. -/

namespace TcpProxy

/-- Where a `listen` task stands. -/
inductive ListenPhase where
  | spawned
  /-- in the `try_join_next` loop -/
  | reaping
  /-- awaiting `listener.accept()` -/
  | accepting
  /-- in `accept_connection`, no open permit was free -/
  | queueing
  /-- past the first `select!`, which gave `acceptRes` -/
  | draining (acceptRes : Except ProxyError Unit)
  | returned (acceptRes : Except ProxyError Unit)
  | panicked (message : String)
  deriving DecidableEq

/-- The task is over, and its `JoinSet` of connections dropped. -/
def ListenPhase.ended : ListenPhase → Bool
  | returned _ | panicked _ => true
  | _ => false

/-- A `listen` task, in `handles` until it is joined. -/
structure Listener where
  port : UInt16
  phase : ListenPhase
  joined : Bool
  deriving DecidableEq

/-- Where `run` stands: at the next port to bind, at the next listener to spawn, in the
    `join_next` loop, or past its end. -/
inductive RunPhase where
  | binding (bound rest : List UInt16)
  | spawning (rest : List UInt16)
  | joining
  | returned (result : Except ProxyError Unit)
  deriving DecidableEq

structure Server where
  bindAddr : IpAddr
  phase : RunPhase
  firstError : Option ProxyError
  /-- `cancel_token` is cancelled -/
  cancelled : Bool
  listeners : List Listener
  admission : Admission
  deriving DecidableEq

inductive AcceptResult where
  | connected
  | retryImmediately
  | rejectedTooManyConnections
  | permanentError (e : ProxyError)
  deriving DecidableEq

/-- The three error kinds after which `accept_connection` tries again at once. -/
def ErrorKind.isTransient : ErrorKind → Bool
  | .connectionRefused | .connectionReset | .connectionAborted => true
  | .other _ => false

/-- `accept_connection` on an error of `accept()`. -/
def acceptError (e : ProxyError) : AcceptResult :=
  match e with
  | .ioError err => if err.kind.isTransient then .retryImmediately else .permanentError e
  | e => .permanentError e

/-- The second half of `accept_connection` on a stream. -/
def Admission.acceptQueue (s : Admission) (listener : Nat) : AcceptResult × Admission :=
  match s.tryQueue listener with
  | some t => (.connected, t)
  | none => (.rejectedTooManyConnections, s)

/-- The connections in the `JoinSet` of a listener. -/
def Admission.joinSet (s : Admission) (listener : Nat) : List Connection :=
  s.connections.filter fun c => c.listener = listener ∧ c.reaped = false

/-- The listener whose `JoinSet` task `i` was spawned on. -/
def Admission.owner? (s : Admission) (i : Nat) : Option Nat :=
  (s.connections[i]?).map Connection.listener

inductive ListenEvent where
  | start
  | reap (i : Nat)
  | reaped
  | accept (result : Except ProxyError Unit)
  | queue
  | cancelled
  | drained
  | deadline
  | panic (message : String)
  deriving DecidableEq

namespace Server

inductive Event where
  | bind (result : Except ProxyError Unit)
  | spawn
  | join (l : Nat)
  | ret
  | cancel
  | listen (l : Nat) (e : ListenEvent)
  | poll (i : Nat)
  | dropQueueSlot (i : Nat)
  | finish (i : Nat) (result : TaskEnd)
  | abort (i : Nat)
  deriving DecidableEq

/-- The listeners still to be spawned. -/
def toSpawn : List UInt16 → RunPhase
  | [] => .joining
  | ports => .spawning ports

/-- The ports still to be bound, behind those already bound. -/
def toBind (bound : List UInt16) : List UInt16 → RunPhase
  | [] => toSpawn bound
  | rest => .binding bound rest

/-- `ProxyServer::new`, at the start of `run`. -/
def new (config : ProxyConfig) (maxConnections maxQueue : Nat) (bindAddr : IpAddr) : Server where
  bindAddr := bindAddr
  phase := toBind [] config.ports
  firstError := none
  cancelled := false
  listeners := []
  admission := .new maxConnections maxQueue

def listenPhase? (s : Server) (l : Nat) : Option ListenPhase :=
  (s.listeners[l]?).map Listener.phase

def setListen (s : Server) (l : Nat) (p : ListenPhase) : Server :=
  { s with listeners := s.listeners.modify l ({ · with phase := p }) }

/-! ## `listen` -/

/-- What `listen` does with the result of `accept_connection`. -/
def afterAccept (s : Server) (l : Nat) : AcceptResult → Server
  | .connected | .retryImmediately => s.setListen l .reaping
  | .rejectedTooManyConnections => s.setListen l .reaping
  | .permanentError e => { s with cancelled := true }.setListen l (.draining (.error e))

/-- `accept()` gave `result`: the first half of `accept_connection`. -/
def acceptConnection (s : Server) (l : Nat) (result : Except ProxyError Unit) : Server :=
  match result with
  | .error e => s.afterAccept l (acceptError e)
  | .ok () =>
    match s.admission.tryOpen l with
    | some a => { s with admission := a }.afterAccept l .connected
    | none => s.setListen l .queueing

/-- A finished task is taken from the `JoinSet` of `l`. -/
def reapFrom (s : Server) (l i : Nat) : Option Server :=
  if s.admission.owner? i = some l then
    (s.admission.reap i).map fun a => { s with admission := a }
  else none

def listen (s : Server) (l : Nat) (p : ListenPhase) : ListenEvent → Option Server
  | .start =>
    match p with
    | .spawned => some (s.setListen l .reaping)
    | _ => none
  | .reap i =>
    match p with
    | .reaping | .draining _ => s.reapFrom l i
    | _ => none
  | .reaped =>
    match p with
    | .reaping =>
      if (s.admission.joinSet l).all (·.phase.unfinished) then some (s.setListen l .accepting)
      else none
    | _ => none
  | .accept result =>
    match p with
    | .accepting => some (s.acceptConnection l result)
    | _ => none
  | .queue =>
    match p with
    | .queueing =>
      some ({ s with admission := (s.admission.acceptQueue l).2 }.afterAccept l
        (s.admission.acceptQueue l).1)
    | _ => none
  | .cancelled =>
    -- the accept branch of the `select!` is pending, or was not polled at all
    match p with
    | .spawned | .accepting => if s.cancelled then some (s.setListen l (.draining (.ok ()))) else none
    | _ => none
  | .drained =>
    match p with
    | .draining acceptRes =>
      if s.admission.joinSet l = [] then some (s.setListen l (.returned acceptRes)) else none
    | _ => none
  | .deadline =>
    match p with
    | .draining acceptRes => some (s.setListen l (.returned acceptRes))
    | _ => none
  | .panic message => if p.ended then none else some (s.setListen l (.panicked message))

/-! ## `run` -/

/-- `first_error.get_or_insert(e)`, after `cancel_token.cancel()`. -/
def fail (s : Server) (e : ProxyError) : Server :=
  { s with cancelled := true, firstError := some (s.firstError.getD e) }

/-- `handles.join_next()` gave the result of listener `l`. -/
def join (s : Server) (l : Nat) : Option Server :=
  let t := { s with listeners := s.listeners.modify l ({ · with joined := true }) }
  match s.listeners[l]? with
  | some ⟨_, .returned (.ok ()), false⟩ => some t
  | some ⟨_, .returned (.error e), false⟩ => some (t.fail e)
  | some ⟨_, .panicked message, false⟩ => some (t.fail (.taskCancellation message))
  | _ => none

def result (s : Server) : Except ProxyError Unit :=
  match s.firstError with
  | some e => .error e
  | none => .ok ()

/-- `map_err(|e| e.maybe_into_bind_error(&addr))?` on the bind of the next port. -/
def bind (s : Server) (result : Except ProxyError Unit) : Option Server :=
  match s.phase with
  | .binding bound (port :: rest) =>
    match result with
    | .ok () => some { s with phase := toBind (bound ++ [port]) rest }
    | .error e =>
      some { s with phase := .returned (.error (e.maybeIntoBindError ⟨s.bindAddr, port⟩)) }
  | _ => none

def step (s : Server) : Event → Option Server
  | .bind result => s.bind result
  | .spawn =>
    match s.phase with
    | .spawning (port :: rest) =>
      some { s with
        phase := toSpawn rest
        listeners := s.listeners ++ [⟨port, .spawned, false⟩] }
    | _ => none
  | .join l => if s.phase = .joining then s.join l else none
  | .ret =>
    if s.phase = .joining ∧ s.listeners.all (·.joined) then
      some { s with phase := .returned s.result }
    else none
  | .cancel => some { s with cancelled := true }
  | .listen l e => (s.listenPhase? l).bind fun p => s.listen l p e
  | .poll i => (s.admission.poll i).map fun a => { s with admission := a }
  | .dropQueueSlot i => (s.admission.dropQueueSlot i).map fun a => { s with admission := a }
  | .finish i result => (s.admission.finish i result).map fun a => { s with admission := a }
  | .abort i =>
    if ((s.admission.owner? i).bind s.listenPhase?).any ListenPhase.ended then
      (s.admission.abort i).map fun a => { s with admission := a }
    else none

/-! ## What a step does to the connections -/

@[simp] theorem afterAccept_admission (s : Server) (l : Nat) (r : AcceptResult) :
    (s.afterAccept l r).admission = s.admission := by
  cases r <;> rfl

/-- What an event asks of the tasks and their semaphores. -/
def Event.onAdmission : Event → Option Admission.Event
  | .listen l (.accept (.ok ())) => some (.tryOpen l)
  | .listen l .queue => some (.tryQueue l)
  | .listen _ (.reap i) => some (.reap i)
  | .poll i => some (.poll i)
  | .dropQueueSlot i => some (.dropQueueSlot i)
  | .finish i result => some (.finish i result)
  | .abort i => some (.abort i)
  | _ => none

/-- A step of the server is a step of the admission, or leaves it alone. -/
def Projects (s : Server) (e : Event) (t : Server) : Prop :=
  t.admission = s.admission ∨
    ∃ f, e.onAdmission = some f ∧ s.admission.step f = some t.admission

theorem projects_acceptConnection (s : Server) (l : Nat) (result : Except ProxyError Unit) :
    Projects s (.listen l (.accept result)) (s.acceptConnection l result) := by
  cases result with
  | error e => exact .inl (afterAccept_admission s l _)
  | ok u =>
    cases taken : s.admission.tryOpen l with
    | some a =>
      refine .inr ⟨.tryOpen l, rfl, ?_⟩
      simp only [acceptConnection, taken, afterAccept_admission]
      exact taken
    | none =>
      left
      simp only [acceptConnection, taken]
      rfl

theorem projects_queue (s : Server) (l : Nat) :
    Projects s (.listen l .queue) ({ s with admission := (s.admission.acceptQueue l).2 }.afterAccept l
      (s.admission.acceptQueue l).1) := by
  cases taken : s.admission.tryQueue l with
  | some a =>
    refine .inr ⟨.tryQueue l, rfl, ?_⟩
    simp only [Admission.acceptQueue, taken, afterAccept_admission]
    exact taken
  | none =>
    left
    simp only [Admission.acceptQueue, taken, afterAccept_admission]

theorem projects_map {s t : Server} {e : Event} {f : Admission.Event} (same : e.onAdmission = some f)
    (h : (s.admission.step f).map (fun a => { s with admission := a }) = some t) :
    Projects s e t := by
  obtain ⟨a, ha, rfl⟩ := Option.map_eq_some_iff.mp h
  exact .inr ⟨f, same, ha⟩

theorem projects_listen {s t : Server} {l : Nat} {p : ListenPhase} {e : ListenEvent}
    (h : s.listen l p e = some t) : Projects s (.listen l e) t := by
  cases e with
  | accept result =>
    simp only [listen] at h
    split at h
    · cases h
      exact projects_acceptConnection s l result
    · cases h
  | queue =>
    simp only [listen] at h
    split at h
    · cases h
      exact projects_queue s l
    · cases h
  | reap i =>
    have reaped : s.reapFrom l i = some t := by
      simp only [listen] at h
      split at h
      · exact h
      · exact h
      · cases h
    unfold reapFrom at reaped
    split at reaped
    · exact projects_map (f := .reap i) rfl reaped
    · cases reaped
  | start | reaped | cancelled | drained | deadline | panic message =>
    left
    simp only [listen] at h
    repeat' split at h
    all_goals cases h
    all_goals rfl

theorem projects_step {s t : Server} {e : Event} (h : s.step e = some t) : Projects s e t := by
  cases e with
  | listen l e =>
    obtain ⟨p, -, hp⟩ := Option.bind_eq_some_iff.mp h
    exact projects_listen hp
  | poll i => exact projects_map (f := .poll i) rfl h
  | dropQueueSlot i => exact projects_map (f := .dropQueueSlot i) rfl h
  | finish i result => exact projects_map (f := .finish i result) rfl h
  | abort i =>
    simp only [step] at h
    split at h
    · exact projects_map (f := .abort i) rfl h
    · cases h
  | bind result | spawn | join l | ret | cancel =>
    left
    simp only [step, bind, join] at h
    repeat' split at h
    all_goals cases h
    all_goals rfl

end Server

end TcpProxy
