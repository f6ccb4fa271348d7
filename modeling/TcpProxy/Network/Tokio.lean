import TcpProxy.Network.Resolver

/-! # Sockets

The rest of `network/tokio.rs`, over the calls on sockets.  `set_nodelay` is made on every
stream: where it fails, `accept` logs it and keeps the stream, `connect` gives the stream up. -/

namespace TcpProxy

open Effects Effects.Program

variable {Listener Stream α : Type}

inductive SocketOp (Listener Stream : Type) where
  /-- `TcpListener::bind` -/
  | bind (addr : SocketAddr)
  /-- `TcpListener::accept` -/
  | accept (listener : Listener)
  /-- `TcpStream::connect` -/
  | connect (addr : SocketAddr)
  /-- `set_nodelay(true)` -/
  | setNodelay (stream : Stream)

abbrev Sockets (Listener Stream : Type) : Interface where
  Op := SocketOp Listener Stream
  Ans
    | .bind _ => Except IoError Listener
    | .accept _ => Except IoError (Stream × SocketAddr)
    | .connect _ => Except IoError Stream
    | .setNodelay _ => Except IoError Unit

def TokioStreamListenerFactory.bind (addr : SocketAddr) :
    Program (Sockets Listener Stream) (Except ProxyError Listener) := do
  match ← perform (I := Sockets Listener Stream) (.bind addr) with
  | .error e => return .error (.ioError e)
  | .ok listener => return .ok listener

def TokioListener.accept (listener : Listener) :
    Program (Sockets Listener Stream) (Except ProxyError (Stream × SocketAddr)) := do
  match ← perform (I := Sockets Listener Stream) (.accept listener) with
  | .error e => return .error (.ioError e)
  | .ok (stream, addr) => do
    let _ ← perform (I := Sockets Listener Stream) (.setNodelay stream)
    return .ok (stream, addr)

def TokioConnector.connect (addr : SocketAddr) :
    Program (Sockets Listener Stream) (Except ProxyError Stream) := do
  match ← perform (I := Sockets Listener Stream) (.connect addr) with
  | .error e => return .error (.ioError e)
  | .ok stream => do
    match ← perform (I := Sockets Listener Stream) (.setNodelay stream) with
    | .error e => return .error (.ioError e)
    | .ok () => return .ok stream

/-- `tokio::time::timeout` around `p`: it has returned, or it was dropped where it waited. -/
def TimedExec {I : Interface} (p : Program I α) (tr : List I.Event) : Except Elapsed α → Prop
  | .ok a => Exec p tr a
  | .error .elapsed => ∃ op next, Steps p tr (.ask op next)

/-! ## Exit by exit -/

theorem bind_exec {addr : SocketAddr} {tr : List (Sockets Listener Stream).Event}
    {r : Except ProxyError Listener} (run : Exec (TokioStreamListenerFactory.bind addr) tr r) :
    (∃ e, tr = [⟨.bind addr, .error e⟩] ∧ r = .error (.ioError e)) ∨
      ∃ listener, tr = [⟨.bind addr, .ok listener⟩] ∧ r = .ok listener := by
  obtain ⟨a, rest, rfl, past⟩ := exec_ask.mp run
  cases a with
  | error e =>
    obtain ⟨rfl, rfl⟩ := exec_ret.mp past
    exact .inl ⟨e, rfl, rfl⟩
  | ok listener =>
    obtain ⟨rfl, rfl⟩ := exec_ret.mp past
    exact .inr ⟨listener, rfl, rfl⟩

/-- The answer to `set_nodelay` decides nothing here. -/
theorem accept_exec {listener : Listener} {tr : List (Sockets Listener Stream).Event}
    {r : Except ProxyError (Stream × SocketAddr)} (run : Exec (TokioListener.accept listener) tr r) :
    (∃ e, tr = [⟨.accept listener, .error e⟩] ∧ r = .error (.ioError e)) ∨
      ∃ stream addr a, tr = [⟨.accept listener, .ok (stream, addr)⟩, ⟨.setNodelay stream, a⟩] ∧
        r = .ok (stream, addr) := by
  obtain ⟨a, rest, rfl, past⟩ := exec_ask.mp run
  cases a with
  | error e =>
    obtain ⟨rfl, rfl⟩ := exec_ret.mp past
    exact .inl ⟨e, rfl, rfl⟩
  | ok accepted =>
    obtain ⟨stream, addr⟩ := accepted
    obtain ⟨ignored, rest, rfl, returned⟩ := exec_ask.mp past
    obtain ⟨rfl, rfl⟩ := exec_ret.mp returned
    exact .inr ⟨stream, addr, ignored, rfl, rfl⟩

theorem connector_exec {addr : SocketAddr} {tr : List (Sockets Listener Stream).Event}
    {r : Except ProxyError Stream} (run : Exec (TokioConnector.connect addr) tr r) :
    (∃ e, tr = [⟨.connect addr, .error e⟩] ∧ r = .error (.ioError e)) ∨
      (∃ stream e, tr = [⟨.connect addr, .ok stream⟩, ⟨.setNodelay stream, .error e⟩] ∧
        r = .error (.ioError e)) ∨
      ∃ stream, tr = [⟨.connect addr, .ok stream⟩, ⟨.setNodelay stream, .ok ()⟩] ∧ r = .ok stream := by
  obtain ⟨a, rest, rfl, past⟩ := exec_ask.mp run
  cases a with
  | error e =>
    obtain ⟨rfl, rfl⟩ := exec_ret.mp past
    exact .inl ⟨e, rfl, rfl⟩
  | ok stream =>
    obtain ⟨a, rest, rfl, returned⟩ := exec_ask.mp past
    cases a with
    | error e =>
      obtain ⟨rfl, rfl⟩ := exec_ret.mp returned
      exact .inr (.inl ⟨stream, e, rfl, rfl⟩)
    | ok done =>
      obtain ⟨rfl, rfl⟩ := exec_ret.mp returned
      exact .inr (.inr ⟨stream, rfl, rfl⟩)

/-- A lookup fails for the moment, or because its target is neither an address nor `host:port`. -/
theorem lookupHost_fails {parse : String → Option SocketAddr} {host : String} {tr : List Hickory.Event}
    {e : ProxyError} (run : Exec (lookupHost parse host) tr (.error e)) :
    RoundRobin.TransientLookup e ∨
      (parse host = none ∧ (∀ name port, ¬ HostPort host name port) ∧ e = refusal host) := by
  cases literal : parse host with
  | some addr =>
    simp only [lookupHost, literal] at run
    cases (exec_ret.mp run).2
  | none =>
    by_cases grammatical : ∃ name port, HostPort host name port
    · obtain ⟨name, port, grammatical⟩ := grammatical
      rw [lookupHost_accepts literal grammatical] at run
      obtain ⟨answer, rest, rfl, past⟩ := exec_ask.mp run
      obtain ⟨-, same⟩ := exec_ret.mp past
      cases answer with
      | ok addrs => cases same
      | error err =>
        cases same
        left
        unfold ProxyError.ofNetError
        split
        · trivial
        · trivial
    · have ungrammatical : ∀ name port, ¬ HostPort host name port :=
        fun name port parsed => grammatical ⟨name, port, parsed⟩
      rw [lookupHost_refuses literal ungrammatical] at run
      obtain ⟨-, same⟩ := exec_ret.mp run
      cases same
      exact .inr ⟨rfl, ungrammatical, rfl⟩

end TcpProxy
