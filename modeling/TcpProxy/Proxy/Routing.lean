import TcpProxy.Proxy.Forwarding
import TcpProxy.Balancer.Routes

/-! # Routing from end to end

Which backends a client can come to speak with: the stream a connection copies to was
given, to this very connection, for an address that its own lookup of a listed target
returned, and the target is one of the app that lists the port the client came in on. -/

namespace TcpProxy

open Effects Effects.Program Lts SimpleCooldownHandler

variable {w : Nat} {Stream : Type}

/-- What the network answered in a trace of `do_connection`. -/
def seen (tr : List (Forward Stream).Event) : List (Network Stream).Event :=
  (tr.filterMap Interface.Event.left?).filterMap stackNetwork?

theorem mem_of_left {tr : List (Forward Stream).Event} {e : (Stack Stream).Event}
    (h : e ∈ tr.filterMap Interface.Event.left?) : ⟨.inl e.op, e.ans⟩ ∈ tr := by
  obtain ⟨⟨both, b⟩, present, left⟩ := List.mem_filterMap.mp h
  cases both with
  | inr sock => cases left
  | inl op => cases left; exact present

theorem lookup_seen {tr : List (Forward Stream).Event} {target : String}
    {a : Except ProxyError (List SocketAddr)} (h : ⟨.lookupHost target, a⟩ ∈ seen tr) :
    ⟨.inl (.lookupHost target), a⟩ ∈ tr := mem_of_left (lookup_of_network h)

theorem connect_seen {tr : List (Forward Stream).Event} {addr : SocketAddr} {a : TimedConnect Stream}
    (h : ⟨.connectAddr addr, a⟩ ∈ seen tr) : ⟨.inl (.connectAddr addr), a⟩ ∈ tr :=
  mem_of_left (connect_of_network h)

/-- What a connection of a client of the pool may ask next. -/
def Forwards (pool : List String) (inSock copyBufSize : Nat) (tr : List (Forward Stream).Event) :
    (Forward Stream).Op → Prop
  | .inl op => ∀ n ∈ op.network?, Routed pool (seen tr) n
  | .inr sock => sock.inSock = inSock ∧ sock.aToBBufSize = copyBufSize ∧
    sock.bToABufSize = copyBufSize ∧ ∃ addr, Serves pool (seen tr) (sock.outSock, addr)

theorem doConnection_routed {config : ProxyConfig} {port : UInt16} {pool : List String}
    (hpool : config.getPool port = some pool) (inSock copyBufSize : Nat) :
    Contract (fun _ => True) (Forwards pool inSock copyBufSize) (fun _ _ => True) []
      (doConnection config port inSock copyBufSize : Program (Forward Stream) _) := by
  have connects : Contract (fun _ => True) (Forwards pool inSock copyBufSize)
      (fun tr r => ∀ s, r = .ok s → Serves pool (seen tr) s) []
      (inLeft (stackConnectBackend config port) : Program (Forward Stream) _) :=
    (contract_inLeft (stackConnectBackend_routed hpool) (fun _ => trivial) fun asks => asks).mono id id
  refine contract_bind connects ?_
  intro tr r served
  cases r with
  | error e => trivial
  | ok s =>
    refine ⟨⟨rfl, rfl, rfl, s.2, served s rfl⟩, fun a _ => ?_⟩
    cases a with
    | error e => trivial
    | ok n => trivial

/-- A client listed under `app` may wait for the lookup of a target of the app, for an address
    that one of its own lookups of such a target gave, or for the copy to a stream that it was
    given for such an address. -/
def WaitsFor (app : App) (i copyBufSize : Nat) (es : List (Proxy.Event Stream)) :
    (Forward Stream).Op → Prop
  | .inl (.lookupHost target) => target ∈ app.targets
  | .inl (.connectAddr addr) => ∃ target ∈ app.targets, ∃ addrs,
    .act i ⟨.inl (.lookupHost target), .ok addrs⟩ ∈ es ∧ addr ∈ addrs
  | .inl _ => True
  | .inr sock => sock.inSock = i ∧ sock.aToBBufSize = copyBufSize ∧ sock.bToABufSize = copyBufSize ∧
    ∃ target ∈ app.targets, ∃ addrs addr,
      .act i ⟨.inl (.lookupHost target), .ok addrs⟩ ∈ es ∧ addr ∈ addrs ∧
      .act i ⟨.inl (.connectAddr addr), .ok (.ok sock.outSock)⟩ ∈ es

theorem waitsFor_of_forwards {app : App} {i copyBufSize : Nat} {es : List (Proxy.Event Stream)}
    {op : (Forward Stream).Op} (h : Forwards app.targets i copyBufSize (Proxy.trace i es) op) :
    WaitsFor app i copyBufSize es op := by
  rcases op with op | sock
  · cases op with
    | lookupHost target => exact h _ rfl
    | connectAddr addr =>
      obtain ⟨target, listed, addrs, looked, given⟩ := h _ rfl
      exact ⟨target, listed, addrs, Proxy.mem_trace.mp (lookup_seen looked), given⟩
    | fetchAdd | load | store | now => trivial
  · obtain ⟨client, toBackend, toClient, addr, target, listed, addrs, looked, given, connected⟩ := h
    exact ⟨client, toBackend, toClient, target, listed, addrs, addr,
      Proxy.mem_trace.mp (lookup_seen looked), given, Proxy.mem_trace.mp (connect_seen connected)⟩

/-- In every reachable state, whatever a connection is waiting for belongs to the one app that
    lists the port of its listener. -/
theorem forwarded_within_app {raw : RawConfig} {config : ProxyConfig}
    (accepted : ProxyConfig.tryFrom raw = .ok config) {targets : TargetState}
    {C Q copyBufSize : Nat} {bindAddr : IpAddr} {clock : Instant} {es : List (Proxy.Event Stream)}
    {x : Proxy w Stream}
    (run : Run (Proxy.Step config copyBufSize) (.new config targets C Q bindAddr clock) es x) {i : Nat}
    {op : (Forward Stream).Op} (asks : x.asks? i = some op) :
    ∃ port app, x.server.portOf? i = some port ∧ app ∈ raw.apps ∧ port ∈ app.ports ∧
      (∀ other ∈ raw.apps, port ∈ other.ports → other = app) ∧ WaitsFor app i copyBufSize es op := by
  obtain ⟨next, running⟩ := Proxy.asks?_some.mp asks
  obtain ⟨port, at_port, steps⟩ := Proxy.body_steps run running
  have served := Server.portOf?_mem (Proxy.server_run run) at_port
  obtain ⟨app, present, lists⟩ := (ProxyConfig.mem_ports_iff accepted).mp served
  have hpool := ProxyConfig.getPool_of_lists accepted present lists
  have routed := ((doConnection_routed hpool i copyBufSize).steps steps fun _ _ => trivial).1
  refine ⟨port, app, at_port, present, lists, ?_, waitsFor_of_forwards routed.1⟩
  intro other present' lists'
  obtain ⟨k, at_k⟩ := List.getElem?_of_mem present
  obtain ⟨j, at_j⟩ := List.getElem?_of_mem present'
  have same := ProxyConfig.app_of_port_unique accepted at_k at_j lists lists'
  rw [same, at_j] at at_k
  exact Option.some.inj at_k

theorem forwarded_within_web : ∃ x : Proxy 64 Unit,
    Run (Proxy.Step onePort 1024) (.new onePort onePortTargets 1 1 localhostAddr 0) forwarded x ∧
    x.asks? 0 = some (.inr ⟨0, (), 1024, 1024⟩) ∧
    ∃ port app, x.server.portOf? 0 = some port ∧ app ∈ onePortRaw.apps ∧ port ∈ app.ports ∧
      (∀ other ∈ onePortRaw.apps, port ∈ other.ports → other = app) ∧
      WaitsFor app 0 1024 forwarded (.inr ⟨0, (), 1024, 1024⟩) := by
  obtain ⟨x, run, -, running⟩ := forwarded_run
  have asks : x.asks? 0 = some (.inr ⟨0, (), 1024, 1024⟩) := Proxy.asks?_some.mpr ⟨_, running⟩
  exact ⟨x, run, asks,
    forwarded_within_app (show ProxyConfig.tryFrom onePortRaw = .ok onePort from rfl) run asks⟩

end TcpProxy
