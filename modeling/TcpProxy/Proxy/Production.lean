import TcpProxy.Network.Tokio
import TcpProxy.Balancer.Exhaustion
import TcpProxy.Proxy.Cancellation
import TcpProxy.Proxy.Outcome

/-! # On the production network

Runs of the proxy in which every bind, accept, lookup and connect is answered by
`network/tokio.rs`, and what can go wrong in them: of all the errors of the program only a
few ever end a connection, and only three ever end the server. -/

namespace TcpProxy

open Effects Effects.Program Effects.Pool Lts SimpleCooldownHandler

variable {w : Nat} {Stream : Type}

/-! ## Production runs -/

section Produced

variable (Listener : Type) (parse : String → Option SocketAddr)

/-- The answer comes from the resolver or, within its time, from the connector. -/
def NetworkProduced : (Network Stream).Event → Prop
  | ⟨.lookupHost host, a⟩ => ∃ tr, Exec (lookupHost parse host) tr a
  | ⟨.connectAddr addr, a⟩ =>
    ∃ tr, TimedExec (TokioConnector.connect addr : Program (Sockets Listener Stream) _) tr a

variable (Stream) in
def Server.Event.Produced : Server.Event → Prop
  | .bind a => ∃ addr tr r, a = Except.map (fun _ => ()) r ∧
    Exec (TokioStreamListenerFactory.bind addr : Program (Sockets Listener Stream) _) tr r
  | .listen _ (.accept a) => ∃ listener tr r, a = Except.map (fun _ => ()) r ∧
    Exec (TokioListener.accept listener : Program (Sockets Listener Stream) _) tr r
  | _ => True

def Proxy.Event.Produced : Proxy.Event Stream → Prop
  | .server e | .enter e _ => e.Produced Stream Listener
  | .act _ ⟨.inl op, a⟩ => ∀ e ∈ stackNetwork? ⟨op, a⟩, NetworkProduced Listener parse e
  | .act _ ⟨.inr _, _⟩ => True

end Produced

variable {Listener : Type} {parse : String → Option SocketAddr}

theorem Server.Event.Produced.bind_error {e : ProxyError}
    (h : Server.Event.Produced Stream Listener (.bind (.error e))) : ∃ io, e = .ioError io := by
  obtain ⟨addr, tr, r, same, ran⟩ := h
  rcases bind_exec ran with ⟨io, -, rfl⟩ | ⟨listener, -, rfl⟩
  · cases same
    exact ⟨io, rfl⟩
  · cases same

theorem Server.Event.Produced.accept_error {l : Nat} {e : ProxyError}
    (h : Server.Event.Produced Stream Listener (.listen l (.accept (.error e)))) : ∃ io, e = .ioError io := by
  obtain ⟨listener, tr, r, same, ran⟩ := h
  rcases accept_exec ran with ⟨io, -, rfl⟩ | ⟨stream, addr, a, -, rfl⟩
  · cases same
    exact ⟨io, rfl⟩
  · cases same

namespace Proxy

variable {raw : RawConfig} {config : ProxyConfig} {targets : TargetState} {C Q copyBufSize : Nat}
  {bindAddr : IpAddr} {clock : Instant} {es : List (Event Stream)} {x : Proxy w Stream}

/-- Where the status map is built from the config, no connection meets a missing entry. -/
theorem found_of_asked (accepted : ProxyConfig.tryFrom raw = .ok config)
    (fresh : TargetState.tryFrom raw = .ok targets)
    (run : Run (Step config copyBufSize) (new config targets C Q bindAddr clock) es x) {i : Nat} :
    ∀ e ∈ asked i es, Found e := by
  intro e he
  obtain ⟨c, calls, -⟩ := calls_run run
  refine found_of_run accepted calls (keyed_new fresh clock) ?_ i e (mem_traceOf.mp he)
  intro j call spawned
  obtain ⟨enter, port, rfl, entered⟩ := entered_of_call spawned
  exact Server.portOf?_mem (server_run run) (port_of_enter run entered)

theorem lookup_produced (produced : ∀ e ∈ es, e.Produced Listener parse) {i : Nat} {target : String}
    {a : Except ProxyError (List SocketAddr)} (looked : ⟨.lookupHost target, a⟩ ∈ asked i es) :
    ∃ tr, Exec (lookupHost parse target) tr a :=
  produced _ (mem_asked.mp (Pool.mem_traceOf.mp looked)) _ rfl

end Proxy

/-- `do_connection` fails with the error of `connect_backend`, or with one of the copy. -/
theorem doConnection_fails {config : ProxyConfig} {port : UInt16} {pool : List String}
    (hpool : config.getPool port = some pool) {inSock copyBufSize : Nat}
    {tr : List (Forward Stream).Event} {e : ProxyError}
    (run : Exec (doConnection config port inSock copyBufSize) tr (.error e))
    (found : ∀ x ∈ tr.filterMap Interface.Event.left?, Found x) :
    FailsBy pool port (tr.filterMap Interface.Event.left?) e ∨
      ∃ sock io, ⟨.inr sock, .error io⟩ ∈ tr ∧ e = .ioError io := by
  obtain ⟨r, asks, rest, rfl, connects, relays⟩ := exec_bind.mp run
  cases r with
  | error e' =>
    obtain ⟨rfl, same⟩ := exec_ret.mp relays
    cases same
    rw [List.append_nil] at found ⊢
    exact .inl (stackConnectBackend_fails hpool (exec_inLeft connects) found)
  | ok s =>
    obtain ⟨a, rest, rfl, done⟩ := exec_ask.mp relays
    cases a with
    | error io =>
      cases (exec_ret.mp done).2
      exact .inr ⟨_, io, List.mem_append_right _ List.mem_cons_self, rfl⟩
    | ok n => cases (exec_ret.mp done).2

/-- The errors that end connection `i` of a client of `app`: there are no targets, the connection
    found each of them drained or tried it in vain, it looked one up that is neither an address
    nor `host:port`, or the copy failed. -/
inductive Proxy.Failure (parse : String → Option SocketAddr) (app : App) (port : UInt16) (i : Nat)
    (es : List (Proxy.Event Stream)) : ProxyError → Prop
  | empty : app.targets = [] → Failure parse app port i es (emptyPoolError port)
  | exhausted : app.targets ≠ [] → (∀ target ∈ app.targets, PassedOver target (Proxy.asked i es)) →
      Failure parse app port i es (RoundRobin.exhaustedError port)
  | refused {target : String} : target ∈ app.targets → parse target = none →
      (∀ host p, ¬ HostPort target host p) → Failure parse app port i es (refusal target)
  | copy {sock : CopyBidirectional Stream} {io : IoError} : .act i ⟨.inr sock, .error io⟩ ∈ es →
      Failure parse app port i es (.ioError io)

/-- Why the body of a client of `app` returned an error. -/
theorem Proxy.failure_of_error {raw : RawConfig} {config : ProxyConfig}
    (accepted : ProxyConfig.tryFrom raw = .ok config) {targets : TargetState}
    (fresh : TargetState.tryFrom raw = .ok targets) {C Q copyBufSize : Nat} {bindAddr : IpAddr}
    {clock : Instant} {es : List (Proxy.Event Stream)} {x : Proxy w Stream}
    (run : Run (Proxy.Step config copyBufSize) (.new config targets C Q bindAddr clock) es x)
    (produced : ∀ e ∈ es, e.Produced Listener parse) {i : Nat} {port : UInt16} {app : App}
    (present : app ∈ raw.apps) (lists : port ∈ app.ports) {e : ProxyError}
    (steps : Steps (doConnection config port i copyBufSize) (Proxy.trace i es) (.ret (.error e))) :
    Proxy.Failure parse app port i es e := by
  have hpool := ProxyConfig.getPool_of_lists accepted present lists
  have found := Proxy.found_of_asked accepted fresh run (i := i)
  rw [Proxy.asked_eq] at found
  rcases doConnection_fails hpool steps found with cause | ⟨sock, io, copied, rfl⟩
  · rw [← Proxy.asked_eq] at cause
    cases cause with
    | empty none_listed => exact .empty none_listed
    | exhausted some_listed passed => exact .exhausted some_listed passed
    | @unresolved target e listed looked permanent =>
      obtain ⟨tr, ran⟩ := Proxy.lookup_produced produced looked
      obtain ⟨literal, ungrammatical, rfl⟩ := (lookupHost_fails ran).resolve_left permanent
      exact .refused listed literal ungrammatical
  · exact .copy (Proxy.mem_trace.mp copied)

theorem forwarded_produced : ∀ e ∈ forwarded, e.Produced Unit (fun _ => none) := by
  have bound : Server.Event.Produced Unit Unit (.bind (.ok ())) :=
    ⟨⟨localhostAddr, 80⟩, [⟨.bind ⟨localhostAddr, 80⟩, .ok ()⟩], .ok (), rfl, .cons (.nil _)⟩
  have accepted : Server.Event.Produced Unit Unit (.listen 0 (.accept (.ok ()))) :=
    ⟨(), [⟨.accept (), .ok ((), localBackend)⟩, ⟨.setNodelay (), .ok ()⟩], .ok ((), localBackend), rfl,
      .cons (.cons (.nil _))⟩
  have looked : NetworkProduced Unit (fun _ => none)
      (⟨.lookupHost "localhost:8080", .ok [localBackend]⟩ : (Network Unit).Event) :=
    ⟨[⟨.lookupIp "localhost", .ok [localhostAddr]⟩], .cons (.nil _)⟩
  have connected : NetworkProduced Unit (fun _ => none)
      (⟨.connectAddr localBackend, .ok (.ok ())⟩ : (Network Unit).Event) :=
    ⟨[⟨.connect localBackend, .ok ()⟩, ⟨.setNodelay (), .ok ()⟩], .cons (.cons (.nil _))⟩
  intro e he
  simp only [forwarded, listening, List.map_cons, List.map_nil, List.cons_append, List.nil_append,
    List.mem_cons, List.not_mem_nil, or_false] at he
  rcases he with rfl | rfl | rfl | rfl | rfl | rfl | rfl | rfl | rfl | rfl | rfl | rfl
  · exact bound
  · trivial
  · trivial
  · trivial
  · exact accepted
  · trivial
  · rintro n ⟨⟩
  · rintro n ⟨⟩
  · rintro n ⟨⟩
    exact looked
  · rintro n ⟨⟩
    exact connected
  · rintro n ⟨⟩
  · rintro n ⟨⟩

/-- The backend resets the connection that is being copied. -/
def copyReset : List (Proxy.Event Unit) :=
  forwarded ++ [.act 0 ⟨.inr ⟨0, (), 1024, 1024⟩, .error ⟨.connectionReset, "reset by peer"⟩⟩,
    .server (.finish 0 (.err (.ioError ⟨.connectionReset, "reset by peer"⟩)))]

theorem copyReset_produced : ∀ e ∈ copyReset, e.Produced Unit (fun _ => none) := by
  intro e he
  rcases List.mem_append.mp he with before | last
  · exact forwarded_produced e before
  · simp only [List.mem_cons, List.not_mem_nil, or_false] at last
    rcases last with rfl | rfl
    · trivial
    · trivial

/-- The errors `run` returns: that of a bind, a permanent error of an `accept()`, a panic. -/
inductive Server.Failure (ports : List UInt16) (bindAddr : IpAddr) (es : List Server.Event) :
    ProxyError → Prop
  | bind {port : UInt16} {io : IoError} : port ∈ ports → .bind (.error (.ioError io)) ∈ es →
      Failure ports bindAddr es (.bindError (SocketAddr.mk bindAddr port).toString io)
  | accept {l : Nat} {io : IoError} : .listen l (.accept (.error (.ioError io))) ∈ es →
      io.kind.isTransient = false → Failure ports bindAddr es (.ioError io)
  | panic {l : Nat} {message : String} : .listen l (.panic message) ∈ es →
      Failure ports bindAddr es (.taskCancellation message)

theorem Server.failure_of_failed {ports : List UInt16} {bindAddr : IpAddr} {es : List Server.Event}
    (produced : ∀ e ∈ es, Server.Event.Produced Stream Listener e) {l : Nat} {e : ProxyError}
    (failed : Server.Failed es l e) : Server.Failure ports bindAddr es e := by
  obtain ⟨ev, present, fails⟩ := failed
  obtain ⟨le, rfl⟩ := Server.failure_listener fails
  cases le with
  | panic message =>
    cases fails
    exact .panic present
  | accept result =>
    cases result with
    | ok u => cases fails
    | error e' =>
      obtain ⟨io, rfl⟩ := (produced _ present).accept_error
      simp only [Server.Event.failure?] at fails
      split at fails
      next => cases fails
      next lasting =>
        cases fails
        refine .accept present ?_
        obtain ⟨kind, message⟩ := io
        cases kind <;> simp_all [transientAccept, ErrorKind.isTransient]
  | start | reap | reaped | queue | cancelled | drained | deadline => cases fails

theorem server_failures {config : ProxyConfig} {C Q : Nat} {bindAddr : IpAddr} {es : List Server.Event}
    {s : Server} (run : Run (Fires Server.step) (.new config C Q bindAddr) es s)
    (produced : ∀ e ∈ es, Server.Event.Produced Stream Listener e) {e : ProxyError}
    (returned : s.phase = .returned (.error e)) : Server.Failure config.ports bindAddr es e := by
  have explained := Server.explained_of_run run
  rcases explained.returned returned with ⟨bound, port, err, failedAt, -⟩ | ⟨-, -, -, result⟩
  · obtain ⟨rest, all_ports⟩ := failedAt.ports
    have failed : .error err ∈ Server.binds es := by simp [failedAt.binds]
    obtain ⟨ev, present, is_bind⟩ := List.mem_filterMap.mp failed
    cases ev with
    | bind a =>
      cases is_bind
      obtain ⟨io, rfl⟩ := (produced _ present).bind_error
      cases failedAt.result
      exact .bind (by simp [← all_ports]) present
    | _ => cases is_bind
  · have kept : s.firstError = some e := by
      unfold Server.result at result
      split at result
      next err kept =>
        cases result
        exact kept
      next => cases result
    obtain ⟨-, l, p, at_p, failed⟩ := explained.recorded.first e kept
    exact Server.failure_of_failed produced
      (Server.failed_of_failure? (explained.recorded.outcome l p at_p) failed)

theorem Server.Explained.returned_ok_iff {ports : List UInt16} {bindAddr : IpAddr} {es : List Server.Event}
    {s : Server} (h : Server.Explained ports bindAddr es s) {r : Except ProxyError Unit}
    (returned : s.phase = .returned r) :
    r = .ok () ↔ Server.AllBound ports es ∧ ∀ l < ports.length, Server.EndedByCancellation es l := by
  rcases h.returned returned with ⟨bound, port, err, failedAt, -⟩ | ⟨all_ports, all_bound, settled, rfl⟩
  · constructor
    · intro fine
      rw [failedAt.result] at fine
      cases fine
    · rintro ⟨all_bound, -⟩
      exact absurd all_bound failedAt.not_allBound
  · rw [h.result_ok_iff all_ports settled]
    exact ⟨fun ended => ⟨all_bound, ended⟩, And.right⟩

/-- With a port, `Ok` means that the token was cancelled from outside. -/
theorem Server.cancel_of_ok {config : ProxyConfig} {C Q : Nat} {bindAddr : IpAddr} {es : List Server.Event}
    {s : Server} (run : Run (Fires Server.step) (.new config C Q bindAddr) es s)
    (returned : s.phase = .returned (.ok ())) (some_port : config.ports ≠ []) : .cancel ∈ es := by
  have explained := Server.explained_of_run run
  obtain ⟨-, ended⟩ := (explained.returned_ok_iff returned).mp rfl
  obtain ⟨by_cancel, -⟩ := ended 0 (List.length_pos_iff.mpr some_port)
  obtain ⟨pre, post, u, v, rfl, reach, heard, -⟩ := run.mem_step by_cancel
  rcases (Server.explained_of_run reach).recorded.token (Server.token_of_heard heard) with
    outside | ⟨l, e, ev, present, fails⟩
  · exact List.mem_append_left _ outside
  · -- A failure would have been returned.
    rcases explained.returned returned with ⟨bound, port, err, failedAt, -⟩ | ⟨-, -, settled, result⟩
    · cases failedAt.result
    · obtain ⟨-, e', -, kept⟩ := explained.result_of_failed settled ⟨ev, List.mem_append_left _ present, fails⟩
      rw [Server.result, kept] at result
      cases result

end TcpProxy
