import TcpProxy.Balancer.RoundRobin

/-! # What one attempt does

Every execution of `connect` tries the resolved addresses in order up to the first
that connects, and its outcome says which of its exits it took. -/

namespace TcpProxy.RoundRobin

open Effects Effects.Program

variable {Stream : Type}

/-- The resolver errors after which the balancer moves on to the next target. -/
def TransientLookup : ProxyError → Prop
  | .dnsNxError _ => True
  | .dnsTransientError _ => True
  | _ => False

/-- The events of trying `addrs` in order when none of them connects. -/
def Refused : List SocketAddr → List (Balancer Stream).Event → Prop
  | [], [] => True
  | addr :: addrs, ⟨.connectAddr a, ans⟩ :: tr => a = addr ∧ (∀ s, ans ≠ .ok (.ok s)) ∧ Refused addrs tr
  | _, _ => False

theorem connectAddrs_exec {target : String} {addrs : List SocketAddr}
    {tr : List (Balancer Stream).Event} {out : ConnectAttempt (Stream × SocketAddr)}
    (run : Exec (connectAddrs target addrs) tr out) :
    (∃ before addr after stream a failed, addrs = before ++ addr :: after ∧ Refused before failed ∧
      tr = failed ++ [⟨.connectAddr addr, .ok (.ok stream)⟩,
        ⟨.reportConnectionAttempt target .success, a⟩] ∧ out = .ready (stream, addr)) ∨
    (∃ a failed, Refused addrs failed ∧
      tr = failed ++ [⟨.reportConnectionAttempt target .failure, a⟩] ∧ out = .tryNext) := by
  induction addrs generalizing tr with
  | nil =>
    obtain ⟨a, tail, rfl, done⟩ := exec_ask.mp run
    obtain ⟨rfl, rfl⟩ := exec_ret.mp done
    exact .inr ⟨a, [], trivial, rfl, rfl⟩
  | cons addr addrs ih =>
    obtain ⟨ans, tail, rfl, cont⟩ := exec_ask.mp run
    rcases ans with e | e | stream
    -- A timed-out or refused address only puts its event in front.
    · rcases ih cont with ⟨before, hit, after, stream, a, failed, rfl, refused, rfl, rfl⟩ |
        ⟨a, failed, refused, rfl, rfl⟩
      · exact .inl ⟨addr :: before, hit, after, stream, a, ⟨.connectAddr addr, .error e⟩ :: failed,
          rfl, ⟨rfl, by simp, refused⟩, rfl, rfl⟩
      · exact .inr ⟨a, ⟨.connectAddr addr, .error e⟩ :: failed, ⟨rfl, by simp, refused⟩, rfl, rfl⟩
    · rcases ih cont with ⟨before, hit, after, stream, a, failed, rfl, refused, rfl, rfl⟩ |
        ⟨a, failed, refused, rfl, rfl⟩
      · exact .inl ⟨addr :: before, hit, after, stream, a,
          ⟨.connectAddr addr, .ok (.error e)⟩ :: failed, rfl, ⟨rfl, by simp, refused⟩, rfl, rfl⟩
      · exact .inr ⟨a, ⟨.connectAddr addr, .ok (.error e)⟩ :: failed, ⟨rfl, by simp, refused⟩,
          rfl, rfl⟩
    · obtain ⟨a, tail, rfl, done⟩ := exec_ask.mp cont
      obtain ⟨rfl, rfl⟩ := exec_ret.mp done
      exact .inl ⟨[], addr, addrs, stream, a, [], rfl, trivial, rfl, rfl⟩

/-- The exits of `connect`. -/
theorem connect_exec {target : String} {port : UInt16} {tr : List (Balancer Stream).Event}
    {out : ConnectAttempt (Stream × SocketAddr)} (run : Exec (connect target port) tr out) :
    (∃ before addr after stream a failed, Refused before failed ∧
      tr = ⟨.lookupHost target, .ok (before ++ addr :: after)⟩ :: failed ++
        [⟨.connectAddr addr, .ok (.ok stream)⟩, ⟨.reportConnectionAttempt target .success, a⟩] ∧
      out = .ready (stream, addr)) ∨
    (∃ addrs a failed, Refused addrs failed ∧
      tr = ⟨.lookupHost target, .ok addrs⟩ :: failed ++
        [⟨.reportConnectionAttempt target .failure, a⟩] ∧ out = .tryNext) ∨
    (∃ e a, TransientLookup e ∧
      tr = [⟨.lookupHost target, .error e⟩, ⟨.reportConnectionAttempt target .failure, a⟩] ∧
      out = .tryNext) ∨
    (∃ e, ¬ TransientLookup e ∧ tr = [⟨.lookupHost target, .error e⟩] ∧ out = .fatal e) := by
  obtain ⟨ans, tail, rfl, cont⟩ := exec_ask.mp run
  cases ans with
  | ok addrs =>
    rcases connectAddrs_exec cont with ⟨before, addr, after, stream, a, failed, rfl, refused, rfl, rfl⟩ |
      ⟨a, failed, refused, rfl, rfl⟩
    · exact .inl ⟨before, addr, after, stream, a, failed, refused, rfl, rfl⟩
    · exact .inr (.inl ⟨addrs, a, failed, refused, rfl, rfl⟩)
  | error e =>
    cases e with
    | dnsNxError | dnsTransientError =>
      obtain ⟨a, tail, rfl, done⟩ := exec_ask.mp cont
      obtain ⟨rfl, rfl⟩ := exec_ret.mp done
      refine .inr (.inr (.inl ⟨_, a, ?_, rfl, rfl⟩))
      trivial
    | _ =>
      obtain ⟨rfl, rfl⟩ := exec_ret.mp cont
      exact .inr (.inr (.inr ⟨_, id, rfl, rfl⟩))

theorem Refused.network {addrs : List SocketAddr} {tr : List (Balancer Stream).Event}
    (refused : Refused addrs tr) : ∀ e ∈ tr, e.op.Network := by
  induction addrs generalizing tr with
  | nil =>
    cases tr with
    | nil => simp
    | cons e tr => cases refused
  | cons addr addrs ih =>
    match tr with
    | ⟨.connectAddr a, ans⟩ :: tr =>
      intro e he
      cases List.mem_cons.mp he with
      | inl first => rw [first]; trivial
      | inr later => exact ih refused.2.2 e later

/-- The report that goes with an outcome. -/
def Reports {S : Type} : ConnectResult → ConnectAttempt S → Prop
  | .success, .ready _ => True
  | .failure, .tryNext => True
  | _, _ => False

/-- An attempt is a single fatal lookup, or lookups and connects followed by exactly one
    report, of a success when the attempt is ready and of a failure when it is not. -/
theorem connect_report {target : String} {port : UInt16} {tr : List (Balancer Stream).Event}
    {out : ConnectAttempt (Stream × SocketAddr)} (run : Exec (connect target port) tr out) :
    (out.isFatal = true ∧ ∃ e, tr = [⟨.lookupHost target, .error e⟩]) ∨
      ∃ front result a, (∀ e ∈ front, e.op.Network) ∧
        tr = front ++ [⟨.reportConnectionAttempt target result, a⟩] ∧ Reports result out := by
  have looked : ∀ {ans} {failed : List (Balancer Stream).Event}, (∀ e ∈ failed, e.op.Network) →
      ∀ e ∈ (⟨.lookupHost target, ans⟩ :: failed : List (Balancer Stream).Event), e.op.Network := by
    intro ans failed network e he
    cases List.mem_cons.mp he with
    | inl first => rw [first]; trivial
    | inr later => exact network e later
  rcases connect_exec run with ⟨before, addr, after, stream, a, failed, refused, rfl, rfl⟩ |
    ⟨addrs, a, failed, refused, rfl, rfl⟩ | ⟨e, a, -, rfl, rfl⟩ | ⟨e, -, rfl, rfl⟩
  · have network : ∀ e ∈ failed ++ [(⟨.connectAddr addr, .ok (.ok stream)⟩ : (Balancer Stream).Event)],
        e.op.Network := by
      intro e he
      cases List.mem_append.mp he with
      | inl early => exact refused.network e early
      | inr last => rw [List.mem_singleton.mp last]; trivial
    exact .inr ⟨⟨.lookupHost target, .ok (before ++ addr :: after)⟩ :: (failed ++ [_]), .success, a,
      looked network, by simp, trivial⟩
  · exact .inr ⟨_, .failure, a, looked refused.network, rfl, trivial⟩
  · exact .inr ⟨[⟨.lookupHost target, .error e⟩], .failure, a, looked (by simp), rfl, trivial⟩
  · exact .inl ⟨rfl, e, rfl⟩

theorem connected_of_ready {target : String} {port : UInt16} {tr : List (Balancer Stream).Event}
    {stream : Stream} {addr : SocketAddr}
    (run : Exec (connect target port) tr (.ready (stream, addr))) :
    ⟨.connectAddr addr, .ok (.ok stream)⟩ ∈ tr := by
  rcases connect_exec run with ⟨before, hit, after, s, a, failed, -, rfl, hready⟩ |
    ⟨addrs, a, failed, -, -, hready⟩ | ⟨e, a, -, -, hready⟩ | ⟨e, -, -, hready⟩
  · cases hready
    simp
  all_goals cases hready

theorem lookup_of_fatal {target : String} {port : UInt16} {tr : List (Balancer Stream).Event}
    {e : ProxyError} (run : Exec (connect target port) tr (.fatal e)) :
    ¬ TransientLookup e ∧ tr = [⟨.lookupHost target, .error e⟩] := by
  rcases connect_exec run with ⟨before, hit, after, s, a, failed, -, -, hfatal⟩ |
    ⟨addrs, a, failed, -, -, hfatal⟩ | ⟨e', a, -, -, hfatal⟩ | ⟨e', permanent, rfl, hfatal⟩
  case inr.inr.inr =>
    cases hfatal
    exact ⟨permanent, rfl⟩
  all_goals cases hfatal

end TcpProxy.RoundRobin
