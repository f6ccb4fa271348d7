import TcpProxy.Proxy.Forwarding
import TcpProxy.Balancer.Work

/-! # What the clients cost

In a run of the proxy each connection makes one call, so what the balancer does for a client
is bounded by the pool of its app and by the addresses its own lookups return, whatever the
other connections do in between; and the buffers of all the copies together are bounded by
the permits. -/

namespace TcpProxy

open Effects Effects.Program Effects.Pool Lts SimpleCooldownHandler

variable {w : Nat} {Stream : Type}

namespace Proxy

variable {raw : RawConfig} {config : ProxyConfig} {targets : TargetState} {C Q copyBufSize : Nat}
  {bindAddr : IpAddr} {clock : Instant} {es : List (Event Stream)} {x : Proxy w Stream}

theorem spent_within (accepted : ProxyConfig.tryFrom raw = .ok config)
    (run : Run (Step config copyBufSize) (new config targets C Q bindAddr clock) es x) {i : Nat}
    {port : UInt16} (at_port : x.server.portOf? i = some port) {app : App} (present : app ∈ raw.apps)
    (lists : port ∈ app.ports) (P : Prices) :
    spent P.price (asked i es) ≤ P.call app.targets.length + earned P.credit (asked i es) := by
  cases empty : asked i es with
  | nil => exact Nat.zero_le _
  | cons e rest =>
    obtain ⟨c, calls, -⟩ := calls_run run
    obtain ⟨call, q, spawned, -, steps⟩ := acting_steps calls rfl
      (mem_traceOf.mp (show e ∈ asked i es from empty ▸ List.mem_cons_self))
    obtain ⟨enter, port', rfl, entered⟩ := entered_of_call spawned
    obtain rfl : port' = port :=
      Option.some.inj ((port_of_enter run entered).symm.trans at_port)
    have pool := ProxyConfig.getPool_of_lists accepted present lists
    have affords : Affords P.price P.credit (P.call app.targets.length)
        (Call.body config (.connectBackend port') : Program (Stack Stream) _) :=
      affords_bind (c := 0) (stackConnectBackend_affords pool) fun _ => trivial
    rw [← empty]
    exact affords.steps steps

end Proxy

/-- What every place of a list may contribute to a sum, at the places that count. -/
theorem sum_range_le {α : Type} (l : List α) (p : α → Bool) (K : Nat) {f : Nat → Nat}
    (h : ∀ i (inside : i < l.length), f i ≤ if p l[i] then K else 0) :
    ((List.range l.length).map f).sum ≤ l.countP p * K := by
  induction l using List.reverseRecOn with
  | nil => exact Nat.zero_le _
  | append_singleton l a ih =>
    have before := ih fun i inside => by
      have bound := h i (by simp; omega)
      rwa [List.getElem_append_left inside] at bound
    have last := h l.length (by simp)
    rw [List.getElem_concat_length rfl] at last
    rw [List.length_append, List.length_singleton, List.range_succ, List.map_append, List.sum_append,
      List.countP_append, List.countP_singleton, Nat.add_mul]
    have one : f l.length ≤ (if p a then 1 else 0) * K := by
      split at last
      next yes => simpa [yes] using last
      next no => simpa [no] using last
    simpa using Nat.add_le_add before one

/-- The buffers of the copy that connection `i` is in. -/
def Proxy.bufferSize (x : Proxy w Stream) (i : Nat) : Nat :=
  match x.server.admission.phase? i, x.asks? i with
  | some .connecting, some (.inr sock) => sock.aToBBufSize + sock.bToABufSize
  | _, _ => 0

/-- The buffers of all the copies. -/
def Proxy.buffers (x : Proxy w Stream) : Nat :=
  ((List.range x.server.admission.connections.length).map x.bufferSize).sum

/-- Every copy has a buffer of the given size for each direction. -/
def Buffered (copyBufSize : Nat) : (Forward Stream).Op → Prop
  | .inl _ => True
  | .inr sock => sock.aToBBufSize = copyBufSize ∧ sock.bToABufSize = copyBufSize

theorem uses_doConnection (config : ProxyConfig) (port : UInt16) (inSock copyBufSize : Nat) :
    Uses (Buffered copyBufSize) (doConnection config port inSock copyBufSize : Program (Forward Stream) _) := by
  have balances := uses_any (stackConnectBackend config port : Program (Stack Stream) _)
  refine uses_bind (uses_interp balances fun op _ => ⟨trivial, fun _ => trivial⟩) fun r => ?_
  cases r with
  | error e => trivial
  | ok s =>
    refine ⟨⟨rfl, rfl⟩, fun a => ?_⟩
    cases a with
    | error e => trivial
    | ok n => trivial

/-- However many clients come, the copies need two buffers for each of the `C` open permits. -/
theorem buffers_bounded {config : ProxyConfig} {targets : TargetState} {C Q copyBufSize : Nat}
    {bindAddr : IpAddr} {clock : Instant} {es : List (Proxy.Event Stream)} {x : Proxy w Stream}
    (run : Run (Proxy.Step config copyBufSize) (.new config targets C Q bindAddr clock) es x) :
    x.buffers ≤ C * (2 * copyBufSize) := by
  have opens := (Server.accounted_of_run (Proxy.server_run run)).opens
  have connecting : x.server.admission.held Phase.isConnecting ≤ x.server.admission.held Phase.holdsOpen :=
    x.server.admission.held_mono fun p => by cases p <;> simp [Phase.isConnecting, Phase.holdsOpen]
  have buffered : x.buffers ≤ x.server.admission.held Phase.isConnecting * (2 * copyBufSize) := by
    apply sum_range_le
    intro i inside
    have at_i : x.server.admission.phase? i = some x.server.admission.connections[i].phase := by
      simp [Admission.phase?, inside]
    unfold Proxy.bufferSize
    rw [at_i]
    split
    next sock copies phase asks =>
      obtain ⟨next, running⟩ := Proxy.asks?_some.mp asks
      obtain ⟨port, -, steps⟩ := Proxy.body_steps run running
      obtain ⟨toBackend, toClient⟩ := (uses_steps steps (uses_doConnection config port i copyBufSize)).1
      rw [Option.some.inj phase]
      simp only [Phase.isConnecting, if_true, toBackend, toClient]
      omega
    next => exact Nat.zero_le _
  exact Nat.le_trans buffered (Nat.mul_le_mul_right _ (by omega))

/-- The only permit is taken, and both buffers are in use. -/
theorem forwarded_buffers : ∃ x : Proxy 64 Unit,
    Run (Proxy.Step onePort 1024) (.new onePort onePortTargets 1 1 localhostAddr 0) forwarded x ∧
    x.buffers = 2048 ∧ x.buffers ≤ 1 * (2 * 1024) := by
  obtain ⟨x, run, connections, running⟩ := forwarded_run
  have copies : x.asks? 0 = some (.inr ⟨0, (), 1024, 1024⟩) := Proxy.asks?_some.mpr ⟨_, running⟩
  refine ⟨x, run, ?_, buffers_bounded run⟩
  simp [Proxy.buffers, Proxy.bufferSize, Admission.phase?, connections, copies]

end TcpProxy
