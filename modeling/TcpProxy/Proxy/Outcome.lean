import TcpProxy.Ingest
import TcpProxy.Proxy.Permits
import TcpProxy.Proxy.Completion

/-! # The outcome of the server

What `run` returns, read off the history of the server in `Proxy/Records.lean`, and that
it gets there by itself once the server goes down. -/

namespace TcpProxy

open Lts (Run Fires exec run_of_exec)

namespace Server

variable {es : List Event} {s t : Server} {ports : List UInt16} {bindAddr : IpAddr}

/-! ## What `run` returns -/

/-- Past the binds, `run` returns once every listener is over and joined. -/
theorem Explained.settled {l : Nat} {p : ListenPhase} (h : Explained ports bindAddr es s)
    (settled : s.listeners.all (·.joined) = true) (at_p : s.listenPhase? l = some p) :
    p.ended = true ∧ (p.failure? ≠ none → s.firstError ≠ none) := by
  obtain ⟨listener, found, rfl⟩ := Option.map_eq_some_iff.mp at_p
  exact h.recorded.joins l listener found
    (List.all_eq_true.mp settled listener (List.mem_of_getElem? found))

/-- `run` returned `Ok`: no listener failed, and there is one for each port. -/
theorem Explained.result_ok_iff (h : Explained ports bindAddr es s)
    (all_ports : s.listeners.map Listener.port = ports) (settled : s.listeners.all (·.joined) = true) :
    s.result = .ok () ↔ ∀ l < ports.length, EndedByCancellation es l := by
  have spawned : ∀ l, l < ports.length → ∃ p, s.listenPhase? l = some p := by
    intro l inside
    rw [← all_ports, List.length_map] at inside
    exact ⟨s.listeners[l].phase, by simp [listenPhase?, inside]⟩
  constructor
  · intro fine l inside
    obtain ⟨p, at_p⟩ := spawned l inside
    obtain ⟨ended, failing⟩ := h.settled settled at_p
    refine (ended_ok_iff (h.recorded.outcome l p at_p) ended).mp ?_
    by_contra failed
    have kept := failing failed
    unfold result at fine
    split at fine
    next => cases fine
    next nothing => exact kept nothing
  · intro by_cancel
    unfold result
    split
    next err kept =>
      obtain ⟨-, l, p, at_p, failed⟩ := h.recorded.first err kept
      obtain ⟨listener, found, rfl⟩ := Option.map_eq_some_iff.mp at_p
      have inside : l < ports.length := by
        rw [← all_ports, List.length_map]
        exact (List.getElem?_eq_some_iff.mp found).1
      obtain ⟨ended, -⟩ := h.settled settled at_p
      have fine := (ended_ok_iff (h.recorded.outcome l _ at_p) ended).mpr (by_cancel l inside)
      rw [fine] at failed
      cases failed
    next => rfl

/-- A failure of any listener leaves `run` with the error of one that failed. -/
theorem Explained.result_of_failed {l : Nat} {e : ProxyError} (h : Explained ports bindAddr es s)
    (settled : s.listeners.all (·.joined) = true) (failed : Failed es l e) :
    ∃ l' e', Failed es l' e' ∧ s.firstError = some e' := by
  obtain ⟨ev, present, fails⟩ := failed
  obtain ⟨le, rfl⟩ := failure_listener fails
  cases at_p : s.listenPhase? l with
  | none => exact absurd present (h.recorded.unborn l at_p le)
  | some p =>
    obtain ⟨ended, failing⟩ := h.settled settled at_p
    have outcome := h.recorded.outcome l p at_p
    have not_fine : p.failure? ≠ none := by
      intro fine
      cases p with
      | returned acceptRes =>
        cases acceptRes with
        | ok u => exact outcome.2 e ⟨_, present, fails⟩
        | error e => cases fine
      | panicked message => cases fine
      | spawned | reaping | accepting | queueing | draining => cases ended
    obtain ⟨e', kept⟩ := Option.ne_none_iff_exists'.mp (failing not_fine)
    obtain ⟨-, l', p', at_p', failed'⟩ := h.recorded.first e' kept
    exact ⟨l', e', failed_of_failure? (h.recorded.outcome l' p' at_p') failed', kept⟩

theorem toSpawn_ne_returned (rest : List UInt16) (r : Except ProxyError Unit) :
    toSpawn rest ≠ .returned r := by
  cases rest <;> nofun

theorem toBind_ne_returned (bound rest : List UInt16) (r : Except ProxyError Unit) :
    toBind bound rest ≠ .returned r := by
  cases rest with
  | nil => exact toSpawn_ne_returned bound r
  | cons port rest => nofun

/-- `run` returns at a failed bind, or after its `join_next` loop. -/
theorem returned_step {e : Event} {r : Except ProxyError Unit} (hs : s.step e = some t)
    (returned : t.phase = .returned r) :
    s.phase = .returned r ∨ (e = .ret ∧ s.phase = .joining ∧ s.result = r) ∨
      ∃ err, e = .bind (.error err) := by
  cases step_effect hs with
  | bound => exact absurd returned (toBind_ne_returned _ _ r)
  | bindFailed => exact .inr (.inr ⟨_, rfl⟩)
  | spawned => exact absurd returned (toSpawn_ne_returned _ r)
  | returned joining =>
    cases returned
    exact .inr (.inl ⟨rfl, joining, rfl⟩)
  | listened _ _ only => exact .inl (only.phase.symm.trans returned)
  | joined | joinedFailed | cancelled | task => exact .inl returned

/-- Without a failed bind, `run` went through its `join_next` loop to its result. -/
theorem joined_before_return {s₀ : Server} {r : Except ProxyError Unit}
    (run : Run (Fires step) s₀ es s) (start : ∀ r, s₀.phase ≠ .returned r)
    (returned : s.phase = .returned r) (bound : ∀ err, .error err ∉ binds es) :
    ∃ pre post u, es = pre ++ post ∧ Run (Fires step) s₀ pre u ∧ u.phase = .joining ∧
      u.result = r := by
  have general := run.history
    (fun es s => Run (Fires step) s₀ es s ∧ ∀ r, s.phase = .returned r →
      (∀ err, .error err ∉ binds es) →
      ∃ pre post u, es = pre ++ post ∧ Run (Fires step) s₀ pre u ∧ u.phase = .joining ∧ u.result = r)
    ⟨.nil s₀, fun r returned => absurd returned (start r)⟩ ?_
  · exact general.2 r returned bound
  · rintro pre u e v ⟨reach, before⟩ hs
    refine ⟨reach.append (.single hs), fun r returned bound => ?_⟩
    rcases returned_step hs returned with earlier | ⟨rfl, joining, result⟩ | ⟨err, rfl⟩
    · obtain ⟨pre', post, w, rfl, rest⟩ :=
        before r earlier fun err present =>
          bound err (by rw [binds_append]; exact List.mem_append_left _ present)
      exact ⟨pre', post ++ [e], w, List.append_assoc .., rest⟩
    · exact ⟨pre, [.ret], u, rfl, reach, joining, result⟩
    · refine absurd ?_ (bound err)
      rw [binds_append]
      exact List.mem_append_right _ (List.mem_singleton.mpr rfl)

/-- `run` returned the failure of the bind of `port`, the first after those of `bound`. -/
structure FailedAt (ports : List UInt16) (bindAddr : IpAddr) (es : List Event)
    (r : Except ProxyError Unit) (bound : List UInt16) (port : UInt16) (err : ProxyError) : Prop where
  ports : ∃ rest, bound ++ port :: rest = ports
  binds : binds es = (bound.map fun _ => .ok ()) ++ [.error err]
  result : r = .error (err.maybeIntoBindError ⟨bindAddr, port⟩)

theorem FailedAt.not_allBound {r : Except ProxyError Unit} {bound : List UInt16} {port : UInt16}
    {err : ProxyError} (h : FailedAt ports bindAddr es r bound port err) : ¬ AllBound ports es := by
  intro all_bound
  have failed : Except.error err ∈ ports.map fun _ => (.ok () : Except ProxyError Unit) := by
    rw [← all_bound, h.binds]
    exact List.mem_append_right _ (List.mem_singleton.mpr rfl)
  obtain ⟨_, -, same⟩ := List.mem_map.mp failed
  cases same

/-- The only failed bind is the last one. -/
theorem FailedAt.at_end {r : Except ProxyError Unit} {bound : List UInt16} {port : UInt16}
    {err e : ProxyError} {k : Nat} (h : FailedAt ports bindAddr es r bound port err)
    (failed : (Server.binds es)[k]? = some (.error e)) :
    k = bound.length ∧ e = err ∧ (∀ j < k, (Server.binds es)[j]? = some (.ok ())) ∧
      ports[k]? = some port := by
  obtain ⟨rest, rfl⟩ := h.ports
  rw [h.binds] at failed ⊢
  by_cases inside : k < bound.length
  · rw [List.getElem?_append_left (by simpa using inside)] at failed
    simp [inside] at failed
  · have last : k = bound.length := by
      have := (List.getElem?_eq_some_iff.mp failed).1
      rw [List.length_append, List.length_map, List.length_singleton] at this
      omega
    subst last
    refine ⟨rfl, ?_, ?_, by simp⟩
    · simpa using failed.symm
    · intro j before
      rw [List.getElem?_append_left (by simpa using before)]
      simp [before]

/-- How `run` came to return: at a failed bind with no listener spawned, or past the binds
    with every listener joined. -/
theorem Explained.returned {r : Except ProxyError Unit} (h : Explained ports bindAddr es s)
    (returned : s.phase = .returned r) :
    (∃ bound port err, FailedAt ports bindAddr es r bound port err ∧ s.listeners = [] ∧ .spawn ∉ es) ∨
    (s.listeners.map Listener.port = ports ∧ AllBound ports es ∧
      s.listeners.all (·.joined) = true ∧ r = s.result) := by
  have progress := h.progress
  unfold Progress at progress
  rw [returned] at progress
  rcases progress with ⟨bound, port, rest, err, all_ports, failed, result, empty, unspawned⟩ | past
  · exact .inl ⟨bound, port, err, ⟨⟨rest, all_ports⟩, failed, result⟩, empty, unspawned⟩
  · exact .inr past

theorem no_failed_bind (all_bound : AllBound ports es) (err : ProxyError) :
    .error err ∉ binds es := by
  intro failed
  rw [all_bound] at failed
  obtain ⟨_, -, same⟩ := List.mem_map.mp failed
  cases same

/-- A failed bind has ended `run`. -/
theorem Explained.failedAt {e : ProxyError} (h : Explained ports bindAddr es s)
    (failed : .error e ∈ binds es) :
    ∃ r bound port err, s.phase = .returned r ∧ FailedAt ports bindAddr es r bound port err ∧
      s.listeners = [] ∧ .spawn ∉ es := by
  have progress := h.progress
  unfold Progress at progress
  cases at_phase : s.phase with
  | binding bound rest =>
    rw [at_phase] at progress
    exact absurd failed (no_failed_bind progress.2.2.1 e)
  | spawning rest =>
    rw [at_phase] at progress
    exact absurd failed (no_failed_bind progress.2.2 e)
  | joining =>
    rw [at_phase] at progress
    exact absurd failed (no_failed_bind progress.2 e)
  | returned r =>
    rcases h.returned at_phase with ⟨bound, port, err, failedAt, empty, unspawned⟩ | ⟨-, all_bound, -⟩
    · exact ⟨r, bound, port, err, rfl, failedAt, empty, unspawned⟩
    · exact absurd failed (no_failed_bind all_bound e)

/-- A listener hears of the cancellation only once the token is cancelled. -/
theorem token_of_heard {l : Nat} (hs : s.step (.listen l .cancelled) = some t) :
    s.cancelled = true := by
  cases step_effect hs with
  | listened _ _ only => exact only.heard rfl
  | task task => cases task

/-- An `IoError` is returned as a `BindError`, any other error as it is. -/
theorem maybeIntoBindError_cases (e : ProxyError) (addr : SocketAddr) :
    (∀ source, e = .ioError source → e.maybeIntoBindError addr = .bindError addr.toString source) ∧
      ((∀ source, e ≠ .ioError source) → e.maybeIntoBindError addr = e) := by
  constructor
  · rintro source rfl
    rfl
  · intro other
    cases e with
    | ioError source => exact absurd rfl (other source)
    | _ => rfl

end Server

open Server (Failed binds AllBound EndedByCancellation)

/-- The outcome of the server.  A failed bind is the first one in ascending port order,
    ends `run` with its error (an `IoError` as a `BindError`), and no listener is spawned.
    With all ports bound and a listener failed or the token cancelled, `run` gets to its
    return by itself.  Once it has returned `r`, that is `Ok` exactly if every bind
    succeeded and every listener ended by cancellation; if a listener failed, by a
    permanent accept error or a panic, it is the error of one that failed, and the token
    was cancelled before; and `Ok` with a port means a cancellation from outside. -/
theorem server_outcome {config : ProxyConfig} {C Q : Nat} {bindAddr : IpAddr}
    {es : List Server.Event} {s : Server}
    (run : Run (Fires Server.step) (.new config C Q bindAddr) es s) :
    (∀ (k : Nat) (e : ProxyError), (binds es)[k]? = some (.error e) →
      config.ports.Pairwise (· < ·) ∧ (∀ j < k, (binds es)[j]? = some (.ok ())) ∧
      (∃ port, config.ports[k]? = some port ∧
        (∀ source, e = .ioError source → s.phase =
          .returned (.error (.bindError (SocketAddr.mk bindAddr port).toString source))) ∧
        ((∀ source, e ≠ .ioError source) → s.phase = .returned (.error e))) ∧
      .spawn ∉ es ∧ s.listeners = []) ∧
    (AllBound config.ports es → (s.cancelled = true ∨ ∃ l e, Failed es l e) →
      ∃ more t, Run (Fires Server.step) s more t ∧ (∀ e ∈ more, e.isOwn = true) ∧
        ∃ r, t.phase = .returned r) ∧
    (∀ r, s.phase = .returned r →
      (r = .ok () ↔ AllBound config.ports es ∧
        ∀ l < config.ports.length, EndedByCancellation es l) ∧
      (AllBound config.ports es → ∀ (l : Nat) (e : ProxyError), Failed es l e →
        (∃ l' e', Failed es l' e' ∧ r = .error e') ∧
        ∃ pre post u, es = pre ++ post ∧
          Run (Fires Server.step) (.new config C Q bindAddr) pre u ∧
          (∀ r', u.phase ≠ .returned r') ∧ u.cancelled = true) ∧
      (r = .ok () → config.ports ≠ [] → .cancel ∈ es)) := by
  have h := Server.explained_of_run run
  refine ⟨?_, fun all_bound ending => Server.can_return h all_bound ending, ?_⟩
  · intro k e failed
    obtain ⟨r, bound, port, err, returned, failedAt, empty, unspawned⟩ :=
      h.failedAt (List.mem_of_getElem? failed)
    obtain ⟨-, rfl, before, at_port⟩ := failedAt.at_end failed
    obtain ⟨io, other⟩ := Server.maybeIntoBindError_cases e ⟨bindAddr, port⟩
    refine ⟨ProxyConfig.ports_ascending config, before, ⟨port, at_port, ?_, ?_⟩, unspawned, empty⟩
    · intro source is_io
      rw [returned, failedAt.result, io source is_io]
    · intro not_io
      rw [returned, failedAt.result, other not_io]
  · intro r returned
    rcases h.returned returned with ⟨bound, port, err, failedAt, -⟩ | ⟨all_ports, all_bound, settled, rfl⟩
    · have not_ok : r ≠ .ok () := by
        rw [failedAt.result]
        simp
      exact ⟨⟨fun fine => absurd fine not_ok, fun fine => absurd fine.1 failedAt.not_allBound⟩,
        fun fine => absurd fine failedAt.not_allBound, fun fine => absurd fine not_ok⟩
    · have ok_iff := h.result_ok_iff all_ports settled
      refine ⟨⟨fun fine => ⟨all_bound, ok_iff.mp fine⟩, fun fine => ok_iff.mpr fine.2⟩, ?_, ?_⟩
      · intro _ l e failed
        obtain ⟨l', e', failed', kept⟩ := h.result_of_failed settled failed
        have result : s.result = .error e' := by rw [Server.result, kept]
        refine ⟨⟨l', e', failed', result⟩, ?_⟩
        obtain ⟨pre, post, u, split, reach, joining, same⟩ :=
          Server.joined_before_return run (Server.toBind_ne_returned [] config.ports) returned
            (Server.no_failed_bind all_bound)
        refine ⟨pre, post, u, split, reach, by simp [joining], ?_⟩
        have at_u := Server.explained_of_run reach
        rw [result] at same
        cases first : u.firstError with
        | none => simp [Server.result, first] at same
        | some e'' => exact (at_u.recorded.first e'' first).1
      · intro fine some_port
        obtain ⟨by_cancel, -⟩ := ok_iff.mp fine 0 (List.length_pos_iff.mpr some_port)
        obtain ⟨pre, post, u, v, rfl, reach, heard, -⟩ := run.mem_step by_cancel
        have at_u := Server.explained_of_run reach
        rcases at_u.recorded.token (Server.token_of_heard heard) with
          outside | ⟨l, e, ev, present, fails⟩
        · exact List.mem_append_left _ outside
        · -- the token was cancelled for a failure, which `run` would have returned
          obtain ⟨-, e', -, kept⟩ :=
            h.result_of_failed settled ⟨ev, List.mem_append_left _ present, fails⟩
          rw [Server.result, kept] at fine
          cases fine

/-- `accept()` on the only port gives an error of another kind. -/
def acceptFails : List Server.Event :=
  listening ++
    [.listen 0 (.accept (.error (.ioError ⟨.other "AddrNotAvailable", "accept error"⟩))),
     .listen 0 .drained, .join 0, .ret]

theorem acceptFails_outcome :
    (reachedBy acceptFails).phase =
        .returned (.error (.ioError ⟨.other "AddrNotAvailable", "accept error"⟩)) ∧
      ∃ pre post u, acceptFails = pre ++ post ∧
        Run (Fires Server.step) (.new onePort 1 1 localhostAddr) pre u ∧
        (∀ r', u.phase ≠ .returned r') ∧ u.cancelled = true := by
  have run : Run (Fires Server.step) (.new onePort 1 1 localhostAddr) acceptFails
      (reachedBy acceptFails) := run_of_exec rfl
  have returned : (reachedBy acceptFails).phase =
      .returned (.error (.ioError ⟨.other "AddrNotAvailable", "accept error"⟩)) := rfl
  have failed : Failed acceptFails 0 (.ioError ⟨.other "AddrNotAvailable", "accept error"⟩) :=
    ⟨.listen 0 (.accept (.error (.ioError ⟨.other "AddrNotAvailable", "accept error"⟩))),
      by decide, rfl⟩
  obtain ⟨-, -, once_returned⟩ := server_outcome run
  exact ⟨returned, ((once_returned _ returned).2.1 rfl 0 _ failed).2⟩

end TcpProxy
