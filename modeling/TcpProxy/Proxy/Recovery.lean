import TcpProxy.Proxy.Availability

/-! # A backend comes back

Once a target is up again, its cooldowns come to an end: the connections that saw it down
end one after the other, none that comes later reports a failure on it, and the last
cooldown runs out. -/

namespace TcpProxy

open Effects Effects.Program Lts SimpleCooldownHandler

variable {w : Nat} {Stream : Type}

/-- No attempt on it fails. -/
theorem Reachable.not_failed {target : String} {addr : SocketAddr} {tr before : List (Stack Stream).Event}
    (up : Reachable target addr tr) (inside : before ⊆ tr) :
    ¬ AttemptFailed target (before.filterMap stackNetwork?) := by
  have looked (a : Except ProxyError (List SocketAddr))
      (h : ⟨.lookupHost target, a⟩ ∈ before.filterMap stackNetwork?) : ∃ addrs, a = .ok addrs ∧ addr ∈ addrs :=
    up.looked a (inside (lookup_of_network h))
  have dialed (out : TimedConnect Stream) (h : ⟨.connectAddr addr, out⟩ ∈ before.filterMap stackNetwork?) :
      RoundRobin.Connects out := up.connects out (inside (connect_of_network h))
  generalize before.filterMap stackNetwork? = network at looked dialed
  intro failed
  cases failed with
  | @unresolved done e _ =>
    obtain ⟨addrs, same, -⟩ := looked (.error e) (by simp)
    cases same
  | @refused done tried addrs refused =>
    obtain ⟨addrs', same, given⟩ := looked (.ok addrs) (by simp)
    cases same
    obtain ⟨out, fails, present⟩ := refused.mem given
    exact fails (dialed out (by simp [present]))

namespace Proxy

variable {config : ProxyConfig} {targets : TargetState} {C Q copyBufSize : Nat} {bindAddr : IpAddr}
  {clock : Instant} {es : List (Event Stream)} {x y : Proxy w Stream} {e : Event Stream} {target : String}
  {addr : SocketAddr} {i : Nat}

/-- A connection that has only seen the target up does not put it on cooldown. -/
theorem store_while_up (run : Run (Step config copyBufSize) (new config targets C Q bindAddr clock) es x)
    (up : Reachable target addr (asked i es)) {status : BackendStatus} {a : Except ProxyError Unit}
    (step : Step config copyBufSize x (.act i ⟨.inl (.store target status), a⟩) y) : status = .alive none := by
  obtain ⟨c, d, calls, moved, -⟩ := calls_step run step
  have earned : Earned target (asked i es) status := store_earned calls (connectCalls es) moved
  generalize seen : asked i es = tr at earned up
  cases earned with
  | cleared => rfl
  | cooldown failed => exact absurd failed (up.not_failed (List.subset_append_left _ _))

/-- The connections that have been accepted stay in the list. -/
theorem accepted_step (waits : x.server.admission.Waits) (step : Step config copyBufSize x e y)
    (present : ∃ p, x.phase? i = some p) : ∃ p, y.phase? i = some p := by
  obtain ⟨p, here⟩ := present
  rcases phase_step waits step i with ⟨same, -⟩ | ⟨f, q, p', -, after, -⟩ | ⟨-, served⟩ | absent
  · exact ⟨p, same.trans here⟩
  · exact ⟨p', after⟩
  · exact ⟨_, served⟩
  · rw [here] at absent
    cases absent

/-- At every moment a cooldown ends within the time it takes. -/
theorem cooldown_le {raw : RawConfig} (fresh : TargetState.tryFrom raw = .ok targets)
    (run : Run (Step config copyBufSize) (new config targets C Q bindAddr clock) es x) {u : Instant}
    (stored : x.bodies.store.targets.targetStatus target = some (.alive (some u))) :
    u ≤ x.bodies.store.clock + COOLDOWN := by
  rcases stored_earned run stored with initial | ⟨j, tr, old, earned⟩
  · rw [TargetState.tryFrom_status fresh target] at initial
    split at initial
    next => cases initial
    next => cases initial
  · cases earned with
    | @cooldown before loaded now reading failed =>
      have reads : ⟨.now, reading⟩ ∈ asked j es := old.subset (by simp)
      exact Nat.add_le_add_right (reading_le run reads) COOLDOWN

section Fair

variable {b : Behaviour (@Step w Stream config copyBufSize)}
  (start : b.state 0 = new config targets C Q bindAddr clock)
include start

/-- The connections accepted by some time have all ended at another. -/
theorem accepted_end (room : 0 < C) (fair : ∀ i, b.WeaklyFair fun e => e.mover? = some i) (n : Nat) :
    ∃ m, n ≤ m ∧ ∀ i, (∃ p, (b.state n).phase? i = some p) → ∃ r, (b.state m).phase? i = some (.finished r) := by
  have always := orderly_always start
  have ends : b.LeadsTo (fun x => x = b.state n) fun x => ∀ i, (∃ p, (b.state n).phase? i = some p) →
      ∃ r, x.phase? i = some (.finished r) := by
    refine .all always (fun i s e t ok ended step known => ?_) (fun i => ?_) ?_
    · obtain ⟨r, past⟩ := ended known
      exact ⟨r, finished_step ok.synced past step⟩
    · by_cases known : ∃ p, (b.state n).phase? i = some p
      · exact (task_ends always fair room i).mono (fun x same => same ▸ known) fun x ended _ => ended
      · exact .of_always always fun x _ _ there => absurd there known
    · rintro x rfl
      refine ⟨(b.state n).server.admission.connections.length, fun i outside ⟨p, here⟩ => ?_⟩
      rw [phase?, Admission.phase?, List.getElem?_eq_none outside] at here
      cases here
  exact ends n rfl

/-- A connection that acts after they have ended had not acted before that time. -/
theorem acts_since {n m k : Nat}
    (ended : ∀ i, (∃ p, (b.state n).phase? i = some p) → ∃ r, (b.state m).phase? i = some (.finished r))
    (late : m ≤ k) {e f : (Forward Stream).Event} (acts : b.label k = some (.act i e)) {j : Nat}
    (acted : b.label j = some (.act i f)) : n ≤ j := by
  have always := orderly_always start
  by_contra early
  have known := Behaviour.stays (P := fun x => ∃ p, x.phase? i = some p) always
    (fun _ _ _ ok there moved => accepted_step ok.synced.accounted.waiting moved there)
    ⟨_, (asks_of_act (b.moves j _ acted)).2⟩ (Nat.le_of_not_le early)
  obtain ⟨r, past⟩ := ended i known
  have still := Behaviour.stays (P := fun x => x.phase? i = some (.finished r)) always
    (fun _ _ _ ok past moved => finished_step ok.synced past moved) past late
  have connecting := (asks_of_act (b.moves k _ acts)).2
  rw [still] at connecting
  cases connecting

end Fair

end Proxy

end TcpProxy
