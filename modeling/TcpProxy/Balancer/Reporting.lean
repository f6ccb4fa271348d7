import TcpProxy.Balancer.Attempt
import TcpProxy.Balancer.Passes

/-! # One attempt, one report

What `connect` does with every answer of the resolver and every sequence of outcomes of
the connector, and how the reports of a `connect_backend` call follow from its attempts. -/

namespace TcpProxy.RoundRobin

open Effects Effects.Program

variable {Stream : Type}

/-! ## Reading a trace of the balancer -/

/-- The addresses tried, with the outcomes. -/
def tries : List (Balancer Stream).Event → List (SocketAddr × TimedConnect Stream)
  | [] => []
  | ⟨.connectAddr addr, outcome⟩ :: tr => (addr, outcome) :: tries tr
  | _ :: tr => tries tr

def reports : List (Balancer Stream).Event → List (String × ConnectResult)
  | [] => []
  | ⟨.reportConnectionAttempt target result, _⟩ :: tr => (target, result) :: reports tr
  | _ :: tr => reports tr

theorem tries_append (tr₁ tr₂ : List (Balancer Stream).Event) :
    tries (tr₁ ++ tr₂) = tries tr₁ ++ tries tr₂ := by
  induction tr₁ with
  | nil => rfl
  | cons e tr₁ ih =>
    obtain ⟨op, a⟩ := e
    cases op <;> simp [tries, ih]

theorem reports_append (tr₁ tr₂ : List (Balancer Stream).Event) :
    reports (tr₁ ++ tr₂) = reports tr₁ ++ reports tr₂ := by
  induction tr₁ with
  | nil => rfl
  | cons e tr₁ ih =>
    obtain ⟨op, a⟩ := e
    cases op <;> simp [reports, ih]

/-- The report that an attempt owes. -/
def reportOf : Attempted Stream → Option (String × ConnectResult)
  | (target, .ready _) => some (target, .success)
  | (target, .tryNext) => some (target, .failure)
  | (_, .fatal _) => none

/-! ## One attempt -/

/-- The resolver gives `answer`, and the connector `conn k` on the `k`-th address tried. -/
structure AnsweredBy (answer : Except ProxyError (List SocketAddr)) (conn : Nat → TimedConnect Stream)
    (tr : List (Balancer Stream).Event) : Prop where
  lookup : ∀ target a, (⟨.lookupHost target, a⟩ : (Balancer Stream).Event) ∈ tr → a = answer
  connects : ∀ (k : Nat) x, (tries tr)[k]? = some x → x.2 = conn k

def Connects (outcome : TimedConnect Stream) : Prop := ∃ stream, outcome = .ok (.ok stream)

/-- What an attempt on `target` does, by the answers it gets. -/
structure AttemptReport (target : String) (answer : Except ProxyError (List SocketAddr))
    (conn : Nat → TimedConnect Stream) (tr : List (Balancer Stream).Event)
    (out : ConnectAttempt (Stream × SocketAddr)) : Prop where
  /-- the addresses are tried in order, up to the first that connects -/
  in_order : ∀ addrs, answer = .ok addrs → ∃ n ≤ addrs.length, (tries tr).map (·.1) = addrs.take n ∧
    (∀ k, k + 1 < n → ¬ Connects (conn k)) ∧ (n < addrs.length → ∃ k, n = k + 1 ∧ Connects (conn k))
  untried : ∀ e, answer = .error e → tries tr = []
  ready : ∀ stream addr, out = .ready (stream, addr) ↔ ∃ addrs k, answer = .ok addrs ∧
    addrs[k]? = some addr ∧ conn k = .ok (.ok stream) ∧ ∀ j < k, ¬ Connects (conn j)
  tryNext : out = .tryNext ↔ (∃ e, answer = .error e ∧ TransientLookup e) ∨
    ∃ addrs, answer = .ok addrs ∧ ∀ k < addrs.length, ¬ Connects (conn k)
  fatal : ∀ e, out = .fatal e ↔ answer = .error e ∧ ¬ TransientLookup e
  reported : reports tr = (reportOf (target, out)).toList

theorem Refused.tries {addrs : List SocketAddr} {tr : List (Balancer Stream).Event}
    (refused : Refused addrs tr) :
    (tries tr).map (·.1) = addrs ∧ (∀ x ∈ tries tr, ¬ Connects x.2) ∧ reports tr = [] := by
  induction addrs generalizing tr with
  | nil =>
    cases tr with
    | nil => exact ⟨rfl, by simp [RoundRobin.tries], rfl⟩
    | cons e tr => cases refused
  | cons addr addrs ih =>
    cases tr with
    | nil => cases refused
    | cons e tr =>
      obtain ⟨op, ans⟩ := e
      cases op with
      | connectAddr a =>
        obtain ⟨rfl, fails, later⟩ := refused
        obtain ⟨same, all_fail, unreported⟩ := ih later
        refine ⟨by simp [RoundRobin.tries, same], ?_, unreported⟩
        intro x member
        cases List.mem_cons.mp member with
        | inl first =>
          rw [first]
          rintro ⟨stream, connects⟩
          exact fails stream connects
        | inr later => exact all_fail x later
      | fetchAdd | getTargetStatus | now | lookupHost | reportConnectionAttempt => cases refused

/-- The addresses that were refused are those before the next one to try. -/
theorem refused_outcomes {addrs : List SocketAddr} {failed tr : List (Balancer Stream).Event}
    {conn : Nat → TimedConnect Stream} {answer : Except ProxyError (List SocketAddr)}
    (rest : List (Balancer Stream).Event) (refused : Refused addrs failed) (env : AnsweredBy answer conn tr)
    (split : tries tr = tries failed ++ tries rest) : ∀ k < addrs.length, ¬ Connects (conn k) := by
  obtain ⟨same, all_fail, -⟩ := refused.tries
  intro k inside
  have inside : k < (tries failed).length := by
    rw [← same, List.length_map] at inside
    exact inside
  have here : (tries tr)[k]? = some (tries failed)[k] := by
    rw [split, List.getElem?_append_left inside, List.getElem?_eq_getElem inside]
  rw [← env.connects k _ here]
  exact all_fail _ (List.getElem_mem inside)

section Exits

variable {target : String} {answer : Except ProxyError (List SocketAddr)}
  {conn : Nat → TimedConnect Stream} {tr : List (Balancer Stream).Event}

/-- An address connects after those before it were refused. -/
theorem report_of_connected {before after : List SocketAddr} {addr : SocketAddr} {stream : Stream}
    (answered : answer = .ok (before ++ addr :: after))
    (fails : ∀ k < before.length, ¬ Connects (conn k)) (connects : conn before.length = .ok (.ok stream))
    (tried : (tries tr).map (·.1) = before ++ [addr]) (reported : reports tr = [(target, .success)]) :
    AttemptReport target answer conn tr (.ready (stream, addr)) where
  in_order addrs same := by
    rw [answered] at same
    cases same
    refine ⟨before.length + 1, by simp, ?_, ?_, ?_⟩
    · rw [tried, List.take_length_add_append]
      rfl
    · intro k early
      exact fails k (by omega)
    · intro _
      exact ⟨before.length, rfl, stream, connects⟩
  untried e same := by
    rw [answered] at same
    cases same
  ready stream' addr' := by
    constructor
    · intro same
      cases same
      exact ⟨_, before.length, answered, by simp, connects, fails⟩
    · rintro ⟨addrs, k, same, at_k, hit, first⟩
      rw [answered] at same
      cases same
      -- both are the first position that connects
      have here : k = before.length := by
        apply Nat.le_antisymm
        · by_contra late
          exact first before.length (Nat.lt_of_not_le late) ⟨stream, connects⟩
        · by_contra early
          exact fails k (Nat.lt_of_not_le early) ⟨stream', hit⟩
      rw [here] at at_k hit
      rw [connects] at hit
      cases hit
      rw [List.getElem?_append_right (Nat.le_refl _), Nat.sub_self] at at_k
      cases at_k
      rfl
  tryNext := by
    constructor
    · intro same
      cases same
    · rintro (⟨e, same, -⟩ | ⟨addrs, same, all_fail⟩)
      · rw [answered] at same
        cases same
      · rw [answered] at same
        cases same
        exact absurd ⟨stream, connects⟩ (all_fail before.length (by simp))
  fatal e := by
    constructor
    · intro same
      cases same
    · rintro ⟨same, -⟩
      rw [answered] at same
      cases same
  reported := reported

/-- No address connects. -/
theorem report_of_refused {addrs : List SocketAddr} (answered : answer = .ok addrs)
    (fails : ∀ k < addrs.length, ¬ Connects (conn k)) (tried : (tries tr).map (·.1) = addrs)
    (reported : reports tr = [(target, .failure)]) :
    AttemptReport target answer conn tr .tryNext where
  in_order addrs' same := by
    rw [answered] at same
    cases same
    refine ⟨addrs.length, Nat.le_refl _, ?_, ?_, fun short => absurd short (Nat.lt_irrefl _)⟩
    · rw [tried, List.take_length]
    · intro k early
      exact fails k (by omega)
  untried e same := by
    rw [answered] at same
    cases same
  ready stream addr := by
    constructor
    · intro same
      cases same
    · rintro ⟨addrs', k, same, at_k, hit, -⟩
      rw [answered] at same
      cases same
      exact absurd ⟨stream, hit⟩ (fails k (List.getElem?_eq_some_iff.mp at_k).1)
  tryNext := ⟨fun _ => .inr ⟨addrs, answered, fails⟩, fun _ => rfl⟩
  fatal e := by
    constructor
    · intro same
      cases same
    · rintro ⟨same, -⟩
      rw [answered] at same
      cases same
  reported := reported

/-- The lookup fails, for the moment or for good. -/
theorem report_of_unresolved {e : ProxyError} {out : ConnectAttempt (Stream × SocketAddr)}
    (answered : answer = .error e) (tried : tries tr = [])
    (ends : TransientLookup e ∧ out = .tryNext ∨ ¬ TransientLookup e ∧ out = .fatal e)
    (reported : reports tr = (reportOf (target, out)).toList) :
    AttemptReport target answer conn tr out where
  in_order addrs same := by
    rw [answered] at same
    cases same
  untried _ _ := tried
  ready stream addr := by
    constructor
    · intro same
      rw [same] at ends
      rcases ends with ⟨-, other⟩ | ⟨-, other⟩
      · cases other
      · cases other
    · rintro ⟨addrs, k, same, -⟩
      rw [answered] at same
      cases same
  tryNext := by
    constructor
    · intro same
      rw [same] at ends
      rcases ends with ⟨passing, -⟩ | ⟨-, other⟩
      · exact .inl ⟨e, answered, passing⟩
      · cases other
    · rintro (⟨e', same, passing⟩ | ⟨addrs, same, -⟩)
      · rw [answered] at same
        cases same
        rcases ends with ⟨-, next⟩ | ⟨lasting, -⟩
        · exact next
        · exact absurd passing lasting
      · rw [answered] at same
        cases same
  fatal e' := by
    constructor
    · intro same
      rw [same] at ends
      rcases ends with ⟨-, other⟩ | ⟨lasting, fatal⟩
      · cases other
      · cases fatal
        exact ⟨answered, lasting⟩
    · rintro ⟨same, lasting⟩
      rw [answered] at same
      cases same
      rcases ends with ⟨passing, -⟩ | ⟨-, fatal⟩
      · exact absurd passing lasting
      · exact fatal
  reported := reported

theorem attempt_reports {forPort : UInt16} {out : ConnectAttempt (Stream × SocketAddr)}
    (run : Exec (connect target forPort) tr out) (env : AnsweredBy answer conn tr) :
    AttemptReport target answer conn tr out := by
  rcases connect_exec run with ⟨before, addr, after, stream, a, failed, refused, rfl, rfl⟩ |
    ⟨addrs, a, failed, refused, rfl, rfl⟩ | ⟨e, a, passing, rfl, rfl⟩ | ⟨e, lasting, rfl, rfl⟩
  -- An address connects: `failed` holds the ones before it.
  · obtain ⟨same, -, unreported⟩ := refused.tries
    have tried : tries (⟨.lookupHost target, .ok (before ++ addr :: after)⟩ :: failed ++
        [⟨.connectAddr addr, .ok (.ok stream)⟩, ⟨.reportConnectionAttempt target .success, a⟩]) =
        tries failed ++ [(addr, .ok (.ok stream))] := by
      rw [List.cons_append]
      exact tries_append _ _
    have fails := refused_outcomes [⟨.connectAddr addr, .ok (.ok stream)⟩] refused env tried
    refine report_of_connected (env.lookup target _ List.mem_cons_self).symm fails ?_ ?_ ?_
    · have last := env.connects before.length (addr, .ok (.ok stream)) (by
        rw [tried, ← same, List.length_map]
        simp)
      exact last.symm
    · rw [tried, List.map_append, same]
      rfl
    · show reports (failed ++ _) = _
      rw [reports_append, unreported]
      rfl
  -- The whole list, which may be empty, is refused.
  · obtain ⟨same, -, unreported⟩ := refused.tries
    have tried : tries (⟨.lookupHost target, .ok addrs⟩ :: failed ++
        [⟨.reportConnectionAttempt target .failure, a⟩]) = tries failed := by
      rw [List.cons_append]
      show tries (failed ++ _) = _
      rw [tries_append]
      exact List.append_nil _
    have fails := refused_outcomes [] refused env (by rw [tried]; simp [tries])
    refine report_of_refused (env.lookup target _ List.mem_cons_self).symm fails ?_ ?_
    · rw [tried, same]
    · show reports (failed ++ _) = _
      rw [reports_append, unreported]
      rfl
  · exact report_of_unresolved (env.lookup target _ List.mem_cons_self).symm rfl (.inl ⟨passing, rfl⟩) rfl
  · exact report_of_unresolved (env.lookup target _ List.mem_cons_self).symm rfl (.inr ⟨lasting, rfl⟩) rfl

end Exits

/-- Whatever the connector answers, the address loop comes to its end. -/
theorem connectAddrs_returns (target : String) (addrs : List SocketAddr) (conn : Nat → TimedConnect Stream) :
    ∃ tr out, Exec (connectAddrs target addrs) tr out ∧
      (∀ (k : Nat) x, (tries tr)[k]? = some x → x.2 = conn k) ∧
      ∀ x a, (⟨.lookupHost x, a⟩ : (Balancer Stream).Event) ∉ tr := by
  induction addrs generalizing conn with
  | nil =>
    exact ⟨[⟨.reportConnectionAttempt target .failure, .ok ()⟩], .tryNext, .cons (.nil _),
      by simp [tries], by simp⟩
  | cons addr addrs ih =>
    obtain ⟨tr, out, run, connects, no_lookup⟩ := ih fun k => conn (k + 1)
    -- the outcome of this address, in front of those of the others
    have continues : (∀ stream, conn 0 ≠ .ok (.ok stream)) →
        Exec (connectAddrs target (addr :: addrs)) (⟨.connectAddr addr, conn 0⟩ :: tr) out := by
      intro fails
      apply exec_ask.mpr
      refine ⟨_, tr, rfl, ?_⟩
      cases here : conn 0 with
      | error e => exact run
      | ok answered =>
        cases answered with
        | error e => exact run
        | ok stream => exact absurd here (fails stream)
    have shifted : ∀ (k : Nat) x,
        (tries (⟨.connectAddr addr, conn 0⟩ :: tr : List (Balancer Stream).Event))[k]? = some x →
          x.2 = conn k := by
      intro k x at_k
      cases k with
      | zero => cases at_k; rfl
      | succ k => exact connects k x at_k
    by_cases hit : Connects (conn 0)
    · obtain ⟨stream, hit⟩ := hit
      refine ⟨[⟨.connectAddr addr, .ok (.ok stream)⟩, ⟨.reportConnectionAttempt target .success, .ok ()⟩],
        .ready (stream, addr), .cons (.cons (.nil _)), ?_, by simp⟩
      intro k x at_k
      cases k with
      | zero => cases at_k; exact hit.symm
      | succ k => cases at_k
    · refine ⟨_, out, continues fun stream here => hit ⟨stream, here⟩, shifted, ?_⟩
      intro x a present
      cases List.mem_cons.mp present with
      | inl first => cases first
      | inr later => exact no_lookup x a later

theorem connect_returns (target : String) (forPort : UInt16)
    (answer : Except ProxyError (List SocketAddr)) (conn : Nat → TimedConnect Stream) :
    ∃ tr out, Exec (connect target forPort) tr out ∧ AnsweredBy answer conn tr := by
  have looked : ∀ {tr : List (Balancer Stream).Event}, (∀ x a, ⟨.lookupHost x, a⟩ ∉ tr) →
      ∀ x a, (⟨.lookupHost x, a⟩ : (Balancer Stream).Event) ∈ ⟨.lookupHost target, answer⟩ :: tr →
        a = answer := by
    intro tr no_lookup x a present
    cases List.mem_cons.mp present with
    | inl first => cases first; rfl
    | inr later => exact absurd later (no_lookup x a)
  cases answer with
  | ok addrs =>
    obtain ⟨tr, out, run, connects, no_lookup⟩ := connectAddrs_returns target addrs conn
    exact ⟨⟨.lookupHost target, .ok addrs⟩ :: tr, out, .cons run, looked no_lookup, connects⟩
  | error e =>
    have reporting : ∀ x a, (⟨.lookupHost x, a⟩ : (Balancer Stream).Event) ∉
        [⟨.reportConnectionAttempt target .failure, .ok ()⟩] := by simp
    cases e with
    | dnsNxError message =>
      exact ⟨[⟨.lookupHost target, .error (.dnsNxError message)⟩,
        ⟨.reportConnectionAttempt target .failure, .ok ()⟩], .tryNext, .cons (.cons (.nil _)),
        looked reporting, by simp [tries]⟩
    | dnsTransientError message =>
      exact ⟨[⟨.lookupHost target, .error (.dnsTransientError message)⟩,
        ⟨.reportConnectionAttempt target .failure, .ok ()⟩], .tryNext, .cons (.cons (.nil _)),
        looked reporting, by simp [tries]⟩
    | _ => exact ⟨[_], _, .cons (.nil _), looked (by simp), by simp [tries]⟩

/-! ## A whole call -/

theorem reports_of_network {tr : List (Balancer Stream).Event} (network : ∀ e ∈ tr, e.op.Network) :
    reports tr = [] := by
  induction tr with
  | nil => rfl
  | cons e tr ih =>
    have here := network e List.mem_cons_self
    have later := ih fun x member => network x (List.mem_cons_of_mem _ member)
    obtain ⟨op, a⟩ := e
    cases op with
    | lookupHost | connectAddr => exact later
    | fetchAdd | getTargetStatus | now | reportConnectionAttempt => cases here

theorem reports_of_attempt {target : String} {forPort : UInt16} {tr : List (Balancer Stream).Event}
    {out : ConnectAttempt (Stream × SocketAddr)} (run : Exec (connect target forPort) tr out) :
    reports tr = (reportOf (target, out)).toList := by
  rcases connect_report run with ⟨fatal, e, rfl⟩ | ⟨front, result, a, network, rfl, outcome⟩
  · cases out with
    | fatal e => rfl
    | ready | tryNext => cases fatal
  · rw [reports_append, reports_of_network network]
    cases result with
    | success =>
      cases out with
      | ready s => rfl
      | tryNext | fatal => cases outcome
    | failure =>
      cases out with
      | tryNext => rfl
      | ready | fatal => cases outcome

/-- The reports of a call are those its attempts owe, in the order of the attempts. -/
theorem reports_of_unfolds {T : List (Select Stream).Event} {tr : List (Balancer Stream).Event}
    (un : Unfolds link T tr) : reports tr = (attempts T).filterMap reportOf := by
  induction un with
  | nil => rfl
  | @cons e T sub tr run un ih =>
    rw [reports_append, ih]
    obtain ⟨op, a⟩ := e
    cases op with
    | connect target forPort =>
      have attempt : Exec (connect target forPort) sub a := run
      rw [reports_of_attempt attempt, attempts, List.filterMap_cons]
      cases reportOf (target, a) <;> rfl
    | fetchAdd | getTargetStatus | now =>
      obtain rfl := exec_perform.mp run
      rfl

/-- All attempts but the last are `TryNext`, and only a last one that is ready returns a stream. -/
theorem attempts_end {config : ProxyConfig} {forPort : UInt16} {T : List (Select Stream).Event}
    {r : Connected Stream} (run : Exec (connectBackend config forPort) T r) :
    Stopped (attempts T) r ∨ (AllTryNext (attempts T) ∧ ∃ e, r = .error e) := by
  have none_made : AllTryNext ([] : List (Attempted Stream)) := by simp [AllTryNext]
  cases hpool : config.getPool forPort with
  | none =>
    simp only [connectBackend, hpool] at run
    obtain ⟨rfl, rfl⟩ := exec_ret.mp run
    exact .inr ⟨none_made, _, rfl⟩
  | some pool =>
    by_cases nonempty : 0 < pool.length
    · obtain ⟨drawn, tail, rfl, cont⟩ := connectBackend_exec hpool nonempty run
      cases drawn with
      | none =>
        obtain ⟨rfl, rfl⟩ := cont
        exact .inr ⟨none_made, _, rfl⟩
      | some counter =>
        show Stopped (attempts tail) r ∨ AllTryNext (attempts tail) ∧ _
        obtain ⟨first, second, rfl, -, -, -, ends⟩ := firstPass_exec cont
        exact ends.stopped_or_failed
    · simp only [connectBackend, hpool, dif_neg nonempty] at run
      obtain ⟨rfl, rfl⟩ := exec_ret.mp run
      exact .inr ⟨none_made, _, rfl⟩

theorem AllTryNext.reported {att : List (Attempted Stream)} (skipped : AllTryNext att) :
    ∀ x ∈ att.filterMap reportOf, x.2 = .failure := by
  intro x member
  obtain ⟨⟨target, out⟩, attempted, owed⟩ := List.mem_filterMap.mp member
  have next : out = .tryNext := skipped _ attempted
  rw [next] at owed
  cases owed
  rfl

/-- Behind reports of failures only, a report of a success is the last one. -/
theorem success_is_last {failures before after : List (String × ConnectResult)} {last target : String}
    (all_fail : ∀ x ∈ failures, x.2 = .failure)
    (split : failures ++ [(last, .success)] = before ++ (target, .success) :: after) :
    after = [] ∧ before = failures ∧ target = last := by
  rcases List.eq_nil_or_concat after with rfl | ⟨front, y, rfl⟩
  · obtain ⟨same, ends⟩ := List.append_inj' split rfl
    cases ends
    exact ⟨rfl, same.symm, rfl⟩
  · rw [List.concat_eq_append, ← List.cons_append, ← List.append_assoc] at split
    have early := (List.append_inj' split rfl).1
    have fails := all_fail (target, .success) (by simp [early])
    cases fails

theorem length_reports (att : List (Attempted Stream)) :
    (att.filterMap reportOf).length = (att.filter (·.2.isFatal = false)).length := by
  rw [List.length_filterMap_eq_countP, ← List.countP_eq_length_filter]
  apply List.countP_congr
  rintro ⟨target, out⟩ -
  cases out <;> simp [reportOf, ConnectAttempt.isFatal]

/-- One attempt is one report, whatever the resolver answers and the connector does: of a
    success when an address connects, of a failure when none does or the lookup failed for
    the moment, and none when it failed for good.  So a call makes as many reports as it
    makes attempts that are not fatal, and a report of a success is its last one and goes
    with the stream it returns. -/
theorem one_attempt_one_report (config : ProxyConfig) (forPort : UInt16) :
    (∀ (target : String) (answer : Except ProxyError (List SocketAddr)) (conn : Nat → TimedConnect Stream),
      (∃ tr out, Exec (connect target forPort) tr out ∧ AnsweredBy answer conn tr) ∧
      ∀ tr out, Exec (connect target forPort) tr out → AnsweredBy answer conn tr →
        AttemptReport target answer conn tr out) ∧
    ∀ (tr : List (Balancer Stream).Event) (r : Connected Stream),
      Exec (linkedConnectBackend config forPort) tr r →
      ∃ T, Exec (connectBackend config forPort) T r ∧ Unfolds link T tr ∧
        reports tr = (attempts T).filterMap reportOf ∧
        (reports tr).length = ((attempts T).filter (·.2.isFatal = false)).length ∧
        (∀ target before after, reports tr = before ++ (target, .success) :: after →
          after = [] ∧ (∀ x ∈ before, x.2 = .failure) ∧
          ∃ s, r = .ok s ∧ (attempts T).getLast? = some (target, .ready s)) ∧
        ∀ s, r = .ok s → ∃ target, (reports tr).getLast? = some (target, .success) := by
  refine ⟨fun target answer conn => ⟨connect_returns target forPort answer conn,
    fun tr out run env => attempt_reports run env⟩, fun tr r run => ?_⟩
  obtain ⟨T, whole, un⟩ := exec_interp.mp run
  have same := reports_of_unfolds un
  refine ⟨T, whole, un, same, by rw [same, length_reports], ?_⟩
  rw [same]
  -- Where all reports are of failures, none is of a success, and nothing was connected.
  have failing : ∀ {e : ProxyError}, (∀ x ∈ (attempts T).filterMap reportOf, x.2 = .failure) →
      r = .error e → (∀ target before after,
        (attempts T).filterMap reportOf = before ++ (target, .success) :: after →
          after = [] ∧ (∀ x ∈ before, x.2 = .failure) ∧
          ∃ s, r = .ok s ∧ (attempts T).getLast? = some (target, .ready s)) ∧
        ∀ s, r = .ok s → ∃ target, ((attempts T).filterMap reportOf).getLast? = some (target, .success) := by
    intro e all_fail failed
    constructor
    · intro target before after split
      have fails := all_fail (target, .success) (by simp [split])
      cases fails
    · intro s connected
      rw [failed] at connected
      cases connected
  cases attempts_end whole with
  | inl stopped =>
    obtain ⟨skipped, last, all_next, ⟨s, made, rfl⟩ | ⟨e, made, failed⟩⟩ := stopped
    · rw [made, List.filterMap_append]
      constructor
      · intro target before after split
        obtain ⟨nothing, rfl, rfl⟩ := success_is_last all_next.reported split
        exact ⟨nothing, all_next.reported, s, rfl, by simp⟩
      · intro s' _
        exact ⟨last, by simp [reportOf]⟩
    · apply failing _ failed
      rw [made, List.filterMap_append]
      intro x member
      cases List.mem_append.mp member with
      | inl early => exact all_next.reported x early
      | inr late => cases late
  | inr exhausted =>
    obtain ⟨all_next, e, failed⟩ := exhausted
    exact failing all_next.reported failed

end TcpProxy.RoundRobin
