import TcpProxy.Balancer.Consistency
import TcpProxy.Balancer.Reporting

/-! # Why a call fails

With every counter and status in place `connect_backend` fails in three ways only: its pool
is empty, a lookup failed for good, or there is no target left, and then each one of the pool
was found drained or was tried in vain by this very call. -/

namespace TcpProxy

open Effects Effects.Program Cyclic RoundRobin

variable {Stream : Type} {config : ProxyConfig} {pool : List String} {port : UInt16} {target : String}

/-- The lookup of the target failed for the moment, or none of the addresses it gave connects. -/
def InVain (target : String) (tr : List (Stack Stream).Event) : Prop :=
  (∃ e, TransientLookup e ∧ ⟨.lookupHost target, .error e⟩ ∈ tr) ∨
    ∃ addrs, ⟨.lookupHost target, .ok addrs⟩ ∈ tr ∧
      ∀ addr ∈ addrs, ∃ out, ¬ Connects out ∧ ⟨.connectAddr addr, out⟩ ∈ tr

theorem InVain.later {tr tr' : List (Stack Stream).Event} (h : InVain target tr) (longer : tr ⊆ tr') :
    InVain target tr' := by
  rcases h with ⟨e, transient, looked⟩ | ⟨addrs, looked, refused⟩
  · exact .inl ⟨e, transient, longer looked⟩
  · refine .inr ⟨addrs, longer looked, fun addr given => ?_⟩
    obtain ⟨out, fails, dialed⟩ := refused addr given
    exact ⟨out, fails, longer dialed⟩

/-- What makes a call pass over a target for good. -/
def PassedOver (target : String) (tr : List (Stack Stream).Event) : Prop :=
  ⟨.load target, .ok .drain⟩ ∈ tr ∨ InVain target tr

/-- The errors of a call, with what the call has seen by then. -/
inductive FailsBy (pool : List String) (port : UInt16) (tr : List (Stack Stream).Event) :
    ProxyError → Prop
  | empty : pool = [] → FailsBy pool port tr (emptyPoolError port)
  | unresolved {target : String} {e : ProxyError} : target ∈ pool →
      ⟨.lookupHost target, .error e⟩ ∈ tr → ¬ TransientLookup e → FailsBy pool port tr e
  | exhausted : pool ≠ [] → (∀ target ∈ pool, PassedOver target tr) →
      FailsBy pool port tr (exhaustedError port)

namespace RoundRobin

theorem mem_of_drained {tr : List (Select Stream).Event} (h : (target, .drained) ∈ observations tr) :
    ⟨.getTargetStatus target, .ok .drain⟩ ∈ tr := by
  induction tr using observations.induct with
  | case1 => cases h
  | case2 t e tr ih | case4 t tr ih =>
    exact List.mem_cons_of_mem _ (ih (by simpa [observations] using h))
  | case3 t tr ih =>
    simp only [observations, List.mem_cons, Prod.mk.injEq, and_true] at h
    rcases h with rfl | h
    · exact List.mem_cons_self
    · exact List.mem_cons_of_mem _ (ih h)
  | case5 t time reading tr ih =>
    simp only [observations, List.mem_cons, Prod.mk.injEq] at h
    rcases h with ⟨-, seen⟩ | h
    · split at seen <;> cases seen
    · exact List.mem_cons_of_mem _ (List.mem_cons_of_mem _ (ih h))
  | case6 e' tr _ _ _ _ ih =>
    exact List.mem_cons_of_mem _ (ih (by simpa [observations] using h))

theorem Refused.mem {addrs : List SocketAddr} {tr : List (Balancer Stream).Event} (h : Refused addrs tr) :
    ∀ addr ∈ addrs, ∃ out, ¬ Connects out ∧ ⟨.connectAddr addr, out⟩ ∈ tr := by
  induction addrs generalizing tr with
  | nil => nofun
  | cons first addrs ih =>
    match tr with
    | ⟨.connectAddr a, out⟩ :: tr =>
      obtain ⟨rfl, refused, rest⟩ := h
      intro addr listed
      rcases List.mem_cons.mp listed with rfl | later
      · exact ⟨out, fun ⟨stream, connected⟩ => refused stream connected, List.mem_cons_self⟩
      · obtain ⟨out, fails, tried⟩ := ih rest addr later
        exact ⟨out, fails, List.mem_cons_of_mem _ tried⟩

/-- Each target of the pool was checked by a call that is exhausted. -/
theorem checked_of_exhausted {start : Nat} {first second : List (Select Stream).Event}
    (trace : SelectionTrace pool start first second)
    (all : (observations first).length = pool.length) (listed : target ∈ pool) :
    ∃ o, (target, o) ∈ observations first := by
  have every : (observations first).map (some ·.1) = (scan start pool.length).map (pool[·]?) := by
    refine trace.checked.eq_of_length ?_
    rw [List.length_map, List.length_map, length_scan, all]
  obtain ⟨j, found⟩ := List.getElem?_of_mem listed
  have position : j ∈ scan start pool.length :=
    (scan_perm start pool.length).mem_iff.mpr (List.mem_range.mpr (List.getElem?_eq_some_iff.mp found).1)
  have seen : some target ∈ (observations first).map (some ·.1) := by
    rw [every]
    exact List.mem_map.mpr ⟨j, position, found⟩
  obtain ⟨⟨t, o⟩, present, same⟩ := List.mem_map.mp seen
  cases same
  exact ⟨o, present⟩

/-- A target that was checked without being attempted was drained. -/
theorem passed_of_exhausted {start : Nat} {first second : List (Select Stream).Event}
    (trace : SelectionTrace pool start first second) (shown : EndsBy pool start first second .exhausted)
    (listed : target ∈ pool) :
    ⟨.getTargetStatus target, .ok .drain⟩ ∈ first ∨
      ∃ port, ⟨.connect target port, .tryNext⟩ ∈ first ++ second := by
  obtain ⟨all, none_failed, in_vain, tried⟩ := shown
  rw [map_tryOrder trace.checked] at tried
  have attempted (seen : target ∈ targetsSeen .usable (observations first) ++
      targetsSeen .cooling (observations first)) : ∃ port, ⟨.connect target port, .tryNext⟩ ∈ first ++ second := by
    have there : some target ∈ (attempts (first ++ second)).map (some ·.1) := by
      rw [tried]
      exact List.mem_map.mpr ⟨target, seen, rfl⟩
    obtain ⟨⟨t, out⟩, present, same⟩ := List.mem_map.mp there
    cases same
    obtain rfl : out = .tryNext := in_vain _ present
    exact mem_of_attempted present
  have seen {o : Observation} (present : (target, o) ∈ observations first) :
      target ∈ targetsSeen o (observations first) :=
    List.mem_map.mpr ⟨_, List.mem_filter.mpr ⟨present, decide_eq_true rfl⟩, rfl⟩
  obtain ⟨o, present⟩ := checked_of_exhausted trace all listed
  cases o with
  | drained => exact .inl (mem_of_drained present)
  | failed e => exact absurd rfl (none_failed _ present e)
  | usable => exact .inr (attempted (List.mem_append_left _ (seen present)))
  | cooling => exact .inr (attempted (List.mem_append_right _ (seen present)))

theorem listed_of_attempted {start : Nat} {first second : List (Select Stream).Event}
    (trace : SelectionTrace pool start first second) {out : ConnectAttempt (Stream × SocketAddr)}
    (tried : (target, out) ∈ attempts (first ++ second)) : target ∈ pool := by
  have there : some target ∈ (attempts (first ++ second)).map (some ·.1) := List.mem_map.mpr ⟨_, tried, rfl⟩
  obtain ⟨j, -, found⟩ := List.mem_map.mp (trace.attempted.subset there)
  exact List.mem_of_getElem? found

theorem check_linked {S : List (Select Stream).Event} {T : List (Balancer Stream).Event}
    (linked : Unfolds link S T) {a : Except ProxyError BackendStatus}
    (asked : ⟨.getTargetStatus target, a⟩ ∈ S) : ⟨.getTargetStatus target, a⟩ ∈ T := by
  obtain ⟨sub, ran, within⟩ := linked.infix asked
  obtain rfl := exec_perform.mp ran
  exact within.subset List.mem_cons_self

end RoundRobin

namespace SimpleCooldownHandler

/-- What the call asks of the resolver and the connector, it asks below. -/
theorem network_handled {T : List (Balancer Stream).Event} {tr : List (Stack Stream).Event}
    (handled : Unfolds handle T tr) :
    (∀ {target a}, ⟨.lookupHost target, a⟩ ∈ T → ⟨.lookupHost target, a⟩ ∈ tr) ∧
      (∀ {addr out}, ⟨.connectAddr addr, out⟩ ∈ T → ⟨.connectAddr addr, out⟩ ∈ tr) ∧
      ∀ {target a}, ⟨.getTargetStatus target, a⟩ ∈ T → ⟨.load target, a⟩ ∈ tr := by
  refine ⟨fun present => ?_, fun present => ?_, fun present => ?_⟩
  all_goals obtain ⟨sub, ran, within⟩ := handled.infix present
  all_goals obtain rfl := exec_perform.mp ran
  all_goals exact within.subset List.mem_cons_self

theorem inVain_of_connect {T sub : List (Balancer Stream).Event} {tr : List (Stack Stream).Event}
    (handled : Unfolds handle T tr) (ran : Exec (connect target port) sub .tryNext) (within : sub <:+: T) :
    InVain target tr := by
  obtain ⟨lookups, connects, -⟩ := network_handled handled
  rcases connect_exec ran with ⟨before, addr, after, stream, a, failed, -, -, same⟩ |
    ⟨addrs, a, failed, refused, rfl, -⟩ | ⟨e, a, transient, rfl, -⟩ | ⟨e, -, -, same⟩
  · cases same
  · refine .inr ⟨addrs, lookups (within.subset List.mem_cons_self), fun addr given => ?_⟩
    obtain ⟨out, fails, tried⟩ := refused.mem addr given
    refine ⟨out, fails, connects (within.subset ?_)⟩
    exact List.mem_append_left _ (List.mem_cons_of_mem _ tried)
  · exact .inl ⟨e, transient, lookups (within.subset List.mem_cons_self)⟩
  · cases same

/-- A call that fails has one of three reasons. -/
theorem stackConnectBackend_fails (hpool : config.getPool port = some pool)
    {tr : List (Stack Stream).Event} {e : ProxyError}
    (run : Exec (stackConnectBackend config port) tr (.error e)) (found : ∀ x ∈ tr, Found x) :
    FailsBy pool port tr e := by
  obtain ⟨T, above, handled⟩ := exec_interp.mp run
  have answered := answered_of_found handled found
  by_cases none_listed : pool = []
  · cases (connectBackend_errors hpool above answered).1 none_listed
    exact .empty none_listed
  · obtain ⟨S, selected, linked⟩ := exec_interp.mp above
    obtain ⟨drawn, tail, rfl, cont⟩ := connectBackend_exec hpool (List.length_pos_iff.mpr none_listed) selected
    obtain ⟨sub, hsub, within⟩ := linked.infix (e := ⟨.fetchAdd port, drawn⟩) List.mem_cons_self
    obtain rfl := exec_perform.mp hsub
    obtain ⟨counter, rfl⟩ : Answered ⟨.fetchAdd port, drawn⟩ := answered _ (within.subset List.mem_cons_self)
    obtain ⟨first, second, ending, rfl, trace, ends, returned⟩ := firstPass_selects cont
    have shown := (ends ending).mpr rfl
    cases ending with
    | connected s => cases returned
    | fatal e' =>
      cases returned
      obtain ⟨target, last⟩ := shown
      have tried := List.mem_of_getLast? last
      obtain ⟨forPort, attempted⟩ := mem_of_attempted tried
      obtain ⟨sub, ran, within⟩ := linked.infix (List.mem_cons_of_mem _ attempted)
      obtain ⟨permanent, same⟩ := lookup_of_fatal (show Exec (connect target forPort) sub (.fatal e) from ran)
      rw [same] at within
      exact .unresolved (listed_of_attempted trace tried)
        ((network_handled handled).1 (within.subset List.mem_cons_self)) permanent
    | checkFailed e' =>
      cases returned
      obtain ⟨target, last⟩ := shown
      have asked := List.mem_append_left second (mem_of_failed (List.mem_of_getLast? last))
      -- A check that fails has met a missing status.
      obtain ⟨status, same⟩ : Answered ⟨.getTargetStatus target, .error e⟩ :=
        answered _ (check_linked linked (List.mem_cons_of_mem _ asked))
      cases same
    | exhausted =>
      cases returned
      refine .exhausted none_listed fun target listed => ?_
      rcases passed_of_exhausted trace shown listed with drained | ⟨port', tried⟩
      · have checked := check_linked linked (List.mem_cons_of_mem _ (List.mem_append_left second drained))
        exact .inl ((network_handled handled).2.2 checked)
      · obtain ⟨sub, ran, within⟩ := linked.infix (List.mem_cons_of_mem _ tried)
        exact .inr (inVain_of_connect handled (show Exec (connect target port') sub .tryNext from ran) within)

end SimpleCooldownHandler

end TcpProxy
