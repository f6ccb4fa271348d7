import TcpProxy.Lib.Cyclic
import TcpProxy.Balancer.Attempt
import TcpProxy.Balancer.Passes

/-! # Selection by one call

Positions instead of targets: a call that drew `counter` checks the positions of
`scan (counter % n) n` in order, attempts those it observed usable as it goes, then
those it observed cooling, and its result is fixed by how the last attempt or check
ended. -/

namespace TcpProxy.RoundRobin

open Effects Effects.Program Cyclic

variable {Stream : Type}

/-- The positions of the scan from `start` that were observed as `o`. -/
def positionsSeen (o : Observation) (start n : Nat) (obs : List (String × Observation)) :
    List Nat :=
  (((scan start n).zip obs).filter (·.2.2 = o)).map (·.1)

theorem positionsSeen_sublist (o : Observation) (start n : Nat) (obs : List (String × Observation)) :
    (positionsSeen o start n obs).Sublist (scan start n) := by
  have kept : (positionsSeen o start n obs).Sublist (((scan start n).zip obs).map (·.1)) :=
    List.filter_sublist.map _
  have zipped : ∀ (ps : List Nat) (obs : List (String × Observation)),
      ((ps.zip obs).map (·.1)).Sublist ps := by
    intro ps
    induction ps with
    | nil => simp
    | cons p ps ih =>
      intro obs
      cases obs with
      | nil => simp
      | cons x obs => simpa using ih obs
  exact kept.trans (zipped (scan start n) obs)

theorem disjoint_positionsSeen {o o' : Observation} (h : o ≠ o') (start n : Nat)
    (obs : List (String × Observation)) :
    (positionsSeen o start n obs).Disjoint (positionsSeen o' start n obs) := by
  intro p hp hp'
  simp only [positionsSeen, List.mem_map, List.mem_filter, decide_eq_true_eq] at hp hp'
  obtain ⟨x, ⟨hx, rfl⟩, rfl⟩ := hp
  obtain ⟨y, ⟨hy, rfl⟩, heq⟩ := hp'
  obtain ⟨i, hi⟩ := List.getElem?_of_mem hx
  obtain ⟨j, hj⟩ := List.getElem?_of_mem hy
  obtain ⟨hi₁, hi₂⟩ := List.getElem?_zip_eq_some.mp hi
  obtain ⟨hj₁, hj₂⟩ := List.getElem?_zip_eq_some.mp hj
  have bound : i < (scan start n).length := (List.getElem?_eq_some_iff.mp hi₁).1
  obtain rfl : i = j := (List.getElem?_inj bound (nodup_scan start n)).mp (by rw [hi₁, hj₁, heq])
  rw [hi₂] at hj₂
  exact h (by rw [Option.some.inj hj₂])

/-- Checked targets sit at the positions the scan assigns to them. -/
theorem map_positionsSeen {pool : List String} {o : Observation} {start : Nat}
    {obs : List (String × Observation)}
    (checked : obs.map (some ·.1) <+: (scan start pool.length).map (pool[·]?)) :
    (positionsSeen o start pool.length obs).map (pool[·]?) = (targetsSeen o obs).map some := by
  have general : ∀ (ps : List Nat) (obs : List (String × Observation)),
      obs.map (some ·.1) <+: ps.map (pool[·]?) →
      (((ps.zip obs).filter (·.2.2 = o)).map (·.1)).map (pool[·]?) =
        ((obs.filter (·.2 = o)).map (·.1)).map some := by
    intro ps obs
    induction obs generalizing ps with
    | nil => intro _; simp
    | cons x obs ih =>
      intro hpre
      cases ps with
      | nil => simp at hpre
      | cons p ps =>
        simp only [List.map_cons, List.cons_prefix_cons] at hpre
        have := ih ps hpre.2
        by_cases hx : x.2 = o <;> simp_all
  exact general _ _ checked

/-- The positions a call tries, in order: those observed usable, then those observed cooling. -/
def tryOrder (start n : Nat) (obs : List (String × Observation)) : List Nat :=
  positionsSeen .usable start n obs ++ positionsSeen .cooling start n obs

theorem map_tryOrder {pool : List String} {start : Nat} {obs : List (String × Observation)}
    (checked : obs.map (some ·.1) <+: (scan start pool.length).map (pool[·]?)) :
    (tryOrder start pool.length obs).map (pool[·]?) =
      (targetsSeen .usable obs ++ targetsSeen .cooling obs).map some := by
  rw [tryOrder, List.map_append, List.map_append, map_positionsSeen checked, map_positionsSeen checked]

/-- How a call that had backends and a counter ended. -/
inductive Ending (Stream : Type) where
  | connected (s : Stream × SocketAddr)
  | fatal (e : ProxyError)
  | checkFailed (e : ProxyError)
  | exhausted

def Ending.result (forPort : UInt16) : Ending Stream → Connected Stream
  | .connected s => .ok s
  | .fatal e => .error e
  | .checkFailed e => .error e
  | .exhausted => .error (exhaustedError forPort)

/-- The ending a trace shows, split into the first pass and the retries. -/
def EndsBy (pool : List String) (start : Nat) (first second : List (Select Stream).Event) :
    Ending Stream → Prop
  | .connected s => ∃ target, (attempts (first ++ second)).getLast? = some (target, .ready s)
  | .fatal e => ∃ target, (attempts (first ++ second)).getLast? = some (target, .fatal e)
  | .checkFailed e => ∃ target, (observations first).getLast? = some (target, .failed e)
  | .exhausted => (observations first).length = pool.length ∧ NoFailure (observations first) ∧
      AllTryNext (attempts (first ++ second)) ∧
      (attempts (first ++ second)).map (some ·.1) =
        (tryOrder start pool.length (observations first)).map (pool[·]?)

/-- The order in which a call checks and attempts the positions of its pool. -/
structure SelectionTrace (pool : List String) (start : Nat)
    (first second : List (Select Stream).Event) : Prop where
  checked : (observations first).map (some ·.1) <+: (scan start pool.length).map (pool[·]?)
  checksOver : observations second = []
  direct : (attempts first).map (some ·.1) =
    (positionsSeen .usable start pool.length (observations first)).map (pool[·]?)
  attempted : (attempts (first ++ second)).map (some ·.1) <+:
    (tryOrder start pool.length (observations first)).map (pool[·]?)
  retriesLast : attempts second ≠ [] →
    (observations first).length = pool.length ∧ AllTryNext (attempts first)
  once : (tryOrder start pool.length (observations first)).Nodup
  neverDrained : (tryOrder start pool.length (observations first)).Disjoint
      (positionsSeen .drained start pool.length (observations first))

theorem Stopped.getLast {att : List (Attempted Stream)} {r : Connected Stream} (h : Stopped att r) :
    (∃ target s, att.getLast? = some (target, .ready s) ∧ r = .ok s) ∨
      ∃ target e, att.getLast? = some (target, .fatal e) ∧ r = .error e := by
  obtain ⟨before, target, -, ⟨s, rfl, rfl⟩ | ⟨e, rfl, rfl⟩⟩ := h
  · exact .inl ⟨target, s, by simp, rfl⟩
  · exact .inr ⟨target, e, by simp, rfl⟩

theorem AllTryNext.getLast {att : List (Attempted Stream)} (h : AllTryNext att) {a : Attempted Stream}
    (ha : att.getLast? = some a) : a.2 = .tryNext :=
  h a (List.mem_of_getLast? ha)

theorem NoFailure.getLast {obs : List (String × Observation)} (h : NoFailure obs) {target : String}
    {e : ProxyError} : obs.getLast? ≠ some (target, .failed e) := fun hlast =>
  h _ (List.mem_of_getLast? hlast) e rfl

/-- No trace shows two endings. -/
theorem EndsBy.unique {pool : List String} {start : Nat} {first second : List (Select Stream).Event}
    (late : (∃ target e, (observations first).getLast? = some (target, .failed e)) →
      AllTryNext (attempts (first ++ second)))
    {x y : Ending Stream} (hx : EndsBy pool start first second x)
    (hy : EndsBy pool start first second y) : x = y := by
  have moved : ∀ {target out}, (attempts (first ++ second)).getLast? = some (target, out) →
      out ≠ .tryNext → ¬ AllTryNext (attempts (first ++ second)) :=
    fun hlast hout hall => hout (hall.getLast hlast)
  cases x <;> cases y <;> simp only [EndsBy] at hx hy
  case connected.connected s s' | fatal.fatal s s' | checkFailed.checkFailed s s' =>
    obtain ⟨_, hx⟩ := hx
    obtain ⟨_, hy⟩ := hy
    rw [hx] at hy
    simp only [Option.some.injEq, Prod.mk.injEq, ConnectAttempt.ready.injEq,
      ConnectAttempt.fatal.injEq, Observation.failed.injEq] at hy
    rw [hy.2]
  case exhausted.exhausted => rfl
  case connected.fatal | fatal.connected =>
    obtain ⟨_, hx⟩ := hx
    obtain ⟨_, hy⟩ := hy
    rw [hx] at hy
    simp at hy
  case connected.checkFailed | fatal.checkFailed =>
    obtain ⟨_, hx⟩ := hx
    exact absurd (late ⟨_, _, hy.choose_spec⟩) (moved hx (by simp))
  case checkFailed.connected | checkFailed.fatal =>
    obtain ⟨_, hy⟩ := hy
    exact absurd (late ⟨_, _, hx.choose_spec⟩) (moved hy (by simp))
  case connected.exhausted | fatal.exhausted =>
    obtain ⟨_, hx⟩ := hx
    exact absurd hy.2.2.1 (moved hx (by simp))
  case exhausted.connected | exhausted.fatal =>
    obtain ⟨_, hy⟩ := hy
    exact absurd hx.2.2.1 (moved hy (by simp))
  case checkFailed.exhausted =>
    obtain ⟨_, hx⟩ := hx
    exact absurd hx hy.2.1.getLast
  case exhausted.checkFailed =>
    obtain ⟨_, hy⟩ := hy
    exact absurd hy hx.2.1.getLast

section Ends

variable {pool : List String} {start : Nat} {forPort : UInt16}
  {first second : List (Select Stream).Event} {r : Connected Stream}

theorem endsBy_of_stopped (h : Stopped (attempts (first ++ second)) r) :
    ∃ ending, EndsBy pool start first second ending ∧ r = ending.result forPort := by
  rcases h.getLast with ⟨target, s, last, returned⟩ | ⟨target, e, last, returned⟩
  · exact ⟨.connected s, ⟨target, last⟩, returned⟩
  · exact ⟨.fatal e, ⟨target, last⟩, returned⟩

/-- A check that failed is the last thing a call does, after attempts that were all in vain. -/
theorem Ends.late {n : Nat} {cooling : List String} (h : Ends forPort n cooling first second r)
    (failed : ∃ target e, (observations first).getLast? = some (target, .failed e)) :
    AllTryNext (attempts (first ++ second)) := by
  obtain ⟨target, e, last⟩ := failed
  cases h with
  | stopped _ none_failed _ => exact absurd last none_failed.getLast
  | checkFailed _ _ _ none_left all_failed _ _ _ =>
    rw [none_left, List.append_nil]
    exact all_failed
  | passed _ none_failed _ _ => exact absurd last none_failed.getLast

theorem Ends.endsBy (h : Ends forPort pool.length [] first second r)
    (checked : (observations first).map (some ·.1) <+: (scan start pool.length).map (pool[·]?))
    (direct : (attempts first).map (·.1) = targetsSeen .usable (observations first)) :
    ∃ ending, EndsBy pool start first second ending ∧ r = ending.result forPort := by
  cases h with
  | stopped none_left _ stopped =>
    apply endsBy_of_stopped
    rw [none_left, List.append_nil]
    exact stopped
  | checkFailed before target e _ _ looked _ failed =>
    exact ⟨.checkFailed e, ⟨target, by simp [looked]⟩, failed⟩
  | passed looked none_failed all_failed retries =>
    cases retries with
    | inl stopped =>
      apply endsBy_of_stopped
      rw [attempts_append]
      exact stopped.1.after all_failed
    | inr exhausted =>
      obtain ⟨in_vain, retried, failed⟩ := exhausted
      refine ⟨.exhausted, ⟨looked, none_failed, ?_, ?_⟩, failed⟩
      · rw [attempts_append]
        exact all_failed.append in_vain
      · rw [List.nil_append] at retried
        rw [map_tryOrder checked, ← direct, ← retried, ← List.map_append, ← attempts_append, List.map_map]
        rfl

end Ends

/-- The split of `firstPass_exec`, with positions for targets. -/
theorem firstPass_selects {pool : List String} {nonempty : 0 < pool.length} {start : Nat}
    {forPort : UInt16} {tr : List (Select Stream).Event} {r : Connected Stream}
    (run : Exec (firstPass pool nonempty start forPort (List.range pool.length) []) tr r) :
    ∃ first second ending, tr = first ++ second ∧ SelectionTrace pool start first second ∧
      (∀ other, EndsBy pool start first second other ↔ other = ending) ∧
      r = ending.result forPort := by
  obtain ⟨first, second, rfl, checksOver, hpre, hdirect, hends⟩ := firstPass_exec run
  rw [List.length_range] at hends
  have checked : (observations first).map (some ·.1) <+:
      (scan start pool.length).map (pool[·]?) := by
    rw [scan, List.map_map]; exact hpre
  have direct : (attempts first).map (some ·.1) =
      (positionsSeen .usable start pool.length (observations first)).map (pool[·]?) := by
    rw [map_positionsSeen checked, ← hdirect, List.map_map]; rfl
  -- The retries continue the order of the positions behind all the attempts of the first pass.
  have attempted : (attempts (first ++ second)).map (some ·.1) <+:
      (tryOrder start pool.length (observations first)).map (pool[·]?) := by
    have whole : (attempts (first ++ second)).map (·.1) <+:
        targetsSeen .usable (observations first) ++ targetsSeen .cooling (observations first) := by
      rw [attempts_append, List.map_append, hdirect, List.prefix_append_right_inj]
      exact hends.retried
    rw [map_tryOrder checked]
    have wrapped := whole.map some
    rwa [List.map_map] at wrapped
  have once : (tryOrder start pool.length (observations first)).Nodup := by
    refine List.nodup_append'.mpr ⟨?_, ?_, disjoint_positionsSeen (by simp) _ _ _⟩ <;>
      exact (positionsSeen_sublist _ _ _ _).nodup (nodup_scan _ _)
  have neverDrained : (tryOrder start pool.length (observations first)).Disjoint
        (positionsSeen .drained start pool.length (observations first)) :=
    List.disjoint_append_left.mpr ⟨disjoint_positionsSeen (by simp) _ _ _,
      disjoint_positionsSeen (by simp) _ _ _⟩
  obtain ⟨ending, shown, returned⟩ := hends.endsBy checked hdirect
  refine ⟨first, second, ending, rfl, ⟨checked, checksOver, direct, attempted, hends.retriesLast, once,
    neverDrained⟩, fun other => ⟨fun h => EndsBy.unique hends.late h shown, ?_⟩, returned⟩
  rintro rfl
  exact shown

theorem connected_of_attempted {T : List (Select Stream).Event} {tr : List (Balancer Stream).Event}
    (un : Unfolds link T tr) {target : String} {stream : Stream} {addr : SocketAddr}
    (h : (target, .ready (stream, addr)) ∈ attempts T) :
    ⟨.connectAddr addr, .ok (.ok stream)⟩ ∈ tr := by
  obtain ⟨port, hmem⟩ := mem_of_attempted h
  obtain ⟨sub, hsub, hin⟩ := un.infix hmem
  have ready : Exec (connect target port) sub (.ready (stream, addr)) := hsub
  exact hin.subset (connected_of_ready ready)

theorem lookup_of_attempted {T : List (Select Stream).Event} {tr : List (Balancer Stream).Event}
    (un : Unfolds link T tr) {target : String} {e : ProxyError}
    (h : (target, .fatal e) ∈ attempts T) : ⟨.lookupHost target, .error e⟩ ∈ tr := by
  obtain ⟨port, hmem⟩ := mem_of_attempted h
  obtain ⟨sub, hsub, hin⟩ := un.infix hmem
  have fatal : Exec (connect target port) sub (.fatal e) := hsub
  rw [(lookup_of_fatal fatal).2] at hin
  exact hin.subset List.mem_cons_self

/-- Every execution of `connect_backend` on a non-empty pool checks and attempts its
    positions in scan order and returns what its last attempt or check says. -/
theorem linkedConnectBackend_selects {config : ProxyConfig} {forPort : UInt16} {pool : List String}
    (hpool : config.getPool forPort = some pool) (nonempty : pool ≠ [])
    {counter : Nat} {tr : List (Balancer Stream).Event} {r : Connected Stream}
    (run : Exec (linkedConnectBackend config forPort) (⟨.fetchAdd forPort, some counter⟩ :: tr) r) :
    ∃ first second ending, Unfolds link (first ++ second) tr ∧
      SelectionTrace pool (counter % pool.length) first second ∧
      (∀ other, EndsBy pool (counter % pool.length) first second other ↔ other = ending) ∧
      r = ending.result forPort ∧
      (∀ stream addr, ending = .connected (stream, addr) →
        ⟨.connectAddr addr, .ok (.ok stream)⟩ ∈ tr) ∧
      ∀ e, ending = .fatal e → ∃ target, ⟨.lookupHost target, .error e⟩ ∈ tr := by
  have positive : 0 < pool.length := List.length_pos_iff.mpr nonempty
  obtain ⟨T, hT, un⟩ := exec_interp.mp run
  obtain ⟨drawn, tail, rfl, hfirst⟩ := connectBackend_exec hpool positive hT
  obtain ⟨sub, rest, htr, hsub, un⟩ := un.uncons
  obtain rfl := exec_perform.mp hsub
  simp only [List.singleton_append, List.cons.injEq, Interface.Event.mk.injEq, heq_eq_eq,
    true_and] at htr
  obtain ⟨rfl, rfl⟩ := htr
  obtain ⟨first, second, ending, rfl, trace, ends, hr⟩ := firstPass_selects hfirst
  have shown := (ends ending).mpr rfl
  refine ⟨first, second, ending, un, trace, ends, hr, ?_, ?_⟩
  · rintro stream addr rfl
    obtain ⟨target, hlast⟩ := shown
    exact connected_of_attempted un (List.mem_of_getLast? hlast)
  · rintro e rfl
    obtain ⟨target, hlast⟩ := shown
    exact ⟨target, lookup_of_attempted un (List.mem_of_getLast? hlast)⟩

/-! A call on two backends whose first resolves to nothing. -/

def twoBackends : ProxyConfig := ⟨[["a:1", "b:2"]], (∅ : Std.TreeMap UInt16 Nat).insert 8080 0⟩

def localhost : SocketAddr := ⟨.v4 127 0 0 1, 2⟩

def retryTrace : List (Balancer Unit).Event :=
  [⟨.getTargetStatus "a:1", .ok (.alive none)⟩, ⟨.lookupHost "a:1", .ok []⟩,
    ⟨.reportConnectionAttempt "a:1" .failure, .ok ()⟩,
    ⟨.getTargetStatus "b:2", .ok (.alive none)⟩, ⟨.lookupHost "b:2", .ok [localhost]⟩,
    ⟨.connectAddr localhost, .ok (.ok ())⟩, ⟨.reportConnectionAttempt "b:2" .success, .ok ()⟩]

theorem retryTrace_exec : Exec (linkedConnectBackend twoBackends 8080)
    (⟨.fetchAdd 8080, some 0⟩ :: retryTrace) (.ok ((), localhost)) :=
  .cons (.cons (.cons (.cons (.cons (.cons (.cons (.cons (.nil _))))))))

theorem retryTrace_selects :
    ∃ first second ending, Unfolds link (first ++ second) retryTrace ∧
      SelectionTrace ["a:1", "b:2"] (0 % 2) first second ∧
      (∀ other, EndsBy ["a:1", "b:2"] (0 % 2) first second other ↔ other = ending) ∧
      .ok ((), localhost) = ending.result 8080 ∧
      (∀ stream addr, ending = .connected (stream, addr) →
        ⟨.connectAddr addr, .ok (.ok stream)⟩ ∈ retryTrace) ∧
      ∀ e, ending = .fatal e → ∃ target, ⟨.lookupHost target, .error e⟩ ∈ retryTrace :=
  linkedConnectBackend_selects (show twoBackends.getPool 8080 = some ["a:1", "b:2"] from rfl)
    (by decide) retryTrace_exec

end TcpProxy.RoundRobin
