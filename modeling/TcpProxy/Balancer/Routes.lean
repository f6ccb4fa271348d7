import TcpProxy.Balancer.Concurrent
import TcpProxy.Lib.Contract

/-! # Where a call connects to

What `connect_backend` asks of the resolver and the connector, and where the stream it
returns comes from: it looks up targets of its pool only, dials only addresses that such a
lookup gave it, and returns a stream that was given to it for one of them. -/

namespace TcpProxy

open Effects Effects.Program

variable {Stream : Type}

inductive NetworkOp where
  | lookupHost (target : String)
  | connectAddr (addr : SocketAddr)

/-- The resolver and the connector. -/
abbrev Network (Stream : Type) : Interface where
  Op := NetworkOp
  Ans
    | .lookupHost _ => Except ProxyError (List SocketAddr)
    | .connectAddr _ => TimedConnect Stream

def BalancerOp.network? : BalancerOp → Option NetworkOp
  | .lookupHost target => some (.lookupHost target)
  | .connectAddr addr => some (.connectAddr addr)
  | _ => none

def StackOp.network? : StackOp → Option NetworkOp
  | .lookupHost target => some (.lookupHost target)
  | .connectAddr addr => some (.connectAddr addr)
  | _ => none

def balancerNetwork? : (Balancer Stream).Event → Option (Network Stream).Event
  | ⟨.lookupHost target, a⟩ => some ⟨.lookupHost target, a⟩
  | ⟨.connectAddr addr, a⟩ => some ⟨.connectAddr addr, a⟩
  | _ => none

def stackNetwork? : (Stack Stream).Event → Option (Network Stream).Event
  | ⟨.lookupHost target, a⟩ => some ⟨.lookupHost target, a⟩
  | ⟨.connectAddr addr, a⟩ => some ⟨.connectAddr addr, a⟩
  | _ => none

theorem lookup_of_network {tr : List (Stack Stream).Event} {target : String}
    {a : Except ProxyError (List SocketAddr)} (h : ⟨.lookupHost target, a⟩ ∈ tr.filterMap stackNetwork?) :
    ⟨.lookupHost target, a⟩ ∈ tr := by
  obtain ⟨⟨op, b⟩, inside, found⟩ := List.mem_filterMap.mp h
  cases op with
  | lookupHost => cases found; exact inside
  | connectAddr | fetchAdd | load | store | now => cases found

theorem connect_of_network {tr : List (Stack Stream).Event} {addr : SocketAddr} {a : TimedConnect Stream}
    (h : ⟨.connectAddr addr, a⟩ ∈ tr.filterMap stackNetwork?) : ⟨.connectAddr addr, a⟩ ∈ tr := by
  obtain ⟨⟨op, b⟩, inside, found⟩ := List.mem_filterMap.mp h
  cases op with
  | connectAddr => cases found; exact inside
  | lookupHost | fetchAdd | load | store | now => cases found

/-- After the answers `seen`, the operation looks up a target of the pool, or dials an address
    that such a lookup gave. -/
def Routed (pool : List String) (seen : List (Network Stream).Event) : NetworkOp → Prop
  | .lookupHost target => target ∈ pool
  | .connectAddr addr => ∃ target ∈ pool, ∃ addrs,
    ⟨.lookupHost target, .ok addrs⟩ ∈ seen ∧ addr ∈ addrs

/-- The stream was given for an address of a target of the pool. -/
def Serves (pool : List String) (seen : List (Network Stream).Event) (s : Stream × SocketAddr) : Prop :=
  ∃ target ∈ pool, ∃ addrs, ⟨.lookupHost target, .ok addrs⟩ ∈ seen ∧ s.2 ∈ addrs ∧
    ⟨.connectAddr s.2, .ok (.ok s.1)⟩ ∈ seen

theorem Serves.later {pool : List String} {seen later : List (Network Stream).Event}
    {s : Stream × SocketAddr} (h : Serves pool seen s) (longer : seen <+: later) : Serves pool later s := by
  obtain ⟨target, listed, addrs, looked, given, connected⟩ := h
  exact ⟨target, listed, addrs, longer.subset looked, given, longer.subset connected⟩

namespace RoundRobin

variable {pool : List String} {forPort : UInt16}

/-- The balancer routes everything it asks of the network. -/
def Asks (pool : List String) (tr : List (Balancer Stream).Event) (op : BalancerOp) : Prop :=
  ∀ n ∈ op.network?, Routed pool (tr.filterMap balancerNetwork?) n

theorem connectAddrs_routed {target : String} (listed : target ∈ pool) {all addrs : List SocketAddr}
    (given : ∀ addr ∈ addrs, addr ∈ all) {tr : List (Balancer Stream).Event}
    (looked : ⟨.lookupHost target, .ok all⟩ ∈ tr.filterMap balancerNetwork?) :
    Contract (fun _ => True) (Asks pool)
      (fun tr out => ∀ s, out = .ready s → Serves pool (tr.filterMap balancerNetwork?) s) tr
      (connectAddrs target addrs) := by
  induction addrs generalizing tr with
  | nil =>
    refine ⟨by simp [Asks, BalancerOp.network?], fun a _ => ?_⟩
    intro s ready
    cases ready
  | cons addr addrs ih =>
    have here := given addr List.mem_cons_self
    have later := fun a ha => given a (List.mem_cons_of_mem _ ha)
    have kept : ∀ {e : (Balancer Stream).Event},
        ⟨.lookupHost target, .ok all⟩ ∈ (tr ++ [e]).filterMap balancerNetwork? := by
      intro e
      rw [List.filterMap_append]
      exact List.mem_append_left _ looked
    refine ⟨?_, fun ans _ => ?_⟩
    · rintro n ⟨rfl⟩
      exact ⟨target, listed, all, looked, here⟩
    · rcases ans with e | e | stream
      · exact ih later kept
      · exact ih later kept
      · refine ⟨by simp [Asks, BalancerOp.network?], fun a _ => ?_⟩
        rintro s ⟨rfl⟩
        refine ⟨target, listed, all, ?_, here, ?_⟩
        · simp only [List.filterMap_append, List.mem_append]
          exact .inl (.inl looked)
        · simp only [List.filterMap_append, List.mem_append]
          exact .inl (.inr List.mem_cons_self)

theorem connect_routed (forPort : UInt16) {target : String} (listed : target ∈ pool) (tr : List (Balancer Stream).Event) :
    Contract (fun _ => True) (Asks pool)
      (fun tr out => ∀ s, out = .ready s → Serves pool (tr.filterMap balancerNetwork?) s) tr
      (connect target forPort) := by
  refine ⟨?_, fun ans _ => ?_⟩
  · rintro n ⟨rfl⟩
    exact listed
  · cases ans with
    | ok addrs =>
      apply connectAddrs_routed listed fun _ ha => ha
      simp [balancerNetwork?]
    | error e =>
      cases e with
      | dnsNxError | dnsTransientError =>
        refine ⟨by simp [Asks, BalancerOp.network?], fun a _ => ?_⟩
        intro s ready
        cases ready
      | _ =>
        intro s ready
        cases ready

/-! ## The two passes -/

def Attempts (pool : List String) (_ : List (Select Stream).Event) : SelectOp → Prop
  | .connect target _ => target ∈ pool
  | _ => True

/-- A stream comes from an attempt on a target of the pool. -/
def FromAttempt (pool : List String) (T : List (Select Stream).Event) (r : Connected Stream) : Prop :=
  ∀ s, r = .ok s → ∃ target ∈ pool, ∃ forPort, ⟨.connect target forPort, .ready s⟩ ∈ T

theorem resume_routed (forPort : UInt16) (T : List (Select Stream).Event) {target : String}
    (listed : target ∈ pool) {k : Program (Select Stream) (Connected Stream)}
    (goes_on : ∀ T, Contract (fun _ => True) (Attempts pool) (FromAttempt pool) T k) :
    Contract (fun _ => True) (Attempts pool) (FromAttempt pool) T
      (perform (I := Select Stream) (.connect target forPort) >>= resume k) := by
  refine ⟨listed, fun out _ => ?_⟩
  cases out with
  | ready s =>
    rintro s' ⟨rfl⟩
    exact ⟨target, listed, forPort, by simp⟩
  | tryNext => exact goes_on _
  | fatal e =>
    intro s ended
    cases ended

theorem secondPass_routed {cooling : List String} (collected : ∀ target ∈ cooling, target ∈ pool)
    (T : List (Select Stream).Event) :
    Contract (fun _ => True) (Attempts pool) (FromAttempt pool) T (secondPass forPort cooling) := by
  induction cooling generalizing T with
  | nil =>
    intro s ended
    cases ended
  | cons target cooling ih =>
    rw [secondPass_cons]
    exact resume_routed forPort T (collected target List.mem_cons_self)
      (ih fun t ht => collected t (List.mem_cons_of_mem _ ht))

theorem firstPass_routed {nonempty : 0 < pool.length} {startIdx : Nat} {is : List Nat}
    {cooling : List String} (collected : ∀ target ∈ cooling, target ∈ pool)
    (T : List (Select Stream).Event) :
    Contract (fun _ => True) (Attempts pool) (FromAttempt pool) T
      (firstPass pool nonempty startIdx forPort is cooling) := by
  induction is generalizing cooling T with
  | nil => exact secondPass_routed collected T
  | cons i is ih =>
    rw [firstPass_cons]
    have listed := List.get_mem pool ⟨position startIdx i pool.length, Nat.mod_lt _ nonempty⟩
    generalize pool.get _ = target at listed
    have attempt := fun T => resume_routed forPort T listed fun T => ih collected T
    refine ⟨trivial, fun status _ => ?_⟩
    rcases status with e | (time | _)
    · intro s ended
      cases ended
    · cases time with
      | none => exact attempt _
      | some time =>
        refine ⟨trivial, fun reading _ => ?_⟩
        show Contract (fun _ => True) (Attempts pool) (FromAttempt pool) _ (if time > reading then _ else _)
        split
        · refine ih (fun t ht => ?_) _
          rcases List.mem_append.mp ht with ht | ht
          · exact collected t ht
          · rw [List.mem_singleton.mp ht]
            exact listed
        · exact attempt _
    · exact ih collected _

theorem connectBackend_routed {config : ProxyConfig} (hpool : config.getPool forPort = some pool)
    (T : List (Select Stream).Event) :
    Contract (fun _ => True) (Attempts pool) (FromAttempt pool) T (connectBackend config forPort) := by
  simp only [connectBackend, hpool]
  split
  · refine ⟨trivial, fun drawn _ => ?_⟩
    cases drawn with
    | none =>
      intro s ended
      cases ended
    | some counter => exact firstPass_routed (by simp) _
  · intro s ended
    cases ended

theorem linkedConnectBackend_routed {config : ProxyConfig} (hpool : config.getPool forPort = some pool)
    (tr : List (Balancer Stream).Event) :
    Contract (fun _ => True) (Asks pool)
      (fun tr r => ∀ s, r = .ok s → Serves pool (tr.filterMap balancerNetwork?) s) tr
      (linkedConnectBackend config forPort) := by
  -- Every stream an attempt was answered with was given for an address of its target.
  let covered (T : List (Select Stream).Event) (tr : List (Balancer Stream).Event) : Prop :=
    ∀ target port s, ⟨.connect target port, .ready s⟩ ∈ T → Serves pool (tr.filterMap balancerNetwork?) s
  have old : ∀ {T tr later} {e : (Select Stream).Event}, covered T tr → tr <+: later →
      (∀ target port s, e = ⟨.connect target port, .ready s⟩ → Serves pool (later.filterMap balancerNetwork?) s) →
      covered (T ++ [e]) later := by
    intro T tr later e before longer new target port s h
    rcases List.mem_append.mp h with h | h
    · exact (before target port s h).later (longer.filterMap _)
    · exact new target port s (List.mem_singleton.mp h).symm
  apply (contract_interp covered (connectBackend_routed hpool []) (by simp [covered]) ?_).mono id
  · rintro later r ⟨T, served, returned⟩ s rfl
    obtain ⟨target, -, port, attempted⟩ := returned s rfl
    exact served target port s attempted
  · intro T tr op before asks
    cases op with
    | fetchAdd port =>
      refine ⟨by simp [Asks, BalancerOp.network?], fun a _ => ⟨trivial, ?_⟩⟩
      exact old before (List.prefix_append _ _) (by simp)
    | getTargetStatus target =>
      refine ⟨by simp [Asks, BalancerOp.network?], fun a _ => ⟨trivial, ?_⟩⟩
      exact old before (List.prefix_append _ _) (by simp)
    | now =>
      refine ⟨by simp [Asks, BalancerOp.network?], fun a _ => ⟨trivial, ?_⟩⟩
      exact old before (List.prefix_append _ _) (by simp)
    | connect target port =>
      refine (connect_routed port asks tr).grows.mono id ?_
      rintro later out ⟨longer, ready⟩
      refine ⟨trivial, old before longer ?_⟩
      rintro target' port' s ⟨⟩
      exact ready s rfl

end RoundRobin

namespace SimpleCooldownHandler

variable {pool : List String} {forPort : UInt16}

def Asks (pool : List String) (tr : List (Stack Stream).Event) (op : StackOp) : Prop :=
  ∀ n ∈ op.network?, Routed pool (tr.filterMap stackNetwork?) n

/-- The operation is not one of the network. -/
def Local (op : StackOp) : Prop := op.network? = none

theorem stackNetwork?_local {tr : List (Stack Stream).Event} (quiet : ∀ e ∈ tr, Local e.op) :
    tr.filterMap stackNetwork? = [] := by
  apply List.filterMap_eq_nil_iff.mpr
  intro e he
  have local_e := quiet e he
  obtain ⟨op, a⟩ := e
  cases op with
  | lookupHost | connectAddr => cases local_e
  | fetchAdd | load | store | now => rfl

/-- The production stack asks of the network what the generic balancer asks. -/
theorem stackConnectBackend_routed {config : ProxyConfig} (hpool : config.getPool forPort = some pool) :
    Contract (fun _ => True) (Asks pool)
      (fun tr r => ∀ s, r = .ok s → Serves pool (tr.filterMap stackNetwork?) s) []
      (stackConnectBackend config forPort : Program (Stack Stream) _) := by
  apply (contract_interp (fun T tr => T.filterMap balancerNetwork? = tr.filterMap stackNetwork?)
    (RoundRobin.linkedConnectBackend_routed hpool []) rfl ?_).mono id
  · rintro tr r ⟨T, same, served⟩ s ended
    rw [← same]
    exact served s ended
  · intro T tr op same asks
    cases op with
    | fetchAdd | getTargetStatus | now =>
      refine ⟨by simp [Asks, StackOp.network?], fun a _ => ⟨trivial, ?_⟩⟩
      rw [List.filterMap_append, List.filterMap_append, same]
      rfl
    | lookupHost | connectAddr =>
      refine ⟨?_, fun a _ => ⟨trivial, ?_⟩⟩
      · rintro n ⟨rfl⟩
        rw [← same]
        exact asks _ rfl
      · rw [List.filterMap_append, List.filterMap_append, same]
        rfl
    | reportConnectionAttempt target result =>
      have reports : Uses (I := Stack Stream) Local (reportConnectionAttempt target result) :=
        uses_reportConnectionAttempt rfl rfl fun _ => rfl
      refine (contract_of_uses reports).mono ?_ ?_
      · intro later op quiet n asked
        rw [quiet] at asked
        cases asked
      · rintro later a ⟨sub, rfl, quiet⟩
        refine ⟨trivial, ?_⟩
        rw [List.filterMap_append, List.filterMap_append, stackNetwork?_local quiet, same]
        simp [balancerNetwork?]

end SimpleCooldownHandler

end TcpProxy
