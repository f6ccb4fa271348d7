import TcpProxy.Balancer.Routes
import TcpProxy.Balancer.Reporting
import TcpProxy.Balancer.Races

/-! # Why a status changes

Every store that `connect_backend` makes on a target comes straight after an attempt of the
same call on that target: a cooldown after one that failed, counted from a reading of the
clock after the failure, and its end after one that connected. -/

namespace TcpProxy

open Effects Effects.Program

variable {Stream : Type} {target : String}

/-- No address of those looked up connects. -/
def AllRefused (addrs : List SocketAddr) (tr : List (Network Stream).Event) : Prop :=
  List.Forall₂ (fun addr e => ∃ out, e = ⟨.connectAddr addr, out⟩ ∧ ¬ RoundRobin.Connects out) addrs tr

theorem AllRefused.mem {addrs : List SocketAddr} {tr : List (Network Stream).Event} (h : AllRefused addrs tr)
    {addr : SocketAddr} (given : addr ∈ addrs) : ∃ out, ¬ RoundRobin.Connects out ∧ ⟨.connectAddr addr, out⟩ ∈ tr := by
  induction h with
  | nil => cases given
  | @cons first e addrs tr refused _ ih =>
    rcases List.mem_cons.mp given with rfl | later
    · obtain ⟨out, rfl, fails⟩ := refused
      exact ⟨out, fails, List.mem_cons_self⟩
    · obtain ⟨out, fails, dialed⟩ := ih later
      exact ⟨out, fails, List.mem_cons_of_mem e dialed⟩

/-- The last that was asked of the network is an attempt on `target`, and it failed. -/
inductive AttemptFailed (target : String) : List (Network Stream).Event → Prop
  | unresolved {before : List (Network Stream).Event} {e : ProxyError} : RoundRobin.TransientLookup e →
      AttemptFailed target (before ++ [⟨.lookupHost target, .error e⟩])
  | refused {before tr : List (Network Stream).Event} {addrs : List SocketAddr} : AllRefused addrs tr →
      AttemptFailed target (before ++ ⟨.lookupHost target, .ok addrs⟩ :: tr)

/-- The last that was asked of the network is an attempt on `target`, and it connected. -/
inductive AttemptConnected (target : String) : List (Network Stream).Event → Prop
  | connected {before tr : List (Network Stream).Event} {tried rest : List SocketAddr} {addr : SocketAddr}
      {stream : Stream} : AllRefused tried tr →
      AttemptConnected target (before ++ ⟨.lookupHost target, .ok (tried ++ addr :: rest)⟩ :: tr ++
        [⟨.connectAddr addr, .ok (.ok stream)⟩])

namespace RoundRobin

/-- The report on an attempt says how it ended. -/
def Truthful (tr : List (Balancer Stream).Event) : BalancerOp → Prop
  | .reportConnectionAttempt target .failure => AttemptFailed target (tr.filterMap balancerNetwork?)
  | .reportConnectionAttempt target .success => AttemptConnected target (tr.filterMap balancerNetwork?)
  | _ => True

theorem connectAddrs_reports (addrs tried : List SocketAddr) {tr : List (Balancer Stream).Event}
    (before refused : List (Network Stream).Event)
    (seen : tr.filterMap balancerNetwork? =
      before ++ ⟨.lookupHost target, .ok (tried ++ addrs)⟩ :: refused)
    (so_far : AllRefused tried refused) :
    Contract (fun _ => True) Truthful (fun _ _ => True) tr (connectAddrs target addrs) := by
  induction addrs generalizing tried tr refused with
  | nil =>
    refine ⟨?_, fun _ _ => trivial⟩
    rw [List.append_nil] at seen
    show AttemptFailed target (tr.filterMap balancerNetwork?)
    rw [seen]
    exact .refused so_far
  | cons addr addrs ih =>
    -- An address that does not connect is one more that was tried.
    have goes_on : ∀ out, ¬ Connects out → Contract (fun _ => True) Truthful (fun _ _ => True)
        (tr ++ [⟨.connectAddr addr, out⟩]) (connectAddrs target addrs) := by
      intro out fails
      refine ih (tried ++ [addr]) (refused ++ [⟨.connectAddr addr, out⟩]) ?_
        (List.rel_append so_far (.cons ⟨out, rfl, fails⟩ .nil))
      rw [List.filterMap_append, seen]
      simp [balancerNetwork?]
    refine ⟨trivial, fun ans _ => ?_⟩
    rcases ans with e | e | stream
    · exact goes_on _ (by simp [Connects])
    · exact goes_on _ (by simp [Connects])
    · refine ⟨?_, fun _ _ => trivial⟩
      show AttemptConnected target _
      rw [List.filterMap_append, seen]
      exact .connected so_far

theorem connect_reports (forPort : UInt16) (tr : List (Balancer Stream).Event) :
    Contract (fun _ => True) Truthful (fun _ _ => True) tr (connect target forPort) := by
  refine ⟨trivial, fun ans _ => ?_⟩
  cases ans with
  | ok addrs =>
    refine connectAddrs_reports addrs [] (tr.filterMap balancerNetwork?) [] ?_ .nil
    rw [List.filterMap_append]
    rfl
  | error e =>
    -- The report on a lookup that failed for the moment.
    have failed : TransientLookup e → AttemptFailed target
        ((tr ++ [(⟨.lookupHost target, .error e⟩ : (Balancer Stream).Event)]).filterMap balancerNetwork?) := by
      intro transient
      rw [List.filterMap_append]
      exact .unresolved transient
    cases e with
    | dnsNxError | dnsTransientError =>
      refine ⟨failed trivial, fun a _ => ?_⟩
      trivial
    | _ => trivial

theorem linkedConnectBackend_reports (config : ProxyConfig) (forPort : UInt16) :
    Contract (fun _ => True) Truthful (fun _ _ => True) []
      (linkedConnectBackend config forPort : Program (Balancer Stream) _) := by
  have any : ∀ p : Program (Select Stream) (Connected Stream), ∀ T,
      Contract (fun _ => True) (fun _ _ => True) (fun _ _ => True) T p := by
    intro p
    induction p with
    | ret r => exact fun _ => trivial
    | ask op next ih => exact fun _ => ⟨trivial, fun a _ => ih a _⟩
  refine (contract_interp (fun _ _ => True) (any _ []) trivial ?_).mono id fun _ => trivial
  intro T tr op _ _
  cases op with
  | fetchAdd | getTargetStatus | now => exact ⟨trivial, fun _ _ => ⟨trivial, trivial⟩⟩
  | connect target port => exact (connect_reports port tr).mono id fun _ => ⟨trivial, trivial⟩

end RoundRobin

namespace SimpleCooldownHandler

/-- What entitles a call to store a status on `target`. -/
inductive Earned (target : String) : List (Stack Stream).Event → BackendStatus → Prop
  | cooldown {before : List (Stack Stream).Event} {loaded : Option Instant} {now reading : Instant} :
      AttemptFailed target (before.filterMap stackNetwork?) →
      Earned target (before ++ [⟨.load target, .ok (.alive loaded)⟩, ⟨.now, now⟩, ⟨.now, reading⟩])
        (.alive (some (reading + COOLDOWN)))
  | cleared {before : List (Stack Stream).Event} {until_ now : Instant} : now < until_ →
      AttemptConnected target (before.filterMap stackNetwork?) →
      Earned target (before ++ [⟨.load target, .ok (.alive (some until_))⟩, ⟨.now, now⟩]) (.alive none)

def Earns (tr : List (Stack Stream).Event) : StackOp → Prop
  | .store target status => Earned target tr status
  | _ => True

theorem report_earns {result : ConnectResult} {tr : List (Stack Stream).Event}
    (failed : result = .failure → AttemptFailed target (tr.filterMap stackNetwork?))
    (connected : result = .success → AttemptConnected target (tr.filterMap stackNetwork?)) :
    Contract (fun _ => True) Earns
      (fun later _ => later.filterMap stackNetwork? = tr.filterMap stackNetwork?) tr
      (reportConnectionAttempt target result) := by
  refine ⟨trivial, fun status _ => ?_⟩
  rcases status with e | (loaded | _)
  · show List.filterMap stackNetwork? _ = _
    simp [stackNetwork?]
  · refine ⟨trivial, fun now _ => ?_⟩
    show Contract _ _ _ _ (if result = .failure then _ else _)
    cases result with
    | failure =>
      refine ⟨trivial, fun reading _ => ⟨?_, fun a _ => ?_⟩⟩
      · show Earned target _ _
        rw [List.append_assoc, List.append_assoc]
        exact .cooldown (failed rfl)
      · show List.filterMap stackNetwork? _ = _
        simp [stackNetwork?]
    | success =>
      cases loaded with
      | none =>
        show List.filterMap stackNetwork? _ = _
        simp [stackNetwork?]
      | some until_ =>
        show Contract _ _ _ _ (if until_ > now then _ else _)
        split
        next cooling =>
          refine ⟨?_, fun a _ => ?_⟩
          · show Earned target _ _
            rw [List.append_assoc]
            exact .cleared cooling (connected rfl)
          · show List.filterMap stackNetwork? _ = _
            simp [stackNetwork?]
        next =>
          show List.filterMap stackNetwork? _ = _
          simp [stackNetwork?]
  · show List.filterMap stackNetwork? _ = _
    simp [stackNetwork?]

/-- Every store of a call is earned by the attempt before it. -/
theorem stackConnectBackend_earns (config : ProxyConfig) (forPort : UInt16) :
    Contract (fun _ => True) Earns (fun _ _ => True) []
      (stackConnectBackend config forPort : Program (Stack Stream) _) := by
  refine (contract_interp (fun T tr => T.filterMap balancerNetwork? = tr.filterMap stackNetwork?)
    (RoundRobin.linkedConnectBackend_reports config forPort) rfl ?_).mono id fun _ => trivial
  intro T tr op same truthful
  cases op with
  | fetchAdd | getTargetStatus | now | lookupHost | connectAddr =>
    refine ⟨trivial, fun a _ => ⟨trivial, ?_⟩⟩
    rw [List.filterMap_append, List.filterMap_append, same]
    rfl
  | reportConnectionAttempt target result =>
    refine (report_earns ?_ ?_).mono id ?_
    · rintro rfl
      rw [← same]
      exact truthful
    · rintro rfl
      rw [← same]
      exact truthful
    · intro later a quiet
      refine ⟨trivial, ?_⟩
      rw [quiet, List.filterMap_append, same]
      simp [balancerNetwork?]

/-! ## Concurrent calls -/

section Calls

open Lts Pool

variable {w : Nat} {config : ProxyConfig} {s : Store w} {ls : List (TaskLabel Stream)}
  {c c' : Tasks w Stream} {i : Nat} {t : String} {status : BackendStatus}

/-- Only `connect_backend` is called. -/
def ConnectCalls (ls : List (TaskLabel Stream)) : Prop :=
  ∀ i call, .spawn i call ∈ ls → ∃ port, call = .connectBackend port

theorem store_earned (run : Run (Tasks.Step config) (.idle s) ls c) (connects : ConnectCalls ls)
    {a : Except ProxyError Unit} (step : Tasks.Step config c (.act i ⟨.store t status, a⟩) c') :
    Earned t (traceOf i ls) status := by
  cases step with
  | act running answered =>
    obtain ⟨call, spawned, steps⟩ := spawned_steps run rfl running
    obtain ⟨port, rfl⟩ := connects i call spawned
    have earns : Contract (fun _ => True) Earns (fun _ _ => True) []
        (Call.body config (.connectBackend port) : Program (Stack Stream) _) :=
      contract_bind (stackConnectBackend_earns config port) fun _ => trivial
    exact (earns.steps steps fun _ _ => trivial).1.1

/-- A status is the initial one, or it was earned by the call that stored it. -/
theorem status_earned (run : Run (Tasks.Step config) (.idle s) ls c) (connects : ConnectCalls ls)
    (stored : c.store.targets.targetStatus t = some status) :
    s.targets.targetStatus t = some status ∨ ∃ i tr, tr <+: traceOf i ls ∧ Earned t tr status := by
  have history := run.history (fun done u => Run (Tasks.Step config) (.idle s) done u ∧
    (ConnectCalls done → ∀ status, u.store.targets.targetStatus t = some status →
      s.targets.targetStatus t = some status ∨ ∃ i tr, tr <+: traceOf i done ∧ Earned t tr status))
    ⟨.nil _, fun _ _ => .inl⟩ ?_
  · exact history.2 connects status stored
  · intro done u l v ⟨reach, earlier⟩ step
    refine ⟨reach.append (.single step), fun connects status stored => ?_⟩
    have before : ConnectCalls done := fun i call h => connects i call (List.mem_append_left _ h)
    rcases status_step step t with same | ⟨i, status', a, rfl, now⟩
    · rw [same] at stored
      refine (earlier before status stored).imp_right fun ⟨i, tr, old, earned⟩ => ⟨i, tr, ?_, earned⟩
      rw [traceOf_append]
      exact old.trans (List.prefix_append _ _)
    · rw [stored] at now
      cases now
      refine .inr ⟨i, traceOf i done, ?_, store_earned reach before step⟩
      rw [traceOf_append]
      exact List.prefix_append _ _

end Calls

end SimpleCooldownHandler

end TcpProxy
