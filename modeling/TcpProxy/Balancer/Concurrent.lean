import TcpProxy.Balancer.Stack
import TcpProxy.Lib.Interleaving

/-! # Concurrent calls on one balancer

The production stack shared by any number of tasks: each runs `connect_backend`, a
report or a drain, and they interleave at every atomic access, clock reading, lookup
and connect. -/

namespace TcpProxy

open Effects Effects.Program Lts

variable {w : Nat} {Stream : Type}

inductive Call where
  | connectBackend (forPort : UInt16)
  | reportConnectionAttempt (target : String) (result : ConnectResult)
  | drain (target : String)
  deriving DecidableEq

inductive CallResult (Stream : Type) where
  | connected (r : RoundRobin.Connected Stream)
  | updated (r : Except ProxyError Unit)

namespace Call

def body (config : ProxyConfig) : Call → Program (Stack Stream) (CallResult Stream)
  | .connectBackend forPort => do
    return .connected (← SimpleCooldownHandler.stackConnectBackend config forPort)
  | .reportConnectionAttempt target result => do
    return .updated (← SimpleCooldownHandler.reportConnectionAttempt target result)
  | .drain target => do
    return .updated (← SimpleCooldownHandler.drain target)

/-- The targets whose status a call may read or write. -/
def Serves (config : ProxyConfig) : Call → String → Prop
  | .connectBackend forPort, target => ∃ pool, config.getPool forPort = some pool ∧ target ∈ pool
  | .reportConnectionAttempt t _, target => target = t
  | .drain t, target => target = t

/-- The operations a call may ask: its own counter, and the status of the targets it serves. -/
def MayAsk (config : ProxyConfig) (call : Call) : StackOp → Prop
  | .fetchAdd port => call = .connectBackend port
  | .load target => call.Serves config target
  | .store target _ => call.Serves config target
  | _ => True

end Call

abbrev Tasks (w : Nat) (Stream : Type) :=
  Pool (Store w) Nat (Stack Stream) (CallResult Stream)

abbrev TaskLabel (Stream : Type) := Pool.Label Nat Call (Stack Stream)

/-- One step of the tasks sharing a production stack. -/
abbrev Tasks.Step (config : ProxyConfig) :
    Tasks w Stream → TaskLabel Stream → Tasks w Stream → Prop :=
  Pool.Step Store.Answers (Call.body config)

/-- A store before any task has started. -/
def Tasks.idle (s : Store w) : Tasks w Stream := ⟨s, fun _ => none⟩

namespace SimpleCooldownHandler

theorem uses_reportConnectionAttempt {allowed : StackOp → Prop} {target : String}
    {result : ConnectResult} (now : allowed .now) (load : allowed (.load target))
    (store : ∀ status, allowed (.store target status)) :
    Uses (I := Stack Stream) allowed (reportConnectionAttempt target result) := by
  refine ⟨load, fun status => ?_⟩
  rcases status with e | (coolUntil | _)
  · trivial
  · refine ⟨now, fun reading => ?_⟩
    show Uses (I := Stack Stream) allowed (if result = .failure then _ else _)
    split
    · exact ⟨now, fun later => ⟨store _, fun _ => trivial⟩⟩
    · cases coolUntil with
      | none => trivial
      | some time =>
        show Uses (I := Stack Stream) allowed (if time > reading then _ else _)
        split
        · exact ⟨store _, fun _ => trivial⟩
        · trivial
  · trivial

end SimpleCooldownHandler

namespace RoundRobin

theorem uses_connectAddrs {allowed : BalancerOp → Prop} {target : String}
    (report : ∀ result, allowed (.reportConnectionAttempt target result))
    (connectAddr : ∀ addr, allowed (.connectAddr addr)) (addrs : List SocketAddr) :
    Uses (I := Balancer Stream) allowed (connectAddrs target addrs) := by
  induction addrs with
  | nil => exact ⟨report _, fun _ => trivial⟩
  | cons addr addrs ih =>
    refine ⟨connectAddr addr, fun ans => ?_⟩
    rcases ans with e | e | stream
    · exact ih
    · exact ih
    · exact ⟨report _, fun _ => trivial⟩

/-- An attempt looks its target up once, first. -/
theorem connect_asks {allowed : BalancerOp → Prop} {target : String}
    (report : ∀ result, allowed (.reportConnectionAttempt target result))
    (connectAddr : ∀ addr, allowed (.connectAddr addr)) (forPort : UInt16) :
    ∃ next : _ → Program (Balancer Stream) _, connect target forPort = .ask (.lookupHost target) next ∧
      ∀ ans, Uses allowed (next ans) := by
  refine ⟨_, rfl, fun ans => ?_⟩
  cases ans with
  | ok addrs => exact uses_connectAddrs report connectAddr addrs
  | error e =>
    cases e with
    | dnsNxError | dnsTransientError => exact ⟨report _, fun _ => trivial⟩
    | _ => trivial

theorem uses_connect {allowed : BalancerOp → Prop} {target : String} {forPort : UInt16}
    (lookup : allowed (.lookupHost target))
    (report : ∀ result, allowed (.reportConnectionAttempt target result))
    (connectAddr : ∀ addr, allowed (.connectAddr addr)) :
    Uses (I := Balancer Stream) allowed (connect target forPort) := by
  have asks : ∃ next : _ → Program (Balancer Stream) _,
      connect target forPort = .ask (.lookupHost target) next ∧ ∀ ans, Uses allowed (next ans) :=
    connect_asks report connectAddr forPort
  obtain ⟨next, same, uses⟩ := asks
  rw [same]
  exact ⟨lookup, uses⟩

theorem uses_secondPass {allowed : SelectOp → Prop} {forPort : UInt16} {cooling : List String}
    (connect : ∀ target ∈ cooling, allowed (.connect target forPort)) :
    Uses (I := Select Stream) allowed (secondPass forPort cooling) := by
  induction cooling with
  | nil => trivial
  | cons target cooling ih =>
    refine ⟨connect target List.mem_cons_self, fun outcome => ?_⟩
    cases outcome with
    | ready | fatal => trivial
    | tryNext => exact ih fun t ht => connect t (List.mem_cons_of_mem _ ht)

theorem uses_firstPass {allowed : SelectOp → Prop} {backends : List String}
    {nonempty : 0 < backends.length} {startIdx : Nat} {forPort : UInt16} (now : allowed .now)
    (check : ∀ target ∈ backends, allowed (.getTargetStatus target))
    (connect : ∀ target ∈ backends, allowed (.connect target forPort))
    {is : List Nat} {cooling : List String} (collected : ∀ target ∈ cooling, target ∈ backends) :
    Uses (I := Select Stream) allowed (firstPass backends nonempty startIdx forPort is cooling) := by
  induction is generalizing cooling with
  | nil => exact uses_secondPass fun target ht => connect target (collected target ht)
  | cons i is ih =>
    rw [firstPass_cons]
    have member := List.get_mem backends ⟨position startIdx i backends.length, Nat.mod_lt _ nonempty⟩
    generalize backends.get _ = target at member
    have attempted : Uses (I := Select Stream) allowed (perform (I := Select Stream) (.connect target forPort) >>=
        resume (firstPass backends nonempty startIdx forPort is cooling)) := by
      refine ⟨connect target member, fun outcome => ?_⟩
      cases outcome with
      | ready | fatal => trivial
      | tryNext => exact ih collected
    refine ⟨check target member, fun status => ?_⟩
    rcases status with e | (time | _)
    · trivial
    · cases time with
      | none => exact attempted
      | some time =>
        refine ⟨now, fun reading => ?_⟩
        show Uses (I := Select Stream) allowed (if time > reading then _ else _)
        split
        · refine ih fun t ht => ?_
          rcases List.mem_append.mp ht with ht | ht
          · exact collected t ht
          · rw [List.mem_singleton.mp ht]; exact member
        · exact attempted
    · exact ih collected

theorem uses_connectBackend {allowed : SelectOp → Prop} {config : ProxyConfig} {forPort : UInt16}
    (draw : allowed (.fetchAdd forPort)) (now : allowed .now)
    (pool : ∀ backends target, config.getPool forPort = some backends → target ∈ backends →
      allowed (.getTargetStatus target) ∧ allowed (.connect target forPort)) :
    Uses (I := Select Stream) allowed (connectBackend config forPort) := by
  unfold connectBackend
  split
  · trivial
  next backends hpool =>
    split
    · refine ⟨draw, fun drawn => ?_⟩
      cases drawn with
      | none => trivial
      | some counter =>
        exact uses_firstPass now (fun t ht => (pool backends t hpool ht).1)
          (fun t ht => (pool backends t hpool ht).2) (by simp)
    · trivial

end RoundRobin

namespace Call

/-- The operations a balancer asks of its parts are, carried out by the production
    handler, operations the call may ask. -/
theorem uses_handle {allowed : StackOp → Prop} {op : BalancerOp} (now : allowed .now)
    (draw : ∀ port, op = .fetchAdd port → allowed (.fetchAdd port))
    (status : ∀ target, op = .getTargetStatus target ∨ (∃ r, op = .reportConnectionAttempt target r) →
      allowed (.load target) ∧ ∀ s, allowed (.store target s))
    (lookup : ∀ target, op = .lookupHost target → allowed (.lookupHost target))
    (connect : ∀ addr, allowed (.connectAddr addr)) :
    Uses (I := Stack Stream) allowed (SimpleCooldownHandler.handle op) := by
  cases op with
  | fetchAdd port => exact ⟨draw port rfl, fun _ => trivial⟩
  | getTargetStatus target => exact ⟨(status target (.inl rfl)).1, fun _ => trivial⟩
  | now => exact ⟨now, fun _ => trivial⟩
  | lookupHost target => exact ⟨lookup target rfl, fun _ => trivial⟩
  | connectAddr addr => exact ⟨connect addr, fun _ => trivial⟩
  | reportConnectionAttempt target result =>
    have := status target (.inr ⟨result, rfl⟩)
    exact SimpleCooldownHandler.uses_reportConnectionAttempt now this.1 this.2

theorem uses_body (config : ProxyConfig) (call : Call) :
    Uses (I := Stack Stream) (call.MayAsk config) (body config call) := by
  cases call with
  | reportConnectionAttempt target result =>
    exact uses_bind (SimpleCooldownHandler.uses_reportConnectionAttempt trivial rfl fun _ => rfl)
      fun _ => trivial
  | drain target => exact ⟨rfl, fun _ => trivial⟩
  | connectBackend forPort =>
    refine uses_bind ?_ fun _ => trivial
    -- The operations allowed to the balancer, between selection and stack.
    let balancerAllowed : BalancerOp → Prop
      | .fetchAdd port => port = forPort
      | .getTargetStatus target => (connectBackend forPort).Serves config target
      | .reportConnectionAttempt target _ => (connectBackend forPort).Serves config target
      | _ => True
    let selectAllowed : SelectOp → Prop
      | .fetchAdd port => port = forPort
      | .getTargetStatus target => (connectBackend forPort).Serves config target
      | .connect target _ => (connectBackend forPort).Serves config target
      | .now => True
    have selected : Uses (I := Select Stream) selectAllowed
        (RoundRobin.connectBackend config forPort) :=
      RoundRobin.uses_connectBackend rfl trivial fun backends target hpool ht =>
        ⟨⟨backends, hpool, ht⟩, ⟨backends, hpool, ht⟩⟩
    have linked : Uses (I := Balancer Stream) balancerAllowed
        (RoundRobin.linkedConnectBackend config forPort) := by
      refine uses_interp selected fun op hop => ?_
      cases op with
      | fetchAdd port => exact ⟨hop, fun _ => trivial⟩
      | getTargetStatus target => exact ⟨hop, fun _ => trivial⟩
      | now => exact ⟨trivial, fun _ => trivial⟩
      | connect target port =>
        show Uses (I := Balancer Stream) balancerAllowed (RoundRobin.connect target port)
        exact RoundRobin.uses_connect trivial (fun _ => hop) fun _ => trivial
    refine uses_interp linked fun op hop => uses_handle trivial ?_ ?_ (fun _ _ => trivial) fun _ => trivial
    · rintro port rfl
      exact congrArg connectBackend hop.symm
    · rintro target (rfl | ⟨result, rfl⟩)
      · exact ⟨hop, fun _ => hop⟩
      · exact ⟨hop, fun _ => hop⟩

end Call

/-- The trace of a task that has returned is one whole execution of its call. -/
theorem exec_of_connected {config : ProxyConfig} {s : Store w} {ls : List (TaskLabel Stream)}
    {c : Tasks w Stream} (run : Run (Tasks.Step config) (Tasks.idle s) ls c) {i : Nat} {port : UInt16}
    {r : RoundRobin.Connected Stream} (spawned : .spawn i (.connectBackend port) ∈ ls)
    (returned : c.threads i = some (.ret (.connected r))) :
    Exec (SimpleCooldownHandler.stackConnectBackend config port) (Pool.traceOf i ls) r := by
  obtain ⟨call, spawned', steps⟩ := Pool.spawned_steps run rfl returned
  obtain rfl := Pool.spawn_once run spawned spawned'
  obtain ⟨r', tr₁, tr₂, split, whole, done⟩ := exec_bind.mp steps
  obtain ⟨rfl, same⟩ := exec_ret.mp done
  cases same
  rw [List.append_nil] at split
  rw [split]
  exact whole

end TcpProxy
