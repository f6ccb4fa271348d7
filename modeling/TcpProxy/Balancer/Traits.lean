import TcpProxy.Lib.Program
import TcpProxy.State

/-! # The traits the balancer is built from

`balancer/traits.rs` and `network/traits.rs` as interfaces of operations.  A program
over `Select` is `connect_backend` with `self.connect` still a call; over `Balancer`
it asks the trait objects (resolver, connector, cooldown handler) directly; over
`Stack` the cooldown handler is replaced by the atomic accesses of the production
one.  Logging is left out. -/

namespace TcpProxy

open Effects

inductive ConnectResult where
  | success
  | failure
  deriving DecidableEq, Repr

/-- How one attempt on a target ended. -/
inductive ConnectAttempt (S : Type) where
  | ready (s : S)
  | tryNext
  | fatal (e : ProxyError)

def ConnectAttempt.isFatal {S : Type} : ConnectAttempt S → Bool
  | .fatal _ => true
  | _ => false

/-- `tokio::time::error::Elapsed`. -/
inductive Elapsed where
  | elapsed

/-- What the connector answers under `timeout`. -/
abbrev TimedConnect (Stream : Type) := Except Elapsed (Except ProxyError Stream)

/-! ## `connect_backend` -/

inductive SelectOp where
  /-- `port_to_rr_counter.get(port)` and, when there is a counter, `fetch_add(1)`. -/
  | fetchAdd (port : UInt16)
  | getTargetStatus (target : String)
  /-- `Instant::now()`. -/
  | now
  /-- `self.connect(target, for_port)`. -/
  | connect (target : String) (forPort : UInt16)

abbrev Select (Stream : Type) : Interface where
  Op := SelectOp
  Ans
    | .fetchAdd _ => Option Nat
    | .getTargetStatus _ => Except ProxyError BackendStatus
    | .now => Instant
    | .connect _ _ => ConnectAttempt (Stream × SocketAddr)

/-! ## The generic balancer -/

inductive BalancerOp where
  | fetchAdd (port : UInt16)
  | getTargetStatus (target : String)
  | now
  /-- `Resolver::lookup_host`. -/
  | lookupHost (target : String)
  /-- `StreamConnector::connect` under `CONNECT_TIMEOUT`. -/
  | connectAddr (addr : SocketAddr)
  | reportConnectionAttempt (target : String) (result : ConnectResult)

/-- The operations that go to the resolver and the connector. -/
def BalancerOp.Network : BalancerOp → Prop
  | .lookupHost _ => True
  | .connectAddr _ => True
  | _ => False

abbrev Balancer (Stream : Type) : Interface where
  Op := BalancerOp
  Ans
    | .fetchAdd _ => Option Nat
    | .getTargetStatus _ => Except ProxyError BackendStatus
    | .now => Instant
    | .lookupHost _ => Except ProxyError (List SocketAddr)
    | .connectAddr _ => TimedConnect Stream
    | .reportConnectionAttempt _ _ => Except ProxyError Unit

/-! ## The production stack -/

inductive StackOp where
  | fetchAdd (port : UInt16)
  /-- The atomic load of `TargetState::get_target_status`. -/
  | load (target : String)
  /-- The atomic store of `TargetState::update_target_status`. -/
  | store (target : String) (status : BackendStatus)
  | now
  | lookupHost (target : String)
  | connectAddr (addr : SocketAddr)

def StackOp.Network : StackOp → Prop
  | .lookupHost _ => True
  | .connectAddr _ => True
  | _ => False

abbrev Stack (Stream : Type) : Interface where
  Op := StackOp
  Ans
    | .fetchAdd _ => Option Nat
    | .load _ => Except ProxyError BackendStatus
    | .store _ _ => Except ProxyError Unit
    | .now => Instant
    | .lookupHost _ => Except ProxyError (List SocketAddr)
    | .connectAddr _ => TimedConnect Stream

end TcpProxy
