import TcpProxy.Errors
import Mathlib.Data.List.Basic
import Std.Data.TreeMap

/-! # Configuration and backend status

`config.rs` and `state.rs`.  A `BTreeMap` is a `Std.TreeMap` (its keys come out in
ascending order); the status `HashMap` is only ever looked up, inserted into and
overwritten, so it is a partial function.  The status cells themselves are read and
written by the operations of `Balancer/Stack.lean`. -/

namespace TcpProxy

/-- `std::time::Instant`, in nanoseconds. -/
abbrev Instant := Nat

structure App where
  name : String
  ports : List UInt16
  targets : List String

structure RawConfig where
  apps : List App

/-- The status of a backend. Up if alive where `coolUntil` is none or some instant in the past.
    Cooling if `coolUntil` is in the future. Down if drain. -/
inductive BackendStatus where
  | alive (coolUntil : Option Instant)
  | drain
  deriving DecidableEq, Repr

structure ProxyConfig where
  targetPools : List (List String)
  portToPool : Std.TreeMap UInt16 Nat

/-- The status map: which targets have an entry, and the status stored in it. -/
structure TargetState where
  targetStatus : String → Option BackendStatus

namespace TargetState

/-- The status stored for `target`, as `get_target_status` loads it. -/
def getTargetStatus (s : TargetState) (target : String) : Except ProxyError BackendStatus :=
  match s.targetStatus target with
  | some status => .ok status
  | none => .error (.backendNotFound target)

/-- `update_target_status`: an existing entry is overwritten, an unknown target is an error. -/
def updateTargetStatus (s : TargetState) (target : String) (status : BackendStatus) :
    TargetState × Except ProxyError Unit :=
  match s.targetStatus target with
  | some _ => (⟨fun t => if t = target then some status else s.targetStatus t⟩, .ok ())
  | none => (s, .error (.backendNotFound target))

def insert (s : TargetState) (target : String) (status : BackendStatus) : TargetState :=
  ⟨fun t => if t = target then some status else s.targetStatus t⟩

/-- `TryFrom<&RawConfig> for TargetState`. -/
def tryFrom (raw : RawConfig) : Except ProxyError TargetState :=
  .ok (raw.apps.foldl
    (fun s app => app.targets.foldl (fun s target => s.insert target (.alive none)) s)
    ⟨fun _ => none⟩)

end TargetState

namespace ProxyConfig

/-- Get the set of backends for a given port. -/
def getPool (config : ProxyConfig) (port : UInt16) : Option (List String) := do
  let idx ← config.portToPool[port]?
  config.targetPools[idx]?

def ports (config : ProxyConfig) : List UInt16 := config.portToPool.keys

/-- The inner loop of `ProxyConfig::try_from`: the ports of one app all lead to the
    pool at index `idx`. -/
def insertPorts (idx : Nat) :
    List UInt16 → Std.TreeMap UInt16 Nat → Except ProxyError (Std.TreeMap UInt16 Nat)
  | [], portToPool => .ok portToPool
  | port :: ports, portToPool =>
    if portToPool.contains port then
      .error (.configIngestError s!"Duplicate port definition {port}")
    else insertPorts idx ports (portToPool.insert port idx)

/-- The outer loop of `ProxyConfig::try_from`. -/
def insertApps : List App → ProxyConfig → Except ProxyError ProxyConfig
  | [], config => .ok config
  | app :: apps, config => do
    let targetPools := config.targetPools ++ [app.targets]
    let portToPool ← insertPorts (targetPools.length - 1) app.ports config.portToPool
    insertApps apps ⟨targetPools, portToPool⟩

/-- `TryFrom<&RawConfig> for ProxyConfig`. -/
def tryFrom (raw : RawConfig) : Except ProxyError ProxyConfig :=
  insertApps raw.apps ⟨[], ∅⟩

end ProxyConfig

end TcpProxy
