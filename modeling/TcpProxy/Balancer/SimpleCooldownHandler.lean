import TcpProxy.Balancer.RoundRobin

/-! # The production cooldown handler

`balancer/simplecooldownhandler.rs`, down to its atomic loads, clock readings and
stores, and the balancer built on it. -/

namespace TcpProxy.SimpleCooldownHandler

open Effects Effects.Program

variable {Stream : Type}

/-- `Duration::from_secs(120)`, in nanoseconds. -/
def COOLDOWN : Nat := 120 * 10 ^ 9

def getTargetStatus (target : String) :
    Program (Stack Stream) (Except ProxyError BackendStatus) :=
  perform (I := Stack Stream) (.load target)

/-- Update cooldown on failure unless the target is drained. Remove a cooldown if we connected
    successfully during one. -/
def reportConnectionAttempt (target : String) (result : ConnectResult) :
    Program (Stack Stream) (Except ProxyError Unit) := do
  match ← getTargetStatus target with
  | .error e => return .error e
  | .ok .drain => return .ok ()
  | .ok (.alive coolUntil) => do
    let now ← perform (I := Stack Stream) .now
    if result = .failure then do
      -- The cooldown is counted from a second reading of the clock.
      let later ← perform (I := Stack Stream) .now
      perform (I := Stack Stream) (.store target (.alive (some (later + COOLDOWN))))
    else
      match coolUntil with
      | none => return .ok ()
      | some until_ =>
        if until_ > now then
          perform (I := Stack Stream) (.store target (.alive none))
        else return .ok ()

def drain (target : String) : Program (Stack Stream) (Except ProxyError Unit) :=
  perform (I := Stack Stream) (.store target .drain)

/-- The trait calls of the balancer, carried out by this handler. -/
def handle : (op : BalancerOp) → Program (Stack Stream) ((Balancer Stream).Ans op)
  | .fetchAdd port => perform (I := Stack Stream) (.fetchAdd port)
  | .getTargetStatus target => getTargetStatus target
  | .now => perform (I := Stack Stream) .now
  | .lookupHost target => perform (I := Stack Stream) (.lookupHost target)
  | .connectAddr addr => perform (I := Stack Stream) (.connectAddr addr)
  | .reportConnectionAttempt target result => reportConnectionAttempt target result

/-- `connect_backend` of the production stack. -/
def stackConnectBackend (config : ProxyConfig) (forPort : UInt16) :
    Program (Stack Stream) (RoundRobin.Connected Stream) :=
  interp handle (RoundRobin.linkedConnectBackend config forPort)

/-- An operation of `connect_backend`, carried out by the production stack. -/
def carry (op : SelectOp) : Program (Stack Stream) ((Select Stream).Ans op) :=
  interp handle (RoundRobin.link op)

theorem stackConnectBackend_eq (config : ProxyConfig) (forPort : UInt16) :
    (stackConnectBackend config forPort : Program (Stack Stream) (RoundRobin.Connected Stream)) =
      interp carry (RoundRobin.connectBackend config forPort) :=
  interp_interp _ _ _

/-! ## What one report does -/

/-- The executions of `report_connection_attempt`, exit by exit. -/
inductive Report (target : String) :
    ConnectResult → List (Stack Stream).Event → Except ProxyError Unit → Prop
  | missing {result : ConnectResult} (e : ProxyError) :
      Report target result [⟨.load target, .error e⟩] (.error e)
  | drained {result : ConnectResult} : Report target result [⟨.load target, .ok .drain⟩] (.ok ())
  | cooled (coolUntil : Option Instant) (now later : Instant) (a : Except ProxyError Unit) :
      Report target .failure
        [⟨.load target, .ok (.alive coolUntil)⟩, ⟨.now, now⟩, ⟨.now, later⟩,
          ⟨.store target (.alive (some (later + COOLDOWN))), a⟩] a
  | kept {coolUntil : Option Instant} {now : Instant} : (∀ u, coolUntil = some u → ¬ u > now) →
      Report target .success [⟨.load target, .ok (.alive coolUntil)⟩, ⟨.now, now⟩] (.ok ())
  | cleared {u now : Instant} (a : Except ProxyError Unit) : u > now →
      Report target .success
        [⟨.load target, .ok (.alive (some u))⟩, ⟨.now, now⟩, ⟨.store target (.alive none), a⟩] a

theorem reportConnectionAttempt_exec {target : String} {result : ConnectResult}
    {tr : List (Stack Stream).Event} {out : Except ProxyError Unit}
    (run : Exec (reportConnectionAttempt target result) tr out) : Report target result tr out := by
  obtain ⟨status, tail, rfl, cont⟩ := exec_ask.mp run
  rcases status with e | (coolUntil | _)
  · obtain ⟨rfl, rfl⟩ := exec_ret.mp cont
    exact .missing e
  · obtain ⟨now, rest, rfl, compared⟩ := exec_ask.mp cont
    cases result with
    | failure =>
      obtain ⟨later, stored, rfl, storing⟩ := exec_ask.mp compared
      obtain rfl := exec_perform.mp storing
      exact .cooled coolUntil now later out
    | success =>
      cases coolUntil with
      | none =>
        obtain ⟨rfl, rfl⟩ := exec_ret.mp compared
        exact .kept nofun
      | some u =>
        change Exec (if u > now then _ else _) rest out at compared
        by_cases later : u > now
        · rw [if_pos later] at compared
          obtain rfl := exec_perform.mp compared
          exact .cleared out later
        · rw [if_neg later] at compared
          obtain ⟨rfl, rfl⟩ := exec_ret.mp compared
          refine .kept fun v hv => ?_
          rw [← Option.some.inj hv]
          exact later
  · obtain ⟨rfl, rfl⟩ := exec_ret.mp cont
    exact .drained

end TcpProxy.SimpleCooldownHandler
