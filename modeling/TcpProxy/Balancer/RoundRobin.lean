import TcpProxy.Balancer.Traits

/-! # The round-robin balancer

`balancer/roundrobin.rs`.  The two loops of `connect_backend` are `firstPass` and
`secondPass`, the address loop of `connect` is `connectAddrs`; each early `return`
of the source ends its recursion. -/

namespace TcpProxy.RoundRobin

open Effects Effects.Program

variable {Stream : Type}

/-- The result of `connect_backend`: a stream with the address it is connected to. -/
abbrev Connected (Stream : Type) := Except ProxyError (Stream × SocketAddr)

/-! ## One attempt -/

/-- The address loop of `connect`. -/
def connectAddrs (target : String) :
    List SocketAddr → Program (Balancer Stream) (ConnectAttempt (Stream × SocketAddr))
  | [] => do
    let _ ← perform (I := Balancer Stream) (.reportConnectionAttempt target .failure)
    return .tryNext
  | sockAddr :: sockAddrs => do
    match ← perform (I := Balancer Stream) (.connectAddr sockAddr) with
    | .ok (.ok stream) => do
      let _ ← perform (I := Balancer Stream) (.reportConnectionAttempt target .success)
      return .ready (stream, sockAddr)
    | .ok (.error _) => connectAddrs target sockAddrs
    | .error _ => connectAddrs target sockAddrs

/-- `RoundRobinBalancer::connect`; `_forPort` is only logged. -/
def connect (target : String) (_forPort : UInt16) :
    Program (Balancer Stream) (ConnectAttempt (Stream × SocketAddr)) := do
  match ← perform (I := Balancer Stream) (.lookupHost target) with
  | .ok ips => connectAddrs target ips
  | .error (.dnsNxError _) => do
    let _ ← perform (I := Balancer Stream) (.reportConnectionAttempt target .failure)
    return .tryNext
  | .error (.dnsTransientError _) => do
    let _ ← perform (I := Balancer Stream) (.reportConnectionAttempt target .failure)
    return .tryNext
  | .error e => return .fatal e

/-! ## Selection -/

/-- The position the loop looks at in iteration `i`. -/
def position (startIdx i len : Nat) : Nat := (startIdx + i) % len

/-- The loop over the cooling targets, and the error when nothing connected. -/
def secondPass (forPort : UInt16) : List String → Program (Select Stream) (Connected Stream)
  | [] => return .error (.connectionError forPort
      s!"Unable to connect to any backend for port {forPort}")
  | target :: cooling => do
    match ← perform (I := Select Stream) (.connect target forPort) with
    | .ready s => return .ok s
    | .tryNext => secondPass forPort cooling
    | .fatal e => return .error e

/-- The first loop, over the remaining iterations, with the targets found cooling so far. -/
def firstPass (backends : List String) (nonempty : 0 < backends.length) (startIdx : Nat)
    (forPort : UInt16) : List Nat → List String → Program (Select Stream) (Connected Stream)
  | [], cooling => secondPass forPort cooling
  | i :: rest, cooling =>
    let target := backends.get ⟨position startIdx i backends.length, Nat.mod_lt _ nonempty⟩
    let attempt : Program (Select Stream) (Connected Stream) := do
      match ← perform (I := Select Stream) (.connect target forPort) with
      | .ready s => return .ok s
      | .tryNext => firstPass backends nonempty startIdx forPort rest cooling
      | .fatal e => return .error e
    do
      match ← perform (I := Select Stream) (.getTargetStatus target) with
      | .error e => return .error e
      | .ok .drain => firstPass backends nonempty startIdx forPort rest cooling
      | .ok (.alive (some time)) => do
        let now ← perform (I := Select Stream) .now
        if time > now then
          firstPass backends nonempty startIdx forPort rest (cooling ++ [target])
        else attempt
      | .ok (.alive none) => attempt

/-- How a call goes on after an attempt, when `k` tries the next target. -/
def resume (k : Program (Select Stream) (Connected Stream)) :
    ConnectAttempt (Stream × SocketAddr) → Program (Select Stream) (Connected Stream)
  | .ready s => return .ok s
  | .tryNext => k
  | .fatal e => return .error e

theorem secondPass_cons (forPort : UInt16) (target : String) (cooling : List String) :
    (secondPass forPort (target :: cooling) : Program (Select Stream) (Connected Stream)) =
      perform (I := Select Stream) (.connect target forPort) >>= resume (secondPass forPort cooling) :=
  congrArg (perform (I := Select Stream) _ >>= ·) (funext fun out => by cases out <;> rfl)

/-- One iteration: the two ways of finding a target usable lead to the same attempt. -/
theorem firstPass_cons (backends : List String) (nonempty : 0 < backends.length) (startIdx : Nat)
    (forPort : UInt16) (i : Nat) (rest : List Nat) (cooling : List String) :
    (firstPass backends nonempty startIdx forPort (i :: rest) cooling :
        Program (Select Stream) (Connected Stream)) =
      let target := backends.get ⟨position startIdx i backends.length, Nat.mod_lt _ nonempty⟩
      let attempt := perform (I := Select Stream) (.connect target forPort) >>=
        resume (firstPass backends nonempty startIdx forPort rest cooling)
      (do
        match ← perform (I := Select Stream) (.getTargetStatus target) with
        | .error e => return .error e
        | .ok .drain => firstPass backends nonempty startIdx forPort rest cooling
        | .ok (.alive (some time)) => do
          let now ← perform (I := Select Stream) .now
          if time > now then
            firstPass backends nonempty startIdx forPort rest (cooling ++ [target])
          else attempt
        | .ok (.alive none) => attempt) := by
  have same : ∀ (op : Program (Select Stream) (ConnectAttempt (Stream × SocketAddr)))
      {f g : ConnectAttempt (Stream × SocketAddr) → Program (Select Stream) (Connected Stream)},
      (∀ out, f out = g out) → op >>= f = op >>= g :=
    fun op _ _ agree => congrArg (op >>= ·) (funext agree)
  rw [firstPass]
  refine congrArg (perform (I := Select Stream) _ >>= ·) (funext fun status => ?_)
  rcases status with e | (time | _)
  · rfl
  · cases time with
    | none => exact same _ fun out => by cases out <;> rfl
    | some time =>
      refine congrArg (perform (I := Select Stream) .now >>= ·) (funext fun now => ?_)
      refine if_congr Iff.rfl rfl (same _ fun out => ?_)
      cases out <;> rfl
  · rfl

/-- `LoadBalancer::connect_backend`, with `self.connect` as an operation. -/
def connectBackend (config : ProxyConfig) (forPort : UInt16) :
    Program (Select Stream) (Connected Stream) :=
  match config.getPool forPort with
  | none => return .error (.targetResolutionError forPort "No targets configured")
  | some backends =>
    if nonempty : 0 < backends.length then do
      match ← perform (I := Select Stream) (.fetchAdd forPort) with
      | some counter =>
        firstPass backends nonempty (counter % backends.length) forPort
          (List.range backends.length) []
      | none => return .error (.proxyStateError
          s!"Failed to load round robin counter for port {forPort}")
    else return .error (.targetResolutionError forPort
        s!"Empty backends list for port {forPort}")

/-- `self.connect` runs `connect`; everything else is asked of the trait objects. -/
def link : (op : SelectOp) → Program (Balancer Stream) ((Select Stream).Ans op)
  | .fetchAdd port => perform (I := Balancer Stream) (.fetchAdd port)
  | .getTargetStatus target => perform (I := Balancer Stream) (.getTargetStatus target)
  | .now => perform (I := Balancer Stream) .now
  | .connect target forPort => connect target forPort

/-- `connect_backend` of the generic balancer. -/
def linkedConnectBackend (config : ProxyConfig) (forPort : UInt16) :
    Program (Balancer Stream) (Connected Stream) :=
  interp link (connectBackend config forPort)

end TcpProxy.RoundRobin
