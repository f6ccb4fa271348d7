import TcpProxy.Proxy.Production

/-! # The program

`main.rs` and `RawConfig::load_from_file`: the stages of the start-up, the server they start,
and the exit code.  The task of `shutdown_signal` is the cancellation of the server's token
from outside; the log writer is left out. -/

namespace TcpProxy

open Effects Effects.Program Lts
open Server (AllBound EndedByCancellation)

variable {w : Nat} {Stream Listener : Type} {parse : String → Option SocketAddr}

/-- The arguments of the command line, with their defaults. -/
structure Args where
  config : String
  maxConnections : Nat := 10000
  maxQueue : Nat := 100
  bind : IpAddr := .v6 0 0 0 0 0 0 0 0
  copyBufferSize : Nat := 8 * 1024

/-- What `ProxyServer::new` and the balancer it gets are built from. -/
structure ServerArgs where
  config : ProxyConfig
  targets : TargetState
  maxConnections : Nat
  maxQueue : Nat
  bind : IpAddr
  copyBufferSize : Nat

/-- The arguments that `run` passes on. -/
def Args.server (args : Args) (config : ProxyConfig) (targets : TargetState) : ServerArgs where
  config := config
  targets := targets
  maxConnections := args.maxConnections
  maxQueue := args.maxQueue
  bind := args.bind
  copyBufferSize := args.copyBufferSize

def ServerArgs.start (server : ServerArgs) (clock : Instant) : Proxy w Stream :=
  .new server.config server.targets server.maxConnections server.maxQueue server.bind clock

inductive StartupOp where
  /-- `fs::read_to_string` -/
  | readToString (path : String)
  /-- `serde_json::from_str` -/
  | fromStr (content : String)
  /-- `hickory_resolver::Resolver::builder_tokio` -/
  | builderTokio
  /-- `build` of that builder -/
  | build
  /-- `ProxyServer::run` -/
  | run (server : ServerArgs)

abbrev Startup : Interface where
  Op := StartupOp
  Ans
    | .readToString _ => Except IoError String
    | .fromStr _ => Except String RawConfig
    | .builderTokio => Except NetError Unit
    | .build => Except NetError Unit
    | .run _ => Except ProxyError Unit

def RawConfig.loadFromFile (path : String) : Program Startup (Except ProxyError RawConfig) := do
  match ← perform (I := Startup) (.readToString path) with
  | .error e => return .error (.ioError e)
  | .ok content => do
    match ← perform (I := Startup) (.fromStr content) with
    | .error message => return .error (.jsonError message)
    | .ok config => return .ok config

namespace Main

def run (args : Args) : Program Startup (Except ProxyError Unit) := do
  match ← RawConfig.loadFromFile args.config with
  | .error e => return .error e
  | .ok rawConfig =>
    match ProxyConfig.tryFrom rawConfig with
    | .error e => return .error e
    | .ok config =>
      match TargetState.tryFrom rawConfig with
      | .error e => return .error e
      | .ok targets => do
        match ← perform (I := Startup) .builderTokio with
        | .error e => return .error (.ofNetError e)
        | .ok () => do
          match ← perform (I := Startup) .build with
          | .error e => return .error (.ofNetError e)
          | .ok () =>
            perform (I := Startup) (.run (args.server config targets))

inductive ExitCode where
  | success
  | failure
  deriving DecidableEq

/-- What `main` makes of the result of `run`; the error is only logged. -/
def exitCode : Except ProxyError Unit → ExitCode
  | .error _ => .failure
  | .ok () => .success

def main (args : Args) : Program Startup ExitCode := do
  return exitCode (← run args)

/-! ## Stage by stage -/

/-- The executions of `run`, exit by exit. -/
inductive Exit (args : Args) : List Startup.Event → Except ProxyError Unit → Prop
  | unreadable (io : IoError) : Exit args [⟨.readToString args.config, .error io⟩] (.error (.ioError io))
  | malformed (content message : String) :
      Exit args [⟨.readToString args.config, .ok content⟩, ⟨.fromStr content, .error message⟩]
        (.error (.jsonError message))
  | rejected (content : String) {raw : RawConfig} {e : ProxyError} : ProxyConfig.tryFrom raw = .error e →
      Exit args [⟨.readToString args.config, .ok content⟩, ⟨.fromStr content, .ok raw⟩] (.error e)
  | noBuilder (content : String) (raw : RawConfig) (e : NetError) :
      Exit args [⟨.readToString args.config, .ok content⟩, ⟨.fromStr content, .ok raw⟩,
        ⟨.builderTokio, .error e⟩] (.error (.ofNetError e))
  | notBuilt (content : String) (raw : RawConfig) (e : NetError) :
      Exit args [⟨.readToString args.config, .ok content⟩, ⟨.fromStr content, .ok raw⟩,
        ⟨.builderTokio, .ok ()⟩, ⟨.build, .error e⟩] (.error (.ofNetError e))
  | served (content : String) {raw : RawConfig} {config : ProxyConfig} {targets : TargetState}
      (r : Except ProxyError Unit) :
      ProxyConfig.tryFrom raw = .ok config → TargetState.tryFrom raw = .ok targets →
      Exit args [⟨.readToString args.config, .ok content⟩, ⟨.fromStr content, .ok raw⟩,
        ⟨.builderTokio, .ok ()⟩, ⟨.build, .ok ()⟩, ⟨.run (args.server config targets), r⟩] r

theorem run_exec {args : Args} {tr : List Startup.Event} {r : Except ProxyError Unit}
    (ran : Exec (run args) tr r) : Exit args tr r := by
  obtain ⟨a, rest, rfl, read⟩ := exec_ask.mp ran
  cases a with
  | error io =>
    obtain ⟨rfl, rfl⟩ := exec_ret.mp read
    exact .unreadable io
  | ok content =>
    obtain ⟨a, rest, rfl, parsed⟩ := exec_ask.mp read
    cases a with
    | error message =>
      obtain ⟨rfl, rfl⟩ := exec_ret.mp parsed
      exact .malformed content message
    | ok raw =>
      change Exec (match ProxyConfig.tryFrom raw with | .error e => _ | .ok config => _) rest r at parsed
      cases ingested : ProxyConfig.tryFrom raw with
      | error e =>
        rw [ingested] at parsed
        obtain ⟨rfl, rfl⟩ := exec_ret.mp parsed
        exact .rejected content ingested
      | ok config =>
        rw [ingested] at parsed
        obtain ⟨a, rest, rfl, builder⟩ := exec_ask.mp parsed
        cases a with
        | error e =>
          obtain ⟨rfl, rfl⟩ := exec_ret.mp builder
          exact .noBuilder content raw e
        | ok u =>
          obtain ⟨a, rest, rfl, built⟩ := exec_ask.mp builder
          cases a with
          | error e =>
            obtain ⟨rfl, rfl⟩ := exec_ret.mp built
            exact .notBuilt content raw e
          | ok u =>
            obtain rfl := exec_perform.mp built
            exact .served content r ingested rfl

/-! ## The exit code and the logged error -/

/-- Where the error that `main` logs comes from. -/
inductive Cause (args : Args) (tr : List Startup.Event) (es : List Server.Event) : ProxyError → Prop
  | unreadable {io : IoError} : ⟨.readToString args.config, .error io⟩ ∈ tr →
      Cause args tr es (.ioError io)
  | malformed {content message : String} : ⟨.fromStr content, .error message⟩ ∈ tr →
      Cause args tr es (.jsonError message)
  | duplicate {content : String} {raw : RawConfig} {port : UInt16} :
      ⟨.fromStr content, .ok raw⟩ ∈ tr → 2 ≤ (ProxyConfig.listedPorts raw.apps).count port →
      Cause args tr es (ProxyConfig.duplicatePort port)
  | resolver {e : NetError} : ⟨.builderTokio, .error e⟩ ∈ tr ∨ ⟨.build, .error e⟩ ∈ tr →
      Cause args tr es (.ofNetError e)
  | server {server : ServerArgs} {a : Except ProxyError Unit} {e : ProxyError} :
      ⟨.run server, a⟩ ∈ tr → Server.Failure server.config.ports server.bind es e → Cause args tr es e

/-- `es` is the run of the server that is started, up to its return. -/
def Hosts (w : Nat) (tr : List Startup.Event) (es : List (Proxy.Event Stream)) : Prop :=
  ∀ server a, ⟨.run server, a⟩ ∈ tr → ∃ clock, ∃ x : Proxy w Stream,
    Run (Proxy.Step server.config server.copyBufferSize) (server.start clock) es x ∧
      x.server.phase = .returned a

theorem event_produced {es : List (Proxy.Event Stream)} (produced : ∀ e ∈ es, e.Produced Listener parse) :
    ∀ e ∈ es.filterMap Proxy.Event.server?, Server.Event.Produced Stream Listener e := by
  intro e he
  obtain ⟨event, present, same⟩ := List.mem_filterMap.mp he
  have made := produced event present
  cases event with
  | server f | enter f client =>
    cases same
    exact made
  | act i f => cases same

theorem duplicate_of_rejected {raw : RawConfig} {e : ProxyError} (rejected : ProxyConfig.tryFrom raw = .error e) :
    ∃ port, e = ProxyConfig.duplicatePort port ∧ 2 ≤ (ProxyConfig.listedPorts raw.apps).count port := by
  obtain ⟨port, -, rfl, again⟩ := ProxyConfig.insertApps_error rejected
  exact ⟨port, rfl, List.duplicate_iff_two_le_count.mp (again.resolve_left (by simp))⟩

def oneConnection : Args := { config := "config.json", maxConnections := 1, maxQueue := 1, bind := localhostAddr }

def signalled : List (Proxy.Event Unit) :=
  listening.map .server ++ [.server .cancel, .server (.listen 0 .cancelled), .server (.listen 0 .drained),
    .server (.join 0), .server .ret]

def servedUntilSignal : List Startup.Event :=
  [⟨.readToString "config.json", .ok "one app"⟩, ⟨.fromStr "one app", .ok onePortRaw⟩, ⟨.builderTokio, .ok ()⟩,
    ⟨.build, .ok ()⟩, ⟨.run (oneConnection.server onePort onePortTargets), .ok ()⟩]

theorem servedUntilSignal_exec : Exec (run oneConnection) servedUntilSignal (.ok ()) :=
  .cons (.cons (.cons (.cons (.cons (.nil _)))))

theorem signalled_hosted : Hosts 64 servedUntilSignal signalled := by
  intro server a present
  obtain ⟨rfl, rfl⟩ : server = oneConnection.server onePort onePortTargets ∧ a = .ok () := by
    simp_all [servedUntilSignal]
  exact ⟨0, _, .cons (.server rfl rfl trivial) (.cons (.server rfl rfl trivial)
    (.cons (.server rfl rfl trivial) (.cons (.server rfl rfl trivial) (.cons (.server rfl rfl trivial)
    (.cons (.server rfl rfl trivial) (.cons (.server rfl rfl trivial) (.cons (.server rfl rfl trivial)
    (.cons (.server rfl rfl trivial) (.nil _))))))))), rfl⟩

theorem signalled_produced : ∀ e ∈ signalled, e.Produced Unit (fun _ => none) := by
  have bound : Server.Event.Produced Unit Unit (.bind (.ok ())) :=
    ⟨⟨localhostAddr, 80⟩, [⟨.bind ⟨localhostAddr, 80⟩, .ok ()⟩], .ok (), rfl, .cons (.nil _)⟩
  intro e he
  simp only [signalled, listening, List.map_cons, List.map_nil, List.cons_append, List.nil_append,
    List.mem_cons, List.not_mem_nil, or_false] at he
  rcases he with rfl | rfl | rfl | rfl | rfl | rfl | rfl | rfl | rfl
  · exact bound
  all_goals trivial

end Main

end TcpProxy
