import TcpProxy.Proxy.Forwarding
import Mathlib.Data.List.Sort

/-! # Configs that say the same

Of a config only the targets behind each port count: apps may be put in another order, split
up or merged, given other names, and an app without ports may be left out.  The proxies of
two such configs do the same, although their status maps need not have the same entries. -/

namespace TcpProxy

open Effects Effects.Program Lts SimpleCooldownHandler

variable {w : Nat} {Stream : Type}

/-- Some app has the port, and these targets. -/
def RawConfig.Leads (raw : RawConfig) (port : UInt16) (pool : List String) : Prop :=
  ∃ app ∈ raw.apps, port ∈ app.ports ∧ app.targets = pool

/-- The target is one of an app with ports. -/
def RawConfig.Reaches (raw : RawConfig) (target : String) : Prop :=
  ∃ port pool, raw.Leads port pool ∧ target ∈ pool

namespace ProxyConfig

variable {raw raw' : RawConfig} {config config' : ProxyConfig}

theorem getPool_eq_some_iff (accepted : tryFrom raw = .ok config) {port : UInt16} {pool : List String} :
    config.getPool port = some pool ↔ raw.Leads port pool := by
  constructor
  · exact exists_app_of_getPool accepted
  · rintro ⟨app, present, lists, rfl⟩
    exact getPool_of_lists accepted present lists

/-- A config is accepted exactly if no port is listed twice. -/
theorem accepted_iff : (∃ config, tryFrom raw = .ok config) ↔ (listedPorts raw.apps).Nodup := by
  constructor
  · rintro ⟨config, accepted⟩
    exact insertApps_nodup accepted
  · intro nodup
    cases result : tryFrom raw with
    | ok config => exact ⟨config, rfl⟩
    | error e =>
      obtain ⟨port, -, -, present | twice⟩ := insertApps_error result
      · simp at present
      · exact absurd nodup twice.not_nodup

variable (accepted : tryFrom raw = .ok config) (accepted' : tryFrom raw' = .ok config')
  (same : ∀ port pool, raw.Leads port pool ↔ raw'.Leads port pool)
include accepted accepted' same

theorem getPool_congr (port : UInt16) : config.getPool port = config'.getPool port := by
  ext pool
  rw [getPool_eq_some_iff accepted, getPool_eq_some_iff accepted', same]

theorem ports_congr : config.ports = config'.ports := by
  have led {raw : RawConfig} {config : ProxyConfig} (accepted : tryFrom raw = .ok config) (port : UInt16) :
      port ∈ config.ports ↔ ∃ pool, raw.Leads port pool := by
    rw [mem_ports_iff accepted]
    constructor
    · rintro ⟨app, present, lists⟩
      exact ⟨_, app, present, lists, rfl⟩
    · rintro ⟨_, app, present, lists, -⟩
      exact ⟨app, present, lists⟩
  refine (ports_ascending config).eq_of_mem_iff (ports_ascending config') fun port => ?_
  rw [led accepted, led accepted']
  exact exists_congr fun pool => same port pool

end ProxyConfig

/-! ## What `do_connection` takes from the config -/

theorem connectBackend_congr {config config' : ProxyConfig} {port : UInt16}
    (same : config.getPool port = config'.getPool port) :
    (stackConnectBackend config port : Program (Stack Stream) _) = stackConnectBackend config' port := by
  have selects : (RoundRobin.connectBackend config port : Program (Select Stream) _) =
      RoundRobin.connectBackend config' port := by
    unfold RoundRobin.connectBackend
    rw [same]
  rw [stackConnectBackend, stackConnectBackend, RoundRobin.linkedConnectBackend,
    RoundRobin.linkedConnectBackend, selects]

/-- An operation reads and writes only statuses of targets that are reached. -/
def Touches (reached : String → Prop) : (Forward Stream).Op → Prop
  | .inl (.load target) | .inl (.store target _) => reached target
  | _ => True

theorem touches_body {raw : RawConfig} {config : ProxyConfig} (accepted : ProxyConfig.tryFrom raw = .ok config)
    (copyBufSize : Nat) (client : Client) :
    Uses (Touches raw.Reaches) (Proxy.body config copyBufSize client : Program (Forward Stream) _) := by
  have connects : Uses (I := Stack Stream) ((Call.connectBackend client.port).MayAsk config)
      (stackConnectBackend config client.port) := uses_of_bind (Call.uses_body config _)
  refine uses_bind (uses_interp connects fun op asks => ⟨?_, fun _ => trivial⟩) fun r => ?_
  · have reached {target : String} (serves : (Call.connectBackend client.port).Serves config target) :
        raw.Reaches target := by
      obtain ⟨pool, found, listed⟩ := serves
      exact ⟨client.port, pool, (ProxyConfig.getPool_eq_some_iff accepted).mp found, listed⟩
    cases op with
    | load | store => exact reached asks
    | fetchAdd | now | lookupHost | connectAddr => trivial
  · cases r with
    | error e => trivial
    | ok s =>
      refine ⟨trivial, fun a => ?_⟩
      cases a with
      | error e => trivial
      | ok n => trivial

/-! ## Side by side -/

/-- The stores differ only in statuses of targets that are not reached. -/
structure Store.Alike (reached : String → Prop) (s t : Store w) : Prop where
  counters : s.counters = t.counters
  clock : s.clock = t.clock
  statuses : ∀ target, reached target → s.targets.targetStatus target = t.targets.targetStatus target

theorem Store.Alike.forwards {reached : String → Prop} {s t s' : Store w} (alike : s.Alike reached t)
    {e : (Forward Stream).Event} (touches : Touches reached e.op) (answered : s.Forwards e s') :
    ∃ t', t.Forwards e t' ∧ s'.Alike reached t' := by
  obtain ⟨op, a⟩ := e
  obtain ⟨counters, clock, statuses⟩ := alike
  rcases op with op | sock
  · cases op with
    | fetchAdd port =>
      obtain ⟨drawn, rfl⟩ := answered
      refine ⟨t.bump port, ⟨counters ▸ drawn, rfl⟩, ?_, clock, statuses⟩
      simp only [bump, counters]
    | load target =>
      obtain ⟨loaded, rfl⟩ := answered
      refine ⟨t, ⟨?_, rfl⟩, counters, clock, statuses⟩
      rw [loaded, TargetState.getTargetStatus, TargetState.getTargetStatus, statuses target touches]
    | store target status =>
      obtain ⟨stored, rfl⟩ := answered
      refine ⟨_, ⟨?_, rfl⟩, counters, clock, fun other listed => ?_⟩
      · rw [stored, TargetState.updateTargetStatus, TargetState.updateTargetStatus, statuses target touches]
        split
        next => rfl
        next => rfl
      · simp only [TargetState.updateTargetStatus, statuses target touches]
        split
        next => simp only [statuses other listed]
        next => exact statuses other listed
    | now =>
      obtain ⟨later, rfl⟩ := answered
      exact ⟨{ t with clock := a }, ⟨clock ▸ later, rfl⟩, counters, rfl, statuses⟩
    | lookupHost | connectAddr =>
      cases answered
      exact ⟨t, rfl, counters, clock, statuses⟩
  · cases answered
    exact ⟨t, rfl, counters, clock, statuses⟩

namespace Proxy

/-- The proxies differ only in statuses that no connection of the left one will touch. -/
structure Alike (reached : String → Prop) (x y : Proxy w Stream) : Prop where
  server : x.server = y.server
  threads : x.bodies.threads = y.bodies.threads
  store : x.bodies.store.Alike reached y.bodies.store
  touches : ∀ i p, x.bodies.threads i = some p → Uses (Touches reached) p

variable {raw raw' : RawConfig} {config config' : ProxyConfig} {copyBufSize : Nat}

theorem alike_step (accepted : ProxyConfig.tryFrom raw = .ok config)
    (bodies : ∀ client, (body config copyBufSize client : Program (Forward Stream) _) =
      body config' copyBufSize client)
    {x y x' : Proxy w Stream} {e : Event Stream} (alike : Alike raw.Reaches x y)
    (step : Step config copyBufSize x e x') :
    ∃ y', Step config' copyBufSize y e y' ∧ Alike raw.Reaches x' y' := by
  obtain ⟨server, store, threads⟩ := y
  obtain ⟨rfl, rfl, stores, touches⟩ := alike
  have updated {j : Nat} {q : Program (Forward Stream) (Except ProxyError Unit)}
      (uses : Uses (Touches raw.Reaches) q) : ∀ i p,
      Function.update x.bodies.threads j (some q) i = some p → Uses (Touches raw.Reaches) p := by
    intro i p running
    by_cases own : i = j
    · subst own
      rw [Function.update_self] at running
      cases running
      exact uses
    · rw [Function.update_of_ne own] at running
      exact touches i p running
  cases step with
  | server moved outside lets => exact ⟨_, .server moved outside lets, rfl, rfl, stores, touches⟩
  | @enter f t client moved enters at_port =>
    refine ⟨_, .enter moved enters at_port, rfl, ?_, stores, updated (touches_body accepted _ _)⟩
    rw [bodies]
  | @act i f after connecting acted =>
    cases acted with
    | @act _ op next a s running answered =>
      obtain ⟨allowed, later⟩ := touches i _ running
      obtain ⟨t, answered', alike⟩ := stores.forwards allowed answered
      exact ⟨_, .act connecting (.act running answered'), rfl, rfl, alike, updated (later a)⟩

end Proxy

/-- Of two configs that list the same ports, and lead each port to the same targets, both are
    accepted or none, and every run of the one proxy is one of the other, with the server, the
    connections and the status of each target of a port in the same state. -/
theorem same_config_same_runs {raw raw' : RawConfig}
    (ports : (ProxyConfig.listedPorts raw.apps).Perm (ProxyConfig.listedPorts raw'.apps))
    (same : ∀ port pool, raw.Leads port pool ↔ raw'.Leads port pool) {config : ProxyConfig}
    (accepted : ProxyConfig.tryFrom raw = .ok config) {targets targets' : TargetState}
    (fresh : TargetState.tryFrom raw = .ok targets) (fresh' : TargetState.tryFrom raw' = .ok targets') :
    ∃ config', ProxyConfig.tryFrom raw' = .ok config' ∧
      ∀ {C Q copyBufSize : Nat} {bindAddr : IpAddr} {clock : Instant} {es : List (Proxy.Event Stream)}
        {x : Proxy w Stream},
        Run (Proxy.Step config copyBufSize) (.new config targets C Q bindAddr clock) es x →
        ∃ x' : Proxy w Stream,
          Run (Proxy.Step config' copyBufSize) (.new config' targets' C Q bindAddr clock) es x' ∧
          x'.server = x.server ∧ (∀ i, x'.asks? i = x.asks? i) ∧ ∀ target, raw.Reaches target →
            x'.bodies.store.targets.targetStatus target = x.bodies.store.targets.targetStatus target := by
  have nodup : (ProxyConfig.listedPorts raw'.apps).Nodup :=
    ports.nodup_iff.mp (ProxyConfig.accepted_iff.mp ⟨config, accepted⟩)
  obtain ⟨config', accepted'⟩ := ProxyConfig.accepted_iff.mpr nodup
  refine ⟨config', accepted', ?_⟩
  intro C Q copyBufSize bindAddr clock es x run
  have bodies (client : Client) : (Proxy.body config copyBufSize client : Program (Forward Stream) _) =
      Proxy.body config' copyBufSize client := by
    rw [Proxy.body, Proxy.body, doConnection, doConnection,
      connectBackend_congr (ProxyConfig.getPool_congr accepted accepted' same client.port)]
  have start : Proxy.Alike raw.Reaches (.new config targets C Q bindAddr clock : Proxy w Stream)
      (.new config' targets' C Q bindAddr clock) := by
    have listed := ProxyConfig.ports_congr accepted accepted' same
    refine ⟨?_, rfl, ⟨?_, rfl, ?_⟩, nofun⟩
    · simp only [Proxy.new, Server.new, listed]
    · simp only [Proxy.new, Store.new, Store.newCounters, listed]
    · rintro target ⟨port, pool, leads, inside⟩
      obtain ⟨app', present', -, same_pool⟩ := (same port pool).mp leads
      obtain ⟨app, present, -, rfl⟩ := leads
      show targets.targetStatus target = targets'.targetStatus target
      rw [TargetState.tryFrom_status fresh, TargetState.tryFrom_status fresh', if_pos ⟨app, present, inside⟩,
        if_pos ⟨app', present', same_pool ▸ inside⟩]
  obtain ⟨es', x', run', ⟨rfl, alike⟩, -⟩ := run.simulated (M := Eq) rfl
    (fun before after => by rw [before, after])
    (fun alike step => by
      obtain ⟨y', step', alike'⟩ := Proxy.alike_step accepted bodies alike step
      exact ⟨_, y', .single step', rfl, alike'⟩) start
  refine ⟨x', run', alike.server.symm, fun i => ?_, fun target reached => ?_⟩
  · rw [Proxy.asks?, Proxy.asks?, alike.threads]
  · exact (alike.store.statuses target reached).symm

/-- `onePortRaw` with another name for its app, and an app without ports. -/
def onePortRenamed : RawConfig :=
  ⟨[⟨"spare", [], ["localhost:9090"]⟩, ⟨"www", [80], ["localhost:8080"]⟩]⟩

def onePortRenamedTargets : TargetState :=
  ⟨fun t => if t = "localhost:8080" then some (.alive none)
    else if t = "localhost:9090" then some (.alive none) else none⟩

theorem onePortRenamed_runs : ∃ config', ProxyConfig.tryFrom onePortRenamed = .ok config' ∧
    ∃ x' : Proxy 64 Unit,
      Run (Proxy.Step config' 1024) (.new config' onePortRenamedTargets 1 1 localhostAddr 0) forwarded x' := by
  have same : ∀ port pool, onePortRaw.Leads port pool ↔ onePortRenamed.Leads port pool := by
    intro port pool
    constructor
    · rintro ⟨app, present, lists, rfl⟩
      obtain rfl := List.mem_singleton.mp present
      exact ⟨⟨"www", [80], ["localhost:8080"]⟩, by simp [onePortRenamed], lists, rfl⟩
    · rintro ⟨app, present, lists, rfl⟩
      simp only [onePortRenamed, List.mem_cons, List.not_mem_nil, or_false] at present
      rcases present with rfl | rfl
      · cases lists
      · exact ⟨⟨"web", [80], ["localhost:8080"]⟩, List.mem_cons_self, lists, rfl⟩
  obtain ⟨config', accepted', runs⟩ := @same_config_same_runs 64 Unit onePortRaw onePortRenamed
    (List.Perm.refl [80]) same onePort rfl _ onePortRenamedTargets onePortTargets_loaded rfl
  obtain ⟨x, run, -⟩ := forwarded_run
  obtain ⟨x', run', -⟩ := runs run
  exact ⟨config', accepted', x', run'⟩

end TcpProxy
