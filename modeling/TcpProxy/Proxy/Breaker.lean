import TcpProxy.Balancer.Breaker
import TcpProxy.Proxy.Availability
import TcpProxy.Proxy.Recovery

/-! # The cooldown as a circuit breaker

While a target is on cooldown and its apps have a target that is up, no connection begins to
try it: the only attempts are those of connections that had checked it before the cooldown
was stored, and these are at most as many as there are open permits. -/

namespace TcpProxy

open Effects Effects.Program Lts SimpleCooldownHandler

variable {w : Nat} {Stream : Type}

/-- Where a list is cut in two, an element with what follows it lies in the second part, or it
    lies in the first and the second part is an end of what follows. -/
theorem cut_at {α : Type} {left right before tail : List α} {a : α}
    (same : left ++ right = before ++ a :: tail) : a :: tail <:+ right ∨ a ∈ left ∧ right <:+ tail := by
  rcases List.append_eq_append_iff.mp same with ⟨as, rfl, rfl⟩ | ⟨as, rfl, later⟩
  · exact .inl (List.suffix_append as _)
  · cases as with
    | nil =>
      rw [List.nil_append] at later
      exact .inl ⟨[], later⟩
    | cons b as =>
      obtain ⟨rfl, rfl⟩ := List.cons.inj later
      exact .inr ⟨by simp, List.suffix_append as right⟩

/-- Different positions of a list whose elements satisfy `p` are at most as many as these. -/
theorem length_le_countP {α : Type} {p : α → Bool} (l : List α) {is : List Nat} (nodup : is.Nodup)
    (all : ∀ i ∈ is, ∃ a, l[i]? = some a ∧ p a = true) : is.length ≤ l.countP p := by
  induction l using List.reverseRecOn generalizing is with
  | nil =>
    cases is with
    | nil => exact Nat.zero_le _
    | cons i is =>
      obtain ⟨a, found, -⟩ := all i List.mem_cons_self
      cases found
  | append_singleton l a ih =>
    have inside (i : Nat) (h : i ∈ is) (other : i ≠ l.length) : ∃ a, l[i]? = some a ∧ p a = true := by
      obtain ⟨b, found, holds⟩ := all i h
      have bound := (List.getElem?_eq_some_iff.mp found).1
      rw [List.length_append, List.length_singleton] at bound
      exact ⟨b, by rwa [List.getElem?_append_left (by omega)] at found, holds⟩
    rw [List.countP_append, List.countP_singleton]
    by_cases last : l.length ∈ is
    · obtain ⟨b, found, holds⟩ := all _ last
      rw [List.getElem?_concat_length] at found
      cases found
      have fewer := ih (nodup.erase l.length) fun i h => inside i (List.mem_of_mem_erase h) fun same =>
        (nodup.mem_erase_iff.mp h).1 same
      rw [List.length_erase_of_mem last] at fewer
      simp only [holds, if_true]
      omega
    · have fewer := ih nodup fun i h => inside i h fun same => last (same ▸ h)
      omega

/-- What is selected from a list has no duplicates, if nothing is selected a second time. -/
theorem nodup_filterMap {α β : Type} {f : α → Option β} (l : List α)
    (new : ∀ {done rest e b}, l = done ++ e :: rest → f e = some b → b ∉ done.filterMap f) :
    (l.filterMap f).Nodup := by
  induction l using List.reverseRecOn with
  | nil => exact List.nodup_nil
  | append_singleton l a ih =>
    have before : (l.filterMap f).Nodup := ih fun split selected =>
      new (by rw [split, List.append_assoc, List.cons_append]) selected
    rw [List.filterMap_append]
    cases selected : f a with
    | none => simpa [selected] using before
    | some b =>
      have absent := new rfl selected
      rw [List.filterMap_cons_some selected, List.filterMap_nil]
      exact List.nodup_append'.mpr ⟨before, List.nodup_singleton b, fun c earlier last =>
        absent (List.mem_singleton.mp last ▸ earlier)⟩

namespace Proxy

variable {raw : RawConfig} {config : ProxyConfig} {targets : TargetState} {C Q copyBufSize : Nat}
  {bindAddr : IpAddr} {clock : Instant} {es later : List (Event Stream)} {x y : Proxy w Stream} {i : Nat}
  {target : String} {addr : SocketAddr} {u : Instant}

/-- A connection comes to an attempt on a target of its app in two ways. -/
theorem before_lookup (accepted : ProxyConfig.tryFrom raw = .ok config)
    (run : Run (Step config copyBufSize) (new config targets C Q bindAddr clock) es x)
    {a : Except ProxyError (List SocketAddr)}
    (step : Step config copyBufSize x (.act i ⟨.inl (.lookupHost target), a⟩) y) :
    ∃ app ∈ raw.apps, target ∈ app.targets ∧
      (LoadedUsable target (asked i es) ∨ ∀ t ∈ app.targets, Skipped t (asked i es)) := by
  obtain ⟨c, d, calls, moved, -⟩ := calls_step run step
  cases moved with
  | act running answered =>
    obtain ⟨call, spawned, steps⟩ := Pool.spawned_steps calls rfl running
    obtain ⟨e, port, rfl, entered⟩ := entered_of_call spawned
    have served := Server.portOf?_mem (server_run run) (port_of_enter run entered)
    obtain ⟨app, present, lists⟩ := (ProxyConfig.mem_ports_iff accepted).mp served
    have hpool := ProxyConfig.getPool_of_lists accepted present lists
    rcases steps_bind steps with ⟨op, next, inside, same⟩ | ⟨r, tr, rest, -, -, past⟩
    · cases same
      have routed := ((stackConnectBackend_routed hpool).steps inside fun _ _ => trivial).1.1
      exact ⟨app, present, routed _ rfl, before_attempt hpool inside⟩
    · cases past

/-- A target that is up is not skipped. -/
theorem not_skipped (fresh : TargetState.tryFrom raw = .ok targets)
    (run : Run (Step config copyBufSize) (new config targets C Q bindAddr clock) es x)
    (up : ∀ e ∈ es, e.Upholds target addr) : ¬ Skipped target (asked i es) := by
  intro skipped
  cases skipped with
  | passed passed =>
    rcases passed with drained | in_vain
    · exact not_drained fresh run drained
    · exact (reachable_asked fun a h => up _ h).not_inVain in_vain
  | cooling loaded =>
    rcases loaded_earned run loaded with initial | ⟨j, tr, old, earned⟩
    · rw [TargetState.tryFrom_status fresh target] at initial
      split at initial
      next => cases initial
      next => cases initial
    · have seen : Reachable target addr (asked j es) := reachable_asked fun a h => up _ h
      cases earned with
      | cooldown failed =>
        exact seen.not_failed (fun e h => old.subset (List.mem_append_left _ h)) failed

section Window

variable (run : Run (Step config copyBufSize) (new config targets C Q bindAddr clock) es x)
  (more : Run (Step config copyBufSize) x later y)
  (open_ : x.bodies.store.targets.targetStatus target = some (.alive (some u)))
  (kept : ∀ i status a, .act i ⟨.inl (.store target status), a⟩ ∉ later) (early : y.bodies.store.clock < u)
include run more open_ kept

/-- A check in the window finds the cooldown. -/
theorem loaded_in_window {status : BackendStatus} (loaded : ⟨.load target, .ok status⟩ ∈ asked i later) :
    status = .alive (some u) := by
  obtain ⟨pre, post, v, z, rfl, before, step, -⟩ := more.mem_step (mem_asked.mp (Pool.mem_traceOf.mp loaded))
  have same := targetStatus_kept run before fun j status a h => kept j status a (List.mem_append_left _ h)
  rw [stored_of_load step, open_] at same
  exact Option.some.inj same

include early in
/-- So a connection that has just found the target usable checked it before, and it has tried
    nothing since. -/
theorem usable_in_window (usable : LoadedUsable target (asked i (es ++ later))) :
    (∃ status, ⟨.load target, .ok status⟩ ∈ asked i es) ∧
      ∀ a, ⟨.lookupHost target, a⟩ ∉ asked i later := by
  have in_window {status : BackendStatus} (h : ⟨.load target, .ok status⟩ ∈ asked i later) :=
    loaded_in_window run more open_ kept h
  have read_early {reading : Instant} (h : ⟨.now, reading⟩ ∈ asked i later) : reading < u := by
    have both : ⟨.now, reading⟩ ∈ asked i (es ++ later) := by
      rw [asked_append]
      exact List.mem_append_right _ h
    exact Nat.lt_of_le_of_lt (reading_le (run.append more) both) early
  generalize seen : asked i (es ++ later) = tr at usable
  rw [asked_append] at seen
  cases usable with
  | alive =>
    rcases cut_at seen with here | ⟨before, rest⟩
    · cases in_window (here.subset List.mem_cons_self)
    · refine ⟨⟨_, before⟩, fun a h => ?_⟩
      cases rest.subset h
  | expired past =>
    rcases cut_at seen with here | ⟨before, rest⟩
    · cases in_window (here.subset List.mem_cons_self)
      have reading_early := read_early (here.subset (List.mem_cons_of_mem _ List.mem_cons_self))
      exact absurd past (Nat.not_le_of_lt reading_early)
    · refine ⟨⟨_, before⟩, fun a h => ?_⟩
      cases List.mem_singleton.mp (rest.subset h)

end Window

/-- A connection that has acted before, and acts later, is in `do_connection` in between. -/
theorem connecting_between (run : Run (Step config copyBufSize) (new config targets C Q bindAddr clock) es x)
    {e : (Forward Stream).Event} (acted : .act i e ∈ es) (more : Run (Step config copyBufSize) x later y)
    (connecting : y.phase? i = some .connecting) : x.phase? i = some .connecting := by
  have start : Orderly C Q (new config targets C Q bindAddr clock : Proxy w Stream) :=
    ⟨synced_new config targets C Q bindAddr clock, Server.owned_new config C Q bindAddr⟩
  have orderly {z : Proxy w Stream} {done : List (Event Stream)}
      (reach : Run (Step config copyBufSize) (new config targets C Q bindAddr clock) done z) : Orderly C Q z :=
    reach.invariant (I := Orderly C Q) start fun _ _ _ => orderly_step
  obtain ⟨pre, post, v, z, rfl, before, step, rest⟩ := run.mem_step acted
  have began : ∃ p, v.phase? i = some p ∧ p.begun = true := ⟨_, (asks_of_act step).2, rfl⟩
  have still := (Run.cons step rest).invariant
    (I := fun z => Orderly C Q z ∧ ∃ p, z.phase? i = some p ∧ p.begun = true) ⟨orderly before, began⟩
    fun _ _ _ ok moved => ⟨orderly_step ok.1 moved, begun_step ok.1 ok.2 moved⟩
  obtain ⟨-, p, here, begun⟩ := still
  cases p with
  | connecting => exact here
  | accepted | queued | waiting | assigned | admitted => cases begun
  | finished r =>
    have past := more.invariant (I := fun z => Orderly C Q z ∧ z.phase? i = some (.finished r))
      ⟨orderly run, here⟩ fun _ _ _ ok moved => ⟨orderly_step ok.1 moved, finished_step ok.1.synced ok.2 moved⟩
    rw [past.2] at connecting
    cases connecting

/-- The connection that looks the target up with this event. -/
def Event.tries? (target : String) : Event Stream → Option Nat
  | .act i ⟨.inl (.lookupHost t), _⟩ => if t = target then some i else none
  | _ => none

theorem tries?_some {e : Event Stream} (h : e.tries? target = some i) :
    ∃ a, e = .act i ⟨.inl (.lookupHost target), a⟩ := by
  unfold Event.tries? at h
  split at h
  next j t a =>
    split at h
    next same =>
      cases h
      subst same
      exact ⟨a, rfl⟩
    next => cases h
  next => cases h

end Proxy

def twoTargetsRaw : RawConfig := ⟨[⟨"web", [80], ["localhost:8080", "localhost:9090"]⟩]⟩

def twoTargets : ProxyConfig :=
  ⟨[["localhost:8080", "localhost:9090"]], (∅ : Std.TreeMap UInt16 Nat).insert 80 0⟩

def twoTargetsState : TargetState :=
  ⟨fun target => if target = "localhost:9090" then some (.alive none)
    else if target = "localhost:8080" then some (.alive none) else none⟩

def threeClients : List (Proxy.Event Unit) :=
  listening.map .server ++
    [.server (.listen 0 (.accept (.ok ()))), .enter (.poll 0) ⟨80, 0⟩, .server (.listen 0 .reaped),
      .server (.listen 0 (.accept (.ok ()))), .enter (.poll 1) ⟨80, 1⟩, .server (.listen 0 .reaped),
      .server (.listen 0 (.accept (.ok ()))), .enter (.poll 2) ⟨80, 2⟩,
      .act 0 ⟨.inl (.fetchAdd 80), some 0⟩, .act 1 ⟨.inl (.fetchAdd 80), some 1⟩,
      .act 2 ⟨.inl (.fetchAdd 80), some 2⟩]

def firstDown : List (Proxy.Event Unit) :=
  threeClients ++
    [.act 0 ⟨.inl (.load "localhost:8080"), .ok (.alive none)⟩,
      .act 2 ⟨.inl (.load "localhost:8080"), .ok (.alive none)⟩,
      .act 0 ⟨.inl (.lookupHost "localhost:8080"), .error (.dnsNxError "no such host")⟩,
      .act 0 ⟨.inl (.load "localhost:8080"), .ok (.alive none)⟩, .act 0 ⟨.inl .now, (5 : Instant)⟩,
      .act 0 ⟨.inl .now, (7 : Instant)⟩,
      .act 0 ⟨.inl (.store "localhost:8080" (.alive (some (7 + COOLDOWN)))), .ok ()⟩]

def stillTried : List (Proxy.Event Unit) :=
  [.act 2 ⟨.inl (.lookupHost "localhost:8080"), .error (.dnsNxError "no such host")⟩]

theorem firstDown_run : ∃ x y : Proxy 64 Unit,
    Run (Proxy.Step twoTargets 1024) (.new twoTargets twoTargetsState 3 0 localhostAddr 0) firstDown x ∧
    Run (Proxy.Step twoTargets 1024) x stillTried y ∧
    x.bodies.store.targets.targetStatus "localhost:8080" = some (.alive (some (7 + COOLDOWN))) ∧
    y.bodies.store.clock < 7 + COOLDOWN := by
  refine ⟨_, _, .cons (.server rfl rfl trivial) (.cons (.server rfl rfl trivial)
    (.cons (.server rfl rfl trivial) (.cons (.server rfl rfl trivial) (.cons (.server rfl rfl trivial)
    (.cons (.enter rfl rfl rfl) (.cons (.server rfl rfl trivial) (.cons (.server rfl rfl trivial)
    (.cons (.enter rfl rfl rfl) (.cons (.server rfl rfl trivial) (.cons (.server rfl rfl trivial)
    (.cons (.enter rfl rfl rfl) (.cons (.act rfl (.act rfl ⟨rfl, rfl⟩))
    (.cons (.act rfl (.act rfl ⟨rfl, rfl⟩)) (.cons (.act rfl (.act rfl ⟨rfl, rfl⟩))
    (.cons (.act rfl (.act rfl ⟨rfl, rfl⟩)) (.cons (.act rfl (.act rfl ⟨rfl, rfl⟩))
    (.cons (.act rfl (.act rfl rfl)) (.cons (.act rfl (.act rfl ⟨rfl, rfl⟩))
    (.cons (.act rfl (.act rfl ⟨by decide, rfl⟩)) (.cons (.act rfl (.act rfl ⟨by decide, rfl⟩))
    (.cons (.act rfl (.act rfl ⟨rfl, rfl⟩)) (.nil _)))))))))))))))))))))),
    .single (.act rfl (.act rfl rfl)), rfl, ?_⟩
  show (7 : Nat) < 7 + COOLDOWN
  decide

end TcpProxy
