import TcpProxy.State
import Mathlib.Data.List.Duplicate

/-! # What config ingestion builds

`ProxyConfig::try_from` and `TargetState::try_from` run separate loops over the same
apps.  The lemmas here say what each loop leaves behind: an accepted config leads
every listed port to the targets of the app that lists it, and every target of
every app has a status entry that starts out alive. -/

namespace TcpProxy

namespace ProxyConfig

/-- The inner loop succeeds only on fresh, distinct ports, and then exactly those
    ports lead to `idx`. -/
theorem insertPorts_ok {idx : Nat} {ports : List UInt16} {m m' : Std.TreeMap UInt16 Nat}
    (h : insertPorts idx ports m = .ok m') :
    (∀ p ∈ ports, p ∉ m) ∧ ∀ p, m'[p]? = if p ∈ ports then some idx else m[p]? := by
  induction ports generalizing m with
  | nil => cases h; simp
  | cons port ports ih =>
    simp only [insertPorts] at h
    split at h
    · cases h
    next fresh =>
      obtain ⟨hfresh, hget⟩ := ih h
      have hport : port ∉ m := by simpa [Std.TreeMap.contains_iff_mem] using fresh
      constructor
      · intro p hp
        rcases List.mem_cons.mp hp with rfl | hp
        · exact hport
        · have := hfresh p hp
          rw [Std.TreeMap.mem_insert] at this
          exact fun hm => this (.inr hm)
      · intro p
        rw [hget p, Std.TreeMap.getElem?_insert]
        by_cases hp : p ∈ ports
        · simp [hp]
        · by_cases heq : port = p
          · simp [heq]
          · have : p ≠ port := fun h => heq h.symm
            simp [hp, heq, this]

/-- The outer loop appends one pool per app, leads the ports of the `k`-th app to the
    `k`-th of these pools, and leaves every port that was already present alone. -/
theorem insertApps_ok {apps : List App} {c config : ProxyConfig}
    (h : insertApps apps c = .ok config) :
    config.targetPools = c.targetPools ++ apps.map (·.targets) ∧
    (∀ p, p ∈ c.portToPool → config.portToPool[p]? = c.portToPool[p]?) ∧
    (∀ app ∈ apps, ∀ p ∈ app.ports, p ∉ c.portToPool) ∧
    (∀ p, (∀ app ∈ apps, p ∉ app.ports) → config.portToPool[p]? = c.portToPool[p]?) ∧
    ∀ k app, apps[k]? = some app → ∀ p ∈ app.ports,
      config.portToPool[p]? = some (c.targetPools.length + k) := by
  induction apps generalizing c with
  | nil => cases h; simp
  | cons app apps ih =>
    simp only [insertApps, bind, Except.bind] at h
    split at h
    · cases h
    next m hm =>
      obtain ⟨hfresh, hget⟩ := insertPorts_ok hm
      obtain ⟨hpools, hkept, hnew, hother, hidx⟩ := ih h
      have hmem : ∀ p, p ∈ c.portToPool → p ∈ m := by
        intro p hp
        rw [Std.TreeMap.mem_iff_isSome_getElem?, hget p]
        split
        · rfl
        · rwa [← Std.TreeMap.mem_iff_isSome_getElem?]
      refine ⟨by simpa using hpools, ?_, ?_, ?_, ?_⟩
      · intro p hp
        rw [hkept p (hmem p hp), hget p, if_neg fun hin => hfresh p hin hp]
      · intro a ha p hp hc
        rcases List.mem_cons.mp ha with rfl | ha
        · exact hfresh p hp hc
        · exact hnew a ha p hp (hmem p hc)
      · intro p hp
        rw [hother p fun a ha => hp a (List.mem_cons_of_mem _ ha), hget p,
          if_neg (hp app List.mem_cons_self)]
      · intro k a hk p hp
        cases k with
        | zero =>
          obtain rfl : app = a := by simpa using hk
          have hin : p ∈ m := by
            rw [Std.TreeMap.mem_iff_isSome_getElem?, hget p, if_pos hp]; rfl
          rw [hkept p hin, hget p, if_pos hp]
          simp
        | succ k =>
          rw [hidx k a (by simpa using hk) p hp]
          simp only [List.length_append, List.length_cons, List.length_nil, Option.some.injEq]
          omega

/-! ## Rejected configurations -/

/-- The error for a port that is listed more than once. -/
def duplicatePort (port : UInt16) : ProxyError :=
  .configIngestError s!"Duplicate port definition {port}"

/-- The ports of all the apps, one after the other, repetitions included. -/
def listedPorts (apps : List App) : List UInt16 := apps.flatMap (·.ports)

theorem insertPorts_error {idx : Nat} {ports : List UInt16} {m : Std.TreeMap UInt16 Nat}
    {e : ProxyError} (h : insertPorts idx ports m = .error e) :
    ∃ port ∈ ports, e = duplicatePort port ∧ (port ∈ m ∨ ports.Duplicate port) := by
  induction ports generalizing m with
  | nil => cases h
  | cons port ports ih =>
    simp only [insertPorts] at h
    split at h
    next present =>
      cases h
      exact ⟨port, List.mem_cons_self, rfl, .inl (Std.TreeMap.contains_iff_mem.mp present)⟩
    · obtain ⟨p, member, rfl, again⟩ := ih h
      refine ⟨p, List.mem_cons_of_mem _ member, rfl, ?_⟩
      cases again with
      | inr later => exact .inr (later.duplicate_cons port)
      | inl earlier =>
        -- The port was in the map before, or this app has just listed it.
        cases Std.TreeMap.mem_insert.mp earlier with
        | inl now =>
          have same : port = p := by simpa using now
          subst same
          exact .inr member.duplicate_cons_self
        | inr before => exact .inl before

theorem insertPorts_nodup {idx : Nat} {ports : List UInt16} {m m' : Std.TreeMap UInt16 Nat}
    (h : insertPorts idx ports m = .ok m') : ports.Nodup := by
  induction ports generalizing m with
  | nil => exact List.nodup_nil
  | cons port ports ih =>
    simp only [insertPorts] at h
    split at h
    · cases h
    · refine List.nodup_cons.mpr ⟨fun member => ?_, ih h⟩
      apply (insertPorts_ok h).1 port member
      simp

theorem insertApps_error {apps : List App} {c : ProxyConfig} {e : ProxyError}
    (h : insertApps apps c = .error e) :
    ∃ port ∈ listedPorts apps, e = duplicatePort port ∧
      (port ∈ c.portToPool ∨ (listedPorts apps).Duplicate port) := by
  induction apps generalizing c with
  | nil => cases h
  | cons app apps ih =>
    simp only [insertApps, bind, Except.bind] at h
    simp only [listedPorts, List.flatMap_cons, List.mem_append]
    split at h
    next e' failed =>
      cases h
      obtain ⟨port, member, rfl, again⟩ := insertPorts_error failed
      refine ⟨port, .inl member, rfl, again.imp id fun twice => ?_⟩
      exact twice.mono_sublist (List.sublist_append_left _ _)
    next m hm =>
      obtain ⟨port, member, rfl, again⟩ := ih h
      refine ⟨port, .inr member, rfl, ?_⟩
      cases again with
      | inr later => exact .inr (later.mono_sublist (List.sublist_append_right _ _))
      | inl present =>
        rw [Std.TreeMap.mem_iff_isSome_getElem?, (insertPorts_ok hm).2 port] at present
        by_cases own : port ∈ app.ports
        · right
          apply List.duplicate_iff_sublist.mpr
          exact (List.singleton_sublist.mpr own).append (List.singleton_sublist.mpr member)
        · rw [if_neg own] at present
          exact .inl (Std.TreeMap.mem_iff_isSome_getElem?.mpr present)

theorem insertApps_nodup {apps : List App} {c config : ProxyConfig}
    (h : insertApps apps c = .ok config) : (listedPorts apps).Nodup := by
  induction apps generalizing c with
  | nil => exact List.nodup_nil
  | cons app apps ih =>
    simp only [insertApps, bind, Except.bind] at h
    split at h
    · cases h
    next m hm =>
      have fresh := (insertApps_ok h).2.2.1
      simp only [listedPorts, List.flatMap_cons]
      refine List.nodup_append'.mpr ⟨insertPorts_nodup hm, ih h, fun port own later => ?_⟩
      obtain ⟨other, member, listed⟩ := List.mem_flatMap.mp later
      apply fresh other member port listed
      rw [Std.TreeMap.mem_iff_isSome_getElem?, (insertPorts_ok hm).2 port, if_pos own]
      rfl

/-- The ports come out in ascending order. -/
theorem ports_ascending (config : ProxyConfig) : config.ports.Pairwise (· < ·) :=
  have keys : config.ports.Pairwise fun a b => compare a b = .lt := Std.TreeMap.ordered_keys
  keys.imp fun h => Std.compare_eq_lt.mp h

/-! ## Accepted configurations -/

section Accepted

variable {raw : RawConfig} {config : ProxyConfig} (accepted : tryFrom raw = .ok config)
include accepted

/-- Every port of an app leads to the targets of that app. -/
theorem getPool_of_lists {app : App} {port : UInt16} (happ : app ∈ raw.apps)
    (hport : port ∈ app.ports) : config.getPool port = some app.targets := by
  obtain ⟨hpools, -, -, -, hidx⟩ := insertApps_ok accepted
  obtain ⟨k, hk⟩ := List.getElem?_of_mem happ
  have hget := hidx k app hk port hport
  simp only [List.nil_append, List.length_nil, Nat.zero_add] at hpools hget
  simp [getPool, hget, hpools, hk]

/-- The ports are exactly those some app lists. -/
theorem mem_ports_iff {port : UInt16} :
    port ∈ config.ports ↔ ∃ app ∈ raw.apps, port ∈ app.ports := by
  obtain ⟨-, -, -, hother, hidx⟩ := insertApps_ok accepted
  simp only [ports, Std.TreeMap.mem_keys, Std.TreeMap.mem_iff_isSome_getElem?]
  constructor
  · intro h
    by_contra hnone
    push Not at hnone
    rw [hother port hnone] at h
    simp at h
  · rintro ⟨app, happ, hport⟩
    obtain ⟨k, hk⟩ := List.getElem?_of_mem happ
    rw [hidx k app hk port hport]
    rfl

/-- A configured pool is the target list of an app that lists the port. -/
theorem exists_app_of_getPool {port : UInt16} {pool : List String}
    (hpool : config.getPool port = some pool) :
    ∃ app ∈ raw.apps, port ∈ app.ports ∧ app.targets = pool := by
  have hmem : port ∈ config.ports := by
    simp only [ports, Std.TreeMap.mem_keys, Std.TreeMap.mem_iff_isSome_getElem?]
    simp only [getPool, Option.bind_eq_bind, Option.bind_eq_some_iff] at hpool
    obtain ⟨idx, hidx, -⟩ := hpool
    rw [hidx]; rfl
  obtain ⟨app, happ, hport⟩ := (mem_ports_iff accepted).mp hmem
  refine ⟨app, happ, hport, ?_⟩
  rw [getPool_of_lists accepted happ hport] at hpool
  exact Option.some.inj hpool

/-- No two apps list the same port. -/
theorem app_of_port_unique {port : UInt16} {i j : Nat} {app app' : App}
    (hi : raw.apps[i]? = some app) (hj : raw.apps[j]? = some app') (lists : port ∈ app.ports)
    (lists' : port ∈ app'.ports) : i = j := by
  obtain ⟨-, -, -, -, hidx⟩ := insertApps_ok accepted
  have same := (hidx i app hi port lists).symm.trans (hidx j app' hj port lists')
  simpa using same

end Accepted

/-- Ingestion is exact: it fails exactly when some port is listed more than once, and then
    names such a port. An accepted config has every listed port once, in ascending order, and
    nothing else, and leads each to the targets of the one app that lists it. -/
theorem tryFrom_exact (raw : RawConfig) :
    ((∃ message, tryFrom raw = .error (.configIngestError message)) ↔
      ∃ port, 2 ≤ (listedPorts raw.apps).count port) ∧
    (∀ e, tryFrom raw = .error e →
      ∃ port, e = duplicatePort port ∧ 2 ≤ (listedPorts raw.apps).count port) ∧
    ∀ config, tryFrom raw = .ok config →
      config.ports.Pairwise (· < ·) ∧
      (∀ port, port ∈ config.ports ↔ port ∈ listedPorts raw.apps) ∧
      (∀ port pool, config.getPool port = some pool ↔ ∃ (i : Nat) (app : App), raw.apps[i]? = some app ∧
        port ∈ app.ports ∧ pool = app.targets ∧
        ∀ (j : Nat) (app' : App), raw.apps[j]? = some app' → port ∈ app'.ports → j = i) ∧
      ∀ port, config.getPool port = none ↔ ∀ app ∈ raw.apps, port ∉ app.ports := by
  have rejected : ∀ e, tryFrom raw = .error e →
      ∃ port, e = duplicatePort port ∧ 2 ≤ (listedPorts raw.apps).count port := by
    intro e failed
    obtain ⟨port, -, rfl, again⟩ := insertApps_error failed
    refine ⟨port, rfl, List.duplicate_iff_two_le_count.mp (again.resolve_left ?_)⟩
    simp
  refine ⟨⟨fun failed => ?_, fun twice => ?_⟩, rejected, fun config accepted => ?_⟩
  · obtain ⟨message, failed⟩ := failed
    obtain ⟨port, -, twice⟩ := rejected _ failed
    exact ⟨port, twice⟩
  · obtain ⟨port, twice⟩ := twice
    cases result : tryFrom raw with
    | ok config =>
      have nodup := insertApps_nodup result
      exact absurd nodup (List.duplicate_iff_two_le_count.mpr twice).not_nodup
    | error e =>
      obtain ⟨p, rfl, -⟩ := rejected e result
      exact ⟨_, rfl⟩
  · have listed : ∀ port, port ∈ listedPorts raw.apps ↔ ∃ app ∈ raw.apps, port ∈ app.ports :=
      fun port => List.mem_flatMap
    refine ⟨ports_ascending config, fun port => ?_, fun port pool => ⟨fun hpool => ?_, fun one => ?_⟩,
      fun port => ⟨fun absent app member lists => ?_, fun unlisted => ?_⟩⟩
    · rw [mem_ports_iff accepted, listed]
    · obtain ⟨app, member, lists, rfl⟩ := exists_app_of_getPool accepted hpool
      obtain ⟨i, hi⟩ := List.getElem?_of_mem member
      exact ⟨i, app, hi, lists, rfl, fun j app' hj lists' =>
        app_of_port_unique accepted hj hi lists' lists⟩
    · obtain ⟨i, app, hi, lists, rfl, -⟩ := one
      exact getPool_of_lists accepted (List.mem_of_getElem? hi) lists
    · rw [getPool_of_lists accepted member lists] at absent
      cases absent
    · cases hpool : config.getPool port with
      | none => rfl
      | some pool =>
        obtain ⟨app, member, lists, -⟩ := exists_app_of_getPool accepted hpool
        exact absurd lists (unlisted app member)

end ProxyConfig

namespace TargetState

theorem foldl_insert (targets : List String) (s : TargetState) (t : String) :
    (targets.foldl (fun s target => s.insert target (.alive none)) s).targetStatus t =
      if t ∈ targets then some (.alive none) else s.targetStatus t := by
  induction targets generalizing s with
  | nil => simp
  | cons target targets ih =>
    rw [List.foldl_cons, ih]
    by_cases ht : t ∈ targets
    · simp [ht]
    · by_cases heq : t = target <;> simp [insert, ht, heq]

/-- Every target of every app starts out alive, and nothing else has an entry. -/
theorem tryFrom_status {raw : RawConfig} {s : TargetState} (h : tryFrom raw = .ok s) (t : String) :
    s.targetStatus t =
      if ∃ app ∈ raw.apps, t ∈ app.targets then some (.alive none) else none := by
  have general : ∀ (apps : List App) (s : TargetState),
      (apps.foldl (fun s app => app.targets.foldl
        (fun s target => s.insert target (.alive none)) s) s).targetStatus t =
        if ∃ app ∈ apps, t ∈ app.targets then some (.alive none) else s.targetStatus t := by
    intro apps
    induction apps with
    | nil => intro s; simp
    | cons app apps ih =>
      intro s
      rw [List.foldl_cons, ih, foldl_insert]
      by_cases hrest : ∃ app ∈ apps, t ∈ app.targets
      · obtain ⟨a, ha, hta⟩ := hrest
        rw [if_pos ⟨a, ha, hta⟩, if_pos ⟨a, List.mem_cons_of_mem _ ha, hta⟩]
      · simp [hrest]
  cases h
  exact general raw.apps ⟨fun _ => none⟩

end TargetState

end TcpProxy
