import TcpProxy.Balancer.Concurrent
import TcpProxy.Balancer.Selection

/-! # Load distribution

A window of `n` calls on a pool of `n` targets starts once at every position.  When some
positions end every call that reaches them and the others are passed over, each of the
former ends as many calls as the arc of passed-over positions before it is long, plus one. -/

namespace TcpProxy

open Effects Effects.Program Effects.Pool Lts RoundRobin Cyclic SimpleCooldownHandler

variable {w : Nat} {Stream : Type}

/-- How a position stands throughout a window of calls. -/
inductive Standing where
  | connectable
  | fatal
  | passedOver
  deriving DecidableEq

namespace Standing

/-- What the status checks of a position observe. A position that is passed over may be
    drained, may be cooling, or may fail whenever it is attempted. -/
def Checked : Standing → Observation → Prop
  | .passedOver, o => ∀ e, o ≠ .failed e
  | _, o => o = .usable

/-- How the attempts on a position end. -/
def Attempted : Standing → ConnectAttempt (Stream × SocketAddr) → Prop
  | .connectable, out => ∃ s, out = .ready s
  | .fatal, out => ∃ e, out = .fatal e
  | .passedOver, out => out = .tryNext

/-- The positions that end a call. -/
def stops (standing : Nat → Standing) (p : Nat) : Bool := standing p ≠ .passedOver

theorem stops_iff {standing : Nat → Standing} {p : Nat} :
    stops standing p = true ↔ standing p ≠ .passedOver := by simp [stops]

end Standing

/-- The positions whose check observed them usable: those the first pass attempts. -/
def usableAt (positions : List Nat) (obs : List (String × Observation)) : List Nat :=
  ((positions.zip obs).filter (·.2.2 = .usable)).map (·.1)

/-- The checks and first-pass attempts of a call agree with the standing of the positions. -/
structure Stands (standing : Nat → Standing) (positions : List Nat)
    (T : List (Select Stream).Event) : Prop where
  checks : ∀ x ∈ positions.zip (observations T), (standing x.1).Checked x.2.2
  outcomes : ∀ x ∈ (usableAt positions (observations T)).zip (attempts T),
    (standing x.1).Attempted x.2.2

/-- The call stopped at `p`: its last attempt was made there and gave the result. -/
def StopsAt (pool : List String) (standing : Nat → Standing) (T : List (Select Stream).Event)
    (r : Connected Stream) (p : Nat) : Prop :=
  ∃ target, pool[p]? = some target ∧
    ((standing p = .connectable ∧ ∃ s, (attempts T).getLast? = some (target, .ready s) ∧ r = .ok s) ∨
      (standing p = .fatal ∧ ∃ e, (attempts T).getLast? = some (target, .fatal e) ∧ r = .error e))

section OneCall

variable {standing : Nat → Standing} {p : Nat} {ps : List Nat} {T T' : List (Select Stream).Event}
  {target : String}

theorem Stands.skipped {o : Observation} (stands : Stands standing (p :: ps) T)
    (hobs : observations T = (target, o) :: observations T') (hatt : attempts T = attempts T')
    (notUsable : o ≠ .usable) : (standing p).Checked o ∧ Stands standing ps T' := by
  obtain ⟨checks, tried⟩ := stands
  rw [hobs] at checks tried
  rw [hatt] at tried
  refine ⟨checks (p, target, o) List.mem_cons_self, fun x hx => checks x (List.mem_cons_of_mem _ hx), ?_⟩
  have same : usableAt (p :: ps) ((target, o) :: observations T') = usableAt ps (observations T') := by
    simp [usableAt, notUsable]
  rwa [same] at tried

theorem Stands.tried {out : ConnectAttempt (Stream × SocketAddr)} (stands : Stands standing (p :: ps) T)
    (hobs : observations T = (target, .usable) :: observations T')
    (hatt : attempts T = (target, out) :: attempts T') :
    (standing p).Attempted out ∧ Stands standing ps T' := by
  obtain ⟨checks, tried⟩ := stands
  rw [hobs] at checks tried
  rw [hatt] at tried
  have first : usableAt (p :: ps) ((target, .usable) :: observations T') =
      p :: usableAt ps (observations T') := by simp [usableAt]
  rw [first] at tried
  exact ⟨tried (p, target, out) List.mem_cons_self,
    fun x hx => checks x (List.mem_cons_of_mem _ hx), fun x hx => tried x (List.mem_cons_of_mem _ hx)⟩

theorem passedOver_of_checked {s : Standing} {o : Observation} (h : s.Checked o) (notUsable : o ≠ .usable) :
    s = .passedOver := by
  cases s with
  | passedOver => rfl
  | connectable | fatal => exact absurd h notUsable

theorem passedOver_of_tryNext {s : Standing}
    (h : s.Attempted (.tryNext : ConnectAttempt (Stream × SocketAddr))) : s = .passedOver := by
  cases s with
  | passedOver => rfl
  | connectable | fatal => obtain ⟨_, out⟩ := h; cases out

theorem connectable_of_ready {s : Standing} {stream : Stream × SocketAddr}
    (h : s.Attempted (.ready stream)) : s = .connectable := by
  cases s with
  | connectable => rfl
  | fatal => obtain ⟨_, out⟩ := h; cases out
  | passedOver => cases h

theorem fatal_of_fatal {s : Standing} {e : ProxyError}
    (h : s.Attempted (.fatal e : ConnectAttempt (Stream × SocketAddr))) : s = .fatal := by
  cases s with
  | fatal => rfl
  | connectable => obtain ⟨_, out⟩ := h; cases out
  | passedOver => cases h

theorem StopsAt.cons {pool : List String} {r : Connected Stream} {a : Attempted Stream}
    (stops : StopsAt pool standing T' r p) (hatt : attempts T = a :: attempts T') :
    StopsAt pool standing T r p := by
  obtain ⟨target, hget, ends⟩ := stops
  have last : ∀ {b}, (attempts T').getLast? = some b → (attempts T).getLast? = some b := by
    intro b hb
    rw [hatt, List.getLast?_cons, hb]
    rfl
  refine ⟨target, hget, ?_⟩
  cases ends with
  | inl connected => obtain ⟨h, s, hlast, hr⟩ := connected; exact .inl ⟨h, s, last hlast, hr⟩
  | inr failed => obtain ⟨h, e, hlast, hr⟩ := failed; exact .inr ⟨h, e, last hlast, hr⟩

/-- A call goes over the passed-over positions and stops at the first that ends it. The
    induction is on the remaining iterations of the first loop. -/
theorem firstPass_stops {pool : List String} {nonempty : 0 < pool.length} {start : Nat}
    {port : UInt16} {is : List Nat} {cooling : List String} {r : Connected Stream}
    (run : Exec (firstPass pool nonempty start port is cooling) T r)
    (stands : Stands standing (is.map (position start · pool.length)) T)
    (some_stop : ∃ i ∈ is, standing (position start i pool.length) ≠ .passedOver) :
    ∃ before i after, is = before ++ i :: after ∧
      (∀ b ∈ before, standing (position start b pool.length) = .passedOver) ∧
      (observations T).length = before.length + 1 ∧
      StopsAt pool standing T r (position start i pool.length) := by
  induction is generalizing cooling T with
  | nil => simp at some_stop
  | cons i is ih =>
    obtain ⟨target, o, check, tail, hget, hcheck, rfl, hnext⟩ := firstPass_exec_cons run
    -- A passed-over position in front of a call that stops later.
    have pass : ∀ {cooling' : List String} {T' : List (Select Stream).Event},
        Exec (firstPass pool nonempty start port is cooling') T' r →
        Stands standing (is.map (position start · pool.length)) T' →
        standing (position start i pool.length) = .passedOver →
        observations (check ++ tail) = (target, o) :: observations T' →
        (attempts (check ++ tail) = attempts T' ∨ ∃ a, attempts (check ++ tail) = a :: attempts T') →
        ∃ before j after, i :: is = before ++ j :: after ∧
          (∀ b ∈ before, standing (position start b pool.length) = .passedOver) ∧
          (observations (check ++ tail)).length = before.length + 1 ∧
          StopsAt pool standing (check ++ tail) r (position start j pool.length) := by
      intro cooling' T' run' stands' passed hobs hatt
      have later : ∃ j ∈ is, standing (position start j pool.length) ≠ .passedOver := by
        obtain ⟨j, hj, stop⟩ := some_stop
        cases List.mem_cons.mp hj with
        | inl same => rw [same] at stop; exact absurd passed stop
        | inr later => exact ⟨j, later, stop⟩
      obtain ⟨before, j, after, rfl, settled, count, stops⟩ := ih run' stands' later
      refine ⟨i :: before, j, after, rfl, fun b hb => ?_, by rw [hobs]; simp [count], ?_⟩
      · cases List.mem_cons.mp hb with
        | inl same => rw [same]; exact passed
        | inr hb => exact settled b hb
      · cases hatt with
        | inl same =>
          obtain ⟨target', hget', ends⟩ := stops
          exact ⟨target', hget', by rwa [same]⟩
        | inr more => exact stops.cons more.choose_spec
    have hobs := hcheck.observations tail
    have hatt := hcheck.attempts tail
    cases o with
    | failed e =>
      have checked := (stands.skipped hobs hatt (by simp)).1
      have passed := passedOver_of_checked checked (by simp)
      rw [passed] at checked
      exact absurd rfl (checked e)
    | drained | cooling =>
      obtain ⟨checked, rest⟩ := stands.skipped hobs hatt (by simp)
      exact pass hnext rest (passedOver_of_checked checked (by simp)) hobs (.inl hatt)
    | usable =>
      obtain ⟨out, after, rfl, hnext⟩ := hnext
      obtain ⟨attempted, rest⟩ : (standing (position start i pool.length)).Attempted out ∧
          Stands standing (is.map (position start · pool.length)) after := stands.tried hobs hatt
      cases out with
      | tryNext =>
        exact pass hnext rest (passedOver_of_tryNext attempted) hobs (.inr ⟨_, hatt⟩)
      | ready s =>
        obtain ⟨rfl, rfl⟩ := hnext
        exact ⟨[], i, is, rfl, by simp, by rw [hobs]; rfl, target, hget,
          .inl ⟨connectable_of_ready attempted, s, by rw [hatt]; rfl, rfl⟩⟩
      | fatal e =>
        obtain ⟨rfl, rfl⟩ := hnext
        exact ⟨[], i, is, rfl, by simp, by rw [hobs]; rfl, target, hget,
          .inr ⟨fatal_of_fatal attempted, e, by rw [hatt]; rfl, rfl⟩⟩

end OneCall

/-! ## A window of calls -/

/-- What a call that made the operations `tr` and returned `r` did, read as a run of
    `connect_backend` with its attempts. -/
def Selected (config : ProxyConfig) (port : UInt16) (tr : List (Stack Stream).Event)
    (r : Connected Stream) (T : List (Select Stream).Event) : Prop :=
  Exec (connectBackend config port) T r ∧ Unfolds carry T tr

/-- The position of the last check of a call that started at `start`. -/
def lastPosition (start n : Nat) (T : List (Select Stream).Event) : Nat :=
  (start + ((observations T).length - 1)) % n

theorem call_stops {config : ProxyConfig} {port : UInt16} {pool : List String}
    (hpool : config.getPool port = some pool) {standing : Nat → Standing}
    (some_stop : ∃ j < pool.length, standing j ≠ .passedOver) {drawn : Nat}
    {tr : List (Stack Stream).Event} {r : Connected Stream} {T : List (Select Stream).Event}
    (selected : Selected config port tr r T) (draw : tr.head? = some ⟨.fetchAdd port, some drawn⟩)
    (stands : Stands standing (scan (drawn % pool.length) pool.length) T) :
    lastPosition (drawn % pool.length) pool.length T =
        (drawn + advance (Standing.stops standing) pool.length drawn) % pool.length ∧
      StopsAt pool standing T r (lastPosition (drawn % pool.length) pool.length T) := by
  obtain ⟨j, hj, stop⟩ := some_stop
  obtain ⟨whole, un⟩ := selected
  obtain ⟨counter, tail, rfl, cont⟩ := connectBackend_exec hpool (Nat.zero_lt_of_lt hj) whole
  obtain ⟨sub, rest, rfl, hsub, -⟩ := un.uncons
  obtain rfl := exec_perform.mp hsub
  cases draw
  obtain ⟨i, hi, hij⟩ := exists_step drawn hj
  have stands : Stands standing (scan (drawn % pool.length) pool.length) tail :=
    ⟨stands.checks, stands.outcomes⟩
  obtain ⟨before, m, after, split, settled, count, stopsAt⟩ := firstPass_stops cont stands
    ⟨i, List.mem_range.mpr hi, by rw [position, hij]; exact stop⟩
  -- The iterations before the stop are `0, .., m - 1`.
  have place : before.length = m := by
    have hget : (List.range pool.length)[before.length]? = some m := by rw [split]; simp
    rw [List.getElem?_eq_some_iff] at hget
    obtain ⟨_, hm⟩ := hget
    simpa using hm
  have bound : m < pool.length := by
    have := congrArg List.length split
    simp at this
    omega
  have clear : ∀ k < m, Standing.stops standing ((drawn % pool.length + k) % pool.length) = false := by
    intro k hk
    have member : k ∈ before := by
      have hget := List.getElem?_range (Nat.lt_trans hk bound)
      rw [split, List.getElem?_append_left (by omega)] at hget
      exact List.mem_of_getElem? hget
    rw [Bool.eq_false_iff]
    exact fun stop => Standing.stops_iff.mp stop (settled k member)
  have hit : Standing.stops standing ((drawn % pool.length + m) % pool.length) = true := by
    obtain ⟨_, _, ends⟩ := stopsAt
    rw [position] at ends
    refine Standing.stops_iff.mpr fun passed => ?_
    rw [passed] at ends
    simp at ends
  have steps := (advance_eq bound hit).mpr clear
  rw [advance_mod] at steps
  have last : lastPosition (drawn % pool.length) pool.length (⟨.fetchAdd port, some drawn⟩ :: tail) =
      position (drawn % pool.length) m pool.length := by
    show (drawn % pool.length + ((observations tail).length - 1)) % pool.length = _
    rw [count, place, position, Nat.add_sub_cancel]
  refine ⟨?_, by rw [last]; exact stopsAt⟩
  rw [last, position, steps, Nat.mod_add_mod]

/-- In a window of `n` calls that draw consecutive counter values, however they and any
    other calls interleave, every call stops at a connectable position with `Ok` or at a
    fatal one with `Err`, and each such position ends as many of the calls as its distance
    from the nearest one before it. -/
theorem exact_load_distribution {config : ProxyConfig} {port : UInt16} {pool : List String}
    (hpool : config.getPool port = some pool) {s : Store w} {ls : List (TaskLabel Stream)}
    {c : Tasks w Stream} (run : Run (Tasks.Step config) (Tasks.idle s) ls c)
    (ids : Nat → Nat) (first : Nat) (r : Nat → Connected Stream) (standing : Nat → Standing)
    (window : ∀ k < pool.length, .spawn (ids k) (.connectBackend port) ∈ ls ∧
      c.threads (ids k) = some (.ret (.connected (r k))) ∧
      (traceOf (ids k) ls).head? = some ⟨.fetchAdd port, some (first + k)⟩)
    (stands : ∀ k < pool.length, ∀ T, Selected config port (traceOf (ids k) ls) (r k) T →
      Stands standing (scan ((first + k) % pool.length) pool.length) T)
    (some_stop : ∃ j < pool.length, standing j ≠ .passedOver) :
    ∃ T : Nat → List (Select Stream).Event,
      (∀ k < pool.length, Selected config port (traceOf (ids k) ls) (r k) (T k) ∧
        StopsAt pool standing (T k) (r k)
          (lastPosition ((first + k) % pool.length) pool.length (T k))) ∧
      ∀ j < pool.length, standing j ≠ .passedOver →
        ((Finset.range pool.length).filter fun k =>
          lastPosition ((first + k) % pool.length) pool.length (T k) = j).card =
          gap (Standing.stops standing) pool.length j := by
  have selection : ∀ k, ∃ T, k < pool.length → Selected config port (traceOf (ids k) ls) (r k) T := by
    intro k
    by_cases hk : k < pool.length
    · obtain ⟨spawned, returned, -⟩ := window k hk
      have whole := exec_of_connected run spawned returned
      rw [stackConnectBackend_eq] at whole
      obtain ⟨T, hT, un⟩ := exec_interp.mp whole
      exact ⟨T, fun _ => ⟨hT, un⟩⟩
    · exact ⟨[], fun hk' => absurd hk' hk⟩
  choose T selected using selection
  have stops := fun k (hk : k < pool.length) =>
    call_stops hpool some_stop (selected k hk) (window k hk).2.2 (stands k hk (T k) (selected k hk))
  refine ⟨T, fun k hk => ⟨selected k hk, (stops k hk).2⟩, fun j hj stop => ?_⟩
  rw [← card_arrivals hj (Standing.stops_iff.mpr stop) first]
  congr 1
  refine Finset.filter_congr fun k hk => ?_
  rw [(stops k (Finset.mem_range.mp hk)).1]

/-! Two calls on a pool whose first backend is drained: both end at the second. -/

def halfDrained : Store 64 :=
  .new twoBackends ⟨fun t => if t = "a:1" then some .drain else some (.alive none)⟩ 0

def sharedCalls : List (TaskLabel Unit) :=
  [.spawn 0 (.connectBackend 8080), .spawn 1 (.connectBackend 8080),
    .act 0 ⟨.fetchAdd 8080, some 0⟩, .act 1 ⟨.fetchAdd 8080, some 1⟩,
    .act 0 ⟨.load "a:1", .ok .drain⟩, .act 1 ⟨.load "b:2", .ok (.alive none)⟩,
    .act 0 ⟨.load "b:2", .ok (.alive none)⟩, .act 1 ⟨.lookupHost "b:2", .ok [localhost]⟩,
    .act 0 ⟨.lookupHost "b:2", .ok [localhost]⟩, .act 1 ⟨.connectAddr localhost, .ok (.ok ())⟩,
    .act 0 ⟨.connectAddr localhost, .ok (.ok ())⟩, .act 0 ⟨.load "b:2", .ok (.alive none)⟩,
    .act 0 ⟨.now, 1⟩, .act 1 ⟨.load "b:2", .ok (.alive none)⟩, .act 1 ⟨.now, 2⟩]

def sharedSelection (k : Nat) : List (Select Unit).Event :=
  if k = 0 then
    [⟨.fetchAdd 8080, some 0⟩, ⟨.getTargetStatus "a:1", .ok .drain⟩,
      ⟨.getTargetStatus "b:2", .ok (.alive none)⟩, ⟨.connect "b:2" 8080, .ready ((), localhost)⟩]
  else
    [⟨.fetchAdd 8080, some 1⟩, ⟨.getTargetStatus "b:2", .ok (.alive none)⟩,
      ⟨.connect "b:2" 8080, .ready ((), localhost)⟩]

def secondOnly (p : Nat) : Standing := if p = 1 then .connectable else .passedOver

theorem sharedCalls_run : ∃ c : Tasks 64 Unit,
    Run (Tasks.Step twoBackends) (Tasks.idle halfDrained) sharedCalls c ∧
    c.threads 0 = some (.ret (.connected (.ok ((), localhost)))) ∧
    c.threads 1 = some (.ret (.connected (.ok ((), localhost)))) := by
  refine ⟨_, .cons (.spawn rfl) (.cons (.spawn rfl) (.cons (.act rfl ⟨rfl, rfl⟩)
    (.cons (.act rfl ⟨rfl, rfl⟩) (.cons (.act rfl ⟨rfl, rfl⟩) (.cons (.act rfl ⟨rfl, rfl⟩)
    (.cons (.act rfl ⟨rfl, rfl⟩) (.cons (.act rfl rfl) (.cons (.act rfl rfl) (.cons (.act rfl rfl)
    (.cons (.act rfl rfl) (.cons (.act rfl ⟨rfl, rfl⟩) (.cons (.act rfl ⟨by decide, rfl⟩)
    (.cons (.act rfl ⟨rfl, rfl⟩) (.cons (.act rfl ⟨by decide, rfl⟩) (.nil _))))))))))))))), ?_, ?_⟩
  · rfl
  · rfl

theorem sharedCalls_selected (k : Nat) (hk : k < 2) :
    Selected twoBackends 8080 (traceOf k sharedCalls) (.ok ((), localhost)) (sharedSelection k) := by
  have carried : Exec (carry (.connect "b:2" 8080) : Program (Stack Unit) _)
      [⟨.lookupHost "b:2", .ok [localhost]⟩, ⟨.connectAddr localhost, .ok (.ok ())⟩,
        ⟨.load "b:2", .ok (.alive none)⟩, ⟨.now, k + 1⟩] (.ready ((), localhost)) :=
    .cons (.cons (.cons (.cons (.nil _))))
  have tail : Unfolds (I := Select Unit) (J := Stack Unit) carry
      [⟨.getTargetStatus "b:2", .ok (.alive none)⟩, ⟨.connect "b:2" 8080, .ready ((), localhost)⟩]
      ([⟨.load "b:2", .ok (.alive none)⟩] ++ ([⟨.lookupHost "b:2", .ok [localhost]⟩,
        ⟨.connectAddr localhost, .ok (.ok ())⟩, ⟨.load "b:2", .ok (.alive none)⟩, ⟨.now, k + 1⟩] ++ [])) :=
    .cons (.cons (.nil _)) (.cons carried .nil)
  obtain rfl | rfl : k = 0 ∨ k = 1 := by omega
  · have drawn : Exec (carry (.fetchAdd 8080) : Program (Stack Unit) _) [⟨.fetchAdd 8080, some 0⟩] (some 0) :=
      .cons (.nil _)
    have skipped : Exec (carry (.getTargetStatus "a:1") : Program (Stack Unit) _)
        [⟨.load "a:1", .ok .drain⟩] (.ok .drain) := .cons (.nil _)
    exact ⟨.cons (.cons (.cons (.cons (.nil _)))), .cons (I := Select Unit) (e := ⟨.fetchAdd 8080, some 0⟩) drawn
      (.cons (I := Select Unit) (e := ⟨.getTargetStatus "a:1", .ok .drain⟩) skipped tail)⟩
  · have drawn : Exec (carry (.fetchAdd 8080) : Program (Stack Unit) _) [⟨.fetchAdd 8080, some 1⟩] (some 1) :=
      .cons (.nil _)
    exact ⟨.cons (.cons (.cons (.nil _))), .cons (I := Select Unit) (e := ⟨.fetchAdd 8080, some 1⟩) drawn tail⟩

theorem sharedSelection_stands (k : Nat) (hk : k < 2) :
    Stands secondOnly (scan ((0 + k) % 2) 2) (sharedSelection k) := by
  obtain rfl | rfl : k = 0 ∨ k = 1 := by omega
  · constructor
    · intro x hx
      have hx : x ∈ [(0, "a:1", Observation.drained), (1, "b:2", Observation.usable)] := hx
      simp only [List.mem_cons, List.not_mem_nil, or_false] at hx
      rcases hx with rfl | rfl <;> simp [secondOnly, Standing.Checked]
    · intro x hx
      have hx : x ∈ [(1, "b:2", ConnectAttempt.ready ((), localhost))] := hx
      rw [List.mem_singleton.mp hx]
      exact ⟨_, rfl⟩
  · constructor
    · intro x hx
      have hx : x ∈ [(1, "b:2", Observation.usable)] := hx
      rw [List.mem_singleton.mp hx]
      rfl
    · intro x hx
      have hx : x ∈ [(1, "b:2", ConnectAttempt.ready ((), localhost))] := hx
      rw [List.mem_singleton.mp hx]
      exact ⟨_, rfl⟩

/-- Both calls stop at position 1, which follows itself at distance 2. -/
theorem sharedCalls_distribution : ∃ T : Nat → List (Select Unit).Event,
    (∀ k < 2, Selected twoBackends 8080 (traceOf k sharedCalls) (.ok ((), localhost)) (T k) ∧
      StopsAt ["a:1", "b:2"] secondOnly (T k) (.ok ((), localhost)) (lastPosition ((0 + k) % 2) 2 (T k))) ∧
    ((Finset.range 2).filter fun k => lastPosition ((0 + k) % 2) 2 (T k) = 1).card = 2 := by
  obtain ⟨c, run, first, second⟩ := sharedCalls_run
  have distribution := exact_load_distribution
    (show twoBackends.getPool 8080 = some ["a:1", "b:2"] from rfl) run id 0
    (fun _ => .ok ((), localhost)) secondOnly
    (fun k hk => by
      obtain rfl | rfl : k = 0 ∨ k = 1 := by have : k < 2 := hk; omega
      · exact ⟨by simp [sharedCalls], first, rfl⟩
      · exact ⟨by simp [sharedCalls], second, rfl⟩)
    (fun k hk T selected => by
      have known := sharedCalls_selected k hk
      rw [(unfolds_unique selected.1 selected.2 known.1 known.2).1]
      exact sharedSelection_stands k hk)
    ⟨1, by decide, by decide⟩
  obtain ⟨T, stops, counts⟩ := distribution
  exact ⟨T, stops, counts 1 (by decide) (by decide)⟩

end TcpProxy
