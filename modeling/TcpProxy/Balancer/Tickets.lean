import TcpProxy.Balancer.Concurrent
import TcpProxy.Balancer.Selection
import TcpProxy.Lib.Cyclic

/-! # Round-robin order

Every call on a port starts at the position its `fetch_add` drew, modulo the size of the
pool.  The values drawn on one port follow each other whatever else runs, but the counter
wraps at `2 ^ w`, and there the order holds only for pools whose size divides `2 ^ w`. -/

namespace TcpProxy

open Effects Effects.Program Effects.Pool Lts RoundRobin Cyclic SimpleCooldownHandler

variable {w : Nat} {Stream : Type}

/-! ## What a call does with its draw -/

/-- The operation leaves the counters alone. -/
def NoDraw : StackOp → Prop
  | .fetchAdd _ => False
  | _ => True

theorem noDraw_carry {op : SelectOp} (notDraw : ∀ port, op ≠ .fetchAdd port) :
    Uses NoDraw (carry op : Program (Stack Stream) _) := by
  let balancerAllowed : BalancerOp → Prop
    | .fetchAdd _ => False
    | _ => True
  have linked : Uses (I := Balancer Stream) balancerAllowed (link op) := by
    cases op with
    | fetchAdd port => exact absurd rfl (notDraw port)
    | getTargetStatus | now => exact ⟨trivial, fun _ => trivial⟩
    | connect target port =>
      show Uses (I := Balancer Stream) balancerAllowed (connect target port)
      exact uses_connect trivial (fun _ => trivial) fun _ => trivial
  apply uses_interp linked
  intro op hop
  apply Call.uses_handle trivial _ (fun _ _ => ⟨trivial, fun _ => trivial⟩) (fun _ _ => trivial)
    fun _ => trivial
  rintro port rfl
  exact absurd hop id

/-- The operation is not a draw. -/
def NotDraw : SelectOp → Prop
  | .fetchAdd _ => False
  | _ => True

theorem connectBackend_draws {config : ProxyConfig} {port : UInt16} {pool : List String}
    (hpool : config.getPool port = some pool) (nonempty : 0 < pool.length) :
    ∃ next : Option Nat → Program (Select Stream) (Connected Stream),
      connectBackend config port = .ask (.fetchAdd port) next ∧
      (∀ drawn, Uses NotDraw (next drawn)) ∧
      ∀ k, ∃ target, pool[k % pool.length]? = some target ∧
        ∃ later, next (some k) = .ask (.getTargetStatus target) later := by
  simp only [connectBackend, hpool, dif_pos nonempty]
  refine ⟨_, rfl, fun drawn => ?_, fun k => ?_⟩
  · cases drawn with
    | none => trivial
    | some k => exact uses_firstPass trivial (fun _ _ => trivial) (fun _ _ => trivial) (by simp)
  · -- The range of iterations starts at `0`, which looks at the start position itself.
    obtain ⟨n, hn⟩ := Nat.exists_eq_succ_of_ne_zero nonempty.ne'
    have first : List.range pool.length = 0 :: (List.range n).map Nat.succ := by
      rw [hn, List.range_succ_eq_map]
    refine ⟨pool.get ⟨position (k % pool.length) 0 pool.length, Nat.mod_lt _ nonempty⟩,
      by simp [position], ?_⟩
    show ∃ later, firstPass pool nonempty (k % pool.length) port (List.range pool.length) [] = _
    rw [first, firstPass_cons]
    exact ⟨_, rfl⟩

/-- After its draw, the first thing a call does is check the target at its start position,
    and it never draws again. -/
theorem call_after_draw {config : ProxyConfig} {port : UInt16} {pool : List String}
    (hpool : config.getPool port = some pool) (nonempty : 0 < pool.length) :
    ∃ next : Option Nat → Program (Stack Stream) (CallResult Stream),
      Call.body config (.connectBackend port) = .ask (.fetchAdd port) next ∧
      (∀ drawn, Uses NoDraw (next drawn)) ∧
      ∀ k, ∃ target, pool[k % pool.length]? = some target ∧
        ∃ later, next (some k) = .ask (.load target) later := by
  obtain ⟨select, draws, noMore, starts⟩ : ∃ next : Option Nat → Program (Select Stream) _,
      connectBackend config port = .ask (.fetchAdd port) next ∧
      (∀ drawn, Uses NotDraw (next drawn)) ∧
      ∀ k, ∃ target, pool[k % pool.length]? = some target ∧
        ∃ later, next (some k) = .ask (.getTargetStatus target) later :=
    connectBackend_draws hpool nonempty
  refine ⟨fun drawn => interp carry (select drawn) >>= fun r => .ret (.connected r), ?_, ?_, ?_⟩
  · show (stackConnectBackend config port >>= _) = _
    rw [stackConnectBackend_eq, draws]
    rfl
  · intro drawn
    refine uses_bind (uses_interp (noMore drawn) fun op notDraw => ?_) fun _ => trivial
    apply noDraw_carry
    rintro q rfl
    exact notDraw
  · intro k
    obtain ⟨target, hget, later, checks⟩ := starts k
    refine ⟨target, hget, fun status => interp carry (later status) >>= fun r => .ret (.connected r), ?_⟩
    show (interp carry (select (some k)) >>= _) = _
    rw [checks]
    rfl

/-- Where nothing draws after the first question, a draw in the trace answers that question. -/
theorem draw_first {α : Type} {port q : UInt16} {a : Option Nat}
    {next : Option Nat → Program (Stack Stream) α} {tr : List (Stack Stream).Event}
    {p : Program (Stack Stream) α} (run : Steps (I := Stack Stream) (.ask (.fetchAdd port) next) tr p)
    (noMore : ∀ drawn, Uses NoDraw (next drawn)) (draw : ⟨.fetchAdd q, a⟩ ∈ tr) :
    q = port ∧ ∃ rest, tr = ⟨.fetchAdd port, a⟩ :: rest ∧ Steps (next a) rest p ∧
      ∀ e ∈ rest, NoDraw e.op := by
  cases steps_ask run with
  | inl unpolled =>
    rw [unpolled.1] at draw
    cases draw
  -- Once it was answered nothing draws again, so the draw in question is this one.
  | inr drew =>
    obtain ⟨drawn, rest, rfl, after⟩ := drew
    have quiet : ∀ e ∈ rest, NoDraw e.op := uses_trace after (noMore drawn)
    cases List.mem_cons.mp draw with
    | inr again => exact absurd (quiet _ again) id
    | inl first =>
      cases first
      exact ⟨rfl, rest, rfl, after, quiet⟩

/-- What a call that drew on `q` did: it serves a configured port with a non-empty pool, its
    draw came first and was its only one, and what it asked next was the status of the target
    at the position it drew. -/
theorem draw_of_call {config : ProxyConfig} {call : Call} {tr : List (Stack Stream).Event}
    {p : Program (Stack Stream) (CallResult Stream)} (run : Steps (call.body config) tr p)
    {q : UInt16} {a : Option Nat} (draw : ⟨.fetchAdd q, a⟩ ∈ tr) :
    call = .connectBackend q ∧ ∃ pool rest, config.getPool q = some pool ∧ 0 < pool.length ∧
      tr = ⟨.fetchAdd q, a⟩ :: rest ∧ (∀ e ∈ rest, NoDraw e.op) ∧
      ∀ k, a = some k → ∀ e ∈ rest.head?, ∃ target,
        pool[k % pool.length]? = some target ∧ e.op = .load target := by
  cases call with
  | reportConnectionAttempt target result =>
    have uses : Uses NoDraw
        (Call.body config (.reportConnectionAttempt target result) : Program (Stack Stream) _) :=
      uses_bind (uses_reportConnectionAttempt trivial trivial fun _ => trivial) fun _ => trivial
    exact absurd (uses_trace run uses _ draw) id
  | drain target =>
    have uses : Uses NoDraw (Call.body config (.drain target) : Program (Stack Stream) _) :=
      ⟨trivial, fun _ => trivial⟩
    exact absurd (uses_trace run uses _ draw) id
  | connectBackend port =>
    -- A call that returns early asks nothing.
    have early : ∀ r : Connected Stream,
        (connectBackend config port : Program (Select Stream) _) = .ret r → tr = [] := by
      intro r returns
      change Steps (stackConnectBackend config port >>= _) tr p at run
      rw [stackConnectBackend_eq, returns] at run
      cases run
      rfl
    cases hpool : config.getPool port with
    | none =>
      rw [early _ (by simp only [connectBackend, hpool]; rfl)] at draw
      cases draw
    | some pool =>
      by_cases nonempty : 0 < pool.length
      · obtain ⟨next, draws, noMore, starts⟩ : ∃ next : Option Nat → Program (Stack Stream) (CallResult Stream),
            Call.body config (.connectBackend port) = .ask (.fetchAdd port) next ∧
            (∀ drawn, Uses NoDraw (next drawn)) ∧
            ∀ k, ∃ target, pool[k % pool.length]? = some target ∧
              ∃ later, next (some k) = .ask (.load target) later := call_after_draw hpool nonempty
        rw [draws] at run
        obtain ⟨rfl, rest, rfl, after, quiet⟩ := draw_first run noMore draw
        refine ⟨rfl, pool, rest, hpool, nonempty, rfl, quiet, fun k drew e next_asked => ?_⟩
        subst drew
        obtain ⟨target, hget, later, checks⟩ := starts k
        rw [checks] at after
        exact ⟨target, hget, asked_first after e next_asked⟩
      · rw [early _ (by simp only [connectBackend, hpool, dif_neg nonempty]; rfl)] at draw
        cases draw

/-! ## The values drawn on one port -/

def drawn? (port : UInt16) : TaskLabel Stream → Option Nat
  | .act _ ⟨.fetchAdd q, some k⟩ => if q = port then some k else none
  | _ => none

/-- The counter values drawn on `port`, in the order of the `fetch_add`s. -/
def draws (port : UInt16) (ls : List (TaskLabel Stream)) : List Nat := ls.filterMap (drawn? port)

section Draws

variable {config : ProxyConfig} {port : UInt16} {ls : List (TaskLabel Stream)} {c c' : Tasks w Stream}

theorem draw_step {l : TaskLabel Stream} (step : Tasks.Step config c l c') {k : BitVec w}
    (counter : c.store.counters port = some k) :
    (drawn? port l = none ∧ c'.store.counters port = some k) ∨
      (drawn? port l = some k.toNat ∧ c'.store.counters port = some (k + 1)) := by
  cases step with
  | spawn free => exact .inl ⟨rfl, counter⟩
  | @act i op next a s running answered =>
    cases op with
    | lookupHost | connectAddr => cases answered; exact .inl ⟨rfl, counter⟩
    | load | now | store => rw [answered.2]; exact .inl ⟨rfl, counter⟩
    | fetchAdd q =>
      obtain ⟨drawn, bumped⟩ := answered
      by_cases same : q = port
      · subst same
        rw [counter] at drawn
        subst drawn
        right
        simp [drawn?, bumped, counter]
      · have other : port ≠ q := fun h => same h.symm
        left
        rw [bumped]
        constructor
        · cases a <;> simp [drawn?, same]
        · simp [other, counter]

/-- The values drawn on a port count up from where its counter stood, modulo `2 ^ w`. -/
theorem draws_of_run (run : Run (Tasks.Step config) c ls c') {first : BitVec w}
    (counter : c.store.counters port = some first) :
    draws port ls = (List.range (draws port ls).length).map fun k => (first.toNat + k) % 2 ^ w := by
  have history := run.history (fun done u =>
      draws port done = (List.range (draws port done).length).map (fun k => (first.toNat + k) % 2 ^ w) ∧
      ∃ k : BitVec w, u.store.counters port = some k ∧
        k.toNat = (first.toNat + (draws port done).length) % 2 ^ w)
    ⟨rfl, first, counter, (Nat.mod_eq_of_lt first.isLt).symm⟩ ?_
  · exact history.1
  · intro done u l v earlier step
    obtain ⟨values, k, now, count⟩ := earlier
    cases draw_step step now with
    | inl quiet =>
      have same : draws port (done ++ [l]) = draws port done := by simp [draws, quiet.1]
      rw [same]
      exact ⟨values, k, quiet.2, count⟩
    | inr drew =>
      have more : draws port (done ++ [l]) = draws port done ++ [k.toNat] := by simp [draws, drew.1]
      rw [more]
      refine ⟨?_, k + 1, drew.2, ?_⟩
      · rw [List.length_append, List.length_singleton, List.range_succ, List.map_append, ← values]
        simp [count]
      · simp [BitVec.toNat_add, count, Nat.add_assoc]

/-- However the calls interleave, a draw follows the one before it cyclically unless the
    counter wraps between the two, and `n` draws in a row start once at every position unless
    it wraps within them; pools whose size divides `2 ^ w` are never affected. Only calls that
    go on to select from a pool draw, once, from the counter of their own port. -/
theorem starts_consecutive_iff {pool : List String} (hpool : config.getPool port = some pool)
    (nonempty : 0 < pool.length) {s : Store w} {zeroth : BitVec w}
    (counter : s.counters port = some zeroth) (run : Run (Tasks.Step config) (.idle s) ls c) :
    (∀ before k k' after, draws port ls = before ++ k :: k' :: after →
      (k' % pool.length = (k % pool.length + 1) % pool.length ↔
        k + 1 < 2 ^ w ∨ pool.length ∣ 2 ^ w)) ∧
    (∀ before window after first, draws port ls = before ++ window ++ after →
      window.length = pool.length → window.head? = some first →
      ((∀ p < pool.length, (window.map (· % pool.length)).count p = 1) ↔
        first + pool.length ≤ 2 ^ w ∨ pool.length ∣ 2 ^ w)) ∧
    (∀ i k, .act i ⟨.fetchAdd port, some k⟩ ∈ ls →
      ∃ rest, traceOf i ls = ⟨.fetchAdd port, some k⟩ :: rest ∧ (∀ e ∈ rest, NoDraw e.op) ∧
        ∀ e ∈ rest.head?, ∃ target, pool[k % pool.length]? = some target ∧ e.op = .load target) ∧
    ∀ i q a, .act i ⟨.fetchAdd q, a⟩ ∈ ls → .spawn i (.connectBackend q) ∈ ls ∧
      ∃ targets, config.getPool q = some targets ∧ 0 < targets.length := by
  have values := draws_of_run run counter
  have stretch : ∀ (before window after : List Nat) (first : Nat),
      draws port ls = before ++ window ++ after → window.head? = some first →
      window = (List.range window.length).map fun j => (first + j) % 2 ^ w := by
    intro before window after first split head
    have from_zeroth := values
    rw [split] at from_zeroth
    exact window_of_range from_zeroth head
  have bound : ∀ k ∈ draws port ls, k < 2 ^ w := by
    intro k member
    rw [values] at member
    obtain ⟨j, -, rfl⟩ := List.mem_map.mp member
    exact Nat.mod_lt _ (Nat.two_pow_pos w)
  refine ⟨fun before k k' after split => ?_, fun before window after first split len head => ?_,
    fun i k draw => ?_, fun i q a draw => ?_⟩
  · have pair : [k, k'] = (List.range 2).map fun j => (k + j) % 2 ^ w :=
      stretch before [k, k'] after k (by simp [split]) rfl
    have next : k' = (k + 1) % 2 ^ w := by
      simp [List.range_succ] at pair
      exact pair.2
    rw [next]
    exact next_ticket_iff (bound k (by simp [split]))
  · have first_bound : first < 2 ^ w := by
      apply bound
      rw [split]
      simp [List.mem_of_mem_head? head]
    have positions : window.map (· % pool.length) = tickets (2 ^ w) pool.length first := by
      rw [stretch before window after first split head, List.map_map, len]
      rfl
    rw [positions, ← nodup_tickets_iff first_bound]
    apply count_eq_one_iff (length_tickets _ _ _)
    intro p member
    obtain ⟨j, -, rfl⟩ := List.mem_map.mp member
    exact Nat.mod_lt _ nonempty
  · obtain ⟨call, q, spawned, -, steps⟩ := acting_steps run rfl draw
    obtain ⟨rfl, targets, rest, hget, -, first, noMore, start⟩ :=
      draw_of_call steps (mem_traceOf.mpr draw)
    rw [hpool] at hget
    cases hget
    exact ⟨rest, first, noMore, start k rfl⟩
  · obtain ⟨call, p, spawned, -, steps⟩ := acting_steps run rfl draw
    obtain ⟨rfl, targets, rest, hget, some_target, -⟩ := draw_of_call steps (mem_traceOf.mpr draw)
    exact ⟨spawned, targets, hget, some_target⟩

end Draws

/-! Three backends on one port, all of them healthy, with a 64-bit counter. -/

def threeBackends : ProxyConfig := ⟨[["a:1", "b:2", "c:3"]], (∅ : Std.TreeMap UInt16 Nat).insert 8080 0⟩

def threeTargets : TargetState :=
  ⟨fun t => if t ∈ ["a:1", "b:2", "c:3"] then some (.alive none) else none⟩

/-- A call that draws `k` and connects to the first target it tries. -/
def servedTrace (k : Nat) (target : String) : List (Stack Unit).Event :=
  [⟨.fetchAdd 8080, some k⟩, ⟨.load target, .ok (.alive none)⟩, ⟨.lookupHost target, .ok [localhost]⟩,
    ⟨.connectAddr localhost, .ok (.ok ())⟩, ⟨.load target, .ok (.alive none)⟩, ⟨.now, 0⟩]

def servedCall (i k : Nat) (target : String) : List (TaskLabel Unit) :=
  .spawn i (.connectBackend 8080) :: (servedTrace k target).map (.act i)

/-- After `k` such calls the counter stands at `k`, modulo its range. -/
structure Served (k : Nat) (c : Tasks 64 Unit) : Prop where
  counter : c.store.counters 8080 = some (BitVec.ofNat 64 k)
  targets : c.store.targets = threeTargets
  clock : c.store.clock = 0
  free : ∀ i, k ≤ i → c.threads i = none

theorem served_steps (k : Nat) : ∃ target, ["a:1", "b:2", "c:3"][k % 3]? = some target ∧
    Steps (Call.body threeBackends (.connectBackend 8080)) (servedTrace k target)
      (.ret (.connected (.ok ((), localhost)))) := by
  have bound : position (k % 3) 0 3 < 3 := Nat.mod_lt _ (by decide)
  refine ⟨["a:1", "b:2", "c:3"].get ⟨position (k % 3) 0 3, bound⟩, ?_,
    .cons (.cons (.cons (.cons (.cons (.cons (.nil _))))))⟩
  simp [position]

theorem served_next {k : Nat} {c : Tasks 64 Unit} (served : Served k c) :
    ∃ target c', ["a:1", "b:2", "c:3"][k % 2 ^ 64 % 3]? = some target ∧
      Run (Tasks.Step threeBackends) c (servedCall k (k % 2 ^ 64) target) c' ∧ Served (k + 1) c' := by
  obtain ⟨target, hget, steps⟩ := served_steps (k % 2 ^ 64)
  have alive : c.store.targets.getTargetStatus target = .ok (.alive none) := by
    apply TargetState.getTargetStatus_of_some
    rw [served.targets]
    exact if_pos (List.mem_of_getElem? hget)
  have drew : some (k % 2 ^ 64) = (c.store.counters 8080).map BitVec.toNat := by
    simp [served.counter]
  have now : c.store.clock = 0 := served.clock
  have moves : Run Store.Answers c.store (servedTrace (k % 2 ^ 64) target)
      { c.store.bump 8080 with clock := 0 } :=
    .cons ⟨drew, rfl⟩ (.cons ⟨alive.symm, rfl⟩ (.cons rfl (.cons rfl (.cons ⟨alive.symm, rfl⟩
      (.cons ⟨now.le, rfl⟩ (.nil _))))))
  refine ⟨target, _, hget, run_alone (served.free k (Nat.le_refl k)) steps moves, ?_⟩
  constructor
  · simp [served.counter, BitVec.ofNat_add]
  · exact served.targets
  · rfl
  · intro i later
    have other : i ≠ k := by omega
    simp [other, served.free i (by omega)]

theorem served_run (k : Nat) : ∃ (ls : List (TaskLabel Unit)) (c : Tasks 64 Unit),
    Run (Tasks.Step threeBackends) (.idle (.new threeBackends threeTargets 0)) ls c ∧ Served k c := by
  induction k with
  | zero => exact ⟨[], _, .nil _, rfl, rfl, rfl, fun _ _ => rfl⟩
  | succ k ih =>
    obtain ⟨ls, c, run, served⟩ := ih
    obtain ⟨target, c', -, next, served'⟩ := served_next served
    exact ⟨_, c', run.append next, served'⟩

/-- The calls around the wrap, one after the other, both start at position `0`. -/
theorem wrap_repeats_start : ∃ (ls : List (TaskLabel Unit)) (c : Tasks 64 Unit),
    Run (Tasks.Step threeBackends) (.idle (.new threeBackends threeTargets 0))
      (ls ++ servedCall (2 ^ 64 - 1) (2 ^ 64 - 1) "a:1" ++ servedCall (2 ^ 64) 0 "a:1") c ∧
    ¬ 0 % 3 = ((2 ^ 64 - 1) % 3 + 1) % 3 := by
  obtain ⟨ls, c, run, served⟩ := served_run (2 ^ 64 - 1)
  obtain ⟨target, c', hget, last, served'⟩ := served_next served
  obtain ⟨target', c'', hget', first, -⟩ := served_next served'
  have starts : target = "a:1" ∧ target' = "a:1" := by
    constructor
    · exact Option.some.inj (hget.symm.trans rfl)
    · exact Option.some.inj (hget'.symm.trans rfl)
  rw [starts.1] at last
  rw [starts.2] at first
  exact ⟨ls, c'', (run.append last).append first, by decide⟩

theorem servedCalls_consecutive : ∃ c : Tasks 64 Unit,
    Run (Tasks.Step threeBackends) (.idle (.new threeBackends threeTargets 0))
      (servedCall 0 0 "a:1" ++ servedCall 1 1 "b:2") c ∧
    (1 % 3 = (0 % 3 + 1) % 3 ↔ 0 + 1 < 2 ^ 64 ∨ 3 ∣ 2 ^ 64) := by
  have initially : Served 0 (.idle (.new threeBackends threeTargets 0)) :=
    ⟨rfl, rfl, rfl, fun _ _ => rfl⟩
  obtain ⟨target, c, hget, first, served⟩ := served_next initially
  obtain ⟨target', c', hget', second, -⟩ := served_next served
  cases hget
  cases hget'
  refine ⟨c', first.append second, ?_⟩
  exact (starts_consecutive_iff (show threeBackends.getPool 8080 = some ["a:1", "b:2", "c:3"] from rfl)
    (by decide) rfl (first.append second)).1 [] 0 1 [] rfl

end TcpProxy
