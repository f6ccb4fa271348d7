import TcpProxy.Balancer.Consistency
import TcpProxy.Balancer.Draining
import TcpProxy.Balancer.History
import TcpProxy.Lib.Cyclic

/-! # Repeated targets

A call tries every position of its pool at most once, in one of the two passes.  A target
that is listed at several positions is tried at each of them: the report of its first failed
attempt makes it a cooling target for the positions after it, and the second pass comes
back to those. -/

namespace TcpProxy

open Effects Effects.Program Lts RoundRobin Cyclic SimpleCooldownHandler

variable {w : Nat} {Stream : Type}

/-- The targets of the attempts of a call, in order. -/
def tried (parts : List (Part Stream)) : List String := (parts.filterMap attempt?).map (·.target)

theorem tried_eq (parts : List (Part Stream)) :
    tried parts = (attempts (parts.map (·.event))).map (·.1) := by
  induction parts with
  | nil => rfl
  | cons p parts ih =>
    obtain ⟨⟨op, a⟩, tr⟩ := p
    cases op with
    | connect target port => exact congrArg (target :: ·) ih
    | fetchAdd | getTargetStatus | now => exact ih

/-! ## Every position at most once -/

section Positions

variable {pool : List String} {nonempty : 0 < pool.length} {start : Nat} {port : UInt16}

/-- The targets at the positions of the remaining iterations. -/
def upcoming (pool : List String) (start : Nat) (is : List Nat) : List String :=
  is.filterMap fun i => pool[position start i pool.length]?

theorem upcoming_cons {i : Nat} {is : List Nat} {target : String}
    (hget : pool[position start i pool.length]? = some target) :
    upcoming pool start (i :: is) = target :: upcoming pool start is := by
  simp [upcoming, hget]

/-- Over all the iterations the loop looks at the whole pool. -/
theorem upcoming_range (pool : List String) (start : Nat) :
    (upcoming pool start (List.range pool.length)).Perm pool := by
  have inOrder : (List.range pool.length).filterMap (pool[·]?) = pool := by
    have same : (List.range pool.length).map (pool[·]?) = pool.map some := by
      apply List.ext_getElem?
      intro i
      by_cases hi : i < pool.length
      · simp [hi]
      · simp [hi]
    calc (List.range pool.length).filterMap (pool[·]?)
        = ((List.range pool.length).map (pool[·]?)).filterMap id := by simp [List.filterMap_map]
      _ = pool := by rw [same]; simp [List.filterMap_map]
  have visits : upcoming pool start (List.range pool.length) =
      (scan start pool.length).filterMap (pool[·]?) := by
    simp only [upcoming, scan, List.filterMap_map]
    rfl
  rw [visits]
  have permuted := (scan_perm start pool.length).filterMap (pool[·]?)
  rwa [inOrder] at permuted

/-- The targets still to be looked at, and those saved for the second pass, are attempted at
    most once for every time they stand there. -/
theorem firstPass_subperm {is : List Nat} {cooling : List String} {T : List (Select Stream).Event}
    {r : Connected Stream} (run : Exec (firstPass pool nonempty start port is cooling) T r) :
    ((attempts T).map (·.1)).Subperm (cooling ++ upcoming pool start is) := by
  induction is generalizing cooling T with
  | nil =>
    simp only [upcoming, List.filterMap_nil, List.append_nil]
    cases (secondPass_exec run).2 with
    | inl stopped => exact stopped.2.sublist.subperm
    | inr exhausted => rw [exhausted.2.1]
  | cons i is ih =>
    obtain ⟨target, o, check, tail, hget, hcheck, rfl, hnext⟩ := firstPass_exec_cons run
    rw [hcheck.attempts, upcoming_cons hget]
    cases o with
    | failed e =>
      rw [hnext.1]
      exact List.nil_subperm
    -- A drained target is passed over.
    | drained =>
      apply (ih hnext).trans
      exact ((List.sublist_cons_self target _).append_left cooling).subperm
    | cooling => simpa using ih hnext
    | usable =>
      obtain ⟨out, after, rfl, hnext⟩ := hnext
      have later : ((attempts after).map (·.1)).Subperm (cooling ++ upcoming pool start is) := by
        cases out with
        | tryNext => exact ih hnext
        | ready | fatal =>
          rw [hnext.1]
          exact List.nil_subperm
      exact ((List.subperm_cons target).mpr later).trans List.perm_middle.symm.subperm

end Positions

/-! ## The two passes of a call -/

/-- The first pass attempts what it finds usable, the second what the first found cooling. -/
theorem call_passes {config : ProxyConfig} {port : UInt16} {pool : List String}
    (hpool : config.getPool port = some pool) {T : List (Select Stream).Event}
    {r : Connected Stream} (run : Exec (connectBackend config port) T r) :
    ∃ first second, T = first ++ second ∧ observations second = [] ∧
      (attempts first).map (·.1) = targetsSeen .usable (observations first) ∧
      (attempts second).map (·.1) <+: targetsSeen .cooling (observations first) := by
  by_cases nonempty : 0 < pool.length
  swap
  · simp only [connectBackend, hpool, dif_neg nonempty] at run
    obtain ⟨rfl, -⟩ := exec_ret.mp run
    exact ⟨[], [], rfl, rfl, rfl, List.nil_prefix⟩
  obtain ⟨drawn, tail, rfl, cont⟩ := connectBackend_exec hpool nonempty run
  cases drawn with
  | none =>
    rw [cont.1]
    exact ⟨[⟨.fetchAdd port, none⟩], [], rfl, rfl, rfl, List.nil_prefix⟩
  | some counter =>
    obtain ⟨first, second, rfl, none_checked, -, direct, ends⟩ := firstPass_exec cont
    exact ⟨⟨.fetchAdd port, some counter⟩ :: first, second, rfl, none_checked, direct, ends.retried⟩

theorem call_subperm {config : ProxyConfig} {port : UInt16} {pool : List String}
    (hpool : config.getPool port = some pool) {T : List (Select Stream).Event} {r : Connected Stream}
    (run : Exec (connectBackend config port) T r) : ((attempts T).map (·.1)).Subperm pool := by
  by_cases nonempty : 0 < pool.length
  · obtain ⟨drawn, tail, rfl, cont⟩ := connectBackend_exec hpool nonempty run
    cases drawn with
    | none =>
      rw [cont.1]
      exact List.nil_subperm
    | some counter => exact (firstPass_subperm cont).trans (upcoming_range pool _).subperm
  · simp only [connectBackend, hpool, dif_neg nonempty] at run
    obtain ⟨rfl, -⟩ := exec_ret.mp run
    exact List.nil_subperm

/-! ## Drained targets -/

/-- With nothing else running, a target that is drained when the call starts is not tried. -/
theorem drained_not_tried {config : ProxyConfig} {port : UInt16} {s t : Store w}
    {parts : List (Part Stream)} {r : Connected Stream}
    (call : Sequential config s (.connectBackend port parts r) t) {target : String}
    (drained : s.targets.targetStatus target = some .drain) : target ∉ tried parts := by
  cases call with
  | connectBackend whole run =>
    -- No part of the call takes the target out of its drain, so each check finds it drained.
    have checks : ∀ e ∈ parts.map (·.event), ChecksDrained target e := by
      intro e member
      obtain ⟨p, part, rfl⟩ := List.mem_map.mp member
      obtain ⟨pre, post, u, v, -, before, step, -⟩ := run.mem_step part
      have still := before.invariant (I := fun u => u.targets.targetStatus target = some .drain) drained
        fun u p v now step => part_drained step now
      obtain ⟨⟨op, a⟩, tr⟩ := p
      cases op with
      | fetchAdd | now | connect => trivial
      | getTargetStatus x =>
        rintro rfl
        have loads : tr = [⟨.load x, a⟩] := exec_perform.mp step.1
        have runs : u.Runs tr v := step.2
        rw [loads] at runs
        rw [runs.of_single.1, TargetState.getTargetStatus_of_some still]
    have avoids := safe_trace whole (avoids_connectBackend (t := target) config port) checks
    intro member
    rw [tried_eq] at member
    obtain ⟨a, attempted, rfl⟩ := List.mem_map.mp member
    obtain ⟨forPort, made⟩ := mem_of_attempted attempted
    exact avoids _ made rfl

/-! ## A call that nothing answers -/

/-- The same entries, and the same ones of them drained. -/
def SameDrains (s u : Store w) : Prop :=
  ∀ x, (u.targets.targetStatus x).isSome = (s.targets.targetStatus x).isSome ∧
    (u.targets.targetStatus x = some .drain ↔ s.targets.targetStatus x = some .drain)

theorem SameDrains.refl (s : Store w) : SameDrains s s := fun _ => ⟨rfl, Iff.rfl⟩

/-- An attempt on a name that resolves to nothing: it fails, and drains nothing. -/
theorem refused_attempt {s : Store w} {target : String}
    (known : (s.targets.targetStatus target).isSome) (port : UInt16) :
    ∃ (p : Part Stream) (u : Store w), p.event = ⟨.connect target port, .tryNext⟩ ∧
      PartStep s p u ∧ SameDrains s u := by
  obtain ⟨status, stored⟩ := Option.isSome_iff_exists.mp known
  have loaded := (TargetState.getTargetStatus_of_some stored).symm
  cases status with
  | drain =>
    refine ⟨⟨⟨.connect target port, .tryNext⟩,
      [⟨.lookupHost target, .ok []⟩, ⟨.load target, .ok .drain⟩]⟩, s, rfl, ⟨?_, ?_⟩, .refl s⟩
    · exact .cons (.cons (.nil _))
    · exact .cons rfl (.cons ⟨loaded, rfl⟩ (.nil s))
  | alive coolUntil =>
    let later : BackendStatus := .alive (some (s.clock + COOLDOWN))
    refine ⟨⟨⟨.connect target port, .tryNext⟩, [⟨.lookupHost target, .ok []⟩,
      ⟨.load target, .ok (.alive coolUntil)⟩, ⟨.now, s.clock⟩, ⟨.now, s.clock⟩,
      ⟨.store target later, (s.targets.updateTargetStatus target later).2⟩]⟩,
      { s with targets := (s.targets.updateTargetStatus target later).1 }, rfl, ⟨?_, ?_⟩, ?_⟩
    · exact .cons (.cons (.cons (.cons (.cons (.nil _)))))
    · exact .cons rfl (.cons ⟨loaded, rfl⟩ (.cons ⟨Nat.le_refl _, rfl⟩ (.cons ⟨Nat.le_refl _, rfl⟩
        (.cons ⟨rfl, rfl⟩ (.nil _)))))
    · intro x
      refine ⟨TargetState.updateTargetStatus_isSome _ _ _ _, ?_⟩
      show (s.targets.updateTargetStatus target later).1.targetStatus x = _ ↔ _
      rw [TargetState.updateTargetStatus_status]
      split
      next same => simp [later, same.1, stored]
      · exact Iff.rfl

section Refused

variable {pool : List String} {nonempty : 0 < pool.length} {start : Nat} {port : UInt16}
  {p : Program (Select Stream) (Connected Stream)} {targets : List String}

/-- From `s` the program may try exactly these targets. -/
def CanTry (s : Store w) (p : Program (Select Stream) (Connected Stream)) (targets : List String) : Prop :=
  ∃ (parts : List (Part Stream)) (t : Store w) (r : Connected Stream),
    Exec p (parts.map (·.event)) r ∧ Run PartStep s parts t ∧ (tried parts).Perm targets

theorem CanTry.perm {s : Store w} {targets' : List String} (h : CanTry s p targets)
    (same : targets.Perm targets') : CanTry s p targets' := by
  obtain ⟨parts, t, r, exec, run, all⟩ := h
  exact ⟨parts, t, r, exec, run, all.trans same⟩

theorem CanTry.getTargetStatus {s : Store w} {target : String} {status : BackendStatus}
    {next : Except ProxyError BackendStatus → Program (Select Stream) (Connected Stream)}
    (stored : s.targets.targetStatus target = some status) (h : CanTry s (next (.ok status)) targets) :
    CanTry s (.ask (.getTargetStatus target) next) targets := by
  obtain ⟨parts, t, r, exec, run, all⟩ := h
  have loaded := (TargetState.getTargetStatus_of_some stored).symm
  refine ⟨⟨⟨.getTargetStatus target, .ok status⟩, [⟨.load target, .ok status⟩]⟩ :: parts, t, r, ?_, ?_, all⟩
  · exact .cons exec
  · exact .cons ⟨.cons (.nil _), .single ⟨loaded, rfl⟩⟩ run

theorem CanTry.now {s : Store w} {next : Instant → Program (Select Stream) (Connected Stream)}
    (h : CanTry s (next s.clock) targets) : CanTry s (.ask .now next) targets := by
  obtain ⟨parts, t, r, exec, run, all⟩ := h
  refine ⟨⟨⟨.now, s.clock⟩, [⟨.now, s.clock⟩]⟩ :: parts, t, r, ?_, ?_, all⟩
  · exact .cons exec
  · exact .cons ⟨.cons (.nil _), .single ⟨Nat.le_refl _, rfl⟩⟩ run

/-- Where the name of a target resolves to nothing, an attempt on it goes on to the next one. -/
theorem CanTry.attempt {s : Store w} {target : String} (known : (s.targets.targetStatus target).isSome)
    (h : ∀ u : Store w, SameDrains s u → CanTry u p targets) :
    CanTry s (perform (I := Select Stream) (.connect target port) >>= resume p) (target :: targets) := by
  obtain ⟨refused, u, made, step, same⟩ := @refused_attempt w Stream s target known port
  obtain ⟨parts, t, r, exec, run, all⟩ := h u same
  refine ⟨refused :: parts, t, r, ?_, .cons step run, ?_⟩
  · rw [List.map_cons, made]
    exact .cons exec
  · rw [tried_eq, List.map_cons, made, attempts, List.map_cons, ← tried_eq]
    exact all.cons target

theorem secondPass_refused {cooling : List String} {s : Store w}
    (known : ∀ x ∈ cooling, (s.targets.targetStatus x).isSome) :
    CanTry s (secondPass port cooling : Program (Select Stream) (Connected Stream)) cooling := by
  induction cooling generalizing s with
  | nil => exact ⟨[], s, _, .nil _, .nil s, .nil⟩
  | cons target cooling ih =>
    rw [secondPass_cons]
    apply CanTry.attempt (known target List.mem_cons_self)
    intro u same
    apply ih
    intro x member
    rw [(same x).1]
    exact known x (List.mem_cons_of_mem _ member)

def undrained (s : Store w) (target : String) : Bool := s.targets.targetStatus target ≠ some .drain

theorem SameDrains.undrained {s u : Store w} (same : SameDrains s u) : undrained u = undrained s := by
  funext x
  simp [TcpProxy.undrained, (same x).2]

/-- Where every name resolves to nothing, a call tries every position with an undrained target:
    those found cooling, which include the failed targets that come again, in the second pass. -/
theorem firstPass_refused {is : List Nat} {cooling : List String} {s : Store w}
    (known : ∀ x ∈ cooling ++ upcoming pool start is, (s.targets.targetStatus x).isSome) :
    CanTry s (firstPass pool nonempty start port is cooling : Program (Select Stream) (Connected Stream))
      (cooling ++ (upcoming pool start is).filter (undrained s)) := by
  induction is generalizing cooling s with
  | nil =>
    have retried : CanTry s (secondPass port cooling : Program (Select Stream) (Connected Stream)) cooling :=
      secondPass_refused fun x member => known x (by simpa [upcoming] using member)
    exact retried.perm (by simp [upcoming])
  | cons i is ih =>
    have bound : position start i pool.length < pool.length := Nat.mod_lt _ nonempty
    have hget : pool[position start i pool.length]? = some (pool.get ⟨_, bound⟩) := by simp
    rw [firstPass_cons]
    rw [upcoming_cons hget] at known ⊢
    generalize pool.get ⟨position start i pool.length, bound⟩ = target at known ⊢
    have later : ∀ x ∈ cooling ++ upcoming pool start is, (s.targets.targetStatus x).isSome := by
      intro x member
      apply known x
      simp only [List.mem_append, List.mem_cons] at member ⊢
      exact member.imp id .inr
    -- The attempt on a target that is found usable.
    have attempted : undrained s target = true →
        CanTry s (perform (I := Select Stream) (.connect target port) >>=
          resume (firstPass pool nonempty start port is cooling))
          (cooling ++ (target :: upcoming pool start is).filter (undrained s)) := by
      intro live
      rw [List.filter_cons_of_pos live]
      refine CanTry.perm ?_ List.perm_middle.symm
      apply CanTry.attempt (known target (by simp))
      intro u same
      rw [← same.undrained]
      apply ih
      intro x member
      rw [(same x).1]
      exact later x member
    obtain ⟨status, stored⟩ := Option.isSome_iff_exists.mp (known target (by simp))
    apply CanTry.getTargetStatus stored
    cases status with
    | drain =>
      have dead : undrained s target = false := by simp [undrained, stored]
      rw [List.filter_cons_of_neg (by simp [dead])]
      exact ih later
    | alive coolUntil =>
      have live : undrained s target = true := by simp [undrained, stored]
      cases coolUntil with
      | none => exact attempted live
      | some time =>
        apply CanTry.now
        show CanTry s (if time > s.clock then _ else _) _
        by_cases running : time > s.clock
        · -- The target is saved, and comes after those that were saved before it.
          have saved := ih (List.append_cons cooling target _ ▸ known)
          rw [List.append_assoc] at saved
          rw [if_pos running, List.filter_cons_of_pos live]
          exact saved
        · rw [if_neg running]
          exact attempted live

end Refused

theorem call_refused {config : ProxyConfig} {port : UInt16} {pool : List String}
    (hpool : config.getPool port = some pool) (nonempty : 0 < pool.length) {s : Store w}
    {counter : BitVec w} (drawn : s.counters port = some counter)
    (known : ∀ x ∈ pool, (s.targets.targetStatus x).isSome) :
    ∃ (parts : List (Part Stream)) (t : Store w) (r : Connected Stream),
      Sequential config s (.connectBackend port parts r) t ∧
      (tried parts).Perm (pool.filter (undrained s)) := by
  have whole := upcoming_range pool (counter.toNat % pool.length)
  obtain ⟨parts, t, r, exec, run, all⟩ :=
    @firstPass_refused w Stream pool nonempty (counter.toNat % pool.length) port
      (List.range pool.length) [] (s.bump port) fun x member => known x (whole.subset (by simpa using member))
  refine ⟨⟨⟨.fetchAdd port, some counter.toNat⟩, [⟨.fetchAdd port, some counter.toNat⟩]⟩ :: parts,
    t, r, .connectBackend ?_ (.cons ⟨.cons (.nil _), .single ⟨?_, rfl⟩⟩ run), ?_⟩
  · simp only [connectBackend, hpool, dif_pos nonempty]
    exact .cons exec
  · show some counter.toNat = (s.counters port).map BitVec.toNat
    rw [drawn]
    rfl
  · exact all.trans (whole.filter _)

/-! ## How often a target is tried -/

def listedTwice : RawConfig := ⟨[⟨"web", [8080], ["a:1", "a:1"]⟩]⟩

def listedTwiceConfig : ProxyConfig :=
  ⟨[["a:1", "a:1"]], (∅ : Std.TreeMap UInt16 Nat).insert 8080 0⟩

def refusedTrace (c : Option Instant) : List (Stack Unit).Event :=
  [⟨.lookupHost "a:1", .ok []⟩, ⟨.load "a:1", .ok (.alive c)⟩, ⟨.now, 0⟩, ⟨.now, 0⟩,
    ⟨.store "a:1" (.alive (some COOLDOWN)), .ok ()⟩]

/-- The first attempt leaves a cooldown, so the second position is left for the second pass. -/
def triedTwice : List (Part Unit) :=
  [⟨⟨.fetchAdd 8080, some 0⟩, [⟨.fetchAdd 8080, some 0⟩]⟩,
    ⟨⟨.getTargetStatus "a:1", .ok (.alive none)⟩, [⟨.load "a:1", .ok (.alive none)⟩]⟩,
    ⟨⟨.connect "a:1" 8080, .tryNext⟩, refusedTrace none⟩,
    ⟨⟨.getTargetStatus "a:1", .ok (.alive (some COOLDOWN))⟩,
      [⟨.load "a:1", .ok (.alive (some COOLDOWN))⟩]⟩,
    ⟨⟨.now, 0⟩, [⟨.now, 0⟩]⟩,
    ⟨⟨.connect "a:1" 8080, .tryNext⟩, refusedTrace (some COOLDOWN)⟩]

theorem refusedTrace_runs {s : Store 64} {c : Option Instant} (early : s.clock = 0)
    (alive : s.targets.targetStatus "a:1" = some (.alive c)) :
    ∃ u : Store 64, s.Runs (refusedTrace c) u ∧ u.clock = 0 ∧
      u.targets.targetStatus "a:1" = some (.alive (some COOLDOWN)) := by
  have known : (s.targets.targetStatus "a:1").isSome := by rw [alive]; rfl
  let status : BackendStatus := .alive (some COOLDOWN)
  obtain ⟨stored, done⟩ : _ = some status ∧ _ := TargetState.updateTargetStatus_eq known
  have loaded := (TargetState.getTargetStatus_of_some alive).symm
  exact ⟨_, .cons rfl (.cons ⟨loaded, rfl⟩ (.cons ⟨early.le, rfl⟩ (.cons ⟨Nat.le_refl 0, rfl⟩
    (.cons ⟨done.symm, rfl⟩ (.nil _))))), rfl, stored⟩

theorem triedTwice_sequential {targets : TargetState}
    (statuses : TargetState.tryFrom listedTwice = .ok targets) :
    ∃ (r : Connected Unit) (t : Store 64),
      Sequential listedTwiceConfig (.new listedTwiceConfig targets 0)
        (.connectBackend 8080 triedTwice r) t := by
  let start : Store 64 := .new listedTwiceConfig targets 0
  have alive : targets.targetStatus "a:1" = some (.alive none) := by cases statuses; rfl
  obtain ⟨s, first, early, cooled⟩ := refusedTrace_runs (s := start.bump 8080) rfl alive
  obtain ⟨t, second, -, -⟩ := refusedTrace_runs early cooled
  have drawn : start.Runs [(⟨.fetchAdd 8080, some 0⟩ : (Stack Unit).Event)] (start.bump 8080) :=
    .single ⟨rfl, rfl⟩
  have usable : (start.bump 8080).Runs [(⟨.load "a:1", .ok (.alive none)⟩ : (Stack Unit).Event)]
      (start.bump 8080) := .single ⟨(TargetState.getTargetStatus_of_some alive).symm, rfl⟩
  have cooling : s.Runs [(⟨.load "a:1", .ok (.alive (some COOLDOWN))⟩ : (Stack Unit).Event)] s :=
    .single ⟨(TargetState.getTargetStatus_of_some cooled).symm, rfl⟩
  have compared : s.Runs [(⟨.now, 0⟩ : (Stack Unit).Event)] s :=
    .single ⟨early.le, by rw [← early]⟩
  have attempted : ∀ c, Exec (carry (.connect "a:1" 8080)) (refusedTrace c) .tryNext :=
    fun _ => .cons (.cons (.cons (.cons (.cons (.nil _)))))
  exact ⟨_, t, .connectBackend (.cons (.cons (.cons (.cons (.cons (.cons (.nil _)))))))
    (.cons ⟨.cons (.nil _), drawn⟩ (.cons ⟨.cons (.nil _), usable⟩ (.cons ⟨attempted none, first⟩
      (.cons ⟨.cons (.nil _), cooling⟩ (.cons ⟨.cons (.nil _), compared⟩
        (.cons ⟨attempted (some COOLDOWN), second⟩ (.nil t)))))))⟩

end TcpProxy
