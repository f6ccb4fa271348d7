import TcpProxy.Balancer.Draining
import TcpProxy.Balancer.Exhaustion
import TcpProxy.Lib.Contract

/-! # What an attempt follows on

`connect_backend` attempts a target in two cases only.  Either it has just found the target
usable, or it has come to its second pass, and then it has been over the whole pool without
success. -/

namespace TcpProxy

open Effects Effects.Program Cyclic RoundRobin SimpleCooldownHandler

variable {Stream : Type} {config : ProxyConfig} {pool : List String} {forPort : UInt16} {target : String}

namespace RoundRobin

/-- The first pass is done with the target: it skipped it, or the attempt on it failed. -/
inductive Settled (target : String) (T : List (Select Stream).Event) : Prop
  | skipped {o : Observation} {before check : List (Select Stream).Event} : Check target o check →
      o = .drained ∨ o = .cooling → before ++ check <+: T → Settled target T
  | tried {port : UInt16} : ⟨.connect target port, .tryNext⟩ ∈ T → Settled target T

theorem Settled.later {T T' : List (Select Stream).Event} (h : Settled target T) (longer : T <+: T') :
    Settled target T' := by
  cases h with
  | skipped check unusable before => exact .skipped check unusable (before.trans longer)
  | tried attempted => exact .tried (longer.subset attempted)

/-- The last that the call did was to find the target usable. -/
def FoundUsable (target : String) (T : List (Select Stream).Event) : Prop :=
  ∃ before check, T = before ++ check ∧ Check target .usable check

def Justified (pool : List String) (T : List (Select Stream).Event) : SelectOp → Prop
  | .connect target _ => FoundUsable target T ∨ ∀ t ∈ pool, Settled t T
  | _ => True

theorem resume_justified {T : List (Select Stream).Event} (asks : Justified pool T (.connect target forPort))
    {k : Program (Select Stream) (Connected Stream)}
    (goes_on : Contract (fun _ => True) (Justified pool) (fun _ _ => True)
      (T ++ [⟨.connect target forPort, .tryNext⟩]) k) :
    Contract (fun _ => True) (Justified pool) (fun _ _ => True) T
      (perform (I := Select Stream) (.connect target forPort) >>= resume k) := by
  refine ⟨asks, fun out _ => ?_⟩
  cases out with
  | tryNext => exact goes_on
  | ready | fatal => trivial

theorem secondPass_justified (cooling : List String) {T : List (Select Stream).Event}
    (settled : ∀ t ∈ pool, Settled t T) :
    Contract (fun _ => True) (Justified pool) (fun _ _ => True) T (secondPass forPort cooling) := by
  induction cooling generalizing T with
  | nil => trivial
  | cons target cooling ih =>
    rw [secondPass_cons]
    exact resume_justified (.inr settled) (ih fun t listed => (settled t listed).later (List.prefix_append _ _))

theorem firstPass_justified {nonempty : 0 < pool.length} {startIdx : Nat} (is : List Nat) (cooling : List String)
    {T : List (Select Stream).Event}
    (left : ∀ t ∈ pool, Settled t T ∨
      ∃ i ∈ is, t = pool.get ⟨position startIdx i pool.length, Nat.mod_lt _ nonempty⟩) :
    Contract (fun _ => True) (Justified pool) (fun _ _ => True) T
      (firstPass pool nonempty startIdx forPort is cooling) := by
  induction is generalizing cooling T with
  | nil => exact secondPass_justified cooling fun t listed => (left t listed).resolve_right (by simp)
  | cons i is ih =>
    rw [firstPass_cons]
    generalize chosen : pool.get ⟨position startIdx i pool.length, Nat.mod_lt _ nonempty⟩ = target
    -- When the target is settled, the rest of the iterations are left.
    have goes_on (cooling : List String) {T' : List (Select Stream).Event} (longer : T <+: T')
        (settled : Settled target T') : Contract (fun _ => True) (Justified pool) (fun _ _ => True) T'
          (firstPass pool nonempty startIdx forPort is cooling) := by
      refine ih cooling fun t listed => ?_
      rcases left t listed with done | ⟨j, at_j, same⟩
      · exact .inl (done.later longer)
      · rcases List.mem_cons.mp at_j with rfl | later
        · rw [same, chosen]
          exact .inl settled
        · exact .inr ⟨j, later, same⟩
    have attempt (cooling : List String) {check : List (Select Stream).Event} (usable : Check target .usable check) :
        Contract (fun _ => True) (Justified pool) (fun _ _ => True) (T ++ check)
          (perform (I := Select Stream) (.connect target forPort) >>=
            resume (firstPass pool nonempty startIdx forPort is cooling)) := by
      refine resume_justified (.inl ⟨T, check, rfl, usable⟩) (goes_on cooling ?_ (.tried (List.mem_append_right _ List.mem_cons_self)))
      rw [List.append_assoc]
      exact List.prefix_append _ _
    refine ⟨trivial, fun status _ => ?_⟩
    rcases status with e | (time | _)
    · trivial
    · cases time with
      | none => exact attempt cooling .alive
      | some time =>
        refine ⟨trivial, fun reading _ => ?_⟩
        show Contract _ _ _ _ (if time > reading then _ else _)
        rw [List.append_assoc]
        split
        next later =>
          exact goes_on _ (List.prefix_append _ _) (.skipped (.cooling later) (.inr rfl) (List.prefix_refl _))
        next past => exact attempt cooling (.expired past)
    · exact goes_on _ (List.prefix_append _ _) (.skipped .drained (.inl rfl) (List.prefix_refl _))

theorem connectBackend_justified (hpool : config.getPool forPort = some pool) :
    Contract (fun _ => True) (Justified pool) (fun _ _ => True) []
      (connectBackend config forPort : Program (Select Stream) _) := by
  simp only [connectBackend, hpool]
  split
  next nonempty =>
    refine ⟨trivial, fun drawn _ => ?_⟩
    cases drawn with
    | none => trivial
    | some counter =>
      refine firstPass_justified _ _ fun t listed => .inr ?_
      obtain ⟨j, inside, rfl⟩ := List.getElem_of_mem listed
      have on_scan : j ∈ scan (counter % pool.length) pool.length :=
        (scan_perm _ _).mem_iff.mpr (List.mem_range.mpr inside)
      obtain ⟨i, at_i, same⟩ := List.mem_map.mp on_scan
      refine ⟨i, at_i, ?_⟩
      simp only [position, same, List.get_eq_getElem]
  · trivial

end RoundRobin

namespace SimpleCooldownHandler

/-- The last that the call did was to find the status of the target usable. -/
inductive LoadedUsable (target : String) : List (Stack Stream).Event → Prop
  | alive {before : List (Stack Stream).Event} :
      LoadedUsable target (before ++ [⟨.load target, .ok (.alive none)⟩])
  | expired {before : List (Stack Stream).Event} {time reading : Instant} : time ≤ reading →
      LoadedUsable target (before ++ [⟨.load target, .ok (.alive (some time))⟩, ⟨.now, reading⟩])

/-- The call found the target drained or cooling, or tried it in vain. -/
inductive Skipped (target : String) (tr : List (Stack Stream).Event) : Prop
  | passed : PassedOver target tr → Skipped target tr
  | cooling {time : Instant} : ⟨.load target, .ok (.alive (some time))⟩ ∈ tr → Skipped target tr

theorem carried_load {a : Except ProxyError BackendStatus} {T : List (Select Stream).Event}
    {tr : List (Stack Stream).Event} (un : Unfolds (I := Select Stream) carry (⟨.getTargetStatus target, a⟩ :: T) tr) :
    ∃ rest, tr = ⟨.load target, a⟩ :: rest ∧ Unfolds carry T rest := by
  obtain ⟨sub, rest, rfl, ran, later⟩ := un.uncons
  obtain rfl := exec_perform.mp (show Exec (perform (I := Stack Stream) (.load target)) sub a from ran)
  exact ⟨rest, rfl, later⟩

theorem carried_now {a : Instant} {T : List (Select Stream).Event} {tr : List (Stack Stream).Event}
    (un : Unfolds (I := Select Stream) carry (⟨.now, a⟩ :: T) tr) :
    ∃ rest, tr = ⟨.now, a⟩ :: rest ∧ Unfolds carry T rest := by
  obtain ⟨sub, rest, rfl, ran, later⟩ := un.uncons
  obtain rfl := exec_perform.mp (show Exec (perform (I := Stack Stream) .now) sub a from ran)
  exact ⟨rest, rfl, later⟩

theorem loadedUsable_of_carried {T : List (Select Stream).Event} {tr : List (Stack Stream).Event}
    (un : Unfolds carry T tr) (found : FoundUsable target T) : LoadedUsable target tr := by
  obtain ⟨before, check, rfl, usable⟩ := found
  obtain ⟨front, back, rfl, -, last⟩ := un.split
  cases usable with
  | alive =>
    obtain ⟨rest, rfl, nothing⟩ := carried_load last
    cases nothing
    exact .alive
  | expired past =>
    obtain ⟨rest, rfl, read⟩ := carried_load last
    obtain ⟨rest, rfl, nothing⟩ := carried_now read
    cases nothing
    exact .expired (Nat.le_of_not_lt past)

theorem skipped_of_carried {T : List (Select Stream).Event} {tr : List (Stack Stream).Event}
    (un : Unfolds carry T tr) (settled : Settled target T) : Skipped target tr := by
  cases settled with
  | @skipped o before check checked unusable longer =>
    obtain ⟨after, rfl⟩ := longer
    obtain ⟨first, rest, rfl, early, -⟩ := un.split
    obtain ⟨front, back, rfl, -, middle⟩ := early.split
    cases checked with
    | failed => simp at unusable
    | alive | expired => simp at unusable
    | drained =>
      obtain ⟨rest, rfl, -⟩ := carried_load middle
      exact .passed (.inl (by simp))
    | cooling later =>
      obtain ⟨rest, rfl, -⟩ := carried_load middle
      exact .cooling (List.mem_append_left _ (List.mem_append_right _ List.mem_cons_self))
  | @tried port attempted =>
    obtain ⟨sub, ran, within⟩ := un.infix attempted
    obtain ⟨T', tries, handled⟩ := exec_interp.mp ran
    have in_vain : InVain target sub :=
      inVain_of_connect handled (show Exec (connect target port) T' .tryNext from tries) (List.infix_refl T')
    exact .passed (.inr (in_vain.later within.subset))

/-- What a call does before it attempts a target. -/
theorem before_attempt (hpool : config.getPool forPort = some pool) {tr : List (Stack Stream).Event}
    {next : Except ProxyError (List SocketAddr) → Program (Stack Stream) (RoundRobin.Connected Stream)}
    (steps : Steps (stackConnectBackend config forPort) tr (.ask (.lookupHost target) next)) :
    LoadedUsable target tr ∨ ∀ t ∈ pool, Skipped t tr := by
  rw [stackConnectBackend_eq] at steps
  rcases steps_interp steps with ⟨T, v, -, -, ended⟩ |
    ⟨T, op, nextS, front, back, op', next', rfl, selected, un, current, same⟩
  · cases ended
  · cases same
    have justified := ((connectBackend_justified hpool).steps selected fun _ _ => trivial).1.1
    cases op with
    | fetchAdd | getTargetStatus | now =>
      rcases steps_ask current with ⟨-, waiting⟩ | ⟨a, rest, -, settled⟩
      · cases waiting
      · cases settled
    | connect x port =>
      obtain ⟨k, asks, uses⟩ : ∃ k : _ → Program (Stack Stream) _,
          carry (.connect x port) = .ask (.lookupHost x) k ∧
            ∀ ans, Uses (NotLookup target) (k ans) := carry_connect target x port
      rw [asks] at current
      rcases steps_ask current with ⟨rfl, waiting⟩ | ⟨ans, rest, -, looked⟩
      · cases waiting
        rw [List.append_nil]
        exact justified.imp (loadedUsable_of_carried un) fun settled t listed =>
          skipped_of_carried un (settled t listed)
      · exact absurd rfl (uses_steps looked (uses ans)).1

end SimpleCooldownHandler

end TcpProxy
