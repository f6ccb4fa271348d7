import TcpProxy.Proxy.Records

/-! # The server comes to its end

Once the token is cancelled or a listener failed, and the ports are bound, `run` needs
nothing more from outside to return: no bind, no `accept()`, no connection that ends.
Each of the steps left lowers `toGo`. -/

namespace TcpProxy

open Lts (Run Fires)

/-- Steps of a `listen` task until it is joined, its reaped connections apart. -/
def ListenPhase.toGo : ListenPhase → Nat
  | returned _ | panicked _ => 1
  | draining _ => 2
  | spawned | accepting => 3
  | reaping => 4
  | queueing => 5

def Listener.toGo (listener : Listener) : Nat :=
  if listener.joined then 0 else listener.phase.toGo

/-- Finished, and still in its `JoinSet`. -/
def Connection.unreaped (c : Connection) : Bool := !c.phase.unfinished && !c.reaped

def RunPhase.toGo : RunPhase → Nat
  | binding _ _ => 0
  | spawning rest => 4 * rest.length + 1
  | joining => 1
  | returned _ => 0

namespace Server

/-- The steps `run` and its tasks take without anything from outside. -/
def Event.isOwn : Event → Bool
  | .spawn | .join _ | .ret => true
  | .listen _ (.accept _) | .listen _ (.panic _) => false
  | .listen _ _ => true
  | _ => false

def toGo (s : Server) : Nat :=
  s.phase.toGo + (s.listeners.map Listener.toGo).sum +
    s.admission.connections.countP Connection.unreaped

variable {es : List Event} {s t : Server} {ports : List UInt16} {bindAddr : IpAddr}

/-- A step that `run` or one of its tasks can take, and that leaves less to do. -/
def GoesOn (s : Server) : Prop :=
  ∃ e t, e.isOwn = true ∧ s.step e = some t ∧ t.toGo < s.toGo

theorem step_listen {l : Nat} {listener : Listener} (found : s.listeners[l]? = some listener)
    (e : ListenEvent) : s.step (.listen l e) = s.listen l listener.phase e := by
  simp [step, listenPhase?, found]

theorem toGo_setListen {l : Nat} {listener : Listener} (found : s.listeners[l]? = some listener)
    (unjoined : listener.joined = false) (p : ListenPhase) :
    (s.setListen l p).toGo + listener.phase.toGo = s.toGo + p.toGo := by
  have moved := sum_modify found ({ · with phase := p }) Listener.toGo
  simp only [Listener.toGo, unjoined, Bool.false_eq_true, if_false] at moved
  simp only [toGo, setListen]
  omega

theorem goesOn_setListen {l : Nat} {listener : Listener} {e : ListenEvent} {p : ListenPhase}
    (found : s.listeners[l]? = some listener) (unjoined : listener.joined = false)
    (own : (Event.listen l e).isOwn = true)
    (step : s.listen l listener.phase e = some (s.setListen l p))
    (less : p.toGo < listener.phase.toGo) : GoesOn s := by
  refine ⟨.listen l e, _, own, (step_listen found e).trans step, ?_⟩
  have := toGo_setListen found unjoined p
  omega

/-- `listen` leaves its `try_join_next` loop, or takes a finished task from its set. -/
theorem goesOn_reaping {l : Nat} {listener : Listener} (found : s.listeners[l]? = some listener)
    (unjoined : listener.joined = false) (at_reaping : listener.phase = .reaping) : GoesOn s := by
  by_cases empty : (s.admission.joinSet l).all (·.phase.unfinished)
  · refine goesOn_setListen (e := .reaped) (p := .accepting) found unjoined rfl ?_ ?_
    · rw [at_reaping]
      exact if_pos empty
    · rw [at_reaping]
      decide
  · obtain ⟨c, in_set, finished⟩ : ∃ c ∈ s.admission.joinSet l, c.phase.unfinished = false := by
      simpa using empty
    obtain ⟨present, belongs⟩ := List.mem_filter.mp in_set
    obtain ⟨owner, unreaped⟩ : c.listener = l ∧ c.reaped = false := by simpa using belongs
    obtain ⟨i, hi⟩ := List.mem_iff_getElem?.mp present
    let after := s.admission.connections.modify i ({ · with reaped := true })
    refine ⟨.listen l (.reap i), { s with admission := { s.admission with connections := after } },
      rfl, ?_, ?_⟩
    · rw [step_listen found, at_reaping]
      have owned : s.admission.owner? i = some l := by rw [Admission.owner?, hi, ← owner]; rfl
      obtain ⟨listener, phase, reaped⟩ := c
      subst unreaped
      cases phase with
      | finished result =>
        simp only [listen, reapFrom, owned, if_pos, Admission.reap, hi]
        rfl
      | accepted | queued | waiting | assigned | admitted | connecting => cases finished
    · have moved := sum_modify hi ({ · with reaped := true }) fun c => c.unreaped.toNat
      have counted : c.unreaped = true := by simp [Connection.unreaped, finished, unreaped]
      have uncounted : Connection.unreaped { c with reaped := true } = false := by
        simp [Connection.unreaped]
      rw [← countP_eq_sum, ← countP_eq_sum, counted, uncounted] at moved
      have fewer : after.countP Connection.unreaped + 1 =
          s.admission.connections.countP Connection.unreaped := moved
      simp only [toGo]
      omega

/-- The second half of `accept_connection` spawns at most an unfinished task. -/
theorem goesOn_queueing {l : Nat} {listener : Listener} (found : s.listeners[l]? = some listener)
    (unjoined : listener.joined = false) (at_queueing : listener.phase = .queueing) : GoesOn s := by
  refine ⟨.listen l .queue, _, rfl, by rw [step_listen found, at_queueing]; rfl, ?_⟩
  have back : ∀ a : Admission,
      a.connections.countP Connection.unreaped =
        s.admission.connections.countP Connection.unreaped →
      ({ s with admission := a }.setListen l .reaping).toGo < s.toGo := by
    intro a same
    have moved := toGo_setListen found unjoined .reaping
    rw [at_queueing] at moved
    simp only [toGo, setListen, same, ListenPhase.toGo] at moved ⊢
    omega
  cases taken : s.admission.tryQueue l with
  | none =>
    simp only [Admission.acceptQueue, taken]
    exact back _ rfl
  | some a =>
    simp only [Admission.acceptQueue, taken]
    refine back a ?_
    obtain ⟨sem, -, rfl⟩ := Option.map_eq_some_iff.mp taken
    simp [Admission.spawn, List.countP_append, Connection.unreaped, Phase.unfinished]

/-- A `listen` task that is not over goes on by itself once the token is cancelled. -/
theorem goesOn_of_live {l : Nat} {listener : Listener} (found : s.listeners[l]? = some listener)
    (unjoined : listener.joined = false) (live : listener.phase.ended = false)
    (heard : s.cancelled = true) : GoesOn s := by
  cases at_phase : listener.phase with
  | spawned | accepting =>
    refine goesOn_setListen (e := .cancelled) (p := .draining (.ok ())) found unjoined rfl ?_ ?_
    · rw [at_phase]
      exact if_pos heard
    · rw [at_phase]
      decide
  | reaping => exact goesOn_reaping found unjoined at_phase
  | queueing => exact goesOn_queueing found unjoined at_phase
  | draining acceptRes =>
    refine goesOn_setListen (e := .deadline) (p := .returned acceptRes) found unjoined rfl ?_ ?_
    · rw [at_phase]
      rfl
    · rw [at_phase]
      exact Nat.lt_succ_self 1
  | returned acceptRes | panicked message =>
    rw [at_phase] at live
    cases live

theorem join_of_ended {l : Nat} {listener : Listener} (found : s.listeners[l]? = some listener)
    (unjoined : listener.joined = false) (ended : listener.phase.ended = true) :
    ∃ t, s.join l = some t ∧ t.phase = s.phase ∧ t.listeners = s.joinedAt l ∧
      t.admission = s.admission := by
  obtain ⟨port, phase, joined⟩ := listener
  cases unjoined
  cases phase with
  | returned acceptRes =>
    cases acceptRes with
    | ok u =>
      simp only [join, found]
      exact ⟨_, rfl, rfl, rfl, rfl⟩
    | error e =>
      simp only [join, found]
      exact ⟨_, rfl, rfl, rfl, rfl⟩
  | panicked message =>
    simp only [join, found]
    exact ⟨_, rfl, rfl, rfl, rfl⟩
  | spawned | reaping | accepting | queueing | draining => cases ended

theorem goesOn_join {l : Nat} {listener : Listener} (joining : s.phase = .joining)
    (found : s.listeners[l]? = some listener) (unjoined : listener.joined = false)
    (ended : listener.phase.ended = true) : GoesOn s := by
  obtain ⟨t, taken, same_phase, listeners, same_admission⟩ := join_of_ended found unjoined ended
  refine ⟨.join l, t, rfl, (if_pos joining).trans taken, ?_⟩
  have moved := sum_modify found ({ · with joined := true }) Listener.toGo
  have one_left : listener.toGo = 1 := by
    rw [Listener.toGo, unjoined]
    cases at_phase : listener.phase with
    | returned | panicked => rfl
    | spawned | reaping | accepting | queueing | draining =>
      rw [at_phase] at ended
      cases ended
  have none_left : Listener.toGo { listener with joined := true } = 0 := rfl
  rw [one_left, none_left] at moved
  rw [toGo, toGo, same_phase, listeners, same_admission, joinedAt]
  omega

theorem goesOn_spawn {port : UInt16} {rest : List UInt16}
    (spawning : s.phase = .spawning (port :: rest)) : GoesOn s := by
  refine ⟨.spawn, _, rfl, by simp only [step, spawning]; rfl, ?_⟩
  have fewer : (toSpawn rest).toGo + 4 = (RunPhase.spawning (port :: rest)).toGo := by
    cases rest with
    | nil => rfl
    | cons port rest => simp only [toSpawn, RunPhase.toGo, List.length_cons]; omega
  have weight : Listener.toGo ⟨port, .spawned, false⟩ = 3 := rfl
  simp only [toGo, spawning, List.map_append, List.map_cons, List.map_nil, List.sum_append,
    List.sum_cons, List.sum_nil, weight]
  omega

theorem goesOn_ret (joining : s.phase = .joining) (settled : s.listeners.all (·.joined) = true) :
    GoesOn s := by
  refine ⟨.ret, _, rfl, if_pos ⟨joining, settled⟩, ?_⟩
  simp only [toGo, joining, RunPhase.toGo]
  omega

/-- A listener failed and the token is not cancelled: the failure was not joined yet. -/
theorem goesOn_of_failed {l : Nat} {e : ProxyError} (h : Recorded es s)
    (joining : s.phase = .joining) (failed : Failed es l e) (unheard : s.cancelled ≠ true) :
    GoesOn s := by
  obtain ⟨ev, present, fails⟩ := failed
  obtain ⟨le, rfl⟩ := failure_listener fails
  cases at_p : s.listenPhase? l with
  | none => exact absurd present (h.unborn l at_p le)
  | some p =>
    obtain ⟨listener, found, rfl⟩ := Option.map_eq_some_iff.mp at_p
    have outcome := h.outcome l _ at_p
    have no_error : s.firstError = none := by
      cases first : s.firstError with
      | none => rfl
      | some err => exact absurd (h.first err first).1 unheard
    -- a joined failure would have cancelled the token
    have unjoined : listener.phase.failure? ≠ none → listener.joined = false := by
      intro failing
      cases joined : listener.joined with
      | false => rfl
      | true => exact absurd no_error ((h.joins l listener found joined).2 failing)
    cases at_phase : listener.phase with
    | spawned | reaping | accepting | queueing =>
      rw [at_phase] at outcome
      exact absurd ⟨_, present, fails⟩ (outcome.2 e)
    | draining acceptRes =>
      have live : listener.joined = false := by
        cases joined : listener.joined with
        | false => rfl
        | true =>
          have settled := (h.joins l listener found joined).1
          rw [at_phase] at settled
          cases settled
      refine goesOn_setListen (e := .deadline) (p := .returned acceptRes) found live rfl ?_ ?_
      · rw [at_phase]
        rfl
      · rw [at_phase]
        exact Nat.lt_succ_self 1
    | returned acceptRes =>
      rw [at_phase] at outcome unjoined
      cases acceptRes with
      | ok u => exact absurd ⟨_, present, fails⟩ (outcome.2 e)
      | error err => exact goesOn_join joining found (unjoined nofun) (by rw [at_phase]; rfl)
    | panicked message =>
      rw [at_phase] at unjoined
      exact goesOn_join joining found (unjoined nofun) (by rw [at_phase]; rfl)

theorem goesOn_of_explained (h : Explained ports bindAddr es s) (all_bound : AllBound ports es)
    (ending : s.cancelled = true ∨ ∃ l e, Failed es l e) (running : ∀ r, s.phase ≠ .returned r) :
    GoesOn s := by
  have progress := h.progress
  unfold Progress at progress
  cases at_phase : s.phase with
  | binding bound rest =>
    rw [at_phase] at progress
    obtain ⟨more, rfl, so_far, -⟩ := progress
    -- more binds would have succeeded than were made
    have lengths := congrArg List.length (so_far.symm.trans all_bound)
    simp only [List.length_map, List.length_append] at lengths
    exact absurd (List.length_eq_zero_iff.mp (by omega)) more
  | spawning rest =>
    rw [at_phase] at progress
    cases rest with
    | nil => exact absurd rfl progress.1
    | cons port rest => exact goesOn_spawn at_phase
  | joining =>
    by_cases settled : s.listeners.all (·.joined) = true
    · exact goesOn_ret at_phase settled
    · by_cases heard : s.cancelled = true
      · obtain ⟨listener, present, unjoined⟩ : ∃ x ∈ s.listeners, x.joined = false := by
          simpa using settled
        obtain ⟨l, found⟩ := List.mem_iff_getElem?.mp present
        cases ended : listener.phase.ended with
        | false => exact goesOn_of_live found unjoined ended heard
        | true => exact goesOn_join at_phase found unjoined ended
      · obtain ⟨l, e, failed⟩ := ending.resolve_left heard
        exact goesOn_of_failed h.recorded at_phase failed heard
  | returned r => exact absurd at_phase (running r)

theorem token_kept {e : Event} (hs : s.step e = some t) (heard : s.cancelled = true) :
    t.cancelled = true := by
  cases step_effect hs with
  | listened _ _ only =>
    rcases only.token with same | ⟨now, -⟩
    · rw [same, heard]
    · exact now
  | joinedFailed | cancelled => rfl
  | bound | bindFailed | spawned | joined | returned | task => exact heard

/-- With all ports bound and the server going down, `run` gets to its return by itself. -/
theorem can_return (h : Explained ports bindAddr es s) (all_bound : AllBound ports es)
    (ending : s.cancelled = true ∨ ∃ l e, Failed es l e) :
    ∃ more t, Run (Fires step) s more t ∧ (∀ e ∈ more, e.isOwn = true) ∧
      ∃ r, t.phase = .returned r := by
  refine Lts.exists_run_of_measure toGo
    (I := fun es s => Explained ports bindAddr es s ∧ AllBound ports es ∧
      (s.cancelled = true ∨ ∃ l e, Failed es l e)) ?_ ⟨h, all_bound, ending⟩
  rintro es s ⟨h, all_bound, ending⟩ running
  obtain ⟨e, t, own, hs, less⟩ := goesOn_of_explained h all_bound ending fun r at_r => running ⟨r, at_r⟩
  refine ⟨e, t, own, hs, ⟨explained_step h hs, ?_, ?_⟩, less⟩
  · have quiet : e.bindResult? = none := by
      cases e with
      | bind result => cases own
      | _ => rfl
    exact (binds_quiet quiet).trans all_bound
  · rcases ending with heard | ⟨l, err, failed⟩
    · exact .inl (token_kept hs heard)
    · exact .inr ⟨l, err, failed.mono e⟩

end Server

end TcpProxy
