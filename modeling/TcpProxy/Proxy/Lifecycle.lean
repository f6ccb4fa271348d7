import TcpProxy.Proxy.JoinSets
import TcpProxy.Proxy.Records

/-! # The life of a connection

What one step does to the phase of one connection: the connection moves on by itself, it
is handed the open permit of one that ends, it is spawned, or it stays where it is. -/

namespace TcpProxy

open Lts (Run Fires)

/-- The task whose step an event is. -/
def Admission.Event.task? : Admission.Event → Option Nat
  | .poll i | .dropQueueSlot i | .finish i _ | .abort i => some i
  | .tryOpen _ | .tryQueue _ | .reap _ => none

/-- An open permit is dropped, unless the task of the event has none. -/
def Admission.Event.ends : Admission.Event → Bool
  | .finish _ _ | .abort _ => true
  | _ => false

/-- The phases task `i` goes through by its own steps. -/
inductive Phase.Moves (i : Nat) : Phase → Admission.Event → Phase → Prop
  | start : Moves i .accepted (.poll i) .connecting
  | granted : Moves i .queued (.poll i) .admitted
  | parked : Moves i .queued (.poll i) .waiting
  | resume : Moves i .assigned (.poll i) .admitted
  | enter : Moves i .admitted (.dropQueueSlot i) .connecting
  | ends {result : TaskEnd} : result ≠ .aborted →
      Moves i .connecting (.finish i result) (.finished result)
  | aborted {p : Phase} : p.unfinished = true → Moves i p (.abort i) (.finished .aborted)

/-- The task has reached `do_connection`. -/
def Phase.begun : Phase → Bool
  | connecting | finished _ => true
  | _ => false

theorem Phase.Moves.begun {i : Nat} {p p' : Phase} {e : Admission.Event} (moves : p.Moves i e p')
    (h : p.begun = true) : p'.begun = true := by
  cases moves with
  | start | granted | parked | resume | enter => cases h
  | ends | aborted => rfl

/-- The listener is in its accept loop, or about to enter it. -/
def ListenPhase.accepts : ListenPhase → Bool
  | spawned | reaping | accepting | queueing => true
  | draining _ | returned _ | panicked _ => false

namespace Admission

variable {s t : Admission} {e : Event} {i : Nat}

/-- A permit comes back: the waiter it is assigned to changes phase, nobody else does. -/
theorem phase?_releaseOpen (waits : s.Waits) (j : Nat) :
    s.releaseOpen.phase? j = s.phase? j ∨
      s.phase? j = some .waiting ∧ s.releaseOpen.phase? j = some .assigned := by
  rcases s.openConnections.release_cases with ⟨-, served, -, -⟩ | ⟨i, rest, first, served, -, -⟩
  · left
    simp only [releaseOpen, served]
    rfl
  · have waiting : s.phase? i = some .waiting :=
      (waits i).mp (by rw [first]; exact List.mem_cons_self)
    have handed : s.releaseOpen =
        ({ s with openConnections := s.openConnections.release.2 } : Admission).setPhase i .assigned := by
      rw [releaseOpen, served]
    rw [handed]
    by_cases same : i = j
    · subst same
      exact .inr ⟨waiting, phase?_setPhase_self waiting .assigned⟩
    · exact .inl (phase?_setPhase_ne _ same .assigned)

/-- The task of an event moves on. -/
theorem step_self (waits : s.Waits) (h : s.step e = some t) (mine : e.task? = some i) :
    ∃ p p', s.phase? i = some p ∧ t.phase? i = some p' ∧ p.Moves i e p' := by
  -- A task that drops its open permit is past waiting for one.
  have released : ∀ {p p' : Phase}, s.phase? i = some p → p ≠ .waiting → p' ≠ .waiting →
      (s.setPhase i p').releaseOpen.phase? i = some p' := by
    intro p p' at_p leaves joins
    have now := phase?_setPhase_self at_p p'
    rcases phase?_releaseOpen (waits.setPhase at_p p' leaves joins) i with same | ⟨waiting, -⟩
    · rw [same, now]
    · rw [now] at waiting
      exact absurd (Option.some.inj waiting) joins
  cases e with
  | tryOpen l | tryQueue l | reap j => cases mine
  | poll j =>
    cases mine
    simp only [step, poll] at h
    split at h
    next at_p => cases h; exact ⟨_, _, at_p, phase?_setPhase_self at_p _, .start⟩
    next at_p =>
      cases h
      refine ⟨_, _, at_p, phase?_setPhase_self at_p _, ?_⟩
      cases (s.openConnections.acquire i).1 with
      | true => exact .granted
      | false => exact .parked
    next at_p => cases h; exact ⟨_, _, at_p, phase?_setPhase_self at_p _, .resume⟩
    next => cases h
  | dropQueueSlot j =>
    cases mine
    simp only [step, dropQueueSlot] at h
    split at h
    next at_p => cases h; exact ⟨_, _, at_p, phase?_setPhase_self at_p _, .enter⟩
    next => cases h
  | finish j result =>
    cases mine
    simp only [step, finish] at h
    split at h
    next at_p =>
      split at h
      next => cases h
      next other => cases h; exact ⟨_, _, at_p, released at_p (by decide) (by simp), .ends other⟩
    next => cases h
  | abort j =>
    cases mine
    simp only [step, abort] at h
    split at h
    next at_p => cases h; exact ⟨_, _, at_p, released at_p (by decide) (by simp), .aborted rfl⟩
    next at_p => cases h; exact ⟨_, _, at_p, released at_p (by decide) (by simp), .aborted rfl⟩
    next at_p => cases h; exact ⟨_, _, at_p, phase?_setPhase_self at_p _, .aborted rfl⟩
    next at_p => cases h; exact ⟨_, _, at_p, phase?_setPhase_self at_p _, .aborted rfl⟩
    next at_p => cases h; exact ⟨_, _, at_p, released at_p (by decide) (by simp), .aborted rfl⟩
    next at_p => cases h; exact ⟨_, _, at_p, released at_p (by decide) (by simp), .aborted rfl⟩
    next => cases h

/-- What a step of another task, or of a listener, does to task `i`. -/
theorem step_other (waits : s.Waits) (h : s.step e = some t) (other : e.task? ≠ some i) :
    t.phase? i = s.phase? i ∨
      (e.ends = true ∧ s.phase? i = some .waiting ∧ t.phase? i = some .assigned) ∨
      (i = s.connections.length ∧ s.phase? i = none ∧
        ((∃ l, e = .tryOpen l ∧ t.phase? i = some .accepted) ∨
          ∃ l, e = .tryQueue l ∧ t.phase? i = some .queued)) := by
  have fresh : i = s.connections.length → s.phase? i = none := by
    rintro rfl
    simp [phase?]
  have released : ∀ {j : Nat} {p p' : Phase}, j ≠ i → s.phase? j = some p → p ≠ .waiting →
      p' ≠ .waiting → (s.setPhase j p').releaseOpen.phase? i = s.phase? i ∨
        s.phase? i = some .waiting ∧ (s.setPhase j p').releaseOpen.phase? i = some .assigned := by
    intro j p p' apart at_p leaves joins
    have frame := phase?_setPhase_ne s apart p'
    rcases phase?_releaseOpen (waits.setPhase at_p p' leaves joins) i with same | ⟨waiting, assigned⟩
    · exact .inl (same.trans frame)
    · exact .inr ⟨frame.symm.trans waiting, assigned⟩
  cases e with
  | tryOpen l =>
    obtain ⟨sem, -, rfl⟩ := Option.map_eq_some_iff.mp h
    have spawned := phase?_spawn { s with openConnections := sem } l i .accepted
    by_cases last : i = s.connections.length
    · exact .inr (.inr ⟨last, fresh last, .inl ⟨l, rfl, by rw [spawned, if_pos last]⟩⟩)
    · exact .inl (by rw [spawned, if_neg last]; rfl)
  | tryQueue l =>
    obtain ⟨sem, -, rfl⟩ := Option.map_eq_some_iff.mp h
    have spawned := phase?_spawn { s with queuedConnections := sem } l i .queued
    by_cases last : i = s.connections.length
    · exact .inr (.inr ⟨last, fresh last, .inr ⟨l, rfl, by rw [spawned, if_pos last]⟩⟩)
    · exact .inl (by rw [spawned, if_neg last]; rfl)
  | reap j =>
    obtain ⟨-, -, same, -⟩ := reap_frame h
    exact .inl (same i)
  | poll j =>
    have apart : j ≠ i := fun same => other (congrArg some same)
    simp only [step, poll] at h
    split at h
    next => cases h; exact .inl (phase?_setPhase_ne _ apart _)
    next => cases h; exact .inl (phase?_setPhase_ne _ apart _)
    next => cases h; exact .inl (phase?_setPhase_ne _ apart _)
    next => cases h
  | dropQueueSlot j =>
    have apart : j ≠ i := fun same => other (congrArg some same)
    simp only [step, dropQueueSlot] at h
    split at h
    next => cases h; exact .inl (phase?_setPhase_ne _ apart _)
    next => cases h
  | finish j result =>
    have apart : j ≠ i := fun same => other (congrArg some same)
    simp only [step, finish] at h
    split at h
    next at_p =>
      split at h
      next => cases h
      next =>
        cases h
        exact (released apart at_p (by decide) (by simp)).imp_right fun handed => .inl ⟨rfl, handed⟩
    next => cases h
  | abort j =>
    have apart : j ≠ i := fun same => other (congrArg some same)
    simp only [step, abort] at h
    split at h
    next at_p =>
      cases h
      exact (released apart at_p (by decide) (by simp)).imp_right fun handed => .inl ⟨rfl, handed⟩
    next at_p =>
      cases h
      exact (released apart at_p (by decide) (by simp)).imp_right fun handed => .inl ⟨rfl, handed⟩
    next => cases h; exact .inl (phase?_setPhase_ne _ apart _)
    next => cases h; exact .inl (phase?_setPhase_ne _ apart _)
    next at_p =>
      cases h
      exact (released apart at_p (by decide) (by simp)).imp_right fun handed => .inl ⟨rfl, handed⟩
    next at_p =>
      cases h
      exact (released apart at_p (by decide) (by simp)).imp_right fun handed => .inl ⟨rfl, handed⟩
    next => cases h

/-- A connection stays with the listener that accepted it. -/
theorem owner?_step (h : s.step e = some t) {l : Nat} (owner : s.owner? i = some l) :
    t.owner? i = some l := by
  have of_entries : ∀ u : Admission, u.owner? i = (u.entries[i]?).map Prod.fst := by
    intro u
    rw [entries, List.getElem?_map, Option.map_map]
    rfl
  rcases entries_step h with ⟨k, -, added⟩ | ⟨j, rfl⟩ | same
  · rw [of_entries] at owner ⊢
    obtain ⟨entry, found, rfl⟩ := Option.map_eq_some_iff.mp owner
    rw [added, List.getElem?_append_left (List.getElem?_eq_some_iff.mp found).1, found]
    rfl
  · simp only [step, reap] at h
    split at h
    next c found =>
      cases h
      have listeners : (s.connections.modify j ({ · with reaped := true })).map Connection.listener =
          s.connections.map Connection.listener := map_modify_eq s.connections j fun _ => rfl
      rw [owner?, ← List.getElem?_map] at owner ⊢
      rw [listeners]
      exact owner
    next => cases h
  · rw [of_entries] at owner ⊢
    rw [same, owner]

/-- The listener of a task, and whether it has left the `JoinSet`. -/
def record? (s : Admission) (i : Nat) : Option (Nat × Bool) := s.entries[i]?

theorem owner?_eq (s : Admission) (i : Nat) : s.owner? i = (s.record? i).map Prod.fst := by
  rw [record?, entries, List.getElem?_map, Option.map_map]
  rfl

theorem record?_of_owner? {s : Admission} {i l : Nat} (owner : s.owner? i = some l) :
    ∃ gone, s.record? i = some (l, gone) := by
  rw [owner?_eq] at owner
  obtain ⟨⟨_, gone⟩, found, rfl⟩ := Option.map_eq_some_iff.mp owner
  exact ⟨gone, found⟩

theorem owner?_of_record? {s : Admission} {i l : Nat} {gone : Bool} (found : s.record? i = some (l, gone)) :
    s.owner? i = some l := by
  rw [owner?_eq, found]
  rfl

end Admission

namespace Server

variable {s t : Server} {e : Event} {i l : Nat}

/-- What a step of the server does to the phase of one connection. -/
theorem step_phase (waits : s.admission.Waits) (h : s.step e = some t) (i : Nat) :
    t.admission.phase? i = s.admission.phase? i ∨
      ∃ f, e.onAdmission = some f ∧ s.admission.step f = some t.admission ∧
        ((∃ p p', f.task? = some i ∧ s.admission.phase? i = some p ∧ t.admission.phase? i = some p' ∧
            p.Moves i f p') ∨
          (f.ends = true ∧ s.admission.phase? i = some .waiting ∧
            t.admission.phase? i = some .assigned) ∨
          (i = s.admission.connections.length ∧ s.admission.phase? i = none ∧
            ((∃ l, f = .tryOpen l ∧ t.admission.phase? i = some .accepted) ∨
              ∃ l, f = .tryQueue l ∧ t.admission.phase? i = some .queued))) := by
  rcases projects_step h with same | ⟨f, asks, step⟩
  · rw [same]
    exact .inl rfl
  · by_cases mine : f.task? = some i
    · obtain ⟨p, p', before, after, moves⟩ := Admission.step_self waits step mine
      exact .inr ⟨f, asks, step, .inl ⟨p, p', mine, before, after, moves⟩⟩
    · exact (Admission.step_other waits step mine).imp_right fun other => ⟨f, asks, step, .inr other⟩

theorem onAdmission_task {f : Admission.Event} (asks : e.onAdmission = some f) :
    (f = .poll i → e = .poll i) ∧ (f = .dropQueueSlot i → e = .dropQueueSlot i) ∧
      (∀ r, f = .finish i r → e = .finish i r) ∧ (f = .abort i → e = .abort i) := by
  unfold Event.onAdmission at asks
  split at asks
  all_goals cases asks
  all_goals simp

/-- A step of the task of an event is one of the admission. -/
theorem task_step {f : Admission.Event} (h : s.step e = some t) (asks : e.onAdmission = some f) (task : f.task? = some i) :
    s.admission.step f = some t.admission := by
  obtain ⟨polls, drops, finishes, aborts⟩ := onAdmission_task (i := i) asks
  cases f with
  | tryOpen | tryQueue | reap => cases task
  | poll j =>
    cases task
    obtain rfl := polls rfl
    obtain ⟨a, step, rfl⟩ := Option.map_eq_some_iff.mp h
    exact step
  | dropQueueSlot j =>
    cases task
    obtain rfl := drops rfl
    obtain ⟨a, step, rfl⟩ := Option.map_eq_some_iff.mp h
    exact step
  | finish j r =>
    cases task
    obtain rfl := finishes r rfl
    obtain ⟨a, step, rfl⟩ := Option.map_eq_some_iff.mp h
    exact step
  | abort j =>
    cases task
    obtain rfl := aborts rfl
    simp only [step] at h
    split at h
    next =>
      obtain ⟨a, step, rfl⟩ := Option.map_eq_some_iff.mp h
      exact step
    next => cases h

/-- A task ends by finishing `do_connection`, or by being aborted. -/
theorem finished_by (waits : s.admission.Waits) (h : s.step e = some t) {r : TaskEnd}
    (before : s.admission.phase? i ≠ some (.finished r))
    (after : t.admission.phase? i = some (.finished r)) :
    (e = .finish i r ∧ r ≠ .aborted) ∨
      (e = .abort i ∧ r = .aborted ∧ ∃ p, s.admission.phase? i = some p ∧ p.unfinished = true) := by
  rcases step_phase waits h i with same |
    ⟨f, asks, -, ⟨p, p', -, was, now, moves⟩ | ⟨-, -, now⟩ | ⟨-, -, ⟨l, -, now⟩ | ⟨l, -, now⟩⟩⟩
  · exact absurd (same.symm.trans after) before
  · rw [after] at now
    cases now
    cases moves with
    | ends other => exact .inl ⟨(onAdmission_task asks).2.2.1 r rfl, other⟩
    | aborted unfinished => exact .inr ⟨(onAdmission_task asks).2.2.2 rfl, rfl, p, was, unfinished⟩
  all_goals rw [after] at now
  all_goals cases now

/-- A task that has reached `do_connection` does not leave it for an earlier phase. -/
theorem begun_step (waits : s.admission.Waits) (h : s.step e = some t) {p : Phase}
    (before : s.admission.phase? i = some p) (begun : p.begun = true) :
    ∃ p', t.admission.phase? i = some p' ∧ p'.begun = true := by
  rcases step_phase waits h i with same | ⟨f, -, -, ⟨q, p', -, was, now, moves⟩ | ⟨-, was, -⟩ | ⟨-, was, -⟩⟩
  · exact ⟨p, same.trans before, begun⟩
  · rw [before] at was
    cases was
    exact ⟨p', now, moves.begun begun⟩
  all_goals rw [before] at was
  all_goals cases was
  cases begun

theorem finished_step (waits : s.admission.Waits) (h : s.step e = some t) {r : TaskEnd}
    (before : s.admission.phase? i = some (.finished r)) :
    t.admission.phase? i = some (.finished r) := by
  rcases step_phase waits h i with same | ⟨f, -, -, ⟨q, p', -, was, now, moves⟩ | ⟨-, was, -⟩ | ⟨-, was, -⟩⟩
  · exact same.trans before
  · rw [before] at was
    cases was
    cases moves with
    | aborted unfinished => cases unfinished
  all_goals rw [before] at was
  all_goals cases was

theorem record?_admission {f : Admission.Event} (h : s.admission.step f = some t.admission)
    {reaped : Bool} (after : t.admission.record? i = some (l, reaped)) :
    s.admission.record? i = some (l, reaped) ∨
      (f = .reap i ∧ reaped = true ∧ s.admission.record? i = some (l, false) ∧
        ∃ r, s.admission.phase? i = some (.finished r)) ∨
      (reaped = false ∧ s.admission.record? i = none ∧ (f = .tryOpen l ∨ f = .tryQueue l)) := by
  rcases Admission.entries_step h with ⟨k, spawns, added⟩ | ⟨j, rfl⟩ | same
  · rw [Admission.record?, added, List.getElem?_append] at after
    split at after
    next => exact .inl after
    next outside =>
      have absent : s.admission.record? i = none := List.getElem?_eq_none (by omega)
      rw [List.getElem?_singleton] at after
      split at after
      next =>
        cases after
        exact .inr (.inr ⟨rfl, absent, spawns⟩)
      next => cases after
  · simp only [Admission.step, Admission.reap] at h
    split at h
    next owner r found =>
      simp only [Option.some.injEq] at h
      rw [Admission.record?, Admission.entries, ← h] at after
      simp only [List.getElem?_map, List.getElem?_modify] at after
      by_cases same : j = i
      · subst same
        simp only [found, if_true] at after
        cases after
        refine .inr (.inl ⟨rfl, rfl, ?_, r, ?_⟩)
        · simp [Admission.record?, Admission.entries, found]
        · simp [Admission.phase?, found]
      · left
        simpa [Admission.record?, Admission.entries, same] using after
    next => cases h
  · left
    rw [Admission.record?, same] at after
    exact after

/-- What a step does to the place of a task in its `JoinSet`. -/
theorem record?_step (h : s.step e = some t) {reaped : Bool}
    (after : t.admission.record? i = some (l, reaped)) :
    s.admission.record? i = some (l, reaped) ∨
      (reaped = true ∧ s.admission.record? i = some (l, false) ∧
        ∃ r, s.admission.phase? i = some (.finished r)) ∨
      (reaped = false ∧ s.admission.record? i = none ∧
        ∃ p, s.listenPhase? l = some p ∧ p.accepts = true) := by
  rcases projects_step h with same | ⟨f, asks, step⟩
  · rw [same] at after
    exact .inl after
  · rcases record?_admission step after with before | ⟨-, gone, before, past⟩ | ⟨new, absent, spawns⟩
    · exact .inl before
    · exact .inr (.inl ⟨gone, before, past⟩)
    · refine .inr (.inr ⟨new, absent, ?_⟩)
      have adds : f.adds l = true := by
        rcases spawns with rfl | rfl
        · exact decide_eq_true rfl
        · exact decide_eq_true rfl
      rcases adds_event asks adds with rfl | rfl
      all_goals obtain ⟨p, at_p, heard⟩ := Option.bind_eq_some_iff.mp h
      all_goals refine ⟨p, at_p, ?_⟩
      all_goals cases p with
        | spawned | reaping | accepting | queueing => rfl
        | draining | returned | panicked => cases heard

/-- Every connection was accepted by a listener. -/
def Owned (s : Server) : Prop :=
  ∀ i l gone, s.admission.record? i = some (l, gone) → ∃ p, s.listenPhase? l = some p

theorem owned_new (config : ProxyConfig) (C Q : Nat) (bindAddr : IpAddr) :
    (new config C Q bindAddr).Owned := by
  simp [Owned, new, Admission.new, Admission.record?, Admission.entries]

theorem owned_step (h : s.Owned) (hs : s.step e = some t) : t.Owned := by
  intro i l gone after
  obtain ⟨p, at_p⟩ : ∃ p, s.listenPhase? l = some p := by
    rcases record?_step hs after with before | ⟨-, before, -⟩ | ⟨-, -, p, at_p, -⟩
    · exact h i l gone before
    · exact h i l false before
    · exact ⟨p, at_p⟩
  rcases step_listener hs l with ⟨-, -, p', -, -, -, now⟩ | ⟨-, -, now⟩ | ⟨-, same⟩
  · exact ⟨p', now⟩
  · exact ⟨_, now⟩
  · exact ⟨p, same.trans at_p⟩

/-- A listener stays on its port. -/
theorem ports_step (h : s.step e = some t) :
    ∃ more, t.listeners.map Listener.port = s.listeners.map Listener.port ++ more := by
  cases step_effect h with
  | bound | bindFailed | returned | cancelled | task => exact ⟨[], by simp⟩
  | spawned => exact ⟨_, List.map_append⟩
  | joined | joinedFailed =>
    exact ⟨[], by simp only [fail, List.append_nil]; exact map_modify_eq _ _ fun _ => rfl⟩
  | listened _ _ only =>
    rw [only.listeners]
    exact ⟨[], by rw [List.append_nil]; exact map_modify_eq _ _ fun _ => rfl⟩

/-- The port of the listener that accepted connection `i`. -/
def portOf? (s : Server) (i : Nat) : Option UInt16 :=
  (s.admission.owner? i).bind fun l => (s.listeners[l]?).map Listener.port

theorem portOf?_step (h : s.step e = some t) {port : UInt16} (at_port : s.portOf? i = some port) :
    t.portOf? i = some port := by
  obtain ⟨l, owner, found⟩ := Option.bind_eq_some_iff.mp at_port
  have owner' : t.admission.owner? i = some l := by
    rcases projects_step h with same | ⟨f, -, step⟩
    · rw [same, owner]
    · exact Admission.owner?_step step owner
  obtain ⟨more, ports⟩ := ports_step h
  rw [← List.getElem?_map] at found
  rw [portOf?, owner', Option.bind_some, ← List.getElem?_map, ports,
    List.getElem?_append_left (List.getElem?_eq_some_iff.mp found).1, found]

/-- Every listener is on a configured port. -/
theorem portOf?_mem {config : ProxyConfig} {C Q : Nat} {bindAddr : IpAddr} {es : List Event}
    (run : Run (Fires step) (.new config C Q bindAddr) es s) {port : UInt16}
    (at_port : s.portOf? i = some port) : port ∈ config.ports := by
  obtain ⟨l, -, found⟩ := Option.bind_eq_some_iff.mp at_port
  rw [← List.getElem?_map] at found
  have listed := List.mem_of_getElem? found
  have progress := (explained_of_run run).progress
  unfold Progress at progress
  split at progress
  next =>
    rw [progress.2.2.2.1] at listed
    cases listed
  next =>
    rw [← progress.2.1]
    exact List.mem_append_left _ listed
  next =>
    rw [← progress.1]
    exact listed
  next =>
    rcases progress with ⟨bound, p, rest, e, -, -, -, none_spawned, -⟩ | ⟨all_ports, -⟩
    · rw [none_spawned] at listed
      cases listed
    · rw [← all_ports]
      exact listed

end Server

end TcpProxy
