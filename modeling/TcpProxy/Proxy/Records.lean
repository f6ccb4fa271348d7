import TcpProxy.Proxy.Steps

/-! # The server and its history

The state of the server is explained by the events that led to it: the results of the
binds, the permanent accept errors and panics of the listeners, and the cancellation of
the token.  `Recorded` ties the listeners, the token and `first_error` to the events so
far, `Progress` the position of `run`; both are kept by every step. -/

namespace TcpProxy

open Lts (Run Fires)
open ListenPhase (Moves)

/-- The errors of `accept()` that do not tear the proxy down. -/
def transientAccept : ProxyError → Bool
  | .ioError ⟨.connectionRefused, _⟩ => true
  | .ioError ⟨.connectionReset, _⟩ => true
  | .ioError ⟨.connectionAborted, _⟩ => true
  | _ => false

theorem acceptError_eq (e : ProxyError) :
    acceptError e = if transientAccept e then .retryImmediately else .permanentError e := by
  cases e with
  | ioError err =>
    obtain ⟨kind, message⟩ := err
    cases kind <;> rfl
  | _ => rfl

namespace Server

/-- The listener an event makes fail, with its error: a permanent accept error or a panic. -/
def Event.failure? : Event → Option (Nat × ProxyError)
  | .listen l (.accept (.error e)) => if transientAccept e then none else some (l, e)
  | .listen l (.panic message) => some (l, .taskCancellation message)
  | _ => none

/-- Listener `l` failed with `e`. -/
def Failed (es : List Event) (l : Nat) (e : ProxyError) : Prop :=
  ∃ ev ∈ es, ev.failure? = some (l, e)

def Event.bindResult? : Event → Option (Except ProxyError Unit)
  | .bind result => some result
  | _ => none

/-- The results of the binds, in the order of the calls. -/
def binds (es : List Event) : List (Except ProxyError Unit) := es.filterMap Event.bindResult?

/-- The `select!` of listener `l` gave the cancellation, and the task did not panic. -/
def EndedByCancellation (es : List Event) (l : Nat) : Prop :=
  .listen l .cancelled ∈ es ∧ ∀ message, .listen l (.panic message) ∉ es

variable {es : List Event} {s t : Server}

theorem failed_append {ev : Event} {l : Nat} {e : ProxyError} :
    Failed (es ++ [ev]) l e ↔ Failed es l e ∨ ev.failure? = some (l, e) := by
  simp [Failed, or_and_right, exists_or]

theorem Failed.mono {l : Nat} {e : ProxyError} (h : Failed es l e) (ev : Event) :
    Failed (es ++ [ev]) l e :=
  failed_append.mpr (.inl h)

theorem failure_listener {ev : Event} {l : Nat} {e : ProxyError} (h : ev.failure? = some (l, e)) :
    ∃ le, ev = .listen l le := by
  unfold Event.failure? at h
  split at h
  · split at h
    · cases h
    · cases h
      exact ⟨_, rfl⟩
  · cases h
    exact ⟨_, rfl⟩
  · cases h

/-! ## The listeners -/

/-- How listener `l` came to its phase. -/
def Outcome (es : List Event) (l : Nat) : ListenPhase → Prop
  | .draining (.ok ()) | .returned (.ok ()) =>
    .listen l .cancelled ∈ es ∧ ∀ e, ¬ Failed es l e
  | .draining (.error e) | .returned (.error e) => Failed es l e ∧ .listen l .cancelled ∉ es
  | .panicked message => .listen l (.panic message) ∈ es
  | _ => .listen l .cancelled ∉ es ∧ ∀ e, ¬ Failed es l e

/-- An event by which `l` neither fails nor hears of the cancellation explains nothing new. -/
theorem outcome_frame {l : Nat} {p : ListenPhase} {ev : Event} (h : Outcome es l p)
    (quiet : ∀ e, ev.failure? ≠ some (l, e)) (other : ev ≠ .listen l .cancelled) :
    Outcome (es ++ [ev]) l p := by
  have no_failure : ∀ e, Failed (es ++ [ev]) l e → Failed es l e :=
    fun e he => (failed_append.mp he).resolve_right (quiet e)
  have no_cancel : .listen l .cancelled ∉ es → .listen l .cancelled ∉ es ++ [ev] := by
    intro absent present
    rcases List.mem_append.mp present with h | h
    · exact absent h
    · exact other (List.mem_singleton.mp h).symm
  cases p with
  | draining acceptRes | returned acceptRes =>
    cases acceptRes with
    | ok u => exact ⟨List.mem_append_left _ h.1, fun e he => h.2 e (no_failure e he)⟩
    | error e => exact ⟨h.1.mono ev, no_cancel h.2⟩
  | panicked message =>
    have present : .listen l (.panic message) ∈ es := h
    exact List.mem_append_left _ present
  | spawned | reaping | accepting | queueing =>
    exact ⟨no_cancel h.1, fun e he => h.2 e (no_failure e he)⟩

/-- A move of `l` explains its new phase. -/
theorem outcome_moves {l : Nat} {p p' : ListenPhase} {e : ListenEvent} (h : Outcome es l p)
    (m : Moves p e p') : Outcome (es ++ [.listen l e]) l p' := by
  cases m with
  | start => exact outcome_frame (p := .spawned) h nofun nofun
  | reap => exact outcome_frame h nofun nofun
  | reaped => exact outcome_frame (p := .reaping) h nofun nofun
  | connected | noPermit => exact outcome_frame (p := .accepting) h nofun nofun
  | queue => exact outcome_frame (p := .queueing) h nofun nofun
  -- A transient error is no failure, and the listener goes on.
  | transient again =>
    refine outcome_frame (p := .accepting) h ?_ nofun
    intro e failed
    rw [acceptError_eq] at again
    split at again
    next passing =>
      simp only [Event.failure?, if_pos passing] at failed
      cases failed
    next => cases again
  | @permanent e fatal =>
    have lasting : transientAccept e = false := by
      rw [acceptError_eq] at fatal
      split at fatal
      next => cases fatal
      next lasting => exact Bool.eq_false_iff.mpr lasting
    refine ⟨failed_append.mpr (.inr (by simp [Event.failure?, lasting])), fun present => ?_⟩
    rcases List.mem_append.mp present with before | now
    · exact h.1 before
    · cases List.mem_singleton.mp now
  | cancelled idle =>
    have none_failed : ∀ e, ¬ Failed es l e := by
      rcases idle with rfl | rfl
      · exact h.2
      · exact h.2
    refine ⟨List.mem_append_right _ (List.mem_singleton.mpr rfl), fun e failed => ?_⟩
    rcases failed_append.mp failed with before | now
    · exact none_failed e before
    · cases now
  | @drained acceptRes =>
    have kept : Outcome (es ++ [.listen l .drained]) l (.draining acceptRes) :=
      outcome_frame h nofun nofun
    cases acceptRes <;> exact kept
  | @deadline acceptRes =>
    have kept : Outcome (es ++ [.listen l .deadline]) l (.draining acceptRes) :=
      outcome_frame h nofun nofun
    cases acceptRes <;> exact kept
  | panic => exact List.mem_append_right _ (List.mem_singleton.mpr rfl)

/-- A task that is over makes no more moves. -/
theorem not_moves_of_ended {p p' : ListenPhase} {e : ListenEvent} (ended : p.ended = true) :
    ¬ Moves p e p' := by
  intro m
  cases m with
  | reap live | panic live =>
    rw [ended] at live
    cases live
  | cancelled idle =>
    rcases idle with rfl | rfl
    · cases ended
    · cases ended
  | start | reaped | connected | noPermit | transient | permanent | queue | drained | deadline =>
    cases ended

theorem failed_of_failure? {l : Nat} {p : ListenPhase} {e : ProxyError} (h : Outcome es l p)
    (failed : p.failure? = some e) : Failed es l e := by
  unfold ListenPhase.failure? at failed
  split at failed
  · cases failed
    exact h.1
  · cases failed
    exact ⟨_, h, rfl⟩
  · cases failed

/-- An ended task has returned `Ok` exactly when it ended by cancellation. -/
theorem ended_ok_iff {l : Nat} {p : ListenPhase} (h : Outcome es l p) (ended : p.ended = true) :
    p.failure? = none ↔ EndedByCancellation es l := by
  cases p with
  | returned acceptRes =>
    cases acceptRes with
    | ok u =>
      refine ⟨fun _ => ⟨h.1, fun message panicked => ?_⟩, fun _ => rfl⟩
      exact h.2 _ ⟨_, panicked, rfl⟩
    | error e => exact ⟨nofun, fun by_cancel => absurd by_cancel.1 h.2⟩
  | panicked message => exact ⟨nofun, fun by_cancel => absurd h (by_cancel.2 message)⟩
  | spawned | reaping | accepting | queueing | draining => cases ended

/-- The listeners, the token and `first_error` are explained by the events so far. -/
structure Recorded (es : List Event) (s : Server) : Prop where
  outcome : ∀ l p, s.listenPhase? l = some p → Outcome es l p
  unborn : ∀ l, s.listenPhase? l = none → ∀ e, .listen l e ∉ es
  token : s.cancelled = true → .cancel ∈ es ∨ ∃ l e, Failed es l e
  joins : ∀ (l : Nat) (listener : Listener), s.listeners[l]? = some listener → listener.joined = true →
    listener.phase.ended = true ∧ (listener.phase.failure? ≠ none → s.firstError ≠ none)
  first : ∀ e, s.firstError = some e →
    s.cancelled = true ∧ ∃ l p, s.listenPhase? l = some p ∧ p.failure? = some e

theorem outcome_step {e : Event} (outcome : ∀ l p, s.listenPhase? l = some p → Outcome es l p)
    (unborn : ∀ l, s.listenPhase? l = none → ∀ e, .listen l e ∉ es) (hs : s.step e = some t)
    {k : Nat} {p : ListenPhase} (at_p : t.listenPhase? k = some p) : Outcome (es ++ [e]) k p := by
  rcases step_listener hs k with ⟨le, q, q', rfl, at_q, moves, at_q'⟩ | ⟨rfl, absent, spawned⟩ | ⟨other, same⟩
  · rw [at_q'] at at_p
    cases at_p
    exact outcome_moves (outcome k q at_q) moves
  · rw [spawned] at at_p
    cases at_p
    -- No event so far was one of a listener that did not exist.
    have nothing := unborn k absent
    refine outcome_frame (p := .spawned) ⟨nothing _, ?_⟩ nofun nofun
    rintro e ⟨ev, present, failed⟩
    obtain ⟨le, rfl⟩ := failure_listener failed
    exact nothing le present
  · rw [same] at at_p
    refine outcome_frame (outcome k p at_p) ?_ (other _)
    intro err failed
    obtain ⟨le, rfl⟩ := failure_listener failed
    exact other le rfl

theorem unborn_step {e : Event} (unborn : ∀ l, s.listenPhase? l = none → ∀ e, .listen l e ∉ es)
    (hs : s.step e = some t) {k : Nat} (absent : t.listenPhase? k = none) (le : ListenEvent) :
    .listen k le ∉ es ++ [e] := by
  rcases step_listener hs k with ⟨le', q, q', -, -, -, present⟩ | ⟨-, -, present⟩ | ⟨other, same⟩
  · rw [absent] at present
    cases present
  · rw [absent] at present
    cases present
  · rw [same] at absent
    intro present
    rcases List.mem_append.mp present with before | now
    · exact unborn k absent le before
    · exact other le (List.mem_singleton.mp now).symm

/-- What explained a cancelled token still does. -/
theorem token_mono (h : .cancel ∈ es ∨ ∃ l e, Failed es l e) (e : Event) :
    .cancel ∈ es ++ [e] ∨ ∃ l err, Failed (es ++ [e]) l err := by
  rcases h with outside | ⟨l, err, failed⟩
  · exact .inl (List.mem_append_left _ outside)
  · exact .inr ⟨l, err, failed.mono e⟩

/-- Listeners and `first_error` are as before, and the token is explained. -/
theorem Recorded.frame {e : Event} (h : Recorded es s) (hs : s.step e = some t)
    (listeners : t.listeners = s.listeners) (first : t.firstError = s.firstError)
    (kept : s.cancelled = true → t.cancelled = true)
    (token : t.cancelled = true → .cancel ∈ es ++ [e] ∨ ∃ l err, Failed (es ++ [e]) l err) :
    Recorded (es ++ [e]) t where
  outcome _ _ := outcome_step h.outcome h.unborn hs
  unborn _ := unborn_step h.unborn hs
  token := token
  joins l listener found joined := by
    rw [listeners] at found
    rw [first]
    exact h.joins l listener found joined
  first err stored := by
    rw [first] at stored
    obtain ⟨heard, l, p, at_p, failed⟩ := h.first err stored
    refine ⟨kept heard, l, p, ?_, failed⟩
    rw [listenPhase?, listeners, ← listenPhase?]
    exact at_p

theorem recorded_listened {l : Nat} {le : ListenEvent} {p p' : ListenPhase} (h : Recorded es s)
    (hs : s.step (.listen l le) = some t) (at_p : s.listenPhase? l = some p) (moves : Moves p le p')
    (only : OnlyListener s l le p' t) : Recorded (es ++ [.listen l le]) t := by
  have live : p.ended = false := by
    cases ended : p.ended with
    | false => rfl
    | true => exact absurd moves (not_moves_of_ended ended)
  refine ⟨fun _ _ => outcome_step h.outcome h.unborn hs, fun _ => unborn_step h.unborn hs, ?_, ?_, ?_⟩
  · intro heard
    rcases only.token with same | ⟨-, err, rfl, rfl⟩
    · rw [same] at heard
      exact token_mono (h.token heard) _
    · exact .inr ⟨l, err, (outcome_step h.outcome h.unborn hs (only.phase_self at_p)).1⟩
  · intro k listener found joined
    rw [only.firstError]
    rw [only.listeners, setListen, List.getElem?_modify] at found
    obtain ⟨old, found_old, changed⟩ := Option.map_eq_some_iff.mp found
    by_cases same : l = k
    · subst same
      rw [if_pos rfl] at changed
      subst changed
      -- a joined task is over, and has no move left
      have settled := (h.joins l old found_old joined).1
      have phase : s.listenPhase? l = some old.phase := congrArg (Option.map Listener.phase) found_old
      rw [at_p] at phase
      cases phase
      rw [live] at settled
      cases settled
    · rw [if_neg same] at changed
      subst changed
      exact h.joins k old found_old joined
  · intro err stored
    rw [only.firstError] at stored
    obtain ⟨heard, k, q, at_q, failed⟩ := h.first err stored
    have kept : t.cancelled = true := by
      rcases only.token with same | ⟨now, -⟩
      · rw [same, heard]
      · exact now
    refine ⟨kept, k, q, ?_, failed⟩
    -- The listener that failed is over, so it is not the one that moves.
    have other : l ≠ k := by
      rintro rfl
      rw [at_p] at at_q
      cases at_q
      cases p with
      | returned acceptRes => cases live
      | panicked message => cases live
      | spawned | reaping | accepting | queueing | draining => cases failed
    rw [only.phase_ne other]
    exact at_q

/-- The listeners but `l` are joined as before, and `l` is accounted for. -/
theorem joins_joinedAt {l : Nat} {listener : Listener} {firstError : Option ProxyError}
    (h : Recorded es s) (found : s.listeners[l]? = some listener)
    (ended : listener.phase.ended = true) (kept : s.firstError ≠ none → firstError ≠ none)
    (taken : listener.phase.failure? ≠ none → firstError ≠ none) {k : Nat} {x : Listener}
    (found_x : (s.joinedAt l)[k]? = some x) (joined : x.joined = true) :
    x.phase.ended = true ∧ (x.phase.failure? ≠ none → firstError ≠ none) := by
  rw [joinedAt, List.getElem?_modify] at found_x
  obtain ⟨old, found_old, changed⟩ := Option.map_eq_some_iff.mp found_x
  by_cases same : l = k
  · subst same
    rw [found] at found_old
    cases found_old
    rw [if_pos rfl] at changed
    subst changed
    exact ⟨ended, taken⟩
  · rw [if_neg same] at changed
    subst changed
    obtain ⟨settled, failing⟩ := h.joins k old found_old joined
    exact ⟨settled, fun failed => kept (failing failed)⟩

theorem recorded_joined {l : Nat} {listener : Listener} (h : Recorded es s)
    (hs : s.step (.join l) = some { s with listeners := s.joinedAt l })
    (found : s.listeners[l]? = some listener) (ended : listener.phase.ended = true)
    (fine : listener.phase.failure? = none) :
    Recorded (es ++ [.join l]) { s with listeners := s.joinedAt l } where
  outcome _ _ := outcome_step h.outcome h.unborn hs
  unborn _ := unborn_step h.unborn hs
  token heard := token_mono (h.token heard) _
  joins _ _ := joins_joinedAt h found ended id fun failed => absurd fine failed
  first err stored := by
    obtain ⟨heard, k, p, at_p, failed⟩ := h.first err stored
    exact ⟨heard, k, p, (listenPhase?_joinedAt s l k).trans at_p, failed⟩

theorem recorded_joinedFailed {l : Nat} {listener : Listener} {e : ProxyError} (h : Recorded es s)
    (hs : s.step (.join l) = some (fail { s with listeners := s.joinedAt l } e))
    (found : s.listeners[l]? = some listener) (ended : listener.phase.ended = true)
    (failed : listener.phase.failure? = some e) :
    Recorded (es ++ [.join l]) (fail { s with listeners := s.joinedAt l } e) := by
  have phase : s.listenPhase? l = some listener.phase := congrArg (Option.map Listener.phase) found
  refine ⟨fun _ _ => outcome_step h.outcome h.unborn hs, fun _ => unborn_step h.unborn hs, ?_,
    fun _ _ => joins_joinedAt h found ended
      (fun _ => Option.some_ne_none _) (fun _ => Option.some_ne_none _), ?_⟩
  · intro _
    exact .inr ⟨l, e, (failed_of_failure? (h.outcome l _ phase) failed).mono _⟩
  · intro err stored
    refine ⟨rfl, ?_⟩
    have stored : some (s.firstError.getD e) = some err := stored
    -- an earlier error stays in place
    cases already : s.firstError with
    | none =>
      rw [already] at stored
      cases stored
      exact ⟨l, _, (listenPhase?_joinedAt s l l).trans phase, failed⟩
    | some old =>
      rw [already] at stored
      cases stored
      obtain ⟨-, k, p, at_p, failed⟩ := h.first old already
      exact ⟨k, p, (listenPhase?_joinedAt s l k).trans at_p, failed⟩

theorem recorded_spawned {port : UInt16} {rest : List UInt16} (h : Recorded es s)
    (hs : s.step .spawn = some { s with
      phase := toSpawn rest
      listeners := s.listeners ++ [⟨port, .spawned, false⟩] }) :
    Recorded (es ++ [.spawn]) { s with
      phase := toSpawn rest
      listeners := s.listeners ++ [⟨port, .spawned, false⟩] } where
  outcome _ _ := outcome_step h.outcome h.unborn hs
  unborn _ := unborn_step h.unborn hs
  token heard := token_mono (h.token heard) _
  joins l listener found joined := by
    rcases List.mem_append.mp (List.mem_of_getElem? found) with old | new
    · obtain ⟨k, found_old⟩ := List.mem_iff_getElem?.mp old
      exact h.joins k listener found_old joined
    · cases List.mem_singleton.mp new
      cases joined
  first err stored := by
    obtain ⟨heard, l, p, at_p, failed⟩ := h.first err stored
    refine ⟨heard, l, p, ?_, failed⟩
    obtain ⟨old, found, rfl⟩ := Option.map_eq_some_iff.mp at_p
    have inside := (List.getElem?_eq_some_iff.mp found).1
    simp only [listenPhase?, List.getElem?_append_left inside, found, Option.map_some]

theorem recorded_step {e : Event} (h : Recorded es s) (hs : s.step e = some t) :
    Recorded (es ++ [e]) t := by
  cases step_effect hs with
  | listened at_p moves only => exact recorded_listened h hs at_p moves only
  | joined _ found ended fine => exact recorded_joined h hs found ended fine
  | joinedFailed _ found ended failed => exact recorded_joinedFailed h hs found ended failed
  | spawned => exact recorded_spawned h hs
  | cancelled =>
    exact h.frame hs rfl rfl (fun _ => rfl)
      fun _ => .inl (List.mem_append_right _ (List.mem_singleton.mpr rfl))
  | bound | bindFailed | returned | task =>
    exact h.frame hs rfl rfl id fun heard => token_mono (h.token heard) _

/-! ## The position of `run` -/

/-- All the ports are bound. -/
def AllBound (ports : List UInt16) (es : List Event) : Prop :=
  binds es = ports.map fun _ => .ok ()

/-- What the position of `run` says about the binds and the listeners. -/
def Progress (ports : List UInt16) (bindAddr : IpAddr) (es : List Event) (s : Server) : Prop :=
  match s.phase with
  | .binding bound rest =>
    rest ≠ [] ∧ bound ++ rest = ports ∧ AllBound bound es ∧ s.listeners = [] ∧ .spawn ∉ es
  | .spawning rest =>
    rest ≠ [] ∧ s.listeners.map Listener.port ++ rest = ports ∧ AllBound ports es
  | .joining => s.listeners.map Listener.port = ports ∧ AllBound ports es
  | .returned r =>
    (∃ bound port rest e, bound ++ port :: rest = ports ∧
      binds es = (bound.map fun _ => .ok ()) ++ [.error e] ∧
      r = .error (e.maybeIntoBindError ⟨bindAddr, port⟩) ∧ s.listeners = [] ∧ .spawn ∉ es) ∨
    (s.listeners.map Listener.port = ports ∧ AllBound ports es ∧
      s.listeners.all (·.joined) = true ∧ r = s.result)

variable {ports : List UInt16} {bindAddr : IpAddr}

theorem progress_toSpawn {rest : List UInt16} (phase : s.phase = toSpawn rest)
    (all_ports : s.listeners.map Listener.port ++ rest = ports) (bound : AllBound ports es) :
    Progress ports bindAddr es s := by
  unfold Progress
  rw [phase]
  cases rest with
  | nil => exact ⟨by rw [← all_ports, List.append_nil], bound⟩
  | cons port rest => exact ⟨nofun, all_ports, bound⟩

theorem progress_toBind {bound rest : List UInt16} (phase : s.phase = toBind bound rest)
    (all_ports : bound ++ rest = ports) (so_far : AllBound bound es) (empty : s.listeners = [])
    (unspawned : .spawn ∉ es) : Progress ports bindAddr es s := by
  cases rest with
  | nil =>
    rw [List.append_nil] at all_ports
    subst all_ports
    exact progress_toSpawn phase (by rw [empty, List.map_nil, List.nil_append]) so_far
  | cons port rest =>
    unfold Progress
    rw [phase]
    exact ⟨nofun, all_ports, so_far, empty, unspawned⟩

theorem binds_append (e : Event) : binds (es ++ [e]) = binds es ++ e.bindResult?.toList := by
  rw [binds, List.filterMap_append, ← binds]
  cases h : e.bindResult? <;> simp [h]

theorem binds_quiet {e : Event} (quiet : e.bindResult? = none) : binds (es ++ [e]) = binds es := by
  rw [binds_append, quiet, Option.toList_none, List.append_nil]

/-- Neither a bind nor a spawn, and `run`, `first_error` and the joins are as before. -/
theorem Progress.frame {e : Event} (h : Progress ports bindAddr es s)
    (quiet : e.bindResult? = none) (no_spawn : e ≠ .spawn) (phase : t.phase = s.phase)
    (first : t.firstError = s.firstError)
    (listeners : t.listeners.map Listener.port = s.listeners.map Listener.port)
    (joined : t.listeners.map Listener.joined = s.listeners.map Listener.joined) :
    Progress ports bindAddr (es ++ [e]) t := by
  -- Each position of `run` asks for some of these, and all of them are kept.
  have unspawned : .spawn ∉ es → .spawn ∉ es ++ [e] := by
    intro absent present
    rcases List.mem_append.mp present with before | now
    · exact absent before
    · exact no_spawn (List.mem_singleton.mp now).symm
  have empty : s.listeners = [] → t.listeners = [] := by
    intro none_left
    rw [none_left] at listeners
    exact List.map_eq_nil_iff.mp listeners
  have all_joined : s.listeners.all (·.joined) = true → t.listeners.all (·.joined) = true := by
    intro settled
    have moved := congrArg (List.all · id) joined
    simpa only [List.all_map, Function.comp_def, id, settled] using moved
  unfold Progress at h ⊢
  rw [phase]
  cases at_phase : s.phase with
  | binding bound rest =>
    rw [at_phase] at h
    obtain ⟨more, all_ports, so_far, none_left, absent⟩ := h
    exact ⟨more, all_ports, (binds_quiet quiet).trans so_far, empty none_left, unspawned absent⟩
  | spawning rest =>
    rw [at_phase] at h
    exact ⟨h.1, by rw [listeners]; exact h.2.1, (binds_quiet quiet).trans h.2.2⟩
  | joining =>
    rw [at_phase] at h
    exact ⟨listeners.trans h.1, (binds_quiet quiet).trans h.2⟩
  | returned r =>
    rw [at_phase] at h
    rcases h with ⟨bound, port, rest, err, all_ports, failed, result, none_left, absent⟩ |
      ⟨all_ports, all_bound, settled, result⟩
    · exact .inl ⟨bound, port, rest, err, all_ports, (binds_quiet quiet).trans failed, result,
        empty none_left, unspawned absent⟩
    · refine .inr ⟨listeners.trans all_ports, (binds_quiet quiet).trans all_bound, all_joined settled, ?_⟩
      rw [result, Server.result, Server.result, first]

/-- A bind is no spawn. -/
theorem unspawned_bind {result : Except ProxyError Unit} (absent : .spawn ∉ es) :
    .spawn ∉ es ++ [.bind result] := by
  intro present
  rcases List.mem_append.mp present with before | now
  · exact absent before
  · cases List.mem_singleton.mp now

theorem progress_step {e : Event} (addr : s.bindAddr = bindAddr) (h : Progress ports bindAddr es s)
    (hs : s.step e = some t) : Progress ports bindAddr (es ++ [e]) t := by
  have here := h
  unfold Progress at here
  cases step_effect hs with
  | @bound done rest port at_phase =>
    rw [at_phase] at here
    obtain ⟨-, all_ports, so_far, none_left, absent⟩ := here
    refine progress_toBind rfl (by simpa using all_ports) ?_ none_left (unspawned_bind absent)
    rw [AllBound, binds_append, so_far, List.map_append]
    rfl
  | @bindFailed done rest port err at_phase =>
    rw [at_phase] at here
    obtain ⟨-, all_ports, so_far, none_left, absent⟩ := here
    refine .inl ⟨done, port, rest, err, all_ports, ?_, by rw [addr], none_left, unspawned_bind absent⟩
    rw [binds_append, so_far]
    rfl
  | spawned at_phase =>
    rw [at_phase] at here
    refine progress_toSpawn rfl ?_ ((binds_quiet rfl).trans here.2.2)
    rw [List.map_append, List.append_assoc]
    exact here.2.1
  | @joined l _ joining | @joinedFailed l _ _ joining =>
    rw [joining] at here
    unfold Progress
    simp only [fail, joining]
    exact ⟨(map_modify_eq s.listeners l (by simp)).trans here.1, (binds_quiet rfl).trans here.2⟩
  | returned joining settled =>
    rw [joining] at here
    exact .inr ⟨here.1, (binds_quiet rfl).trans here.2, settled, rfl⟩
  | cancelled => exact h.frame rfl nofun rfl rfl rfl rfl
  | @listened l _ _ _ _ _ _ only =>
    refine h.frame rfl nofun only.phase only.firstError ?_ ?_
    · rw [only.listeners]
      exact map_modify_eq s.listeners l (by simp)
    · rw [only.listeners]
      exact map_modify_eq s.listeners l (by simp)
  | task task =>
    refine h.frame ?_ ?_ rfl rfl rfl rfl
    · cases e <;> first | rfl | cases task
    · rintro rfl
      cases task

theorem bindAddr_step {e : Event} (hs : s.step e = some t) : t.bindAddr = s.bindAddr := by
  cases step_effect hs with
  | listened _ _ only => exact only.bindAddr
  | bound | bindFailed | spawned | joined | joinedFailed | returned | cancelled | task => rfl

/-- A state of the server with the events that explain it. -/
structure Explained (ports : List UInt16) (bindAddr : IpAddr) (es : List Event) (s : Server) :
    Prop where
  addr : s.bindAddr = bindAddr
  recorded : Recorded es s
  progress : Progress ports bindAddr es s

theorem explained_step {e : Event} (h : Explained ports bindAddr es s) (hs : s.step e = some t) :
    Explained ports bindAddr (es ++ [e]) t :=
  ⟨(bindAddr_step hs).trans h.addr, recorded_step h.recorded hs,
    progress_step h.addr h.progress hs⟩

theorem explained_of_run {config : ProxyConfig} {C Q : Nat} {bindAddr : IpAddr}
    (run : Run (Fires step) (.new config C Q bindAddr) es s) :
    Explained config.ports bindAddr es s := by
  refine run.history (Explained config.ports bindAddr) ⟨rfl, ?_, ?_⟩
    fun _ _ _ _ h hs => explained_step h hs
  · exact ⟨nofun, fun _ _ _ => nofun, nofun, nofun, nofun⟩
  · exact progress_toBind rfl rfl rfl rfl nofun

end Server

end TcpProxy
