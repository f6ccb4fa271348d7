import TcpProxy.Proxy.Server

/-! # What a step does

`Moves` lists the transitions of one `listen` task and `Effect` the steps of the server,
the connections apart.  Every invariant of the server is proved by cases on them. -/

namespace TcpProxy

inductive ListenPhase.Moves : ListenPhase → ListenEvent → ListenPhase → Prop
  | start : Moves .spawned .start .reaping
  | reap {p : ListenPhase} {i : Nat} : p.ended = false → Moves p (.reap i) p
  | reaped : Moves .reaping .reaped .accepting
  | connected : Moves .accepting (.accept (.ok ())) .reaping
  | noPermit : Moves .accepting (.accept (.ok ())) .queueing
  | transient {e : ProxyError} :
      acceptError e = .retryImmediately → Moves .accepting (.accept (.error e)) .reaping
  | permanent {e : ProxyError} :
      acceptError e = .permanentError e →
        Moves .accepting (.accept (.error e)) (.draining (.error e))
  | queue : Moves .queueing .queue .reaping
  | cancelled {p : ListenPhase} :
      p = .spawned ∨ p = .accepting → Moves p .cancelled (.draining (.ok ()))
  | drained {acceptRes : Except ProxyError Unit} :
      Moves (.draining acceptRes) .drained (.returned acceptRes)
  | deadline {acceptRes : Except ProxyError Unit} :
      Moves (.draining acceptRes) .deadline (.returned acceptRes)
  | panic {p : ListenPhase} {message : String} :
      p.ended = false → Moves p (.panic message) (.panicked message)

/-- An `accept()` error is retried, or it is the permanent error itself. -/
theorem acceptError_cases (e : ProxyError) :
    acceptError e = .retryImmediately ∨ acceptError e = .permanentError e := by
  unfold acceptError
  split
  · split
    · exact .inl rfl
    · exact .inr rfl
  · exact .inr rfl

/-- The error `run` takes over when it joins a task that ended so. -/
def ListenPhase.failure? : ListenPhase → Option ProxyError
  | returned (.error e) => some e
  | panicked message => some (.taskCancellation message)
  | _ => none

namespace Server

open ListenPhase (Moves)

theorem listenPhase?_setListen (s : Server) (l k : Nat) (p : ListenPhase) :
    (s.setListen l p).listenPhase? k =
      if l = k then (s.listenPhase? k).map fun _ => p else s.listenPhase? k := by
  simp only [listenPhase?, setListen, List.getElem?_modify]
  split <;> cases s.listeners[k]? <;> rfl

/-- Everything about the server but the phase of listener `l`, its connections and the
    token is as before, and the token is cancelled at most by a permanent error. -/
structure OnlyListener (s : Server) (l : Nat) (e : ListenEvent) (p' : ListenPhase) (t : Server) :
    Prop where
  phase : t.phase = s.phase
  firstError : t.firstError = s.firstError
  bindAddr : t.bindAddr = s.bindAddr
  listeners : t.listeners = (s.setListen l p').listeners
  token : t.cancelled = s.cancelled ∨
    t.cancelled = true ∧ ∃ err, e = .accept (.error err) ∧ p' = .draining (.error err)
  heard : e = .cancelled → s.cancelled = true

theorem onlyListener_setListen (s : Server) {l : Nat} {e : ListenEvent} (p' : ListenPhase)
    (heard : e = .cancelled → s.cancelled = true) : OnlyListener s l e p' (s.setListen l p') :=
  ⟨rfl, rfl, rfl, rfl, .inl rfl, heard⟩

theorem setListen_same {s : Server} {l : Nat} {p : ListenPhase} (h : s.listenPhase? l = some p) :
    (s.setListen l p).listeners = s.listeners := by
  apply List.ext_getElem?
  intro k
  simp only [setListen, List.getElem?_modify]
  obtain ⟨listener, found, rfl⟩ := Option.map_eq_some_iff.mp h
  split
  next same =>
    subst same
    rw [found]
    rfl
  next => exact id_map _

theorem moves_acceptConnection (s : Server) (l : Nat) (result : Except ProxyError Unit) :
    ∃ p', Moves .accepting (.accept result) p' ∧
      OnlyListener s l (.accept result) p' (s.acceptConnection l result) := by
  cases result with
  | error e =>
    rcases acceptError_cases e with again | permanent
    · refine ⟨.reaping, .transient again, ?_⟩
      simp only [acceptConnection, again]
      exact onlyListener_setListen s _ (by simp)
    · refine ⟨.draining (.error e), .permanent permanent, ?_⟩
      simp only [acceptConnection, permanent]
      -- A permanent error cancels the token on the way out of the loop.
      exact ⟨rfl, rfl, rfl, rfl, .inr ⟨rfl, e, rfl, rfl⟩, by simp⟩
  | ok u =>
    cases taken : s.admission.tryOpen l with
    | some a =>
      refine ⟨.reaping, .connected, ?_⟩
      simp only [acceptConnection, taken]
      exact ⟨rfl, rfl, rfl, rfl, .inl rfl, by simp⟩
    | none =>
      refine ⟨.queueing, .noPermit, ?_⟩
      simp only [acceptConnection, taken]
      exact onlyListener_setListen s _ (by simp)

theorem afterAccept_queue (s : Server) (l : Nat) :
    OnlyListener s l .queue .reaping
      ({ s with admission := (s.admission.acceptQueue l).2 }.afterAccept l
        (s.admission.acceptQueue l).1) := by
  cases taken : s.admission.tryQueue l with
  | some a =>
    simp only [Admission.acceptQueue, taken]
    exact ⟨rfl, rfl, rfl, rfl, .inl rfl, by simp⟩
  | none =>
    simp only [Admission.acceptQueue, taken]
    exact ⟨rfl, rfl, rfl, rfl, .inl rfl, by simp⟩

theorem onlyListener_reapFrom {s t : Server} {l i : Nat} {p : ListenPhase}
    (at_p : s.listenPhase? l = some p) (h : s.reapFrom l i = some t) :
    OnlyListener s l (.reap i) p t := by
  unfold reapFrom at h
  split at h
  · obtain ⟨a, -, rfl⟩ := Option.map_eq_some_iff.mp h
    exact ⟨rfl, rfl, rfl, (setListen_same at_p).symm, .inl rfl, by simp⟩
  · cases h

/-- A step of a `listen` task makes one of its moves. -/
theorem listen_moves {s t : Server} {l : Nat} {p : ListenPhase} {e : ListenEvent}
    (at_p : s.listenPhase? l = some p) (h : s.listen l p e = some t) :
    ∃ p', Moves p e p' ∧ OnlyListener s l e p' t := by
  cases e with
  | start =>
    simp only [listen] at h
    split at h
    · cases h
      exact ⟨_, .start, onlyListener_setListen s _ (by simp)⟩
    · cases h
  | reap i =>
    simp only [listen] at h
    split at h
    · exact ⟨_, .reap rfl, onlyListener_reapFrom at_p h⟩
    · exact ⟨_, .reap rfl, onlyListener_reapFrom at_p h⟩
    · cases h
  | reaped =>
    simp only [listen] at h
    split at h
    · split at h
      · cases h
        exact ⟨_, .reaped, onlyListener_setListen s _ (by simp)⟩
      · cases h
    · cases h
  | accept result =>
    simp only [listen] at h
    split at h
    · cases h
      exact moves_acceptConnection s l result
    · cases h
  | queue =>
    simp only [listen] at h
    split at h
    · cases h
      exact ⟨_, .queue, afterAccept_queue s l⟩
    · cases h
  | cancelled =>
    simp only [listen] at h
    split at h
    · split at h
      next heard =>
        cases h
        exact ⟨_, .cancelled (.inl rfl), onlyListener_setListen s _ fun _ => heard⟩
      · cases h
    · split at h
      next heard =>
        cases h
        exact ⟨_, .cancelled (.inr rfl), onlyListener_setListen s _ fun _ => heard⟩
      · cases h
    · cases h
  | drained =>
    simp only [listen] at h
    split at h
    · split at h
      · cases h
        exact ⟨_, .drained, onlyListener_setListen s _ (by simp)⟩
      · cases h
    · cases h
  | deadline =>
    simp only [listen] at h
    split at h
    · cases h
      exact ⟨_, .deadline, onlyListener_setListen s _ (by simp)⟩
    · cases h
  | panic message =>
    simp only [listen] at h
    split at h
    · cases h
    next live =>
      cases h
      exact ⟨_, .panic (Bool.eq_false_iff.mpr live), onlyListener_setListen s _ (by simp)⟩

/-- The listeners after the join of `l`. -/
def joinedAt (s : Server) (l : Nat) : List Listener :=
  s.listeners.modify l ({ · with joined := true })

/-- The steps of the connection tasks. -/
def Event.isTask : Event → Bool
  | .poll _ | .dropQueueSlot _ | .finish _ _ | .abort _ => true
  | _ => false

/-- What a step does to `run`, the token and the listeners. -/
inductive Effect (s : Server) : Event → Server → Prop
  | bound {done rest : List UInt16} {port : UInt16} :
      s.phase = .binding done (port :: rest) →
        Effect s (.bind (.ok ())) { s with phase := toBind (done ++ [port]) rest }
  | bindFailed {done rest : List UInt16} {port : UInt16} {e : ProxyError} :
      s.phase = .binding done (port :: rest) →
        Effect s (.bind (.error e))
          { s with phase := .returned (.error (e.maybeIntoBindError ⟨s.bindAddr, port⟩)) }
  | spawned {port : UInt16} {rest : List UInt16} :
      s.phase = .spawning (port :: rest) →
        Effect s .spawn { s with
          phase := toSpawn rest
          listeners := s.listeners ++ [⟨port, .spawned, false⟩] }
  | joined {l : Nat} {listener : Listener} :
      s.phase = .joining → s.listeners[l]? = some listener → listener.phase.ended = true →
        listener.phase.failure? = none → Effect s (.join l) { s with listeners := s.joinedAt l }
  | joinedFailed {l : Nat} {listener : Listener} {e : ProxyError} :
      s.phase = .joining → s.listeners[l]? = some listener → listener.phase.ended = true →
        listener.phase.failure? = some e →
          Effect s (.join l) (fail { s with listeners := s.joinedAt l } e)
  | returned :
      s.phase = .joining → s.listeners.all (·.joined) = true →
        Effect s .ret { s with phase := .returned s.result }
  | cancelled : Effect s .cancel { s with cancelled := true }
  | listened {l : Nat} {le : ListenEvent} {p p' : ListenPhase} {t : Server} :
      s.listenPhase? l = some p → Moves p le p' → OnlyListener s l le p' t →
        Effect s (.listen l le) t
  | task {e : Event} {a : Admission} : e.isTask = true → Effect s e { s with admission := a }

theorem effect_join {s t : Server} {l : Nat} (joining : s.phase = .joining)
    (h : s.join l = some t) : Effect s (.join l) t := by
  simp only [join] at h
  split at h
  next port found =>
    cases h
    exact .joined joining found rfl rfl
  next port e found =>
    cases h
    exact .joinedFailed joining found rfl rfl
  next port message found =>
    cases h
    exact .joinedFailed joining found rfl rfl
  next => cases h

theorem effect_task {s t : Server} {e : Event} {a : Option Admission} (task : e.isTask = true)
    (h : a.map (fun a => { s with admission := a }) = some t) : Effect s e t := by
  obtain ⟨a, -, rfl⟩ := Option.map_eq_some_iff.mp h
  exact .task task

theorem step_effect {s t : Server} {e : Event} (h : s.step e = some t) : Effect s e t := by
  cases e with
  | bind result =>
    simp only [step, bind] at h
    split at h
    next done port rest at_phase =>
      split at h
      · cases h
        exact .bound at_phase
      · cases h
        exact .bindFailed at_phase
    next => cases h
  | spawn =>
    simp only [step] at h
    split at h
    next port rest at_phase =>
      cases h
      exact .spawned at_phase
    next => cases h
  | join l =>
    simp only [step] at h
    split at h
    next joining => exact effect_join joining h
    next => cases h
  | ret =>
    simp only [step] at h
    split at h
    next settled =>
      cases h
      exact .returned settled.1 settled.2
    next => cases h
  | cancel =>
    cases h
    exact .cancelled
  | listen l le =>
    obtain ⟨p, at_p, hp⟩ := Option.bind_eq_some_iff.mp h
    obtain ⟨p', moves, only⟩ := listen_moves at_p hp
    exact .listened at_p moves only
  | poll i | dropQueueSlot i | finish i result => exact effect_task rfl h
  | abort i =>
    simp only [step] at h
    split at h
    · exact effect_task rfl h
    · cases h

/-! ## The listener at one place -/

theorem listenPhase?_joinedAt (s : Server) (l k : Nat) :
    ((s.joinedAt l)[k]?).map Listener.phase = s.listenPhase? k := by
  rw [← List.getElem?_map, joinedAt, map_modify_eq s.listeners l (by simp), List.getElem?_map,
    ← listenPhase?]

theorem OnlyListener.phase_self {s t : Server} {l : Nat} {e : ListenEvent} {p p' : ListenPhase}
    (h : OnlyListener s l e p' t) (at_p : s.listenPhase? l = some p) :
    t.listenPhase? l = some p' := by
  rw [listenPhase?, h.listeners, ← listenPhase?, listenPhase?_setListen, if_pos rfl, at_p]
  rfl

theorem OnlyListener.phase_ne {s t : Server} {l k : Nat} {e : ListenEvent} {p' : ListenPhase}
    (h : OnlyListener s l e p' t) (other : l ≠ k) : t.listenPhase? k = s.listenPhase? k := by
  rw [listenPhase?, h.listeners, ← listenPhase?, listenPhase?_setListen, if_neg other]

/-- What a step of the server does to the listener at `k`: it moves, it is spawned, or it
    stays where it is. -/
theorem step_listener {s t : Server} {e : Event} (h : s.step e = some t) (k : Nat) :
    (∃ le p p', e = .listen k le ∧ s.listenPhase? k = some p ∧ Moves p le p' ∧
      t.listenPhase? k = some p') ∨
    (e = .spawn ∧ s.listenPhase? k = none ∧ t.listenPhase? k = some .spawned) ∨
    ((∀ le, e ≠ .listen k le) ∧ t.listenPhase? k = s.listenPhase? k) := by
  cases step_effect h with
  | @listened l le p p' _ at_p moves only =>
    by_cases same : l = k
    · subst same
      exact .inl ⟨le, p, p', rfl, at_p, moves, only.phase_self at_p⟩
    · exact .inr (.inr ⟨fun le' eq => same (by cases eq; rfl), only.phase_ne same⟩)
  | spawned =>
    by_cases last : k = s.listeners.length
    · subst last
      exact .inr (.inl ⟨rfl, by simp [listenPhase?], by simp [listenPhase?]⟩)
    · refine .inr (.inr ⟨nofun, ?_⟩)
      -- The new listener stands behind all the others.
      simp only [listenPhase?, List.getElem?_append]
      by_cases inside : k < s.listeners.length
      · rw [if_pos inside]
      · have outside : k - s.listeners.length ≠ 0 := by omega
        simp [inside, outside]
  | joined | joinedFailed => exact .inr (.inr ⟨nofun, listenPhase?_joinedAt s _ k⟩)
  | bound | bindFailed | returned | cancelled => exact .inr (.inr ⟨nofun, rfl⟩)
  | task task =>
    refine .inr (.inr ⟨?_, rfl⟩)
    rintro le rfl
    cases task

end Server

end TcpProxy
