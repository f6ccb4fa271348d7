import TcpProxy.Proxy.Outcome

/-! # Which failure `run` returns

A listener that failed still drains its connections before it can be joined, so the order
of the joins is not the order of the failures.  `run` keeps the first error it joins. -/

namespace TcpProxy

open Lts (Run Fires exec run_of_exec)
open ListenPhase (Moves)

/-- The accept error the listener is going down with, or has returned. -/
def ListenPhase.acceptError? : ListenPhase → Option ProxyError
  | draining (.error e) => some e
  | returned (.error e) => some e
  | _ => none

namespace Server

/-- The failures of the listeners, in the order they happened. -/
def failures (es : List Event) : List (Nat × ProxyError) := es.filterMap Event.failure?

def Event.joined? : Event → Option Nat
  | .join l => some l
  | _ => none

/-- The listeners in the order of their joins. -/
def joins (es : List Event) : List Nat := es.filterMap Event.joined?

/-- The error `run` takes over from listener `l`, once that is over. -/
def endedWith (s : Server) (l : Nat) : Option ProxyError :=
  (s.listenPhase? l).bind ListenPhase.failure?

variable {es : List Event} {s t : Server}

theorem failures_append (es : List Event) (e : Event) :
    failures (es ++ [e]) = failures es ++ e.failure?.toList := by
  rw [failures, List.filterMap_append, ← failures]
  cases h : e.failure? <;> simp [h]

theorem joins_append (es : List Event) (e : Event) :
    joins (es ++ [e]) = joins es ++ e.joined?.toList := by
  rw [joins, List.filterMap_append, ← joins]
  cases h : e.joined? <;> simp [h]

/-! ## Joins -/

/-- `first_error` is the first error among those of the joined listeners. -/
structure Joined (es : List Event) (s : Server) : Prop where
  ended : ∀ l ∈ joins es, ∃ p, s.listenPhase? l = some p ∧ p.ended = true
  first : s.firstError = (joins es).findSome? s.endedWith

theorem ended_step {e : Event} (hs : s.step e = some t) {k : Nat} {p : ListenPhase}
    (at_p : s.listenPhase? k = some p) (ended : p.ended = true) : t.listenPhase? k = some p := by
  rcases step_listener hs k with ⟨le, q, q', -, at_q, moves, -⟩ | ⟨-, absent, -⟩ | ⟨-, same⟩
  · rw [at_p] at at_q
    cases at_q
    exact absurd moves (not_moves_of_ended ended)
  · rw [at_p] at absent
    cases absent
  · rw [same, at_p]

/-- A join takes over the error of its listener, unless there is one already. -/
theorem firstError_step {e : Event} (hs : s.step e = some t) :
    t.firstError = s.firstError.or (e.joined?.bind t.endedWith) ∧
      ∀ l, e.joined? = some l → ∃ p, s.listenPhase? l = some p ∧ p.ended = true := by
  cases step_effect hs with
  | @joined l listener _ found ended fine =>
    have phase : s.listenPhase? l = some listener.phase := congrArg (Option.map Listener.phase) found
    have error : endedWith { s with listeners := s.joinedAt l } l = none := by
      rw [endedWith, listenPhase?, listenPhase?_joinedAt, phase]
      exact fine
    constructor
    · simp [Event.joined?, error]
    · intro k same
      cases same
      exact ⟨_, phase, ended⟩
  | @joinedFailed l listener err _ found ended failed =>
    have phase : s.listenPhase? l = some listener.phase := congrArg (Option.map Listener.phase) found
    have error : endedWith (fail { s with listeners := s.joinedAt l } err) l = some err := by
      rw [endedWith, listenPhase?]
      show (((s.joinedAt l)[l]?).map Listener.phase).bind _ = _
      rw [listenPhase?_joinedAt, phase]
      exact failed
    constructor
    · show some (s.firstError.getD err) = s.firstError.or (endedWith (fail _ err) l)
      rw [error]
      cases s.firstError <;> rfl
    · intro k same
      cases same
      exact ⟨_, phase, ended⟩
  | listened _ _ only => exact ⟨by simp [Event.joined?, only.firstError], by simp [Event.joined?]⟩
  | bound | bindFailed | spawned | returned | cancelled =>
    exact ⟨by simp [Event.joined?], by simp [Event.joined?]⟩
  | @task e a task =>
    have other : e.joined? = none := by
      cases e <;> first | rfl | cases task
    rw [other]
    exact ⟨by simp, by simp⟩

theorem joined_step {e : Event} (h : Joined es s) (hs : s.step e = some t) : Joined (es ++ [e]) t := by
  obtain ⟨taken, over_now⟩ := firstError_step hs
  have same : ∀ l ∈ joins es, t.endedWith l = s.endedWith l := by
    intro l joined
    obtain ⟨p, at_p, ended⟩ := h.ended l joined
    rw [endedWith, endedWith, ended_step hs at_p ended, at_p]
  constructor
  · intro l joined
    rw [joins_append] at joined
    cases List.mem_append.mp joined with
    | inl before =>
      obtain ⟨p, at_p, ended⟩ := h.ended l before
      exact ⟨p, ended_step hs at_p ended, ended⟩
    | inr now =>
      obtain ⟨p, at_p, ended⟩ := over_now l (by simpa using now)
      exact ⟨p, ended_step hs at_p ended, ended⟩
  -- The listeners joined before are over, so their errors are what they were.
  · have kept : (joins es).findSome? t.endedWith = (joins es).findSome? s.endedWith := by
      have mapped := List.map_congr_left same
      simpa [List.findSome?_map] using congrArg (List.findSome? id) mapped
    rw [taken, joins_append, List.findSome?_append, kept, h.first]
    cases e.joined? <;> simp

/-! ## Failures -/

/-- While no listener panics, a move fails exactly when it leaves with a permanent error. -/
theorem failure_moves {k : Nat} {le : ListenEvent} {p p' : ListenPhase} (m : Moves p le p')
    (calm : ∀ message, le ≠ .panic message) :
    p'.acceptError?.toList.map (k, ·) =
      p.acceptError?.toList.map (k, ·) ++ (Event.failure? (.listen k le)).toList := by
  cases m with
  | start | reaped | connected | noPermit | queue => rfl
  | reap => simp [Event.failure?]
  | transient again =>
    rw [acceptError_eq] at again
    split at again
    next passing => simp [Event.failure?, passing, ListenPhase.acceptError?]
    next => cases again
  | permanent fatal =>
    rw [acceptError_eq] at fatal
    split at fatal
    next => cases fatal
    next lasting => simp [Event.failure?, lasting, ListenPhase.acceptError?]
  | cancelled idle =>
    cases idle with
    | inl spawned => subst spawned; rfl
    | inr accepting => subst accepting; rfl
  | @drained acceptRes | @deadline acceptRes => cases acceptRes <;> rfl
  | panic => exact absurd rfl (calm _)

/-- The failures of one listener: its accept error, once it is going down with one. -/
def FailsOnce (es : List Event) (s : Server) : Prop :=
  ∀ l, (failures es).filter (·.1 = l) =
    ((s.listenPhase? l).bind ListenPhase.acceptError?).toList.map (l, ·)

theorem failsOnce_step {e : Event} (h : FailsOnce es s) (hs : s.step e = some t)
    (calm : ∀ l message, e ≠ .listen l (.panic message)) : FailsOnce (es ++ [e]) t := by
  intro k
  rw [failures_append, List.filter_append, h k]
  rcases step_listener hs k with ⟨le, p, p', rfl, at_p, moves, at_p'⟩ | ⟨rfl, absent, spawned⟩ | ⟨other, same⟩
  -- The listener moves itself: its move fails when it takes an accept error along.
  · have own : (Event.failure? (.listen k le)).toList.filter (·.1 = k) =
        (Event.failure? (.listen k le)).toList := by
      apply List.filter_eq_self.mpr
      intro x failed
      obtain ⟨le', same⟩ := failure_listener (l := x.1) (e := x.2) (by simpa using failed)
      cases same
      simp
    rw [own, at_p, at_p']
    exact (failure_moves moves fun message same => calm k message (by rw [same])).symm
  · rw [absent, spawned]
    rfl
  -- A failure of another listener is filtered out.
  · have none_here : e.failure?.toList.filter (·.1 = k) = [] := by
      apply List.filter_eq_nil_iff.mpr
      intro x failed here
      obtain ⟨le, same⟩ := failure_listener (l := x.1) (e := x.2) (by simpa using failed)
      rw [of_decide_eq_true here] at same
      exact other le same
    rw [none_here, List.append_nil, same]

theorem joined_of_run {config : ProxyConfig} {C Q : Nat} {bindAddr : IpAddr}
    (run : Run (Fires step) (.new config C Q bindAddr) es s) : Joined es s :=
  run.history Joined ⟨nofun, rfl⟩ fun _ _ _ _ h hs => joined_step h hs

theorem failsOnce_of_run {config : ProxyConfig} {C Q : Nat} {bindAddr : IpAddr}
    (run : Run (Fires step) (.new config C Q bindAddr) es s)
    (calm : ∀ l message, .listen l (.panic message) ∉ es) : FailsOnce es s := by
  have general := run.history
    (fun es s => (∀ l message, .listen l (.panic message) ∉ es) → FailsOnce es s)
    (fun _ _ => rfl) ?_
  · exact general calm
  · intro pre u e v before hs calm
    apply failsOnce_step (before fun l message present => calm l message (List.mem_append_left _ present)) hs
    rintro l message rfl
    exact calm l message (List.mem_append_right _ (List.mem_singleton.mpr rfl))

/-- A listener fails at most once. -/
theorem FailsOnce.nodup (h : FailsOnce es s) : ((failures es).map (·.1)).Nodup := by
  apply List.nodup_iff_count_le_one.mpr
  intro l
  have counted : ((failures es).map (·.1)).count l = ((failures es).filter (·.1 = l)).length := by
    rw [List.count, List.countP_map, List.countP_eq_length_filter]
    rfl
  rw [counted, h l, List.length_map]
  cases (s.listenPhase? l).bind ListenPhase.acceptError? <;> simp

theorem FailsOnce.failed_iff (h : FailsOnce es s) {l : Nat} {e : ProxyError} :
    (l, e) ∈ failures es ↔ (s.listenPhase? l).bind ListenPhase.acceptError? = some e := by
  have own : (l, e) ∈ failures es ↔ (l, e) ∈ (failures es).filter (·.1 = l) := by simp
  rw [own, h l]
  simp

/-- Once a listener is over without a panic, it left with its accept error. -/
theorem endedWith_eq {l : Nat} {p : ListenPhase} (at_p : s.listenPhase? l = some p)
    (ended : p.ended = true) (calm : ∀ message, p ≠ .panicked message) :
    s.endedWith l = (s.listenPhase? l).bind ListenPhase.acceptError? := by
  rw [endedWith, at_p]
  cases p with
  | returned acceptRes => cases acceptRes <;> rfl
  | panicked message => exact absurd rfl (calm message)
  | spawned | reaping | accepting | queueing | draining => cases ended

end Server

open Server (failures joins)

/-- `run` returns the accept error of the failed listener that it joined first.  No listener
    fails twice, so this is the error of the earliest failure whenever the listener of that
    failure is joined before the other failed ones. -/
theorem first_joined_failure_returned {config : ProxyConfig} {C Q : Nat} {bindAddr : IpAddr}
    {es : List Server.Event} {s : Server}
    (run : Run (Fires Server.step) (.new config C Q bindAddr) es s)
    (calm : ∀ l message, .listen l (.panic message) ∉ es) {r : Except ProxyError Unit}
    (returned : s.phase = .returned r) (some_failed : failures es ≠ []) :
    ((failures es).map (·.1)).Nodup ∧
    ∃ (l : Nat) (e : ProxyError) (before after : List Nat),
      joins es = before ++ l :: after ∧ (∀ k ∈ before, ∀ err, (k, err) ∉ failures es) ∧
      (l, e) ∈ failures es ∧ r = .error e ∧
      ∀ first, (failures es).head? = some first → first.1 = l → r = .error first.2 := by
  have h := Server.explained_of_run run
  have once := Server.failsOnce_of_run run calm
  have joined := Server.joined_of_run run
  obtain ⟨⟨l₀, e₀⟩, failed⟩ := List.exists_mem_of_ne_nil _ some_failed
  have unpanicked : ∀ l p, s.listenPhase? l = some p → ∀ message, p ≠ .panicked message := by
    rintro l p at_p message rfl
    exact calm l message (h.recorded.outcome l _ at_p)
  rcases h.returned returned with ⟨-, -, -, -, empty, -⟩ | ⟨-, -, settled, rfl⟩
  · have gone := once.failed_iff.mp failed
    simp [Server.listenPhase?, empty] at gone
  · have ends : ∀ l p, s.listenPhase? l = some p →
        s.endedWith l = (s.listenPhase? l).bind ListenPhase.acceptError? := fun l p at_p =>
      Server.endedWith_eq at_p (h.settled settled at_p).1 (unpanicked l p at_p)
    have kept : s.firstError ≠ none := by
      obtain ⟨p, at_p, left⟩ := Option.bind_eq_some_iff.mp (once.failed_iff.mp failed)
      apply (h.settled settled at_p).2
      have over_now := ends l₀ p at_p
      rw [Server.endedWith, at_p] at over_now
      have over_now : p.failure? = p.acceptError? := over_now
      rw [over_now, left]
      exact Option.some_ne_none _
    obtain ⟨e, first⟩ := Option.ne_none_iff_exists'.mp kept
    have result : s.result = .error e := by rw [Server.result, first]
    rw [joined.first] at first
    obtain ⟨before, l, after, split, last, earlier⟩ := List.findSome?_eq_some_iff.mp first
    have at_join : ∀ k ∈ joins es, ∃ p, s.listenPhase? k = some p := fun k hk =>
      (joined.ended k hk).imp fun p found => found.1
    have mine : (l, e) ∈ failures es := by
      obtain ⟨p, at_p⟩ := at_join l (by simp [split])
      rw [once.failed_iff, ← ends l p at_p, last]
    refine ⟨once.nodup, l, e, before, after, split, ?_, mine, result, ?_⟩
    · intro k hk err failing
      obtain ⟨p, at_p⟩ := at_join k (by simp [split, hk])
      rw [once.failed_iff, ← ends k p at_p, earlier k hk] at failing
      cases failing
    · rintro ⟨l', e'⟩ earliest rfl
      have theirs := once.failed_iff.mp (List.mem_of_mem_head? earliest)
      rw [once.failed_iff.mp mine] at theirs
      cases theirs
      exact result

/-! Two ports: the listener of port 80 fails first, but has a connection to drain. -/

def twoListeners : ProxyConfig :=
  ⟨[["a:1"], ["b:2"]], ((∅ : Std.TreeMap UInt16 Nat).insert 80 0).insert 81 1⟩

def outOfFiles : ProxyError := .ioError ⟨.other "Uncategorized", "Too many open files"⟩

def invalidInput : ProxyError := .ioError ⟨.other "InvalidInput", "invalid argument"⟩

def overtaken : List Server.Event :=
  [.bind (.ok ()), .bind (.ok ()), .spawn, .spawn, .listen 0 .start, .listen 0 .reaped,
    .listen 1 .start, .listen 1 .reaped, .listen 0 (.accept (.ok ())), .poll 0, .listen 0 .reaped,
    .listen 0 (.accept (.error outOfFiles)), .listen 1 (.accept (.error invalidInput)),
    .listen 1 .drained, .join 1, .finish 0 .ok, .listen 0 (.reap 0), .listen 0 .drained, .join 0, .ret]

/-- The second failure is joined first, and returned. -/
theorem overtaken_returns_second :
    (failures overtaken).head? = some (0, outOfFiles) ∧
      (∀ l message, .listen l (.panic message) ∉ overtaken) ∧
      ∃ s, Run (Fires Server.step) (.new twoListeners 1 1 localhostAddr) overtaken s ∧
        s.phase = .returned (.error invalidInput) ∧
        s.phase ≠ .returned (.error outOfFiles) := by
  refine ⟨rfl, by simp [overtaken], _, run_of_exec rfl, rfl, ?_⟩
  decide

theorem overtaken_joined_first : ∃ (before after : List Nat) (l : Nat),
    joins overtaken = before ++ l :: after ∧ (l, invalidInput) ∈ failures overtaken := by
  obtain ⟨s, run, returned⟩ : ∃ s,
      Run (Fires Server.step) (.new twoListeners 1 1 localhostAddr) overtaken s ∧
        s.phase = .returned (.error invalidInput) := ⟨_, run_of_exec rfl, rfl⟩
  obtain ⟨-, l, e, before, after, split, -, failed, same, -⟩ :=
    first_joined_failure_returned run (by simp [overtaken]) returned (by decide)
  cases same
  exact ⟨before, after, l, split, failed⟩

end TcpProxy
