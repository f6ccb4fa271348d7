import TcpProxy.Lib.Fair
import TcpProxy.Proxy.FirstJoined
import TcpProxy.Proxy.Shutdown

/-! # The server stops

Once the token is cancelled or a listener has panicked, `run` returns and every connection
ends, whatever the clients do: `Proxy/Completion.lean` says that it can, this file that it
does.  Each task is only assumed to be scheduled; of the first `select!` of `listen`, whose
branch may be ready every time, that it does not pass over the cancellation for ever. -/

namespace TcpProxy

open Lts

theorem Admission.joinSet_reap_lt {s t : Admission} {i l : Nat} (h : s.reap i = some t)
    (owner : s.owner? i = some l) : (t.joinSet l).length < (s.joinSet l).length := by
  unfold reap at h
  split at h
  next k result found =>
    cases h
    rw [owner?, found] at owner
    cases owner
    have moved := sum_modify found ({ · with reaped := true })
      fun c => (decide (c.listener = k ∧ c.reaped = false)).toNat
    simp only [reduceCtorEq, and_false, and_self, decide_false, decide_true, Bool.toNat_false,
      Bool.toNat_true] at moved
    simp only [joinSet, ← List.countP_eq_length_filter, countP_eq_sum]
    omega
  next => cases h

/-- Any unfinished task can be aborted. -/
theorem Admission.abort_of_unfinished {s : Admission} {i : Nat} {p : Phase} (here : s.phase? i = some p)
    (unfinished : p.unfinished = true) : ∃ t, s.abort i = some t := by
  cases p with
  | finished => cases unfinished
  | accepted | queued | waiting | assigned | admitted | connecting =>
    simp only [abort, here]
    exact ⟨_, rfl⟩

/-- The binds and spawns that `run` has before it, each bind counted for its spawn too. -/
def RunPhase.toJoin : RunPhase → Nat
  | binding bound rest => bound.length + 2 * rest.length + 1
  | spawning rest => rest.length + 1
  | joining | returned _ => 0

namespace Server

variable {C Q : Nat} {config : ProxyConfig} {bindAddr : IpAddr} {s t : Server} {e : Event} {i l : Nat}

/-- A step of `run`. -/
def Event.ofRun : Event → Prop
  | .bind _ | .spawn | .join _ | .ret => True
  | _ => False

/-- A step of the `listen` task at `l`, the ends of its first `select!` and panics apart. -/
def Event.ofListener (l : Nat) : Event → Prop
  | .listen k .start | .listen k (.reap _) | .listen k .reaped | .listen k .queue
  | .listen k .drained | .listen k .deadline => k = l
  | _ => False

/-- The listeners that `run` has not joined yet. -/
def unjoined (s : Server) : Nat := s.listeners.countP fun listener => !listener.joined

abbrev Reached (config : ProxyConfig) (C Q : Nat) (bindAddr : IpAddr) (s : Server) : Prop :=
  ∃ es, Run (Fires step) (.new config C Q bindAddr) es s

/-! ## The steps of `run` -/

theorem toJoin_toSpawn (rest : List UInt16) : (toSpawn rest).toJoin ≤ rest.length + 1 := by
  cases rest with
  | nil => exact Nat.zero_le _
  | cons => exact Nat.le_refl _

theorem toJoin_toBind (bound rest : List UInt16) :
    (toBind bound rest).toJoin ≤ bound.length + 2 * rest.length + 1 := by
  cases rest with
  | nil => exact toJoin_toSpawn bound
  | cons => exact Nat.le_refl _

theorem unjoined_joinedAt {listener : Listener} (found : s.listeners[l]? = some listener)
    (waits : listener.joined = false) :
    (s.joinedAt l).countP (fun listener => !listener.joined) + 1 = s.unjoined := by
  have moved := sum_modify found ({ · with joined := true }) fun listener => (!listener.joined).toNat
  simp only [waits, Bool.not_true, Bool.not_false, Bool.toNat_false, Bool.toNat_true] at moved
  rw [joinedAt, unjoined, countP_eq_sum, countP_eq_sum]
  omega

/-- A join is one of a listener that was not joined before. -/
theorem join_unjoined (h : s.step (.join l) = some t) :
    ∃ listener, s.listeners[l]? = some listener ∧ listener.joined = false := by
  simp only [step] at h
  split at h
  next =>
    simp only [join] at h
    split at h
    next found => exact ⟨_, found, rfl⟩
    next found => exact ⟨_, found, rfl⟩
    next found => exact ⟨_, found, rfl⟩
    next => cases h
  next => cases h

/-- `run` gets closer to its `join_next` loop, it takes a step in that loop, or it stays. -/
theorem step_run (h : s.step e = some t) :
    t.phase.toJoin < s.phase.toJoin ∨
      s.phase = .joining ∧
        ((∃ r, t.phase = .returned r) ∨ t.phase = .joining ∧ t.unjoined < s.unjoined) ∨
      t.phase = s.phase ∧ ¬ e.ofRun ∧ (s.phase = .joining → t.unjoined = s.unjoined) := by
  cases step_effect h with
  | @bound done rest port at_phase =>
    left
    rw [at_phase]
    refine Nat.lt_of_le_of_lt (toJoin_toBind (done ++ [port]) rest) ?_
    simp only [RunPhase.toJoin, List.length_append, List.length_cons, List.length_nil]
    omega
  | bindFailed at_phase =>
    left
    rw [at_phase]
    exact Nat.succ_pos _
  | @spawned port rest at_phase =>
    left
    rw [at_phase]
    exact Nat.lt_succ_of_le (toJoin_toSpawn rest)
  | joined joining =>
    obtain ⟨listener, found, waits⟩ := join_unjoined h
    have fewer := unjoined_joinedAt found waits
    exact .inr (.inl ⟨joining, .inr ⟨joining, Nat.lt_of_succ_le (Nat.le_of_eq fewer)⟩⟩)
  | joinedFailed joining =>
    obtain ⟨listener, found, waits⟩ := join_unjoined h
    have fewer := unjoined_joinedAt found waits
    exact .inr (.inl ⟨joining, .inr ⟨joining, Nat.lt_of_succ_le (Nat.le_of_eq fewer)⟩⟩)
  | returned joining => exact .inr (.inl ⟨joining, .inl ⟨_, rfl⟩⟩)
  | cancelled => exact .inr (.inr ⟨rfl, id, fun _ => rfl⟩)
  | listened _ _ only =>
    refine .inr (.inr ⟨only.phase, id, fun _ => ?_⟩)
    rw [unjoined, unjoined, only.listeners, setListen]
    simp only [countP_eq_sum]
    exact congrArg List.sum (map_modify_eq s.listeners _ fun _ => rfl)
  | task task =>
    refine .inr (.inr ⟨rfl, ?_, fun _ => rfl⟩)
    cases e with
    | poll | dropQueueSlot | finish | abort => exact id
    | bind | spawn | join | ret | cancel | listen => cases task

/-! ## The steps of a listener -/

theorem listen_enabled {p : ListenPhase} {le : ListenEvent} (at_p : s.listenPhase? l = some p)
    (h : s.listen l p le = some t) : s.step (.listen l le) = some t := by
  rw [step, at_p]
  exact h

/-- In its `try_join_next` loop a listener takes out a finished task, or it goes on. -/
theorem reaping_enabled (at_p : s.listenPhase? l = some .reaping) :
    Enabled (Fires step) (Event.ofListener l) s := by
  by_cases none_left : (s.admission.joinSet l).all (·.phase.unfinished) = true
  · exact ⟨.listen l .reaped, _, rfl, listen_enabled at_p (if_pos none_left)⟩
  · obtain ⟨c, in_set, ended⟩ : ∃ c ∈ s.admission.joinSet l, c.phase.unfinished = false := by
      simpa using none_left
    obtain ⟨present, belongs⟩ := List.mem_filter.mp in_set
    obtain ⟨owner, unreaped⟩ : c.listener = l ∧ c.reaped = false := by simpa using belongs
    obtain ⟨i, found⟩ := List.mem_iff_getElem?.mp present
    have owned : s.admission.owner? i = some l := by rw [Admission.owner?, found, ← owner]; rfl
    obtain ⟨k, phase, reaped⟩ := c
    subst unreaped
    cases phase with
    | finished result =>
      obtain ⟨a, taken⟩ : ∃ a, s.admission.reap i = some a := by
        simp only [Admission.reap, found]
        exact ⟨_, rfl⟩
      have reaped : s.reapFrom l i = some { s with admission := a } :=
        (if_pos owned).trans (congrArg (Option.map _) taken)
      exact ⟨.listen l (.reap i), _, rfl, listen_enabled at_p reaped⟩
    | accepted | queued | waiting | assigned | admitted | connecting => cases ended

/-- The `JoinSet` of `l` grows only by its own steps, and a task that it takes out makes it
    smaller. -/
theorem joinSet_other (h : s.step e = some t) (other : ∀ le, e ≠ .listen l le) :
    (t.admission.joinSet l).length ≤ (s.admission.joinSet l).length := by
  rcases joinSet_grows h l with same | ⟨-, accepts | queues⟩
  · exact same
  · exact absurd accepts (other _)
  · exact absurd queues (other _)

theorem joinSet_taken (h : s.step (.listen l (.reap i)) = some t) :
    (t.admission.joinSet l).length < (s.admission.joinSet l).length := by
  obtain ⟨q, -, heard⟩ := Option.bind_eq_some_iff.mp h
  have reaped : s.reapFrom l i = some t := by
    simp only [listen] at heard
    split at heard
    · exact heard
    · exact heard
    · cases heard
  unfold reapFrom at reaped
  split at reaped
  next owner =>
    obtain ⟨a, taken, rfl⟩ := Option.map_eq_some_iff.mp reaped
    exact Admission.joinSet_reap_lt taken owner
  next => cases reaped

theorem ofListener_listen (h : e.ofListener l) : ∃ le, e = .listen l le := by
  unfold Event.ofListener at h
  split at h
  case h_7 => cases h
  all_goals exact ⟨_, congrArg (Event.listen · _) h⟩

/-- The listener at `l` is over, and if there is none there will be none. -/
def Closed (l : Nat) (s : Server) : Prop :=
  s.phase.toJoin = 0 ∧ ∀ p, s.listenPhase? l = some p → p.ended = true

theorem toJoin_step (h : s.step e = some t) (there : s.phase.toJoin = 0) : t.phase.toJoin = 0 := by
  rcases step_run h with closer | ⟨-, ⟨r, past⟩ | ⟨still, -⟩⟩ | ⟨same, -⟩
  · omega
  · rw [past]
    rfl
  · rw [still]
    rfl
  · rw [same, there]

theorem closed_step (h : s.step e = some t) (closed : Closed l s) : Closed l t := by
  refine ⟨toJoin_step h closed.1, fun p after => ?_⟩
  rcases step_listener h l with ⟨le, q, p', -, at_q, moves, -⟩ | ⟨rfl, absent, -⟩ | ⟨-, same⟩
  · exact absurd moves (not_moves_of_ended (closed.2 q at_q))
  · cases step_effect h with
    | spawned at_phase =>
      have there := closed.1
      rw [at_phase] at there
      cases there
    | task task => cases task
  · exact closed.2 p (same.symm.trans after)

theorem joining_or_returned (there : s.phase.toJoin = 0) :
    s.phase = .joining ∨ ∃ r, s.phase = .returned r := by
  cases at_phase : s.phase with
  | joining => exact .inl rfl
  | returned r => exact .inr ⟨r, rfl⟩
  | binding | spawning =>
    rw [at_phase] at there
    cases there

theorem returned_stays (h : s.step e = some t) (past : ∃ r, s.phase = .returned r) :
    ∃ r, t.phase = .returned r := by
  obtain ⟨r, at_r⟩ := past
  rcases step_run h with closer | ⟨joining, -⟩ | ⟨same, -⟩
  · rw [at_r] at closer
    exact absurd closer (Nat.not_lt_zero _)
  · rw [at_r] at joining
    cases joining
  · exact ⟨r, same.trans at_r⟩

/-- `run` has returned and task `i` is over, or was never spawned. -/
def Over (i : Nat) (s : Server) : Prop :=
  (∃ r, s.phase = .returned r) ∧ ∀ p, s.admission.phase? i = some p → p.unfinished = false

/-- No connection is accepted once `run` has returned. -/
theorem no_spawn {es : List Event} (run : Run (Fires step) (.new config C Q bindAddr) es s)
    (past : ∃ r, s.phase = .returned r) (h : s.step e = some t) {f : Admission.Event}
    (asks : e.onAdmission = some f) : f.adds l = false := by
  obtain ⟨r, at_r⟩ := past
  have silent : ∀ le, e ≠ .listen l le := by
    rintro le rfl
    cases step_effect h with
    | listened at_p moves _ => exact not_moves_of_ended (ended_of_returned run at_r at_p) moves
    | task task => cases task
  cases adds : f.adds l with
  | false => rfl
  | true =>
    rcases adds_event asks adds with accepts | queues
    · exact absurd accepts (silent _)
    · exact absurd queues (silent _)

theorem over_step (ok : Reached config C Q bindAddr s) (ended : Over i s) (h : s.step e = some t) :
    Over i t := by
  obtain ⟨es, run⟩ := ok
  refine ⟨returned_stays h ended.1, fun p after => ?_⟩
  rcases step_phase (shutting_of_run run).accounted.waiting h i with same |
    ⟨f, asks, -, ⟨q, q', -, before, now, moves⟩ | ⟨-, before, -⟩ | ⟨-, -, ⟨l, rfl, -⟩ | ⟨l, rfl, -⟩⟩⟩
  · exact ended.2 p (same.symm.trans after)
  · have past := ended.2 q before
    cases moves with
    | start | granted | parked | resume | enter | ends => cases past
    | aborted unfinished =>
      rw [unfinished] at past
      cases past
  · cases ended.2 _ before
  · have silent := no_spawn (l := l) run ended.1 h asks
    simp [Admission.Event.adds] at silent
  · have silent := no_spawn (l := l) run ended.1 h asks
    simp [Admission.Event.adds] at silent

/-- A step of a task that is not over ends it, or is not its abort. -/
theorem unfinished_step (waits : s.admission.Waits) (h : s.step e = some t) {p : Phase}
    (here : s.admission.phase? i = some p) (unfinished : p.unfinished = true) :
    (∀ p, t.admission.phase? i = some p → p.unfinished = false) ∨
      (∃ p, t.admission.phase? i = some p ∧ p.unfinished = true) ∧ e ≠ .abort i := by
  have ended {p' : Phase} (after : t.admission.phase? i = some p') (past : p'.unfinished = false) :
      ∀ p, t.admission.phase? i = some p → p.unfinished = false := by
    intro p now
    rw [after] at now
    cases now
    exact past
  by_cases own : e = .abort i
  · subst own
    obtain ⟨q, q', -, after, moves⟩ := Admission.step_self waits (task_step h rfl rfl) rfl
    cases moves with
    | aborted => exact .inl (ended after rfl)
  · rcases step_phase waits h i with same |
      ⟨f, -, -, ⟨q, p', -, -, after, -⟩ | ⟨-, -, served⟩ | ⟨-, absent, -⟩⟩
    · exact .inr ⟨⟨p, same.trans here, unfinished⟩, own⟩
    · cases past : p'.unfinished with
      | false => exact .inl (ended after past)
      | true => exact .inr ⟨⟨p', after, past⟩, own⟩
    · exact .inr ⟨⟨_, served, rfl⟩, own⟩
    · rw [here] at absent
      cases absent

section Fair

variable {b : Behaviour (Fires step)}

/-- `run` reaches its `join_next` loop, or a bind has failed. -/
theorem run_joins (always : ∀ n, Reached config C Q bindAddr (b.state n)) (fair : b.WeaklyFair Event.ofRun) :
    b.LeadsTo (fun _ => True) fun s => s.phase.toJoin = 0 := by
  have before : b.LeadsTo (fun s => s.phase.toJoin ≠ 0) fun s => s.phase.toJoin = 0 := by
    refine .of_rank (fun s => s.phase.toJoin) fun k => ?_
    refine Behaviour.leadsTo_of_fair always fair ?_ ?_
    · rintro s e t - ⟨short, rfl⟩ h
      rcases step_run h with closer | ⟨joining, -⟩ | ⟨same, other, -⟩
      · by_cases there : t.phase.toJoin = 0
        · exact .inl (.inl there)
        · exact .inl (.inr ⟨there, closer⟩)
      · rw [joining] at short
        exact absurd rfl short
      · rw [same]
        exact .inr ⟨⟨short, rfl⟩, other⟩
    · rintro s ⟨es, run⟩ ⟨short, -⟩
      have progress := (explained_of_run run).progress
      unfold Progress at progress
      cases at_phase : s.phase with
      | binding bound rest =>
        rw [at_phase] at progress
        cases rest with
        | nil => exact absurd rfl progress.1
        | cons port rest => exact ⟨.bind (.ok ()), _, trivial, by simp only [Fires, step, bind, at_phase]; rfl⟩
      | spawning rest =>
        rw [at_phase] at progress
        cases rest with
        | nil => exact absurd rfl progress.1
        | cons port rest => exact ⟨.spawn, _, trivial, by simp only [Fires, step, at_phase]; rfl⟩
      | joining | returned =>
        rw [at_phase] at short
        exact absurd rfl short
  intro n _
  by_cases there : (b.state n).phase.toJoin = 0
  · exact ⟨n, Nat.le_refl n, there⟩
  · exact before n there

/-- A listener leaves its phase, unless it waits there for a client. -/
theorem listener_moves (always : ∀ n, Reached config C Q bindAddr (b.state n))
    (fair : b.WeaklyFair (Event.ofListener l)) {p : ListenPhase}
    (enabled : ∀ s, s.listenPhase? l = some p → Enabled (Fires step) (Event.ofListener l) s) :
    b.LeadsTo (fun s => s.listenPhase? l = some p)
      fun s => ∃ le p', s.listenPhase? l = some p' ∧ p.Moves le p' ∧ ∀ i, le ≠ .reap i := by
  -- The tasks it takes out meanwhile make its `JoinSet` smaller.
  refine .of_rank (fun s => (s.admission.joinSet l).length) fun k => ?_
  refine Behaviour.leadsTo_of_fair always fair ?_ fun s _ now => enabled s now.1
  rintro s e t - ⟨at_p, rfl⟩ h
  rcases step_listener h l with ⟨le, q, p', rfl, at_q, moves, after⟩ | ⟨-, absent, -⟩ | ⟨other, same⟩
  · rw [at_p] at at_q
    cases at_q
    by_cases takes : ∃ i, le = .reap i
    · obtain ⟨i, rfl⟩ := takes
      cases moves with
      | reap => exact .inl (.inr ⟨after, joinSet_taken h⟩)
    · exact .inl (.inl ⟨le, p', after, moves, fun i same => takes ⟨i, same⟩⟩)
  · rw [at_p] at absent
    cases absent
  · rcases Nat.lt_or_eq_of_le (joinSet_other h other) with fewer | equal
    · exact .inl (.inr ⟨same.trans at_p, fewer⟩)
    · refine .inr ⟨⟨same.trans at_p, equal⟩, fun own => ?_⟩
      obtain ⟨le, rfl⟩ := ofListener_listen own
      exact other le rfl

/-- The branch of the cancelled token is taken at last: the accept loop is back at its
    `accept()`, where the branch is ready, again and again. -/
theorem listener_hears (always : ∀ n, Reached config C Q bindAddr (b.state n))
    (fair : b.WeaklyFair (Event.ofListener l)) (hears : b.StronglyFair (· = .listen l .cancelled)) :
    b.LeadsTo (fun s => s.cancelled = true ∧ ∃ p, s.listenPhase? l = some p ∧ p.accepts = true)
      fun s => ∃ p, s.listenPhase? l = some p ∧ p.accepts = false := by
  have token (s : Server) (e : Event) (t : Server) (_ : Reached config C Q bindAddr s)
      (cancelled : s.cancelled = true) (h : Fires step s e t) : t.cancelled = true := token_kept h cancelled
  have ready {s : Server} {p : ListenPhase} (at_p : s.listenPhase? l = some p)
      (awaits : p = .spawned ∨ p = .accepting) (cancelled : s.cancelled = true) :
      Enabled (Fires step) (· = .listen l .cancelled) s := by
    refine ⟨_, s.setListen l (.draining (.ok ())), rfl, listen_enabled at_p ?_⟩
    rcases awaits with rfl | rfl
    · exact if_pos cancelled
    · exact if_pos cancelled
  refine Behaviour.leadsTo_of_stronglyFair always hears ?_ ?_
  · rintro s e t - ⟨cancelled, p, at_p, accepting⟩ h
    have still := token_kept h cancelled
    rcases step_listener h l with ⟨le, q, p', rfl, -, moves, after⟩ | ⟨-, absent, -⟩ | ⟨other, same⟩
    · cases accepts : p'.accepts with
      | false => exact .inl ⟨p', after, accepts⟩
      | true =>
        refine .inr ⟨⟨still, p', after, accepts⟩, fun own => ?_⟩
        cases own
        cases moves with
        | cancelled => cases accepts
    · rw [at_p] at absent
      cases absent
    · exact .inr ⟨⟨still, p, same.trans at_p, accepting⟩, other _⟩
  · have from_reaping : b.LeadsTo (fun s => s.listenPhase? l = some .reaping ∧ s.cancelled = true)
        fun s => (∃ p, s.listenPhase? l = some p ∧ p.accepts = false) ∨
          Enabled (Fires step) (· = .listen l .cancelled) s := by
      refine ((listener_moves always fair fun s => reaping_enabled).also always token).mono (fun _ => id) ?_
      rintro s ⟨⟨le, p', at_p, moves, no_reap⟩, cancelled⟩
      cases moves with
      | reap => exact absurd rfl (no_reap _)
      | reaped => exact .inr (ready at_p (.inr rfl) cancelled)
      | cancelled awaits => rcases awaits with same | same <;> cases same
      | panic => exact .inl ⟨_, at_p, rfl⟩
    have from_queueing : b.LeadsTo (fun s => s.listenPhase? l = some .queueing ∧ s.cancelled = true)
        fun s => (∃ p, s.listenPhase? l = some p ∧ p.accepts = false) ∨
          Enabled (Fires step) (· = .listen l .cancelled) s := by
      have queues : ∀ s, s.listenPhase? l = some .queueing → Enabled (Fires step) (Event.ofListener l) s :=
        fun s at_p => ⟨.listen l .queue, _, rfl, listen_enabled at_p rfl⟩
      refine .resolve (((listener_moves always fair queues).also always token).mono (fun _ => id) ?_)
        from_reaping
      rintro s ⟨⟨le, p', at_p, moves, no_reap⟩, cancelled⟩
      cases moves with
      | reap => exact absurd rfl (no_reap _)
      | queue => exact .inr ⟨at_p, cancelled⟩
      | cancelled awaits => rcases awaits with same | same <;> cases same
      | panic => exact .inl (.inl ⟨_, at_p, rfl⟩)
    rintro n ⟨cancelled, p, at_p, accepts⟩
    cases p with
    | spawned => exact ⟨n, Nat.le_refl n, .inr (ready at_p (.inl rfl) cancelled)⟩
    | accepting => exact ⟨n, Nat.le_refl n, .inr (ready at_p (.inr rfl) cancelled)⟩
    | reaping => exact from_reaping n ⟨at_p, cancelled⟩
    | queueing => exact from_queueing n ⟨at_p, cancelled⟩
    | draining | returned | panicked => cases accepts

/-- A listener that has left its accept loop ends, at the latest at its deadline. -/
theorem drain_ends (always : ∀ n, Reached config C Q bindAddr (b.state n))
    (fair : b.WeaklyFair (Event.ofListener l)) :
    b.LeadsTo (fun s => ∃ p, s.listenPhase? l = some p ∧ p.accepts = false)
      fun s => ∃ p, s.listenPhase? l = some p ∧ p.ended = true := by
  rintro n ⟨p, at_p, closed⟩
  cases p with
  | spawned | reaping | accepting | queueing => cases closed
  | returned | panicked => exact ⟨n, Nat.le_refl n, _, at_p, rfl⟩
  | draining acceptRes =>
    have fires : ∀ s, s.listenPhase? l = some (.draining acceptRes) →
        Enabled (Fires step) (Event.ofListener l) s :=
      fun s at_p => ⟨.listen l .deadline, _, rfl, listen_enabled at_p rfl⟩
    obtain ⟨m, after, le, p', at_p', moves, no_reap⟩ := listener_moves always fair fires n at_p
    refine ⟨m, after, p', at_p', ?_⟩
    cases moves with
    | reap => exact absurd rfl (no_reap _)
    | cancelled awaits => rcases awaits with same | same <;> cases same
    | drained | deadline | panic => rfl

/-- Every listener ends. -/
theorem listeners_close (always : ∀ n, Reached config C Q bindAddr (b.state n))
    (fair : ∀ l, b.WeaklyFair (Event.ofListener l)) (hears : ∀ l, b.StronglyFair (· = .listen l .cancelled)) :
    b.LeadsTo (fun s => s.cancelled = true ∧ s.phase.toJoin = 0) fun s => ∀ l, Closed l s := by
  refine .all always (fun l s e t _ closed h => closed_step h closed) (fun l => ?_) ?_
  · have ends : b.LeadsTo (fun s => ∃ p, s.listenPhase? l = some p ∧ p.accepts = false)
        fun s => ∃ p, s.listenPhase? l = some p ∧ p.ended = true := drain_ends always (fair l)
    have there (s : Server) (e : Event) (t : Server) (_ : Reached config C Q bindAddr s)
        (past : s.phase.toJoin = 0) (h : Fires step s e t) : t.phase.toJoin = 0 := toJoin_step h past
    have closes {P : Server → Prop} (h : b.LeadsTo P fun s => ∃ p, s.listenPhase? l = some p ∧ p.ended = true) :
        b.LeadsTo (fun s => P s ∧ s.phase.toJoin = 0) (Closed l) := by
      refine (h.also always there).mono (fun _ => id) ?_
      rintro s ⟨⟨p, at_p, ended⟩, past⟩
      refine ⟨past, fun q at_q => ?_⟩
      rw [at_p] at at_q
      cases at_q
      exact ended
    rintro n ⟨cancelled, past⟩
    cases at_p : (b.state n).listenPhase? l with
    | none => exact ⟨n, Nat.le_refl n, past, fun p now => by rw [at_p] at now; cases now⟩
    | some p =>
      cases accepts : p.accepts with
      | false => exact closes ends n ⟨⟨p, at_p, accepts⟩, past⟩
      | true =>
        exact closes ((listener_hears always (fair l) (hears l)).trans ends) n
          ⟨⟨cancelled, p, at_p, accepts⟩, past⟩
  · rintro s ⟨-, past⟩
    refine ⟨s.listeners.length, fun l outside => ⟨past, fun p at_p => ?_⟩⟩
    rw [listenPhase?, List.getElem?_eq_none outside] at at_p
    cases at_p

/-- `run` joins the listeners, which are over, and returns. -/
theorem run_returns (always : ∀ n, Reached config C Q bindAddr (b.state n)) (fair : b.WeaklyFair Event.ofRun) :
    b.LeadsTo (fun s => ∀ l, Closed l s) fun s => ∃ r, s.phase = .returned r := by
  have joins : b.LeadsTo (fun s => s.phase = .joining ∧ ∀ l, Closed l s) fun s => ∃ r, s.phase = .returned r := by
    refine .of_rank unjoined fun k => ?_
    refine Behaviour.leadsTo_of_fair always fair ?_ ?_
    · rintro s e t - ⟨⟨joining, closed⟩, rfl⟩ h
      have still := fun l => closed_step h (closed l)
      rcases step_run h with closer | ⟨-, past | ⟨joining', fewer⟩⟩ | ⟨same, other, equal⟩
      · rw [joining] at closer
        exact absurd closer (Nat.not_lt_zero _)
      · exact .inl (.inl past)
      · exact .inl (.inr ⟨⟨joining', still⟩, fewer⟩)
      · exact .inr ⟨⟨⟨same.trans joining, still⟩, equal joining⟩, other⟩
    · rintro s - ⟨⟨joining, closed⟩, -⟩
      by_cases settled : s.listeners.all (·.joined) = true
      · exact ⟨.ret, _, trivial, if_pos ⟨joining, settled⟩⟩
      · obtain ⟨listener, present, waits⟩ : ∃ x ∈ s.listeners, x.joined = false := by
          simpa using settled
        obtain ⟨l, found⟩ := List.mem_iff_getElem?.mp present
        have ended := (closed l).2 _ (congrArg (Option.map Listener.phase) found)
        obtain ⟨t, taken, -⟩ := join_of_ended found waits ended
        exact ⟨.join l, t, trivial, (if_pos joining).trans taken⟩
  intro n closed
  rcases joining_or_returned (closed 0).1 with joining | past
  · exact joins n ⟨joining, closed⟩
  · exact ⟨n, Nat.le_refl n, past⟩

/-- A panic is joined, and the join cancels the token. -/
theorem panic_heard (always : ∀ n, Reached config C Q bindAddr (b.state n)) (fair : b.WeaklyFair Event.ofRun)
    (l : Nat) (message : String) :
    b.LeadsTo (fun s => s.listenPhase? l = some (.panicked message) ∧ s.phase.toJoin = 0)
      fun s => s.cancelled = true ∨ ∃ r, s.phase = .returned r := by
  have joins : b.LeadsTo
      (fun s => s.phase = .joining ∧ s.cancelled = false ∧ s.listenPhase? l = some (.panicked message))
      fun s => s.cancelled = true ∨ ∃ r, s.phase = .returned r := by
    refine .of_rank unjoined fun k => ?_
    refine Behaviour.leadsTo_of_fair always fair ?_ ?_
    · rintro s e t - ⟨⟨joining, -, panicked⟩, rfl⟩ h
      have still := ended_step h panicked rfl
      by_cases heard : t.cancelled = true
      · exact .inl (.inl (.inl heard))
      · have calm : t.cancelled = false := Bool.eq_false_iff.mpr heard
        rcases step_run h with closer | ⟨-, past | ⟨joining', fewer⟩⟩ | ⟨same, other, equal⟩
        · rw [joining] at closer
          exact absurd closer (Nat.not_lt_zero _)
        · exact .inl (.inl (.inr past))
        · exact .inl (.inr ⟨⟨joining', calm, still⟩, fewer⟩)
        · exact .inr ⟨⟨⟨same.trans joining, calm, still⟩, equal joining⟩, other⟩
    · rintro s ⟨es, run⟩ ⟨⟨joining, calm, panicked⟩, -⟩
      obtain ⟨listener, found, phase⟩ := Option.map_eq_some_iff.mp panicked
      have recorded := (explained_of_run run).recorded
      have waits : listener.joined = false := by
        cases joined : listener.joined with
        | false => rfl
        | true =>
          have failing : listener.phase.failure? ≠ none := by
            rw [phase]
            nofun
          obtain ⟨e, kept⟩ := Option.ne_none_iff_exists'.mp
            ((recorded.joins l listener found joined).2 failing)
          rw [(recorded.first e kept).1] at calm
          cases calm
      obtain ⟨t, taken, -⟩ := join_of_ended found waits (by rw [phase]; rfl)
      exact ⟨.join l, t, trivial, (if_pos joining).trans taken⟩
  rintro n ⟨panicked, there⟩
  rcases joining_or_returned there with joining | past
  · cases heard : (b.state n).cancelled with
    | true => exact ⟨n, Nat.le_refl n, .inl heard⟩
    | false => exact joins n ⟨joining, heard, panicked⟩
  · exact ⟨n, Nat.le_refl n, .inr past⟩

/-- What a `JoinSet` still holds when its listener is over is aborted. -/
theorem connections_end (always : ∀ n, Reached config C Q bindAddr (b.state n))
    (fair : ∀ i, b.WeaklyFair (· = .abort i)) :
    b.LeadsTo (fun s => ∃ r, s.phase = .returned r) fun s => ∀ i, Over i s := by
  refine .all always (fun i s e t ok ended h => over_step ok ended h) (fun i => ?_) ?_
  · have aborted : b.LeadsTo (fun s => (∃ r, s.phase = .returned r) ∧
        ∃ p, s.admission.phase? i = some p ∧ p.unfinished = true) (Over i) := by
      refine Behaviour.leadsTo_of_fair always (fair i) ?_ ?_
      · rintro s e t ⟨es, run⟩ ⟨past, p, here, unfinished⟩ h
        refine (unfinished_step (shutting_of_run run).accounted.waiting h here unfinished).imp ?_ ?_
        · exact fun ended => ⟨returned_stays h past, ended⟩
        · exact fun ⟨still, other⟩ => ⟨⟨returned_stays h past, still⟩, other⟩
      · rintro s ⟨es, run⟩ ⟨⟨r, at_r⟩, p, here, unfinished⟩
        obtain ⟨c, found, -⟩ := Option.map_eq_some_iff.mp here
        have owner : s.admission.owner? i = some c.listener := congrArg (Option.map Connection.listener) found
        obtain ⟨gone, at_i⟩ := Admission.record?_of_owner? owner
        obtain ⟨q, at_q⟩ := (shutting_of_run run).owned i c.listener gone at_i
        have ended : ((s.admission.owner? i).bind s.listenPhase?).any ListenPhase.ended = true := by
          rw [owner, Option.bind_some, at_q]
          exact ended_of_returned run at_r at_q
        obtain ⟨a, taken⟩ := Admission.abort_of_unfinished here unfinished
        exact ⟨.abort i, _, rfl, (if_pos ended).trans (congrArg (Option.map _) taken)⟩
    intro n past
    by_cases unfinished : ∃ p, (b.state n).admission.phase? i = some p ∧ p.unfinished = true
    · exact aborted n ⟨past, unfinished⟩
    · exact ⟨n, Nat.le_refl n, past, fun p here =>
        Bool.eq_false_iff.mpr fun still => unfinished ⟨p, here, still⟩⟩
  · intro s past
    refine ⟨s.admission.connections.length, fun i outside => ⟨past, fun p here => ?_⟩⟩
    rw [Admission.phase?, List.getElem?_eq_none outside] at here
    cases here

/-- All tasks over, the semaphores have their permits back. -/
theorem permits_back (reached : Reached config C Q bindAddr s) (ended : ∀ i, Over i s) :
    s.admission.openConnections.free = C ∧ s.admission.queuedConnections.free = Q := by
  obtain ⟨es, run⟩ := reached
  have nothing_held (q : Phase → Bool) (free : ∀ result, q (.finished result) = false) :
      s.admission.held q = 0 := by
    refine Admission.held_eq_zero.mpr fun i p here => ?_
    have past := (ended i).2 p here
    cases p with
    | finished result => exact free result
    | accepted | queued | waiting | assigned | admitted | connecting => cases past
  obtain ⟨opens, slots, -, -⟩ := (shutting_of_run run).accounted
  rw [nothing_held Phase.holdsOpen fun _ => rfl] at opens
  rw [nothing_held Phase.holdsSlot fun _ => rfl] at slots
  exact ⟨opens, slots⟩

end Fair

end Server

open Server (Event)

/-- The only client never closes its connection, and the deadline of the listener fires. -/
def hungShutdown : List Server.Event :=
  listening ++
    [.listen 0 (.accept (.ok ())), .poll 0, .listen 0 .reaped, .cancel, .listen 0 .cancelled,
     .listen 0 .deadline, .join 0, .ret, .abort 0]

theorem hungShutdown_idle {e : Event} {t : Server} (other : e ≠ .cancel) :
    (reachedBy hungShutdown).step e ≠ some t := by
  intro h
  cases e with
  | cancel => exact other rfl
  | bind | spawn | join | ret => cases h
  | listen l le =>
    cases l with
    | zero =>
      cases le with
      | start | reap | reaped | accept | queue | cancelled | drained | deadline | panic => cases h
    | succ l => cases h
  | poll i | dropQueueSlot i | finish i | abort i =>
    cases i with
    | zero => cases h
    | succ i => cases h

end TcpProxy
