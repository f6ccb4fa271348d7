import TcpProxy.Proxy.Forwarding
import TcpProxy.Balancer.Routes

/-! # Tasks that are cut off

A connection task can be dropped in the middle of `do_connection`: its listener aborts it
at the drain deadline, or the resolver, the connector or the copy panics.  It is suspended
then, and the only suspensions of `connect_backend` lie between two calls on the trait
objects, so what the task leaves behind on the shared balancer is whole calls: no report is
cut between its load and its store. -/

namespace TcpProxy

open Effects Effects.Program Effects.Pool Lts SimpleCooldownHandler RoundRobin

variable {w : Nat} {Stream : Type} {config : ProxyConfig}

/-- The operations `tr` on the production stack are whole calls that `connect_backend` makes. -/
def WholeCalls (config : ProxyConfig) (port : UInt16) (tr : List (Stack Stream).Event) : Prop :=
  ∃ T q, Steps (linkedConnectBackend config port) T q ∧ Unfolds handle T tr

/-- A call is suspended only before its first operation. -/
theorem suspended_at_start {op : BalancerOp} {tr : List (Stack Stream).Event} {op' : StackOp}
    {next : (Stack Stream).Ans op' → Program (Stack Stream) _} (awaits : op'.Network)
    (steps : Steps (handle op) tr (.ask op' next)) : tr = [] := by
  -- What carries out a single operation has returned once that is answered.
  have single : ∀ {op : StackOp} {next : (Stack Stream).Ans op' → Program (Stack Stream) _},
      Steps (perform (I := Stack Stream) op) tr (.ask op' next) → tr = [] := by
    intro op next steps
    rcases steps_ask steps with ⟨rfl, -⟩ | ⟨a, rest, rfl, past⟩
    · rfl
    · cases past
  cases op with
  | reportConnectionAttempt target result =>
    have reports : Uses (I := Stack Stream) Local (reportConnectionAttempt target result) :=
      uses_reportConnectionAttempt rfl rfl fun _ => rfl
    have quiet := (uses_steps steps reports).1
    cases op' with
    | lookupHost | connectAddr => cases quiet
    | fetchAdd | load | store | now => cases awaits
  | fetchAdd | getTargetStatus | now | lookupHost | connectAddr => exact single steps

theorem wholeCalls_of_suspended {port : UInt16} {tr : List (Stack Stream).Event} {op : StackOp}
    {next : (Stack Stream).Ans op → Program (Stack Stream) _} (awaits : op.Network)
    (steps : Steps (Call.body config (.connectBackend port)) tr (.ask op next)) :
    WholeCalls config port tr := by
  rcases steps_bind (p := stackConnectBackend config port) steps with
    ⟨op', next', inside, same⟩ | ⟨r, tr₁, tr₂, -, -, past⟩
  · cases same
    rcases steps_interp inside with ⟨T, v, -, -, ended⟩ |
      ⟨T, call, rest, front, back, op', next', rfl, above, whole, current, same⟩
    · cases ended
    · cases same
      obtain rfl := suspended_at_start awaits current
      exact ⟨T, _, above, by rwa [List.append_nil]⟩
  · cases past

theorem wholeCalls_of_returned {port : UInt16} {tr : List (Stack Stream).Event} {v : CallResult Stream}
    (steps : Steps (Call.body config (.connectBackend port)) tr (.ret v)) : WholeCalls config port tr := by
  obtain ⟨r, tr₁, tr₂, rfl, ran, done⟩ := exec_bind.mp steps
  obtain ⟨rfl, -⟩ := exec_ret.mp done
  obtain ⟨T, above, whole⟩ := exec_interp.mp ran
  exact ⟨T, _, above, by rwa [List.append_nil]⟩

/-! ## The copy comes last -/

def CopiesLast {α : Type} : Program (Forward Stream) α → Prop
  | .ret _ => True
  | .ask (.inl _) next => ∀ a, CopiesLast (next a)
  | .ask (.inr _) next => ∀ a, ∃ r, next a = .ret r

theorem copiesLast_doConnection (port : UInt16) (inSock copyBufSize : Nat) :
    CopiesLast (doConnection config port inSock copyBufSize : Program (Forward Stream) _) := by
  unfold doConnection
  induction (stackConnectBackend config port : Program (Stack Stream) (Connected Stream)) with
  | ret r =>
    cases r with
    | error e => trivial
    | ok s =>
      intro a
      cases a with
      | error e => exact ⟨_, rfl⟩
      | ok n => exact ⟨_, rfl⟩
  | ask op next ih => exact ih

theorem CopiesLast.steps {α : Type} {p q : Program (Forward Stream) α} {tr : List (Forward Stream).Event}
    (run : Steps p tr q) (h : CopiesLast p) : CopiesLast q := by
  induction run with
  | nil => exact h
  | @cons op next a tr q rest ih =>
    cases op with
    | inl op => exact ih (h a)
    | inr sock =>
      obtain ⟨r, past⟩ := h a
      rw [past] at rest
      cases rest
      trivial

/-! ## In a run of the proxy -/

/-- The body has returned, or waits for an answer from outside. -/
def Resting : Program (Forward Stream) (Except ProxyError Unit) → Prop
  | .ret _ => True
  | .ask op _ => Awaited op

/-- How the end of a task and the program of its body go together. -/
inductive EndsAs : TaskEnd → Program (Forward Stream) (Except ProxyError Unit) → Prop
  | returned (v : Except ProxyError Unit) : EndsAs (.of v) (.ret v)
  | dropped {r : TaskEnd} {op : (Forward Stream).Op}
      {next : (Forward Stream).Ans op → Program (Forward Stream) (Except ProxyError Unit)} :
      r = .panicked ∨ r = .aborted → Awaited op → EndsAs r (.ask op next)

theorem EndsAs.resting {r : TaskEnd} {q : Program (Forward Stream) (Except ProxyError Unit)}
    (h : EndsAs r q) : Resting q := by
  cases h with
  | returned v => trivial
  | dropped _ awaited => exact awaited

namespace Proxy

variable {copyBufSize : Nat} {x y : Proxy w Stream} {es : List (Event Stream)}

/-- A task that was not aborted has a body, and a body that is over rests. -/
structure Rested (x : Proxy w Stream) : Prop where
  body : ∀ i r, x.server.admission.phase? i = some (.finished r) → r ≠ .aborted →
    ∃ q, x.bodies.threads i = some q
  endsAs : ∀ i r q, x.server.admission.phase? i = some (.finished r) → x.bodies.threads i = some q →
    EndsAs r q

theorem endsAs_of_suspended {i : Nat} {r : TaskEnd} (h : x.Suspended i) (cut : r = .panicked ∨ r = .aborted)
    {q : Program (Forward Stream) (Except ProxyError Unit)} (running : x.bodies.threads i = some q) :
    EndsAs r q := by
  obtain ⟨op, next, suspended, awaited⟩ := h
  rw [suspended] at running
  cases running
  exact .dropped cut awaited

/-- A task ends with a step of the server, which leaves the bodies alone. -/
theorem ended_by {C Q : Nat} {e : Event Stream} (synced : Synced C Q x)
    (step : Step config copyBufSize x e y) {i : Nat} {r : TaskEnd}
    (before : x.server.admission.phase? i ≠ some (.finished r))
    (after : y.server.admission.phase? i = some (.finished r)) :
    ∃ f, e = .server f ∧ x.Lets f ∧ y.bodies = x.bodies ∧
      ((f = .finish i r ∧ r ≠ .aborted) ∨
        (f = .abort i ∧ r = .aborted ∧ ∃ p, x.server.admission.phase? i = some p ∧ p.unfinished = true)) := by
  cases step with
  | @server f t moved _ lets =>
    exact ⟨f, rfl, lets, rfl, Server.finished_by synced.accounted.waiting moved before after⟩
  | enter moved enters _ =>
    -- Nothing ends in a step into `do_connection`.
    rcases Server.finished_by synced.accounted.waiting moved before after with ⟨rfl, -⟩ | ⟨rfl, -⟩
    · cases enters
    · cases enters
  | act _ _ => exact absurd after before

/-- What has ended does nothing more. -/
theorem thread_kept {e : Event Stream} (step : Step config copyBufSize x e y) {i : Nat} {r : TaskEnd}
    (before : x.server.admission.phase? i = some (.finished r)) :
    y.bodies.threads i = x.bodies.threads i := by
  cases step with
  | server _ _ _ => rfl
  | @enter f t client moved enters _ =>
    have other : i ≠ client.inSock := by
      rintro rfl
      rcases (Server.entered moved enters).1 with at_p | at_p
      all_goals rw [before] at at_p
      all_goals cases at_p
    simp [other]
  | @act j f bodies connecting acted =>
    have other : i ≠ j := by
      rintro rfl
      rw [before] at connecting
      cases connecting
    cases acted with
    | act _ _ => simp [other]

theorem rested_step {C Q : Nat} {e : Event Stream} (synced : Synced C Q x) (h : Rested x)
    (step : Step config copyBufSize x e y) : Rested y := by
  constructor
  · intro i r ended not_aborted
    by_cases before : x.server.admission.phase? i = some (.finished r)
    · rw [thread_kept step before]
      exact h.body i r before not_aborted
    · obtain ⟨f, -, lets, same, ⟨rfl, -⟩ | ⟨-, aborted, -⟩⟩ := ended_by synced step before ended
      · rw [same]
        cases r with
        | panicked =>
          obtain ⟨op, next, running, -⟩ := lets
          exact ⟨_, running⟩
        | aborted => exact absurd rfl not_aborted
        | ok | err =>
          obtain ⟨v, running, -⟩ := lets
          exact ⟨_, running⟩
      · exact absurd aborted not_aborted
  · intro i r q ended running
    by_cases before : x.server.admission.phase? i = some (.finished r)
    · rw [thread_kept step before] at running
      exact h.endsAs i r q before running
    · obtain ⟨f, -, lets, same, ⟨rfl, other⟩ | ⟨rfl, rfl, p, was, unfinished⟩⟩ :=
        ended_by synced step before ended
      · rw [same] at running
        cases r with
        | panicked => exact endsAs_of_suspended lets (.inl rfl) running
        | aborted => exact absurd rfl other
        | ok | err =>
          obtain ⟨v, returned, result⟩ := lets
          rw [returned] at running
          cases running
          rw [result]
          exact .returned v
      · rw [same] at running
        by_cases connecting : p = .connecting
        · rw [connecting] at was
          exact endsAs_of_suspended (lets was) (.inr rfl) running
        · obtain ⟨p', was', begun⟩ := synced.begun i q running
          rw [was] at was'
          cases was'
          cases p with
          | connecting => exact absurd rfl connecting
          | finished => cases unfinished
          | accepted | queued | waiting | assigned | admitted => cases begun

section FromStart

variable {targets : TargetState} {C Q : Nat} {bindAddr : IpAddr} {clock : Instant}

theorem rested_of_run
    (run : Run (Step config copyBufSize) (new config targets C Q bindAddr clock) es x) :
    Synced C Q x ∧ Rested x := by
  have initially : Rested (new config targets C Q bindAddr clock : Proxy w Stream) := by
    constructor
    · intro i r ended
      cases ended
    · intro i r q _ running
      cases running
  exact run.invariant (I := fun x => Synced C Q x ∧ Rested x)
    ⟨synced_new config targets C Q bindAddr clock, initially⟩
    fun _ _ _ both step => ⟨synced_step both.1 step, rested_step both.1 both.2 step⟩

/-- A connection that was neither cut off nor panicked ended with what its body returned. -/
theorem returned_steps (run : Run (Step config copyBufSize) (new config targets C Q bindAddr clock) es x)
    {i : Nat} {r : TaskEnd} (ended : x.server.admission.phase? i = some (.finished r))
    (whole : r ≠ .aborted) (calm : r ≠ .panicked) :
    ∃ port v, x.server.portOf? i = some port ∧ r = .of v ∧
      Steps (doConnection config port i copyBufSize) (trace i es) (.ret v) := by
  obtain ⟨-, rested⟩ := rested_of_run run
  obtain ⟨q, running⟩ := rested.body i r ended whole
  obtain ⟨port, at_port, steps⟩ := body_steps run running
  cases rested.endsAs i r q ended running with
  | returned v => exact ⟨port, v, at_port, rfl, steps⟩
  | dropped cut _ =>
    rcases cut with rfl | rfl
    · exact absurd rfl calm
    · exact absurd rfl whole

/-- Where its body rests, what a connection has done to the balancer is whole calls. -/
theorem wholeCalls_of_resting
    (run : Run (Step config copyBufSize) (new config targets C Q bindAddr clock) es x) {i : Nat}
    {q : Program (Forward Stream) (Except ProxyError Unit)} (running : x.bodies.threads i = some q)
    (rests : Resting q) : ∃ port, x.server.portOf? i = some port ∧ WholeCalls config port (asked i es) := by
  obtain ⟨c, calls, watched⟩ := calls_run run
  obtain ⟨p, running', shown⟩ := watched.running running
  obtain ⟨call, spawned, steps⟩ := spawned_steps calls rfl running'
  obtain ⟨e, port, rfl, entered⟩ := entered_of_call spawned
  refine ⟨port, port_of_enter run entered, ?_⟩
  cases q with
  | ret r =>
    obtain ⟨v, rfl, -⟩ := shown.returned
    exact wholeCalls_of_returned steps
  | ask op next =>
    cases op with
    | inl op =>
      obtain ⟨next', rfl, -⟩ := shown.asks
      exact wholeCalls_of_suspended rests steps
    | inr sock =>
      -- The call has returned its stream, and the copy is all that is left.
      obtain ⟨port', -, whole⟩ := body_steps run running
      have last := (copiesLast_doConnection port' i copyBufSize).steps whole
      cases shown with
      | right later =>
        obtain ⟨r, past⟩ := last (.ok (0, 0))
        have shown := later (.ok (0, 0))
        rw [past] at shown
        obtain ⟨v, rfl, -⟩ := shown.returned
        exact wholeCalls_of_returned steps

end FromStart

end Proxy

/-- The token is cancelled while the first connection is copied, and its listener aborts it at
    the deadline. -/
def cutOff : List (Proxy.Event Unit) :=
  forwarded ++ [.server .cancel, .server (.listen 0 .reaped), .server (.listen 0 .cancelled),
    .server (.listen 0 .deadline), .server (.abort 0)]

end TcpProxy
