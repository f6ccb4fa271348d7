import TcpProxy.Proxy.Server
import TcpProxy.Proxy.Accounting

/-! # Permit conservation

The accounting of `Proxy/Accounting.lean` holds at the start of the server and is kept
by each of its steps, so both semaphores balance in every reachable state.  The bounds
on the connections are read off the balance. -/

namespace TcpProxy

open Lts (Run Fires exec run_of_exec)
open Admission (Accounted accounted_new accounted_step)

theorem Server.accounted_step {C Q : Nat} {s t : Server} {e : Server.Event}
    (h : Accounted C Q s.admission) (hs : s.step e = some t) : Accounted C Q t.admission := by
  rcases Server.projects_step hs with same | ⟨f, -, hf⟩
  · rw [same]
    exact h
  · exact Admission.accounted_step h hf

theorem Server.accounted_of_run {config : ProxyConfig} {C Q : Nat} {bindAddr : IpAddr}
    {es : List Server.Event} {s : Server}
    (run : Run (Fires Server.step) (.new config C Q bindAddr) es s) :
    Accounted C Q s.admission :=
  run.invariant (accounted_new C Q) fun _ _ _ => Server.accounted_step

namespace Admission

theorem held_mono (s : Admission) {q r : Phase → Bool} (sub : ∀ p, q p = true → r p = true) :
    s.held q ≤ s.held r :=
  List.countP_mono_left fun c _ => sub c.phase

/-- A task is unfinished exactly as long as it has an open permit or a queue slot. -/
theorem unfinished_iff (p : Phase) :
    p.unfinished = (p.holdsOpen || p.holdsSlot) := by
  cases p <;> rfl

/-- The tasks that have an open permit and still their queue slot. -/
def both (p : Phase) : Bool := p.holdsOpen && p.holdsSlot

theorem held_or (s : Admission) (q r : Phase → Bool) :
    s.held (fun p => q p || r p) + s.held (fun p => q p && r p) = s.held q + s.held r := by
  unfold held
  induction s.connections with
  | nil => rfl
  | cons c rest ih =>
    simp only [List.countP_cons] at ih ⊢
    cases q c.phase <;> cases r c.phase <;> simp <;> omega

/-- Who has both is counted twice by the semaphores. -/
theorem held_unfinished (s : Admission) :
    s.held Phase.unfinished + s.held both = s.held Phase.holdsOpen + s.held Phase.holdsSlot := by
  have split := s.held_or Phase.holdsOpen Phase.holdsSlot
  have same : (fun p => Phase.holdsOpen p || Phase.holdsSlot p) = Phase.unfinished :=
    funext fun p => (unfinished_iff p).symm
  rw [same] at split
  exact split

end Admission

/-- In every reachable state both semaphores are balanced, at most `C` connections are
    in `do_connection`, at most `Q` hold a queue slot, at most `C + Q` are unfinished, and
    once none is, every permit is back. -/
theorem permits_conserved {config : ProxyConfig} {C Q : Nat} {bindAddr : IpAddr}
    {es : List Server.Event} {s : Server}
    (run : Run (Fires Server.step) (.new config C Q bindAddr) es s) :
    s.admission.held Phase.isConnecting ≤ C ∧
    s.admission.held Phase.holdsSlot ≤ Q ∧
    s.admission.held Phase.unfinished ≤ C + Q ∧
    s.admission.openConnections.free + s.admission.held Phase.holdsOpen = C ∧
    s.admission.queuedConnections.free + s.admission.held Phase.holdsSlot = Q ∧
    (s.admission.held Phase.unfinished = 0 →
      s.admission.openConnections.free = C ∧ s.admission.queuedConnections.free = Q) := by
  obtain ⟨opens, slots, -, -⟩ := Server.accounted_of_run run
  have connecting : s.admission.held Phase.isConnecting ≤ s.admission.held Phase.holdsOpen :=
    s.admission.held_mono fun p => by cases p <;> simp [Phase.isConnecting, Phase.holdsOpen]
  have both_open : s.admission.held Admission.both ≤ s.admission.held Phase.holdsOpen :=
    s.admission.held_mono fun p h => (Bool.and_eq_true_iff.mp h).1
  have counted := s.admission.held_unfinished
  have open_unfinished : s.admission.held Phase.holdsOpen ≤ s.admission.held Phase.unfinished :=
    s.admission.held_mono fun p h => by rw [Admission.unfinished_iff, h, Bool.true_or]
  refine ⟨by omega, by omega, by omega, opens, slots, ?_⟩
  intro idle
  constructor <;> omega

/-- One port, one target. -/
def onePort : ProxyConfig := ⟨[["localhost:8080"]], (∅ : Std.TreeMap UInt16 Nat).insert 80 0⟩

def localhostAddr : IpAddr := .v4 127 0 0 1

/-- The listener of port 80 is spawned and awaits its first connection. -/
def listening : List Server.Event :=
  [.bind (.ok ()), .spawn, .listen 0 .start, .listen 0 .reaped]

/-- One connection is active and a second one waits; the first ends, and its permit goes
    to the second, which resumes and drops its queue slot. -/
def handOver : List Server.Event :=
  listening ++
    [.listen 0 (.accept (.ok ())), .poll 0, .listen 0 .reaped,
     .listen 0 (.accept (.ok ())), .listen 0 .queue, .poll 1,
     .finish 0 .ok, .poll 1, .dropQueueSlot 1]

/-- Where events lead, on one port with room for one active and one queued connection. -/
def reachedBy (es : List Server.Event) : Server :=
  (exec Server.step (.new onePort 1 1 localhostAddr) es).getD (.new onePort 1 1 localhostAddr)

theorem handOver_conserves :
    Run (Fires Server.step) (.new onePort 1 1 localhostAddr) handOver (reachedBy handOver) ∧
      (reachedBy handOver).admission.held Phase.isConnecting = 1 ∧
      (reachedBy handOver).admission.held Phase.isConnecting ≤ 1 ∧
      (reachedBy handOver).admission.queuedConnections.free +
        (reachedBy handOver).admission.held Phase.holdsSlot = 1 := by
  have run : Run (Fires Server.step) (.new onePort 1 1 localhostAddr) handOver
      (reachedBy handOver) := run_of_exec rfl
  obtain ⟨connecting, -, -, -, slots, -⟩ := permits_conserved run
  exact ⟨run, by decide, connecting, slots⟩

end TcpProxy
