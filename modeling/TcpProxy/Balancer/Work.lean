import TcpProxy.Balancer.Concurrent
import TcpProxy.Lib.Credits

/-! # What a call costs

For any prices of the operations of the production stack: one `connect_backend` call over `n`
targets draws one counter value, and each target costs it at most two status checks with
clock readings, a lookup and one report; only the addresses that lookups return add to it. -/

namespace TcpProxy

open Effects Effects.Program SimpleCooldownHandler RoundRobin

variable {Stream : Type}

/-- A price for each operation of the production stack. -/
structure Prices where
  draw : Nat := 0
  load : Nat := 0
  store : Nat := 0
  now : Nat := 0
  lookup : Nat := 0
  dial : Nat := 0

/-- How many addresses an answer brings. -/
def returned : (Stack Stream).Event → Nat
  | ⟨.lookupHost _, .ok addrs⟩ => addrs.length
  | _ => 0

namespace Prices

def price (P : Prices) : StackOp → Nat
  | .fetchAdd _ => P.draw
  | .load _ => P.load
  | .store _ _ => P.store
  | .now => P.now
  | .lookupHost _ => P.lookup
  | .connectAddr _ => P.dial

/-- An address that a lookup returns may be dialled. -/
def credit (P : Prices) (e : (Stack Stream).Event) : Nat := P.dial * returned e

def report (P : Prices) : Nat := P.load + (P.now + (P.now + P.store))

def attempt (P : Prices) : Nat := P.lookup + P.report

def check (P : Prices) : Nat := P.load + P.now

/-- The most that a call over `n` targets costs, the addresses apart. -/
def call (P : Prices) (n : Nat) : Nat := P.draw + n * (P.check + P.attempt)

theorem earned_credit (P : Prices) (tr : List (Stack Stream).Event) :
    earned P.credit tr = P.dial * earned returned tr :=
  earned_mul ..

end Prices

namespace StackOp

def isLookup : StackOp → Bool
  | .lookupHost _ => true
  | _ => false

def isDial : StackOp → Bool
  | .connectAddr _ => true
  | _ => false

def isStore : StackOp → Bool
  | .store _ _ => true
  | _ => false

end StackOp

variable {P : Prices} {target : String} {forPort : UInt16}

theorem report_affords (result : ConnectResult) :
    Affords P.price P.credit P.report
      (reportConnectionAttempt target result : Program (Stack Stream) _) := by
  refine affords_ask (I := Stack Stream) (.load target) fun status => ?_
  rcases status with e | (loaded | _)
  · trivial
  · refine affords_ask (I := Stack Stream) .now fun now => ?_
    show Affords _ _ _ (if result = .failure then _ else _)
    split
    · refine affords_ask (I := Stack Stream) .now fun later => ?_
      exact affords_ask (I := Stack Stream) (b := 0) (.store target _) fun a => trivial
    · cases loaded with
      | none => trivial
      | some until_ =>
        show Affords _ _ _ (if until_ > now then _ else _)
        split
        · have stores : Affords P.price P.credit P.store
              (perform (I := Stack Stream) (.store target (.alive none))) :=
            affords_ask (I := Stack Stream) (b := 0) (.store target _) fun a => trivial
          exact stores.mono (Nat.le_add_left ..)
        · trivial
  · trivial

/-- A report, and the outcome of the attempt behind it. -/
theorem reported_affords (result : ConnectResult) (out : ConnectAttempt (Stream × SocketAddr)) :
    Affords P.price P.credit P.report
      (reportConnectionAttempt target result >>= fun _ => .ret out : Program (Stack Stream) _) :=
  affords_bind (c := 0) (report_affords result) fun _ => trivial

theorem connectAddrs_affords (addrs : List SocketAddr) :
    Affords P.price P.credit (P.dial * addrs.length + P.report)
      (interp handle (connectAddrs target addrs) : Program (Stack Stream) _) := by
  induction addrs with
  | nil => exact (reported_affords .failure .tryNext).mono (Nat.le_add_left ..)
  | cons addr addrs ih =>
    have price : P.price (.connectAddr addr) = P.dial := rfl
    have enough : P.dial * (addr :: addrs).length + P.report =
        P.price (.connectAddr addr) + (P.dial * addrs.length + P.report) := by
      rw [price, List.length_cons, Nat.mul_succ]
      omega
    rw [enough]
    refine affords_ask (I := Stack Stream) (.connectAddr addr) fun ans => ?_
    rcases ans with e | e | stream
    · exact ih
    · exact ih
    · exact (reported_affords .success (.ready (stream, addr))).mono (Nat.le_add_left ..)

/-- The addresses that are dialled are paid for by the lookup that returned them. -/
theorem connect_affords (target : String) (forPort : UInt16) :
    Affords P.price P.credit P.attempt
      (interp handle (connect target forPort) : Program (Stack Stream) _) := by
  refine affords_ask (I := Stack Stream) (.lookupHost target) fun ans => ?_
  cases ans with
  | ok addrs => exact (connectAddrs_affords addrs).mono (Nat.le_of_eq (Nat.add_comm ..))
  | error e =>
    cases e with
    | dnsNxError | dnsTransientError => exact reported_affords .failure .tryNext
    | _ => trivial

namespace Prices

/-- The price of an operation of `connect_backend`, its attempts carried out. -/
def select (P : Prices) : SelectOp → Nat
  | .fetchAdd _ => P.draw
  | .getTargetStatus _ => P.load
  | .now => P.now
  | .connect _ _ => P.attempt

end Prices

theorem carry_affords (op : SelectOp) :
    Affords P.price P.credit (P.select op) (carry op : Program (Stack Stream) _) := by
  cases op with
  | connect target forPort => exact connect_affords target forPort
  | fetchAdd | getTargetStatus | now => exact ⟨Nat.le_refl _, fun _ => trivial⟩

theorem secondPass_affords (cooling : List String) :
    Affords P.select (fun _ => 0) (cooling.length * P.attempt)
      (secondPass forPort cooling : Program (Select Stream) _) := by
  induction cooling with
  | nil => trivial
  | cons target cooling ih =>
    rw [secondPass_cons, List.length_cons, Nat.succ_mul, Nat.add_comm]
    refine affords_ask (I := Select Stream) (.connect target forPort) fun outcome => ?_
    cases outcome with
    | tryNext => exact ih
    | ready | fatal => trivial

/-- A target found cooling has had its check, and keeps its attempt for the second pass. -/
theorem firstPass_affords {backends : List String} {nonempty : 0 < backends.length} {startIdx : Nat}
    (is : List Nat) (cooling : List String) :
    Affords P.select (fun _ => 0) (is.length * (P.check + P.attempt) + cooling.length * P.attempt)
      (firstPass backends nonempty startIdx forPort is cooling : Program (Select Stream) _) := by
  induction is generalizing cooling with
  | nil => exact (secondPass_affords cooling).mono (Nat.le_add_left ..)
  | cons i is ih =>
    rw [firstPass_cons]
    generalize backends.get _ = target
    have attempted : Affords P.select (fun _ => 0)
        (P.attempt + (is.length * (P.check + P.attempt) + cooling.length * P.attempt))
        (perform (I := Select Stream) (.connect target forPort) >>=
          resume (firstPass backends nonempty startIdx forPort is cooling)) := by
      refine affords_ask (I := Select Stream) (.connect target forPort) fun outcome => ?_
      cases outcome with
      | tryNext => exact ih cooling
      | ready | fatal => trivial
    have enough : (i :: is).length * (P.check + P.attempt) + cooling.length * P.attempt =
        P.load + (P.now + (P.attempt +
          (is.length * (P.check + P.attempt) + cooling.length * P.attempt))) := by
      rw [List.length_cons, Nat.succ_mul, Prices.check]
      omega
    rw [enough]
    refine affords_ask (I := Select Stream) (.getTargetStatus target) fun status => ?_
    rcases status with e | (time | _)
    · trivial
    · cases time with
      | none => exact attempted.mono (Nat.le_add_left ..)
      | some time =>
        refine affords_ask (I := Select Stream) .now fun now => ?_
        show Affords _ _ _ (if time > now then _ else _)
        split
        · refine (ih (cooling ++ [target])).mono (Nat.le_of_eq ?_)
          rw [List.length_append, List.length_singleton, Nat.succ_mul]
          omega
        · exact attempted
    · exact (ih cooling).mono (by omega)

theorem stackConnectBackend_affords {config : ProxyConfig} {pool : List String}
    (hpool : config.getPool forPort = some pool) :
    Affords P.price P.credit (P.call pool.length)
      (stackConnectBackend config forPort : Program (Stack Stream) _) := by
  rw [stackConnectBackend_eq]
  refine affords_interp ?_ carry_affords
  unfold connectBackend
  rw [hpool]
  show Affords _ _ _ (if nonempty : 0 < pool.length then _ else _)
  split
  next nonempty =>
    refine affords_ask (I := Select Stream) (.fetchAdd forPort) fun drawn => ?_
    cases drawn with
    | none => trivial
    | some counter =>
      have passes : Affords P.select (fun _ => 0)
          ((List.range pool.length).length * (P.check + P.attempt) + ([] : List String).length * P.attempt)
          (firstPass pool nonempty (counter % pool.length) forPort (List.range pool.length) [] :
            Program (Select Stream) _) := firstPass_affords _ _
      exact passes.mono (by simp)
  next => trivial

end TcpProxy
