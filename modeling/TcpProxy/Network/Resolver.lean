import TcpProxy.Lib.Parsing
import TcpProxy.Balancer.Attempt

/-! # Target addresses

`HickoryTokioResolver` of `network/tokio.rs`, over the parser of `SocketAddr` and the
resolver it wraps.  A target that is no literal address is cut at its first colon and
the rest is read as a `u16`, which decides whether anything is looked up. -/

namespace TcpProxy

open Effects Effects.Program Parsing

/-! ## The standard library -/

/-- `str::split_once(":")`. -/
def splitOnce (s : String) : Option (String × String) :=
  (splitFirst ':' s.toList).map (Prod.map String.ofList String.ofList)

def digitOf (c : Char) : Option Nat := if c.isDigit then some (c.toNat - '0'.toNat) else none

def dropPlus : List Char → List Char
  | '+' :: digits => digits
  | digits => digits

/-- `u16::from_str`. -/
def u16FromStr (s : String) : Option UInt16 :=
  let digits := dropPlus s.toList
  if digits = [] then none else (readDigits digitOf 10 65535 0 digits).map UInt16.ofNat

/-! ## The resolver -/

/-- `hickory_resolver::net::NetError`, as far as `From<NetError>` looks at it. -/
structure NetError where
  isNxDomain : Bool
  isNoRecordsFound : Bool
  message : String

/-- `From<NetError> for ProxyError`. -/
def ProxyError.ofNetError (e : NetError) : ProxyError :=
  if e.isNxDomain || e.isNoRecordsFound then .dnsNxError e.message else .dnsTransientError e.message

inductive HickoryOp where
  /-- `lookup_ip` of the wrapped resolver. -/
  | lookupIp (host : String)

abbrev Hickory : Interface where
  Op := HickoryOp
  Ans
    | .lookupIp _ => Except NetError (List IpAddr)

/-- `lookup_host`; `parse` is `str::parse::<SocketAddr>`. -/
def lookupHost (parse : String → Option SocketAddr) (host : String) :
    Program Hickory (Except ProxyError (List SocketAddr)) :=
  match parse host with
  | some addr => return .ok [addr]
  | none =>
    match splitOnce host with
    | none => return .error (.badAddressError host "could not split into host and port")
    | some (hostname, portString) =>
      match u16FromStr portString with
      | none => return .error (.badAddressError host "could not parse port as u16")
      | some port => do
        match ← perform (I := Hickory) (.lookupIp hostname) with
        | .error e => return .error (.ofNetError e)
        | .ok addrs => return .ok (addrs.map fun addr => ⟨addr, port⟩)

/-! ## The grammar -/

/-- One or more decimal digits with the value `n`. -/
structure Decimal (digits : List Char) (n : Nat) : Prop where
  some_digit : digits ≠ []
  all_digits : ∀ c ∈ digits, c.isDigit = true
  value_eq : value 10 0 (digits.map fun c => c.toNat - '0'.toNat) = n

/-- What `u16::from_str` accepts: decimal digits with a value below 2^16, which may have
    a plus sign in front. -/
def PortText (text : List Char) (port : UInt16) : Prop :=
  ∃ sign digits, text = sign ++ digits ∧ (sign = [] ∨ sign = ['+']) ∧ Decimal digits port.toNat

/-- `s` is `host:port`, with no colon in the host. -/
def HostPort (s host : String) (port : UInt16) : Prop :=
  ∃ text, s.toList = host.toList ++ ':' :: text ∧ ':' ∉ host.toList ∧ PortText text port

theorem digits_of_all {digits : List Char} (all_digits : ∀ c ∈ digits, c.isDigit = true) :
    digits.map digitOf = (digits.map fun c => c.toNat - '0'.toNat).map some := by
  rw [List.map_map]
  apply List.map_congr_left
  intro c member
  simp [digitOf, all_digits c member]

theorem all_of_digits {digits : List Char} {values : List Nat}
    (read : digits.map digitOf = values.map some) : ∀ c ∈ digits, c.isDigit = true := by
  intro c member
  have present : digitOf c ∈ values.map some := read ▸ List.mem_map_of_mem member
  obtain ⟨d, -, same⟩ := List.mem_map.mp present
  by_contra no_digit
  simp [digitOf, no_digit] at same

theorem not_decimal_plus {digits : List Char} {n : Nat} : ¬ Decimal ('+' :: digits) n := by
  intro decimal
  have digit := decimal.all_digits '+' List.mem_cons_self
  cases digit

theorem portText_iff {text : List Char} {port : UInt16} :
    PortText text port ↔ Decimal (dropPlus text) port.toNat := by
  constructor
  · rintro ⟨sign, digits, rfl, unsigned | signed, decimal⟩
    -- Without a sign nothing is dropped: a plus sign is no digit.
    · subst unsigned
      rw [List.nil_append]
      unfold dropPlus
      split
      next => exact absurd decimal not_decimal_plus
      next => exact decimal
    · subst signed
      exact decimal
  · intro decimal
    unfold dropPlus at decimal
    split at decimal
    next digits => exact ⟨['+'], digits, rfl, .inr rfl, decimal⟩
    next => exact ⟨[], text, rfl, .inl rfl, decimal⟩

/-- `u16::from_str` accepts exactly its grammar. -/
theorem u16FromStr_iff {s : String} {port : UInt16} :
    u16FromStr s = some port ↔ PortText s.toList port := by
  rw [portText_iff, u16FromStr]
  generalize dropPlus s.toList = digits
  have reads := fun n => @readDigits_eq_some_iff Char 10 65535 digitOf (by decide) 0 n (by decide) digits
  have below := port.toNat_lt
  constructor
  · intro read
    split at read
    next => cases read
    next some_digit =>
      obtain ⟨n, read, same⟩ := Option.map_eq_some_iff.mp read
      obtain ⟨values, all, rfl, within⟩ := (reads n).mp read
      have all_digits := all_of_digits all
      rw [digits_of_all all_digits] at all
      have known := List.map_injective_iff.mpr (Option.some_injective Nat) all
      refine ⟨some_digit, all_digits, ?_⟩
      rw [known, ← same]
      exact (UInt16.toNat_ofNat_of_lt' (Nat.lt_succ_of_le within)).symm
  · intro decimal
    rw [if_neg decimal.some_digit,
      (reads port.toNat).mpr ⟨_, digits_of_all decimal.all_digits, decimal.value_eq.symm, by omega⟩]
    simp

/-! ## What is looked up -/

/-- What `lookup_host` makes of the answer to its lookup. -/
def looked (port : UInt16) : Except NetError (List IpAddr) → Except ProxyError (List SocketAddr)
  | .error e => .error (.ofNetError e)
  | .ok addrs => .ok (addrs.map fun addr => ⟨addr, port⟩)

/-- Why a target that is no `host:port` is refused. -/
def refusal (s : String) : ProxyError :=
  .badAddressError s
    (if ':' ∈ s.toList then "could not parse port as u16" else "could not split into host and port")

variable {parse : String → Option SocketAddr} {s : String}

theorem lookupHost_accepts (nonliteral : parse s = none) {host : String} {port : UInt16}
    (grammatical : HostPort s host port) :
    lookupHost parse s = .ask (.lookupIp host) fun answer => .ret (looked port answer) := by
  obtain ⟨text, split, absent, number⟩ := grammatical
  have parts : splitOnce s = some (host, String.ofList text) := by
    rw [splitOnce, split, splitFirst_append absent]
    simp
  have read : u16FromStr (String.ofList text) = some port := u16FromStr_iff.mpr (by simpa using number)
  simp only [lookupHost, nonliteral, parts, read]
  refine congrArg (Program.ask (I := Hickory) (.lookupIp host)) (funext fun answer => ?_)
  cases answer <;> rfl

theorem lookupHost_refuses (nonliteral : parse s = none)
    (ungrammatical : ∀ host port, ¬ HostPort s host port) :
    lookupHost parse s = .ret (.error (refusal s)) := by
  simp only [lookupHost, nonliteral]
  cases cut : splitFirst ':' s.toList with
  | none =>
    have absent := splitFirst_eq_none_iff.mp cut
    simp [splitOnce, cut, refusal, absent]
  | some parts =>
    obtain ⟨host, text⟩ := parts
    obtain ⟨split, absent⟩ := splitFirst_eq_some_iff.mp cut
    have unread : u16FromStr (String.ofList text) = none := by
      cases read : u16FromStr (String.ofList text) with
      | none => rfl
      | some port =>
        refine absurd ⟨text, ?_, ?_, ?_⟩ (ungrammatical (String.ofList host) port)
        · simpa using split
        · simpa using absent
        · simpa using u16FromStr_iff.mp read
    -- There is a colon, so the refusal is about the port.
    have present : ':' ∈ s.toList := by simp [split]
    simp [splitOnce, cut, unread, refusal, present]

/-! ## The balancer on the resolver -/

/-- `lookup_host` is carried out by the resolver, everything else is asked as before. -/
def onHickory {Stream : Type} (parse : String → Option SocketAddr) : (op : BalancerOp) →
    Program (Hickory.sum (Balancer Stream)) ((Balancer Stream).Ans op)
  | .lookupHost host =>
    interp (fun op => perform (I := Hickory.sum (Balancer Stream)) (.inl op)) (lookupHost parse host)
  | .fetchAdd port => perform (I := Hickory.sum (Balancer Stream)) (.inr (.fetchAdd port))
  | .getTargetStatus target =>
    perform (I := Hickory.sum (Balancer Stream)) (.inr (.getTargetStatus target))
  | .now => perform (I := Hickory.sum (Balancer Stream)) (.inr .now)
  | .connectAddr addr => perform (I := Hickory.sum (Balancer Stream)) (.inr (.connectAddr addr))
  | .reportConnectionAttempt target result =>
    perform (I := Hickory.sum (Balancer Stream)) (.inr (.reportConnectionAttempt target result))

/-- A target that is no literal address is looked up exactly if it is `host:port`: the host is
    what stands before the first colon and may be empty, the port may have a plus sign, and
    the addresses come in the order of the resolver, each with this port.  Any other target
    is a bad address, on which an attempt ends with no operation at all. -/
theorem targets_parsed_by_grammar {Stream : Type} (nonliteral : parse s = none) :
    (∀ tr a, Exec (lookupHost parse s) tr a ↔
      (∃ (host : String) (port : UInt16) (answer : Except NetError (List IpAddr)),
        HostPort s host port ∧ tr = [⟨.lookupIp host, answer⟩] ∧ a = looked port answer) ∨
      ((∀ host port, ¬ HostPort s host port) ∧ tr = [] ∧ a = .error (refusal s))) ∧
    ((∀ host port, ¬ HostPort s host port) → ∀ forPort tr (out : ConnectAttempt (Stream × SocketAddr)),
      Exec (interp (onHickory parse) (RoundRobin.connect s forPort)) tr out ↔
        tr = [] ∧ out = .fatal (refusal s)) := by
  constructor
  · intro tr a
    by_cases grammatical : ∃ host port, HostPort s host port
    · obtain ⟨host, port, grammatical⟩ := grammatical
      have accepted := lookupHost_accepts nonliteral grammatical
      constructor
      · intro run
        rw [accepted] at run
        obtain ⟨answer, rest, rfl, done⟩ := exec_ask.mp run
        obtain ⟨rfl, rfl⟩ := exec_ret.mp done
        exact .inl ⟨host, port, answer, grammatical, rfl, rfl⟩
      · rintro (⟨host', port', answer, grammatical', rfl, rfl⟩ | ⟨ungrammatical, -⟩)
        · rw [lookupHost_accepts nonliteral grammatical']
          exact .cons (.nil _)
        · exact absurd grammatical (ungrammatical host port)
    · have ungrammatical : ∀ host port, ¬ HostPort s host port :=
        fun host port parsed => grammatical ⟨host, port, parsed⟩
      rw [lookupHost_refuses nonliteral ungrammatical, exec_ret]
      constructor
      · rintro ⟨rfl, rfl⟩
        exact .inr ⟨ungrammatical, rfl, rfl⟩
      · rintro (⟨host, port, -, parsed, -⟩ | ⟨-, rfl, rfl⟩)
        · exact absurd parsed (ungrammatical host port)
        · exact ⟨rfl, rfl⟩
  · intro ungrammatical forPort tr out
    -- A bad address is not a transient error, so the attempt ends before any report.
    have attempt : interp (onHickory parse) (RoundRobin.connect s forPort) =
        (.ret (.fatal (refusal s)) : Program _ (ConnectAttempt (Stream × SocketAddr))) := by
      show (onHickory parse (.lookupHost s) >>= _ : Program _ _) = _
      rw [onHickory, lookupHost_refuses nonliteral ungrammatical]
      rfl
    rw [attempt, exec_ret]
    exact and_congr_right fun _ => eq_comm

/-- The stricter grammar: a host that is not empty, and a port without a sign. -/
def StrictHostPort (s host : String) (port : UInt16) : Prop :=
  host ≠ "" ∧ ':' ∉ host.toList ∧
    ∃ digits, s.toList = host.toList ++ ':' :: digits ∧ Decimal digits port.toNat

/-- A signed port and an empty host are looked up. -/
theorem loose_targets_looked_up :
    (Exec (lookupHost (fun _ => none) "db:+80") [⟨.lookupIp "db", .ok [.v4 127 0 0 1]⟩]
        (.ok [⟨.v4 127 0 0 1, 80⟩]) ∧ ∀ host port, ¬ StrictHostPort "db:+80" host port) ∧
      (Exec (lookupHost (fun _ => none) ":80") [⟨.lookupIp "", .ok [.v4 127 0 0 1]⟩]
        (.ok [⟨.v4 127 0 0 1, 80⟩]) ∧ ∀ host port, ¬ StrictHostPort ":80" host port) := by
  refine ⟨⟨.cons (.nil _), ?_⟩, ⟨.cons (.nil _), ?_⟩⟩
  · rintro host port ⟨-, absent, digits, split, decimal⟩
    have cut := splitFirst_eq_some_iff.mpr ⟨split, absent⟩
    have known : splitFirst ':' "db:+80".toList = some (['d', 'b'], ['+', '8', '0']) := by decide
    rw [known, Option.some.injEq, Prod.mk.injEq] at cut
    rw [← cut.2] at decimal
    exact not_decimal_plus decimal
  · rintro host port ⟨nonempty, absent, digits, split, -⟩
    have cut := splitFirst_eq_some_iff.mpr ⟨split, absent⟩
    have known : splitFirst ':' ":80".toList = some ([], ['8', '0']) := by decide
    rw [known, Option.some.injEq, Prod.mk.injEq] at cut
    exact nonempty (String.toList_eq_nil_iff.mp cut.1.symm)

/-- An address in brackets without a port is cut at its first colon, inside the brackets. -/
theorem bracketed_refused :
    Exec (interp (onHickory fun _ => none) (RoundRobin.connect "[::1]" 80))
      ([] : List (Hickory.sum (Balancer Unit)).Event)
      (.fatal (.badAddressError "[::1]" "could not parse port as u16")) := by
  have ungrammatical : ∀ host port, ¬ HostPort "[::1]" host port := by
    rintro host port ⟨text, split, absent, number⟩
    have cut := splitFirst_eq_some_iff.mpr ⟨split, absent⟩
    have known : splitFirst ':' "[::1]".toList = some (['['], [':', '1', ']']) := by decide
    rw [known, Option.some.injEq, Prod.mk.injEq] at cut
    rw [← cut.2, portText_iff] at number
    have digit := number.all_digits ':' (by simp [dropPlus])
    cases digit
  have targets := @targets_parsed_by_grammar (fun _ => none) "[::1]" Unit rfl
  exact (targets.2 ungrammatical 80 [] _).mpr ⟨rfl, rfl⟩

end TcpProxy
