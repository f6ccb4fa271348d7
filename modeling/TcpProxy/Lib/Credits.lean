import TcpProxy.Lib.Program

/-! # What a program can spend

Each operation has a price and each answer may bring a credit.  `Affords b p`: a budget of
`b` pays for every execution of `p`, with the credits that come in on the way; the price of
a trace is then bounded by the budget and the credits of its answers. -/

namespace Effects.Program

variable {I J : Interface} {α β : Type} {price : I.Op → Nat} {credit : I.Event → Nat}

def Affords (price : I.Op → Nat) (credit : I.Event → Nat) : Nat → Program I α → Prop
  | _, .ret _ => True
  | b, .ask op next => price op ≤ b ∧ ∀ a, Affords price credit (b - price op + credit ⟨op, a⟩) (next a)

/-- The price of the operations of a trace. -/
def spent (price : I.Op → Nat) : List I.Event → Nat
  | [] => 0
  | e :: tr => price e.op + spent price tr

/-- The credits of its answers. -/
def earned (credit : I.Event → Nat) : List I.Event → Nat
  | [] => 0
  | e :: tr => credit e + earned credit tr

/-- One for each operation of a kind. -/
theorem spent_toNat (kind : I.Op → Bool) (tr : List I.Event) :
    spent (fun op => (kind op).toNat) tr = tr.countP fun e => kind e.op := by
  induction tr with
  | nil => rfl
  | cons e tr ih =>
    rw [List.countP_cons, ← ih, spent, Nat.add_comm]
    cases kind e.op <;> rfl

theorem earned_mul (m : Nat) (credit : I.Event → Nat) (tr : List I.Event) :
    earned (fun e => m * credit e) tr = m * earned credit tr := by
  induction tr with
  | nil => rfl
  | cons e tr ih => rw [earned, earned, ih, Nat.mul_add]

theorem Affords.mono {p : Program I α} {b b' : Nat} (h : Affords price credit b p) (more : b ≤ b') :
    Affords price credit b' p := by
  induction p generalizing b b' with
  | ret a => trivial
  | ask op next ih => exact ⟨Nat.le_trans h.1 more, fun a => ih a (h.2 a) (by omega)⟩

/-- An operation is paid for, and what is left with its credit pays for the rest. -/
theorem affords_ask (op : I.Op) {next : I.Ans op → Program I α} {b : Nat}
    (rest : ∀ a, Affords price credit (b + credit ⟨op, a⟩) (next a)) :
    Affords price credit (price op + b) (.ask op next) :=
  ⟨Nat.le_add_right .., fun a => by rw [Nat.add_sub_cancel_left]; exact rest a⟩

theorem affords_bind {p : Program I α} {f : α → Program I β} {b c : Nat}
    (hp : Affords price credit b p) (hf : ∀ a, Affords price credit c (f a)) :
    Affords price credit (b + c) (p >>= f) := by
  induction p generalizing b with
  | ret a => exact (hf a).mono (Nat.le_add_left ..)
  | ask op next ih =>
    refine ⟨Nat.le_trans hp.1 (Nat.le_add_right ..), fun a => (ih a (hp.2 a)).mono ?_⟩
    have paid := hp.1
    omega

/-- Operations without credits are carried out within their prices. -/
theorem affords_interp {price' : J.Op → Nat} {credit' : J.Event → Nat}
    {carry : (op : I.Op) → Program J (I.Ans op)} {p : Program I α} {b : Nat}
    (hp : Affords price (fun _ => 0) b p) (hop : ∀ op, Affords price' credit' (price op) (carry op)) :
    Affords price' credit' b (interp carry p) := by
  induction p generalizing b with
  | ret a => trivial
  | ask op next ih =>
    refine (affords_bind (hop op) fun a => ih a (hp.2 a)).mono ?_
    have paid := hp.1
    omega

theorem Affords.steps {p q : Program I α} {tr : List I.Event} (run : Steps p tr q) {b : Nat}
    (h : Affords price credit b p) : spent price tr ≤ b + earned credit tr := by
  induction run generalizing b with
  | nil => exact Nat.zero_le _
  | @cons op next a tr q rest ih =>
    have later := ih (h.2 a)
    have paid := h.1
    simp only [spent, earned] at later ⊢
    omega

end Effects.Program
