import Mathlib.Data.Nat.Digits.Defs

/-! # Errors and socket addresses

`ProxyError` with the data each variant carries, and the `std::net` addresses it is
built from.  The only rendering the code depends on is `SocketAddr`'s `Display`,
which `maybe_into_bind_error` stores in a `BindError`. -/

namespace TcpProxy

/-! ## Addresses -/

/-- `std::net::IpAddr`: four octets, or eight 16-bit segments. -/
inductive IpAddr where
  | v4 (a b c d : UInt8)
  | v6 (s₀ s₁ s₂ s₃ s₄ s₅ s₆ s₇ : UInt16)
  deriving DecidableEq, Repr

/-- `std::net::SocketAddr`, as `SocketAddr::new` builds it. -/
structure SocketAddr where
  ip : IpAddr
  port : UInt16
  deriving DecidableEq, Repr

/-- Lower-case hexadecimal without leading zeros, as `{:x}` prints it. -/
def hex (n : UInt16) : String := String.ofList (Nat.toDigits 16 n.toNat)

/-- A run of consecutive zero segments. -/
structure Span where
  start : Nat
  len : Nat

/-- The first longest run of zeros: `current` ends at segment `i`. -/
def longestZeros : List UInt16 → Nat → Span → Span → Span
  | [], _, _, longest => longest
  | s :: rest, i, current, longest =>
    if s = 0 then
      let current : Span :=
        ⟨if current.len = 0 then i else current.start, current.len + 1⟩
      longestZeros rest (i + 1) current (if current.len > longest.len then current else longest)
    else longestZeros rest (i + 1) ⟨0, 0⟩ longest

/-- `Display` of an `Ipv4Addr`. -/
def showV4 (a b c d : UInt8) : String := s!"{a}.{b}.{c}.{d}"

/-- `Display` of an `Ipv6Addr`: IPv4-mapped addresses in dotted form, otherwise the
    first longest run of at least two zero segments is written `::`. -/
def showV6 (segments : List UInt16) : String :=
  match segments with
  | [0, 0, 0, 0, 0, 0xffff, ab, cd] =>
    "::ffff:" ++ showV4 (ab >>> 8).toUInt8 ab.toUInt8 (cd >>> 8).toUInt8 cd.toUInt8
  | _ =>
    let zeroes := longestZeros segments 0 ⟨0, 0⟩ ⟨0, 0⟩
    let join := fun part : List UInt16 => ":".intercalate (part.map hex)
    if zeroes.len > 1 then
      join (segments.take zeroes.start) ++ "::" ++ join (segments.drop (zeroes.start + zeroes.len))
    else join segments

/-- `SocketAddr::to_string`. -/
def SocketAddr.toString (addr : SocketAddr) : String :=
  match addr.ip with
  | .v4 a b c d => showV4 a b c d ++ s!":{addr.port}"
  | .v6 s₀ s₁ s₂ s₃ s₄ s₅ s₆ s₇ =>
    "[" ++ showV6 [s₀, s₁, s₂, s₃, s₄, s₅, s₆, s₇] ++ s!"]:{addr.port}"

example : (SocketAddr.mk (.v6 0x2001 0xdb8 0 0 0 0 0 1) 8080).toString = "[2001:db8::1]:8080" := by
  decide +kernel

/-! ## Errors -/

/-- `std::io::ErrorKind`: the kinds `accept_connection` tells apart, and the rest by name. -/
inductive ErrorKind where
  | connectionRefused
  | connectionReset
  | connectionAborted
  | other (name : String)
  deriving DecidableEq, Repr

/-- `std::io::Error`: its kind and its message. -/
structure IoError where
  kind : ErrorKind
  message : String
  deriving DecidableEq, Repr

inductive ProxyError where
  | backendNotFound (name : String)
  | configIngestError (message : String)
  | badAddressError (addr message : String)
  | bindError (addr : String) (source : IoError)
  | targetResolutionError (port : UInt16) (message : String)
  | connectionError (port : UInt16) (message : String)
  | proxyStateError (message : String)
  | ioError (error : IoError)
  | jsonError (message : String)
  | taskCancellation (message : String)
  | queueAcquireError
  | dnsTransientError (message : String)
  | dnsNxError (message : String)
  deriving DecidableEq, Repr

/-- Reclassify an `IoError` as a bind failure, attaching the address. Other variants
    pass through. -/
def ProxyError.maybeIntoBindError (e : ProxyError) (addr : SocketAddr) : ProxyError :=
  match e with
  | .ioError source => .bindError addr.toString source
  | other => other

end TcpProxy
