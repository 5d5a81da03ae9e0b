import Mathlib.Algebra.GroupWithZero.Nat
import Mathlib.Data.List.Basic

/-!
# `Net.Ip`: addresses and prefixes

`IpAddr` and `IpNet` are the two families of addresses and prefixes that every route, rule
and journal record is made of. A prefix length cannot exceed its family's width: it is a
`Fin` of the right size, so a bad prefix cannot be built. The host bits may be set, as in
the crate the daemon uses; `IpNet.trunc` clears them.

`parseIpAddr` is the standard library's address parser. The daemon asks it whether a
bypass host is a literal address before it resolves it as a name.
-/

namespace NetOrchestrator.Net

inductive IpFamily where
  | ipv4
  | ipv6
  deriving DecidableEq

inductive IpAddr where
  | v4 (bits : BitVec 32)
  | v6 (bits : BitVec 128)
  deriving DecidableEq

/-- A family has one prefix length more than its addresses have bits. -/
instance ipv4Lengths : NeZero 33 := ⟨by decide⟩

instance ipv6Lengths : NeZero 129 := ⟨by decide⟩

inductive IpNet where
  | v4 (addr : BitVec 32) (prefixLen : Fin 33)
  | v6 (addr : BitVec 128) (prefixLen : Fin 129)
  deriving DecidableEq

namespace IpAddr

def family : IpAddr → IpFamily
  | .v4 _ => .ipv4
  | .v6 _ => .ipv6

def isIpv4 : IpAddr → Bool
  | .v4 _ => true
  | .v6 _ => false

/-- `0.0.0.0` and `::`. -/
def isUnspecified : IpAddr → Bool
  | .v4 a => a == 0
  | .v6 a => a == 0

/-- `224.0.0.0/4` and `ff00::/8`. -/
def isMulticast : IpAddr → Bool
  | .v4 a => a.toNat / 2 ^ 28 == 14
  | .v6 a => a.toNat / 2 ^ 120 == 255

/-- `127.0.0.0/8` and `::1`. -/
def isLoopback : IpAddr → Bool
  | .v4 a => a.toNat / 2 ^ 24 == 127
  | .v6 a => a == 1

/-- The host prefix of an address, `/32` or `/128`. -/
def toNet : IpAddr → IpNet
  | .v4 a => .v4 a 32
  | .v6 a => .v6 a 128

end IpAddr

namespace IpNet

/-- The bits that a prefix of length `len` fixes, in an address of width `w`. -/
def mask (w len : Nat) : BitVec w := BitVec.allOnes w <<< (w - len)

def family : IpNet → IpFamily
  | .v4 _ _ => .ipv4
  | .v6 _ _ => .ipv6

def addr : IpNet → IpAddr
  | .v4 a _ => .v4 a
  | .v6 a _ => .v6 a

def isIpv4 (n : IpNet) : Bool := n.addr.isIpv4

/-- `prefix_len`. -/
def len : IpNet → Nat
  | .v4 _ l => l
  | .v6 _ l => l

/-- The prefix with its host bits cleared. -/
def trunc : IpNet → IpNet
  | .v4 a l => .v4 (a &&& mask 32 l) l
  | .v6 a l => .v6 (a &&& mask 128 l) l

/-- `net.contains(&other)`: the same family, and every address of `other` in `net`. -/
def containsNet : IpNet → IpNet → Bool
  | .v4 a l, .v4 b m => l.val ≤ m.val && (b &&& mask 32 l) == (a &&& mask 32 l)
  | .v6 a l, .v6 b m => l.val ≤ m.val && (b &&& mask 128 l) == (a &&& mask 128 l)
  | _, _ => false

/-- `net.contains(&addr)`. -/
def containsAddr (n : IpNet) (ip : IpAddr) : Bool := n.containsNet ip.toNet

/-- A full-length prefix fixes every bit. -/
theorem mask_self (w : Nat) : mask w w = BitVec.allOnes w := by
  simp [mask]

variable (n : IpNet)

theorem trunc_trunc : n.trunc.trunc = n.trunc := by
  cases n with
  | v4 a l => simp only [trunc, BitVec.and_assoc, BitVec.and_self]
  | v6 a l => simp only [trunc, BitVec.and_assoc, BitVec.and_self]

@[simp]
theorem family_trunc : n.trunc.family = n.family := by
  cases n <;> rfl

theorem isIpv4_eq_false_iff : n.isIpv4 = false ↔ n.family = .ipv6 := by
  cases n <;> simp [isIpv4, addr, IpAddr.isIpv4, family]

end IpNet

/-- `IpNet::new`: a prefix that its family allows. -/
def newNet (ip : IpAddr) (len : Nat) : Option IpNet :=
  match ip with
  | .v4 a => if h : len < 33 then some (.v4 a ⟨len, h⟩) else none
  | .v6 a => if h : len < 129 then some (.v6 a ⟨len, h⟩) else none

@[simp]
theorem newNet_addr (net : IpNet) : newNet net.addr net.len = some net := by
  cases net with
  | v4 a len => exact dif_pos len.isLt
  | v6 a len => exact dif_pos len.isLt

theorem IpAddr.toNet_injective : Function.Injective IpAddr.toNet := by
  intro a b h
  cases a <;> cases b <;> simp_all [IpAddr.toNet]

/-- A host prefix has no host bits to clear. -/
theorem IpAddr.trunc_toNet (ip : IpAddr) : ip.toNet.trunc = ip.toNet := by
  cases ip with
  | v4 a =>
    show IpNet.v4 (a &&& IpNet.mask 32 32) 32 = IpNet.v4 a 32
    rw [IpNet.mask_self, BitVec.and_allOnes]
  | v6 a =>
    show IpNet.v6 (a &&& IpNet.mask 128 128) 128 = IpNet.v6 a 128
    rw [IpNet.mask_self, BitVec.and_allOnes]

/-! ### The standard address parser -/

/-- The value of a digit in the given radix, hexadecimal at most. -/
def digitValue (radix : Nat) (c : Char) : Option Nat :=
  let v :=
    if c.isDigit then c.toNat - '0'.toNat
    else if 'a' ≤ c ∧ c ≤ 'f' then c.toNat - 'a'.toNat + 10
    else if 'A' ≤ c ∧ c ≤ 'F' then c.toNat - 'A'.toNat + 10
    else radix
  if v < radix then some v else none

/-- The digits at the front of the input, at most `limit` of them. -/
def takeDigits (radix : Nat) : Nat → List Char → List Nat × List Char
  | 0, cs => ([], cs)
  | _ + 1, [] => ([], [])
  | limit + 1, c :: cs =>
    match digitValue radix c with
    | none => ([], c :: cs)
    | some v =>
      let (ds, rest) := takeDigits radix limit cs
      (v :: ds, rest)

/-- `read_number`: one to `limit` digits below `bound`. A further digit is an error, and so
is a leading zero where `zeroPrefix` is off. -/
def readNumber (radix limit bound : Nat) (zeroPrefix : Bool) (cs : List Char) :
    Option (Nat × List Char) :=
  let (ds, rest) := takeDigits radix (limit + 1) cs
  let value := ds.foldl (fun acc d => acc * radix + d) 0
  if ds = [] ∨ limit < ds.length ∨ bound ≤ value then none
  else if !zeroPrefix && ds.head? == some 0 && 1 < ds.length then none
  else some (value, rest)

def readChar (c : Char) : List Char → Option (List Char)
  | d :: cs => if c = d then some cs else none
  | [] => none

/-- `read_separator`: a separator in front of every item but the first. -/
def readSeparator {α : Type} (sep : Char) (index : Nat)
    (item : List Char → Option (α × List Char)) (cs : List Char) : Option (α × List Char) :=
  if index = 0 then item cs else (readChar sep cs).bind item

/-- Four decimal octets. -/
def readIpv4 (cs : List Char) : Option (Nat × List Char) := do
  let octet := readNumber 10 3 256 false
  let (a, cs) ← readSeparator '.' 0 octet cs
  let (b, cs) ← readSeparator '.' 1 octet cs
  let (c, cs) ← readSeparator '.' 2 octet cs
  let (d, cs) ← readSeparator '.' 3 octet cs
  some (((a * 256 + b) * 256 + c) * 256 + d, cs)

/-- The groups of one side of `::`, at most `limit` of them, with an embedded IPv4 address
as the last two. The flag says that the side ended in such an address. -/
def readGroups (total : Nat) : Nat → List Char → List Nat × Bool × List Char
  | 0, cs => ([], false, cs)
  | left + 1, cs =>
    let index := total - (left + 1)
    let embedded := if 0 < left then readSeparator ':' index readIpv4 cs else none
    match embedded with
    | some (v, rest) => ([v / 65536, v % 65536], true, rest)
    | none =>
      match readSeparator ':' index (readNumber 16 4 65536 true) cs with
      | none => ([], false, cs)
      | some (g, rest) =>
        let (gs, v4, rest) := readGroups total left rest
        (g :: gs, v4, rest)

/-- The eight groups of an IPv6 address, `::` filled with zeros. -/
def readIpv6 (cs : List Char) : Option (List Nat × List Char) :=
  let (head, v4, rest) := readGroups 8 8 cs
  if head.length = 8 then some (head, rest)
  else if v4 then none
  else do
    let rest ← readChar ':' rest
    let rest ← readChar ':' rest
    let limit := 8 - (head.length + 1)
    let (tail, _, rest) := readGroups limit limit rest
    some (head ++ List.replicate (8 - head.length - tail.length) 0 ++ tail, rest)

/-- `host.parse::<IpAddr>()`. -/
def parseIpAddr (host : String) : Option IpAddr :=
  let cs := host.toList
  match readIpv4 cs with
  | some (v, []) => some (.v4 (BitVec.ofNat 32 v))
  | _ =>
    match readIpv6 cs with
    | some (gs, []) => some (.v6 (BitVec.ofNat 128 (gs.foldl (fun acc g => acc * 65536 + g) 0)))
    | _ => none

end NetOrchestrator.Net
