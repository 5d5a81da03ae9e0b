import NetOrchestrator.Daemon.Text
import NetOrchestrator.Lib.Utf8

/-!
# `Core.DnsPackets`: names in DNS packets

`buildQuery` writes the labels of a host one after another. `readName` reads a name at any place of a
packet, and may jump from place to place.
-/

namespace NetOrchestrator.Core

open Daemon (isAsciiAlphanumeric splitChars trim)
open Lib List Option Nat

inductive DnsFamily where
  | a
  | aaaa

def DnsFamily.qtype : DnsFamily → UInt16
  | .a => 1
  | .aaaa => 28

/-- `u16::to_be_bytes`. -/
def beBytes (n : UInt16) : List UInt8 := [(n >>> 8).toUInt8, n.toUInt8]

def validLabel (label : List Char) : Bool :=
  !label.isEmpty && (utf8Bytes label).length ≤ 63 && label.head? != some '-' &&
    label.getLast? != some '-' && label.all fun c => isAsciiAlphanumeric c || c == '-' || c == '_'

/-- The loop of `build_query` over the labels, with the byte that ends the name. -/
def questionName : List (List Char) → Option (List UInt8)
  | [] => some [0]
  | label :: rest =>
    if validLabel label then
      (questionName rest).map fun name =>
        UInt8.ofNat (utf8Bytes label).length :: (utf8Bytes (label.map Char.toLower) ++ name)
    else none

/-- The host that `build_query` asks for: without blanks around it and without dots behind it. -/
def queryHost (host : String) : List Char := (trim host).toList.rdropWhile (· == '.')

def buildQuery (host : String) (family : DnsFamily) (id : UInt16) : Option (List UInt8) :=
  let host := queryHost host
  if host = [] ∨ 253 < (utf8Bytes host).length then none
  else (questionName (splitChars '.' host)).map fun name =>
    beBytes id ++ [1, 0, 0, 1, 0, 0, 0, 0, 0, 0] ++ name ++ (beBytes family.qtype ++ [0, 1])

/-- `String::from_utf8_lossy`, with the character begun so far: its value, how many bytes it lacks
and the range of the next of them. Whatever is no character becomes U+FFFD. -/
def lossy (code left low high : Nat) : List UInt8 → List Char
  | [] => if left = 0 then [] else ['\uFFFD']
  | b :: rest =>
    let n := b.toNat
    if left ≠ 0 ∧ low ≤ n ∧ n ≤ high then
      if left = 1 then Char.ofNat (code * 64 + n % 64) :: lossy 0 0 0 0 rest
      else lossy (code * 64 + n % 64) (left - 1) 0x80 0xbf rest
    else
      (if left = 0 then [] else ['\uFFFD']) ++
        if n < 0x80 then Char.ofNat n :: lossy 0 0 0 0 rest
        else if 0xc2 ≤ n ∧ n < 0xe0 then lossy (n - 0xc0) 1 0x80 0xbf rest
        else if 0xe0 ≤ n ∧ n < 0xf0 then
          lossy (n - 0xe0) 2 (if n = 0xe0 then 0xa0 else 0x80) (if n = 0xed then 0x9f else 0xbf) rest
        else if 0xf0 ≤ n ∧ n < 0xf5 then
          lossy (n - 0xf0) 3 (if n = 0xf0 then 0x90 else 0x80) (if n = 0xf4 then 0x8f else 0xbf) rest
        else '\uFFFD' :: lossy 0 0 0 0 rest

/-- What a name goes on with. -/
inductive NamePiece where
  | root
  | pointer (target : Nat)
  | label (bytes : List UInt8)

/-- How many bytes of the packet it takes. -/
def NamePiece.size : NamePiece → Nat
  | .root => 1
  | .pointer _ => 2
  | .label bytes => bytes.length + 1

def pieceOf : List UInt8 → Option NamePiece
  | [] => none
  | b :: rest =>
    let length := b.toNat
    if length = 0 then some .root
    else if length &&& 0xc0 = 0xc0 then
      rest.head?.map fun low => .pointer ((length &&& 0x3f) <<< 8 ||| low.toNat)
    else if 63 < length ∨ rest.length < length then none
    else some (.label (rest.take length))

def labelBytes (labels : List (List Char)) : Nat :=
  (labels.map fun label => (utf8Bytes label).length + 1).sum

def maxNameJumps : Nat := 16

/-- The loop of `read_name`. -/
def readNameFrom (packet : List UInt8) (labels : List (List Char)) (after : Option Nat)
    (jumps position : Nat) : Option (List Char × Nat) :=
  match pieceOf (packet.drop position) with
  | none => none
  | some .root => some (['.'].intercalate labels, after.getD (position + 1))
  | some (.pointer target) =>
    if maxNameJumps < jumps + 1 then none
    else readNameFrom packet labels (after.or (some (position + 2))) (jumps + 1) target
  | some (.label bytes) =>
    let labels' := labels ++ [lossy 0 0 0 0 bytes]
    if 255 < labelBytes labels' then none
    else readNameFrom packet labels' after jumps (position + 1 + bytes.length)
termination_by (maxNameJumps - jumps, 255 - labelBytes labels)
decreasing_by
  · exact .left _ _ (by omega)
  · exact .right _ (by simp [labels', labelBytes] at *; omega)

def readName (packet : List UInt8) (offset : Nat) : Option (List Char × Nat) :=
  readNameFrom packet [] none 0 offset

end NetOrchestrator.Core
