import Mathlib.Algebra.Group.Nat.Defs
import Mathlib.Data.List.Forall2

/-!
# `Lib.Wire`: the protobuf wire format

A message is a sequence of numbered fields. The number and the kind of a value are written as one
minimal varint, `8 * number + kind`, and the value behind it. `encode` is this text.

What a message says of one field is the list of the values under its number, `valuesOf`. So a
writer may put the fields in any order and other fields anywhere between them. `WritesText` and
`WritesNumber` are a field that is written once, or left out where it has its default value.
`WritesRepeated` is one that is written once for each item.
-/

namespace NetOrchestrator.Lib

/-! ### Varints -/

/-- Seven bits to a byte, the lowest ones first. All bytes but the last have the high bit set. -/
def varint (n : Nat) : List UInt8 :=
  if n < 128 then [UInt8.ofNat n] else UInt8.ofNat (n % 128 + 128) :: varint (n / 128)

variable {n : Nat} {fields : List WireField} {data : List UInt8}

theorem varint_of_lt (h : n < 128) : varint n = [UInt8.ofNat n] := by
  rw [varint, if_pos h]

theorem varint_of_le (h : 128 ≤ n) :
    varint n = UInt8.ofNat (n % 128 + 128) :: varint (n / 128) := by
  rw [varint, if_neg (by omega)]

/-! ### Fields -/

inductive WireValue where
  | varint (v : UInt64)
  | fixed64 (bytes : Vector UInt8 8)
  | len (data : List UInt8)
  | fixed32 (bytes : Vector UInt8 4)
  deriving DecidableEq

structure WireField where
  number : Fin (2 ^ 29)
  value : WireValue
  deriving DecidableEq

def WireValue.kind : WireValue → Nat
  | .varint _ => 0
  | .fixed64 _ => 1
  | .len _ => 2
  | .fixed32 _ => 5

def WireValue.bytes : WireValue → List UInt8
  | .varint v => NetOrchestrator.Lib.varint v.toNat
  | .fixed64 bytes => bytes.toList
  | .len data => NetOrchestrator.Lib.varint data.length ++ data
  | .fixed32 bytes => bytes.toList

def WireField.bytes (field : WireField) : List UInt8 :=
  varint (8 * field.number + field.value.kind) ++ field.value.bytes

def encode (fields : List WireField) : List UInt8 := fields.flatMap WireField.bytes

@[simp]
theorem encode_nil : encode [] = [] := rfl

@[simp]
theorem encode_cons (field : WireField) (fields : List WireField) :
    encode (field :: fields) = field.bytes ++ encode fields := rfl

theorem length_le_of_mem {field : WireField}
    (hmem : field ∈ fields) (hvalue : field.value = .len data) :
    data.length ≤ (encode fields).length := by
  induction fields with
  | nil => cases hmem
  | cons first rest ih =>
    rw [encode_cons, List.length_append]
    rcases List.mem_cons.mp hmem with rfl | hrest
    · rw [WireField.bytes, hvalue, WireValue.bytes]
      simp only [List.length_append]
      omega
    · have hle := ih hrest
      omega

/-! ### What a message says -/

/-- The values under a number, in order. -/
def valuesOf (number : Nat) (fields : List WireField) : List WireValue :=
  (fields.filter fun field => field.number = number).map WireField.value

theorem length_le_of_mem_valuesOf {number : Nat}
    (h : .len data ∈ valuesOf number fields) : data.length ≤ (encode fields).length := by
  obtain ⟨field, hfield, hvalue⟩ := List.mem_map.mp h
  exact length_le_of_mem (List.mem_of_mem_filter hfield) hvalue

/-- The UTF-8 bytes of a text. -/
def textBytes (s : String) : List UInt8 := s.toUTF8.data.toList

def WritesText (number : Nat) (s : String) (fields : List WireField) : Prop :=
  valuesOf number fields = [.len (textBytes s)] ∨ s = "" ∧ valuesOf number fields = []

def WritesNumber (number : Nat) (v : UInt64) (fields : List WireField) : Prop :=
  valuesOf number fields = [.varint v] ∨ v = 0 ∧ valuesOf number fields = []

/-- The value is a message that says `a`. -/
def WritesMessage {α : Type} (writes : α → List WireField → Prop) (a : α) (value : WireValue) :
    Prop :=
  ∃ fields, value = .len (encode fields) ∧ writes a fields

def WritesRepeated {α : Type} (number : Nat) (writes : α → List WireField → Prop) (items : List α)
    (fields : List WireField) : Prop :=
  List.Forall₂ (WritesMessage writes) items (valuesOf number fields)

end NetOrchestrator.Lib
