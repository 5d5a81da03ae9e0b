import Mathlib.Data.List.Basic

/-!
# `Lib.Utf8`: text as bytes

`utf8Bytes` is the encoding of a text. An ASCII character is one byte, its code, and no byte of
another character is below 128. So a parser that looks for ASCII bytes finds exactly the ASCII
characters of the text (`asciiByte_mem_utf8Bytes`).
-/

namespace NetOrchestrator.Lib

open List

/-- The UTF-8 encoding of a text. -/
def utf8Bytes (cs : List Char) : List UInt8 := cs.flatMap String.utf8EncodeChar

/-- The byte of an ASCII character. -/
def asciiByte (c : Char) : UInt8 := UInt8.ofNat c.toNat

section
variable {c d : Char} {b : UInt8} {cs ds : List Char}

@[simp]
theorem utf8Bytes_nil : utf8Bytes [] = [] := rfl

@[simp]
theorem utf8Bytes_append (cs ds : List Char) :
    utf8Bytes (cs ++ ds) = utf8Bytes cs ++ utf8Bytes ds := flatMap_append

theorem utf8Bytes_cons (c : Char) (cs : List Char) :
    utf8Bytes (c :: cs) = String.utf8EncodeChar c ++ utf8Bytes cs := flatMap_cons

theorem utf8EncodeChar_ascii (hc : c.toNat < 128) : String.utf8EncodeChar c = [asciiByte c] := by
  have hle : c.val.toNat ≤ 0x7f := Nat.le_of_lt_succ hc
  rw [String.utf8EncodeChar]
  exact if_pos hle

/-- The bytes of a character outside ASCII are outside ASCII. -/
theorem le_of_mem_utf8EncodeChar (hc : 128 ≤ c.toNat) (hb : b ∈ String.utf8EncodeChar c) :
    128 ≤ b.toNat := by
  have hgt : ¬c.val.toNat ≤ 0x7f := Nat.not_le.mpr hc
  rw [String.utf8EncodeChar] at hb
  simp only [if_neg hgt] at hb
  split at hb
  · simp only [mem_cons, not_mem_nil, or_false] at hb
    rcases hb with rfl | rfl <;> simp only [UInt8.toNat_ofNat'] <;> omega
  · split at hb
    · simp only [mem_cons, not_mem_nil, or_false] at hb
      rcases hb with rfl | rfl | rfl <;> simp only [UInt8.toNat_ofNat'] <;> omega
    · simp only [mem_cons, not_mem_nil, or_false] at hb
      rcases hb with rfl | rfl | rfl | rfl <;> simp only [UInt8.toNat_ofNat'] <;> omega

variable (hc : c.toNat < 128)
include hc

theorem utf8Bytes_cons_ascii (cs : List Char) :
    utf8Bytes (c :: cs) = asciiByte c :: utf8Bytes cs := by
  rw [utf8Bytes_cons, utf8EncodeChar_ascii hc]
  rfl

theorem asciiByte_toNat : (asciiByte c).toNat = c.toNat := by
  rw [asciiByte, UInt8.toNat_ofNat']
  omega

theorem asciiByte_inj (hd : d.toNat < 128) : asciiByte c = asciiByte d ↔ c = d := by
  constructor
  · intro h
    have hnat : c.toNat = d.toNat := by rw [← asciiByte_toNat hc, h, asciiByte_toNat hd]
    exact Char.toNat_inj.mp hnat
  · rintro rfl
    rfl

/-- A character has the byte of an ASCII character only where it is that character. -/
theorem asciiByte_mem_utf8EncodeChar : asciiByte c ∈ String.utf8EncodeChar d ↔ d = c := by
  rcases Nat.lt_or_ge d.toNat 128 with hd | hd
  · rw [utf8EncodeChar_ascii hd, mem_singleton, asciiByte_inj hc hd, eq_comm]
  · constructor
    · intro h
      have hle := le_of_mem_utf8EncodeChar hd h
      rw [asciiByte_toNat hc] at hle
      omega
    · rintro rfl
      omega

theorem asciiByte_mem_utf8Bytes : asciiByte c ∈ utf8Bytes cs ↔ c ∈ cs := by
  rw [utf8Bytes, mem_flatMap]
  simp only [asciiByte_mem_utf8EncodeChar hc, exists_eq_right]

theorem count_utf8Bytes (cs : List Char) : (utf8Bytes cs).count (asciiByte c) = cs.count c := by
  induction cs with
  | nil => rfl
  | cons d cs ih =>
    rw [utf8Bytes_cons, count_append, ih, count_cons]
    by_cases hd : d = c
    · subst hd
      rw [utf8EncodeChar_ascii hc]
      simp [Nat.add_comm]
    · have hnot := mt (asciiByte_mem_utf8EncodeChar hc).mp hd
      rw [count_eq_zero_of_not_mem hnot]
      simp [hd]

end

/-! ### Letters and digits -/

section
variable {c : Char}

theorem isUpper_iff : c.isUpper = true ↔ 65 ≤ c.toNat ∧ c.toNat ≤ 90 := decide_eq_true_iff

theorem isLower_iff : c.isLower = true ↔ 97 ≤ c.toNat ∧ c.toNat ≤ 122 := by
  show (decide _ && decide _) = true ↔ _
  rw [Bool.and_eq_true, decide_eq_true_iff, decide_eq_true_iff]
  rfl

theorem isDigit_iff : c.isDigit = true ↔ 48 ≤ c.toNat ∧ c.toNat ≤ 57 := by
  show (decide _ && decide _) = true ↔ _
  rw [Bool.and_eq_true, decide_eq_true_iff, decide_eq_true_iff]
  rfl

theorem isAlphanum_iff :
    c.isAlphanum = true ↔ c.isUpper = true ∨ c.isLower = true ∨ c.isDigit = true := by
  show ((c.isUpper || c.isLower) || c.isDigit) = true ↔ _
  rw [Bool.or_eq_true, Bool.or_eq_true, or_assoc]

theorem lt_of_isAlphanum (h : c.isAlphanum = true) : c.toNat < 128 := by
  rw [isAlphanum_iff, isUpper_iff, isLower_iff, isDigit_iff] at h
  omega

theorem toLower_of_isUpper (h : c.isUpper = true) : c.toLower.toNat = c.toNat + 32 := by
  have hle := (isUpper_iff.mp h).2
  have hval : c.toLower.val = c.val + 32 := congrArg Char.val (dif_pos (decide_eq_true_iff.mp h))
  show c.toLower.val.toNat = _
  rw [hval, UInt32.toNat_add]
  exact Nat.mod_eq_of_lt (Nat.lt_of_le_of_lt (Nat.add_le_add_right hle 32) (by decide))

theorem toLower_of_not_isUpper (h : ¬c.isUpper = true) : c.toLower = c :=
  dif_neg (mt decide_eq_true_iff.mpr h)

theorem not_isUpper_toLower (c : Char) : ¬c.toLower.isUpper = true := by
  by_cases h : c.isUpper = true
  · have hlower := toLower_of_isUpper h
    rw [isUpper_iff] at h ⊢
    omega
  · rwa [toLower_of_not_isUpper h]

end

/-! ### Searching -/

section
variable {α : Type} {x : α} {needle before after : List α}

/-- What is found in a text with a separator does not cross it. -/
theorem infix_append_cons (hx : x ∉ needle) :
    needle <:+: before ++ x :: after ↔ needle <:+: before ∨ needle <:+: after := by
  constructor
  · rintro ⟨front, back, heq⟩
    rcases append_eq_append_iff.mp heq with ⟨rest, hbefore, -⟩ | ⟨rest, hfront, hafter⟩
    · exact .inl ⟨front, rest, hbefore.symm⟩
    · cases rest with
      | nil => exact .inl ⟨front, [], by simpa using hfront⟩
      | cons y rest =>
        obtain ⟨rfl, rfl⟩ := List.cons.inj hafter
        -- The separator is in front of what is found, or inside it.
        rcases append_eq_append_iff.mp hfront with ⟨more, -, hmore⟩ | ⟨more, hmore, hrest⟩
        · exact absurd (by rw [hmore]; simp) hx
        · cases more with
          | nil =>
            have hneedle : needle = x :: rest := by simpa using hrest.symm
            exact absurd (by rw [hneedle]; simp) hx
          | cons z more =>
            obtain ⟨-, rfl⟩ := List.cons.inj hrest
            exact .inr ⟨more, back, rfl⟩
  · rintro (⟨front, back, rfl⟩ | ⟨front, back, rfl⟩)
    · exact ⟨front, back ++ x :: after, by simp⟩
    · exact ⟨before ++ x :: front, back, by simp⟩

end

end NetOrchestrator.Lib
