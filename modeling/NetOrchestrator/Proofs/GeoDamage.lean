import NetOrchestrator.Proofs.GeoData

/-!
# `Proofs.GeoDamage`: what the readers make of a damaged database

The loops of the readers end at the last byte and at a field that is cut off or not legal alike,
and a database is returned either way. `Fields` is the text of complete fields, one behind the
other. A message is read to its end exactly if it is such a text (`consumed_iff`), and so a
database is exactly if it is one on every level.
-/

namespace NetOrchestrator.Core

open List Option

/-- The loop over the fields of a buffer ends behind its last byte. -/
inductive Consumed : List UInt8 → Prop where
  | done : Consumed []
  | step {buf rest : List UInt8} {field : Nat × PbField} (h : pbField buf = some (field, rest))
      (hrest : Consumed rest) : Consumed buf

/-- The value of a field of this wire type. -/
inductive ValueText : Nat → PbField → List UInt8 → Prop where
  | varint {v : Nat} {text : List UInt8} (h : pbVarint text = some (v, [])) :
      ValueText 0 (.varint v) text
  | fixed64 {data : List UInt8} (h : data.length = 8) : ValueText 1 (.varint 0) data
  | len {size data : List UInt8} (h : pbVarint size = some (data.length, [])) :
      ValueText 2 (.len data) (size ++ data)
  | fixed32 {data : List UInt8} (h : data.length = 4) : ValueText 5 (.varint 0) data

/-- A field: a tag that is a whole varint, with a number of 32 bits, and the whole value. -/
def FieldText (field : Nat × PbField) (text : List UInt8) : Prop :=
  ∃ tag head value, pbVarint head = some (tag, []) ∧ tag >>> 3 = field.1 ∧ field.1 < 2 ^ 32 ∧
    ValueText (tag &&& 7) field.2 value ∧ text = head ++ value

inductive Fields : List (Nat × PbField) → List UInt8 → Prop where
  | nil : Fields [] []
  | cons {field : Nat × PbField} {fields : List (Nat × PbField)} {text rest : List UInt8}
      (h : FieldText field text) (hrest : Fields fields rest) :
      Fields (field :: fields) (text ++ rest)

/-- The messages under a number. -/
def bodies (number : Nat) (fields : List (Nat × PbField)) : List (List UInt8) :=
  fields.filterMap fun
    | (n, .len body) => if n = number then some body else none
    | _ => none

/-- The message was read to its end, and so was every message that its reader opens: those under
the first of the numbers, and in them those under the rest. -/
def ReadToEnd : List Nat → List UInt8 → Prop
  | [], buf => Consumed buf
  | number :: inner, buf =>
    Consumed buf ∧ ∀ body ∈ bodies number (pbFields buf), ReadToEnd inner body

/-- The message is complete fields, and so is every message in it. -/
def Complete : List Nat → List UInt8 → Prop
  | [], buf => ∃ fields, Fields fields buf
  | number :: inner, buf =>
    ∃ fields, Fields fields buf ∧ ∀ body ∈ bodies number fields, Complete inner body

variable {buf rest text : List UInt8} {field : Nat × PbField} {fields : List (Nat × PbField)}
  {value shift v : Nat}

/-! ### One field -/

theorem pbVarintFrom_append (h : pbVarintFrom value shift text = some (v, [])) :
    pbVarintFrom value shift (text ++ rest) = some (v, rest) := by
  fun_induction pbVarintFrom value shift text with
  | case1 => cases h
  | case2 value shift byte tail next hlast =>
    obtain ⟨rfl, rfl⟩ := Prod.mk.inj (Option.some.inj h)
    exact if_pos hlast
  | case3 => cases h
  | case4 value shift byte tail next hmore hroom ih =>
    rw [cons_append, pbVarintFrom]
    simp only [if_neg hmore, if_neg hroom]
    exact ih h

theorem text_of_pbVarintFrom (h : pbVarintFrom value shift buf = some (v, rest)) :
    ∃ text, pbVarintFrom value shift text = some (v, []) ∧ buf = text ++ rest := by
  fun_induction pbVarintFrom value shift buf with
  | case1 => cases h
  | case2 value shift byte tail next hlast =>
    obtain ⟨rfl, rfl⟩ := Prod.mk.inj (Option.some.inj h)
    exact ⟨[byte], if_pos hlast, rfl⟩
  | case3 => cases h
  | case4 value shift byte tail next hmore hroom ih =>
    obtain ⟨text, htext, rfl⟩ := ih h
    refine ⟨byte :: text, ?_, rfl⟩
    rw [pbVarintFrom]
    simp only [if_neg hmore, if_neg hroom]
    exact htext

theorem pbVarint_append (h : pbVarint text = some (v, [])) :
    pbVarint (text ++ rest) = some (v, rest) :=
  pbVarintFrom_append h

theorem text_of_pbSkip {size : Nat} {data : List UInt8} (h : pbSkip size buf = some (data, rest)) :
    data.length = size ∧ buf = data ++ rest := by
  rw [pbSkip] at h
  split at h
  · cases h
  · cases h
    exact ⟨length_take_of_le (by omega), (take_append_drop size buf).symm⟩

/-- The stepper reads one field and leaves what is behind it. -/
theorem pbField_eq_some :
    pbField buf = some (field, rest) ↔ ∃ text, FieldText field text ∧ buf = text ++ rest := by
  constructor
  · intro h
    rw [pbField, bind_eq_bind, bind_eq_some_iff] at h
    obtain ⟨⟨tag, tail⟩, htag, h⟩ := h
    obtain ⟨head, hhead, rfl⟩ := text_of_pbVarintFrom htag
    dsimp only at h
    split at h
    · cases h
    rename_i hnumber
    -- what is left to show in each arm is the text of the value
    suffices hvalue : tag >>> 3 = field.1 ∧
        ∃ value, ValueText (tag &&& 7) field.2 value ∧ tail = value ++ rest by
      obtain ⟨hfield, value, hvalue, rfl⟩ := hvalue
      rw [hfield, Nat.not_le] at hnumber
      exact ⟨_, ⟨tag, head, value, hhead, hfield, hnumber, hvalue, rfl⟩, by simp⟩
    split at h <;> rename_i hwire
    · obtain ⟨⟨v, after⟩, hv, h⟩ := bind_eq_some_iff.mp h
      cases h
      obtain ⟨text, htext, rfl⟩ := text_of_pbVarintFrom hv
      exact ⟨rfl, _, hwire ▸ .varint htext, rfl⟩
    · obtain ⟨⟨data, after⟩, hskip, h⟩ := bind_eq_some_iff.mp h
      cases h
      obtain ⟨hlen, rfl⟩ := text_of_pbSkip hskip
      exact ⟨rfl, _, hwire ▸ .fixed64 hlen, rfl⟩
    · obtain ⟨⟨size, middle⟩, hsize, h⟩ := bind_eq_some_iff.mp h
      obtain ⟨⟨data, after⟩, hskip, h⟩ := bind_eq_some_iff.mp h
      cases h
      obtain ⟨text, htext, rfl⟩ := text_of_pbVarintFrom hsize
      obtain ⟨rfl, rfl⟩ := text_of_pbSkip hskip
      exact ⟨rfl, text ++ data, hwire ▸ .len htext, by simp⟩
    · obtain ⟨⟨data, after⟩, hskip, h⟩ := bind_eq_some_iff.mp h
      cases h
      obtain ⟨hlen, rfl⟩ := text_of_pbSkip hskip
      exact ⟨rfl, _, hwire ▸ .fixed32 hlen, rfl⟩
    · cases h
  · obtain ⟨number, payload⟩ := field
    rintro ⟨_, ⟨tag, head, value, hhead, rfl, hnumber, hvalue, rfl⟩, rfl⟩
    rw [pbField, append_assoc, pbVarint_append hhead]
    have hfits : tag >>> 3 < 4294967296 := hnumber
    generalize hwire : tag &&& 7 = wire at hvalue
    cases hvalue with
    | varint h => simp [hfits, hwire, pbVarint_append h]
    | fixed64 h => simp [hfits, hwire, pbSkip_append h]
    | len h => simp [hfits, hwire, pbVarint_append h, pbSkip_append]
    | fixed32 h => simp [hfits, hwire, pbSkip_append h]

/-! ### The loop -/

/-- A message is read to its end exactly if it is complete fields, which are then those read. -/
theorem consumed_iff : Consumed buf ∧ pbFields buf = fields ↔ Fields fields buf := by
  constructor
  · rintro ⟨h, rfl⟩
    induction h with
    | done =>
      rw [pbFields_nil]
      exact .nil
    | step hfield _ ih =>
      obtain ⟨text, htext, rfl⟩ := pbField_eq_some.mp hfield
      rw [pbFields_of_pbField hfield]
      exact .cons htext ih
  · intro h
    induction h with
    | nil => exact ⟨.done, pbFields_nil⟩
    | @cons field _ text rest htext _ ih =>
      have hfield : pbField (text ++ rest) = some (field, rest) :=
        pbField_eq_some.mpr ⟨text, htext, rfl⟩
      rw [pbFields_of_pbField hfield, ih.2]
      exact ⟨.step hfield ih.1, rfl⟩

/-- Level by level. -/
theorem readToEnd_iff (numbers : List Nat) : ReadToEnd numbers buf ↔ Complete numbers buf := by
  induction numbers generalizing buf with
  | nil => simp [ReadToEnd, Complete, ← consumed_iff]
  | cons number inner ih =>
    simp only [ReadToEnd, Complete, ← consumed_iff, ih]
    constructor
    · rintro ⟨hend, hinner⟩
      exact ⟨_, ⟨hend, rfl⟩, hinner⟩
    · rintro ⟨_, ⟨hend, rfl⟩, hinner⟩
      exact ⟨hend, hinner⟩

/-! ### The readers -/

/-- A loop that keeps what it makes of each message under a number. -/
theorem foldl_bodies {σ β : Type} {step : σ → Nat × PbField → σ} (part : σ → List β) (number : Nat)
    {parse : List UInt8 → β}
    (hlen : ∀ state body, part (step state (number, .len body)) = part state ++ [parse body])
    (hvarint : ∀ state v, part (step state (number, .varint v)) = part state)
    (hother : ∀ state field, field.1 ≠ number → part (step state field) = part state) (state : σ) :
    part (fields.foldl step state) = part state ++ (bodies number fields).map parse := by
  induction fields generalizing state with
  | nil => simp [bodies]
  | cons field fields ih =>
    obtain ⟨n, payload⟩ := field
    rw [foldl_cons, ih]
    by_cases hn : n = number
    · subst hn
      cases payload with
      | varint v => simp [bodies, hvarint]
      | len body => simp [bodies, hlen]
    · rw [hother state _ hn]
      cases payload <;> simp [bodies, hn]

variable (dat : List UInt8)

theorem siteEntries_eq :
    (GeoSiteDb.parse dat).entries = (bodies 1 (pbFields dat)).map parseSiteEntry := by
  apply foldl_bodies GeoSiteDb.entries 1 (fun _ _ => rfl) (fun _ _ => rfl)
  intro db field hother
  unfold siteStep
  split <;> simp_all

theorem ipEntries_eq :
    (GeoIpDb.parse dat).entries = (bodies 1 (pbFields dat)).map parseIpEntry := by
  apply foldl_bodies GeoIpDb.entries 1 (fun _ _ => rfl) (fun _ _ => rfl)
  intro db field hother
  unfold ipStep
  split <;> simp_all

/-- Every byte string gives a database, whose entries are the messages under 1 as far as the loop
came. It came to the end everywhere exactly if the file is complete: entries, their domains (2) and
the attributes of these (3), or entries and their networks (2). -/
theorem geo_readToEnd_iff (dat : List UInt8) :
    ((GeoSiteDb.parse dat).entries = (bodies 1 (pbFields dat)).map parseSiteEntry ∧
      (ReadToEnd [1, 2, 3] dat ↔ Complete [1, 2, 3] dat)) ∧
    ((GeoIpDb.parse dat).entries = (bodies 1 (pbFields dat)).map parseIpEntry ∧
      (ReadToEnd [1, 2] dat ↔ Complete [1, 2] dat)) :=
  ⟨⟨siteEntries_eq dat, readToEnd_iff _⟩, ⟨ipEntries_eq dat, readToEnd_iff _⟩⟩

/-- An empty entry, and the tag of a second one without its length. -/
def cutOff : List UInt8 := [0x0a, 0x00, 0x0a]

theorem cutOff_taken : (GeoSiteDb.parse cutOff).entries = [⟨"", []⟩] ∧
    (GeoIpDb.parse cutOff).entries = [("", [])] ∧ ¬Consumed cutOff := by
  have hfirst : pbField cutOff = some ((1, .len []), [0x0a]) := by decide
  have hstop : pbField [0x0a] = none := by decide
  have hfields : pbFields cutOff = [(1, .len [])] := by
    rw [pbFields_of_pbField hfirst, pbFields, hstop]
  have hempty : parseSiteEntry [] = ⟨"", []⟩ ∧ parseIpEntry [] = ("", []) := by
    rw [parseSiteEntry, parseIpEntry, pbFields_nil]
    exact ⟨rfl, rfl⟩
  rw [siteEntries_eq, ipEntries_eq, hfields]
  refine ⟨congrArg List.singleton hempty.1, congrArg List.singleton hempty.2, ?_⟩
  intro h
  cases h with
  | step h hrest =>
    cases h.symm.trans hfirst
    cases hrest with
    | step h _ => cases h.symm.trans hstop

/-- A file that is cut off is taken for a complete one by both readers. -/
theorem damaged_geo_taken :
    ¬((∀ dat, ReadToEnd [1, 2, 3] dat) ∨ ∀ dat, ReadToEnd [1, 2] dat) := by
  rintro (h | h)
  · exact cutOff_taken.2.2 (h cutOff).1
  · exact cutOff_taken.2.2 (h cutOff).1

end NetOrchestrator.Core
