import Mathlib.Algebra.Group.Int.Defs
import Mathlib.Algebra.Group.Nat.Defs
import Mathlib.Data.List.Basic

/-!
# `Lib.Json`: JSON values that are read and rewritten in place

A `Json` is a parsed document. An object is a list of fields; `insertField` keeps the fields in
the order of their names, as a map sorted by name does, so that two objects built from the same
fields are the same value. Reading a field of anything but an object gives nothing.

The lemmas say what a field reads as after a write: `getField_insertField` is the only fact
about objects that clients need.
-/

namespace NetOrchestrator.Lib

open List

inductive JsonNumber where
  | int (n : Int)
  | float (bits : BitVec 64)
  deriving DecidableEq

inductive Json where
  | null
  | bool (b : Bool)
  | num (n : JsonNumber)
  | str (s : String)
  | arr (items : List Json)
  | obj (fields : List (String × Json))

/-! ### Fields -/

section
variable {α : Type}
variable {key name : String} {value : α} {fields : List (String × α)} {rest : List (String × α)}

def getField (key : String) : List (String × α) → Option α
  | [] => none
  | (name, value) :: rest => if key = name then some value else getField key rest

/-- Write a field in its place in the order of the names. -/
def insertField (key : String) (value : α) : List (String × α) → List (String × α)
  | [] => [(key, value)]
  | (name, old) :: rest =>
    if key = name then (key, value) :: rest
    else if key < name then (key, value) :: (name, old) :: rest
    else (name, old) :: insertField key value rest

theorem getField_insertField (key name : String) (value : α) (fields : List (String × α)) :
    getField name (insertField key value fields) =
      if name = key then some value else getField name fields := by
  induction fields with
  | nil => simp [insertField, getField]
  | cons first rest ih =>
    obtain ⟨other, old⟩ := first
    unfold insertField
    split
    · rename_i hkey
      subst hkey
      by_cases h : name = key <;> simp [getField, h]
    · split
      · simp [getField]
      · rename_i hne hlt
        rw [getField, ih, getField]
        by_cases h : name = key
        · subst h
          simp [hne]
        · simp [h]

@[simp]
theorem getField_insertField_self (key : String) (value : α) (fields : List (String × α)) :
    getField key (insertField key value fields) = some value := by
  rw [getField_insertField, if_pos rfl]

theorem getField_insertField_of_ne (h : name ≠ key) (value : α) (fields : List (String × α)) :
    getField name (insertField key value fields) = getField name fields := by
  rw [getField_insertField, if_neg h]

theorem mem_of_getField (h : getField key fields = some value) : (key, value) ∈ fields := by
  induction fields with
  | nil => cases h
  | cons first rest ih =>
    obtain ⟨name, old⟩ := first
    rw [getField] at h
    split at h
    · rename_i hkey
      cases h
      simp [hkey]
    · exact mem_cons_of_mem _ (ih h)

/-- In a map each entry is the one that its name reads as. -/
theorem getField_of_mem
    (hsorted : fields.Pairwise fun a b => a.1 < b.1) (h : (key, value) ∈ fields) :
    getField key fields = some value := by
  induction fields with
  | nil => cases h
  | cons first rest ih =>
    obtain ⟨name, old⟩ := first
    obtain ⟨hfirst, hrest⟩ := pairwise_cons.mp hsorted
    rw [getField]
    rcases mem_cons.mp h with heq | h
    · cases heq
      rw [if_pos rfl]
    · have hne : key ≠ name := fun heq => String.lt_irrefl name (heq ▸ hfirst _ h)
      rw [if_neg hne, ih hrest h]

theorem insertField_nil (key : String) (value : α) : insertField key value [] = [(key, value)] := rfl

theorem insertField_before {old : α} (h : key < name) :
    insertField key value ((name, old) :: rest) = (key, value) :: (name, old) :: rest := by
  have hne : key ≠ name := fun heq => String.lt_irrefl name (heq ▸ h)
  rw [insertField, if_neg hne, if_pos h]

theorem insertField_behind {old : α} (h : name < key) :
    insertField key value ((name, old) :: rest) = (name, old) :: insertField key value rest := by
  have hne : key ≠ name := fun heq => String.lt_irrefl name (heq ▸ h)
  rw [insertField, if_neg hne, if_neg (String.lt_asymm h)]

theorem name_lt_of_mem_insertField (hkey : name < key) (h : ∀ field ∈ fields, name < field.1) :
    ∀ field ∈ insertField key value fields, name < field.1 := by
  induction fields with
  | nil => exact forall_mem_singleton.mpr hkey
  | cons first rest ih =>
    obtain ⟨other, old⟩ := first
    obtain ⟨hother, hrest⟩ := forall_mem_cons.mp h
    unfold insertField
    split
    · exact forall_mem_cons.mpr ⟨hkey, hrest⟩
    · split
      · exact forall_mem_cons.mpr ⟨hkey, h⟩
      · exact forall_mem_cons.mpr ⟨hother, ih hrest⟩

/-- A map keeps the order of its names. -/
theorem pairwise_insertField (h : fields.Pairwise fun a b => a.1 < b.1) (key : String) (value : α) :
    (insertField key value fields).Pairwise fun a b => a.1 < b.1 := by
  induction fields with
  | nil => simp [insertField]
  | cons first rest ih =>
    obtain ⟨name, old⟩ := first
    obtain ⟨hfirst, hrest⟩ := pairwise_cons.mp h
    unfold insertField
    split
    · rename_i hkey
      subst hkey
      exact pairwise_cons.mpr ⟨hfirst, hrest⟩
    · split
      · rename_i hlt
        have hbehind : ∀ field ∈ (name, old) :: rest, key < field.1 :=
          forall_mem_cons.mpr ⟨hlt, fun field hmem => String.lt_trans hlt (hfirst field hmem)⟩
        exact pairwise_cons.mpr ⟨hbehind, h⟩
      · rename_i hne hnot
        have hlt : name < key := Std.lt_of_le_of_ne (String.not_lt.mp hnot) (Ne.symm hne)
        exact pairwise_cons.mpr ⟨name_lt_of_mem_insertField hlt hfirst, ih hrest⟩

/-- Take a field out. -/
def eraseField (key : String) (fields : List (String × α)) : List (String × α) :=
  fields.filter fun field => field.1 ≠ key

theorem getField_eraseField (key name : String) (fields : List (String × α)) :
    getField name (eraseField key fields) = if name = key then none else getField name fields := by
  induction fields with
  | nil => simp [eraseField, getField]
  | cons first rest ih =>
    obtain ⟨other, value⟩ := first
    have hstep : eraseField key ((other, value) :: rest) =
        if other = key then eraseField key rest else (other, value) :: eraseField key rest := by
      by_cases h : other = key <;> simp [eraseField, h]
    rw [hstep]
    by_cases hother : other = key
    · rw [if_pos hother, ih, getField]
      by_cases hname : name = key
      · simp [hname]
      · rw [if_neg hname, if_neg hname, if_neg (by rw [hother]; exact hname)]
    · rw [if_neg hother, getField, getField, ih]
      by_cases hname : name = other
      · subst hname
        simp [hother]
      · simp [hname]

end

namespace Json

mutual

def decEq : (a b : Json) → Decidable (a = b)
  | .null, .null => isTrue rfl
  | .bool a, .bool b => decidable_of_iff (a = b) (by simp)
  | .num a, .num b => decidable_of_iff (a = b) (by simp)
  | .str a, .str b => decidable_of_iff (a = b) (by simp)
  | .arr a, .arr b =>
    match decEqItems a b with
    | isTrue h => isTrue (by rw [h])
    | isFalse h => isFalse (by simpa using h)
  | .obj a, .obj b =>
    match decEqFields a b with
    | isTrue h => isTrue (by rw [h])
    | isFalse h => isFalse (by simpa using h)
  | .null, .bool _ | .null, .num _ | .null, .str _ | .null, .arr _ | .null, .obj _
  | .bool _, .null | .bool _, .num _ | .bool _, .str _ | .bool _, .arr _ | .bool _, .obj _
  | .num _, .null | .num _, .bool _ | .num _, .str _ | .num _, .arr _ | .num _, .obj _
  | .str _, .null | .str _, .bool _ | .str _, .num _ | .str _, .arr _ | .str _, .obj _
  | .arr _, .null | .arr _, .bool _ | .arr _, .num _ | .arr _, .str _ | .arr _, .obj _
  | .obj _, .null | .obj _, .bool _ | .obj _, .num _ | .obj _, .str _ | .obj _, .arr _ =>
    isFalse (by simp)

def decEqItems : (a b : List Json) → Decidable (a = b)
  | [], [] => isTrue rfl
  | [], _ :: _ | _ :: _, [] => isFalse (by simp)
  | a :: as, b :: bs =>
    match decEq a b, decEqItems as bs with
    | isTrue h, isTrue hs => isTrue (by rw [h, hs])
    | isFalse h, _ => isFalse fun heq => h (List.cons.inj heq).1
    | _, isFalse hs => isFalse fun heq => hs (List.cons.inj heq).2

def decEqFields : (a b : List (String × Json)) → Decidable (a = b)
  | [], [] => isTrue rfl
  | [], _ :: _ | _ :: _, [] => isFalse (by simp)
  | (k, a) :: as, (l, b) :: bs =>
    match decEq a b, decEqFields as bs with
    | isTrue h, isTrue hs => decidable_of_iff (k = l) (by simp [h, hs])
    | isFalse h, _ => isFalse fun heq => h (Prod.mk.inj (List.cons.inj heq).1).2
    | _, isFalse hs => isFalse fun heq => hs (List.cons.inj heq).2

end

instance : DecidableEq Json := decEq

/-! ### Reading -/

def asStr : Json → Option String
  | .str s => some s
  | _ => none

def asArray : Json → Option (List Json)
  | .arr items => some items
  | _ => none

def asBool : Json → Option Bool
  | .bool b => some b
  | _ => none

/-- `as_u64`. Larger numbers are read as floats. -/
def asU64 : Json → Option Nat
  | .num (.int n) => if 0 ≤ n ∧ n < 2 ^ 64 then some n.toNat else none
  | _ => none

/-- `as_i64`. -/
def asI64 : Json → Option Int
  | .num (.int n) => if -2 ^ 63 ≤ n ∧ n < 2 ^ 63 then some n else none
  | _ => none

def asObject : Json → Option (List (String × Json))
  | .obj fields => some fields
  | _ => none

/-- `value.get(key)`. -/
def get? (j : Json) (key : String) : Option Json := j.asObject.bind (getField key)

/-- `value[key]`, which is `null` where there is no such field. -/
def index (j : Json) (key : String) : Json := (j.get? key).getD .null

/-- The text of a field. -/
def text? (j : Json) (key : String) : Option String := (j.index key).asStr

/-! ### Writing -/

/-- `value[key] = v`: `null` turns into an object, and nothing else but an object can be
written to. -/
def put (j : Json) (key : String) (v : Json) : Option Json :=
  match j with
  | .null => some (.obj [(key, v)])
  | .obj fields => some (.obj (insertField key v fields))
  | _ => none

/-- An object from its fields. -/
def object (fields : List (String × Json)) : Json :=
  .obj (fields.foldl (fun built field => insertField field.1 field.2 built) [])

def nat (n : Nat) : Json := .num (.int n)

def texts (items : List String) : Json := .arr (items.map .str)

/-- The items of an array of texts. -/
def asTexts (j : Json) : Option (List String) := j.asArray.bind fun items => items.mapM asStr

section
variable {j : Json} {key name s : String} {v : Json} {fields : List (String × Json)}

@[simp]
theorem asStr_str : (Json.str s).asStr = some s := rfl

@[simp]
theorem asArray_arr (items : List Json) : (Json.arr items).asArray = some items := rfl

@[simp]
theorem asObject_obj : (Json.obj fields).asObject = some fields := rfl

theorem asStr_eq_some : j.asStr = some s ↔ j = .str s := by
  cases j <;> simp [asStr]

theorem asArray_eq_some {items : List Json} : j.asArray = some items ↔ j = .arr items := by
  cases j <;> simp [asArray]

theorem asObject_eq_some : j.asObject = some fields ↔ j = .obj fields := by
  cases j <;> simp [asObject]

@[simp]
theorem get?_obj : (Json.obj fields).get? key = getField key fields := rfl

@[simp]
theorem index_obj : (Json.obj fields).index key = (getField key fields).getD .null := rfl

@[simp]
theorem text?_obj : (Json.obj fields).text? key = (getField key fields).bind asStr := by
  rw [text?, index_obj]
  cases getField key fields <;> rfl

theorem text?_eq_bind : j.text? key = (j.get? key).bind asStr := by
  rw [text?, index]
  cases j.get? key <;> rfl

/-- A field that reads as something is there. -/
theorem get?_of_index (h : j.index key = v) (hv : v ≠ .null) : j.get? key = some v := by
  rw [index] at h
  cases hget : j.get? key with
  | none =>
    rw [hget] at h
    exact absurd h.symm hv
  | some value =>
    rw [hget] at h
    exact congrArg some h

/-- Only an object has a field with a text. -/
theorem exists_fields_of_text? (h : j.text? key = some s) : ∃ fields, j = .obj fields := by
  cases j with
  | obj fields => exact ⟨fields, rfl⟩
  | _ => cases h

/-- What the fields read as once one of them is written. -/
theorem index_put {j' : Json} (h : j.put key v = some j') (name : String) :
    j'.index name = if name = key then v else j.index name := by
  cases j with
  | null =>
    cases h
    by_cases hname : name = key <;> simp [getField, index, get?, asObject, hname]
  | obj fields =>
    cases h
    rw [index_obj, getField_insertField]
    by_cases hname : name = key <;> simp [hname]
  | _ => cases h

theorem index_put_of_ne {j' : Json} (h : j.put key v = some j') (hne : name ≠ key) :
    j'.index name = j.index name := by
  rw [index_put h, if_neg hne]

theorem asTexts_texts (items : List String) : (texts items).asTexts = some items := by
  show (items.map Json.str).mapM asStr = some items
  induction items with
  | nil => rfl
  | cons first rest ih =>
    rw [map_cons, mapM_cons, ih]
    rfl

end

end Json

end NetOrchestrator.Lib
