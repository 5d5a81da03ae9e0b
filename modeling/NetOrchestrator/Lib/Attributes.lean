import Mathlib.Data.List.Basic

/-!
# `Lib.Attributes`: messages as lists of optional attributes

A message has at most one attribute of each kind, in any order. A writer puts down those values
that are there (`present`), and a reader takes the first attribute that its selector accepts
(`List.findSome?`). `findSome?_present` says what a selector finds of one value, and
`List.findSome?_append` puts the values of a message together.
-/

namespace NetOrchestrator.Lib.Attributes

variable {α β γ : Type}

/-- The attribute of a value that may be missing. -/
def present (tag : β → α) (value : Option β) : List α := (value.map tag).toList

variable (tag : β → α)

@[simp]
theorem present_some (b : β) : present tag (some b) = [tag b] := rfl

@[simp]
theorem present_none : present tag none = [] := rfl

/-- A selector sees the value through the tag of its kind. -/
theorem findSome?_present (select : α → Option γ) (tag : β → α) (value : Option β) :
    (present tag value).findSome? select = value.bind fun b => select (tag b) := by
  cases value with
  | none => rfl
  | some b => cases h : select (tag b) <;> simp [h]

/-- The selector of the kind reads the value back. -/
theorem findSome?_present_self {select : α → Option β} {tag : β → α}
    (h : ∀ b, select (tag b) = some b) (value : Option β) :
    (present tag value).findSome? select = value := by
  rw [findSome?_present]
  simp [h]

end NetOrchestrator.Lib.Attributes
