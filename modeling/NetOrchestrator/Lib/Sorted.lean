import Mathlib.Data.List.Basic

/-!
# `Lib.Sorted`: rows in the order of their numbers

A `Sorted δ` keeps one row of type `δ` for each number that has one, in ascending order, as a
directory listing sorted by number does. The order is a field. `get?` reads a row and `set`
writes one in its place.
-/

namespace NetOrchestrator.Lib

open List

structure Sorted (δ : Type) where
  rows : List (Nat × δ)
  sorted : rows.Pairwise fun a b => a.1 < b.1

namespace Sorted

variable {δ : Type}

def empty : Sorted δ := ⟨[], .nil⟩

def get? (m : Sorted δ) (n : Nat) : Option δ := (m.rows.find? fun row => row.1 == n).map Prod.snd

/-- Write a row in its place. -/
def place (n : Nat) (d : δ) : List (Nat × δ) → List (Nat × δ)
  | [] => [(n, d)]
  | row :: rest =>
    if n < row.1 then (n, d) :: row :: rest
    else if n = row.1 then (n, d) :: rest
    else row :: place n d rest

section
variable {n : Nat} {d : δ} {l : List (Nat × δ)} {row : Nat × δ}

theorem mem_place (n : Nat) (d : δ) (l : List (Nat × δ)) : (n, d) ∈ place n d l := by
  induction l with
  | nil => simp [place]
  | cons row rest ih =>
    unfold place
    split
    · simp
    · split
      · simp
      · exact mem_cons_of_mem _ ih

theorem of_mem_place (h : row ∈ place n d l) : row = (n, d) ∨ row ∈ l := by
  induction l with
  | nil => simpa [place] using h
  | cons first rest ih =>
    unfold place at h
    split at h
    · simpa using h
    · split at h
      · rcases mem_cons.mp h with h | h
        · exact .inl h
        · exact .inr (by simp [h])
      · rcases mem_cons.mp h with h | h
        · exact .inr (by simp [h])
        · exact (ih h).imp_right fun h => by simp [h]

theorem sorted_place (h : l.Pairwise fun a b => a.1 < b.1) :
    (place n d l).Pairwise fun a b => a.1 < b.1 := by
  induction l with
  | nil => simp [place]
  | cons first rest ih =>
    obtain ⟨hfirst, hrest⟩ := pairwise_cons.mp h
    unfold place
    split
    · rename_i hlt
      refine pairwise_cons.mpr ⟨fun row hrow => ?_, h⟩
      rcases mem_cons.mp hrow with rfl | hrow
      · exact hlt
      · exact Nat.lt_trans hlt (hfirst row hrow)
    · split
      · rename_i heq
        exact pairwise_cons.mpr ⟨fun row hrow => heq ▸ hfirst row hrow, hrest⟩
      · rename_i hlt hne
        refine pairwise_cons.mpr ⟨fun row hrow => ?_, ih hrest⟩
        rcases of_mem_place hrow with rfl | hrow
        · show first.1 < n
          omega
        · exact hfirst row hrow

end

def set (m : Sorted δ) (n : Nat) (d : δ) : Sorted δ := ⟨place n d m.rows, sorted_place m.sorted⟩

variable {m : Sorted δ} {n n' : Nat} {d : δ}

theorem get?_of_mem (h : (n, d) ∈ m.rows) : m.get? n = some d := by
  have hsorted := m.sorted
  unfold get?
  generalize m.rows = rows at h hsorted
  induction rows with
  | nil => cases h
  | cons row rest ih =>
    rw [pairwise_cons] at hsorted
    rcases mem_cons.mp h with rfl | h
    · simp
    · have hne : (row.1 == n) = false := by
        have hlt : row.1 < n := hsorted.1 _ h
        simp only [beq_eq_false_iff_ne]
        omega
      rw [find?_cons, hne]
      exact ih h hsorted.2

@[simp]
theorem get?_set : (m.set n d).get? n = some d := get?_of_mem (mem_place n d m.rows)

end Sorted

end NetOrchestrator.Lib
