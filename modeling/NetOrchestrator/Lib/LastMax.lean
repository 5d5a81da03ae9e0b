import Mathlib.Data.List.Basic

/-!
# `Lib.LastMax`: the last of the largest elements

`lastMax key l` is an element of `l` with the largest key, and of several such elements the
last one: what an iterator's `max_by_key` returns. `lastMax_eq_some` characterises it by the
elements in front of it and behind it.
-/

namespace NetOrchestrator.Lib

open List

variable {α : Type} {key : α → Nat}

/-- The last element whose key is at least the key of every other element. -/
def lastMax (key : α → Nat) : List α → Option α
  | [] => none
  | a :: rest =>
    match lastMax key rest with
    | none => some a
    | some b => if key a ≤ key b then some b else some a

theorem lastMax_eq_none {l : List α} : lastMax key l = none ↔ l = [] := by
  cases l with
  | nil => simp [lastMax]
  | cons a rest =>
    simp only [lastMax, reduceCtorEq, iff_false]
    cases lastMax key rest with
    | none => simp
    | some b => by_cases h : key a ≤ key b <;> simp [h]

/-- Nothing in front of the chosen element has a larger key, and everything behind it has a
smaller one. -/
theorem lastMax_eq_some {l : List α} {b : α} : lastMax key l = some b ↔
      ∃ before after, l = before ++ b :: after ∧ (∀ a ∈ before, key a ≤ key b) ∧
        ∀ a ∈ after, key a < key b := by
  induction l generalizing b with
  | nil => simp [lastMax]
  | cons a rest ih =>
    simp only [lastMax]
    cases hrest : lastMax key rest with
    | none =>
      obtain rfl := lastMax_eq_none.mp hrest
      constructor
      · intro h
        cases h
        exact ⟨[], [], rfl, by simp, by simp⟩
      · rintro ⟨before, after, hsplit, -, -⟩
        cases before with
        | nil => simp_all
        | cons x before => simp at hsplit
    | some c =>
      obtain ⟨front, back, rfl, hfront, hback⟩ := ih.mp hrest
      dsimp only
      by_cases hle : key a ≤ key c
      · rw [if_pos hle]
        constructor
        · intro h
          cases h
          refine ⟨a :: front, back, rfl, fun x hx => ?_, hback⟩
          rcases mem_cons.mp hx with rfl | hx
          · exact hle
          · exact hfront x hx
        · rintro ⟨before, after, hsplit, hbefore, hafter⟩
          cases before with
          | nil =>
            -- `a` itself would have to beat `c`, which stands behind it.
            simp only [nil_append, List.cons.injEq] at hsplit
            obtain ⟨rfl, rfl⟩ := hsplit
            have := hafter c (by simp)
            omega
          | cons x before =>
            simp only [cons_append, List.cons.injEq] at hsplit
            obtain ⟨rfl, hsplit⟩ := hsplit
            rw [← hrest, ih]
            exact ⟨before, after, hsplit, fun y hy => hbefore y (by simp [hy]), hafter⟩
      · rw [if_neg hle]
        constructor
        · intro h
          cases h
          refine ⟨[], front ++ c :: back, rfl, by simp, fun x hx => ?_⟩
          rcases mem_append.mp hx with hx | hx
          · have := hfront x hx
            omega
          · rcases mem_cons.mp hx with rfl | hx
            · omega
            · have := hback x hx
              omega
        · rintro ⟨before, after, hsplit, hbefore, hafter⟩
          cases before with
          | nil =>
            simp only [nil_append, List.cons.injEq] at hsplit
            rw [hsplit.1]
          | cons x before =>
            simp only [cons_append, List.cons.injEq] at hsplit
            obtain ⟨rfl, hsplit⟩ := hsplit
            have hb : lastMax key (front ++ c :: back) = some b :=
              ih.mpr ⟨before, after, hsplit, fun y hy => hbefore y (by simp [hy]), hafter⟩
            obtain rfl := Option.some.inj (hrest.symm.trans hb)
            exact absurd (hbefore a (by simp)) hle

end NetOrchestrator.Lib
