import Mathlib.Data.List.Infix

/-!
# `Lib.Replace`: replacing the first occurrence of a text

`replaceFirst old new` is the standard library's `replacen` with the count one. It looks at all
places, also inside a word. What the lemmas say is where the first occurrence is.
-/

namespace NetOrchestrator.Lib

open List

variable {α : Type} {old new front rest s : List α} {sep : α}

/-- An occurrence without `sep` does not reach over it. -/
theorem prefix_of_separated (hsep : sep ∉ old) (h : old <+: front ++ sep :: rest) : old <+: front := by
  rcases prefix_or_prefix_of_prefix h (prefix_append front (sep :: rest)) with hp | hp
  · exact hp
  · obtain ⟨more, rfl⟩ := hp
    cases more with
    | nil => simp
    | cons a more =>
      obtain ⟨rfl, -⟩ := cons_prefix_cons.mp ((prefix_append_right_inj front).mp h)
      simp at hsep

variable [DecidableEq α]

/-- Put `new` for the first occurrence of `old`. -/
def replaceFirst (old new : List α) : List α → List α
  | [] => if old = [] then new else []
  | a :: s =>
    if old.isPrefixOf (a :: s) then new ++ (a :: s).drop old.length
    else a :: replaceFirst old new s

theorem replaceFirst_prefix (hold : old ≠ []) (rest : List α) :
    replaceFirst old new (old ++ rest) = new ++ rest := by
  cases old with
  | nil => exact absurd rfl hold
  | cons a old =>
    rw [cons_append, replaceFirst, if_pos (by simp [List.isPrefixOf_iff_prefix])]
    simp

/-- An occurrence in front is taken, whatever comes behind it. -/
theorem replaceFirst_append (hold : old ≠ []) (h : old <:+: s) (rest : List α) :
    replaceFirst old new (s ++ rest) = replaceFirst old new s ++ rest := by
  induction s with
  | nil => exact absurd (infix_nil.mp h) hold
  | cons a s ih =>
    rw [cons_append, replaceFirst, replaceFirst]
    by_cases hprefix : old <+: a :: s
    · have hlong : old <+: a :: (s ++ rest) := hprefix.trans (prefix_append (a :: s) rest)
      rw [if_pos (List.isPrefixOf_iff_prefix.mpr hprefix),
        if_pos (List.isPrefixOf_iff_prefix.mpr hlong), append_assoc, ← cons_append,
        drop_append_of_le_length hprefix.length_le]
    · have hlong : ¬old <+: a :: (s ++ rest) := fun hp =>
        hprefix (prefix_of_prefix_length_le hp (prefix_append (a :: s) rest) h.length_le)
      have hbehind : old <:+: s := (infix_cons_iff.mp h).resolve_left hprefix
      rw [if_neg (by simpa [List.isPrefixOf_iff_prefix] using hlong),
        if_neg (by simpa [List.isPrefixOf_iff_prefix] using hprefix), ih hbehind, cons_append]

/-- A replacement shows. -/
theorem replaceFirst_ne (hold : old ≠ []) (hne : new ≠ old) (h : old <:+: s) :
    replaceFirst old new s ≠ s := by
  induction s with
  | nil => exact absurd (infix_nil.mp h) hold
  | cons a s ih =>
    by_cases hprefix : old <+: a :: s
    · obtain ⟨rest, hrest⟩ := hprefix
      rw [← hrest, replaceFirst_prefix hold]
      exact fun heq => hne (append_cancel_right heq)
    · have hbehind : old <:+: s := (infix_cons_iff.mp h).resolve_left hprefix
      rw [replaceFirst, if_neg (by simpa [List.isPrefixOf_iff_prefix] using hprefix)]
      exact fun heq => ih hbehind (List.cons.inj heq).2

/-- What is there after a replacement was there before, or is new. -/
theorem mem_replaceFirst {a : α} (h : a ∈ replaceFirst old new s) : a ∈ new ∨ a ∈ s := by
  induction s with
  | nil =>
    rw [replaceFirst] at h
    split at h
    · exact .inl h
    · cases h
  | cons b s ih =>
    rw [replaceFirst] at h
    split at h
    · rcases mem_append.mp h with h | h
      · exact .inl h
      · exact .inr (mem_of_mem_drop h)
    · rcases mem_cons.mp h with rfl | h
      · exact .inr mem_cons_self
      · exact (ih h).imp_right (mem_cons_of_mem b)

/-- Where the part in front of `sep` has no occurrence, the one right behind it is the first. -/
theorem replaceFirst_separated (hold : old ≠ []) (hsep : sep ∉ old) (h : ¬old <:+: front)
    (rest : List α) :
    replaceFirst old new (front ++ sep :: (old ++ rest)) = front ++ sep :: (new ++ rest) := by
  have hmiss : ∀ {front : List α}, ¬old <:+: front → old.isPrefixOf (front ++ sep :: (old ++ rest)) =
      false := by
    intro front hfront
    rw [Bool.eq_false_iff, ne_eq, isPrefixOf_iff_prefix]
    exact fun hp => hfront (prefix_of_separated hsep hp).isInfix
  induction front with
  | nil =>
    have hhead := hmiss h
    rw [nil_append] at hhead ⊢
    rw [replaceFirst, hhead, if_neg Bool.false_ne_true, replaceFirst_prefix hold, nil_append]
  | cons a front ih =>
    have hhead := hmiss h
    rw [cons_append] at hhead ⊢
    rw [replaceFirst, hhead, if_neg Bool.false_ne_true, ih fun hp => h (infix_cons hp), cons_append]

end NetOrchestrator.Lib
