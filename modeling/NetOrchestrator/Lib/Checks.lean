import Mathlib.Data.List.Forall2

/-!
# `Lib.Checks`: pure checks that stop at the first error

Inversion of checks written in `Except`: what a sequence of checks that went through says
about each of them.
-/

namespace NetOrchestrator.Lib.Checks

open List

variable {ε ε' α β : Type}
variable {x : Except ε α} {f : α → Except ε β} {a : α} {l : List α} {b b' : β} {l' : List β}

/-- Two checks in a row went through when both did. -/
theorem bind_eq_ok {b : β} : x >>= f = .ok b ↔ ∃ a, x = .ok a ∧ f a = .ok b := by
  cases x with
  | error e =>
    constructor
    · intro h
      cases h
    · rintro ⟨a, h, -⟩
      cases h
  | ok a =>
    constructor
    · intro h
      exact ⟨a, rfl, h⟩
    · rintro ⟨a', h, hf⟩
      cases h
      exact hf

/-- A check in front of the rest went through. -/
theorem passed {c : Prop} [Decidable c] {e : ε}
    (h : (if c then .error e else x) = .ok a) : ¬c ∧ x = .ok a := by
  split at h
  · cases h
  · rename_i hc
    exact ⟨hc, h⟩

theorem map_eq_ok {f : α → β} {b : β} : x.map f = .ok b ↔ ∃ a, x = .ok a ∧ f a = b := by
  cases x with
  | error e => simp [Except.map]
  | ok a => simp [Except.map]

theorem mapError_eq_ok {f : ε → ε'} : x.mapError f = .ok a ↔ x = .ok a := by
  cases x with
  | error e => simp [Except.mapError]
  | ok b => simp [Except.mapError]

theorem toOption_eq_some : x.toOption = some a ↔ x = .ok a := by
  cases x <;> simp [Except.toOption]

/-- A fold of checks that went through passed the check of each element. -/
theorem forall_of_foldlM {f : β → α → Except ε β} {P : α → Prop}
    (hf : ∀ b a b', f b a = .ok b' → P a) (h : l.foldlM f b = .ok b') : ∀ a ∈ l, P a := by
  induction l generalizing b with
  | nil => simp
  | cons a rest ih =>
    rw [foldlM_cons, bind_eq_ok] at h
    obtain ⟨b₁, hfirst, hrest⟩ := h
    intro x hx
    rcases mem_cons.mp hx with heq | hx
    · rw [heq]
      exact hf b a b₁ hfirst
    · exact ih hrest x hx

/-- A fold of checks that leaves something as it is in each step leaves it so at the end. -/
theorem foldlM_keeps {γ : Type} {f : β → α → Except ε β} {g : β → γ}
    (hf : ∀ b a b', f b a = .ok b' → g b' = g b) (h : l.foldlM f b = .ok b') : g b' = g b := by
  induction l generalizing b with
  | nil =>
    cases h
    rfl
  | cons a rest ih =>
    rw [foldlM_cons, bind_eq_ok] at h
    obtain ⟨b₁, hfirst, hrest⟩ := h
    rw [ih hrest, hf b a b₁ hfirst]

/-- What a list of checks returns, element by element. -/
theorem mapM_eq_ok : l.mapM f = .ok l' ↔ List.Forall₂ (fun a b => f a = .ok b) l l' := by
  induction l generalizing l' with
  | nil => simp [pure, Except.pure, eq_comm]
  | cons a rest ih =>
    rw [mapM_cons, bind_eq_ok]
    simp only [bind_eq_ok]
    constructor
    · rintro ⟨b, hfirst, rest', hrest, heq⟩
      cases heq
      exact .cons hfirst (ih.mp hrest)
    · intro h
      cases h with
      | cons hfirst hrest => exact ⟨_, hfirst, _, ih.mpr hrest, rfl⟩

theorem mapM_eq_map {g : α → β} (hf : ∀ a b, f a = .ok b → b = g a) (h : l.mapM f = .ok l') :
    l' = l.map g := by
  have hall := mapM_eq_ok.mp h
  clear h
  induction hall with
  | nil => rfl
  | cons h _ ih => rw [map_cons, ← hf _ _ h, ih]

section
variable {R : α → β → Prop} {l : List α} {l' : List β} (h : List.Forall₂ R l l')
include h

/-- What is related to an element on the left. -/
theorem exists_right_of_forall₂ {a : α} (ha : a ∈ l) : ∃ b ∈ l', R a b := by
  induction h with
  | nil => cases ha
  | @cons a' b rest rest' hfirst _ ih =>
    rcases mem_cons.mp ha with rfl | ha
    · exact ⟨b, by simp, hfirst⟩
    · obtain ⟨b', hb', hrel⟩ := ih ha
      exact ⟨b', by simp [hb'], hrel⟩

/-- What is related to an element on the right. -/
theorem exists_left_of_forall₂ {b : β} (hb : b ∈ l') : ∃ a ∈ l, R a b :=
  exists_right_of_forall₂ h.flip hb

end

section
variable {f : α → Except ε β} {l : List α} {l' : List β} (h : l.mapM f = .ok l')
include h

/-- Each element of the list has a returned one. -/
theorem forall_of_mapM_eq_ok {a : α} (ha : a ∈ l) : ∃ b ∈ l', f a = .ok b :=
  exists_right_of_forall₂ (mapM_eq_ok.mp h) ha

/-- Each returned element comes from one of the list. -/
theorem mem_of_mapM_eq_ok {b : β} (hb : b ∈ l') : ∃ a ∈ l, f a = .ok b :=
  exists_left_of_forall₂ (mapM_eq_ok.mp h) hb

end

end NetOrchestrator.Lib.Checks
