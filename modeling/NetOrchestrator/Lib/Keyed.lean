import Mathlib.Data.List.Nodup

/-!
# `Lib.Keyed`: tables with one row per key

`Table key` is a list of rows no two of which have the same key. The uniqueness is a field,
so a table that breaks it cannot be built and no later proof has to carry it along.
`Table.insert` refuses a taken key and `Table.drop` removes the rows that a predicate
selects. The lemmas say which rows are in the result; `Table.eq_of_key_eq` is the one fact
about uniqueness that clients need.

A list whose elements are pairwise apart is the other way to say it, for elements that are
rewritten in place: `pairwise_modify` is the step.
-/

namespace NetOrchestrator.Lib

open List

section
variable {α : Type} {R : α → α → Prop} {l : List α} {i i' : Nat} {a b : α}
variable {p : α → Bool}

theorem pairwise_getElem? (hsymm : ∀ a b, R a b → R b a) (h : l.Pairwise R) (hne : i ≠ i')
    (ha : l[i]? = some a) (hb : l[i']? = some b) : R a b := by
  obtain ⟨hi, rfl⟩ := List.getElem?_eq_some_iff.mp ha
  obtain ⟨hi', rfl⟩ := List.getElem?_eq_some_iff.mp hb
  rw [pairwise_iff_getElem] at h
  rcases Nat.lt_or_gt_of_ne hne with hlt | hgt
  · exact h i i' hi hi' hlt
  · exact hsymm _ _ (h i' i hi' hi hgt)

section
variable (ha : l[i]? = some a) (hp : p a = false)
include ha hp

/-- Dropping an element that a search does not look for. -/
theorem find?_eraseIdx : (l.eraseIdx i).find? p = l.find? p := by
  induction l generalizing i with
  | nil => rfl
  | cons b l ih =>
    cases i with
    | zero =>
      obtain rfl : b = a := by simpa using ha
      simp [hp]
    | succ i => rw [eraseIdx_cons_succ, find?_cons, find?_cons, ih (by simpa using ha)]

/-- Dropping an element that a selection leaves out. -/
theorem filter_eraseIdx : (l.eraseIdx i).filter p = l.filter p := by
  induction l generalizing i with
  | nil => rfl
  | cons b l ih =>
    cases i with
    | zero =>
      obtain rfl : b = a := by simpa using ha
      simp [hp]
    | succ i => rw [eraseIdx_cons_succ, filter_cons, filter_cons, ih (by simpa using ha)]

/-- Rewriting an element that a selection leaves out, before and after. -/
theorem filter_modify {f : α → α} (hf : p (f a) = false) :
    (l.modify i f).filter p = l.filter p := by
  induction l generalizing i with
  | nil => simp
  | cons b l ih =>
    cases i with
    | zero =>
      obtain rfl : b = a := by simpa using ha
      simp [hp, hf]
    | succ i => rw [modify_succ_cons, filter_cons, filter_cons, ih (by simpa using ha)]

end

theorem mem_eraseIdx_of_ne (hb : b ∈ l) (ha : l[i]? = some a) (hne : b ≠ a) : b ∈ l.eraseIdx i := by
  obtain ⟨n, hn⟩ := mem_iff_getElem?.mp hb
  refine mem_eraseIdx_iff_getElem?.mpr ⟨n, ?_, hn⟩
  rintro rfl
  exact hne (Option.some.inj (hn.symm.trans ha))

theorem mem_set_of_ne {c : α} (hb : b ∈ l) (ha : l[i]? = some a) (hne : b ≠ a) : b ∈ l.set i c := by
  obtain ⟨n, hn⟩ := mem_iff_getElem?.mp hb
  refine mem_iff_getElem?.mpr ⟨n, ?_⟩
  rw [getElem?_set_ne, hn]
  rintro rfl
  exact hne (Option.some.inj (hn.symm.trans ha))

/-- Rewriting one element, apart from all the others. -/
theorem pairwise_modify {f : α → α} (hsymm : ∀ a b, R a b → R b a) (h : l.Pairwise R)
    (hf : ∀ a, l[i]? = some a → ∀ i' b, i' ≠ i → l[i']? = some b → R (f a) b) :
    (l.modify i f).Pairwise R := by
  rw [pairwise_iff_getElem]
  intro m n hm hn hlt
  rw [length_modify] at hm hn
  have hpair := pairwise_iff_getElem.mp h m n hm hn hlt
  rw [getElem_modify, getElem_modify]
  by_cases him : i = m
  · rw [if_pos him, if_neg (by omega)]
    exact hf _ (by simp [him, hm]) n _ (by omega) (by simp [hn])
  · rw [if_neg him]
    by_cases hin : i = n
    · rw [if_pos hin]
      exact hsymm _ _ (hf _ (by simp [hin, hn]) m _ (by omega) (by simp [hm]))
    · rw [if_neg hin]
      exact hpair

end

/-- Rows with pairwise different keys. -/
structure Table {κ ρ : Type} (key : ρ → κ) where
  rows : List ρ
  nodup : (rows.map key).Nodup

namespace Table

variable {κ ρ : Type} {key : ρ → κ}
variable {t : Table key} {r : ρ} {k : κ}

instance : Membership ρ (Table key) where
  mem t r := r ∈ t.rows

theorem mem_def : r ∈ t ↔ r ∈ t.rows := Iff.rfl

instance [DecidableEq ρ] (t : Table key) (r : ρ) : Decidable (r ∈ t) :=
  inferInstanceAs (Decidable (r ∈ t.rows))

instance [DecidableEq ρ] : DecidableEq (Table key) := fun a b =>
  decidable_of_iff (a.rows = b.rows) (by
    cases a
    cases b
    simp)

def empty : Table key := ⟨[], List.nodup_nil⟩

theorem ext_rows {a b : Table key} (h : a.rows = b.rows) : a = b := by
  cases a
  cases b
  simp_all

variable {r' : ρ} {p : ρ → Bool}

/-- The key tells the row. -/
theorem eq_of_key_eq (h : r ∈ t) (h' : r' ∈ t) (hk : key r = key r') : r = r' :=
  inj_on_of_nodup_map t.nodup h h' hk

variable [DecidableEq κ]

/-- Whether a row has this key. -/
def has (t : Table key) (k : κ) : Bool := t.rows.any fun r => key r == k

theorem has_iff : t.has k = true ↔ ∃ r ∈ t, key r = k := by
  simp [has, mem_def]

theorem has_eq_false_iff : t.has k = false ↔ ∀ r ∈ t, key r ≠ k := by
  simp [has, mem_def]

/-- Add a row at the end, unless its key is taken. -/
def insert (t : Table key) (r : ρ) : Table key :=
  if h : t.has (key r) then t
  else
    { rows := t.rows ++ [r]
      nodup := by
        rw [List.map_append, List.nodup_append]
        refine ⟨t.nodup, by simp, ?_⟩
        intro k hk k' hk'
        obtain ⟨r', hr', rfl⟩ := List.mem_map.mp hk
        simp only [List.map_cons, List.map_nil, List.mem_singleton] at hk'
        subst hk'
        exact has_eq_false_iff.mp (by simpa using h) r' hr' }

theorem rows_insert (h : t.has (key r) = false) : (t.insert r).rows = t.rows ++ [r] := by
  simp [insert, h]

theorem mem_insert (h : t.has (key r) = false) : r' ∈ t.insert r ↔ r' ∈ t ∨ r' = r := by
  simp [insert, h, mem_def]

section
variable {t' : Table key} {row : ρ}
  (h : ∀ r, r ∈ t' ↔ r ∈ t ∨ (t.has (key row) = false ∧ r = row))
include h

/-- After an insertion, successful or refused, the key is taken. -/
theorem has_of_insert : t'.has k = true ↔ t.has k = true ∨ key row = k := by
  simp only [has_iff, h, has_eq_false_iff]
  constructor
  · rintro ⟨r, hr | ⟨-, rfl⟩, hkey⟩
    · exact .inl ⟨r, hr, hkey⟩
    · exact .inr hkey
  · rintro (⟨r, hr, hkey⟩ | hkey)
    · exact ⟨r, .inl hr, hkey⟩
    · by_cases hhas : ∃ r ∈ t, key r = key row
      · obtain ⟨r, hr, h⟩ := hhas
        exact ⟨r, .inl hr, h.trans hkey⟩
      · push Not at hhas
        exact ⟨row, .inr ⟨hhas, rfl⟩, hkey⟩

/-- What the rows show after an insertion, for a view that shows the key. -/
theorem shown_of_insert {σ : Type} (view : ρ → σ) {viewKey : σ → κ}
    (hview : ∀ r, viewKey (view r) = key r) {x : σ} :
    (∃ r ∈ t', view r = x) ↔ (∃ r ∈ t, view r = x) ∨
      ((∀ y, (∃ r ∈ t, view r = y) → viewKey y ≠ key row) ∧ x = view row) := by
  simp only [h, has_eq_false_iff]
  constructor
  · rintro ⟨r, hr | ⟨hfree, rfl⟩, rfl⟩
    · exact .inl ⟨r, hr, rfl⟩
    · refine .inr ⟨?_, rfl⟩
      rintro _ ⟨y, hy, rfl⟩
      exact hview y ▸ hfree y hy
  · rintro (⟨r, hr, rfl⟩ | ⟨hfree, rfl⟩)
    · exact ⟨r, .inl hr, rfl⟩
    · exact ⟨row, .inr ⟨fun r hr => hview r ▸ hfree _ ⟨r, hr, rfl⟩, rfl⟩, rfl⟩

end

/-- Remove the rows that `p` selects. -/
def drop (t : Table key) (p : ρ → Bool) : Table key :=
  { rows := t.rows.filter fun r => !p r
    nodup := t.nodup.sublist ((List.filter_sublist).map key) }

omit [DecidableEq κ] in
theorem mem_drop : r ∈ t.drop p ↔ r ∈ t ∧ p r = false := by
  simp [drop, mem_def]

omit [DecidableEq κ] in
/-- Nothing selected, nothing removed. -/
theorem drop_of_forall (h : ∀ r ∈ t, p r = false) : t.drop p = t :=
  ext_rows (filter_eq_self.mpr fun r hr => by simp [h r hr])

omit [DecidableEq κ] in
theorem drop_none (t : Table key) : t.drop (fun _ => false) = t := drop_of_forall fun _ _ => rfl

omit [DecidableEq κ] in
theorem drop_drop (t : Table key) (p q : ρ → Bool) :
    (t.drop p).drop q = t.drop fun r => p r || q r := by
  apply ext_rows
  show (t.rows.filter _).filter _ = t.rows.filter _
  rw [filter_filter]
  congr 1
  funext r
  simp [Bool.not_or, Bool.and_comm]

/-- The row of a key. -/
def get (t : Table key) (k : κ) : Option ρ := t.rows.find? fun r => key r == k

theorem get_eq_some : t.get k = some r ↔ r ∈ t ∧ key r = k := by
  constructor
  · intro h
    exact ⟨mem_of_find?_eq_some h, by simpa using find?_some h⟩
  · rintro ⟨hmem, hkey⟩
    cases hget : t.get k with
    | none => exact absurd hkey (by simpa using find?_eq_none.mp hget r hmem)
    | some r' =>
      have hmem' : r' ∈ t := mem_of_find?_eq_some hget
      have hkey' : key r' = k := by simpa using find?_some hget
      rw [eq_of_key_eq hmem' hmem (hkey'.trans hkey.symm)]

theorem get_eq_none : t.get k = none ↔ t.has k = false := by
  simp [get, has]

theorem get_key (h : r ∈ t) : t.get (key r) = some r := get_eq_some.mpr ⟨h, rfl⟩

/-- Selecting by key selects at most one row. -/
theorem filter_key (t : Table key) (k : κ) :
    (t.rows.filter fun r => key r == k) = (t.get k).toList := by
  unfold get
  have hnodup := t.nodup
  generalize t.rows = rows at hnodup
  induction rows with
  | nil => rfl
  | cons r rest ih =>
    rw [map_cons, nodup_cons] at hnodup
    by_cases hr : key r = k
    · -- The key does not come again.
      have hrest : (rest.filter fun r => key r == k) = [] := by
        rw [filter_eq_nil_iff]
        intro r' hr' hsame
        apply hnodup.1
        rw [hr]
        exact mem_map.mpr ⟨r', hr', by simpa using hsame⟩
      simp [hr, hrest]
    · simp [hr, ih hnodup.2]

theorem get_insert (h : t.has (key r) = false) (k : κ) :
    (t.insert r).get k = if k = key r then some r else t.get k := by
  apply Option.ext
  intro r'
  rw [get_eq_some, mem_insert h]
  by_cases hk : k = key r
  · subst hk
    simp only [if_true, Option.some.injEq]
    constructor
    · rintro ⟨hmem | rfl, hkey⟩
      · exact absurd hkey (has_eq_false_iff.mp h r' hmem)
      · rfl
    · rintro rfl
      exact ⟨.inr rfl, rfl⟩
  · rw [if_neg hk, get_eq_some]
    constructor
    · rintro ⟨hmem | rfl, hkey⟩
      · exact ⟨hmem, hkey⟩
      · exact absurd hkey.symm hk
    · rintro ⟨hmem, hkey⟩
      exact ⟨.inl hmem, hkey⟩

/-- Remove the row of a key. -/
def erase (t : Table key) (k : κ) : Table key := t.drop fun r => key r == k

theorem mem_erase : r ∈ t.erase k ↔ r ∈ t ∧ key r ≠ k := by
  simp [erase, mem_drop]

theorem get_erase (t : Table key) (k k' : κ) :
    (t.erase k).get k' = if k' = k then none else t.get k' := by
  apply Option.ext
  intro r
  rw [get_eq_some, mem_erase]
  by_cases hk : k' = k
  · subst hk
    simp only [if_true]
    constructor
    · rintro ⟨⟨_, hne⟩, hkey⟩
      exact absurd hkey hne
    · intro h
      cases h
  · rw [if_neg hk, get_eq_some]
    constructor
    · rintro ⟨⟨hmem, _⟩, hkey⟩
      exact ⟨hmem, hkey⟩
    · rintro ⟨hmem, hkey⟩
      exact ⟨⟨hmem, hkey ▸ hk⟩, hkey⟩

theorem get_drop (t : Table key) (p : ρ → Bool) (k : κ) :
    (t.drop p).get k = (t.get k).filter fun r => !p r := by
  apply Option.ext
  intro r
  rw [get_eq_some, mem_drop, Option.filter_eq_some_iff, get_eq_some]
  simp only [Bool.not_eq_true']
  constructor
  · rintro ⟨⟨hmem, hp⟩, hkey⟩
    exact ⟨⟨hmem, hkey⟩, hp⟩
  · rintro ⟨⟨hmem, hkey⟩, hp⟩
    exact ⟨⟨hmem, hp⟩, hkey⟩

end Table

end NetOrchestrator.Lib
