import Mathlib.Data.Set.Insert

/-!
# `Lib.Ledger`: overrides on somebody else's table

A table of rows, one per key, that was there before we came. We add rows of our own and take
rows of others away for a while, and we keep a record of both. `Books` says how records speak
of the table: a record may claim a key, where a row of ours sits, or be a debt, a row that has
to be put back. `mine` tells our rows from the others.

`Books.Balanced` is the invariant that makes the table recoverable: every original row is in
the table or owed, and every other row of the table is one of ours under a claimed key. Each
lemma is one move. When no record is left the table is the original one (`Balanced.table_eq`).

Releasing a record deletes the row it claims or puts back the row it owes, the latter only
where nothing else sits. `Books.Unobstructed` is what a sweep of releases needs, and
`Balanced.release` and `Unobstructed.release` are its two steps.
-/

namespace NetOrchestrator.Lib

variable {ω ρ κ : Type}

structure Books (ω ρ κ : Type) where
  key : ρ → κ
  mine : ρ → Prop
  claim : ω → Option κ
  debt : ω → Option ρ
  /-- No record is both. -/
  single : ∀ w k, claim w = some k → debt w = none

namespace Books

structure Balanced (B : Books ω ρ κ) (init : Set ρ) (records : Set ω) (table : Set ρ) : Prop where
  owed_init : ∀ w ∈ records, ∀ r, B.debt w = some r → r ∈ init ∧ ¬B.mine r
  kept : ∀ r ∈ init, r ∈ table ∨ ∃ w ∈ records, B.debt w = some r
  explained : ∀ r ∈ table, r ∈ init ∨ (B.mine r ∧ ∃ w ∈ records, B.claim w = some (B.key r))
  apart : ∀ r ∈ init, B.mine r → ∀ w ∈ records, B.claim w ≠ some (B.key r)

/-- What the release of a record makes of the table. -/
structure Releases (B : Books ω ρ κ) (w : ω) (table table' : Set ρ) : Prop where
  claim : ∀ k, B.claim w = some k → ∀ x, x ∈ table' ↔ x ∈ table ∧ ¬(B.key x = k ∧ B.mine x)
  debt : ∀ r, B.debt w = some r →
    ∀ x, x ∈ table' ↔ x ∈ table ∨ ((∀ y ∈ table, B.key y ≠ B.key r) ∧ x = r)
  other : B.claim w = none → B.debt w = none → table' = table

/-- The key of every row that the records owe, in the order they are released, is free, holds
the row itself, or is cleared by a record released before it. `clears` says of a record that its
release goes through. -/
def Unobstructed (B : Books ω ρ κ) (clears : ω → Prop) (records : List ω) (table : Set ρ) : Prop :=
  ∀ before w after, records = before ++ w :: after → ∀ r, B.debt w = some r →
    ∀ x ∈ table, B.key x = B.key r → x = r ∨ ∃ c ∈ before, clears c ∧ B.claim c = some (B.key r)

variable {B : Books ω ρ κ} {init table table' : Set ρ} {records records' : Set ω}

namespace Balanced

theorem start : B.Balanced init ∅ init where
  owed_init _ h := h.elim
  kept _ h := .inl h
  explained _ h := .inl h
  apart _ _ _ _ h := h.elim

/-- With no record left, the table is the original one. -/
theorem table_eq (h : B.Balanced init ∅ table) : table = init := by
  ext r
  refine ⟨fun hr => ?_, fun hr => ?_⟩
  · exact (h.explained r hr).resolve_right fun ⟨_, _, hw, _⟩ => hw
  · exact (h.kept r hr).resolve_right fun ⟨_, hw, _⟩ => hw

section
variable (h : B.Balanced init records table)
include h

/-- Write a record down ahead of what it is about. -/
theorem record {w : ω} (hclaim : ∀ r ∈ init, B.mine r → B.claim w ≠ some (B.key r))
    (hdebt : ∀ r, B.debt w = some r → r ∈ init ∧ ¬B.mine r) :
    B.Balanced init (insert w records) table where
  owed_init x hx r hr := by
    rcases hx with rfl | hx
    · exact hdebt r hr
    · exact h.owed_init x hx r hr
  kept r hr := (h.kept r hr).imp_right fun ⟨x, hx, hd⟩ => ⟨x, .inr hx, hd⟩
  explained r hr := (h.explained r hr).imp_right fun ⟨hm, x, hx, hc⟩ => ⟨hm, x, .inr hx, hc⟩
  apart r hr hm x hx := by
    rcases hx with rfl | hx
    · exact hclaim r hr hm
    · exact h.apart r hr hm x hx

/-- Add a row of ours under a claimed key, or an original row. -/
theorem add (x : ρ) (hx : x ∈ init ∨ (B.mine x ∧ ∃ w ∈ records, B.claim w = some (B.key x)))
    (htable : ∀ y ∈ table', y ∈ table ∨ y = x) (hsub : table ⊆ table') :
    B.Balanced init records table' :=
  { h with
    kept r hr := (h.kept r hr).imp_left fun hr => hsub hr
    explained r hr := by
      rcases htable r hr with hr | rfl
      · exact h.explained r hr
      · exact hx }

/-- Lose rows, each of them owed or not an original one. -/
theorem lose (hsub : table' ⊆ table)
    (hlost : ∀ r ∈ table, r ∉ table' → (∃ w ∈ records, B.debt w = some r) ∨ r ∉ init) :
    B.Balanced init records table' :=
  { h with
    kept r hr := by
      rcases h.kept r hr with hin | hp
      · by_cases hin' : r ∈ table'
        · exact .inl hin'
        · exact .inr ((hlost r hin hin').resolve_right fun hno => hno hr)
      · exact .inr hp
    explained r hr := h.explained r (hsub hr) }

/-- Strike records out: claims that no row of ours needs, and debts that are paid. -/
theorem strike (hsub : records' ⊆ records)
    (hclaim : ∀ r ∈ table, B.mine r → ∀ w ∈ records, B.claim w = some (B.key r) →
      ∃ w' ∈ records', B.claim w' = some (B.key r)) (hdebt : ∀ w ∈ records, ∀ r, B.debt w = some r →
      r ∈ table ∨ ∃ w' ∈ records', B.debt w' = some r) : B.Balanced init records' table where
  owed_init w hw := h.owed_init w (hsub hw)
  kept r hr := by
    rcases h.kept r hr with hin | ⟨w, hw, hd⟩
    · exact .inl hin
    · exact hdebt w hw r hd
  explained r hr := by
    rcases h.explained r hr with hin | ⟨hm, w, hw, hc⟩
    · exact .inl hin
    · exact .inr ⟨hm, hclaim r hr hm w hw hc⟩
  apart r hr hm w hw := h.apart r hr hm w (hsub hw)

/-- A row that sits where an original row is owed is ours. -/
theorem mine_of_obstructs {w : ω} {r x : ρ}
    (hinit : ∀ a ∈ init, ∀ b ∈ init, B.key a = B.key b → a = b) (hw : w ∈ records)
    (hr : B.debt w = some r) (hx : x ∈ table) (hkey : B.key x = B.key r) (hne : x ≠ r) :
    B.mine x := by
  rcases h.explained x hx with hin | ⟨hm, _⟩
  · exact absurd (hinit x hin r (h.owed_init w hw r hr).1 hkey) hne
  · exact hm

end

/-- Releasing a record and striking it out keeps the books balanced, when a row that it owes
can be put back. -/
theorem release {w : ω} (h : B.Balanced init (insert w records) table)
    (hrelease : B.Releases w table table')
    (hfree : ∀ r, B.debt w = some r → ∀ x ∈ table, B.key x = B.key r → x = r) :
    B.Balanced init records table' := by
  have hin : ∀ x ∈ insert w records, x = w ∨ x ∈ records := fun x hx => hx
  cases hclaim : B.claim w with
  | some k =>
    have htable := hrelease.claim k hclaim
    have hnodebt := B.single w k hclaim
    have hlost : B.Balanced init (insert w records) table' := by
      refine h.lose (fun x hx => ((htable x).mp hx).1) fun r hr hr' => .inr fun hinit => ?_
      have hgone : B.key r = k ∧ B.mine r := by
        by_contra hno
        exact hr' ((htable r).mpr ⟨hr, hno⟩)
      exact h.apart r hinit hgone.2 w (.inl rfl) (hclaim.trans (by rw [hgone.1]))
    refine hlost.strike (fun x hx => .inr hx) ?_ ?_
    · intro r hr hm x hx hc
      rcases hin x hx with rfl | hx
      · rw [hclaim] at hc
        exact absurd ⟨(Option.some.inj hc).symm, hm⟩ ((htable r).mp hr).2
      · exact ⟨x, hx, hc⟩
    · intro x hx r hd
      rcases hin x hx with rfl | hx
      · rw [hnodebt] at hd
        cases hd
      · exact .inr ⟨x, hx, hd⟩
  | none =>
    have hclaims : ∀ r ∈ table', B.mine r → ∀ x ∈ insert w records,
        B.claim x = some (B.key r) → ∃ x' ∈ records, B.claim x' = some (B.key r) := by
      intro r _ _ x hx hc
      rcases hin x hx with rfl | hx
      · rw [hclaim] at hc
        cases hc
      · exact ⟨x, hx, hc⟩
    cases hdebt : B.debt w with
    | none =>
      rw [hrelease.other hclaim hdebt] at hclaims ⊢
      refine h.strike (fun x hx => .inr hx) hclaims fun x hx r hd => .inr ?_
      rcases hin x hx with rfl | hx
      · rw [hdebt] at hd
        cases hd
      · exact ⟨x, hx, hd⟩
    | some r =>
      have htable := hrelease.debt r hdebt
      have hback : r ∈ table' := by
        by_cases hr : r ∈ table
        · exact (htable r).mpr (.inl hr)
        · exact (htable r).mpr (.inr ⟨fun y hy hkey => hr (hfree r hdebt y hy hkey ▸ hy), rfl⟩)
      have hadded : B.Balanced init (insert w records) table' :=
        h.add r (.inl (h.owed_init w (.inl rfl) r hdebt).1)
          (fun y hy => ((htable y).mp hy).imp_right And.right)
          (fun y hy => (htable y).mpr (.inl hy))
      refine hadded.strike (fun x hx => .inr hx) hclaims ?_
      intro x hx a hd
      rcases hin x hx with rfl | hx
      · rw [hdebt] at hd
        exact .inl (Option.some.inj hd ▸ hback)
      · exact .inr ⟨x, hx, hd⟩

end Balanced

namespace Unobstructed

variable {clears : ω → Prop} {rest : List ω} {w : ω}

/-- Records that owe nothing. -/
theorem of_none (h : ∀ w ∈ rest, B.debt w = none) : B.Unobstructed clears rest table := by
  intro before w after hsplit r hr
  rw [h w (by simp [hsplit])] at hr
  cases hr

variable (h : B.Unobstructed clears (w :: rest) table)
include h

theorem head {r x : ρ} (hr : B.debt w = some r) (hx : x ∈ table) (hkey : B.key x = B.key r) :
    x = r :=
  (h [] w rest rfl r hr x hx hkey).resolve_right fun ⟨_, hc, _⟩ => by simp at hc

/-- The rest of the sweep stays unobstructed when its first record has been released. -/
theorem release (hbalanced : B.Balanced init records table)
    (hrecords : ∀ x ∈ w :: rest, x ∈ records)
    (hinit : ∀ a ∈ init, ∀ b ∈ init, B.key a = B.key b → a = b)
    (hrelease : B.Releases w table table') : B.Unobstructed clears rest table' := by
  intro before v after hsplit r hr x hx hkey
  have hv : v ∈ records := hrecords v (by simp [hsplit])
  -- A row that was there before stays obstructing unless the release of `w` deleted it.
  have hold : x ∈ table → x = r ∨ ∃ c ∈ before, clears c ∧ B.claim c = some (B.key r) := by
    intro hx'
    by_cases hne : x = r
    · exact .inl hne
    rcases h (w :: before) v after (by simp [hsplit]) r hr x hx' hkey with h' | ⟨c, hc, hcl, hck⟩
    · exact .inl h'
    · rcases List.mem_cons.mp hc with rfl | hc
      · have hm := hbalanced.mine_of_obstructs hinit hv hr hx' hkey hne
        exact absurd ⟨hkey, hm⟩ ((hrelease.claim _ hck x).mp hx).2
      · exact .inr ⟨c, hc, hcl, hck⟩
  cases hclaim : B.claim w with
  | some k => exact hold ((hrelease.claim k hclaim x).mp hx).1
  | none =>
    cases hdebt : B.debt w with
    | none => exact hold (hrelease.other hclaim hdebt ▸ hx)
    | some a =>
      rcases (hrelease.debt a hdebt x).mp hx with hx' | ⟨-, rfl⟩
      · exact hold hx'
      · -- What has just been put back is an original row, as is the one still owed.
        exact .inl (hinit x (hbalanced.owed_init w (hrecords w (by simp)) x hdebt).1 r
          (hbalanced.owed_init v hv r hr).1 hkey)

/-- A record that was left behind, so that it clears nothing. -/
theorem leave (hleft : ¬clears w) : B.Unobstructed clears rest table := by
  intro before v after hsplit r hr x hx hkey
  rcases h (w :: before) v after (by simp [hsplit]) r hr x hx hkey with h' | ⟨c, hc, hcl, hck⟩
  · exact .inl h'
  · rcases List.mem_cons.mp hc with rfl | hc
    · exact absurd hcl hleft
    · exact .inr ⟨c, hc, hcl, hck⟩

end Unobstructed

end Books

end NetOrchestrator.Lib
