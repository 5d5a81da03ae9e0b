import Mathlib.Data.List.Basic

/-!
# `Lib.Turns`: parties that take turns at one place

A place holds at most one thing. Parties take turns, once each: a party first takes away what
it drops, and then puts its own thing there if it wants to and the place is free. Nobody looks
ahead, so a party can find the place taken by something that a later party will drop.

`runTurns_isSome_iff` says when the place is taken in the end: exactly when nobody behind the
last party that wants it drops what is there by then. `runTurns_origin` says where the thing
that is there comes from.
-/

namespace NetOrchestrator.Lib

open List Option

variable {ρ : Type} {r : ρ}

/-- What a party does at the place. -/
structure Turn (ρ : Type) where
  drops : ρ → Bool
  takes : Option ρ

/-- The place after the party has dropped. -/
def Turn.left (turn : Turn ρ) (held : Option ρ) : Option ρ := held.filter fun r => !turn.drops r

def Turn.run (turn : Turn ρ) (held : Option ρ) : Option ρ := (turn.left held).or turn.takes

def runTurns (turns : List (Turn ρ)) (held : Option ρ) : Option ρ :=
  turns.foldl (fun held turn => turn.run held) held

/-- A party that does not come to this place. -/
def Turn.absent : Turn ρ := ⟨fun _ => false, none⟩

variable (held : Option ρ) {turn : Turn ρ} {turns : List (Turn ρ)}

theorem run_absent : Turn.absent.run held = held := by
  cases held <;> rfl

theorem runTurns_cons (turn : Turn ρ) (rest : List (Turn ρ)) (held : Option ρ) :
    runTurns (turn :: rest) held = runTurns rest (turn.run held) := rfl

theorem runTurns_append (before after : List (Turn ρ)) (held : Option ρ) :
    runTurns (before ++ after) held = runTurns after (runTurns before held) :=
  foldl_append

theorem run_of_not_drops (h : turn.drops r = false) : turn.run (some r) = some r := by
  simp [Turn.run, Turn.left, h]

theorem run_of_drops (h : turn.drops r = true) : turn.run (some r) = turn.takes := by
  simp [Turn.run, Turn.left, Option.filter, h]

theorem run_none (turn : Turn ρ) : turn.run none = turn.takes := rfl

/-- Nobody drops what is there. -/
theorem runTurns_of_not_drops (h : ∀ turn ∈ turns, turn.drops r = false) :
    runTurns turns (some r) = some r := by
  induction turns with
  | nil => rfl
  | cons turn rest ih =>
    rw [runTurns_cons, run_of_not_drops (h turn (by simp))]
    exact ih fun t ht => h t (mem_cons_of_mem turn ht)

/-- Nobody wants a free place. -/
theorem runTurns_none (h : ∀ turn ∈ turns, turn.takes = none) : runTurns turns none = none := by
  induction turns with
  | nil => rfl
  | cons turn rest ih =>
    rw [runTurns_cons, run_none, h turn (by simp)]
    exact ih fun t ht => h t (mem_cons_of_mem turn ht)

/-- What is there in the end was put there by a party that found the place free, or was there
from the start and nobody dropped it. -/
theorem runTurns_origin {held : Option ρ} (h : runTurns turns held = some r) :
    (∃ before turn after, turns = before ++ turn :: after ∧ turn.takes = some r ∧
      turn.left (runTurns before held) = none) ∨
      held = some r ∧ ∀ turn ∈ turns, turn.drops r = false := by
  induction turns generalizing held with
  | nil => exact .inr ⟨h, by simp⟩
  | cons turn rest ih =>
    rw [runTurns_cons] at h
    rcases ih h with ⟨before, t, after, hsplit, htakes, hfree⟩ | ⟨hheld, hkept⟩
    · exact .inl ⟨turn :: before, t, after, by rw [hsplit]; rfl, htakes, hfree⟩
    · cases hleft : turn.left held with
      | none =>
        rw [Turn.run, hleft, none_or] at hheld
        exact .inl ⟨[], turn, rest, rfl, hheld, hleft⟩
      | some r' =>
        obtain rfl : r' = r := by simpa [Turn.run, hleft] using hheld
        obtain ⟨hheld', hdrops⟩ := filter_eq_some_iff.mp hleft
        refine .inr ⟨hheld', ?_⟩
        intro t ht
        rcases mem_cons.mp ht with rfl | ht
        · simpa using hdrops
        · exact hkept t ht

/-- The last of the parties that want the place. -/
theorem exists_last_taker (h : ∃ turn ∈ turns, turn.takes.isSome = true) :
    ∃ before last after, turns = before ++ last :: after ∧ last.takes.isSome = true ∧
      ∀ turn ∈ after, turn.takes = none := by
  induction turns with
  | nil =>
    obtain ⟨turn, hturn, _⟩ := h
    cases hturn
  | cons turn rest ih =>
    by_cases hrest : ∃ t ∈ rest, t.takes.isSome = true
    · obtain ⟨before, last, after, hsplit, hlast, hafter⟩ := ih hrest
      exact ⟨turn :: before, last, after, by rw [hsplit]; rfl, hlast, hafter⟩
    · obtain ⟨t, ht, hsome⟩ := h
      rcases mem_cons.mp ht with rfl | ht
      · refine ⟨[], t, rest, rfl, hsome, ?_⟩
        intro t' ht'
        rw [← not_isSome_iff_eq_none]
        exact fun hsome' => hrest ⟨t', ht', hsome'⟩
      · exact absurd ⟨t, ht, hsome⟩ hrest

/-- Somebody behind the last party that wants the place drops what is there by then. -/
def Undercut (turns : List (Turn ρ)) (held : Option ρ) : Prop :=
  ∃ before last after, turns = before ++ last :: after ∧ last.takes.isSome = true ∧
    (∀ turn ∈ after, turn.takes = none) ∧
    ∃ r, runTurns (before ++ [last]) held = some r ∧ ∃ turn ∈ after, turn.drops r = true

/-- After the turn of a party that wants the place, it is taken. -/
theorem run_isSome (h : turn.takes.isSome = true) (held : Option ρ) :
    (turn.run held).isSome = true := by
  rw [Turn.run, isSome_or, h, Bool.or_true]

theorem runTurns_isSome_iff (h : ∃ turn ∈ turns, turn.takes.isSome = true) :
    (runTurns turns held).isSome = true ↔ ¬Undercut turns held := by
  constructor
  · rintro hsome ⟨before, last, after, hsplit, _, hafter, r, hr, turn, hturn, hdrops⟩
    -- From the first party that drops it on, the place stays free.
    have hend : runTurns after (some r) = none := by
      clear hsplit hr
      induction after with
      | nil => cases hturn
      | cons t rest ih =>
        rw [runTurns_cons]
        have hrest : ∀ t' ∈ rest, t'.takes = none := fun t' ht' => hafter t' (mem_cons_of_mem t ht')
        cases htd : t.drops r with
        | true =>
          rw [run_of_drops htd, hafter t (by simp)]
          exact runTurns_none hrest
        | false =>
          rw [run_of_not_drops htd]
          rcases mem_cons.mp hturn with rfl | hturn
          · exact absurd (htd.symm.trans hdrops) (by decide)
          · exact ih hrest hturn
    rw [hsplit, append_cons, runTurns_append, hr, hend] at hsome
    cases hsome
  · intro hnot
    obtain ⟨before, last, after, hsplit, hlast, hafter⟩ := exists_last_taker h
    have htaken : (runTurns (before ++ [last]) held).isSome = true := by
      rw [runTurns_append]
      exact run_isSome hlast _
    obtain ⟨r, hr⟩ := isSome_iff_exists.mp htaken
    rw [hsplit, append_cons, runTurns_append, hr, runTurns_of_not_drops]
    · rfl
    · intro turn hturn
      rw [Bool.eq_false_iff]
      intro hdrops
      exact hnot ⟨before, last, after, hsplit, hlast, hafter, r, hr, turn, hturn, hdrops⟩

end NetOrchestrator.Lib
