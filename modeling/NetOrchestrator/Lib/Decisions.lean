import Mathlib.Data.List.Basic

/-!
# `Lib.Decisions`: first-match lists with tests of unknown outcome

A decision list pairs tests with what they decide, and the first test that hits decides
(`decideFirst`). Some outcomes may not be known: `known` gives those that are, and an assignment
of outcomes `Extends` it. `Uniform` says of a list that every entry that some extension comes to
first decides the same, and `forall_decideFirst_iff` that this is what it takes for all
extensions to decide the same.

`walk` goes through the list group by group, and remembers whether it passed an unknown test.
Where it did not, every extension decides as it does (`decideFirst_of_walk`).
-/

namespace NetOrchestrator.Lib

open List

section
variable {α β : Type}

def decideFirst (hits : α → Bool) (l : List (α × β)) : Option β :=
  (l.find? fun e => hits e.1).map Prod.snd

/-- The outcomes keep those that are known. -/
def Extends (known : α → Option Bool) (hits : α → Bool) : Prop :=
  ∀ a b, known a = some b → hits a = b

/-- Every entry decides what its group does. -/
def entries (groups : List (List α × β)) : List (α × β) :=
  groups.flatMap fun g => g.1.map fun a => (a, g.2)

/-- What is decided without the unknown tests, and whether one was passed on the way. -/
def walk (known : α → Option Bool) : List (List α × β) → Option β × Bool
  | [] => (none, false)
  | (tests, b) :: rest =>
    if tests.any fun a => known a == some true then (some b, false)
    else
      ((walk known rest).1, tests.any (fun a => known a == none) || (walk known rest).2)

variable {known known' : α → Option Bool} {hits : α → Bool} {l l' : List (α × β)}
  {groups groups' : List (List α × β)} {a : α} {b d r : β}

@[simp]
theorem decideFirst_nil : decideFirst hits ([] : List (α × β)) = none := rfl

theorem decideFirst_cons :
    decideFirst hits ((a, b) :: l) = if hits a then some b else decideFirst hits l := by
  rw [decideFirst, find?_cons]
  cases hits a <;> rfl

theorem decideFirst_append : decideFirst hits (l ++ l') = (decideFirst hits l).or (decideFirst hits l') := by
  induction l with
  | nil => simp
  | cons e l ih =>
    obtain ⟨a, b⟩ := e
    rw [cons_append, decideFirst_cons, decideFirst_cons, ih]
    split <;> simp

theorem decideFirst_eq_none : decideFirst hits l = none ↔ ∀ e ∈ l, hits e.1 = false := by
  simp [decideFirst]

theorem decideFirst_eq_some : decideFirst hits l = some b ↔
      ∃ before a after, l = before ++ (a, b) :: after ∧ hits a = true ∧
        ∀ e ∈ before, hits e.1 = false := by
  induction l with
  | nil => simp
  | cons e l ih =>
    obtain ⟨x, c⟩ := e
    rw [decideFirst_cons]
    cases hx : hits x with
    | true =>
      rw [if_pos rfl]
      constructor
      · intro h
        cases h
        exact ⟨[], x, l, rfl, hx, by simp⟩
      · intro ⟨before, a, after, hl, ha, hbefore⟩
        cases before with
        | nil =>
          cases hl
          rfl
        | cons e before =>
          cases hl
          have hmiss := hbefore (x, c) (by simp)
          rw [hx] at hmiss
          cases hmiss
    | false =>
      rw [if_neg (by simp), ih]
      constructor
      · intro ⟨before, a, after, hl, ha, hbefore⟩
        refine ⟨(x, c) :: before, a, after, by rw [hl]; rfl, ha, ?_⟩
        intro e he
        rcases mem_cons.mp he with rfl | he
        · exact hx
        · exact hbefore e he
      · intro ⟨before, a, after, hl, ha, hbefore⟩
        cases before with
        | nil =>
          cases hl
          rw [hx] at ha
          cases ha
        | cons e before =>
          cases hl
          exact ⟨before, a, after, rfl, ha, fun e he => hbefore e (by simp [he])⟩

variable (tests : List α)

theorem decideFirst_map :
    decideFirst hits (tests.map fun a => (a, b)) = if tests.any hits then some b else none := by
  induction tests with
  | nil => rfl
  | cons a tests ih =>
    rw [map_cons, decideFirst_cons, ih, any_cons]
    cases hits a <;> simp

@[simp]
theorem entries_nil : entries ([] : List (List α × β)) = [] := rfl

@[simp]
theorem entries_cons (b : β) (groups : List (List α × β)) :
    entries ((tests, b) :: groups) = tests.map (fun a => (a, b)) ++ entries groups := rfl

theorem entries_append : entries (groups ++ groups') = entries groups ++ entries groups' := by
  simp [entries]

/-- A group hits where one of its tests does. -/
theorem decideFirst_entries :
    decideFirst hits (entries groups) = (groups.find? fun g => g.1.any hits).map Prod.snd := by
  induction groups with
  | nil => rfl
  | cons g groups ih =>
    obtain ⟨tests, b⟩ := g
    rw [entries_cons, decideFirst_append, decideFirst_map, find?_cons, ih]
    cases tests.any hits <;> rfl

/-! ### Walks -/

theorem Extends.any (h : Extends known hits) {tests : List α}
    (hany : (tests.any fun a => known a == some true) = true) : tests.any hits = true := by
  obtain ⟨a, ha, hknown⟩ := any_eq_true.mp hany
  exact any_eq_true.mpr ⟨a, ha, h a true (by simpa using hknown)⟩

theorem known_eq_false {tests : List α} (hany : tests.any (fun a => known a == some true) = false)
    (hnone : tests.any (fun a => known a == none) = false) (ha : a ∈ tests) :
    known a = some false := by
  have h₁ := any_eq_false.mp hany a ha
  have h₂ := any_eq_false.mp hnone a ha
  cases hknown : known a with
  | none => simp [hknown] at h₂
  | some b =>
    cases b with
    | true => simp [hknown] at h₁
    | false => rfl

/-- A walk that passes no unknown test decides as every extension does. -/
theorem decideFirst_of_walk (h : Extends known hits) (hwalk : (walk known groups).2 = false) :
    decideFirst hits (entries groups) = (walk known groups).1 := by
  induction groups with
  | nil => rfl
  | cons g groups ih =>
    obtain ⟨tests, b⟩ := g
    rw [entries_cons, decideFirst_append, decideFirst_map]
    rw [walk] at hwalk ⊢
    split at hwalk
    · rename_i hany
      rw [if_pos hany, h.any hany]
      rfl
    · rename_i hany
      rw [if_neg hany]
      obtain ⟨hnone, hrest⟩ := Bool.or_eq_false_iff.mp hwalk
      have hmiss : tests.any hits = false := by
        rw [any_eq_false]
        intro a ha
        rw [h a false (known_eq_false (by simpa using hany) hnone ha)]
        simp
      rw [hmiss, ih hrest]
      rfl

/-- What a walk decides is decided by a test that is known to hit. -/
theorem exists_of_walk (hwalk : (walk known groups).1 = some b) :
    ∃ e ∈ entries groups, known e.1 = some true := by
  induction groups with
  | nil => cases hwalk
  | cons g groups ih =>
    obtain ⟨tests, c⟩ := g
    rw [walk] at hwalk
    split at hwalk
    · rename_i hany
      obtain ⟨a, ha, hknown⟩ := any_eq_true.mp hany
      refine ⟨(a, c), ?_, by simpa using hknown⟩
      simp [ha]
    · obtain ⟨e, he, hknown⟩ := ih hwalk
      exact ⟨e, by simp [he], hknown⟩

/-! ### All extensions -/

/-- Some extension comes to the test first. -/
def Reachable (known : α → Option Bool) (before : List (α × β)) (a : α) : Prop :=
  known a ≠ some false ∧ ∀ e ∈ before, known e.1 ≠ some true ∧ e.1 ≠ a

/-- Every entry that some extension comes to first decides `r`. -/
def Uniform (known : α → Option Bool) (l : List (α × β)) (r : β) : Prop :=
  ∀ before a b after, l = before ++ (a, b) :: after → Reachable known before a → b = r

/-- Some extension comes to the end. -/
def Passable (known : α → Option Bool) (l : List (α × β)) : Prop := ∀ e ∈ l, known e.1 ≠ some true

theorem extends_least (known : α → Option Bool) : Extends known fun a => known a == some true := by
  intro a b h
  cases b <;> simp [h]

/-- All extensions decide the same just where all entries that can come first do, and the
default does if the end can be reached. -/
theorem forall_decideFirst_iff [DecidableEq α] :
    (∀ hits, Extends known hits → (decideFirst hits l).getD d = r) ↔
      Uniform known l r ∧ (Passable known l → d = r) := by
  constructor
  · intro h
    constructor
    · intro before a b after hl ⟨hmaybe, hbefore⟩
      -- the known hits, and this test
      have hextends : Extends known fun x => known x == some true || x == a := by
        intro x b hx
        cases b with
        | true => simp [hx]
        | false =>
          have hne : x ≠ a := by
            rintro rfl
            exact hmaybe hx
          simp [hx, hne]
      have hfirst : decideFirst (fun x => known x == some true || x == a) l = some b := by
        refine decideFirst_eq_some.mpr ⟨before, a, after, hl, by simp, ?_⟩
        intro e he
        simp [hbefore e he]
      have hdecided := h _ hextends
      rwa [hfirst] at hdecided
    · intro hpassable
      have hnone : decideFirst (fun x => known x == some true) l = none := by
        refine decideFirst_eq_none.mpr fun e he => ?_
        simp [hpassable e he]
      have hdecided := h _ (extends_least known)
      rwa [hnone] at hdecided
  · intro ⟨huniform, hdefault⟩ hits hextends
    cases hdecided : decideFirst hits l with
    | none =>
      refine hdefault fun e he hknown => ?_
      have hmiss := decideFirst_eq_none.mp hdecided e he
      rw [hextends e.1 true hknown] at hmiss
      cases hmiss
    | some b =>
      obtain ⟨before, a, after, hl, ha, hbefore⟩ := decideFirst_eq_some.mp hdecided
      refine huniform before a b after hl ⟨fun hknown => ?_, fun e he => ⟨fun hknown => ?_, ?_⟩⟩
      · rw [hextends a false hknown] at ha
        cases ha
      · have hmiss := hbefore e he
        rw [hextends e.1 true hknown] at hmiss
        cases hmiss
      · rintro rfl
        rw [hbefore e he] at ha
        cases ha

end

end NetOrchestrator.Lib
