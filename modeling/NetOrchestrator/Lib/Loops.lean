import NetOrchestrator.Lib.Call

/-!
# `Lib.Loops`: loops over calls

Two loop shapes. `forEach` stops at the first error. `sweep` goes on past what it could
not finish and returns it: the body says of each element whether it is done, and sees what
was left so far. `tolerate` turns an error that only says "already so" into success.

Each loop has one rule: an invariant over the work left, kept by the body, holds at the
end. `Keeps` versions serve invariants of the state alone.
-/

namespace NetOrchestrator.Lib.Call

variable {σ φ ε α : Type}

/-- Run the body on each element. An error ends the loop. -/
def forEach (body : α → Call σ φ ε Unit) : List α → Call σ φ ε Unit
  | [] => pure ()
  | a :: rest => do
      body a
      forEach body rest

/-- Run the body on each element and return those it did not finish, in order. -/
def sweep (body : List α → α → Call σ φ ε Bool) : List α → List α → Call σ φ ε (List α)
  | left, [] => pure left
  | left, a :: rest => do
      let done ← body left a
      sweep body (if done then left else left ++ [a]) rest

/-- An error that `p` selects counts as success. -/
def tolerate (p : ε → Bool) (m : Call σ φ ε Unit) : Call σ φ ε Unit := do
  match ← attempt m with
  | .ok () => pure ()
  | .error e => if p e then pure () else throw e

/-- Elements that the body skips may as well not be there. -/
theorem forEach_filter {body : α → Call σ φ ε Unit} {p : α → Bool}
    (h : ∀ a, p a = false → body a = pure ()) (l : List α) :
    forEach body l = forEach body (l.filter p) := by
  induction l with
  | nil => rfl
  | cons a rest ih =>
    cases ha : p a with
    | true => rw [List.filter_cons_of_pos ha, forEach, forEach, ih]
    | false =>
      rw [List.filter_cons_of_neg (by simp [ha]), forEach, h a ha, ih]
      rfl

section
variable {V : Verdict φ → Prop} {E : ε → σ → Prop} {C : σ → Prop} {s : σ}

theorem wp_forEach {body : α → Call σ φ ε Unit} {J : List α → σ → Prop}
    (hbody : ∀ a rest s, J (a :: rest) s → wp V (body a) (fun _ => J rest) E C s)
    {l : List α} (h : J l s) : wp V (forEach body l) (fun _ => J []) E C s := by
  induction l generalizing s with
  | nil => exact wp_pure h
  | cons a rest ih =>
    refine wp_then (hbody a rest s h) ?_
    intro _ s' h'
    exact ih h'

theorem wp_sweep {body : List α → α → Call σ φ ε Bool} {J : List α → List α → σ → Prop}
    (hbody : ∀ left a rest s, J left (a :: rest) s →
      wp V (body left a) (fun done => J (if done then left else left ++ [a]) rest) E C s)
    {left l : List α} (h : J left l s) : wp V (sweep body left l) (fun out => J out []) E C s := by
  induction l generalizing left s with
  | nil => exact wp_pure h
  | cons a rest ih =>
    refine wp_then (hbody left a rest s h) ?_
    intro done s' h'
    exact ih h'

theorem wp_tolerate {p : ε → Bool} {m : Call σ φ ε Unit} {Q : Unit → σ → Prop}
    (h : wp V m Q (fun e s => if p e then Q () s else E e s) C s) :
    wp V (tolerate p m) Q E C s := by
  refine wp_either h ?_ ?_
  · intro a s' hq
    exact wp_pure hq
  · intro e s' he
    show wp V (if p e then pure () else throw e) Q E C s'
    split
    · rw [if_pos ‹_›] at he
      exact wp_pure he
    · rw [if_neg ‹_›] at he
      exact wp_throw he

end

namespace Keeps
variable {V : Verdict φ → Prop} {I : σ → Prop}

theorem forEach {body : α → Call σ φ ε Unit} (h : ∀ a, Keeps V I (body a)) (l : List α) :
    Keeps V I (forEach body l) :=
  fun _ hs => wp_forEach (J := fun _ => I) (fun a _ s h' => h a s h') hs

theorem tolerate {p : ε → Bool} {m : Call σ φ ε Unit} (h : Keeps V I m) :
    Keeps V I (tolerate p m) :=
  fun s hs => wp_tolerate (wp_mono (h s hs) (fun _ _ h' => h') (fun _ _ h' => by simpa)
    (fun _ h' => h'))

end Keeps

end NetOrchestrator.Lib.Call
