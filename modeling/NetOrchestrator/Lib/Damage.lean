import NetOrchestrator.Lib.Call

/-!
# `Lib.Damage`: steps that a fault may leave half done

A primitive step of `Lib.Call` that is refused changes nothing. `leaving` is a step that may change
something and still be refused: `damage` is what a fault leaves. The refusal is reported in a step
of its own, so that a run may also be cut off with the damage done.
-/

namespace NetOrchestrator.Lib.Call

variable {σ φ ε : Type}

/-- A step that acts, or that a fault interrupts. -/
def leaving (report : φ → ε) (act : σ → σ) (damage : φ → σ → σ) : Call σ φ ε Unit := do
  let tried : Except φ Unit ←
    within id (fun s _ => s) report (attempt (step id fun s => (.ok (), act s)))
  match tried with
  | .ok () => pure ()
  | .error fault => do
      modify (damage fault)
      step report fun s => (.error (report fault), s)

/-- Either the step acts, or some fault has done its damage. -/
theorem wp_leaving {report : φ → ε} {act : σ → σ} {damage : φ → σ → σ} {Q : Unit → σ → Prop}
    {E : ε → σ → Prop} {C : σ → Prop} {s : σ} (hok : Q () (act s)) (hcrash : C s)
    (hdamaged : ∀ fault, C (damage fault s))
    (hfail : ∀ fault fault', E (report fault') (damage fault s)) :
    wp Verdict.Any (leaving report act damage) Q E C s := by
  refine wp_bind (wp_within (wp_attempt ?_))
  refine wp_step (fun _ => hcrash) ?_ ?_ ?_
  · intro fault _
    refine wp_write ?_
    refine wp_step (fun _ => hdamaged fault) (fun fault' _ => hfail fault fault') ?_ ?_
    · intro a s' h
      cases h
    · intro e s' h
      cases h
      exact hfail fault fault
  · intro a s' h
    cases h
    exact wp_pure hok
  · intro e s' h
    cases h

end NetOrchestrator.Lib.Call
