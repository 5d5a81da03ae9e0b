import NetOrchestrator.Lib.Call

/-!
# `Lib.Runs`: sequences of calls

A service takes requests one after another. `exec` is the program of a request and `ok`
says which requests a run may contain, given the state they start from. `Reaches` is the
state between two requests. `Visits` also looks inside the last request: it is the state
at any instant, the point of a cut-off included. A request that is cut off ends its run.

`Reaches.invariant` and `Visits.invariant` are the induction rules. Both ask for one fact
per request, a weakest precondition, and give the fact about every run.
-/

namespace NetOrchestrator.Lib

open Call Verdict

variable {σ φ ε α ι : Type}

/-- `t` is the state after some requests from `s`, each admitted by `ok` where it started
and each run to its end, under any schedule. -/
inductive Reaches (exec : ι → Call σ φ ε α) (ok : σ → ι → Prop) (s : σ) : σ → Prop
  | start : Reaches exec ok s s
  | call {t u : σ} {i : ι} {vs vs' : List (Verdict φ)} {o : Outcome ε α}
      (before : Reaches exec ok s t) (admitted : ok t i)
      (run : exec i t vs = (o, u, vs')) (alive : o ≠ .crash) : Reaches exec ok s u

/-- `t` is the state at some instant of a run from `s`. -/
inductive Visits (exec : ι → Call σ φ ε α) (ok : σ → ι → Prop) (s : σ) : σ → Prop
  | between {t : σ} (before : Reaches exec ok s t) : Visits exec ok s t
  | inside {t u : σ} {i : ι} {vs vs' : List (Verdict φ)} (before : Reaches exec ok s t)
      (admitted : ok t i) (run : exec i t vs = (.crash, u, vs')) : Visits exec ok s u

variable {exec : ι → Call σ φ ε α} {ok : σ → ι → Prop} {s t : σ} {I C : σ → Prop}

/-- An invariant that every admitted request keeps holds between any two requests. -/
theorem Reaches.invariant (hs : I s)
    (hstep : ∀ t i, I t → ok t i → wp Any (exec i) (fun _ => I) (fun _ => I) C t)
    (h : Reaches exec ok s t) : I t := by
  induction h with
  | start => exact hs
  | @call t u i vs vs' o _ admitted run alive ih =>
    have hend := hstep t i ih admitted vs (fun _ _ => trivial)
    rw [run] at hend
    cases o with
    | ok a => exact hend.2
    | err e => exact hend.2
    | crash => exact absurd rfl alive

/-- The same at every instant: `C` is what a request guarantees wherever it is cut off. -/
theorem Visits.invariant (hs : I s) (hC : ∀ t, I t → C t)
    (hstep : ∀ t i, I t → ok t i → wp Any (exec i) (fun _ => I) (fun _ => I) C t)
    (h : Visits exec ok s t) : C t := by
  cases h with
  | between before => exact hC _ (before.invariant hs hstep)
  | @inside t u i vs vs' before admitted run =>
    have hend := hstep t i (before.invariant hs hstep) admitted vs (fun _ _ => trivial)
    rw [run] at hend
    exact hend

end NetOrchestrator.Lib
