import Mathlib.Data.List.Basic

/-!
# `Lib.Call`: programs whose primitive steps can fail

A `Call` is a program over a state `σ` that a hostile environment may disturb. The
environment hands it a schedule: one `Verdict` for each primitive step, in order. A step
goes through, is refused with a fault and changes nothing, or is where the program is cut
off. A late fault finds a `commit` done. An exhausted schedule lets every later step through,
so a schedule is a finite pattern of disturbances and `[]` is the undisturbed run.

A program ends in one of three ways: with a value, with an error that a caller may catch
(`attempt`), or cut off, which nothing catches. The state survives in all three, so what
holds at every cut-off point holds at every instant between two primitive steps.

`wp V m Q E C s` is the weakest precondition of the three ends: `Q` after a value, `E`
after an error, `C` at a cut-off, for every schedule of verdicts in `V`. Restricting `V`
gives the undisturbed run (`Verdict.Quiet`) or the run without cut-offs
(`Verdict.Survives`) out of the same rules.

The module names nothing of the daemon. The state, the faults and the errors are
parameters.
-/

namespace NetOrchestrator.Lib

/-- What the environment decides about one primitive step. -/
inductive Verdict (φ : Type) where
  | proceed
  | fail (fault : φ)
  | crash
  deriving DecidableEq

/-- The verdicts of the undisturbed run. -/
def Verdict.Quiet {φ : Type} (v : Verdict φ) : Prop := v = .proceed

/-- The verdicts that let the program run to its end. -/
def Verdict.Survives {φ : Type} (v : Verdict φ) : Prop := v ≠ .crash

/-- Every verdict: the whole environment. -/
def Verdict.Any {φ : Type} (_ : Verdict φ) : Prop := True

/-- How a program ends. -/
inductive Outcome (ε α : Type) where
  | ok (value : α)
  | err (error : ε)
  | crash
  deriving DecidableEq

/-- A program over `σ`, disturbed by a schedule of verdicts. It returns the rest of the
schedule for the program that runs after it. -/
def Call (σ φ ε α : Type) : Type := σ → List (Verdict φ) → Outcome ε α × σ × List (Verdict φ)

namespace Call

variable {σ φ ε α β : Type}
variable {s : σ} {vs : List (Verdict φ)}

protected def pure (a : α) : Call σ φ ε α := fun s vs => (.ok a, s, vs)

protected def bind (m : Call σ φ ε α) (f : α → Call σ φ ε β) : Call σ φ ε β := fun s vs =>
  match m s vs with
  | (.ok a, s', vs') => f a s' vs'
  | (.err e, s', vs') => (.err e, s', vs')
  | (.crash, s', vs') => (.crash, s', vs')

instance : Monad (Call σ φ ε) where
  pure := Call.pure
  bind := Call.bind

/-- End with an error. -/
def throw (e : ε) : Call σ φ ε α := fun s vs => (.err e, s, vs)

/-- Read a part of the state. -/
def gets (f : σ → α) : Call σ φ ε α := fun s vs => (.ok (f s), s, vs)

/-- Change the state. This is bookkeeping of the program itself, not a primitive step: no
verdict is spent on it. -/
def modify (f : σ → σ) : Call σ φ ε Unit := fun s vs => (.ok (), f s, vs)

/-- Catch the error of `m`. The changes that `m` made before it stay. -/
def attempt (m : Call σ φ ε α) : Call σ φ ε (Except ε α) := fun s vs =>
  match m s vs with
  | (.ok a, s', vs') => (.ok (.ok a), s', vs')
  | (.err e, s', vs') => (.ok (.error e), s', vs')
  | (.crash, s', vs') => (.crash, s', vs')

/-- A check that does not touch the state. -/
def ofExcept : Except ε α → Call σ φ ε α
  | .ok a => pure a
  | .error e => throw e

/-- A primitive step. It spends one verdict. When the verdict lets it through, `act`
decides the answer and the new state; `report` is the error a fault shows up as. -/
def step (report : φ → ε) (act : σ → Except ε α × σ) : Call σ φ ε α := fun s vs =>
  match vs with
  | .fail f :: vs' => (.err (report f), s, vs')
  | .crash :: vs' => (.crash, s, vs')
  | _ =>
    match act s with
    | (.ok a, s') => (.ok a, s', vs.tail)
    | (.error e, s') => (.err e, s', vs.tail)

/-- A primitive step that takes effect before its last part, so that a `late` fault reports a step
that has acted. -/
def commit (report : φ → ε) (late : φ → Bool) (act : σ → Except ε α × σ) : Call σ φ ε α := fun s vs =>
  match vs with
  | .fail f :: vs' =>
    if late f then
      match act s with
      | (.ok _, s') => (.err (report f), s', vs')
      | (.error e, s') => (.err e, s', vs')
    else (.err (report f), s, vs')
  | _ => step report act s vs

/-- Run `m` for its effect. -/
def discard (m : Call σ φ ε α) : Call σ φ ε Unit := do
  let _ ← m
  pure ()

/-- Run `m` on a part of a larger state. -/
def within {τ ε' : Type} (get : τ → σ) (set : σ → τ → τ) (raise : ε → ε') (m : Call σ φ ε α) :
    Call τ φ ε' α := fun t vs =>
  match m (get t) vs with
  | (.ok a, s, vs') => (.ok a, set s t, vs')
  | (.err e, s, vs') => (.err (raise e), set s t, vs')
  | (.crash, s, vs') => (.crash, set s t, vs')

/-- Where `m` is cut off, the state is what `reboot` leaves of it and the run goes on. -/
def restarting (reboot : σ → σ) (m : Call σ φ ε Unit) : Call σ φ ε Unit := fun s vs =>
  match m s vs with
  | (.crash, s', vs') => (.ok (), reboot s', vs')
  | r => r

/-! ### Running a program under one schedule -/

section
variable (s : σ) (vs : List (Verdict φ))
variable {m : Call σ φ ε α}

@[simp]
theorem pure_apply (a : α) : (pure a : Call σ φ ε α) s vs = (.ok a, s, vs) := rfl

@[simp]
theorem throw_apply (e : ε) : (throw e : Call σ φ ε α) s vs = (.err e, s, vs) := rfl

@[simp]
theorem gets_apply (f : σ → α) : (gets f : Call σ φ ε α) s vs = (.ok (f s), s, vs) := rfl

@[simp]
theorem modify_apply (f : σ → σ) : (modify f : Call σ φ ε Unit) s vs = (.ok (), f s, vs) := rfl

theorem bind_apply (m : Call σ φ ε α) (f : α → Call σ φ ε β) : (m >>= f) s vs =
      match m s vs with
      | (.ok a, s', vs') => f a s' vs'
      | (.err e, s', vs') => (.err e, s', vs')
      | (.crash, s', vs') => (.crash, s', vs') := rfl

theorem attempt_apply (m : Call σ φ ε α) : attempt m s vs =
      match m s vs with
      | (.ok a, s', vs') => (.ok (.ok a), s', vs')
      | (.err e, s', vs') => (.ok (.error e), s', vs')
      | (.crash, s', vs') => (.crash, s', vs') := rfl

variable {s vs} {s' : σ} {vs' : List (Verdict φ)}
variable {f : α → Call σ φ ε β} {a : α} {e : ε}

/-- A program that returned goes on with its continuation. -/
theorem bind_of_ok (h : m s vs = (.ok a, s', vs')) : (m >>= f) s vs = f a s' vs' := by
  rw [bind_apply, h]

theorem bind_of_err (h : m s vs = (.err e, s', vs')) : (m >>= f) s vs = (.err e, s', vs') := by
  rw [bind_apply, h]

theorem attempt_of_ok (h : m s vs = (.ok a, s', vs')) :
    attempt m s vs = (.ok (.ok a), s', vs') := by
  rw [attempt_apply, h]

theorem attempt_of_err (h : m s vs = (.err e, s', vs')) :
    attempt m s vs = (.ok (.error e), s', vs') := by
  rw [attempt_apply, h]

end

/-- A finished run, put together from its outcome. -/
theorem eq_of_outcome {r : Outcome ε α × σ × List (Verdict φ)} {o : Outcome ε α} (h : r.1 = o) :
    r = (o, r.2.1, r.2.2) := by
  subst h
  rfl

/-- The verdict that the next primitive step meets. -/
def nextVerdict (vs : List (Verdict φ)) : Verdict φ := vs.headD .proceed

variable {report : φ → ε} {act : σ → Except ε α × σ} {f : φ} {late : φ → Bool} {m : Call σ φ ε α}

theorem step_of_proceed (h : nextVerdict vs = .proceed) : step report act s vs =
      match act s with
      | (.ok a, s') => (.ok a, s', vs.tail)
      | (.error e, s') => (.err e, s', vs.tail) := by
  cases vs with
  | nil => rfl
  | cons v vs =>
    simp only [nextVerdict, List.headD_cons] at h
    subst h
    rfl

theorem step_of_fail
    (h : nextVerdict vs = .fail f) : step report act s vs = (.err (report f), s, vs.tail) := by
  cases vs with
  | nil => cases h
  | cons v vs =>
    simp only [nextVerdict, List.headD_cons] at h
    subst h
    rfl

theorem commit_of_proceed
    (h : nextVerdict vs = .proceed) : commit report late act s vs = step report act s vs := by
  unfold commit
  split
  · cases h
  · rfl

theorem commit_of_fail (h : nextVerdict vs = .fail f) : commit report late act s vs =
      if late f then
        match act s with
        | (.ok _, s') => (.err (report f), s', vs.tail)
        | (.error e, s') => (.err e, s', vs.tail)
      else (.err (report f), s, vs.tail) := by
  cases vs with
  | nil => cases h
  | cons v vs =>
    simp only [nextVerdict, List.headD_cons] at h
    subst h
    rfl

/-- Without cut-offs the next step is let through or refused. -/
theorem nextVerdict_cases (h : ∀ v ∈ vs, Verdict.Survives v) :
    nextVerdict vs = .proceed ∨ ∃ f, nextVerdict vs = .fail f := by
  cases vs with
  | nil => exact .inl rfl
  | cons v vs =>
    cases v with
    | proceed => exact .inl rfl
    | fail f => exact .inr ⟨f, rfl⟩
    | crash => exact absurd rfl (h .crash (by simp))

theorem survives_tail (h : ∀ v ∈ vs, Verdict.Survives v) : ∀ v ∈ vs.tail, Verdict.Survives v :=
  fun v hv => h v (List.mem_of_mem_tail hv)

/-! ### Weakest preconditions -/

/-- The three ends of a run, each with its postcondition. -/
def Ends (V : Verdict φ → Prop) (Q : α → σ → Prop) (E : ε → σ → Prop) (C : σ → Prop) :
    Outcome ε α × σ × List (Verdict φ) → Prop
  | (.ok a, s, vs) => (∀ v ∈ vs, V v) ∧ Q a s
  | (.err e, s, vs) => (∀ v ∈ vs, V v) ∧ E e s
  | (.crash, s, _) => C s

/-- From `s`, under every schedule of verdicts in `V`, a value meets `Q`, an error meets
`E` and a cut-off meets `C`. -/
def wp (V : Verdict φ → Prop) (m : Call σ φ ε α) (Q : α → σ → Prop) (E : ε → σ → Prop)
    (C : σ → Prop) (s : σ) : Prop :=
  ∀ vs, (∀ v ∈ vs, V v) → Ends V Q E C (m s vs)

section
variable {V : Verdict φ → Prop} {Q : α → σ → Prop} {E : ε → σ → Prop} {C : σ → Prop} {s : σ}
variable {Q' : α → σ → Prop} {E' : ε → σ → Prop} {C' : σ → Prop} {a : α} {e : ε}
  {f : α → Call σ φ ε β} {R : α → σ → Prop} {report : φ → ε} {act : σ → Except ε α × σ}

theorem Ends.mono (hQ : ∀ a s, Q a s → Q' a s) (hE : ∀ e s, E e s → E' e s) (hC : ∀ s, C s → C' s)
    {r : Outcome ε α × σ × List (Verdict φ)} (h : Ends V Q E C r) : Ends V Q' E' C' r := by
  obtain ⟨o, s', vs'⟩ := r
  cases o with
  | ok a => exact ⟨h.1, hQ _ _ h.2⟩
  | err e => exact ⟨h.1, hE _ _ h.2⟩
  | crash => exact hC _ h

/-- Weaker postconditions, for all three ends. -/
theorem wp_mono {m : Call σ φ ε α}
    (h : wp V m Q E C s) (hQ : ∀ a s, Q a s → Q' a s) (hE : ∀ e s, E e s → E' e s)
    (hC : ∀ s, C s → C' s) : wp V m Q' E' C' s :=
  fun vs hvs => (h vs hvs).mono hQ hE hC

/-- Weaker postconditions for both ends that are reported. -/
theorem wp_ends {m : Call σ φ ε α}
    (h : wp V m Q E C s) (hQ : ∀ a s, Q a s → Q' a s) (hE : ∀ e s, E e s → E' e s) :
    wp V m Q' E' C s :=
  wp_mono h hQ hE (fun _ hc => hc)

/-- A weaker postcondition where the program returns. -/
theorem wp_post {m : Call σ φ ε α} (h : wp V m Q E C s)
    (hQ : ∀ a s, Q a s → Q' a s) : wp V m Q' E C s :=
  wp_ends h hQ (fun _ _ he => he)

/-- The same for a program that reports no error. -/
theorem wp_sure {m : Call σ φ ε α} (h : wp V m Q (fun _ _ => False) C s)
    (hQ : ∀ a s, Q a s → Q' a s) : wp V m Q' E C s :=
  wp_ends h hQ (fun _ _ hno => hno.elim)

theorem wp_pure (h : Q a s) : wp V (pure a) Q E C s := fun _ hvs => ⟨hvs, h⟩

theorem wp_throw (h : E e s) : wp V (throw e : Call σ φ ε α) Q E C s := fun _ hvs => ⟨hvs, h⟩

theorem wp_gets {f : σ → α} (h : Q (f s) s) : wp V (gets f) Q E C s := fun _ hvs => ⟨hvs, h⟩

theorem wp_modify {f : σ → σ} {Q : Unit → σ → Prop} (h : Q () (f s)) : wp V (modify f) Q E C s :=
  fun _ hvs => ⟨hvs, h⟩

theorem wp_bind {m : Call σ φ ε α} {Q : β → σ → Prop}
    (h : wp V m (fun a => wp V (f a) Q E C) E C s) : wp V (m >>= f) Q E C s := by
  intro vs hvs
  have hm := h vs hvs
  show Ends V Q E C (Call.bind m f s vs)
  unfold Call.bind
  generalize m s vs = r at hm
  obtain ⟨o, s', vs'⟩ := r
  cases o with
  | ok a => exact hm.2 vs' hm.1
  | err e => exact hm
  | crash => exact hm

/-- The rest runs from where `m` returns, and ends like it otherwise. -/
theorem wp_then {m : Call σ φ ε α} {Q : β → σ → Prop}
    (h : wp V m R E C s) (hf : ∀ a s', R a s' → wp V (f a) Q E C s') : wp V (m >>= f) Q E C s :=
  wp_bind (wp_post h hf)

/-- The same behind a program that reports no error. -/
theorem wp_after {m : Call σ φ ε α} {Q : β → σ → Prop}
    (h : wp V m R (fun _ _ => False) C s) (hf : ∀ a s', R a s' → wp V (f a) Q E C s') :
    wp V (m >>= f) Q E C s :=
  wp_bind (wp_sure h hf)

theorem wp_discard {m : Call σ φ ε α} {Q : Unit → σ → Prop} (h : wp V m (fun _ => Q ()) E C s) :
    wp V (discard m) Q E C s :=
  wp_bind (wp_post h (fun _ _ hq => wp_pure hq))

theorem wp_attempt {m : Call σ φ ε α} {Q : Except ε α → σ → Prop}
    (h : wp V m (fun a => Q (.ok a)) (fun e => Q (.error e)) C s) : wp V (attempt m) Q E C s := by
  intro vs hvs
  have hm := h vs hvs
  unfold attempt
  generalize m s vs = r at hm
  obtain ⟨o, s', vs'⟩ := r
  cases o with
  | ok a => exact hm
  | err e => exact hm
  | crash => exact hm

/-- A program goes on from what was read. -/
theorem wp_read {f : σ → α} {g : α → Call σ φ ε β} {Q : β → σ → Prop}
    (h : wp V (g (f s)) Q E C s) : wp V (gets f >>= g) Q E C s :=
  wp_bind (wp_gets h)

theorem wp_write {f : σ → σ} {g : Unit → Call σ φ ε β} {Q : β → σ → Prop}
    (h : wp V (g ()) Q E C (f s)) : wp V (modify f >>= g) Q E C s :=
  wp_bind (wp_modify h)

section
variable {m : Call σ φ ε α} {f : Except ε α → Call σ φ ε β} {Q : β → σ → Prop}

/-- A program goes on from either answer. -/
theorem wp_tried (h : wp V m (fun a => wp V (f (.ok a)) Q E C)
      (fun e => wp V (f (.error e)) Q E C) C s) : wp V (attempt m >>= f) Q E C s :=
  wp_bind (wp_attempt h)

theorem wp_either {R : α → σ → Prop} {F : ε → σ → Prop} (h : wp V m R F C s)
    (hok : ∀ a s', R a s' → wp V (f (.ok a)) Q E C s')
    (herr : ∀ e s', F e s' → wp V (f (.error e)) Q E C s') : wp V (attempt m >>= f) Q E C s :=
  wp_tried (wp_ends h hok herr)

end

theorem wp_ofExcept {x : Except ε α} (hok : ∀ a, x = .ok a → Q a s)
    (herr : ∀ e, x = .error e → E e s) : wp V (ofExcept x) Q E C s := by
  cases x with
  | ok a => exact wp_pure (hok a rfl)
  | error e => exact wp_throw (herr e rfl)

/-- A primitive step is cut off, is refused without effect, or acts. -/
theorem wp_step (hcrash : V .crash → C s)
    (hfail : ∀ f, V (.fail f) → E (report f) s) (hok : ∀ a s', act s = (.ok a, s') → Q a s')
    (herr : ∀ e s', act s = (.error e, s') → E e s') : wp V (step report act) Q E C s := by
  intro vs hvs
  have htail : ∀ v ∈ vs.tail, V v := fun v hv => hvs v (List.mem_of_mem_tail hv)
  unfold step
  split
  · exact ⟨htail, hfail _ (hvs _ (by simp))⟩
  · exact hcrash (hvs _ (by simp))
  · split
    · exact ⟨htail, hok _ _ ‹_›⟩
    · exact ⟨htail, herr _ _ ‹_›⟩

/-- The same for a step that a late fault finds done. -/
theorem wp_commit {late : φ → Bool}
    (hcrash : V .crash → C s) (hfail : ∀ f, V (.fail f) → E (report f) s)
    (hlate : ∀ f a s', V (.fail f) → late f = true → act s = (.ok a, s') → E (report f) s')
    (hok : ∀ a s', act s = (.ok a, s') → Q a s')
    (herr : ∀ e s', act s = (.error e, s') → E e s') : wp V (commit report late act) Q E C s := by
  intro vs hvs
  unfold commit
  split
  · rename_i f rest
    have hf : V (.fail f) := hvs _ (by simp)
    have hrest : ∀ v ∈ rest, V v := fun v hv => hvs v (by simp [hv])
    split
    · rename_i hisLate
      split
      · exact ⟨hrest, hlate _ _ _ hf hisLate ‹_›⟩
      · exact ⟨hrest, herr _ _ ‹_›⟩
    · exact ⟨hrest, hfail f hf⟩
  · exact wp_step hcrash hfail hok herr vs hvs

theorem wp_within {τ ε' : Type} {get : τ → σ} {set : σ → τ → τ} {raise : ε → ε'}
    {m : Call σ φ ε α} {t : τ} {Q : α → τ → Prop} {E : ε' → τ → Prop} {C : τ → Prop}
    (h : wp V m (fun a s => Q a (set s t)) (fun e s => E (raise e) (set s t))
      (fun s => C (set s t)) (get t)) : wp V (within get set raise m) Q E C t := by
  intro vs hvs
  have hm := h vs hvs
  unfold within
  generalize m (get t) vs = r at hm
  obtain ⟨o, s', vs'⟩ := r
  cases o with
  | ok a => exact hm
  | err e => exact hm
  | crash => exact hm

/-- The rest of the schedule is the new program's: nothing is known about it after a cut-off. -/
theorem wp_restarting {reboot : σ → σ} {m : Call σ φ ε Unit} {Q : Unit → σ → Prop} {D : σ → Prop}
    (h : wp Verdict.Any m Q E (fun s => Q () (reboot s)) s) :
    wp Verdict.Any (restarting reboot m) Q E D s := by
  intro vs hvs
  have hm := h vs hvs
  unfold restarting
  generalize m s vs = r at hm
  obtain ⟨o, s', vs'⟩ := r
  cases o with
  | ok a => exact hm
  | err e => exact hm
  | crash => exact ⟨fun _ _ => trivial, hm⟩

variable {m : Call σ φ ε α} {vs vs' : List (Verdict φ)} {s' : σ} (h : wp Verdict.Any m Q E C s)
include h

/-- What a weakest precondition says about a run that returned. -/
theorem of_wp_ok (hrun : m s vs = (.ok a, s', vs')) : Q a s' := by
  have hend := h vs fun _ _ => trivial
  rw [hrun] at hend
  exact hend.2

theorem of_wp_err (hrun : m s vs = (.err e, s', vs')) : E e s' := by
  have hend := h vs fun _ _ => trivial
  rw [hrun] at hend
  exact hend.2

end

/-- What holds of every run of `m` that returns. -/
abbrev Returns (m : Call σ φ ε α) (Q : α → σ → Prop) (s : σ) : Prop :=
  wp Verdict.Any m Q (fun _ _ => True) (fun _ => True) s

/-- Undisturbed, `m` returns and meets `Q`. -/
abbrev Succeeds (m : Call σ φ ε α) (Q : α → σ → Prop) (s : σ) : Prop :=
  wp Verdict.Quiet m Q (fun _ _ => False) (fun _ => False) s

theorem run_of_succeeds {Q : α → σ → Prop} (h : Succeeds m Q s) :
    ∃ a s' vs, m s [] = (.ok a, s', vs) ∧ Q a s' := by
  have hend := h [] (by simp)
  generalize m s [] = r at hend
  obtain ⟨o, s', vs⟩ := r
  cases o with
  | ok a => exact ⟨a, s', vs, rfl, hend.2⟩
  | err e => exact hend.2.elim
  | crash => exact hend.elim

theorem returns_trivial (m : Call σ φ ε α) (s : σ) : Returns m (fun _ _ => True) s := by
  intro vs _
  generalize m s vs = r
  obtain ⟨o, s', vs'⟩ := r
  cases o with
  | ok a => exact ⟨fun _ _ => trivial, trivial⟩
  | err e => exact ⟨fun _ _ => trivial, trivial⟩
  | crash => trivial

/-- Whatever `m` did, what comes after it has to keep the promise. -/
theorem returns_after {f : α → Call σ φ ε β} {Q : β → σ → Prop}
    (h : ∀ a s', Returns (f a) Q s') : Returns (m >>= f) Q s :=
  wp_bind (wp_post (returns_trivial m s) (fun a s' _ => h a s'))

/-! ### Invariants

An invariant of every primitive step of a program holds at each of its ends. -/

/-- `m` keeps `I`, however it ends and wherever it is cut off. -/
def Keeps (V : Verdict φ → Prop) (I : σ → Prop) (m : Call σ φ ε α) : Prop :=
  ∀ s, I s → wp V m (fun _ => I) (fun _ => I) I s

namespace Keeps
variable {V : Verdict φ → Prop} {I : σ → Prop}
variable {m : Call σ φ ε α}

/-- The state after a run, however it ended. -/
theorem after (h : Keeps Verdict.Any I m) {s : σ} (hs : I s)
    (vs : List (Verdict φ)) : I (m s vs).2.1 := by
  have hend := h s hs vs fun _ _ => trivial
  generalize m s vs = r at hend
  obtain ⟨o, s', vs'⟩ := r
  cases o with
  | ok a => exact hend.2
  | err e => exact hend.2
  | crash => exact hend

theorem pure (a : α) : Keeps V I (pure a : Call σ φ ε α) := fun _ h => wp_pure h

theorem throw (e : ε) : Keeps V I (throw e : Call σ φ ε α) := fun _ h => wp_throw h

theorem gets (f : σ → α) : Keeps V I (gets f : Call σ φ ε α) := fun _ h => wp_gets h

theorem ofExcept (x : Except ε α) : Keeps V I (ofExcept x : Call σ φ ε α) :=
  fun _ h => wp_ofExcept (fun _ _ => h) (fun _ _ => h)

theorem modify {f : σ → σ} (hf : ∀ s, I s → I (f s)) :
    Keeps V I (modify f : Call σ φ ε Unit) := fun s h => wp_modify (hf s h)

theorem bind {f : α → Call σ φ ε β} (hm : Keeps V I m)
    (hf : ∀ a, Keeps V I (f a)) : Keeps V I (m >>= f) :=
  fun s h => wp_bind (wp_post (hm s h) (fun a s' h' => hf a s' h'))

theorem attempt (hm : Keeps V I m) : Keeps V I (attempt m) := fun s h => wp_attempt (hm s h)

/-- A program goes on from either answer. -/
theorem either {f : Except ε α → Call σ φ ε β} (hm : Keeps V I m)
    (hok : ∀ a, Keeps V I (f (.ok a))) (herr : ∀ e, Keeps V I (f (.error e))) :
    Keeps V I (Call.attempt m >>= f) :=
  fun s h => wp_either (hm s h) (fun a s' hs => hok a s' hs) fun e s' hs => herr e s' hs

variable {report : φ → ε} {act : σ → Except ε α × σ}

theorem step (hact : ∀ s, I s → I (act s).2) : Keeps V I (step report act) :=
  fun s h => wp_step (fun _ => h) (fun _ _ => h)
    (fun _ _ he => by have := hact s h; rw [he] at this; exact this)
    (fun _ _ he => by have := hact s h; rw [he] at this; exact this)

theorem commit {late : φ → Bool}
    (hact : ∀ s, I s → I (act s).2) : Keeps V I (commit report late act) :=
  fun s h => wp_commit (fun _ => h) (fun _ _ => h)
    (fun _ _ _ _ _ he => by have := hact s h; rw [he] at this; exact this)
    (fun _ _ he => by have := hact s h; rw [he] at this; exact this)
    (fun _ _ he => by have := hact s h; rw [he] at this; exact this)

theorem ite {c : Prop} [Decidable c] {n : Call σ φ ε α} (hm : Keeps V I m)
    (hn : Keeps V I n) : Keeps V I (if c then m else n) := by
  split
  · exact hm
  · exact hn

end Keeps

/-- `m` keeps `I` to its end, and promises `C` where it is cut off. -/
def KeepsUntil (V : Verdict φ → Prop) (I C : σ → Prop) (m : Call σ φ ε α) : Prop :=
  ∀ s, I s → wp V m (fun _ => I) (fun _ => I) C s

namespace KeepsUntil
variable {V : Verdict φ → Prop} {I C : σ → Prop}
variable {m : Call σ φ ε α}

theorem pure (a : α) : KeepsUntil V I C (pure a : Call σ φ ε α) := fun _ h => wp_pure h

theorem gets (f : σ → α) : KeepsUntil V I C (gets f : Call σ φ ε α) := fun _ h => wp_gets h

theorem ofExcept (x : Except ε α) : KeepsUntil V I C (ofExcept x : Call σ φ ε α) :=
  fun _ h => wp_ofExcept (fun _ _ => h) (fun _ _ => h)

theorem bind {f : α → Call σ φ ε β} (hm : KeepsUntil V I C m)
    (hf : ∀ a, KeepsUntil V I C (f a)) : KeepsUntil V I C (m >>= f) :=
  fun s h => wp_bind (wp_post (hm s h) (fun a s' h' => hf a s' h'))

theorem attempt (hm : KeepsUntil V I C m) : KeepsUntil V I C (attempt m) :=
  fun s h => wp_attempt (hm s h)

theorem ite {c : Prop} [Decidable c] {n : Call σ φ ε α} (hm : KeepsUntil V I C m)
    (hn : KeepsUntil V I C n) : KeepsUntil V I C (if c then m else n) := by
  split
  · exact hm
  · exact hn

end KeepsUntil

end Call

end NetOrchestrator.Lib
