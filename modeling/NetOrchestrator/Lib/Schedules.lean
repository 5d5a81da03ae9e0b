import NetOrchestrator.Lib.Loops

/-!
# `Lib.Schedules`: runs under one schedule

`wp` speaks about all schedules of some verdicts at once. Where it matters which step of a
program is refused, `under` speaks about one schedule and its postconditions see what is left
of it, so that the verdicts can be counted off along the program. A run that is cut off meets
every postcondition.

`Granted vs n` says that none of the next `n` steps is refused, and `scheduled` is a program
that brings its own schedule. Requests that carry their schedules let a condition on the steps
of a run speak about what the environment refuses.

A program is `Paced` when the state alone decides how many steps its undisturbed run takes. It
can then be driven to its end, whatever the schedule has for the program behind it.
-/

namespace NetOrchestrator.Lib.Call

open List Verdict

variable {σ φ ε α β : Type}

/-- None of the next `n` steps is refused. -/
def Granted (vs : List (Verdict φ)) (n : Nat) : Prop := ∀ v ∈ vs.take n, ∀ f, v ≠ .fail f

namespace Granted

variable {vs : List (Verdict φ)} {m n : Nat}

theorem next (h : Granted vs (n + 1)) (f : φ) : nextVerdict vs ≠ .fail f := by
  cases vs with
  | nil => simp [nextVerdict]
  | cons v vs => exact h v (by simp) f

theorem tail (h : Granted vs (n + 1)) : Granted vs.tail n := by
  cases vs with
  | nil => simp [Granted]
  | cons v vs => exact fun w hw => h w (mem_cons_of_mem v hw)

theorem mono (h : Granted vs n) (hle : m ≤ n) : Granted vs m :=
  fun v hv => h v (take_subset_take_left vs hle hv)

theorem append (h : Granted vs 1) (ht : Granted vs.tail n) : Granted vs (n + 1) := by
  cases vs with
  | nil => simp [Granted]
  | cons v vs =>
    intro w hw
    rcases mem_cons.mp hw with rfl | hw
    · exact h w (by simp)
    · exact ht w hw

theorem of_next (h : ∀ f, nextVerdict vs ≠ .fail f) : Granted vs 1 := by
  cases vs with
  | nil => simp [Granted]
  | cons v vs => simpa [Granted, nextVerdict] using h

end Granted

/-- The run of `m` from `s` under this schedule ends with a value and `Q`, with an error and
`E`, or cut off. -/
def under (vs : List (Verdict φ)) (m : Call σ φ ε α) (Q : α → σ → List (Verdict φ) → Prop)
    (E : ε → σ → List (Verdict φ) → Prop) (s : σ) : Prop :=
  match m s vs with
  | (.ok a, s', vs') => Q a s' vs'
  | (.err e, s', vs') => E e s' vs'
  | (.crash, _, _) => True

/-- Run `m` under a schedule of its own. -/
def scheduled (own : List (Verdict φ)) (m : Call σ φ ε α) : Call σ φ ε α := fun s vs =>
  ((m s own).1, (m s own).2.1, vs)

section
variable {vs : List (Verdict φ)} {Q : α → σ → List (Verdict φ) → Prop}
variable {m : Call σ φ ε α}
  {E : ε → σ → List (Verdict φ) → Prop} {s : σ}

theorem under_pure {a : α} (h : Q a s vs) : under vs (pure a) Q E s := h

theorem under_throw {e : ε} (h : E e s vs) : under vs (throw e : Call σ φ ε α) Q E s := h

theorem under_gets {f : σ → α} (h : Q (f s) s vs) : under vs (gets f) Q E s := h

theorem under_modify {f : σ → σ} {Q : Unit → σ → List (Verdict φ) → Prop} (h : Q () (f s) vs) :
    under vs (modify f) Q E s := h

theorem under_bind {f : α → Call σ φ ε β} {Q : β → σ → List (Verdict φ) → Prop}
    (h : under vs m (fun a s vs => under vs (f a) Q E s) E s) : under vs (m >>= f) Q E s := by
  unfold under at h ⊢
  rw [bind_apply]
  generalize m s vs = r at h
  obtain ⟨o, s', vs'⟩ := r
  cases o with
  | ok a => exact h
  | err e => exact h
  | crash => exact h

theorem under_discard {Q : Unit → σ → List (Verdict φ) → Prop}
    (h : under vs m (fun _ => Q ()) E s) : under vs (discard m) Q E s :=
  under_bind h

theorem under_attempt {Q : Except ε α → σ → List (Verdict φ) → Prop}
    (h : under vs m (fun a => Q (.ok a)) (fun e => Q (.error e)) s) :
    under vs (attempt m) Q E s := by
  unfold under at h ⊢
  rw [attempt_apply]
  generalize m s vs = r at h
  obtain ⟨o, s', vs'⟩ := r
  cases o with
  | ok a => exact h
  | err e => exact h
  | crash => exact h

theorem under_mono {Q' : α → σ → List (Verdict φ) → Prop}
    {E' : ε → σ → List (Verdict φ) → Prop} (h : under vs m Q E s)
    (hQ : ∀ a s vs, Q a s vs → Q' a s vs) (hE : ∀ e s vs, E e s vs → E' e s vs) :
    under vs m Q' E' s := by
  unfold under at h ⊢
  generalize m s vs = r at h
  obtain ⟨o, s', vs'⟩ := r
  cases o with
  | ok a => exact hQ _ _ _ h
  | err e => exact hE _ _ _ h
  | crash => exact h

variable {report : φ → ε} {act : σ → Except ε α × σ}

/-- A primitive step is refused by the next verdict, or acts. -/
theorem under_step (hfail : ∀ f, nextVerdict vs = .fail f → E (report f) s vs.tail)
    (hok : ∀ a s', Granted vs 1 → act s = (.ok a, s') → Q a s' vs.tail)
    (herr : ∀ e s', Granted vs 1 → act s = (.error e, s') → E e s' vs.tail) :
    under vs (step report act) Q E s := by
  cases hv : nextVerdict vs with
  | fail f =>
    unfold under
    rw [step_of_fail hv]
    exact hfail f hv
  | proceed =>
    have hgranted : Granted vs 1 := .of_next fun f hf => by rw [hv] at hf; cases hf
    unfold under
    rw [step_of_proceed hv]
    generalize hact : act s = r
    obtain ⟨o, s'⟩ := r
    cases o with
    | ok a => exact hok a s' hgranted hact
    | error e => exact herr e s' hgranted hact
  | crash =>
    cases vs with
    | nil => cases hv
    | cons v vs =>
      simp only [nextVerdict, headD_cons] at hv
      subst hv
      trivial

/-- The same for a step that a late fault finds done. -/
theorem under_commit {late : φ → Bool}
    (hfail : ∀ f, nextVerdict vs = .fail f → E (report f) s vs.tail)
    (hlate : ∀ f a s', nextVerdict vs = .fail f → late f = true → act s = (.ok a, s') →
      E (report f) s' vs.tail) (hok : ∀ a s', Granted vs 1 → act s = (.ok a, s') → Q a s' vs.tail)
    (herr : ∀ e s', act s = (.error e, s') → E e s' vs.tail) :
    under vs (commit report late act) Q E s := by
  cases hv : nextVerdict vs with
  | fail f =>
    unfold under
    rw [commit_of_fail hv]
    by_cases hisLate : late f = true
    · rw [if_pos hisLate]
      generalize hact : act s = r
      obtain ⟨o, s'⟩ := r
      cases o with
      | ok a => exact hlate f a s' hv hisLate hact
      | error e => exact herr e s' hact
    · rw [if_neg hisLate]
      exact hfail f hv
  | proceed =>
    unfold under
    rw [commit_of_proceed hv]
    exact under_step (fun f hf => by rw [hv] at hf; cases hf) hok fun e s' _ => herr e s'
  | crash =>
    cases vs with
    | nil => cases hv
    | cons v vs =>
      simp only [nextVerdict, headD_cons] at hv
      subst hv
      trivial

theorem under_within {τ ε' : Type} {get : τ → σ} {set : σ → τ → τ} {raise : ε → ε'}
    {t : τ} {Q : α → τ → List (Verdict φ) → Prop} {E : ε' → τ → List (Verdict φ) → Prop}
    (h : under vs m (fun a s => Q a (set s t)) (fun e s => E (raise e) (set s t)) (get t)) :
    under vs (within get set raise m) Q E t := by
  unfold under at h ⊢
  unfold within
  generalize m (get t) vs = r at h
  obtain ⟨o, s', vs'⟩ := r
  cases o with
  | ok a => exact h
  | err e => exact h
  | crash => exact h

theorem under_tolerate {p : ε → Bool} {m : Call σ φ ε Unit} {Q : Unit → σ → List (Verdict φ) → Prop}
    (h : under vs m Q (fun e s vs => if p e then Q () s vs else E e s vs) s) :
    under vs (tolerate p m) Q E s := by
  refine under_bind (under_attempt (under_mono h (fun _ _ _ hq => hq) ?_))
  intro e s' vs' he
  show under vs' (if p e then pure () else throw e) Q E s'
  split
  · rw [if_pos ‹_›] at he
    exact under_pure he
  · rw [if_neg ‹_›] at he
    exact under_throw he

/-- The invariant of a sweep may speak about what is left of the schedule. -/
theorem under_sweep {body : List α → α → Call σ φ ε Bool}
    {J : List α → List α → σ → List (Verdict φ) → Prop}
    (hbody : ∀ left a rest s vs, J left (a :: rest) s vs →
      under vs (body left a) (fun done => J (if done then left else left ++ [a]) rest) E s)
    {left l : List α} (h : J left l s vs) :
    under vs (sweep body left l) (fun out => J out []) E s := by
  induction l generalizing left s vs with
  | nil => exact under_pure h
  | cons a rest ih =>
    refine under_bind (under_mono (hbody left a rest s vs h) ?_ fun _ _ _ he => he)
    intro done s' vs' h'
    exact ih h'

/-- What holds under every schedule holds under this one. -/
theorem under_of_wp {Q : α → σ → Prop} {E : ε → σ → Prop} {C : σ → Prop} (h : wp Any m Q E C s) :
    under vs m (fun a s _ => Q a s) (fun e s _ => E e s) s := by
  have hend := h vs fun _ _ => trivial
  unfold under
  generalize m s vs = r at hend
  obtain ⟨o, s', vs'⟩ := r
  cases o with
  | ok a => exact hend.2
  | err e => exact hend.2
  | crash => trivial

theorem wp_scheduled {V : Verdict φ → Prop} {own : List (Verdict φ)}
    {Q : α → σ → Prop} {E : ε → σ → Prop}
    (h : under own m (fun a s _ => Q a s) (fun e s _ => E e s) s) :
    wp V (scheduled own m) Q E (fun _ => True) s := by
  intro vs hvs
  unfold under at h
  unfold scheduled
  generalize m s own = r at h
  obtain ⟨o, s', vs'⟩ := r
  cases o with
  | ok a => exact ⟨hvs, h⟩
  | err e => exact ⟨hvs, h⟩
  | crash => trivial

end

/-! ### Driving a program to its end -/

/-- Undisturbed, `m` takes so many steps from `s`, and returns `a` in `s'`. -/
def Takes (n : Nat) (m : Call σ φ ε α) (s : σ) (a : α) (s' : σ) : Prop :=
  ∀ rest, m s (List.replicate n .proceed ++ rest) = (.ok a, s', rest)

/-- The steps of an undisturbed run can be counted from the state. -/
def Paced (m : Call σ φ ε α) : Prop :=
  ∀ s, ∃ n o s', ∀ rest, m s (List.replicate n .proceed ++ rest) = (o, s', rest)

namespace Takes

variable {n k : Nat} {s s' s'' : σ}
variable {m : Call σ φ ε α}

theorem pure (a : α) : Takes 0 (pure a : Call σ φ ε α) s a s := fun _ => rfl

theorem gets (f : σ → α) : Takes 0 (gets f : Call σ φ ε α) s (f s) s := fun _ => rfl

theorem modify (f : σ → σ) : Takes 0 (modify f : Call σ φ ε Unit) s () (f s) := fun _ => rfl

theorem step {report : φ → ε} {act : σ → Except ε α × σ} {a : α} (h : act s = (.ok a, s')) :
    Takes 1 (step report act) s a s' := by
  intro rest
  rw [replicate_one, singleton_append, step_of_proceed rfl, h, tail_cons]

variable {a : α} (h : Takes n m s a s')
include h

theorem attempt : Takes n (attempt m) s (.ok a) s' := fun rest => attempt_of_ok (h rest)

theorem bind {f : α → Call σ φ ε β} {b : β} (hf : Takes k (f a) s' b s'') :
    Takes (n + k) (m >>= f) s b s'' := by
  intro rest
  rw [replicate_add, append_assoc, bind_of_ok (h _)]
  exact hf rest

variable {b : α} {t : σ}

/-- A longer run would have left nothing of the schedule that this one leaves. -/
theorem steps_le (h' : Takes k m s b t) : k ≤ n := by
  by_contra hlt
  obtain ⟨d, rfl⟩ := Nat.exists_eq_add_of_lt (Nat.lt_of_not_le hlt)
  have hrun := h' []
  rw [append_nil, Nat.add_assoc, replicate_add, h] at hrun
  cases hrun

/-- The number of the steps is that of the program. -/
theorem steps_eq (h' : Takes k m s b t) : n = k := Nat.le_antisymm (steps_le h' h) (steps_le h h')

/-- What every undisturbed run of `m` comes to. -/
theorem of_succeeds {Q : α → σ → Prop} (hm : Succeeds m Q s) : Q a s' := by
  have hquiet : ∀ v ∈ List.replicate n (Verdict.proceed : Verdict φ), Quiet v := by
    intro v hv
    exact (mem_replicate.mp hv).2
  have hend := hm _ hquiet
  have hrun := h []
  rw [append_nil] at hrun
  rw [hrun] at hend
  exact hend.2

end Takes

namespace Paced

variable {m : Call σ φ ε α}

theorem pure (a : α) : Paced (pure a : Call σ φ ε α) := fun s => ⟨0, .ok a, s, fun _ => rfl⟩

theorem gets (f : σ → α) : Paced (gets f : Call σ φ ε α) := fun s => ⟨0, .ok (f s), s, fun _ => rfl⟩

theorem modify (f : σ → σ) : Paced (modify f : Call σ φ ε Unit) :=
  fun s => ⟨0, .ok (), f s, fun _ => rfl⟩

theorem step (report : φ → ε) (act : σ → Except ε α × σ) : Paced (step report act) := by
  intro s
  cases hact : act s with
  | mk result s' =>
    cases result with
    | ok a => exact ⟨1, .ok a, s', Takes.step hact⟩
    | error e =>
      refine ⟨1, .err e, s', ?_⟩
      intro rest
      rw [replicate_one, singleton_append, step_of_proceed rfl, hact, tail_cons]

theorem bind {f : α → Call σ φ ε β} (hm : Paced m) (hf : ∀ a, Paced (f a)) : Paced (m >>= f) := by
  intro s
  obtain ⟨n, o, s', hrun⟩ := hm s
  cases o with
  | ok a =>
    obtain ⟨k, o, s'', hrest⟩ := hf a s'
    refine ⟨n + k, o, s'', ?_⟩
    intro rest
    rw [replicate_add, append_assoc, bind_of_ok (hrun _)]
    exact hrest rest
  | err e => exact ⟨n, .err e, s', fun rest => bind_of_err (hrun rest)⟩
  | crash => exact ⟨n, .crash, s', fun rest => by rw [bind_apply, hrun rest]⟩

theorem attempt (hm : Paced m) : Paced (attempt m) := by
  intro s
  obtain ⟨n, o, s', hrun⟩ := hm s
  cases o with
  | ok a => exact ⟨n, .ok (.ok a), s', fun rest => attempt_of_ok (hrun rest)⟩
  | err e => exact ⟨n, .ok (.error e), s', fun rest => attempt_of_err (hrun rest)⟩
  | crash => exact ⟨n, .crash, s', fun rest => by rw [attempt_apply, hrun rest]⟩

theorem ite {c : Prop} [Decidable c] {m' : Call σ φ ε α} (hm : Paced m) (hm' : Paced m') :
    Paced (if c then m else m') := by
  split
  · exact hm
  · exact hm'

/-- What an undisturbed run comes to, it comes to in so many steps. -/
theorem takes {Q : α → σ → Prop} {s : σ} (hm : Paced m)
    (h : Succeeds m Q s) : ∃ n a s', Takes n m s a s' ∧ Q a s' := by
  obtain ⟨n, o, s', hrun⟩ := hm s
  have hquiet : ∀ v ∈ List.replicate n (Verdict.proceed : Verdict φ), Quiet v := by
    intro v hv
    exact (mem_replicate.mp hv).2
  have hend := h _ hquiet
  have hplain := hrun []
  rw [append_nil] at hplain
  rw [hplain] at hend
  cases o with
  | ok a => exact ⟨n, a, s', hrun, Takes.of_succeeds hrun h⟩
  | err e => exact hend.2.elim
  | crash => exact hend.elim

end Paced

end NetOrchestrator.Lib.Call
