import Mathlib.Logic.Relation

/-!
# `Lib.Steps`: systems of atomic steps

Several parties take turns, each step atomic. `step` is what an action does, where it can be
taken at all, and `ok` says which actions a run may contain, given the state they start from.
`Steps` is the state after any interleaving. `Steps.invariant` is the induction rule: one fact
for each action gives the fact about every run. `runActions` takes a fixed sequence of actions;
`steps_of_run` says that it is a run.
-/

namespace NetOrchestrator.Lib

variable {σ ι : Type} {step : σ → ι → Option σ} {ok : σ → ι → Prop} {I : σ → Prop}
  {ok' : σ → ι → Prop}

/-- `t` is reached from `s` by actions that are admitted where they are taken. -/
def Steps (step : σ → ι → Option σ) (ok : σ → ι → Prop) : σ → σ → Prop :=
  Relation.ReflTransGen fun s t => ∃ i, ok s i ∧ step s i = some t

/-- What every admitted action keeps holds in every state of a run. -/
theorem Steps.invariant {s t : σ} (h : Steps step ok s t) (hs : I s)
    (hstep : ∀ s i t, I s → ok s i → step s i = some t → I t) : I t := by
  induction h with
  | refl => exact hs
  | tail _ hlast ih =>
    obtain ⟨i, hok, hi⟩ := hlast
    exact hstep _ i _ ih hok hi

/-- Take the actions one after another. -/
def runActions (step : σ → ι → Option σ) : σ → List ι → Option σ
  | s, [] => some s
  | s, i :: rest => (step s i).bind fun t => runActions step t rest

/-- Whether each of the actions is admitted where it is taken. -/
def AllAdmitted (step : σ → ι → Option σ) (ok : σ → ι → Prop) : σ → List ι → Prop
  | _, [] => True
  | s, i :: rest => ok s i ∧ ∀ t, step s i = some t → AllAdmitted step ok t rest

instance decidableAllAdmitted [∀ s i, Decidable (ok s i)] :
    ∀ (s : σ) (actions : List ι), Decidable (AllAdmitted step ok s actions)
  | _, [] => isTrue trivial
  | s, i :: rest =>
    match h : step s i with
    | none => decidable_of_iff (ok s i) (by simp [AllAdmitted, h])
    | some t =>
      have := decidableAllAdmitted t rest
      decidable_of_iff (ok s i ∧ AllAdmitted step ok t rest) (by simp [AllAdmitted, h])

theorem allAdmitted_true (s : σ) (actions : List ι) :
    AllAdmitted step (fun _ _ => True) s actions := by
  induction actions generalizing s with
  | nil => trivial
  | cons i rest ih => exact ⟨trivial, fun t _ => ih t⟩

variable {s : σ} {actions : List ι}

/-- Where an invariant holds, admitted actions are admitted in another sense too. -/
theorem AllAdmitted.imp (h : AllAdmitted step ok s actions) (hs : I s)
    (hstep : ∀ s i, I s → ok s i → ok' s i ∧ ∀ t, step s i = some t → I t) :
    AllAdmitted step ok' s actions := by
  induction actions generalizing s with
  | nil => trivial
  | cons i rest ih =>
    obtain ⟨hok, hkeep⟩ := hstep s i hs h.1
    exact ⟨hok, fun t ht => ih (h.2 t ht) (hkeep t ht)⟩

/-- Two senses of admitted that agree where an invariant holds admit the same runs. -/
theorem allAdmitted_iff (hs : I s) (hkeep : ∀ s i t, I s → step s i = some t → I t)
    (hiff : ∀ s i, I s → (ok s i ↔ ok' s i)) (actions : List ι) :
    AllAdmitted step ok s actions ↔ AllAdmitted step ok' s actions :=
  ⟨fun h => h.imp hs fun s i hI hok => ⟨(hiff s i hI).mp hok, fun t => hkeep s i t hI⟩,
    fun h => h.imp hs fun s i hI hok => ⟨(hiff s i hI).mpr hok, fun t => hkeep s i t hI⟩⟩

theorem steps_of_run {s t : σ} (hok : AllAdmitted step ok s actions)
    (h : runActions step s actions = some t) : Steps step ok s t := by
  induction actions generalizing s with
  | nil =>
    cases h
    exact .refl
  | cons i rest ih =>
    obtain ⟨u, hu, hrest⟩ := Option.bind_eq_some_iff.mp h
    exact .head ⟨i, hok.1, hu⟩ (ih (hok.2 u hu) hrest)

/-- A property that an action keeps exactly where it is admitted holds all along a run exactly
when every action of the run is admitted. `I` is what holds along every run. -/
theorem holds_along_iff {I P : σ → Prop}
    (hstep : ∀ s i t, I s → P s → step s i = some t → I t ∧ (P t ↔ ok s i))
    (hstuck : ∀ s i, step s i = none → ok s i) (actions : List ι) (hI : I s) (hP : P s) :
    (∀ n t, runActions step s (actions.take n) = some t → P t) ↔
      AllAdmitted step ok s actions := by
  induction actions generalizing s with
  | nil =>
    have hall : ∀ n t, runActions step s (([] : List ι).take n) = some t → P t := by
      intro n t ht
      simp only [List.take_nil, runActions, Option.some.injEq] at ht
      exact ht ▸ hP
    exact iff_of_true hall trivial
  | cons i rest ih =>
    cases hi : step s i with
    | none =>
      have hall : ∀ n t, runActions step s ((i :: rest).take n) = some t → P t := by
        intro n t ht
        cases n with
        | zero => exact (Option.some.inj ht) ▸ hP
        | succ n => simp [runActions, hi] at ht
      have hadmitted : AllAdmitted step ok s (i :: rest) :=
        ⟨hstuck s i hi, fun t ht => by simp [hi] at ht⟩
      exact iff_of_true hall hadmitted
    | some u =>
      obtain ⟨hIu, hPu⟩ := hstep s i u hI hP hi
      constructor
      · intro hall
        have hu : P u := hall 1 u (by simp [runActions, hi])
        refine ⟨hPu.mp hu, ?_⟩
        intro t ht
        obtain rfl : u = t := by simpa [hi] using ht
        apply (ih hIu hu).mp
        intro n v hv
        exact hall (n + 1) v (by simpa [runActions, hi] using hv)
      · intro hadmitted n t ht
        cases n with
        | zero => exact (Option.some.inj ht) ▸ hP
        | succ n =>
          have hu : P u := hPu.mpr hadmitted.1
          apply (ih hIu hu).mpr (hadmitted.2 u hi) n t
          simpa [runActions, hi] using ht

end NetOrchestrator.Lib
