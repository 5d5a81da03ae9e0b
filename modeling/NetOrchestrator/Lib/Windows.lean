import Mathlib.Logic.Function.Basic
import NetOrchestrator.Lib.Steps

/-!
# `Lib.Windows`: calls that read a document in one step and write it in another

A call reads the document, thinks, and writes. Reading is one step and writing is one step, and
other calls may take theirs in between: that is the call's window. `Calls` says what the two steps
of each call do; a step may also refuse. `Calls.step` is the system of all calls over one
document.

Where the document has fields and a call means to set some of them, `settled` is what each field
was last set to. `settled_along_iff` says when every state of a run has the fields as they were
last set: exactly when nothing happened, in the window of any call that wrote, to the fields that
this call carries over from what it had read.
-/

namespace NetOrchestrator.Lib.Windows

open Option

variable {D S ι F : Type} {V : F → Type}

/-- What a call takes from the document, and the document it writes. -/
structure Calls (D S ι : Type) where
  read : ι → D → Option S
  write : ι → S → D → Option D

/-- One write: the call, what it had read, and the document that it left. -/
structure Written (D S ι : Type) where
  call : ι
  seen : S
  document : D

/-- The document, what the open calls have read, and what was written so far, latest first. -/
structure Shared (D S ι : Type) where
  document : D
  seen : ι → Option S
  written : List (Written D S ι)

inductive Action (ι : Type) where
  | read (i : ι)
  | write (i : ι)
  deriving DecidableEq

/-- Nothing is open and nothing was written. -/
def Shared.start (document : D) : Shared D S ι := ⟨document, fun _ => none, []⟩

/-- One step of one call. -/
def Calls.step [DecidableEq ι] (calls : Calls D S ι) (s : Shared D S ι) :
    Action ι → Option (Shared D S ι)
  | .read i =>
    (calls.read i s.document).map fun seen =>
      { s with seen := Function.update s.seen i (some seen) }
  | .write i =>
    (s.seen i).bind fun seen =>
      (calls.write i seen s.document).map fun document =>
        { document
          seen := Function.update s.seen i none
          written := ⟨i, seen, document⟩ :: s.written }

section
variable [DecidableEq ι] {calls : Calls D S ι} {s t : Shared D S ι} {i : ι}

/-- Reading leaves the document and the history as they are. -/
theorem step_read (h : calls.step s (.read i) = some t) :
    t.document = s.document ∧ t.written = s.written ∧
      ∃ seen, calls.read i s.document = some seen ∧
        t.seen = Function.update s.seen i (some seen) := by
  obtain ⟨seen, hread, rfl⟩ := map_eq_some_iff.mp h
  exact ⟨rfl, rfl, seen, hread, rfl⟩

/-- A call writes what it makes of what it has read. -/
theorem step_write (h : calls.step s (.write i) = some t) :
    ∃ seen, s.seen i = some seen ∧ calls.write i seen s.document = some t.document ∧
        t.seen = Function.update s.seen i none ∧
          t.written = ⟨i, seen, t.document⟩ :: s.written := by
  obtain ⟨seen, hseen, hmap⟩ := bind_eq_some_iff.mp h
  obtain ⟨document, hwrite, rfl⟩ := map_eq_some_iff.mp hmap
  exact ⟨seen, hseen, hwrite, rfl, rfl⟩

theorem step_of_read {seen : S} (h : calls.read i s.document = some seen) :
    calls.step s (.read i) = some { s with seen := Function.update s.seen i (some seen) } := by
  rw [Calls.step, h]
  rfl

theorem step_of_write {seen : S} {document : D} (hseen : s.seen i = some seen)
    (h : calls.write i seen s.document = some document) : calls.step s (.write i) =
      some ⟨document, Function.update s.seen i none, ⟨i, seen, document⟩ :: s.written⟩ := by
  rw [Calls.step, hseen, bind_some, h]
  rfl

/-- Which writes a run may contain, by what the call had read and what it finds. -/
def Writes (calls : Calls D S ι) (clean : ι → S → D → Prop) (s : Shared D S ι) : Action ι → Prop
  | .read _ => True
  | .write i => ∀ seen document, s.seen i = some seen →
      calls.write i seen s.document = some document → clean i seen s.document

/-- What every clean write keeps holds of the document in every state of a run. -/
theorem Calls.invariant {clean : ι → S → D → Prop} {I : D → Prop}
    (hwrite : ∀ i seen d d', I d → clean i seen d → calls.write i seen d = some d' → I d')
    (h : Steps calls.step (Writes calls clean) s t) (hs : I s.document) : I t.document := by
  refine h.invariant (I := fun s => I s.document) hs ?_
  intro s action t hI hok hstep
  cases action with
  | read i =>
    rw [(step_read hstep).1]
    exact hI
  | write i =>
    obtain ⟨seen, hseen, hdocument, -, -⟩ := step_write hstep
    exact hwrite i seen _ _ hI (hok seen _ hseen hdocument) hdocument

end

/-! ### Fields -/

section
variable [DecidableEq F] (get : (f : F) → D → V f) (edits : ι → S → List F)

/-- What the field was last set to, by a call that means to set it. -/
def settled (start : D) (f : F) : List (Written D S ι) → V f
  | [] => get f start
  | last :: earlier =>
    if f ∈ edits last.call last.seen then get f last.document else settled start f earlier

/-- Every field is as it was last set. -/
def Settled (start : D) (s : Shared D S ι) : Prop :=
  ∀ f, get f s.document = settled get edits start f s.written

variable {calls : Calls D S ι} {base : ι → S → D → (f : F) → V f} {start : D}
  {s t : Shared D S ι}

/-- Nothing has happened to the fields that the call carries over. -/
def Untouched (base : ι → S → D → (f : F) → V f) (i : ι) (seen : S) (document : D) : Prop :=
  ∀ f, f ∉ edits i seen → base i seen document f = get f document

variable {get edits}

variable (hbase : ∀ i seen d d', calls.write i seen d = some d' →
    ∀ f, f ∉ edits i seen → get f d' = base i seen d f)
include hbase

/-- One write leaves the fields as they were last set exactly when it changes none that it does
not mean to set. -/
theorem settled_write_iff {i : ι} {seen : S} (hs : Settled get edits start s)
    (hdocument : calls.write i seen s.document = some t.document)
    (hwritten : t.written = ⟨i, seen, t.document⟩ :: s.written) :
    Settled get edits start t ↔ Untouched get edits base i seen s.document := by
  constructor
  · intro ht f hf
    have hfield := ht f
    rw [hwritten, settled, if_neg hf, ← hs f, hbase _ _ _ _ hdocument f hf] at hfield
    exact hfield
  · intro hclean f
    rw [hwritten, settled]
    by_cases hf : f ∈ edits i seen
    · rw [if_pos hf]
    · rw [if_neg hf, ← hs f, hbase _ _ _ _ hdocument f hf, hclean f hf]

/-- Along a run every field is as it was last set exactly when the windows are clean. -/
theorem settled_along_iff [DecidableEq ι] (start : D) (actions : List (Action ι)) :
    (∀ n t, runActions calls.step (Shared.start start) (actions.take n) = some t →
        Settled get edits start t) ↔
      AllAdmitted calls.step (Writes calls (Untouched get edits base)) (Shared.start start)
        actions := by
  refine holds_along_iff (I := fun _ => True) ?_ ?_ actions trivial (fun f => rfl)
  · intro s action t _ hs hstep
    refine ⟨trivial, ?_⟩
    cases action with
    | read i =>
      obtain ⟨hdocument, hwritten, -⟩ := step_read hstep
      have ht : Settled get edits start t := by
        intro f
        rw [hdocument, hwritten]
        exact hs f
      exact iff_of_true ht trivial
    | write i =>
      obtain ⟨seen, hseen, hdocument, -, hwritten⟩ := step_write hstep
      rw [settled_write_iff hbase hs hdocument hwritten]
      constructor
      · intro hclean seen' _ hseen' _
        obtain rfl : seen = seen' := Option.some.inj (hseen.symm.trans hseen')
        exact hclean
      · intro hok
        exact hok seen _ hseen hdocument
  · intro s action hstuck
    cases action with
    | read i => trivial
    | write i =>
      intro seen document hseen hdocument
      simp [Calls.step, hseen, hdocument] at hstuck

end

end NetOrchestrator.Lib.Windows
