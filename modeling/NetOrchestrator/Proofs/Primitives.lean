import Mathlib.Data.Set.Insert
import NetOrchestrator.Daemon.Reconcile

/-!
# `Proofs.Primitives`: one lemma for each primitive

What a save, an executor call and a journal edit do to the state, as a run under a given
schedule and as a weakest precondition. Later proofs cite these and do not unfold the
primitives. A refused netlink request changes nothing, which is `Kernel`'s part of the
story and is proved first.
-/

namespace NetOrchestrator.Daemon

open Net Lib Lib.Call List Table

/-! ### Refused netlink requests -/

/-- A request that is refused leaves the kernel as it was. -/
def Clean {α : Type} (request : Kernel → Reply α) : Prop :=
  ∀ k e, (request k).1 = .error e → (request k).2 = k

variable {k : Kernel}

theorem clean_addRouteRow (row : KernelRoute) : Clean (·.addRouteRow row) := by
  intro k e h
  simp only [Kernel.addRouteRow] at h ⊢
  split
  · rfl
  · rw [if_neg ‹_›] at h
    cases h

theorem clean_removeRouteRows (selects : KernelRoute → Bool) :
    Clean (·.removeRouteRows selects) := by
  intro k e h
  simp only [Kernel.removeRouteRows] at h ⊢
  split
  · rw [if_pos ‹_›] at h
    cases h
  · rfl

theorem clean_addRuleRow (row : KernelRule) : Clean (·.addRuleRow row) := by
  intro k e h
  simp only [Kernel.addRuleRow] at h ⊢
  split
  · rfl
  · rw [if_neg ‹_›] at h
    cases h

theorem clean_removeRuleRows (selects : KernelRule → Bool) : Clean (·.removeRuleRows selects) := by
  intro k e h
  simp only [Kernel.removeRuleRows] at h ⊢
  split
  · rw [if_pos ‹_›] at h
    cases h
  · rfl

/-! ### The tables after a request -/

theorem mem_addRouteRow {row r : KernelRoute} : r ∈ (k.addRouteRow row).2.routes ↔
      r ∈ k.routes ∨ (k.routes.has row.key = false ∧ r = row) := by
  unfold Kernel.addRouteRow
  split
  · simp [*]
  · rename_i h
    simp only [Bool.not_eq_true] at h
    simp [mem_insert h, h]

theorem mem_removeRouteRows {selects : KernelRoute → Bool} {r : KernelRoute} :
    r ∈ (k.removeRouteRows selects).2.routes ↔ r ∈ k.routes ∧ selects r = false := by
  unfold Kernel.removeRouteRows
  split
  · exact mem_drop
  · rename_i h
    simp only [any_eq_true, not_exists, not_and, Bool.not_eq_true] at h
    exact ⟨fun hr => ⟨hr, h r hr⟩, And.left⟩

theorem mem_addRuleRow {row r : KernelRule} : r ∈ (k.addRuleRow row).2.rules ↔
      r ∈ k.rules ∨ (k.rules.has row.key = false ∧ r = row) := by
  unfold Kernel.addRuleRow
  split
  · simp [*]
  · rename_i h
    simp only [Bool.not_eq_true] at h
    simp [mem_insert h, h]

theorem mem_removeRuleRows {selects : KernelRule → Bool} {r : KernelRule} :
    r ∈ (k.removeRuleRows selects).2.rules ↔ r ∈ k.rules ∧ selects r = false := by
  unfold Kernel.removeRuleRows
  split
  · exact mem_drop
  · rename_i h
    simp only [any_eq_true, not_exists, not_and, Bool.not_eq_true] at h
    exact ⟨fun hr => ⟨hr, h r hr⟩, And.left⟩

/-- After an add, successful or refused, the key is taken. -/
theorem has_addRouteRow {row : KernelRoute} {key : RouteKey} :
    (k.addRouteRow row).2.routes.has key = true ↔ k.routes.has key = true ∨ row.key = key :=
  has_of_insert fun _ => mem_addRouteRow

theorem has_addRuleRow {row : KernelRule} {key : SystemRule} :
    (k.addRuleRow row).2.rules.has key = true ↔ k.rules.has key = true ∨ row.key = key :=
  has_of_insert fun _ => mem_addRuleRow

section
variable (k : Kernel)
variable (row : KernelRoute) (selects : KernelRoute → Bool)

@[simp]
theorem addRouteRow_rules : (k.addRouteRow row).2.rules = k.rules := by
  unfold Kernel.addRouteRow
  split <;> rfl

@[simp]
theorem addRouteRow_links : (k.addRouteRow row).2.links = k.links := by
  unfold Kernel.addRouteRow
  split <;> rfl

@[simp]
theorem addRouteRow_addresses : (k.addRouteRow row).2.addresses = k.addresses := by
  unfold Kernel.addRouteRow
  split <;> rfl

@[simp]
theorem removeRouteRows_rules : (k.removeRouteRows selects).2.rules = k.rules := by
  unfold Kernel.removeRouteRows
  split <;> rfl

@[simp]
theorem removeRouteRows_links : (k.removeRouteRows selects).2.links = k.links := by
  unfold Kernel.removeRouteRows
  split <;> rfl

@[simp]
theorem addRuleRow_routes (row : KernelRule) : (k.addRuleRow row).2.routes = k.routes := by
  unfold Kernel.addRuleRow
  split <;> rfl

@[simp]
theorem removeRuleRows_routes (selects : KernelRule → Bool) :
    (k.removeRuleRows selects).2.routes = k.routes := by
  unfold Kernel.removeRuleRows
  split <;> rfl

end

/-! ### Runs of the primitives -/

section
variable {core : DaemonCore} {vs : List (Verdict Fault)}

theorem save_of_proceed (h : nextVerdict vs = .proceed) :
    save core vs = (.ok (), { core with disk := core.journal }, vs.tail) := by
  rw [save, commit_of_proceed h, step_of_proceed h]

variable {f : Fault} {α : Type} {request : Kernel → Reply α}

theorem save_of_fail (h : nextVerdict vs = .fail f) :
    ∃ disk, save core vs = (.err f.report, { core with disk }, vs.tail) := by
  rw [save, commit_of_fail h]
  split
  · exact ⟨core.journal, rfl⟩
  · exact ⟨core.disk, rfl⟩

/-- `persist` returns, whether or not the save behind it succeeded. -/
theorem persist_run (core : DaemonCore) (h : ∀ v ∈ vs, Verdict.Survives v) :
    ∃ disk, persist core vs = (.ok (), { core with disk }, vs.tail) := by
  rcases nextVerdict_cases h with hv | ⟨f, hv⟩
  · exact ⟨core.journal, bind_of_ok (attempt_of_ok (save_of_proceed hv))⟩
  · obtain ⟨disk, hsave⟩ := @save_of_fail core _ _ hv
    exact ⟨disk, bind_of_ok (attempt_of_err hsave)⟩

theorem entryAt_run {index : Nat} {entry : JournalEntry} (h : core.journal[index]? = some entry) :
    entryAt index core vs = (.ok entry, core, vs) := by
  unfold entryAt
  rw [bind_of_ok (gets_apply ..), h]
  rfl

theorem onKernel_of_fail
    (h : nextVerdict vs = .fail f) : onKernel request core vs = (.err f.report, core, vs.tail) :=
  step_of_fail h

theorem onKernel_of_ok {a : α}
    (h : nextVerdict vs = .proceed) (hok : (request core.kernel).1 = .ok a) :
    onKernel request core vs =
      (.ok a, { core with kernel := (request core.kernel).2 }, vs.tail) := by
  unfold onKernel
  rw [step_of_proceed h, hok]

theorem onKernel_of_error {e : IoError} (hclean : Clean request) (h : nextVerdict vs = .proceed)
    (herr : (request core.kernel).1 = .error e) :
    onKernel request core vs = (.err e, core, vs.tail) := by
  unfold onKernel
  rw [step_of_proceed h, herr, hclean _ e herr]

end

/-! ### Weakest preconditions of the primitives -/

section
variable {V : Verdict Fault → Prop} {E : IoError → DaemonCore → Prop} {C : DaemonCore → Prop}
variable {index : Nat}
  {core : DaemonCore}
variable {Q : Unit → DaemonCore → Prop} {α : Type}

/-- A save that fails leaves one of the two documents. -/
theorem wp_save (hcrash : V .crash → C core) (hfail : ∀ f, V (.fail f) → E (Fault.report f) core)
    (hlate : ∀ f, V (.fail f) → E (Fault.report f) { core with disk := core.journal })
    (hok : Q () { core with disk := core.journal }) : wp V save Q E C core :=
  wp_commit hcrash hfail
    (fun f _ _ hf _ h => by cases h; exact hlate f hf)
    (fun a s' h => by cases h; exact hok)
    (fun e s' h => by cases h)

/-- After `persist` the disk is either what it was or the journal. -/
theorem wp_persist (hcrash : V .crash → C core)
    (hfail : Q () core) (hok : Q () { core with disk := core.journal }) :
    wp V persist Q E C core :=
  wp_tried (wp_save hcrash (fun _ _ => wp_pure hfail) (fun _ _ => wp_pure hok) (wp_pure hok))

theorem wp_position {uid : Nat} {owner : Owner} {Q : Option Nat → DaemonCore → Prop}
    (h : Q (core.journal.position uid owner) core) : wp V (position uid owner) Q E C core :=
  wp_gets h

theorem wp_entryAt {Q : JournalEntry → DaemonCore → Prop}
    (hsome : ∀ entry, core.journal[index]? = some entry → Q entry core)
    (hnone : core.journal[index]? = none → E ⟨.other, .text "index out of bounds"⟩ core) :
    wp V (entryAt index) Q E C core := by
  refine wp_read ?_
  cases h : core.journal[index]? with
  | some entry => exact wp_pure (hsome entry h)
  | none => exact wp_throw (hnone h)

/-- Look an entry up that is there. -/
theorem wp_atEntry {β : Type} {entry : JournalEntry} {f : JournalEntry → Prog β}
    {Q : β → DaemonCore → Prop} (hentry : core.journal[index]? = some entry)
    (h : wp V (f entry) Q E C core) : wp V (entryAt index >>= f) Q E C core := by
  refine wp_bind (wp_entryAt (fun e he => ?_) fun hnone => by rw [hentry] at hnone; cases hnone)
  rwa [← Option.some.inj (hentry.symm.trans he)]

theorem wp_setJournal {f : Journal → Journal}
    (h : Q () { core with journal := f core.journal }) : wp V (setJournal f) Q E C core :=
  wp_modify h

theorem wp_updateEntry {f : JournalEntry → JournalEntry}
    (h : Q () { core with journal := core.journal.modify index f }) :
    wp V (updateEntry index f) Q E C core :=
  wp_setJournal h

theorem wp_pushEntry {entry : JournalEntry}
    (h : Q () { core with journal := core.journal ++ [entry] }) :
    wp V (pushEntry entry) Q E C core :=
  wp_setJournal h

theorem wp_removeEntry (h : Q () { core with journal := core.journal.eraseIdx index }) :
    wp V (removeEntry index) Q E C core :=
  wp_setJournal h

theorem wp_onKernel {request : Kernel → Reply α} {Q : α → DaemonCore → Prop}
    (hcrash : V .crash → C core) (hfail : ∀ f, V (.fail f) → E (Fault.report f) core)
    (hok : ∀ a, (request core.kernel).1 = .ok a →
      Q a { core with kernel := (request core.kernel).2 })
    (herr : ∀ e, (request core.kernel).1 = .error e →
      E e { core with kernel := (request core.kernel).2 }) :
    wp V (onKernel request) Q E C core := by
  refine wp_step hcrash hfail ?_ ?_
  · intro a s' h
    obtain ⟨ha, rfl⟩ := Prod.mk.inj h
    exact hok a ha
  · intro e s' h
    obtain ⟨he, rfl⟩ := Prod.mk.inj h
    exact herr e he

theorem wp_query {answer : DaemonCore → Except IoError α}
    {Q : α → DaemonCore → Prop} (hcrash : V .crash → C core)
    (hfail : ∀ f, V (.fail f) → E (Fault.report f) core) (hok : ∀ a, answer core = .ok a → Q a core)
    (herr : ∀ e, answer core = .error e → E e core) : wp V (query answer) Q E C core := by
  refine wp_step hcrash hfail ?_ ?_
  · intro a s' h
    obtain ⟨ha, rfl⟩ := Prod.mk.inj h
    exact hok a ha
  · intro e s' h
    obtain ⟨he, rfl⟩ := Prod.mk.inj h
    exact herr e he

theorem wp_demand {check : Except Message Unit}
    (hok : check = .ok () → Q () core) (herr : ∀ m, check = .error m → E (invalidInput m) core) :
    wp V (demand check) Q E C core := by
  cases check with
  | ok u => exact wp_pure (hok rfl)
  | error m => exact wp_throw (herr m rfl)

end

/-! ### Invariants of the primitives -/

section
variable {V : Verdict Fault → Prop} {I : DaemonCore → Prop}
variable {α : Type}

theorem keeps_onKernel {request : Kernel → Reply α}
    (h : ∀ core, I core → I { core with kernel := (request core.kernel).2 }) :
    Keeps V I (onKernel request) :=
  Keeps.step h

theorem keeps_query (answer : DaemonCore → Except IoError α) : Keeps V I (query answer) :=
  Keeps.step fun _ h => h

theorem keeps_withPolicy {m : Prog α} (h : Keeps V I m) : Keeps V I (withPolicy m) :=
  Keeps.bind (Keeps.gets _) fun _ => Keeps.ite h (Keeps.throw _)

theorem keeps_entryAt (index : Nat) : Keeps V I (entryAt index) :=
  fun _ h => wp_entryAt (fun _ _ => h) (fun _ => h)

end

/-! ### What a journal lists -/

/-- The resources that some entry lists. -/
def Journal.listed (j : Journal) : Set OwnedResource := {r | ∃ entry ∈ j, r ∈ entry.resources}

/-- The resources that an entry at another index lists. -/
def Journal.listedBeside (j : Journal) (index : Nat) : Set OwnedResource :=
  {r | ∃ i entry, i ≠ index ∧ j[i]? = some entry ∧ r ∈ entry.resources}

section
variable {j : Journal} {index : Nat} {entry : JournalEntry}
variable {r : OwnedResource}
variable {f : JournalEntry → JournalEntry}

theorem getElem?_modify_of_ne {i : Nat} (h : i ≠ index) : (j.modify index f)[i]? = j[i]? := by
  simp [Ne.symm h]

theorem Journal.mem_listed_modify (h : j[index]? = some entry) :
    r ∈ Journal.listed (j.modify index f) ↔ r ∈ j.listedBeside index ∨ r ∈ (f entry).resources := by
  constructor
  · rintro ⟨e, he, hr⟩
    obtain ⟨i, hi⟩ := mem_iff_getElem?.mp he
    by_cases hidx : i = index
    · subst hidx
      have hsame : f entry = e := by simpa [h] using hi
      exact .inr (hsame ▸ hr)
    · rw [getElem?_modify_of_ne hidx] at hi
      exact .inl ⟨i, e, hidx, hi, hr⟩
  · rintro (⟨i, e, hidx, hi, hr⟩ | hr)
    · refine ⟨e, mem_iff_getElem?.mpr ⟨i, ?_⟩, hr⟩
      rw [getElem?_modify_of_ne hidx, hi]
    · exact ⟨f entry, mem_iff_getElem?.mpr ⟨index, by simp [h]⟩, hr⟩

theorem Journal.mem_listed_iff (h : j[index]? = some entry) :
    r ∈ j.listed ↔ r ∈ j.listedBeside index ∨ r ∈ entry.resources := by
  have := Journal.mem_listed_modify (f := id) h (r := r)
  rwa [modify_id] at this

theorem Journal.mem_listed_eraseIdx :
    r ∈ Journal.listed (j.eraseIdx index) ↔ r ∈ j.listedBeside index := by
  constructor
  · rintro ⟨e, he, hr⟩
    obtain ⟨i, hidx, hi⟩ := mem_eraseIdx_iff_getElem?.mp he
    exact ⟨i, e, hidx, hi, hr⟩
  · rintro ⟨i, e, hidx, hi, hr⟩
    exact ⟨e, mem_eraseIdx_iff_getElem?.mpr ⟨i, hidx, hi⟩, hr⟩

theorem Journal.mem_listed_append :
    r ∈ Journal.listed (j ++ [entry]) ↔ r ∈ j.listed ∨ r ∈ entry.resources := by
  simp [Journal.listed, or_and_right, exists_or]

end

/-! ### Positions in the journal -/

variable {j : Journal} {owner : Owner}

/-- The position is the index of an entry of that uid and owner. -/
theorem Journal.position_eq_some {uid index : Nat} (h : j.position uid owner = some index) :
    ∃ entry, j[index]? = some entry ∧ entry.uid = uid ∧ entry.owner = owner := by
  obtain ⟨hlt, hp, _⟩ := findIdx?_eq_some_iff_getElem.mp h
  simp only [Bool.and_eq_true, beq_iff_eq] at hp
  exact ⟨j[index], by simp [hlt], hp⟩

theorem Journal.position_eq_none {uid : Nat} :
    j.position uid owner = none ↔ ∀ entry ∈ j, ¬(entry.uid = uid ∧ entry.owner = owner) := by
  simp [Journal.position]

end NetOrchestrator.Daemon
