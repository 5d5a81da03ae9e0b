import NetOrchestrator.Proofs.Primitives

/-!
# `Proofs.ManualEdits`: what a failed manual edit leaves behind

The four manual requests as one type, `ManualEdit`, and the question when a request that
returns an error has changed nothing. `recordAt_fails` is the heart of it: an edit whose
kernel request is refused takes its record back, but it has already overwritten the entry's
state, and it removes an entry that was empty before it started. A failed save takes nothing
back at all.

`manual_edit_atomic_iff` puts the cases together: the exact condition, on the state before
the request and the schedule, under which a failure leaves kernel and journal as they were.
-/

namespace NetOrchestrator.Daemon

open Net Lib Lib.Call List Verdict

/-- The four manual requests. -/
inductive ManualEdit where
  | routeAdd (params : NetRouteAddParams)
  | routeDel (route : SystemRoute)
  | ruleAdd (params : NetRuleAddParams)
  | ruleDel (rule : SystemRule)

def ManualEdit.run (uid : Nat) : ManualEdit → Prog Unit
  | .routeAdd params => netRouteAdd uid params
  | .routeDel route => do
      let _ ← netRouteDel uid route
      pure ()
  | .ruleAdd params => netRuleAdd uid params
  | .ruleDel rule => do
      let _ ← netRuleDel uid rule
      pure ()

/-- What an edit that passed its checks is about to do: the state it gives the entry, and
whether the kernel would take its request. -/
structure Recording where
  state : OwnedState
  accepted : Bool

/-- Whether a system rule or route request finds something to delete. -/
def Kernel.hasSystemRoute (k : Kernel) (r : SystemRoute) : Bool :=
  k.routes.rows.any fun row =>
    row.key == r.key && (r.protocol == 0 || row.route.protocol == r.protocol)

def Kernel.hasSystemRule (k : Kernel) (r : SystemRule) : Bool :=
  k.rules.rows.any fun row =>
    row.key == r.key && (r.protocol == 0 || row.rule.protocol == r.protocol)

/-- The edits that reach the write-ahead record. The others are refused by their checks, or
delete a managed object and record nothing. -/
def ManualEdit.recording (core : DaemonCore) : ManualEdit → Option Recording
  | .routeAdd params =>
    match prepareRoute core.view params with
    | .error _ => none
    | .ok route => some ⟨.applying, !core.kernel.routes.has route.key⟩
  | .routeDel route =>
    if isUneditableTable route.table ∨ route.kind ≠ .unicast ∨ route.managed then none
    else some ⟨.applied, core.kernel.hasSystemRoute route⟩
  | .ruleAdd params =>
    match validateRuleAdd params with
    | .error _ => none
    | .ok () =>
      some ⟨.applying,
        core.executors.policy && !core.kernel.rules.has (manualRule params).key⟩
  | .ruleDel rule =>
    if rule.priority = 0 ∨ isEditableAction rule.action = false ∨ rule.managed then none
    else some ⟨.applied, core.executors.policy && core.kernel.hasSystemRule rule⟩

/-- An error of the edit leaves the kernel and the journal in memory as they were. -/
def ManualEdit.AtomicOnError (edit : ManualEdit) (uid : Nat) (core : DaemonCore)
    (vs : List (Verdict Fault)) : Prop :=
  ∀ e core' vs', edit.run uid core vs = (.err e, core', vs') →
    core'.kernel = core.kernel ∧ core'.journal = core.journal

/-- The saves that come before the kernel request: creating the manual entry is a save of
its own. -/
def aheadSaves (core : DaemonCore) (uid : Nat) : Nat :=
  if (core.journal.position uid .manual).isSome then 1 else 2

/-- Taking the record back restores the manual entry: there was none, or it held something
and was in the state that the edit sets. -/
def Restorable (core : DaemonCore) (uid : Nat) (state : OwnedState) : Prop :=
  ∀ index entry, core.journal.position uid .manual = some index →
    core.journal[index]? = some entry → entry.resources ≠ [] ∧ entry.state = state

/-- The condition: the edit records nothing, or its saves go through and then either its
request does too or the manual entry is restored. -/
def ManualEdit.KeepsBooks (edit : ManualEdit) (uid : Nat) (core : DaemonCore)
    (vs : List (Verdict Fault)) : Prop :=
  ∀ recording, edit.recording core = some recording →
    (∀ v ∈ vs.take (aheadSaves core uid), v = .proceed) ∧
      ((recording.accepted = true ∧ nextVerdict (vs.drop (aheadSaves core uid)) = .proceed) ∨
        Restorable core uid recording.state)

/-! ### Recording at an entry -/

section
variable {α : Type} {core : DaemonCore} {vs : List (Verdict Fault)} {index : Nat}
  {entry : JournalEntry} {resource : OwnedResource} {state : OwnedState} {request : Prog Unit}
  {finish : Nat → Prog α} {vs₁ : List (Verdict Fault)}

/-- A record that is pushed and popped again leaves the new state behind. -/
theorem pop_push_setState (entry : JournalEntry) :
    ((entry.push resource).setState state).pop = entry.setState state := by
  simp [JournalEntry.push, JournalEntry.pop, JournalEntry.setState]

/-- What a refused edit makes of the journal. -/
def recordTakenBack (j : Journal) (index : Nat) (entry : JournalEntry) (state : OwnedState) :
    Journal :=
  if entry.resources = [] then j.eraseIdx index else j.modify index (·.setState state)

theorem dropRecord_run (core : DaemonCore) (vs : List (Verdict Fault))
    (resource : OwnedResource) (state : OwnedState) (h : core.journal[index]? = some entry) :
    dropRecord index
        { core with
          journal := core.journal.modify index fun e => (e.push resource).setState state } vs =
      (.ok (), { core with journal := recordTakenBack core.journal index entry state }, vs) := by
  have hpop : (core.journal.modify index fun e => (e.push resource).setState state).modify index
      JournalEntry.pop = core.journal.modify index (·.setState state) := by
    rw [modify_modify_eq]
    congr 1
    funext e
    exact pop_push_setState e
  have hentry : (core.journal.modify index (·.setState state))[index]? =
      some (entry.setState state) := by
    simp [h]
  unfold dropRecord updateEntry setJournal
  rw [bind_of_ok (modify_apply ..)]
  simp only [hpop]
  rw [bind_of_ok (entryAt_run hentry)]
  have herase : (core.journal.modify index (·.setState state)).eraseIdx index =
      core.journal.eraseIdx index := eraseIdx_modify_of_eq ..
  unfold recordTakenBack removeEntry setJournal
  by_cases hr : entry.resources = []
  · simp [JournalEntry.setState, hr]
    exact herase
  · simp [JournalEntry.setState, hr]

/-- The behaviour of a kernel request in a state with this kernel and these executors: it
returns when the kernel accepts it and it is let through, and else fails without effect. -/
structure Requests (core : DaemonCore) (request : Prog Unit) (accepted : Bool) : Prop where
  returns : ∀ c vs, c.kernel = core.kernel → c.executors = core.executors →
    accepted = true → nextVerdict vs = .proceed → ∃ c', request c vs = (.ok (), c', vs.tail)
  fails : ∀ c vs, (∀ v ∈ vs, Verdict.Survives v) → c.kernel = core.kernel →
    c.executors = core.executors → ¬(accepted = true ∧ nextVerdict vs = .proceed) →
    ∃ e vs', (∀ v ∈ vs', Verdict.Survives v) ∧ request c vs = (.err e, c, vs')

/-- The bookkeeping after success never fails. -/
def Finishes (finish : Nat → Prog α) : Prop :=
  ∀ index core vs, (∀ v ∈ vs, Verdict.Survives v) →
    ∃ a core' vs', finish index core vs = (.ok a, core', vs')

variable {f : Fault} {j : Journal} {m : Prog α} {core₁ : DaemonCore}

theorem recordAt_save_fails (core : DaemonCore) (index : Nat) (resource : OwnedResource)
    (state : OwnedState) (request : Prog Unit) (finish : Nat → Prog α)
    (hv : nextVerdict vs = .fail f) :
    ∃ disk, recordAt index resource state request finish core vs = (.err f.report,
        { core with
          journal := core.journal.modify index fun e => (e.push resource).setState state
          disk },
        vs.tail) := by
  obtain ⟨disk, hsave⟩ := @save_of_fail
    { core with journal := core.journal.modify index fun e => (e.push resource).setState state } _ _ hv
  unfold recordAt updateEntry setJournal
  rw [bind_of_ok (modify_apply ..)]
  exact ⟨disk, bind_of_err hsave⟩

theorem recordAt_returns (index : Nat) (resource : OwnedResource) (state : OwnedState)
    {accepted : Bool} (hreq : Requests core request accepted)
    (hfin : Finishes finish) (hvs : ∀ v ∈ vs, Survives v)
    (hv : nextVerdict vs = .proceed) (hacc : accepted = true)
    (hv' : nextVerdict vs.tail = .proceed) :
    ∃ a core' vs', recordAt index resource state request finish core vs = (.ok a, core', vs') := by
  unfold recordAt updateEntry setJournal
  rw [bind_of_ok (modify_apply ..), bind_of_ok (save_of_proceed hv)]
  obtain ⟨c', hc'⟩ := hreq.returns
    { core with
      journal := core.journal.modify index fun e => (e.push resource).setState state
      disk := core.journal.modify index fun e => (e.push resource).setState state }
    vs.tail rfl rfl hacc hv'
  obtain ⟨a, core', vs', h⟩ := hfin index c' vs.tail.tail (survives_tail (survives_tail hvs))
  exact ⟨a, core', vs', by rw [bind_of_ok (attempt_of_ok hc')]; exact h⟩

theorem recordAt_fails (resource : OwnedResource) (state : OwnedState)
    (finish : Nat → Prog α) {accepted : Bool} (hreq : Requests core request accepted)
    (hvs : ∀ v ∈ vs, Survives v) (hentry : core.journal[index]? = some entry)
    (hv : nextVerdict vs = .proceed) (hno : ¬(accepted = true ∧ nextVerdict vs.tail = .proceed)) :
    ∃ e disk vs', recordAt index resource state request finish core vs = (.err e,
        { core with journal := recordTakenBack core.journal index entry state, disk }, vs') := by
  unfold recordAt updateEntry setJournal
  rw [bind_of_ok (modify_apply ..), bind_of_ok (save_of_proceed hv)]
  obtain ⟨e, vs', hvs', h⟩ := hreq.fails
    { core with
      journal := core.journal.modify index fun e => (e.push resource).setState state
      disk := core.journal.modify index fun e => (e.push resource).setState state }
    vs.tail (survives_tail hvs) rfl rfl hno
  have hdrop := dropRecord_run
    { core with disk := core.journal.modify index fun e => (e.push resource).setState state }
    vs' resource state hentry
  obtain ⟨disk, hpersist⟩ := persist_run
    { core with
      journal := recordTakenBack core.journal index entry state
      disk := core.journal.modify index fun e => (e.push resource).setState state } hvs'
  refine ⟨e, disk, vs'.tail, ?_⟩
  rw [bind_of_ok (attempt_of_err h)]
  show (dropRecord index >>= fun _ => persist >>= fun _ => throw e) _ vs' = _
  rw [bind_of_ok hdrop, bind_of_ok hpersist]
  rfl

/-! ### The whole edit -/

/-- A schedule whose first verdicts all let their step through. -/
theorem take_one_proceeds : (∀ v ∈ vs.take 1, v = .proceed) ↔ nextVerdict vs = .proceed := by
  cases vs <;> simp [nextVerdict]

theorem take_two_proceeds : (∀ v ∈ vs.take 2, v = .proceed) ↔
      nextVerdict vs = .proceed ∧ nextVerdict vs.tail = .proceed := by
  rcases vs with _ | ⟨v, _ | ⟨w, vs⟩⟩ <;> simp [nextVerdict]

theorem modify_ne_of_entry {f : JournalEntry → JournalEntry}
    (h : j[index]? = some entry) (hf : f entry ≠ entry) : j.modify index f ≠ j := by
  intro heq
  have : (j.modify index f)[index]? = some entry := by rw [heq, h]
  simp [h] at this
  exact hf this

theorem push_ne (entry : JournalEntry) : (entry.push resource).setState state ≠ entry := by
  intro h
  have := congrArg (List.length ∘ JournalEntry.resources) h
  simp [JournalEntry.push, JournalEntry.setState] at this

/-- The record taken back, the journal is what it was exactly when the entry held something
and was in the new state already. -/
theorem recordTakenBack_eq_iff (h : j[index]? = some entry) :
    recordTakenBack j index entry state = j ↔ entry.resources ≠ [] ∧ entry.state = state := by
  unfold recordTakenBack
  by_cases hr : entry.resources = []
  · have hlt : index < j.length := (List.getElem?_eq_some_iff.mp h).1
    rw [if_pos hr]
    refine ⟨fun heq => ?_, fun hc => absurd hr hc.1⟩
    have := congrArg List.length heq
    rw [length_eraseIdx_of_lt hlt] at this
    omega
  · rw [if_neg hr]
    constructor
    · intro heq
      refine ⟨hr, ?_⟩
      by_contra hs
      refine modify_ne_of_entry h ?_ heq
      intro hst
      exact hs (congrArg JournalEntry.state hst).symm
    · rintro ⟨-, rfl⟩
      refine ext_getElem? fun i => ?_
      rw [getElem?_modify]
      by_cases hi : index = i
      · subst hi
        simp [h, JournalEntry.setState]
      · simp [hi]

/-- The run of an edit into an existing manual entry. -/
theorem recordEdit_of_entry {uid : Nat} (h : core.journal.position uid .manual = some index) :
    recordEdit uid resource state request finish core vs =
      recordAt index resource state request finish core vs := by
  have hm : manualEntry uid core vs = (.ok index, core, vs) := by
    unfold manualEntry position
    rw [bind_of_ok (gets_apply ..), h]
    rfl
  exact bind_of_ok hm

/-- The entry that the first manual edit of a user creates. -/
def freshManual (uid : Nat) : JournalEntry :=
  { uid, owner := .manual, state := .applying, resources := [] }

/-- The run of an edit that has to create the manual entry, when that save goes through. -/
theorem recordEdit_of_none {uid : Nat} (h : core.journal.position uid .manual = none)
    (hv : nextVerdict vs = .proceed) : recordEdit uid resource state request finish core vs =
      recordAt core.journal.length resource state request finish
        { core with
          journal := core.journal ++ [freshManual uid]
          disk := core.journal ++ [freshManual uid] } vs.tail := by
  have hm : manualEntry uid core vs = (.ok core.journal.length,
      { core with
        journal := core.journal ++ [freshManual uid]
        disk := core.journal ++ [freshManual uid] }, vs.tail) := by
    unfold manualEntry position pushEntry setJournal
    rw [bind_of_ok (gets_apply ..), h]
    simp only
    rw [bind_of_ok (modify_apply ..), bind_of_ok (save_of_proceed hv), bind_of_ok (gets_apply ..)]
    simp [freshManual]
  exact bind_of_ok hm

/-- The same when that save fails: the new entry stays in memory. -/
theorem recordEdit_unsaved {uid : Nat}
    (h : core.journal.position uid .manual = none) (hv : nextVerdict vs = .fail f) :
    ∃ disk, recordEdit uid resource state request finish core vs =
      (.err f.report, { core with journal := core.journal ++ [freshManual uid], disk }, vs.tail) := by
  obtain ⟨disk, hsave⟩ := @save_of_fail { core with journal := core.journal ++ [freshManual uid] } _ _ hv
  have hm : manualEntry uid core vs =
      (.err f.report, { core with journal := core.journal ++ [freshManual uid], disk }, vs.tail) := by
    unfold manualEntry position pushEntry setJournal
    rw [bind_of_ok (gets_apply ..), h]
    simp only
    rw [bind_of_ok (modify_apply ..)]
    exact bind_of_err hsave
  exact ⟨disk, bind_of_err hm⟩

/-- The run does not change the kernel or the journal when it fails. -/
def FailsClean {α : Type} (m : Prog α) (core : DaemonCore) (vs : List (Verdict Fault)) : Prop :=
  ∀ e core' vs', m core vs = (.err e, core', vs') →
    core'.kernel = core.kernel ∧ core'.journal = core.journal

/-- A run that ends in this error and state is atomic when the state is. -/
theorem atomic_of_run {e : IoError} (h : m core vs = (.err e, core₁, vs₁)) :
    FailsClean m core vs ↔ core₁.kernel = core.kernel ∧ core₁.journal = core.journal := by
  rw [FailsClean, h]
  constructor
  · intro hall
    exact hall e core₁ vs₁ rfl
  · rintro hc e' core' vs' heq
    cases heq
    exact hc

/-- A run that returns is atomic. -/
theorem atomic_of_ok {a : α} (h : m core vs = (.ok a, core₁, vs₁)) : FailsClean m core vs := by
  intro e core' vs' heq
  rw [h] at heq
  cases heq

variable {uid : Nat} {accepted : Bool} (hreq : Requests core request accepted)
  (hfin : Finishes finish) (hvs : ∀ v ∈ vs, Verdict.Survives v)
include hreq hfin hvs

theorem recordEdit_atomic_of_entry (hpos : core.journal.position uid .manual = some index)
    (hentry : core.journal[index]? = some entry) :
    FailsClean (recordEdit uid resource state request finish) core vs ↔
      nextVerdict vs = .proceed ∧ ((accepted = true ∧ nextVerdict vs.tail = .proceed) ∨
        (entry.resources ≠ [] ∧ entry.state = state)) := by
  rcases nextVerdict_cases hvs with hv | ⟨f, hv⟩
  · by_cases hacc : accepted = true ∧ nextVerdict vs.tail = .proceed
    · obtain ⟨a, core', vs', h⟩ := recordAt_returns index resource state hreq hfin hvs hv hacc.1 hacc.2
      rw [← recordEdit_of_entry hpos] at h
      exact ⟨fun _ => ⟨hv, .inl hacc⟩, fun _ => atomic_of_ok h⟩
    · obtain ⟨e, disk, vs', h⟩ := recordAt_fails resource state finish hreq hvs hentry hv hacc
      rw [← recordEdit_of_entry hpos] at h
      rw [atomic_of_run h]
      simp only [hv, hacc, false_or, true_and]
      exact recordTakenBack_eq_iff hentry
  · obtain ⟨disk, h⟩ := recordAt_save_fails core index resource state request finish hv
    rw [← recordEdit_of_entry hpos] at h
    rw [atomic_of_run h]
    simp only [hv, reduceCtorEq, false_and, iff_false]
    exact fun hc => modify_ne_of_entry hentry (push_ne entry) hc.2

theorem recordEdit_atomic_of_none (hpos : core.journal.position uid .manual = none) :
    FailsClean (recordEdit uid resource state request finish) core vs ↔
      nextVerdict vs = .proceed ∧ nextVerdict vs.tail = .proceed := by
  rcases nextVerdict_cases hvs with hv | ⟨f, hv⟩
  · have hentry : (core.journal ++ [freshManual uid])[core.journal.length]? =
        some (freshManual uid) := by simp
    have hreq' : Requests
        { core with
          journal := core.journal ++ [freshManual uid]
          disk := core.journal ++ [freshManual uid] } request accepted :=
      ⟨hreq.returns, hreq.fails⟩
    rcases nextVerdict_cases (survives_tail hvs) with hv' | ⟨f, hv'⟩
    · refine ⟨fun _ => ⟨hv, hv'⟩, fun _ => ?_⟩
      by_cases hacc : accepted = true ∧ nextVerdict vs.tail.tail = .proceed
      · obtain ⟨a, core', vs', h⟩ := recordAt_returns core.journal.length resource state hreq'
          hfin (survives_tail hvs) hv' hacc.1 hacc.2
        rw [← recordEdit_of_none hpos hv] at h
        exact atomic_of_ok h
      · obtain ⟨e, disk, vs', h⟩ := recordAt_fails resource state finish hreq'
          (survives_tail hvs) hentry hv' hacc
        rw [← recordEdit_of_none hpos hv] at h
        rw [atomic_of_run h]
        simp [recordTakenBack, freshManual, eraseIdx_append_of_length_le]
    · obtain ⟨disk, h⟩ := recordAt_save_fails
        { core with
          journal := core.journal ++ [freshManual uid]
          disk := core.journal ++ [freshManual uid] }
        core.journal.length resource state request finish hv'
      rw [← recordEdit_of_none hpos hv] at h
      rw [atomic_of_run h]
      simp only [hv', reduceCtorEq, and_false, iff_false]
      intro hc
      have := congrArg List.length hc.2
      simp at this
  · obtain ⟨disk, h⟩ := @recordEdit_unsaved _ core vs resource state request finish f uid hpos hv
    rw [atomic_of_run h]
    simp [hv]

/-- When a recorded edit is atomic on error. -/
theorem recordEdit_atomic_iff :
    FailsClean (recordEdit uid resource state request finish) core vs ↔
      (∀ v ∈ vs.take (aheadSaves core uid), v = .proceed) ∧
        ((accepted = true ∧ nextVerdict (vs.drop (aheadSaves core uid)) = .proceed) ∨
          Restorable core uid state) := by
  cases hpos : core.journal.position uid .manual with
  | some index =>
    obtain ⟨entry, hentry, -⟩ := Journal.position_eq_some hpos
    have hrest : Restorable core uid state ↔ entry.resources ≠ [] ∧ entry.state = state := by
      refine ⟨fun h => h index entry hpos hentry, fun h i e hi he => ?_⟩
      obtain rfl : index = i := by simpa [hpos] using hi
      obtain rfl : entry = e := by simpa [hentry] using he
      exact h
    rw [recordEdit_atomic_of_entry hreq hfin hvs hpos hentry, hrest]
    simp only [aheadSaves, hpos, Option.isSome_some, if_true, take_one_proceeds, drop_one]
  | none =>
    have hrest : Restorable core uid state := fun i e hi _ => by simp [hpos] at hi
    rw [recordEdit_atomic_of_none hreq hfin hvs hpos]
    simp [aheadSaves, hpos, take_two_proceeds, hrest]

end

/-! ### The kernel requests of the four edits -/

variable {core : DaemonCore}
variable {accepted : Bool} {α : Type} {m : Prog α}

theorem Requests.of_onKernel {request : Kernel → Reply Unit}
    (hclean : Clean request) (hacc : accepted = true ↔ (request core.kernel).1 = .ok ()) :
    Requests core (onKernel request) accepted := by
  constructor
  · intro c vs hk _ ha hv
    rw [← hk] at hacc
    exact ⟨_, onKernel_of_ok hv (hacc.mp ha)⟩
  · intro c vs hvs hk _ hno
    rw [← hk] at hacc
    rcases nextVerdict_cases hvs with hv | ⟨f, hv⟩
    · cases hr : (request c.kernel).1 with
      | ok u => exact absurd ⟨hacc.mpr hr, hv⟩ hno
      | error e => exact ⟨e, vs.tail, survives_tail hvs, onKernel_of_error hclean hv hr⟩
    · exact ⟨f.report, vs.tail, survives_tail hvs, onKernel_of_fail hv⟩

theorem Requests.of_withPolicy {request : Prog Unit} (h : Requests core request accepted) :
    Requests core (withPolicy request) (core.executors.policy && accepted) := by
  constructor
  · intro c vs hk hx ha hv
    simp only [Bool.and_eq_true] at ha
    obtain ⟨c', hc'⟩ := h.returns c vs hk hx ha.2 hv
    refine ⟨c', ?_⟩
    unfold withPolicy
    rw [bind_of_ok (gets_apply ..), hx, ha.1, if_pos rfl]
    exact hc'
  · intro c vs hvs hk hx hno
    by_cases hp : core.executors.policy = true
    · simp only [hp, Bool.true_and] at hno
      obtain ⟨e, vs', hvs', h'⟩ := h.fails c vs hvs hk hx hno
      refine ⟨e, vs', hvs', ?_⟩
      unfold withPolicy
      rw [bind_of_ok (gets_apply ..), hx, hp, if_pos rfl]
      exact h'
    · refine ⟨policyUnavailable, vs, hvs, ?_⟩
      unfold withPolicy
      rw [bind_of_ok (gets_apply ..), hx, if_neg hp]
      rfl

section
variable (core : DaemonCore)
variable (origin : Origin) (route : SystemRoute) (rule : SystemRule)

theorem requests_addSystemRoute :
    Requests core (addSystemRoute origin route) (!core.kernel.routes.has route.key) := by
  refine Requests.of_onKernel (clean_addRouteRow _) ?_
  simp only [Kernel.addSystemRoute, Kernel.addRouteRow, SystemRoute.key_install]
  cases core.kernel.routes.has route.key <;> simp

theorem requests_removeSystemRoute :
    Requests core (removeSystemRoute route) (core.kernel.hasSystemRoute route) := by
  refine Requests.of_onKernel (clean_removeRouteRows _) ?_
  simp only [Kernel.removeSystemRoute, Kernel.removeRouteRows, Kernel.hasSystemRoute]
  split
  · exact ⟨fun _ => rfl, fun _ => ‹_›⟩
  · exact ⟨fun h => absurd h ‹_›, fun h => by cases h⟩

theorem requests_addSystemRule : Requests core (addSystemRule origin rule)
      (core.executors.policy && !core.kernel.rules.has rule.key) := by
  refine Requests.of_withPolicy (Requests.of_onKernel (clean_addRuleRow _) ?_)
  simp only [Kernel.addSystemRule, Kernel.addRuleRow, SystemRule.key_install]
  cases core.kernel.rules.has rule.key <;> simp

theorem requests_removeSystemRule : Requests core (removeSystemRule rule)
      (core.executors.policy && core.kernel.hasSystemRule rule) := by
  refine Requests.of_withPolicy (Requests.of_onKernel (clean_removeRuleRows _) ?_)
  simp only [Kernel.removeSystemRule, Kernel.removeRuleRows, Kernel.hasSystemRule]
  split
  · exact ⟨fun _ => rfl, fun _ => ‹_›⟩
  · exact ⟨fun h => absurd h ‹_›, fun h => by cases h⟩

end

theorem finishes_finishAdd : Finishes finishAdd := by
  intro index core vs hvs
  unfold finishAdd updateEntry setJournal
  obtain ⟨disk, h⟩ := persist_run
    { core with journal := core.journal.modify index (·.setState .applied) } hvs
  exact ⟨(), _, _, by rw [bind_of_ok (modify_apply ..)]; exact h⟩

theorem finishes_finishSuppress : Finishes finishSuppress := by
  intro index core vs hvs
  unfold finishSuppress
  obtain ⟨disk, h⟩ := persist_run core hvs
  exact ⟨.suppressed, _, _, bind_of_ok h⟩

/-! ### Deleting a managed object -/

/-- The journal without the selected records of the user's manual entry. -/
def Journal.forgetManual (j : Journal) (uid : Nat) (selects : OwnedResource → Bool) : Journal :=
  match j.position uid .manual with
  | none => j
  | some index =>
    let kept := j.modify index fun entry =>
      entry.setResources (entry.resources.filter fun resource => !selects resource)
    if kept[index]?.any fun entry => entry.resources.isEmpty then kept.eraseIdx index
    else kept

theorem forgetManual_run (uid : Nat) (selects : OwnedResource → Bool) (core : DaemonCore)
    (vs : List (Verdict Fault)) : forgetManual uid selects core vs =
      (.ok (), { core with journal := core.journal.forgetManual uid selects }, vs) := by
  unfold forgetManual position updateEntry setJournal Journal.forgetManual
  rw [bind_of_ok (gets_apply ..)]
  cases hpos : core.journal.position uid .manual with
  | none => rfl
  | some index =>
    obtain ⟨entry, hentry, -⟩ := Journal.position_eq_some hpos
    have hkept : (core.journal.modify index fun entry =>
        entry.setResources (entry.resources.filter fun resource => !selects resource))[index]? =
        some (entry.setResources
          (entry.resources.filter fun resource => !selects resource)) := by
      simp [hentry]
    simp only [hkept, Option.any_some]
    rw [bind_of_ok (modify_apply ..), bind_of_ok (entryAt_run hkept)]
    unfold removeEntry setJournal
    split <;> rfl

theorem wp_forgetManual {V : Verdict Fault → Prop} {E : IoError → DaemonCore → Prop}
    {C : DaemonCore → Prop} {Q : Unit → DaemonCore → Prop} {uid : Nat}
    {selects : OwnedResource → Bool}
    (h : Q () { core with journal := core.journal.forgetManual uid selects }) :
    wp V (forgetManual uid selects) Q E C core := by
  intro vs hvs
  rw [forgetManual_run]
  exact ⟨hvs, h⟩

/-- Kernel and journal are those of `core`. -/
def Unchanged (core : DaemonCore) (_ : IoError) (core' : DaemonCore) : Prop :=
  core'.kernel = core.kernel ∧ core'.journal = core.journal

theorem wp_netRouteDelOwned_unchanged (core : DaemonCore) (uid : Nat) (route : SystemRoute) :
    wp Survives (netRouteDelOwned uid route) (fun _ _ => True) (Unchanged core)
      (fun _ => True) core := by
  have hremove : ∀ {Q : Unit → DaemonCore → Prop}, (∀ c, Q () c) →
      wp Survives (removeSystemRoute route) Q (Unchanged core) (fun _ => True) core :=
    fun hQ => wp_onKernel (fun _ => trivial) (fun _ _ => ⟨rfl, rfl⟩) (fun _ _ => hQ _)
      (fun e he => ⟨clean_removeRouteRows _ _ e he, rfl⟩)
  refine wp_read ?_
  split
  · refine wp_bind (hremove fun c => ?_)
    exact wp_bind (wp_forgetManual
      (wp_bind (wp_persist (fun _ => trivial) (wp_pure trivial) (wp_pure trivial))))
  · exact wp_throw ⟨rfl, rfl⟩
  · exact wp_bind (hremove fun c => wp_pure trivial)

theorem wp_netRuleDelOwned_unchanged (core : DaemonCore) (uid : Nat) (rule : SystemRule) :
    wp Survives (netRuleDelOwned uid rule) (fun _ _ => True) (Unchanged core)
      (fun _ => True) core := by
  have hremove : ∀ {Q : Unit → DaemonCore → Prop}, (∀ c, Q () c) →
      wp Survives (removeSystemRule rule) Q (Unchanged core) (fun _ => True) core := by
    intro Q hQ
    refine wp_read ?_
    split
    · exact wp_onKernel (fun _ => trivial) (fun _ _ => ⟨rfl, rfl⟩) (fun _ _ => hQ _)
        (fun e he => ⟨clean_removeRuleRows _ _ e he, rfl⟩)
    · exact wp_throw ⟨rfl, rfl⟩
  refine wp_read ?_
  split
  · refine wp_bind (hremove fun c => ?_)
    exact wp_bind (wp_forgetManual
      (wp_bind (wp_persist (fun _ => trivial) (wp_pure trivial) (wp_pure trivial))))
  · exact wp_throw ⟨rfl, rfl⟩
  · refine wp_bind (hremove fun c => ?_)
    exact wp_bind (wp_persist (fun _ => trivial) (wp_pure trivial) (wp_pure trivial))

/-! ### The exact condition -/

/-- What a weakest precondition says about one run that failed. -/
theorem unchanged_of_wp {vs : List (Verdict Fault)} (hvs : ∀ v ∈ vs, Survives v)
    (h : wp Survives m (fun _ _ => True) (Unchanged core) (fun _ => True) core) :
    FailsClean m core vs := by
  intro e core' vs' heq
  have hend := h vs hvs
  rw [heq] at hend
  exact hend.2

/-- Dropping the result of a program does not change how it fails. -/
theorem discard_err_iff {core core' : DaemonCore} {e : IoError} {vs vs' : List (Verdict Fault)} :
    (do let _ ← m; pure () : Prog Unit) core vs = (.err e, core', vs') ↔
      m core vs = (.err e, core', vs') := by
  rw [bind_apply]
  obtain ⟨o, c, w⟩ := m core vs
  cases o <;> simp

section
variable {edit : ManualEdit} {uid : Nat} {core : DaemonCore} {vs : List (Verdict Fault)}
  (hvs : ∀ v ∈ vs, Verdict.Survives v)
include hvs

/-- A managed delete, or an edit that its checks refuse, changes nothing when it fails. -/
theorem ManualEdit.atomic_of_unrecorded (h : edit.recording core = none) :
    edit.AtomicOnError uid core vs := by
  unfold ManualEdit.AtomicOnError
  cases edit with
  | routeAdd params =>
    refine unchanged_of_wp hvs (wp_read (wp_bind (wp_ofExcept ?_ ?_)))
    · intro route hroute
      simp [ManualEdit.recording, hroute] at h
    · exact fun _ _ => ⟨rfl, rfl⟩
  | routeDel route =>
    simp only [ManualEdit.run, discard_err_iff]
    refine unchanged_of_wp hvs ?_
    unfold netRouteDel
    split
    · exact wp_throw ⟨rfl, rfl⟩
    split
    · exact wp_throw ⟨rfl, rfl⟩
    split
    · exact wp_netRouteDelOwned_unchanged core uid route
    · simp_all [ManualEdit.recording]
  | ruleAdd params =>
    refine unchanged_of_wp hvs (wp_bind (wp_demand ?_ fun _ _ => ⟨rfl, rfl⟩))
    intro hok
    simp [ManualEdit.recording, hok] at h
  | ruleDel rule =>
    simp only [ManualEdit.run, discard_err_iff]
    refine unchanged_of_wp hvs ?_
    unfold netRuleDel
    split
    · exact wp_throw ⟨rfl, rfl⟩
    split
    · exact wp_throw ⟨rfl, rfl⟩
    split
    · exact wp_netRuleDelOwned_unchanged core uid rule
    · simp_all [ManualEdit.recording]

/-- An edit that passed its checks runs as a recorded edit. -/
theorem ManualEdit.atomic_of_recorded {recording : Recording}
    (h : edit.recording core = some recording) : edit.AtomicOnError uid core vs ↔
      (∀ v ∈ vs.take (aheadSaves core uid), v = .proceed) ∧
        ((recording.accepted = true ∧
            nextVerdict (vs.drop (aheadSaves core uid)) = .proceed) ∨
          Restorable core uid recording.state) := by
  unfold ManualEdit.AtomicOnError
  cases edit with
  | routeAdd params =>
    cases hroute : prepareRoute core.view params with
    | error e => simp [ManualEdit.recording, hroute] at h
    | ok route =>
      simp only [ManualEdit.recording, hroute, Option.some.injEq] at h
      subst h
      have hrun : netRouteAdd uid params core vs = recordEdit uid (.netRoute route) .applying
            (addSystemRoute (.daemon uid .manual) route) finishAdd core vs := by
        unfold netRouteAdd
        rw [bind_of_ok (gets_apply ..), hroute]
        rfl
      simp only [ManualEdit.run, hrun]
      exact recordEdit_atomic_iff (requests_addSystemRoute core _ route) finishes_finishAdd hvs
  | routeDel route =>
    simp only [ManualEdit.recording] at h
    split at h
    · cases h
    · rename_i hchecks
      simp only [not_or, not_not] at hchecks
      cases h
      simp only [ManualEdit.run, discard_err_iff, netRouteDel, hchecks, if_false, ne_eq,
        not_true_eq_false]
      exact recordEdit_atomic_iff (requests_removeSystemRoute core route)
        finishes_finishSuppress hvs
  | ruleAdd params =>
    cases hcheck : validateRuleAdd params with
    | error e => simp [ManualEdit.recording, hcheck] at h
    | ok u =>
      simp only [ManualEdit.recording, hcheck, Option.some.injEq] at h
      subst h
      have hrun : netRuleAdd uid params core vs =
          recordEdit uid (.netRule (manualRule params)) .applying
            (addSystemRule (.daemon uid .manual) (manualRule params)) finishAdd core vs := by
        unfold netRuleAdd
        rw [hcheck]
        rfl
      simp only [ManualEdit.run, hrun]
      exact recordEdit_atomic_iff (requests_addSystemRule core _ _) finishes_finishAdd hvs
  | ruleDel rule =>
    simp only [ManualEdit.recording] at h
    split at h
    · cases h
    · rename_i hchecks
      simp only [not_or, Bool.not_eq_false] at hchecks
      cases h
      simp only [ManualEdit.run, discard_err_iff, netRuleDel, hchecks, if_false,
        Bool.not_true, Bool.false_eq_true]
      exact recordEdit_atomic_iff (requests_removeSystemRule core rule) finishes_finishSuppress hvs

end

/-- A manual edit that fails has changed nothing exactly when it records nothing, or its
write-ahead saves go through and its request succeeds or the manual entry is restored. -/
theorem manual_edit_atomic_iff (core : DaemonCore) (uid : Nat) (edit : ManualEdit)
    (vs : List (Verdict Fault)) (hvs : ∀ v ∈ vs, Verdict.Survives v) :
    edit.AtomicOnError uid core vs ↔ edit.KeepsBooks uid core vs := by
  unfold ManualEdit.KeepsBooks
  cases hrec : edit.recording core with
  | none =>
    exact ⟨fun _ r hr => (by cases hr), fun _ => ManualEdit.atomic_of_unrecorded hvs hrec⟩
  | some recording =>
    rw [ManualEdit.atomic_of_recorded hvs hrec]
    exact ⟨fun h r hr => (by cases hr; exact h), fun h => h recording rfl⟩

/-- `10.1.0.0/24` on the link with index 2. -/
def labRoute : NetRouteAddParams :=
  { destination := .v4 0x0a010000 24
    table := none
    gateway := none
    interfaceName := none
    interfaceIndex := some 2
    metric := none
    prefSource := none }

/-- A daemon after one manual route has been added without trouble. -/
def afterLabRoute : DaemonCore :=
  (netRouteAdd 1000 labRoute (DaemonCore.fresh Kernel.empty View.bare Executors.all) []).2.1

/-- Adding the same route again is refused by the kernel, and the refusal leaves the manual
entry `applying`. -/
theorem repeated_route_add_not_atomic :
    ¬(ManualEdit.routeAdd labRoute).AtomicOnError 1000 afterLabRoute [] := by
  intro h
  have hstate := congrArg (List.map JournalEntry.state) (h _ _ _ rfl).2
  exact absurd hstate (by decide)

/-- A first edit that the kernel refuses does leave nothing behind. -/
theorem refused_first_edit_atomic :
    (ManualEdit.routeAdd labRoute).AtomicOnError 7 afterLabRoute [] := by
  refine (manual_edit_atomic_iff afterLabRoute 7 _ [] (by simp)).mpr ?_
  intro recording _
  have hnone : afterLabRoute.journal.position 7 .manual = none := by decide
  refine ⟨by simp, .inr fun index entry hpos => ?_⟩
  rw [hnone] at hpos
  cases hpos

end NetOrchestrator.Daemon
