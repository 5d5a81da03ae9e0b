import NetOrchestrator.Lib.Ledger
import NetOrchestrator.Proofs.GenericTeardown
import NetOrchestrator.Proofs.ManualSticks

/-!
# `Proofs.ManualRoundTrip`: suppress and restore

Users add routes and rules by hand and suppress those of other programs. Tearing every
manual entry down is meant to bring the kernel's tables back to what they were. The books
are the manual records: an added object claims its key, a suppressed one is a debt
(`NetOrchestrator.Lib.Ledger`), once for routes and once for rules.

`manual_edits_round_trip` is the result, for every run of edits and every order of
teardowns. Deleting a row that carries the daemon's protocol number and that no entry lists
keeps no restore record, so a run that names such a row of the initial table is left out.
-/

namespace NetOrchestrator.Daemon

open Net Lib Lib.Call List Verdict Table

/-! ### The books -/

/-- The routes of the kernel, whoever put them there. -/
def Kernel.routeRows (k : Kernel) : Set SystemRoute := {r | ∃ row ∈ k.routes, row.route = r}

/-- The rules of the kernel, whoever put them there. -/
def Kernel.ruleRows (k : Kernel) : Set SystemRule := {r | ∃ row ∈ k.rules, row.rule = r}

def routeBooks : Books OwnedResource SystemRoute RouteKey where
  key := SystemRoute.key
  mine r := r.protocol = rtprotNetworkOrchestrator
  claim
    | .netRoute r => some r.key
    | _ => none
  debt
    | .suppressedRoute r => some r.stored
    | _ => none
  single w k h := by cases w <;> first | rfl | cases h

def ruleBooks : Books OwnedResource SystemRule SystemRule where
  key := SystemRule.key
  mine r := r.protocol = rtprotNetworkOrchestrator
  claim
    | .netRule r => some r.key
    | _ => none
  debt
    | .suppressedRule r => some r.stored
    | _ => none
  single w k h := by cases w <;> first | rfl | cases h

/-- A record of a manual entry. What a user adds carries the daemon's protocol number. -/
def OwnedResource.IsManual : OwnedResource → Prop
  | .netRoute r => r.protocol = rtprotNetworkOrchestrator
  | .netRule r => r.protocol = rtprotNetworkOrchestrator
  | .suppressedRoute _ | .suppressedRule _ => True
  | _ => False

/-- Both books, over the tables of two kernels. -/
structure ManualBooks (init : Kernel) (records : Set OwnedResource) (k : Kernel) : Prop where
  manual : ∀ r ∈ records, r.IsManual
  routes : routeBooks.Balanced init.routeRows records k.routeRows
  rules : ruleBooks.Balanced init.ruleRows records k.ruleRows

theorem routeRows_unique (k : Kernel) :
    ∀ a ∈ k.routeRows, ∀ b ∈ k.routeRows, routeBooks.key a = routeBooks.key b → a = b := by
  rintro _ ⟨a, ha, rfl⟩ _ ⟨b, hb, rfl⟩ hkey
  rw [eq_of_key_eq ha hb hkey]

theorem ruleRows_unique (k : Kernel) :
    ∀ a ∈ k.ruleRows, ∀ b ∈ k.ruleRows, ruleBooks.key a = ruleBooks.key b → a = b := by
  rintro _ ⟨a, ha, rfl⟩ _ ⟨b, hb, rfl⟩ hkey
  rw [eq_of_key_eq ha hb hkey]

/-! ### The tables after a request -/

variable {k : Kernel} {o : Origin} {r x : SystemRoute} {w : OwnedResource}

theorem routeRows_add : x ∈ (k.addSystemRoute o r).2.routeRows ↔
      x ∈ k.routeRows ∨ ((∀ y ∈ k.routeRows, y.key ≠ r.key) ∧ x = r.stored) := by
  rw [← SystemRoute.key_install r o]
  exact shown_of_insert (fun _ => mem_addRouteRow) KernelRoute.route fun _ => rfl

theorem ruleRows_add {r x : SystemRule} : x ∈ (k.addSystemRule o r).2.ruleRows ↔
      x ∈ k.ruleRows ∨ ((∀ y ∈ k.ruleRows, y.key ≠ r.key) ∧ x = r.stored) := by
  rw [← SystemRule.key_install r o]
  exact shown_of_insert (fun _ => mem_addRuleRow) KernelRule.rule fun _ => rfl

theorem routeRows_remove : x ∈ (k.removeSystemRoute r).2.routeRows ↔
      x ∈ k.routeRows ∧ ¬(x.key = r.key ∧ (r.protocol = 0 ∨ x.protocol = r.protocol)) := by
  simp only [Kernel.routeRows, Set.mem_ofPred_eq, Kernel.removeSystemRoute, mem_removeRouteRows,
    KernelRoute.key]
  constructor
  · rintro ⟨row, ⟨hrow, hkeep⟩, rfl⟩
    exact ⟨⟨row, hrow, rfl⟩, by simpa [← Bool.not_eq_true] using hkeep⟩
  · rintro ⟨⟨row, hrow, rfl⟩, hkeep⟩
    exact ⟨row, ⟨hrow, by simpa [← Bool.not_eq_true] using hkeep⟩, rfl⟩

theorem ruleRows_remove {r x : SystemRule} : x ∈ (k.removeSystemRule r).2.ruleRows ↔
      x ∈ k.ruleRows ∧ ¬(x.key = r.key ∧ (r.protocol = 0 ∨ x.protocol = r.protocol)) := by
  simp only [Kernel.ruleRows, Set.mem_ofPred_eq, Kernel.removeSystemRule, mem_removeRuleRows,
    KernelRule.key]
  constructor
  · rintro ⟨row, ⟨hrow, hkeep⟩, rfl⟩
    exact ⟨⟨row, hrow, rfl⟩, by simpa [← Bool.not_eq_true] using hkeep⟩
  · rintro ⟨⟨row, hrow, rfl⟩, hkeep⟩
    exact ⟨row, ⟨hrow, by simpa [← Bool.not_eq_true] using hkeep⟩, rfl⟩

section
variable (k : Kernel) (o : Origin)

theorem routeRows_congr {k k' : Kernel} (h : k'.routes = k.routes) : k'.routeRows = k.routeRows := by
  simp only [Kernel.routeRows, h]

theorem ruleRows_congr {k k' : Kernel} (h : k'.rules = k.rules) : k'.ruleRows = k.ruleRows := by
  simp only [Kernel.ruleRows, h]

variable (r : SystemRoute)

@[simp]
theorem ruleRows_addSystemRoute : (k.addSystemRoute o r).2.ruleRows = k.ruleRows :=
  ruleRows_congr (addRouteRow_rules ..)

@[simp]
theorem ruleRows_removeSystemRoute : (k.removeSystemRoute r).2.ruleRows = k.ruleRows :=
  ruleRows_congr (removeRouteRows_rules ..)

@[simp]
theorem routeRows_addSystemRule (r : SystemRule) :
    (k.addSystemRule o r).2.routeRows = k.routeRows :=
  routeRows_congr (addRuleRow_routes ..)

@[simp]
theorem routeRows_removeSystemRule (r : SystemRule) :
    (k.removeSystemRule r).2.routeRows = k.routeRows :=
  routeRows_congr (removeRuleRows_routes ..)

end

/-! ### Releasing a record -/

theorem routeBooks_releases (hw : w.IsManual) (k : Kernel) :
    routeBooks.Releases w k.routeRows (k.release w).routeRows where
  claim key hkey x := by
    cases w with
    | netRoute r =>
      cases hkey
      have hp : r.protocol = rtprotNetworkOrchestrator := hw
      simp only [Kernel.release, routeRows_remove, hp, routeBooks]
      simp [rtprotNetworkOrchestrator]
    | _ => cases hkey
  debt r hr x := by
    cases w with
    | suppressedRoute d =>
      cases hr
      simp only [Kernel.release, routeRows_add, routeBooks, SystemRoute.key_stored]
    | _ => cases hr
  other hclaim hdebt := by
    cases w with
    | netRoute r => cases hclaim
    | suppressedRoute d => cases hdebt
    | netRule r => exact routeRows_removeSystemRule k r
    | suppressedRule r => exact routeRows_addSystemRule k .foreign r
    | route r => exact hw.elim
    | _ => rfl

theorem ruleBooks_releases (hw : w.IsManual) (k : Kernel) :
    ruleBooks.Releases w k.ruleRows (k.release w).ruleRows where
  claim key hkey x := by
    cases w with
    | netRule r =>
      cases hkey
      have hp : r.protocol = rtprotNetworkOrchestrator := hw
      simp only [Kernel.release, ruleRows_remove, hp, ruleBooks]
      simp [rtprotNetworkOrchestrator]
    | _ => cases hkey
  debt r hr x := by
    cases w with
    | suppressedRule d =>
      cases hr
      simp only [Kernel.release, ruleRows_add, ruleBooks, SystemRule.key_stored]
    | _ => cases hr
  other hclaim hdebt := by
    cases w with
    | netRule r => cases hclaim
    | suppressedRule d => cases hdebt
    | netRoute r => exact ruleRows_removeSystemRoute k r
    | suppressedRoute r => exact ruleRows_addSystemRoute k .foreign r
    | route r => exact hw.elim
    | _ => rfl

/-- Whatever a teardown has to put back can be put back. `clears` says of a record that the teardown
releases it. -/
structure PutsBack (clears : OwnedResource → Prop) (records : List OwnedResource) (k : Kernel) :
    Prop where
  routes : routeBooks.Unobstructed clears records k.routeRows
  rules : ruleBooks.Unobstructed clears records k.ruleRows

section
variable {init k : Kernel} {others : Set OwnedResource} {clears : OwnedResource → Prop}
  {left rest : List OwnedResource} {resource : OwnedResource}

/-- The books while an entry is swept: the records of the other entries, of what was left,
and of what is to come. -/
structure Sweeping (init : Kernel) (others : Set OwnedResource) (clears : OwnedResource → Prop)
    (left rest : List OwnedResource) (k : Kernel) : Prop where
  books : ManualBooks init (others ∪ {r | r ∈ left ∨ r ∈ rest}) k
  free : PutsBack clears rest k

theorem Sweeping.done (h : Sweeping init others clears left (resource :: rest) k) :
    Sweeping init others clears left rest (k.release resource) := by
  obtain ⟨books, free⟩ := h
  have hrecords : others ∪ {r | r ∈ left ∨ r ∈ resource :: rest} =
      insert resource (others ∪ {r | r ∈ left ∨ r ∈ rest}) := by
    ext r
    simp only [Set.mem_union, Set.mem_ofPred_eq, mem_cons, Set.mem_insert_iff]
    tauto
  have hmem : ∀ r ∈ resource :: rest, r ∈ others ∪ {r | r ∈ left ∨ r ∈ resource :: rest} :=
    fun r hr => .inr (.inr hr)
  have hmanual := books.manual resource (hmem resource (by simp))
  have hroute := routeBooks_releases hmanual k
  have hrule := ruleBooks_releases hmanual k
  have hfree : PutsBack clears rest (k.release resource) :=
    ⟨free.routes.release books.routes hmem (routeRows_unique init) hroute,
      free.rules.release books.rules hmem (ruleRows_unique init) hrule⟩
  rw [hrecords] at books
  exact ⟨⟨fun r hr => books.manual r (.inr hr),
    books.routes.release hroute fun r hr x hx => free.routes.head hr hx,
    books.rules.release hrule fun r hr x hx => free.rules.head hr hx⟩, hfree⟩

theorem Sweeping.leave (hleft : ¬clears resource)
    (h : Sweeping init others clears left (resource :: rest) k) :
    Sweeping init others clears (left ++ [resource]) rest k := by
  have hrecords : others ∪ {r | r ∈ left ++ [resource] ∨ r ∈ rest} =
      others ∪ {r | r ∈ left ∨ r ∈ resource :: rest} := by
    ext r
    simp only [Set.mem_union, Set.mem_ofPred_eq, mem_cons, mem_append,
      not_mem_nil, or_false, or_assoc]
  exact ⟨hrecords ▸ h.books, h.free.routes.leave hleft, h.free.rules.leave hleft⟩

end

/-! ### Runs -/

/-- The books of a daemon that holds manual entries only. -/
structure OnBooks (init : Kernel) (core : DaemonCore) : Prop where
  owners : ∀ entry ∈ core.journal, entry.owner = .manual
  books : ManualBooks init core.journal.listed core.kernel

/-- A teardown of one entry, and what its steps meet. -/
structure TeardownStep where
  index : Nat
  schedule : List (Verdict Fault)

def TeardownStep.exec (t : TeardownStep) : Prog Unit :=
  Call.scheduled t.schedule (teardownEntry t.index)

/-- The call does not fail where the record has its turn. Each release is one step, as long as there
is somebody to ask for the rules. -/
def TeardownStep.Clears (t : TeardownStep) (executors : Executors) (records : List OwnedResource)
    (c : OwnedResource) : Prop :=
  executors.policy = true ∧
    ∀ i, records[i]? = some c → ∀ f, nextVerdict (t.schedule.drop i) ≠ .fail f

/-- Whatever the entry owes can be put back. -/
def TeardownStep.admitted (core : DaemonCore) (t : TeardownStep) : Prop :=
  ∀ entry, core.journal[t.index]? = some entry →
    PutsBack (t.Clears core.executors entry.resources.reverse) entry.resources.reverse core.kernel

section
variable {V : Verdict Fault → Prop} {init : Kernel} {core : DaemonCore}
variable {index : Nat} {k : Kernel} {f : JournalEntry → JournalEntry}

theorem OnBooks.eraseIdx (h : ∀ e ∈ core.journal, e.owner = .manual)
    (hbooks : ManualBooks init (core.journal.listedBeside index) k) :
    OnBooks init { core with journal := core.journal.eraseIdx index, kernel := k } := by
  refine ⟨fun e he => h e (mem_of_mem_eraseIdx he), ?_⟩
  have hlisted : Journal.listed (core.journal.eraseIdx index) = core.journal.listedBeside index :=
    Set.ext fun _ => Journal.mem_listed_eraseIdx
  show ManualBooks init (Journal.listed (core.journal.eraseIdx index)) k
  rwa [hlisted]

theorem owners_modify {j : Journal}
    (h : ∀ e ∈ j, e.owner = .manual) (hf : ∀ e, (f e).owner = e.owner) :
    ∀ e ∈ j.modify index f, e.owner = .manual := by
  intro e he
  obtain ⟨i, hi⟩ := mem_iff_getElem?.mp he
  rw [getElem?_modify] at hi
  obtain ⟨e', he', rfl⟩ := Option.map_eq_some_iff.mp hi
  have howner := h e' (mem_of_getElem? he')
  split
  · rw [hf, howner]
  · exact howner

theorem OnBooks.modify {entry : JournalEntry} (h : ∀ e ∈ core.journal, e.owner = .manual)
    (hentry : core.journal[index]? = some entry) (howner : ∀ e, (f e).owner = e.owner)
    (hbooks : ManualBooks init
      (core.journal.listedBeside index ∪ {r | r ∈ (f entry).resources}) k) :
    OnBooks init { core with journal := core.journal.modify index f, kernel := k } := by
  have hlisted : Journal.listed (core.journal.modify index f) =
      core.journal.listedBeside index ∪ {r | r ∈ (f entry).resources} :=
    Set.ext fun _ => Journal.mem_listed_modify hentry
  refine ⟨owners_modify h howner, ?_⟩
  show ManualBooks init (Journal.listed (core.journal.modify index f)) k
  rwa [hlisted]

/-- A manual record is released, or left when the step fails. -/
theorem OwnedResource.IsManual.under_released {vs : List (Verdict Fault)} {left : List OwnedResource}
    {resource : OwnedResource} {Q : Bool → DaemonCore → List (Verdict Fault) → Prop}
    {E : IoError → DaemonCore → List (Verdict Fault) → Prop} (hw : resource.IsManual)
    (hok : Q true { core with kernel := core.kernel.release resource } vs.tail)
    (hfail : ∀ f, nextVerdict vs = .fail f → Q false core vs.tail)
    (hnone : core.executors.policy = false → Q false core vs) :
    under vs (releasedGeneric left resource) Q E core := by
  refine under_bind (under_attempt ?_)
  have hrule : ∀ {request : Kernel → Reply Unit} {p : IoError → Bool},
      (∀ k e, (request k).1 = .error e → p e = true) → (∀ f : Fault, p f.report = false) →
      p policyUnavailable = false → core.kernel.release resource = (request core.kernel).2 →
      under vs (Call.tolerate p (withPolicy (onKernel request)))
        (fun _ c vs => under vs (pure true : Prog Bool) Q E c)
        (fun _ c vs => under vs (pure false : Prog Bool) Q E c) core := by
    intro request p hp hfault hserved heq
    refine under_tolerate (under_bind (under_gets ?_))
    by_cases hpolicy : core.executors.policy = true
    · rw [if_pos hpolicy]
      exact under_tolerated hp hfault (heq ▸ hok) hfail
    · rw [if_neg hpolicy]
      refine under_throw ?_
      rw [hserved]
      exact hnone (by simpa using hpolicy)
  cases resource with
  | netRoute r =>
    exact under_tolerate (under_tolerated (fun k e => isNotFound_of_removeRouteRows)
      isNotFound_report hok hfail)
  | suppressedRoute r =>
    exact under_tolerate (under_tolerated (fun k e => isAlreadyExists_of_addRouteRow)
      isAlreadyExists_report hok hfail)
  | netRule r => exact hrule (fun k e => isNotFound_of_removeRuleRows) isNotFound_report rfl rfl
  | suppressedRule r =>
    exact hrule (fun k e => isAlreadyExists_of_addRuleRow) isAlreadyExists_report rfl rfl
  | _ => exact hw.elim

/-- The sweep of a manual entry. The records to come and the rest of the schedule are in step. -/
theorem under_sweepManual {t : TeardownStep} {others : Set OwnedResource}
    {records : List OwnedResource}
    (hstart : Sweeping init others (t.Clears core.executors records) [] records core.kernel) :
    under t.schedule (Call.sweep releasedGeneric [] records)
      (fun failed c _ => ∃ k, Sweeping init others (t.Clears core.executors records) failed [] k ∧
        c = { core with kernel := k }) (fun _ _ _ => False) core := by
  refine under_mono (under_sweep (J := fun left rest c vs => ∃ k,
      Sweeping init others (t.Clears core.executors records) left rest k ∧
      c = { core with kernel := k } ∧ (core.executors.policy = true →
        ∃ i, rest = records.drop i ∧ vs = t.schedule.drop i))
    ?_ ⟨_, hstart, rfl, fun _ => ⟨0, rfl, rfl⟩⟩)
    (fun _ _ _ ⟨k, hJ, hc, _⟩ => ⟨k, hJ, hc⟩) fun _ _ _ he => he
  rintro left resource rest _ vs ⟨k, hJ, rfl, hturn⟩
  have htail : core.executors.policy = true →
      ∃ i, rest = records.drop i ∧ vs.tail = t.schedule.drop i := by
    intro hpolicy
    obtain ⟨i, hrest, rfl⟩ := hturn hpolicy
    exact ⟨i + 1, by rw [← tail_drop, ← hrest, tail_cons], tail_drop ..⟩
  refine (hJ.books.manual resource (.inr (.inr (by simp)))).under_released ?_ ?_ ?_
  · exact ⟨_, hJ.done, rfl, htail⟩
  · intro f hf
    refine ⟨k, hJ.leave ?_, rfl, htail⟩
    rintro ⟨hpolicy, hclears⟩
    obtain ⟨i, hrest, rfl⟩ := hturn hpolicy
    exact hclears i (by rw [← head?_drop, ← hrest, head?_cons]) f hf
  · intro hnone
    refine ⟨k, hJ.leave fun hclears => ?_, rfl, fun hpolicy => ?_⟩
    · rw [hclears.1] at hnone
      cases hnone
    · rw [hpolicy] at hnone
      cases hnone

/-- A teardown keeps the books, whatever fails in it. -/
theorem OnBooks.wp_teardownStep (h : OnBooks init core) {t : TeardownStep}
    (hadmitted : t.admitted core) :
    wp Any t.exec (fun _ => OnBooks init) (fun _ => OnBooks init) (fun _ => True) core := by
  refine wp_scheduled ?_
  cases hentry : core.journal[t.index]? with
  | none =>
    refine under_bind (under_bind (under_gets ?_))
    rw [hentry]
    exact under_throw h
  | some entry =>
    have hmanual := h.owners entry (mem_of_getElem? hentry)
    have hlisted : core.journal.listed =
        core.journal.listedBeside t.index ∪ {r | r ∈ entry.resources} :=
      Set.ext fun _ => Journal.mem_listed_iff hentry
    have hbooks := h.books
    rw [hlisted] at hbooks
    refine under_bind (under_entryAt hentry ?_)
    simp only [hmanual]
    refine under_bind (under_entryAt hentry (under_bind (under_mono (under_sweepManual
      (t := t) ⟨by simpa using hbooks, hadmitted entry hentry⟩) ?_ fun _ _ _ he => he.elim)))
    rintro failed _ vs ⟨k, hJ, rfl⟩
    unfold settle
    split
    · rename_i hempty
      obtain rfl := isEmpty_iff.mp hempty
      exact under_modify (.eraseIdx h.owners (by simpa using hJ.books))
    · exact under_bind (under_modify (under_throw (.modify h.owners hentry (fun _ => rfl)
        (by simpa [JournalEntry.setResources, JournalEntry.setState] using hJ.books))))

end

/-! ### Edits and the books -/

/-- A route of the initial table with the daemon's protocol number has this key. -/
def Kernel.OrphanRoute (init : Kernel) (key : RouteKey) : Prop :=
  ∃ r ∈ init.routeRows, r.protocol = rtprotNetworkOrchestrator ∧ r.key = key

/-- A rule of the initial table with the daemon's protocol number has this key. -/
def Kernel.OrphanRule (init : Kernel) (key : SystemRule) : Prop :=
  ∃ r ∈ init.ruleRows, r.protocol = rtprotNetworkOrchestrator ∧ r.key = key

namespace ManualBooks

variable {init k : Kernel} {records records' : Set OwnedResource} {o : Origin}
variable (h : ManualBooks init records k)
include h

variable {w : OwnedResource} {r : SystemRoute}

/-- Write down a record that is none of the routes' business. -/
theorem routes_record_other (hclaim : routeBooks.claim w = none)
    (hdebt : routeBooks.debt w = none) :
    routeBooks.Balanced init.routeRows (insert w records) k.routeRows :=
  h.routes.record (fun _ _ _ => by simp [hclaim]) (fun r hr => by simp [hdebt] at hr)

theorem rules_record_other (hclaim : ruleBooks.claim w = none) (hdebt : ruleBooks.debt w = none) :
    ruleBooks.Balanced init.ruleRows (insert w records) k.ruleRows :=
  h.rules.record (fun _ _ _ => by simp [hclaim]) (fun r hr => by simp [hdebt] at hr)

theorem manual_insert (hw : w.IsManual) : ∀ r ∈ insert w records, r.IsManual := by
  rintro r (rfl | hr)
  · exact hw
  · exact h.manual r hr

theorem recordRoute (hp : r.protocol = rtprotNetworkOrchestrator)
    (horphan : ¬init.OrphanRoute r.key) : ManualBooks init (insert (.netRoute r) records) k where
  manual := h.manual_insert hp
  routes := h.routes.record (fun x hx hm heq => horphan ⟨x, hx, hm, (Option.some.inj heq).symm⟩)
    (fun _ hd => by cases hd)
  rules := h.rules_record_other rfl rfl

theorem recordRule {r : SystemRule} (hp : r.protocol = rtprotNetworkOrchestrator)
    (horphan : ¬init.OrphanRule r.key) : ManualBooks init (insert (.netRule r) records) k where
  manual := h.manual_insert hp
  routes := h.routes_record_other rfl rfl
  rules := h.rules.record (fun x hx hm heq => horphan ⟨x, hx, hm, (Option.some.inj heq).symm⟩)
    (fun _ hd => by cases hd)

theorem addRoute (hr : .netRoute r ∈ records) :
    ManualBooks init records (k.addSystemRoute o r).2 where
  manual := h.manual
  routes := by
    have hclaimed : routeBooks.claim (.netRoute r) = some (routeBooks.key r.stored) :=
      congrArg some (SystemRoute.key_stored r).symm
    exact h.routes.add r.stored (.inr ⟨h.manual _ hr, _, hr, hclaimed⟩)
      (fun y hy => (routeRows_add.mp hy).imp_right And.right)
      (fun y hy => routeRows_add.mpr (.inl hy))
  rules := by simpa using h.rules

theorem addRule {r : SystemRule} (hr : .netRule r ∈ records) :
    ManualBooks init records (k.addSystemRule o r).2 where
  manual := h.manual
  routes := by simpa using h.routes
  rules := by
    have hclaimed : ruleBooks.claim (.netRule r) = some (ruleBooks.key r.stored) :=
      congrArg some (SystemRule.key_stored r).symm
    exact h.rules.add r.stored (.inr ⟨h.manual _ hr, _, hr, hclaimed⟩)
      (fun y hy => (ruleRows_add.mp hy).imp_right And.right)
      (fun y hy => ruleRows_add.mpr (.inl hy))

/-- A row of another program is an original one. -/
theorem suppressRoute (hr : r.stored ∈ k.routeRows) (hp : r.protocol ≠ rtprotNetworkOrchestrator) :
    ManualBooks init (insert (.suppressedRoute r) records) k where
  manual := h.manual_insert trivial
  routes := h.routes.record (fun _ _ _ heq => by cases heq) fun x hx => by
    cases hx
    exact ⟨(h.routes.explained _ hr).resolve_right fun hm => hp hm.1, hp⟩
  rules := h.rules_record_other rfl rfl

theorem suppressRule {r : SystemRule} (hr : r.stored ∈ k.ruleRows)
    (hp : r.protocol ≠ rtprotNetworkOrchestrator) :
    ManualBooks init (insert (.suppressedRule r) records) k where
  manual := h.manual_insert trivial
  routes := h.routes_record_other rfl rfl
  rules := h.rules.record (fun _ _ _ heq => by cases heq) fun x hx => by
    cases hx
    exact ⟨(h.rules.explained _ hr).resolve_right fun hm => hp hm.1, hp⟩

/-- Delete a row as dumped: it is owed, or it was not there at the start. -/
theorem removeRoute (hr : r.stored ∈ k.routeRows)
    (hlost : .suppressedRoute r ∈ records ∨ r.stored ∉ init.routeRows) :
    ManualBooks init records (k.removeSystemRoute r).2 where
  manual := h.manual
  routes := by
    refine h.routes.lose (fun x hx => (routeRows_remove.mp hx).1) fun x hx hx' => ?_
    have hgone : x.key = r.key := by
      by_contra hne
      exact hx' (routeRows_remove.mpr ⟨hx, fun hk => hne hk.1⟩)
    obtain rfl : x = r.stored :=
      routeRows_unique k x hx _ hr (hgone.trans (SystemRoute.key_stored r).symm)
    exact hlost.imp_left fun hin => ⟨_, hin, rfl⟩
  rules := by simpa using h.rules

theorem removeRule {r : SystemRule} (hr : r.stored ∈ k.ruleRows)
    (hlost : .suppressedRule r ∈ records ∨ r.stored ∉ init.ruleRows) :
    ManualBooks init records (k.removeSystemRule r).2 where
  manual := h.manual
  routes := by simpa using h.routes
  rules := by
    refine h.rules.lose (fun x hx => (ruleRows_remove.mp hx).1) fun x hx hx' => ?_
    have hgone : x.key = r.key := by
      by_contra hne
      exact hx' (ruleRows_remove.mpr ⟨hx, fun hk => hne hk.1⟩)
    obtain rfl : x = r.stored :=
      ruleRows_unique k x hx _ hr (hgone.trans (SystemRule.key_stored r).symm)
    exact hlost.imp_left fun hin => ⟨_, hin, rfl⟩

/-- Forget claims of keys that no row of ours has. -/
theorem forget (hsub : records' ⊆ records) (hforgot : ∀ w ∈ records, w ∉ records' →
      (∃ r, w = .netRoute r ∧ ∀ x ∈ k.routeRows, x.key = r.key →
        x.protocol ≠ rtprotNetworkOrchestrator) ∨
      (∃ r, w = .netRule r ∧ ∀ x ∈ k.ruleRows, x.key = r.key →
        x.protocol ≠ rtprotNetworkOrchestrator)) : ManualBooks init records' k where
  manual w hw := h.manual w (hsub hw)
  routes := by
    refine h.routes.strike hsub (fun x hx hm w hw hc => ?_) fun w hw r hd => ?_
    · by_cases hw' : w ∈ records'
      · exact ⟨w, hw', hc⟩
      · obtain ⟨r, rfl, hno⟩ | ⟨r, rfl, -⟩ := hforgot w hw hw'
        · exact absurd hm (hno x hx (Option.some.inj hc).symm)
        · cases hc
    · by_cases hw' : w ∈ records'
      · exact .inr ⟨w, hw', hd⟩
      · obtain ⟨r, rfl, -⟩ | ⟨r, rfl, -⟩ := hforgot w hw hw' <;> cases hd
  rules := by
    refine h.rules.strike hsub (fun x hx hm w hw hc => ?_) fun w hw r hd => ?_
    · by_cases hw' : w ∈ records'
      · exact ⟨w, hw', hc⟩
      · obtain ⟨r, rfl, -⟩ | ⟨r, rfl, hno⟩ := hforgot w hw hw'
        · cases hc
        · exact absurd hm (hno x hx (Option.some.inj hc).symm)
    · by_cases hw' : w ∈ records'
      · exact .inr ⟨w, hw', hd⟩
      · obtain ⟨r, rfl, -⟩ | ⟨r, rfl, -⟩ := hforgot w hw hw' <;> cases hd

end ManualBooks

/-! ### Edits -/

section
variable {init : Kernel} {core : DaemonCore}

theorem OnBooks.of_listed {core core' : DaemonCore} (h : OnBooks init core)
    (howners : ∀ entry ∈ core'.journal, entry.owner = .manual)
    (hlisted : core'.journal.listed = core.journal.listed) (hkernel : core'.kernel = core.kernel) :
    OnBooks init core' :=
  ⟨howners, by rw [hlisted, hkernel]; exact h.books⟩

/-- The manual entry is there, and nothing else has changed. -/
structure EntryReady (core c : DaemonCore) (index : Nat) : Prop where
  entry : ∃ e, c.journal[index]? = some e
  owners : ∀ e ∈ c.journal, e.owner = .manual
  listed : c.journal.listed = core.journal.listed
  kernel : c.kernel = core.kernel

theorem OnBooks.wp_manualEntry (h : OnBooks init core) (uid : Nat) :
    wp Any (manualEntry uid) (fun index c => EntryReady core c index)
      (fun _ => OnBooks init) (fun _ => True) core := by
  refine wp_bind (wp_position ?_)
  cases hpos : core.journal.position uid .manual with
  | some index =>
    obtain ⟨e, he, -⟩ := Journal.position_eq_some hpos
    exact wp_pure ⟨⟨e, he⟩, h.owners, rfl, rfl⟩
  | none =>
    have howners : ∀ e ∈ core.journal ++ [freshManual uid], e.owner = .manual := by
      intro e he
      rcases mem_append.mp he with he | he
      · exact h.owners e he
      · rw [mem_singleton.mp he]
        rfl
    have hlisted : Journal.listed (core.journal ++ [freshManual uid]) = core.journal.listed :=
      Set.ext fun r => Journal.mem_listed_append.trans (by simp [freshManual])
    refine wp_bind (wp_pushEntry (wp_bind (wp_save (fun _ => trivial) (fun _ _ => ?_)
      (fun _ _ => ?_) (wp_read (wp_pure ?_)))))
    · exact h.of_listed howners hlisted rfl
    · exact h.of_listed howners hlisted rfl
    · exact ⟨⟨freshManual uid, by simp [freshManual]⟩, howners, hlisted, rfl⟩

section
variable {j : Journal} {index : Nat} {entry : JournalEntry} (h : j[index]? = some entry)
include h

theorem Journal.listed_push (resource : OwnedResource) (state : OwnedState) :
    Journal.listed (j.modify index fun e => (e.push resource).setState state) =
      insert resource j.listed := by
  ext r
  rw [Journal.mem_listed_modify h, Set.mem_insert_iff, Journal.mem_listed_iff h]
  simp only [JournalEntry.setState, JournalEntry.push, mem_append, mem_singleton]
  tauto

theorem Journal.listed_recordTakenBack (state : OwnedState) :
    (recordTakenBack j index entry state).listed = j.listed := by
  ext r
  unfold recordTakenBack
  split
  · rw [Journal.mem_listed_eraseIdx, Journal.mem_listed_iff h]
    simp [*]
  · rw [Journal.mem_listed_modify h, Journal.mem_listed_iff h]
    rfl

end

variable {j : Journal} {state : OwnedState} {uid : Nat} (index : Nat) {w : OwnedResource}
  {row : ManagedRow} {k : Kernel}

theorem owners_recordTakenBack {index : Nat} {entry : JournalEntry}
    (h : ∀ e ∈ j, e.owner = .manual) :
    ∀ e ∈ recordTakenBack j index entry state, e.owner = .manual := by
  intro e he
  unfold recordTakenBack at he
  split at he
  · exact h e (mem_of_mem_eraseIdx he)
  · exact owners_modify (f := (·.setState state)) h (fun _ => rfl) e he

/-- An edit that records first keeps the books when its record and its request do. -/
theorem OnBooks.wp_recordEdit {α : Type} {resource : OwnedResource} {request : Prog Unit}
    {finish : Nat → Prog α} (h : OnBooks init core)
    (hrecord : ManualBooks init (insert resource core.journal.listed) core.kernel)
    (hrequest : ∀ c, c.kernel = core.kernel →
      wp Any request
        (fun _ c' => ∃ k, ManualBooks init (insert resource core.journal.listed) k ∧
          c' = { c with kernel := k })
        (fun _ c' => c' = c) (fun _ => True) c)
    (hfinish : ∀ index, Keeps Any (OnBooks init) (finish index)) :
    wp Any (recordEdit uid resource state request finish) (fun _ => OnBooks init)
      (fun _ => OnBooks init) (fun _ => True) core := by
  refine wp_then (h.wp_manualEntry uid) ?_
  rintro index c ⟨⟨e, he⟩, howners, hlisted, hkernel⟩
  have hpushed : Journal.listed (c.journal.modify index fun e => (e.push resource).setState state) =
      insert resource core.journal.listed := by
    rw [Journal.listed_push he, hlisted]
  have howners' : ∀ x ∈ c.journal.modify index fun e => (e.push resource).setState state,
      x.owner = .manual := owners_modify howners fun _ => rfl
  refine wp_bind (wp_updateEntry (wp_bind (wp_save (fun _ => trivial) (fun _ _ => ?_)
    (fun _ _ => ?_) ?_)))
  · exact ⟨howners', by rw [hpushed, hkernel]; exact hrecord⟩
  · exact ⟨howners', by rw [hpushed, hkernel]; exact hrecord⟩
  refine wp_either (hrequest _ hkernel) ?_ ?_
  · rintro _ _ ⟨k, hk, rfl⟩
    exact wp_mono (hfinish index _ ⟨howners', by rw [hpushed]; exact hk⟩) (fun _ _ hq => hq)
      (fun _ _ he => he) (fun _ _ => trivial)
  · rintro e' _ rfl
    refine wp_bind fun vs hvs => ?_
    have hrun := dropRecord_run
      { c with disk := c.journal.modify index fun e => (e.push resource).setState state }
      vs resource state he
    rw [show dropRecord index _ vs = _ from hrun]
    refine ⟨hvs, ?_⟩
    have hback : ∀ disk, OnBooks init
        { c with journal := recordTakenBack c.journal index e state, disk } :=
      fun disk => h.of_listed (owners_recordTakenBack howners)
        ((Journal.listed_recordTakenBack he state).trans hlisted) hkernel
    exact wp_bind (wp_persist (fun _ => trivial) (wp_throw (hback _)) (wp_throw (hback _)))

theorem keeps_finishAdd : Keeps Any (OnBooks init) (finishAdd index) := by
  intro core h
  have hset : ∀ disk, OnBooks init
      { core with journal := core.journal.modify index (·.setState .applied), disk } := by
    intro disk
    refine h.of_listed (owners_modify (f := (·.setState .applied)) h.owners fun _ => rfl) ?_ rfl
    cases hentry : core.journal[index]? with
    | some entry =>
      ext r
      exact (Journal.mem_listed_modify hentry).trans (Journal.mem_listed_iff hentry).symm
    | none =>
      rw [getElem?_eq_none_iff] at hentry
      show Journal.listed (core.journal.modify index _) = _
      rw [modify_eq_self hentry]
  exact wp_bind (wp_updateEntry (wp_persist (fun _ => hset _) (hset _) (hset _)))

theorem keeps_finishSuppress : Keeps Any (OnBooks init) (finishSuppress index) :=
  fun _ h => wp_bind (wp_persist (fun _ => h) (wp_pure h) (wp_pure ⟨h.owners, h.books⟩))

/-- A dumped route, stored again, is the row it shows. -/
theorem stored_dumpRoute (k : Kernel) (row : KernelRoute) : (k.dumpRoute row).stored = row.route := by
  have hstored : (k.dumpRoute row).stored = row.route.stored := by
    simp [Kernel.dumpRoute, SystemRoute.stored, Function.comp_def, SystemNexthop.anonymous]
  rw [hstored, row.normal]

theorem mem_listed_forgetManual {selects : OwnedResource → Bool} (hw : w ∈ j.listed)
    (hkeep : selects w = false) : w ∈ (j.forgetManual uid selects).listed := by
  obtain ⟨entry, hentry, hr⟩ := hw
  obtain ⟨index, hindex⟩ := mem_iff_getElem?.mp hentry
  by_cases hpos : j.position uid .manual = some index
  · obtain ⟨entry', hentry', -, hr'⟩ := exists_mem_forgetManual hpos hindex hr hkeep
    exact ⟨entry', hentry', hr'⟩
  · exact ⟨entry, mem_forgetManual_of_ne hindex hpos, hr⟩

theorem listed_journalAfter_subset : (row.journalAfter uid j).listed ⊆ j.listed := by
  rintro w ⟨entry, hentry, hr⟩
  unfold ManagedRow.journalAfter at hentry
  split at hentry
  · obtain ⟨index, e, he, -, hres⟩ := mem_forgetManual hentry
    exact ⟨e, mem_of_getElem? he, (hres w hr).1⟩
  · exact ⟨entry, hentry, hr⟩

theorem records_of_forgotten
    (hw : w ∈ j.listed) (hgone : w ∉ (row.journalAfter uid j).listed) : row.records w = true := by
  unfold ManagedRow.journalAfter at hgone
  split at hgone
  · by_contra hkeep
    exact hgone (mem_listed_forgetManual hw (by simpa using hkeep))
  · exact absurd hw hgone

theorem owners_journalAfter
    (h : ∀ e ∈ j, e.owner = .manual) : ∀ e ∈ row.journalAfter uid j, e.owner = .manual := by
  intro e he
  unfold ManagedRow.journalAfter at he
  split at he
  · obtain ⟨index, e', he', howner, -⟩ := mem_forgetManual he
    rw [howner]
    exact h e' (mem_of_getElem? he')
  · exact h e he

/-- A managed row that was dumped and is not one of the start. -/
def ManagedRow.Added (init k : Kernel) : ManagedRow → Prop
  | .ofRoute route _ => route.protocol = rtprotNetworkOrchestrator ∧
      route.stored ∈ k.routeRows ∧ ¬init.OrphanRoute route.key
  | .ofRule rule _ => rule.protocol = rtprotNetworkOrchestrator ∧
      rule.stored ∈ k.ruleRows ∧ ¬init.OrphanRule rule.key

theorem OnBooks.done {core core' : DaemonCore}
    (h : OnBooks init core) (hadded : row.Added init core.kernel)
    (hdone : row.Done uid core core') : OnBooks init core' := by
  refine ⟨fun e he => owners_journalAfter h.owners e (hdone.journal ▸ he), ?_⟩
  rw [hdone.kernel, hdone.journal]
  cases row with
  | ofRoute route hm =>
    obtain ⟨hp, hin, horphan⟩ := hadded
    have hnew : route.stored ∉ init.routeRows := fun hold =>
      horphan ⟨route.stored, hold, hp, SystemRoute.key_stored route⟩
    refine (h.books.removeRoute hin (.inr hnew)).forget listed_journalAfter_subset ?_
    intro w hw hgone
    have hrecord := records_of_forgotten hw hgone
    cases w with
    | netRoute installed =>
      refine .inl ⟨installed, rfl, fun x hx hkey hx79 => ?_⟩
      have hsame : installed.key = route.key := ((sameSystemRoute_iff _ _).mp hrecord).1
      exact (routeRows_remove.mp hx).2 ⟨hkey.trans hsame, .inr (hx79.trans hp.symm)⟩
    | _ => cases hrecord
  | ofRule rule hm =>
    obtain ⟨hp, hin, horphan⟩ := hadded
    have hnew : rule.stored ∉ init.ruleRows := fun hold =>
      horphan ⟨rule.stored, hold, hp, SystemRule.key_stored rule⟩
    refine (h.books.removeRule hin (.inr hnew)).forget listed_journalAfter_subset ?_
    intro w hw hgone
    have hrecord := records_of_forgotten hw hgone
    cases w with
    | netRule installed =>
      refine .inr ⟨installed, rfl, fun x hx hkey hx79 => ?_⟩
      obtain rfl : installed = rule := by simpa [ManagedRow.records, recordsRule] using hrecord
      exact (ruleRows_remove.mp hx).2 ⟨hkey, .inr (hx79.trans hp.symm)⟩
    | _ => cases hrecord

theorem OnBooks.wp_deleteManaged (row : ManagedRow) (h : OnBooks init core) (uid : Nat)
    (hadded : row.Added init core.kernel) :
    wp Any (row.delete uid) (fun _ => OnBooks init) (fun _ => OnBooks init) (fun _ => True) core :=
  wp_mono (row.wp_delete uid core) (fun _ _ hdone => h.done hadded hdone)
    (fun _ _ hsame => h.of_listed (hsame.2.symm ▸ h.owners) (by rw [hsame.2]) hsame.1)
    (fun _ _ => trivial)

/-- A manual edit of a user, on the machine as it is then. -/
structure EditStep where
  view : View
  uid : Nat
  edit : ManualEdit

def EditStep.exec (step : EditStep) : Prog Unit := do
  Call.modify fun core => { core with view := step.view }
  step.edit.run step.uid

/-- Deletes pass rows as currently dumped. -/
def EditStep.AsDumped (core : DaemonCore) (step : EditStep) : Prop :=
  match step.edit with
  | .routeDel route => route ∈ core.kernel.netTables.routes
  | .ruleDel rule => rule ∈ core.kernel.netTables.rules
  | _ => True

/-- The edit names no object that carried the daemon's protocol number at the start. -/
def EditStep.Spares (init : Kernel) (step : EditStep) : Prop :=
  match step.edit with
  | .routeAdd params =>
    ∀ route, prepareRoute step.view params = .ok route → ¬init.OrphanRoute route.key
  | .routeDel route => ¬init.OrphanRoute route.key
  | .ruleAdd params => ¬init.OrphanRule (manualRule params).key
  | .ruleDel rule => ¬init.OrphanRule rule.key

def EditStep.admitted (init : Kernel) (core : DaemonCore) (step : EditStep) : Prop :=
  step.AsDumped core ∧ step.Spares init

theorem mem_dumpedRoutes {route : SystemRoute} (h : route ∈ k.netTables.routes) :
    route.stored ∈ k.routeRows ∧
      route.managed = (route.protocol == rtprotNetworkOrchestrator) := by
  obtain ⟨row, hrow, rfl⟩ := mem_map.mp h
  refine ⟨⟨row, hrow, (stored_dumpRoute k row).symm⟩, ?_⟩
  exact congrArg SystemRoute.managed row.normal.symm

theorem mem_dumpedRules {rule : SystemRule} (h : rule ∈ k.netTables.rules) :
    rule.stored ∈ k.ruleRows ∧ rule.managed = (rule.protocol == rtprotNetworkOrchestrator) := by
  obtain ⟨row, hrow, rfl⟩ := mem_map.mp h
  refine ⟨⟨row, hrow, row.normal.symm⟩, ?_⟩
  exact congrArg SystemRule.managed row.normal.symm

section
variable (h : OnBooks init core) (uid : Nat)
include h

theorem OnBooks.wp_netRouteAdd (params : NetRouteAddParams)
    (horphan : ∀ route, prepareRoute core.view params = .ok route → ¬init.OrphanRoute route.key) :
    wp Any (netRouteAdd uid params) (fun _ => OnBooks init) (fun _ => OnBooks init)
      (fun _ => True) core := by
  refine wp_read (wp_bind (wp_ofExcept (fun route hroute => ?_) fun _ _ => h))
  have hprotocol : route.protocol = rtprotNetworkOrchestrator := by
    obtain ⟨-, index, rfl⟩ := prepareRoute_ok hroute
    rfl
  have hrecord := h.books.recordRoute hprotocol (horphan route hroute)
  refine h.wp_recordEdit hrecord (fun c hc => ?_) keeps_finishAdd
  refine wp_onKernel (fun _ => trivial) (fun _ _ => rfl) (fun _ _ => ⟨_, ?_, rfl⟩) fun e he => ?_
  · rw [hc]
    exact hrecord.addRoute (.inl rfl)
  · rw [show (c.kernel.addSystemRoute _ route).2 = c.kernel from clean_addRouteRow _ _ e he]

theorem OnBooks.wp_netRuleAdd (params : NetRuleAddParams)
    (horphan : ¬init.OrphanRule (manualRule params).key) :
    wp Any (netRuleAdd uid params) (fun _ => OnBooks init) (fun _ => OnBooks init)
      (fun _ => True) core := by
  refine wp_bind (wp_demand (fun _ => ?_) fun _ _ => h)
  have hrecord := h.books.recordRule rfl horphan
  refine h.wp_recordEdit hrecord (fun c hc => ?_) keeps_finishAdd
  refine wp_read ?_
  split
  · refine wp_onKernel (fun _ => trivial) (fun _ _ => rfl) (fun _ _ => ⟨_, ?_, rfl⟩) fun e he => ?_
    · rw [hc]
      exact hrecord.addRule (.inl rfl)
    · rw [show (c.kernel.addSystemRule _ _).2 = c.kernel from clean_addRuleRow _ _ e he]
  · exact wp_throw rfl

theorem OnBooks.wp_netRouteDel {route : SystemRoute}
    (hdumped : route ∈ core.kernel.netTables.routes) (horphan : ¬init.OrphanRoute route.key) :
    wp Any (netRouteDel uid route) (fun _ => OnBooks init) (fun _ => OnBooks init)
      (fun _ => True) core := by
  obtain ⟨hin, hmanaged⟩ := mem_dumpedRoutes hdumped
  by_cases hm : route.managed = true
  · have hp : route.protocol = rtprotNetworkOrchestrator := by simpa [hm] using hmanaged
    exact h.wp_deleteManaged (.ofRoute route hm) uid ⟨hp, hin, horphan⟩
  · have hp : route.protocol ≠ rtprotNetworkOrchestrator := by
      intro hp
      exact hm (by rw [hmanaged, hp]; rfl)
    unfold netRouteDel
    split
    · exact wp_throw h
    split
    · exact wp_throw h
    have hrecord := h.books.suppressRoute hin hp
    refine h.wp_recordEdit hrecord (fun c hc => ?_) keeps_finishSuppress
    refine wp_onKernel (fun _ => trivial) (fun _ _ => rfl) (fun _ _ => ⟨_, ?_, rfl⟩) fun e he => ?_
    · rw [hc]
      exact hrecord.removeRoute hin (.inl (.inl rfl))
    · rw [show (c.kernel.removeSystemRoute route).2 = c.kernel from clean_removeRouteRows _ _ e he]

theorem OnBooks.wp_netRuleDel {rule : SystemRule} (hdumped : rule ∈ core.kernel.netTables.rules)
    (horphan : ¬init.OrphanRule rule.key) :
    wp Any (netRuleDel uid rule) (fun _ => OnBooks init) (fun _ => OnBooks init)
      (fun _ => True) core := by
  obtain ⟨hin, hmanaged⟩ := mem_dumpedRules hdumped
  by_cases hm : rule.managed = true
  · have hp : rule.protocol = rtprotNetworkOrchestrator := by simpa [hm] using hmanaged
    exact h.wp_deleteManaged (.ofRule rule hm) uid ⟨hp, hin, horphan⟩
  · have hp : rule.protocol ≠ rtprotNetworkOrchestrator := by
      intro hp
      exact hm (by rw [hmanaged, hp]; rfl)
    unfold netRuleDel
    split
    · exact wp_throw h
    split
    · exact wp_throw h
    have hrecord := h.books.suppressRule hin hp
    refine h.wp_recordEdit hrecord (fun c hc => ?_) keeps_finishSuppress
    refine wp_read ?_
    split
    · refine wp_onKernel (fun _ => trivial) (fun _ _ => rfl) (fun _ _ => ⟨_, ?_, rfl⟩)
        fun e he => ?_
      · rw [hc]
        exact hrecord.removeRule hin (.inl (.inl rfl))
      · rw [show (c.kernel.removeSystemRule rule).2 = c.kernel from clean_removeRuleRows _ _ e he]
    · exact wp_throw rfl

end

theorem OnBooks.wp_editStep (h : OnBooks init core) {step : EditStep}
    (hadmitted : step.admitted init core) :
    wp Any step.exec (fun _ => OnBooks init) (fun _ => OnBooks init) (fun _ => True)
      core := by
  obtain ⟨view, uid, edit⟩ := step
  refine wp_write ?_
  have hview : OnBooks init { core with view } := ⟨h.owners, h.books⟩
  cases edit with
  | routeAdd params => exact hview.wp_netRouteAdd uid params hadmitted.2
  | routeDel route =>
    exact wp_bind (wp_mono (hview.wp_netRouteDel uid hadmitted.1 hadmitted.2)
      (fun _ _ h' => wp_pure h') (fun _ _ h' => h') fun _ h' => h')
  | ruleAdd params => exact hview.wp_netRuleAdd uid params hadmitted.2
  | ruleDel rule =>
    exact wp_bind (wp_mono (hview.wp_netRuleDel uid hadmitted.1 hadmitted.2)
      (fun _ _ h' => wp_pure h') (fun _ _ h' => h') fun _ h' => h')

theorem OnBooks.start (view : View) (executors : Executors) :
    OnBooks init (DaemonCore.fresh init view executors) where
  owners _ h := by cases h
  books := by
    have hlisted : (DaemonCore.fresh init view executors).journal.listed = ∅ := by
      ext r
      simp [DaemonCore.fresh, Journal.listed]
    rw [hlisted]
    exact ⟨fun _ h => h.elim, .start, .start⟩

/-- Any edits by any users, then teardowns in any order until no manual entry is left: the
kernel has the routes and rules it had at the start. The edits leave alone what carried the
daemon's protocol number at the start, and a teardown finds the place of what it puts back
free, or cleared by the same entry. -/
theorem manual_edits_round_trip (init : Kernel) (view : View) (executors : Executors)
    {edited final : DaemonCore} (hedits : Reaches EditStep.exec (EditStep.admitted init)
      (DaemonCore.fresh init view executors) edited)
    (hteardowns : Reaches TeardownStep.exec TeardownStep.admitted edited final)
    (hempty : final.journal = []) :
    final.kernel.routeRows = init.routeRows ∧ final.kernel.ruleRows = init.ruleRows := by
  have hedited : OnBooks init edited :=
    hedits.invariant (C := fun _ => True) (.start view executors) fun _ _ h hok => h.wp_editStep hok
  have hfinal : OnBooks init final :=
    hteardowns.invariant (C := fun _ => True) hedited fun _ _ h hok => h.wp_teardownStep hok
  have hbooks := hfinal.books
  have hlisted : final.journal.listed = ∅ := by
    ext r
    simp [hempty, Journal.listed]
  rw [hlisted] at hbooks
  exact ⟨hbooks.routes.table_eq, hbooks.rules.table_eq⟩

end

/-- A kernel with one route, which this daemon did not install. -/
def Kernel.withRoute (route : SystemRoute) : Kernel :=
  (Kernel.empty.addSystemRoute .foreign route).2

/-- A delete of the lab route, as dumped, where an earlier daemon left it behind. -/
def orphanDelete : EditStep := ⟨View.bare, 1000, .routeDel labRow⟩

def orphanRun : Outcome IoError Unit × DaemonCore × List (Verdict Fault) :=
  orphanDelete.exec (DaemonCore.fresh (Kernel.withRoute labRow) View.bare Executors.all) []

theorem orphanRun_ok : orphanRun = (.ok (), orphanRun.2.1, orphanRun.2.2) :=
  eq_of_outcome (by decide)

/-- An orphan of an earlier daemon is deleted without a restore record, so it does not come
back. -/
theorem orphan_not_restored :
    ¬∀ (init : Kernel) (view : View) (executors : Executors) (edited final : DaemonCore),
      Reaches EditStep.exec EditStep.AsDumped (DaemonCore.fresh init view executors) edited →
      Reaches TeardownStep.exec (fun _ _ => True) edited final → final.journal = [] →
      final.kernel.routeRows = init.routeRows ∧ final.kernel.ruleRows = init.ruleRows := by
  intro h
  have hdumped : orphanDelete.AsDumped
      (DaemonCore.fresh (Kernel.withRoute labRow) View.bare Executors.all) :=
    show labRow ∈ (Kernel.withRoute labRow).netTables.routes by decide
  have hrows := (h _ _ _ _ _ (.call .start hdumped orphanRun_ok (by simp)) .start
    (by decide)).1
  have hin : labRow ∈ (Kernel.withRoute labRow).routeRows :=
    ⟨labRow.install .foreign, by decide, by decide⟩
  rw [← hrows] at hin
  obtain ⟨row, hrow, -⟩ := hin
  have hnone : orphanRun.2.1.kernel.routes.rows = [] := by decide
  rw [Table.mem_def, hnone] at hrow
  cases hrow

/-- The lab route as another program installed it. -/
def foreignLabRow : SystemRoute := { labRow with protocol := 3, managed := false }

/-- The foreign route is suppressed, the user's own takes its place, and a teardown of the entry
fails to put the foreign one back. -/
def overrideSteps : EditStep × EditStep × TeardownStep :=
  (⟨View.bare, 1000, .routeDel foreignLabRow⟩, ⟨View.bare, 1000, .routeAdd labRoute⟩,
    ⟨0, [.proceed, .fail .timedOut]⟩)

def suppressedLab : DaemonCore :=
  (overrideSteps.1.exec
    (DaemonCore.fresh (Kernel.withRoute foreignLabRow) View.bare Executors.all) []).2.1

def overriddenLab : DaemonCore := (overrideSteps.2.1.exec suppressedLab []).2.1

def halfRestoredLab : DaemonCore := (overrideSteps.2.2.exec overriddenLab []).2.1

def restoredLab : DaemonCore := (TeardownStep.exec ⟨0, []⟩ halfRestoredLab []).2.1

theorem not_orphanRoute_foreignLab (key : RouteKey) :
    ¬(Kernel.withRoute foreignLabRow).OrphanRoute key := by
  rintro ⟨_, ⟨row, hrow, rfl⟩, hp, -⟩
  have hall : ∀ row ∈ (Kernel.withRoute foreignLabRow).routes.rows,
      row.route.protocol ≠ rtprotNetworkOrchestrator := by decide
  exact hall row hrow hp

theorem reaches_overriddenLab :
    Reaches EditStep.exec (EditStep.admitted (Kernel.withRoute foreignLabRow))
      (DaemonCore.fresh (Kernel.withRoute foreignLabRow) View.bare Executors.all)
      overriddenLab := by
  have hsuppress : overrideSteps.1.admitted (Kernel.withRoute foreignLabRow)
      (DaemonCore.fresh (Kernel.withRoute foreignLabRow) View.bare Executors.all) :=
    ⟨show foreignLabRow ∈ (Kernel.withRoute foreignLabRow).netTables.routes by decide,
      not_orphanRoute_foreignLab _⟩
  have hadd : overrideSteps.2.1.admitted (Kernel.withRoute foreignLabRow) suppressedLab :=
    ⟨trivial, fun route _ => not_orphanRoute_foreignLab route.key⟩
  exact .call (.call .start hsuppress (eq_of_outcome (o := .ok ()) (by decide)) (by simp))
    hadd (eq_of_outcome (o := .ok ()) (by decide)) (by simp)

/-- The override is released before the route it displaced. -/
theorem overriddenLab_putsBack : overrideSteps.2.2.admitted overriddenLab := by
  have hjournal : overriddenLab.journal = [⟨1000, .manual, .applied,
      [.suppressedRoute foreignLabRow, .netRoute (manualRoute labRoute 2)]⟩] := by decide
  intro entry hentry
  rw [hjournal] at hentry
  cases hentry
  refine ⟨?_, ?_⟩
  · intro before w after hsplit r hr x hx hkey
    match before, hsplit with
    | [], hsplit =>
      cases hsplit
      cases hr
    | [c], hsplit =>
      cases hsplit
      cases hr
      refine .inr ⟨_, mem_singleton.mpr rfl, ⟨by decide, fun i hi f => ?_⟩, by decide⟩
      rcases i with _ | _ | i
      · simp [overrideSteps, nextVerdict]
      · cases hi
      · simp at hi
    | _ :: _ :: before, hsplit => simp at hsplit
  · exact .of_none (by decide)

/-- The retry finds the place free. -/
theorem halfRestoredLab_putsBack : TeardownStep.admitted halfRestoredLab ⟨0, []⟩ := by
  have hjournal : halfRestoredLab.journal =
      [⟨1000, .manual, .stale, [.suppressedRoute foreignLabRow]⟩] := by decide
  have hfree : halfRestoredLab.kernel.routes.rows = [] := by decide
  intro entry hentry
  rw [hjournal] at hentry
  cases hentry
  refine ⟨?_, .of_none (by decide)⟩
  rintro _ _ _ - _ - _ ⟨row, hrow, rfl⟩
  rw [mem_def, hfree] at hrow
  cases hrow

/-- A user suppresses a foreign route and puts an own one in its place. The teardown removes
the override, fails at the foreign route, and puts it back when it is retried. -/
theorem override_round_trip :
    (∃ row ∈ overriddenLab.kernel.routes, row.route = labRow) ∧
      restoredLab.kernel.routeRows = (Kernel.withRoute foreignLabRow).routeRows ∧
      restoredLab.kernel.ruleRows = (Kernel.withRoute foreignLabRow).ruleRows :=
  ⟨⟨labRow.install (.daemon 1000 .manual), by decide, by decide⟩,
    manual_edits_round_trip _ _ _ reaches_overriddenLab
      (.call (.call .start overriddenLab_putsBack
          (eq_of_outcome (o := .err ⟨.other, .text "owner teardown left resources behind"⟩) (by decide))
          (by simp))
        halfRestoredLab_putsBack (eq_of_outcome (o := .ok ()) (by decide)) (by simp)) (by decide)⟩

end NetOrchestrator.Daemon
