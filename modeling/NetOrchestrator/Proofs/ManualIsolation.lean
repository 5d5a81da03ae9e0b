import NetOrchestrator.Proofs.ManualEdits

/-!
# `Proofs.ManualIsolation`: deleting a managed object

A managed row is deleted after a look at the caller's own entries. The objects that the
delete must not touch are those of another uid, and those of the caller's owners other than
`manual`. The look finds a non-manual owner of the caller and refuses; it never looks at the
entries of other users, and when it finds nothing it deletes.

`managed_delete_isolated_iff` is the exact condition under which a delete spares the
protected objects.
-/

namespace NetOrchestrator.Daemon

open Net Lib Lib.Call Verdict

/-- The kernel route that a resource names. -/
def OwnedResource.routeKey? : OwnedResource → Option RouteKey
  | .route applied => some applied.key
  | .netRoute installed => some installed.key
  | _ => none

/-- The kernel rule that a resource names. -/
def OwnedResource.ruleKey? : OwnedResource → Option SystemRule
  | .rule owned => some owned.system.key
  | .netRule installed => some installed.key
  | _ => none

/-- An entry of another uid, or of another owner than `manual`. -/
def JournalEntry.beyond (entry : JournalEntry) (uid : Nat) : Prop :=
  entry.uid ≠ uid ∨ entry.owner ≠ .manual

/-- A route that such an entry lists. -/
def ProtectedRoute (core : DaemonCore) (uid : Nat) (key : RouteKey) : Prop :=
  ∃ entry ∈ core.journal, entry.beyond uid ∧
    ∃ resource ∈ entry.resources, resource.routeKey? = some key

/-- A rule that such an entry lists. -/
def ProtectedRule (core : DaemonCore) (uid : Nat) (key : SystemRule) : Prop :=
  ∃ entry ∈ core.journal, entry.beyond uid ∧
    ∃ resource ∈ entry.resources, resource.ruleKey? = some key

/-- A row that `net.tables` marks as managed. -/
inductive ManagedRow where
  | ofRoute (route : SystemRoute) (managed : route.managed = true)
  | ofRule (rule : SystemRule) (managed : rule.managed = true)

def ManagedRow.delete (uid : Nat) : ManagedRow → Prog NetEditOutcome
  | .ofRoute route _ => netRouteDel uid route
  | .ofRule rule _ => netRuleDel uid rule

/-- However the delete runs and ends, every protected object is still in the kernel. -/
def ManagedRow.Isolated (row : ManagedRow) (uid : Nat) (core : DaemonCore) : Prop :=
  ∀ vs : List (Verdict Fault),
    (∀ r ∈ core.kernel.routes, ProtectedRoute core uid r.key →
      r ∈ (row.delete uid core vs).2.1.kernel.routes) ∧
    (∀ r ∈ core.kernel.rules, ProtectedRule core uid r.key →
      r ∈ (row.delete uid core vs).2.1.kernel.rules)

/-- The caller's first entry that matches the row belongs to a non-manual owner. -/
def FoundElsewhere (core : DaemonCore) (uid : Nat) (selects : OwnedResource → Bool) : Prop :=
  ∃ owner, ownerListing core.journal uid selects = some owner ∧ owner ≠ .manual

/-- The delete is refused by its checks or by the lookup, or has nothing to delete. -/
def ManagedRow.Refused (row : ManagedRow) (uid : Nat) (core : DaemonCore) : Prop :=
  match row with
  | .ofRoute route _ =>
    isUneditableTable route.table = true ∨ route.kind ≠ .unicast ∨
      FoundElsewhere core uid (listsRoute route) ∨ core.kernel.hasSystemRoute route = false
  | .ofRule rule _ =>
    rule.priority = 0 ∨ isEditableAction rule.action = false ∨
      FoundElsewhere core uid (listsRule rule) ∨ core.executors.policy = false ∨
      core.kernel.hasSystemRule rule = false

/-- No protected entry lists the object that the row names. -/
def ManagedRow.Unprotected (row : ManagedRow) (uid : Nat) (core : DaemonCore) : Prop :=
  match row with
  | .ofRoute route _ => ¬ProtectedRoute core uid route.key
  | .ofRule rule _ => ¬ProtectedRule core uid rule.key

/-! ### What a delete can do to the kernel -/

variable {row : ManagedRow} {uid : Nat} {core : DaemonCore} {selects : OwnedResource → Bool}

theorem removeSystemRoute_ok_iff (k : Kernel) (route : SystemRoute) :
    (k.removeSystemRoute route).1 = .ok () ↔ k.hasSystemRoute route = true := by
  unfold Kernel.removeSystemRoute Kernel.removeRouteRows Kernel.hasSystemRoute
  split
  · exact ⟨fun _ => ‹_›, fun _ => rfl⟩
  · exact ⟨fun h => (by cases h), fun h => absurd h ‹_›⟩

theorem removeSystemRule_ok_iff (k : Kernel) (rule : SystemRule) :
    (k.removeSystemRule rule).1 = .ok () ↔ k.hasSystemRule rule = true := by
  unfold Kernel.removeSystemRule Kernel.removeRuleRows Kernel.hasSystemRule
  split
  · exact ⟨fun _ => ‹_›, fun _ => rfl⟩
  · exact ⟨fun h => (by cases h), fun h => absurd h ‹_›⟩

/-- The kernel after the delete of the row. -/
def ManagedRow.deleted (row : ManagedRow) (k : Kernel) : Kernel :=
  match row with
  | .ofRoute route _ => (k.removeSystemRoute route).2
  | .ofRule rule _ => (k.removeSystemRule rule).2

/-- The resources that the lookup takes for the row. -/
def ManagedRow.lists : ManagedRow → OwnedResource → Bool
  | .ofRoute route _ => listsRoute route
  | .ofRule rule _ => listsRule rule

/-- The manual records that the delete drops. -/
def ManagedRow.records : ManagedRow → OwnedResource → Bool
  | .ofRoute route _ => recordsRoute route
  | .ofRule rule _ => recordsRule rule

/-- The journal after the delete: the records go when the lookup found the manual entry. -/
def ManagedRow.journalAfter (row : ManagedRow) (uid : Nat) (j : Journal) : Journal :=
  if ownerListing j uid row.lists = some .manual then j.forgetManual uid row.records else j

/-- What a delete that returned has done. -/
structure ManagedRow.Done (row : ManagedRow) (uid : Nat) (core core' : DaemonCore) : Prop where
  permitted : ¬row.Refused uid core
  kernel : core'.kernel = row.deleted core.kernel
  journal : core'.journal = row.journalAfter uid core.journal
  executors : core'.executors = core.executors

/-- What any end of a delete may leave: the kernel as it was, or without the row when the
delete was not refused. -/
def ManagedRow.Leaves (row : ManagedRow) (uid : Nat) (core core' : DaemonCore) : Prop :=
  core'.kernel = core.kernel ∨
    (¬row.Refused uid core ∧ core'.kernel = row.deleted core.kernel)

/-- A non-manual owner of the user that lists the row stops the delete. -/
theorem ManagedRow.refused_of_foundElsewhere
    (h : FoundElsewhere core uid row.lists) : row.Refused uid core := by
  cases row with
  | ofRoute route hm => exact .inr (.inr (.inl h))
  | ofRule rule hm => exact .inr (.inr (.inl h))

theorem not_foundElsewhere_of_manual (h : ownerListing core.journal uid selects = some .manual) :
    ¬FoundElsewhere core uid selects := by
  rintro ⟨owner, ho, hne⟩
  rw [h] at ho
  cases ho
  exact hne rfl

theorem not_foundElsewhere_of_none (h : ownerListing core.journal uid selects = none) :
    ¬FoundElsewhere core uid selects := by
  rintro ⟨owner, ho, -⟩
  rw [h] at ho
  cases ho

/-- The last steps of a delete whose removal went through: the record and the save. -/
theorem ManagedRow.wp_finish (row : ManagedRow) (uid : Nat) (core : DaemonCore)
    (h : ¬row.Refused uid core) (hlisting : ownerListing core.journal uid row.lists = some .manual) :
    wp Any (do forgetManual uid row.records; persist; pure NetEditOutcome.deleted)
      (fun _ => row.Done uid core) (Unchanged core) (row.Leaves uid core)
      { core with kernel := row.deleted core.kernel } := by
  have hafter : core.journal.forgetManual uid row.records = row.journalAfter uid core.journal := by
    rw [ManagedRow.journalAfter, if_pos hlisting]
  refine wp_bind (wp_forgetManual (wp_bind (wp_persist (fun _ => .inr ⟨h, rfl⟩) ?_ ?_)))
  · exact wp_pure ⟨h, rfl, hafter, rfl⟩
  · exact wp_pure ⟨h, rfl, hafter, rfl⟩

/-- A delete of what nothing of the user lists leaves the journal as it is. -/
theorem ManagedRow.done_of_unlisted {disk : Journal} (h : ¬row.Refused uid core)
    (hlisting : ownerListing core.journal uid row.lists = none) :
    row.Done uid core { core with kernel := row.deleted core.kernel, disk } := by
  refine ⟨h, rfl, ?_, rfl⟩
  rw [ManagedRow.journalAfter, hlisting, if_neg (by simp)]

theorem wp_netRouteDel_managed (core : DaemonCore) (uid : Nat) (route : SystemRoute)
    (hm : route.managed = true) : wp Any (netRouteDel uid route)
      (fun _ => ManagedRow.Done (.ofRoute route hm) uid core) (Unchanged core)
      (ManagedRow.Leaves (.ofRoute route hm) uid core) core := by
  unfold netRouteDel
  split
  · exact wp_throw ⟨rfl, rfl⟩
  rename_i htable
  split
  · exact wp_throw ⟨rfl, rfl⟩
  rename_i hkind
  -- Once the lookup has not found a non-manual owner, a removal that succeeds is the delete.
  have hremove : ¬FoundElsewhere core uid (listsRoute route) → ∀ {Q : Unit → DaemonCore → Prop},
      (¬ManagedRow.Refused (.ofRoute route hm) uid core →
        Q () { core with kernel := (core.kernel.removeSystemRoute route).2 }) →
      wp Any (removeSystemRoute route) Q (Unchanged core)
        (ManagedRow.Leaves (.ofRoute route hm) uid core) core := by
    intro hlookup Q hQ
    refine wp_onKernel (fun _ => .inl rfl) (fun _ _ => ⟨rfl, rfl⟩) (fun u hok => hQ ?_)
      (fun e he => ⟨clean_removeRouteRows _ _ e he, rfl⟩)
    have hhas := (removeSystemRoute_ok_iff core.kernel route).mp hok
    rintro (h | h | h | h)
    · exact htable h
    · exact hkind h
    · exact hlookup h
    · rw [hhas] at h
      cases h
  refine wp_read ?_
  split
  · rename_i hlisting
    refine wp_bind (hremove (not_foundElsewhere_of_manual hlisting) fun h => ?_)
    exact ManagedRow.wp_finish (.ofRoute route hm) uid core h hlisting
  · exact wp_throw ⟨rfl, rfl⟩
  · rename_i hlisting
    refine wp_bind (hremove (not_foundElsewhere_of_none hlisting) fun h => ?_)
    exact wp_pure (ManagedRow.done_of_unlisted h hlisting)

theorem wp_netRuleDel_managed (core : DaemonCore) (uid : Nat) (rule : SystemRule)
    (hm : rule.managed = true) : wp Any (netRuleDel uid rule)
      (fun _ => ManagedRow.Done (.ofRule rule hm) uid core) (Unchanged core)
      (ManagedRow.Leaves (.ofRule rule hm) uid core) core := by
  unfold netRuleDel
  split
  · exact wp_throw ⟨rfl, rfl⟩
  rename_i hpriority
  split
  · exact wp_throw ⟨rfl, rfl⟩
  rename_i haction
  have hremove : ¬FoundElsewhere core uid (listsRule rule) → ∀ {Q : Unit → DaemonCore → Prop},
      (¬ManagedRow.Refused (.ofRule rule hm) uid core →
        Q () { core with kernel := (core.kernel.removeSystemRule rule).2 }) →
      wp Any (removeSystemRule rule) Q (Unchanged core)
        (ManagedRow.Leaves (.ofRule rule hm) uid core) core := by
    intro hlookup Q hQ
    refine wp_read ?_
    split
    · rename_i hpolicy
      refine wp_onKernel (fun _ => .inl rfl) (fun _ _ => ⟨rfl, rfl⟩) (fun u hok => hQ ?_)
        (fun e he => ⟨clean_removeRuleRows _ _ e he, rfl⟩)
      have hhas := (removeSystemRule_ok_iff core.kernel rule).mp hok
      rintro (h | h | h | h | h)
      · exact hpriority h
      · simp [h] at haction
      · exact hlookup h
      · rw [hpolicy] at h
        cases h
      · rw [hhas] at h
        cases h
    · exact wp_throw ⟨rfl, rfl⟩
  refine wp_read ?_
  split
  · rename_i hlisting
    refine wp_bind (hremove (not_foundElsewhere_of_manual hlisting) fun h => ?_)
    exact ManagedRow.wp_finish (.ofRule rule hm) uid core h hlisting
  · exact wp_throw ⟨rfl, rfl⟩
  · rename_i hlisting
    refine wp_bind (hremove (not_foundElsewhere_of_none hlisting) fun h => ?_)
    refine wp_bind (wp_persist (fun _ => .inr ⟨h, rfl⟩) ?_ ?_)
    · exact wp_pure (ManagedRow.done_of_unlisted h hlisting)
    · exact wp_pure (ManagedRow.done_of_unlisted h hlisting)

/-- Every end of a delete: done, failed without effect on the kernel, or cut off. -/
theorem ManagedRow.wp_delete (row : ManagedRow) (uid : Nat) (core : DaemonCore) :
    wp Any (row.delete uid) (fun _ => row.Done uid core)
      (Unchanged core) (row.Leaves uid core) core := by
  cases row with
  | ofRoute route hm => exact wp_netRouteDel_managed core uid route hm
  | ofRule rule hm => exact wp_netRuleDel_managed core uid rule hm

/-- The final state of a run meets what every end of it meets. -/
theorem final_of_wp {α : Type} {m : Prog α} {K : DaemonCore → Prop}
    (h : wp Any m (fun _ => K) (fun _ => K) K core) (vs : List (Verdict Fault)) :
    K (m core vs).2.1 := by
  have hend := h vs fun _ _ => trivial
  generalize m core vs = r at hend
  obtain ⟨o, c, w⟩ := r
  cases o with
  | ok a => exact hend.2
  | err e => exact hend.2
  | crash => exact hend

theorem ManagedRow.delete_leaves (row : ManagedRow) (uid : Nat) (core : DaemonCore)
    (vs : List (Verdict Fault)) : row.Leaves uid core (row.delete uid core vs).2.1 :=
  final_of_wp
    (wp_ends (row.wp_delete uid core) (fun _ _ h => .inr ⟨h.permitted, h.kernel⟩)
      (fun _ _ h => .inl h.1))
    vs

/-! ### The undisturbed delete -/

/-- An undisturbed removal that finds the row takes it out. -/
theorem removeSystemRoute_quiet {route : SystemRoute}
    (h : core.kernel.hasSystemRoute route = true) : removeSystemRoute route core [] =
      (.ok (), { core with kernel := (core.kernel.removeSystemRoute route).2 }, []) :=
  onKernel_of_ok rfl ((removeSystemRoute_ok_iff core.kernel route).mpr h)

theorem removeSystemRule_quiet {rule : SystemRule}
    (hpolicy : core.executors.policy = true) (h : core.kernel.hasSystemRule rule = true) :
    removeSystemRule rule core [] =
      (.ok (), { core with kernel := (core.kernel.removeSystemRule rule).2 }, []) := by
  unfold removeSystemRule withPolicy
  rw [bind_of_ok (gets_apply ..), hpolicy, if_pos rfl]
  exact onKernel_of_ok rfl ((removeSystemRule_ok_iff core.kernel rule).mpr h)

theorem owner_eq_manual_of_not_foundElsewhere {owner : Owner} (h : ¬FoundElsewhere core uid selects)
    (ho : ownerListing core.journal uid selects = some owner) : owner = .manual := by
  by_contra hne
  exact h ⟨owner, ho, hne⟩

/-- Undisturbed and not refused, the delete returns. -/
theorem ManagedRow.delete_quiet (h : ¬row.Refused uid core) :
    ∃ core', row.delete uid core [] = (.ok .deleted, core', []) ∧ row.Done uid core core' := by
  suffices hrun : ∃ core', row.delete uid core [] = (.ok .deleted, core', []) by
    obtain ⟨core', hrun⟩ := hrun
    have hend := row.wp_delete uid core [] (by simp)
    rw [hrun] at hend
    exact ⟨core', hrun, hend.2⟩
  cases row with
  | ofRoute route hm =>
    simp only [ManagedRow.Refused, not_or, not_not, Bool.not_eq_false] at h
    obtain ⟨htable, hkind, hlookup, hhas⟩ := h
    simp only [ManagedRow.delete, netRouteDel, htable, hkind, hm, netRouteDelOwned, ne_eq,
      not_true_eq_false, Bool.false_eq_true, if_false, if_true]
    rw [bind_of_ok (gets_apply ..)]
    cases hlisting : ownerListing core.journal uid (listsRoute route) with
    | none =>
      simp only
      rw [bind_of_ok (removeSystemRoute_quiet hhas)]
      exact ⟨_, rfl⟩
    | some owner =>
      obtain rfl := owner_eq_manual_of_not_foundElsewhere hlookup hlisting
      simp only [netRouteDelManual]
      rw [bind_of_ok (removeSystemRoute_quiet hhas), bind_of_ok (forgetManual_run ..)]
      exact ⟨_, rfl⟩
  | ofRule rule hm =>
    simp only [ManagedRow.Refused, not_or, Bool.not_eq_false] at h
    obtain ⟨hpriority, haction, hlookup, hpolicy, hhas⟩ := h
    simp only [ManagedRow.delete, netRuleDel, hpriority, haction, hm, netRuleDelOwned,
      Bool.not_true, Bool.false_eq_true, if_false, if_true]
    rw [bind_of_ok (gets_apply ..)]
    cases hlisting : ownerListing core.journal uid (listsRule rule) with
    | none =>
      simp only
      rw [bind_of_ok (removeSystemRule_quiet hpolicy hhas)]
      exact ⟨_, rfl⟩
    | some owner =>
      obtain rfl := owner_eq_manual_of_not_foundElsewhere hlookup hlisting
      simp only
      rw [bind_of_ok (removeSystemRule_quiet hpolicy hhas), bind_of_ok (forgetManual_run ..)]
      exact ⟨_, rfl⟩

/-! ### The exact condition -/

/-- The removal of an unprotected object spares the protected ones. -/
theorem ManagedRow.deleted_spares (h : row.Unprotected uid core) :
    (∀ r ∈ core.kernel.routes, ProtectedRoute core uid r.key →
      r ∈ (row.deleted core.kernel).routes) ∧
    (∀ r ∈ core.kernel.rules, ProtectedRule core uid r.key →
      r ∈ (row.deleted core.kernel).rules) := by
  cases row with
  | ofRoute route hm =>
    refine ⟨fun r hr hp => mem_removeRouteRows.mpr ⟨hr, ?_⟩, fun r hr _ => ?_⟩
    · have hkey : r.key ≠ route.key := fun hkey => h (hkey ▸ hp)
      simp [hkey]
    · simpa [ManagedRow.deleted, Kernel.removeSystemRoute] using hr
  | ofRule rule hm =>
    refine ⟨fun r hr _ => ?_, fun r hr hp => mem_removeRuleRows.mpr ⟨hr, ?_⟩⟩
    · simpa [ManagedRow.deleted, Kernel.removeSystemRule] using hr
    · have hkey : r.key ≠ rule.key := fun hkey => h (hkey ▸ hp)
      simp [hkey]

/-- A protected object that the delete finds does not survive it. -/
theorem ManagedRow.unprotected_of_deleted_spares (hrefused : ¬row.Refused uid core)
    (hroutes : ∀ r ∈ core.kernel.routes, ProtectedRoute core uid r.key →
      r ∈ (row.deleted core.kernel).routes)
    (hrules : ∀ r ∈ core.kernel.rules, ProtectedRule core uid r.key →
      r ∈ (row.deleted core.kernel).rules) : row.Unprotected uid core := by
  cases row with
  | ofRoute route hm =>
    simp only [ManagedRow.Refused, not_or, Bool.not_eq_false] at hrefused
    intro hp
    have hany := hrefused.2.2.2
    obtain ⟨r, hr, hsel⟩ := List.any_eq_true.mp hany
    have hkey : r.key = route.key := by
      simp only [Bool.and_eq_true, beq_iff_eq] at hsel
      exact hsel.1
    have hout := (mem_removeRouteRows.mp (hroutes r hr (hkey ▸ hp))).2
    rw [hsel] at hout
    cases hout
  | ofRule rule hm =>
    simp only [ManagedRow.Refused, not_or, Bool.not_eq_false] at hrefused
    intro hp
    have hany := hrefused.2.2.2.2
    obtain ⟨r, hr, hsel⟩ := List.any_eq_true.mp hany
    have hkey : r.key = rule.key := by
      simp only [Bool.and_eq_true, beq_iff_eq] at hsel
      exact hsel.1
    have hout := (mem_removeRuleRows.mp (hrules r hr (hkey ▸ hp))).2
    rw [hsel] at hout
    cases hout

/-- A managed delete spares the protected objects exactly when it is refused, or the object
it names is not a protected one. -/
theorem managed_delete_isolated_iff (row : ManagedRow) (uid : Nat) (core : DaemonCore) :
    row.Isolated uid core ↔ row.Refused uid core ∨ row.Unprotected uid core := by
  constructor
  · intro hiso
    by_cases hrefused : row.Refused uid core
    · exact .inl hrefused
    · have hrun := hiso []
      obtain ⟨core', heq, hdone⟩ := ManagedRow.delete_quiet hrefused
      rw [heq, hdone.kernel] at hrun
      exact .inr (ManagedRow.unprotected_of_deleted_spares hrefused hrun.1 hrun.2)
  · intro h vs
    rcases row.delete_leaves uid core vs with hsame | ⟨hrefused, hdeleted⟩
    · rw [hsame]
      exact ⟨fun r hr _ => hr, fun r hr _ => hr⟩
    · rw [hdeleted]
      exact ManagedRow.deleted_spares (h.resolve_left hrefused)

/-- The lab route as `net.tables` shows it. -/
def labRow : SystemRoute :=
  { family := .ipv4
    destination := .v4 0x0a010000 24
    table := rtTableMain
    kind := .unicast
    scope := .link
    protocol := rtprotNetworkOrchestrator
    managed := true
    gateway := none
    interfaceIndex := some 2
    interfaceName := none
    metric := none
    prefSource := none
    nexthops := [] }

/-- Any other user can delete the lab route: nothing in their own entries matches it, and a
row that matches nothing is deleted. -/
theorem stranger_deletes_lab_route :
    labRow ∈ afterLabRoute.kernel.netTables.routes ∧
      ¬(ManagedRow.ofRoute labRow rfl).Isolated 1001 afterLabRoute := by
  refine ⟨by decide, fun hiso => ?_⟩
  have hprotected : ProtectedRoute afterLabRoute 1001 labRow.key :=
    ⟨_, List.mem_singleton.mpr rfl, .inl (by decide), _, List.mem_singleton.mpr rfl, by decide⟩
  have hin := (hiso []).1 (labRow.install (.daemon 1000 .manual)) (by decide) hprotected
  exact absurd hin (by decide)

end NetOrchestrator.Daemon
