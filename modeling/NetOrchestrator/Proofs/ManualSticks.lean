import NetOrchestrator.Lib.Runs
import NetOrchestrator.Proofs.ManualIsolation

/-!
# `Proofs.ManualSticks`: deleting what was added by hand

A user adds a route or a rule, and later deletes it with the row that `net.tables` shows.
The delete finds the record by comparing the row with the journaled request. The two are
different normal forms: the kernel stores an IPv6 metric of zero as 1024 and a mark without
a mask with the full mask, and the record keeps what was asked for. A record that the
comparison misses survives the delete, and the next reconcile pass installs it again.

`manual_delete_sticks_iff` is the exact condition under which a delete sticks: every manual
record of the object is in the caller's own entry and in the form of the dump.
-/

namespace NetOrchestrator.Daemon

open Net Lib Lib.Call List Option Verdict Table

/-! ### Objects, records and passes -/

variable {j : Journal} {uid : Nat} {selects : OwnedResource → Bool} {entry : JournalEntry}
  {resource : OwnedResource}

/-- A route that passed the checks of `net_route_add` is the one its parameters ask for. -/
theorem prepareRoute_ok {view : View} {params : NetRouteAddParams} {route : SystemRoute}
    (h : prepareRoute view params = .ok route) :
    isUneditableTable route.table = false ∧ ∃ index, route = manualRoute params index := by
  simp only [prepareRoute] at h
  split at h
  · cases h
  rename_i htable
  split at h
  · cases h
  · split at h
    · cases h
      exact ⟨by simpa [manualRoute] using htable, _, rfl⟩
    · cases h

/-- An object that a checked `net_route_add` or `net_rule_add` installs. -/
inductive AddedObject where
  | ofRoute (view : View) (params : NetRouteAddParams) (route : SystemRoute)
      (prepared : prepareRoute view params = .ok route)
  | ofRule (params : NetRuleAddParams) (valid : validateRuleAdd params = .ok ())

namespace AddedObject

/-- The row of the object as the kernel dumps it after the user's add. -/
def row (uid : Nat) (k : Kernel) : AddedObject → ManagedRow
  | .ofRoute _ _ route prepared =>
    .ofRoute (k.dumpRoute (route.install (.daemon uid .manual))) (by
      obtain ⟨-, index, rfl⟩ := prepareRoute_ok prepared
      rfl)
  | .ofRule params _ => .ofRule (manualRule params).stored rfl

/-- Some row of the object's key is in the kernel. -/
def inKernel (k : Kernel) : AddedObject → Prop
  | .ofRoute _ _ route _ => k.routes.has route.key = true
  | .ofRule params _ => k.rules.has (manualRule params).key = true

/-- A record that names the object: a request for the same kernel key. -/
def namedBy : AddedObject → OwnedResource → Prop
  | .ofRoute _ _ route _, .netRoute installed => installed.key = route.key
  | .ofRule params _, .netRule installed => installed.key = (manualRule params).key
  | _, _ => False

end AddedObject

/-- A record in the form of a dumped row. -/
def OwnedResource.AsDumped : OwnedResource → Prop
  | .netRoute installed =>
    installed.destination.trunc = installed.destination ∧
      kernelMetric installed.family (installed.metric.getD 0) = installed.metric.getD 0
  | .netRule installed =>
    installed.stored = installed ∧ installed.protocol = rtprotNetworkOrchestrator
  | _ => True

/-- What happens after a delete: passes over manual entries, and changes of the machine that
are not the daemon's. -/
inductive LaterStep where
  | pass (index : Nat)
  | machine (kernel : Kernel) (view : View)

def LaterStep.exec : LaterStep → Prog Unit
  | .pass index => do
      let _ ← reconcileManual index
      pure ()
  | .machine kernel view => Call.modify fun core => { core with kernel, view }

/-- A pass visits a manual entry, and nobody else installs the object. -/
def LaterStep.admitted (object : AddedObject) (core : DaemonCore) : LaterStep → Prop
  | .pass index => ∃ entry, core.journal[index]? = some entry ∧ entry.owner = .manual
  | .machine kernel _ => ¬object.inKernel kernel

namespace AddedObject

/-- The object is forgotten: no manual entry of the user lists it, and no later pass
installs it. -/
structure Forgotten (object : AddedObject) (uid : Nat) (core : DaemonCore) : Prop where
  unlisted : ∀ entry ∈ core.journal, entry.uid = uid → entry.owner = .manual →
    ∀ resource ∈ entry.resources, ¬object.namedBy resource
  absent : ∀ later, Reaches LaterStep.exec (LaterStep.admitted object) core later →
    ¬object.inKernel later.kernel

/-- A delete that returns has the object forgotten. -/
def Sticks (object : AddedObject) (uid : Nat) (core : DaemonCore) : Prop :=
  ∀ vs outcome core' vs', (object.row uid core.kernel).delete uid core vs = (.ok outcome, core', vs') →
    object.Forgotten uid core'

/-- Every manual record of the object is in the user's manual entry and as dumped. -/
def Settled (object : AddedObject) (uid : Nat) (core : DaemonCore) : Prop :=
  ∀ index entry, core.journal[index]? = some entry → entry.owner = .manual →
    ∀ resource ∈ entry.resources, object.namedBy resource →
      core.journal.position uid .manual = some index ∧ resource.AsDumped

end AddedObject

/-! ### Comparing records with dumped rows -/

@[simp]
theorem Kernel.key_dumpRoute (k : Kernel) (row : KernelRoute) : (k.dumpRoute row).key = row.key := by
  simp [Kernel.dumpRoute, KernelRoute.key, SystemRoute.key, Function.comp_def]

/-- Next hops compared pairwise, as `same_system_route` does, are equal lists. -/
theorem zip_nexthops_iff (a b : List SystemNexthop) :
    (a.length == b.length && (a.zip b).all fun pair =>
      pair.1.interfaceIndex == pair.2.interfaceIndex && pair.1.gateway == pair.2.gateway) = true ↔
    a.map (fun hop => (hop.interfaceIndex, hop.gateway)) =
      b.map fun hop => (hop.interfaceIndex, hop.gateway) := by
  induction a generalizing b with
  | nil => cases b <;> simp
  | cons x a ih =>
    cases b with
    | nil => simp
    | cons y b =>
      have := ih b
      simp only [Bool.and_eq_true, beq_iff_eq] at this
      simp only [length_cons, zip_cons_cons, all_cons, map_cons,
        List.cons.injEq, Prod.mk.injEq, Bool.and_eq_true, beq_iff_eq,
        Nat.add_right_cancel_iff, ← this]
      tauto

/-- `same_system_route` is the kernel's key, with destination and metric as written. -/
theorem sameSystemRoute_iff (a b : SystemRoute) : sameSystemRoute a b = true ↔
      a.key = b.key ∧ a.destination = b.destination ∧ a.metric.getD 0 = b.metric.getD 0 := by
  have hzip := zip_nexthops_iff a.nexthops b.nexthops
  simp only [Bool.and_eq_true, beq_iff_eq] at hzip
  simp only [sameSystemRoute, SystemRoute.key, RouteKey.mk.injEq, Bool.and_eq_true, beq_iff_eq,
    and_assoc, hzip]
  constructor
  · rintro ⟨hf, hd, ht, hi, hg, hm, hn⟩
    simp [hf, hd, ht, hi, hg, hm, hn]
  · rintro ⟨hf, -, ht, -, hi, hg, hn, hd, hm⟩
    exact ⟨hf, hd, ht, hi, hg, hm, hn⟩

/-- The row of an added rule, as the kernel stores and dumps it. -/
theorem manualRule_key_eq_iff {params : NetRuleAddParams} {installed : SystemRule}
    (h : installed.key = (manualRule params).key) : installed = (manualRule params).stored ↔
      installed.stored = installed ∧ installed.protocol = rtprotNetworkOrchestrator := by
  constructor
  · rintro rfl
    exact ⟨SystemRule.stored_stored _, rfl⟩
  · rintro ⟨hstored, hprotocol⟩
    -- The key leaves out only the protocol number and the flag that it decides.
    have hmanaged : installed.managed = true := by
      rw [← hstored, SystemRule.stored, hprotocol]
      rfl
    simp only [SystemRule.key, hstored] at h
    have hp : (manualRule params).stored.protocol = rtprotNetworkOrchestrator := rfl
    have hm : (manualRule params).stored.managed = true := rfl
    generalize (manualRule params).stored = rule at h hp hm ⊢
    cases installed
    cases rule
    simp_all

namespace AddedObject

variable {object : AddedObject} {k : Kernel}

/-- The comparison of the delete sees a record of the object exactly when the record is in
the form of the dump. -/
theorem records_iff {uid : Nat} {resource : OwnedResource} :
    (object.row uid k).records resource = true ↔ object.namedBy resource ∧ resource.AsDumped := by
  cases object with
  | ofRoute view params route prepared =>
    obtain ⟨-, index, rfl⟩ := prepareRoute_ok prepared
    cases resource with
    | netRoute installed =>
      simp only [row, ManagedRow.records, recordsRoute, namedBy, OwnedResource.AsDumped, sameSystemRoute_iff,
        Kernel.key_dumpRoute, SystemRoute.key_install]
      refine and_congr_right fun hkey => ?_
      have hdest := congrArg RouteKey.destination hkey
      have hmetric := congrArg RouteKey.metric hkey
      simp only [SystemRoute.key] at hdest hmetric
      simp only [Kernel.dumpRoute, SystemRoute.install, SystemRoute.stored, getD_dumpedMetric,
        hdest, hmetric]
      exact and_congr eq_comm eq_comm
    | _ => simp [row, ManagedRow.records, recordsRoute, namedBy]
  | ofRule params valid =>
    cases resource with
    | netRule installed =>
      simp only [row, ManagedRow.records, recordsRule, namedBy, OwnedResource.AsDumped, beq_iff_eq]
      constructor
      · intro h
        have hkey : installed.key = (manualRule params).key := by
          rw [h, SystemRule.key_stored]
        exact ⟨hkey, (manualRule_key_eq_iff hkey).mp h⟩
      · rintro ⟨hkey, hdumped⟩
        exact (manualRule_key_eq_iff hkey).mpr hdumped
    | _ => simp [row, ManagedRow.records, recordsRule, namedBy]

/-- What the delete drops is among what its lookup finds. -/
theorem lists_of_records {uid : Nat}
    {resource : OwnedResource} (h : (object.row uid k).records resource = true) :
    (object.row uid k).lists resource = true := by
  cases object <;> cases resource <;> first | exact h | cases h

end AddedObject

/-! ### What the delete leaves in the journal -/

/-- An entry that is not the user's manual entry is not touched. -/
theorem mem_forgetManual_of_ne {index : Nat} (h : j[index]? = some entry)
    (hne : j.position uid .manual ≠ some index) : entry ∈ j.forgetManual uid selects := by
  unfold Journal.forgetManual
  split
  · exact mem_of_getElem? h
  · rename_i at_ hpos
    have hidx : at_ ≠ index := fun heq => hne (heq ▸ hpos)
    have hkept : (j.modify at_ fun entry => entry.setResources
        (entry.resources.filter fun resource => !selects resource))[index]? = some entry := by
      simp [hidx, h]
    simp only
    split
    · exact mem_eraseIdx_iff_getElem?.mpr ⟨index, hidx.symm, hkept⟩
    · exact mem_of_getElem? hkept

/-- A record that the delete does not select stays in the user's manual entry. -/
theorem exists_mem_forgetManual {index : Nat} (hpos : j.position uid .manual = some index)
    (h : j[index]? = some entry) (hmem : resource ∈ entry.resources)
    (hkeep : selects resource = false) : ∃ entry' ∈ j.forgetManual uid selects,
      entry'.owner = entry.owner ∧ resource ∈ entry'.resources := by
  have hkept : (j.modify index fun entry => entry.setResources
      (entry.resources.filter fun resource => !selects resource))[index]? =
      some (entry.setResources (entry.resources.filter fun resource => !selects resource)) := by
    simp [h]
  have hin : resource ∈ entry.resources.filter fun resource => !selects resource :=
    mem_filter.mpr ⟨hmem, by simp [hkeep]⟩
  refine ⟨entry.setResources (entry.resources.filter fun resource => !selects resource), ?_,
    rfl, hin⟩
  unfold Journal.forgetManual
  rw [hpos]
  simp only [hkept, any_some]
  rw [if_neg]
  · exact mem_of_getElem? hkept
  · rw [List.isEmpty_iff]
    exact ne_nil_of_mem hin

/-- Where an entry comes from, and what it no longer lists. -/
theorem mem_forgetManual {entry' : JournalEntry} (h : entry' ∈ j.forgetManual uid selects) :
    ∃ index entry, j[index]? = some entry ∧ entry'.owner = entry.owner ∧
      ∀ resource ∈ entry'.resources, resource ∈ entry.resources ∧
        (j.position uid .manual = some index → selects resource = false) := by
  unfold Journal.forgetManual at h
  split at h
  · rename_i hpos
    obtain ⟨index, hindex⟩ := mem_iff_getElem?.mp h
    exact ⟨index, entry', hindex, rfl, fun r hr => ⟨hr, fun hp => by rw [hpos] at hp; cases hp⟩⟩
  · rename_i at_ hpos
    have hkept : entry' ∈ j.modify at_ fun entry => entry.setResources
        (entry.resources.filter fun resource => !selects resource) := by
      simp only at h
      split at h
      · exact mem_of_mem_eraseIdx h
      · exact h
    obtain ⟨index, hindex⟩ := mem_iff_getElem?.mp hkept
    rw [getElem?_modify] at hindex
    obtain ⟨entry, hentry, rfl⟩ := map_eq_some_iff.mp hindex
    refine ⟨index, entry, hentry, ?_, ?_⟩
    · split <;> rfl
    · intro resource hr
      split at hr
      · have hfilter := mem_filter.mp hr
        exact ⟨hfilter.1, fun _ => by simpa using hfilter.2⟩
      · rename_i hne
        exact ⟨hr, fun hp => absurd (Option.some.inj (hpos.symm.trans hp)) hne⟩

theorem ownerListing_eq_none (h : ownerListing j uid selects = none) (hentry : entry ∈ j)
    (huid : entry.uid = uid) (hr : resource ∈ entry.resources) : selects resource = false := by
  simp only [ownerListing, map_eq_none_iff, find?_eq_none] at h
  have hany := h entry (mem_filter.mpr ⟨hentry, by simp [huid]⟩)
  by_contra hsel
  exact hany (any_eq_true.mpr ⟨resource, hr, by simpa using hsel⟩)

namespace AddedObject

variable {object : AddedObject} {uid : Nat} {core core' : DaemonCore}

/-- Settled, a delete leaves no manual record of the object. -/
theorem unlisted_of_done (hset : object.Settled uid core)
    (hdone : (object.row uid core.kernel).Done uid core core') :
    ∀ entry ∈ core'.journal, entry.owner = .manual →
      ∀ resource ∈ entry.resources, ¬object.namedBy resource := by
  intro entry' hentry' howner resource hr hnamed
  rw [hdone.journal, ManagedRow.journalAfter] at hentry'
  split at hentry'
  · obtain ⟨index, entry, hindex, hsame, hres⟩ := mem_forgetManual hentry'
    obtain ⟨hpos, hdumped⟩ :=
      hset index entry hindex (hsame ▸ howner) resource (hres resource hr).1 hnamed
    have hdropped := (hres resource hr).2 hpos
    rw [records_iff.mpr ⟨hnamed, hdumped⟩] at hdropped
    cases hdropped
  · rename_i hlisting
    obtain ⟨index, hindex⟩ := mem_iff_getElem?.mp hentry'
    obtain ⟨hpos, hdumped⟩ := hset index entry' hindex howner resource hr hnamed
    -- The record is one that the lookup finds, so the lookup cannot have come out empty.
    have hnone : ownerListing core.journal uid (object.row uid core.kernel).lists = none := by
      rw [eq_none_iff_forall_ne_some]
      intro owner ho
      refine hdone.permitted (ManagedRow.refused_of_foundElsewhere ⟨owner, ho, ?_⟩)
      rintro rfl
      exact hlisting ho
    obtain ⟨entry, hentry, huid, -⟩ := Journal.position_eq_some hpos
    obtain rfl : entry' = entry := Option.some.inj (hindex.symm.trans hentry)
    have hunseen := ownerListing_eq_none hnone hentry' huid hr
    rw [lists_of_records (records_iff.mpr ⟨hnamed, hdumped⟩)] at hunseen
    cases hunseen

/-- Not settled, a delete leaves a manual record of the object behind. -/
theorem listed_of_done (hset : ¬object.Settled uid core)
    (hdone : (object.row uid core.kernel).Done uid core core') :
    ∃ entry ∈ core'.journal, entry.owner = .manual ∧
      ∃ resource ∈ entry.resources, object.namedBy resource := by
  simp only [Settled, not_forall, not_and] at hset
  obtain ⟨index, entry, hindex, howner, resource, hr, hnamed, hmiss⟩ := hset
  rw [hdone.journal, ManagedRow.journalAfter]
  split
  · by_cases hpos : core.journal.position uid .manual = some index
    · have hkeep : (object.row uid core.kernel).records resource = false := by
        by_contra hsel
        exact hmiss hpos (records_iff.mp (by simpa using hsel)).2
      obtain ⟨entry', hentry', hsame, hr'⟩ := exists_mem_forgetManual hpos hindex hr hkeep
      exact ⟨entry', hentry', hsame.trans howner, resource, hr', hnamed⟩
    · exact ⟨entry, mem_forgetManual_of_ne hindex hpos, howner, resource, hr, hnamed⟩
  · exact ⟨entry, mem_of_getElem? hindex, howner, resource, hr, hnamed⟩

end AddedObject

/-! ### Passes over manual entries -/

namespace AddedObject

variable {object : AddedObject}
variable {k : Kernel} {origin : Origin} {tables : NetTablesResult} {resource : OwnedResource}
    {core : DaemonCore}
variable {r : SystemRoute}

/-- An added route brings its own key into the kernel and no other. -/
theorem inKernel_addSystemRoute : object.inKernel (k.addSystemRoute origin r).2 ↔
      object.inKernel k ∨ object.namedBy (.netRoute r) := by
  cases object with
  | ofRoute view params route prepared =>
    simp [inKernel, namedBy, Kernel.addSystemRoute, has_addRouteRow]
  | ofRule params valid => simp [inKernel, namedBy, Kernel.addSystemRoute]

theorem inKernel_addSystemRule {r : SystemRule} : object.inKernel (k.addSystemRule origin r).2 ↔
      object.inKernel k ∨ object.namedBy (.netRule r) := by
  cases object with
  | ofRoute view params route prepared => simp [inKernel, namedBy, Kernel.addSystemRule]
  | ofRule params valid => simp [inKernel, namedBy, Kernel.addSystemRule, has_addRuleRow]

/-- A removed route takes its own key out of the kernel at most. -/
theorem inKernel_removeSystemRoute :
    (object.inKernel (k.removeSystemRoute r).2 → object.inKernel k) ∧
      (¬object.namedBy (.netRoute r) → object.inKernel k →
        object.inKernel (k.removeSystemRoute r).2) := by
  cases object with
  | ofRoute view params route prepared =>
    simp only [inKernel, namedBy, has_iff, Kernel.removeSystemRoute, mem_removeRouteRows]
    refine ⟨?_, ?_⟩
    · rintro ⟨row, ⟨hrow, -⟩, hkey⟩
      exact ⟨row, hrow, hkey⟩
    · rintro hne ⟨row, hrow, hkey⟩
      have hother : row.key ≠ r.key := fun h => hne (h.symm.trans hkey)
      exact ⟨row, ⟨hrow, by simp [hother]⟩, hkey⟩
  | ofRule params valid => simp [inKernel, Kernel.removeSystemRoute]

theorem inKernel_removeSystemRule {r : SystemRule} :
    (object.inKernel (k.removeSystemRule r).2 → object.inKernel k) ∧
      (¬object.namedBy (.netRule r) → object.inKernel k →
        object.inKernel (k.removeSystemRule r).2) := by
  cases object with
  | ofRoute view params route prepared => simp [inKernel, Kernel.removeSystemRule]
  | ofRule params valid =>
    simp only [inKernel, namedBy, has_iff, Kernel.removeSystemRule, mem_removeRuleRows]
    refine ⟨?_, ?_⟩
    · rintro ⟨row, ⟨hrow, -⟩, hkey⟩
      exact ⟨row, hrow, hkey⟩
    · rintro hne ⟨row, hrow, hkey⟩
      have hother : row.key ≠ r.key := fun h => hne (h.symm.trans hkey)
      exact ⟨row, ⟨hrow, by simp [hother]⟩, hkey⟩

/-- No manual entry lists the object, and the kernel does not have it. -/
def Absent (object : AddedObject) (core : DaemonCore) : Prop :=
  ¬object.inKernel core.kernel ∧
    ∀ entry ∈ core.journal, entry.owner = .manual →
      ∀ resource ∈ entry.resources, ¬object.namedBy resource

/-- A record that does not name the object does not bring it back. -/
theorem keeps_reconcileManualResource (h : ¬object.namedBy resource) :
    Keeps Any object.Absent (reconcileManualResource origin tables resource) := by
  have hkernel : ∀ request : Kernel → Reply Unit,
      (∀ k, ¬object.inKernel k → ¬object.inKernel (request k).2) →
      Keeps Any object.Absent (onKernel request) := fun request hreq =>
    keeps_onKernel fun core hcore => ⟨hreq _ hcore.1, hcore.2⟩
  have hattempt : ∀ m : Prog Unit, Keeps Any object.Absent m →
      Keeps Any object.Absent
        (do let result ← Call.attempt m; pure (succeeded result) : Prog Bool) := fun m hm =>
    Keeps.bind (Keeps.attempt hm) fun _ => Keeps.pure _
  cases resource with
  | netRoute r =>
    refine Keeps.ite (Keeps.pure _) (hattempt _ (hkernel _ fun k hk => ?_))
    rw [inKernel_addSystemRoute]
    exact not_or.mpr ⟨hk, h⟩
  | netRule r =>
    refine Keeps.ite (Keeps.pure _) (hattempt _ (keeps_withPolicy (hkernel _ fun k hk => ?_)))
    rw [inKernel_addSystemRule]
    exact not_or.mpr ⟨hk, h⟩
  | suppressedRoute r =>
    exact Keeps.ite (hattempt _ (hkernel _ fun k hk hin => hk (inKernel_removeSystemRoute.1 hin)))
      (Keeps.pure _)
  | suppressedRule r =>
    exact Keeps.ite (hattempt _ (keeps_withPolicy
        (hkernel _ fun k hk hin => hk (inKernel_removeSystemRule.1 hin))))
      (Keeps.pure _)
  | _ => exact Keeps.pure _

theorem keeps_reconcileManualResources
    {resources : List OwnedResource} (h : ∀ resource ∈ resources, ¬object.namedBy resource) :
    Keeps Any object.Absent (reconcileManualResources origin tables resources) := by
  induction resources with
  | nil => exact Keeps.pure _
  | cons resource rest ih =>
    refine Keeps.bind (keeps_reconcileManualResource (h resource (by simp))) fun _ => ?_
    exact Keeps.bind (ih fun r hr => h r (by simp [hr])) fun _ => Keeps.pure _

/-- An object that is absent stays absent, whatever comes later. -/
theorem Absent.later {later : DaemonCore} (h : object.Absent core)
    (hlater : Reaches LaterStep.exec (LaterStep.admitted object) core later) :
    object.Absent later := by
  refine hlater.invariant (C := fun _ => True) h ?_
  intro core step hcore hok
  cases step with
  | machine kernel view => exact wp_modify ⟨hok, hcore.2⟩
  | pass index =>
    obtain ⟨entry, hentry, howner⟩ := hok
    have hres := hcore.2 entry (mem_of_getElem? hentry) howner
    refine wp_bind (wp_tried (wp_query (fun _ => trivial) ?_ ?_ ?_))
    · exact fun _ _ => wp_pure (wp_pure hcore)
    · intro tables _
      refine wp_bind (wp_entryAt ?_ ?_)
      · intro entry' hentry'
        obtain rfl : entry = entry' := Option.some.inj (hentry.symm.trans hentry')
        exact wp_mono (keeps_reconcileManualResources hres core hcore)
          (fun _ _ h' => wp_pure h') (fun _ _ h' => h') (fun _ _ => trivial)
      · intro hnone
        rw [hentry] at hnone
        cases hnone
    · exact fun _ _ => wp_pure (wp_pure hcore)

/-! ### An undisturbed pass over a leftover record -/

/-- The executors can install the object. -/
def served (x : Executors) : AddedObject → Prop
  | .ofRoute .. => True
  | .ofRule .. => x.policy = true

/-- A dump in which the object does not occur. -/
def missingFrom (object : AddedObject) (tables : NetTablesResult) : Prop :=
  (∀ seen ∈ tables.routes, ¬object.namedBy (.netRoute seen)) ∧
    ∀ seen ∈ tables.rules, ¬object.namedBy (.netRule seen)

theorem missingFrom_netTables (h : ¬object.inKernel k) : object.missingFrom k.netTables := by
  refine ⟨fun seen hseen hnamed => h ?_, fun seen hseen hnamed => h ?_⟩
  · obtain ⟨row, hrow, rfl⟩ := mem_map.mp hseen
    cases object with
    | ofRoute view params route prepared =>
      exact has_iff.mpr ⟨row, hrow, by simpa [namedBy] using hnamed⟩
    | ofRule params valid => exact hnamed.elim
  · obtain ⟨row, hrow, rfl⟩ := mem_map.mp hseen
    cases object with
    | ofRoute view params route prepared => exact hnamed.elim
    | ofRule params valid => exact has_iff.mpr ⟨row, hrow, hnamed⟩

/-- What matters about a record is its kernel key. -/
theorem namedBy_of_sameSystemRoute {a b : SystemRoute} (h : sameSystemRoute a b = true)
    (hb : object.namedBy (.netRoute b)) : object.namedBy (.netRoute a) := by
  cases object with
  | ofRoute view params route prepared => exact ((sameSystemRoute_iff a b).mp h).1.trans hb
  | ofRule params valid => exact hb.elim

/-- The kernel request of an undisturbed pass is made, and its error is swallowed. -/
theorem wp_attempt_quiet {request : Kernel → Reply Unit}
    {E : IoError → DaemonCore → Prop} {C : DaemonCore → Prop} : wp Quiet
      (do let result ← Call.attempt (onKernel request); pure (succeeded result) : Prog Bool)
      (fun _ c => c = { core with kernel := (request core.kernel).2 }) E C core :=
  wp_tried (wp_onKernel (fun h => by cases h) (fun _ h => by cases h)
    (fun _ _ => wp_pure rfl) (fun _ _ => wp_pure rfl))

/-- The state after one record of an undisturbed pass: the object is there when it was there
before, or when the record names it. -/
def Restored (object : AddedObject) (resource : OwnedResource) (core core' : DaemonCore) : Prop :=
  core'.executors = core.executors ∧
    (object.inKernel core.kernel ∨ object.namedBy resource → object.inKernel core'.kernel)

section
variable (hmissing : object.missingFrom tables) (hserved : object.served core.executors)
include hmissing hserved

theorem wp_reconcileManualResource_quiet : Succeeds (reconcileManualResource origin tables resource)
      (fun _ => object.Restored resource core) core := by
  have hskip : ¬object.namedBy resource →
      Succeeds (pure false : Prog Bool) (fun _ => object.Restored resource core) core := fun hne =>
    wp_pure ⟨rfl, fun h => h.resolve_right hne⟩
  have hpolicy : ∀ request : Kernel → Reply Unit,
      (object.inKernel core.kernel ∨ object.namedBy resource → core.executors.policy = true →
        object.inKernel (request core.kernel).2) →
      (core.executors.policy = false → ¬object.namedBy resource) →
      wp Quiet
        (do let result ← Call.attempt (withPolicy (onKernel request)); pure (succeeded result))
        (fun _ => object.Restored resource core) (fun _ _ => False) (fun _ => False) core := by
    intro request hreq hnone
    refine wp_tried (wp_read ?_)
    split
    · rename_i hp
      exact wp_onKernel (fun h => by cases h) (fun _ h => by cases h)
        (fun _ _ => wp_pure ⟨rfl, fun h => hreq h hp⟩)
        (fun _ _ => wp_pure ⟨rfl, fun h => hreq h hp⟩)
    · rename_i hp
      exact wp_throw (wp_pure ⟨rfl, fun h => h.resolve_right (hnone (Bool.eq_false_iff.mpr hp))⟩)
  cases resource with
  | netRoute r =>
    simp only [reconcileManualResource]
    split
    · rename_i hany
      obtain ⟨seen, hseen, hsame⟩ := any_eq_true.mp hany
      exact hskip fun hn => hmissing.1 seen hseen (namedBy_of_sameSystemRoute hsame hn)
    · refine wp_post wp_attempt_quiet ?_
      rintro _ _ rfl
      exact ⟨rfl, fun h => inKernel_addSystemRoute.mpr h⟩
  | netRule r =>
    simp only [reconcileManualResource]
    split
    · rename_i hany
      exact hskip fun hn => hmissing.2 r (contains_iff_mem.mp hany) hn
    · refine hpolicy _ (fun h _ => inKernel_addSystemRule.mpr h) ?_
      intro hp hn
      cases object with
      | ofRoute view params route prepared => exact hn
      | ofRule params valid =>
        rw [served, hp] at hserved
        cases hserved
  | suppressedRoute r =>
    simp only [reconcileManualResource]
    split
    · rename_i hany
      obtain ⟨seen, hseen, hsame⟩ := any_eq_true.mp hany
      refine wp_post wp_attempt_quiet ?_
      rintro _ _ rfl
      refine ⟨rfl, fun h => inKernel_removeSystemRoute.2 ?_ (h.resolve_right (by simp [namedBy]))⟩
      exact fun hn => hmissing.1 seen hseen (namedBy_of_sameSystemRoute hsame hn)
    · exact hskip (by simp [namedBy])
  | suppressedRule r =>
    simp only [reconcileManualResource]
    split
    · rename_i hany
      refine hpolicy _ (fun h _ => inKernel_removeSystemRule.2 ?_
        (h.resolve_right (by simp [namedBy]))) (fun _ => by simp [namedBy])
      exact fun hn => hmissing.2 r (contains_iff_mem.mp hany) hn
    · exact hskip (by simp [namedBy])
  | _ => exact hskip (by simp [namedBy])

theorem wp_reconcileManualResources_quiet {resources : List OwnedResource}
    (h : object.inKernel core.kernel ∨ ∃ resource ∈ resources, object.namedBy resource) :
    Succeeds (reconcileManualResources origin tables resources)
      (fun _ c => object.inKernel c.kernel) core := by
  induction resources generalizing core with
  | nil => exact wp_pure (h.resolve_right (by simp))
  | cons resource rest ih =>
    refine wp_then (wp_reconcileManualResource_quiet hmissing hserved) ?_
    intro _ c hc
    refine wp_then (ih (hc.1 ▸ hserved) ?_) (fun _ _ h => wp_pure h)
    rcases h with hin | ⟨r, hr, hnamed⟩
    · exact .inl (hc.2 (.inl hin))
    · rcases mem_cons.mp hr with rfl | hr
      · exact .inl (hc.2 (.inr hnamed))
      · exact .inr ⟨r, hr, hnamed⟩

end

/-- A manual record of the object is enough for a later pass to install it. -/
theorem restored_of_listed (habsent : ¬object.inKernel core.kernel)
    (hserved : object.served core.executors) {entry : JournalEntry} (hentry : entry ∈ core.journal)
    (howner : entry.owner = .manual) (hr : resource ∈ entry.resources)
    (hnamed : object.namedBy resource) :
    ∃ later, Reaches LaterStep.exec (LaterStep.admitted object) core later ∧
      object.inKernel later.kernel := by
  obtain ⟨index, hindex⟩ := mem_iff_getElem?.mp hentry
  have hpass : Succeeds (LaterStep.exec (.pass index))
      (fun _ c => object.inKernel c.kernel) core := by
    refine wp_bind (wp_tried (wp_query (fun h => by cases h) (fun _ h => by cases h) ?_
      (fun _ h => by cases h)))
    rintro tables ⟨rfl⟩
    refine wp_atEntry hindex ?_
    exact wp_post (wp_reconcileManualResources_quiet (missingFrom_netTables habsent) hserved
        (.inr ⟨resource, hr, hnamed⟩))
      (fun _ _ h => wp_pure h)
  have hend := hpass [] (by simp)
  have hok : LaterStep.admitted object core (.pass index) := ⟨entry, hindex, howner⟩
  rcases hrun : LaterStep.exec (.pass index) core [] with ⟨o, later, vs⟩
  rw [hrun] at hend
  cases o with
  | ok u => exact ⟨later, .call .start hok hrun (by simp), hend.2⟩
  | err e => exact hend.2.elim
  | crash => exact hend.elim

/-! ### The exact condition -/

/-- What the removal of a row that is there leaves has no row of its key. -/
theorem absent_of_done {uid : Nat} {core' : DaemonCore}
    (hdone : (object.row uid core.kernel).Done uid core core') : ¬object.inKernel core'.kernel := by
  have hpermitted := hdone.permitted
  rw [hdone.kernel]
  cases object with
  | ofRoute view params route prepared =>
    simp only [row, ManagedRow.Refused, not_or, Bool.not_eq_false] at hpermitted
    obtain ⟨r, hr, hsel⟩ := any_eq_true.mp hpermitted.2.2.2
    intro hin
    obtain ⟨r', hr', hkey'⟩ := has_iff.mp hin
    obtain ⟨hr', hout⟩ := mem_removeRouteRows.mp hr'
    -- The table has one row per key, so the row that is left is the one that was selected.
    have hkey : r.key = route.key := by
      simp only [Bool.and_eq_true, beq_iff_eq] at hsel
      simpa using hsel.1
    obtain rfl : r = r' := eq_of_key_eq hr hr' (hkey.trans hkey'.symm)
    rw [hsel] at hout
    cases hout
  | ofRule params valid =>
    simp only [row, ManagedRow.Refused, not_or, Bool.not_eq_false] at hpermitted
    obtain ⟨r, hr, hsel⟩ := any_eq_true.mp hpermitted.2.2.2.2
    intro hin
    obtain ⟨r', hr', hkey'⟩ := has_iff.mp hin
    obtain ⟨hr', hout⟩ := mem_removeRuleRows.mp hr'
    have hkey : r.key = (manualRule params).key := by
      simp only [Bool.and_eq_true, beq_iff_eq] at hsel
      simpa using hsel.1
    obtain rfl : r = r' := eq_of_key_eq hr hr' (hkey.trans hkey'.symm)
    rw [hsel] at hout
    cases hout

theorem served_of_not_refused {uid : Nat}
    (h : ¬(object.row uid core.kernel).Refused uid core) : object.served core.executors := by
  cases object with
  | ofRoute view params route prepared => trivial
  | ofRule params valid =>
    simp only [row, ManagedRow.Refused, not_or, Bool.not_eq_false] at h
    exact h.2.2.2.1

end AddedObject

/-- A manual delete sticks exactly when it is refused, or every manual record of the object
is in the user's own entry and in the form of the dump. -/
theorem manual_delete_sticks_iff (object : AddedObject) (uid : Nat) (core : DaemonCore) :
    object.Sticks uid core ↔
      (object.row uid core.kernel).Refused uid core ∨ object.Settled uid core := by
  constructor
  · intro hsticks
    by_contra hcon
    rw [not_or] at hcon
    obtain ⟨hrefused, hset⟩ := hcon
    obtain ⟨core', hrun, hdone⟩ := ManagedRow.delete_quiet hrefused
    have hforgotten := hsticks [] _ core' [] hrun
    obtain ⟨entry, hentry, howner, resource, hr, hnamed⟩ :=
      AddedObject.listed_of_done hset hdone
    obtain ⟨later, hlater, hin⟩ := AddedObject.restored_of_listed (AddedObject.absent_of_done hdone)
      (hdone.executors ▸ AddedObject.served_of_not_refused hrefused) hentry howner hr hnamed
    exact hforgotten.absent later hlater hin
  · intro h vs outcome core' vs' hrun
    have hend := (object.row uid core.kernel).wp_delete uid core vs (fun _ _ => trivial)
    rw [hrun] at hend
    have hdone := hend.2
    have hset := h.resolve_left hdone.permitted
    have hunlisted := AddedObject.unlisted_of_done hset hdone
    have habsent : object.Absent core' := ⟨AddedObject.absent_of_done hdone, hunlisted⟩
    exact ⟨fun entry hentry _ => hunlisted entry hentry, fun later hlater => (habsent.later hlater).1⟩

/-- `fd00:1::/64` on the link with index 2, with no metric given. -/
def ulaRoute : NetRouteAddParams :=
  { destination := .v6 0xfd000001000000000000000000000000 64
    table := none
    gateway := none
    interfaceName := none
    interfaceIndex := some 2
    metric := none
    prefSource := none }

/-- A daemon after that route has been added without trouble. -/
def afterUlaRoute : DaemonCore :=
  (netRouteAdd 1000 ulaRoute (DaemonCore.fresh Kernel.empty View.bare Executors.all) []).2.1

def ulaObject : AddedObject := .ofRoute View.bare ulaRoute (manualRoute ulaRoute 2) rfl

/-- The kernel dumps the route with metric 1024, the record says 0: the delete returns and
the manual entry still lists the route. -/
theorem ula_delete_does_not_stick :
    (∃ core' vs', netRouteAdd 1000 ulaRoute (DaemonCore.fresh Kernel.empty View.bare Executors.all)
      [] = (.ok (), core', vs')) ∧
      (∃ route h, ulaObject.row 1000 afterUlaRoute.kernel = .ofRoute route h ∧
        route ∈ afterUlaRoute.kernel.netTables.routes) ∧
      ¬ulaObject.Sticks 1000 afterUlaRoute := by
  refine ⟨⟨_, _, rfl⟩, ⟨_, rfl, rfl, by decide⟩, fun hsticks => ?_⟩
  have hunlisted := (hsticks [] .deleted _ _ rfl).unlisted
  exact hunlisted _ (List.mem_singleton.mpr rfl) rfl rfl _ (List.mem_singleton.mpr rfl) rfl

end NetOrchestrator.Daemon
