import NetOrchestrator.Daemon.CondRules
import NetOrchestrator.Proofs.OwnerExclusive

/-!
# `Proofs.CondFrame`: what a pass over the rules keeps

A pass consists of removals and applies for owners of rules, so what all of these keep, the pass
keeps (`keepsUntil_reconcileConditional`). `RuleShape` is what they keep of a journal and the kernel:
an owner of a rule has one entry at most, the entry lists routes only, and it lists every route
that the kernel has for this owner. It holds of the journal in memory and of the one on disk
(`Shaped`), whatever fails and wherever the daemon is cut off.
-/

namespace NetOrchestrator.Daemon

open Net Lib Lib.Call List

/-! ### A pass is made of removals and applies -/

section
variable {V : Verdict Fault → Prop} {I C : DaemonCore → Prop}

theorem keepsUntil_entryAt (index : Nat) : KeepsUntil V I C (entryAt index) :=
  fun _ h => wp_entryAt (fun _ _ => h) (fun _ => h)

/-- A rule's owner is removed by the teardown of its entry and a save. -/
theorem keepsUntil_removeOwnerInner {uid : Nat} {ruleId : String}
    (hpersist : KeepsUntil V I C persist)
    (hteardown : ∀ {core index entry}, I core → core.journal[index]? = some entry →
      entry.owner = .cond ruleId → wp V (teardownEntry index) (fun _ => I) (fun _ => I) C core) :
    KeepsUntil V I C (removeOwnerInner uid (.cond ruleId)) := by
  intro core h
  refine wp_bind (wp_position ?_)
  cases hposition : core.journal.position uid (.cond ruleId) with
  | none => exact wp_throw h
  | some index =>
    obtain ⟨entry, hentry, -, howner⟩ := Journal.position_eq_some hposition
    refine wp_bind (wp_entryAt (fun _ _ => ?_) fun _ => h)
    refine wp_either (hteardown h hentry howner) (fun _ c hc => ?_) (fun _ c hc => ?_)
    · exact hpersist.bind (fun _ => .ofExcept _) c hc
    · exact hpersist.bind (fun _ => .ofExcept _) c hc

variable (hremove : ∀ uid ruleId, KeepsUntil V I C (removeOwnerInner uid (.cond ruleId)))
include hremove

theorem keepsUntil_removeOrphans (rules : List UserRule) (n : Nat) (changed : List OwnerKey) :
    KeepsUntil V I C (removeOrphans rules n changed) := by
  induction n generalizing changed with
  | zero => exact KeepsUntil.pure _
  | succ n ih =>
    refine KeepsUntil.bind (keepsUntil_entryAt n) fun entry => ?_
    split
    · rename_i horphan
      cases howner : entry.owner with
      | cond ruleId => exact KeepsUntil.bind (hremove _ _).attempt fun _ => ih _
      | _ =>
        -- Only the entries of conditional rules are orphans.
        simp [condOrphan, howner] at horphan
    · exact ih changed

theorem keepsUntil_evaluateRule {rule : UserRule}
    (happly : ∀ routes, KeepsUntil V I C (applyRoutesInner rule.1 rule.key.2 routes none))
    (observed : List AppliedRoute) (desired : Option (List AppliedRoute)) :
    KeepsUntil V I C (evaluateRule observed rule desired) := by
  have hremoved : KeepsUntil V I C (removeOwnerInner rule.1 rule.key.2) := hremove _ _
  refine KeepsUntil.bind (KeepsUntil.gets _) fun found => ?_
  cases found with
  | none =>
    cases desired with
    | none => exact KeepsUntil.pure _
    | some routes => exact KeepsUntil.bind (happly routes) fun _ => KeepsUntil.pure _
  | some index =>
    cases desired with
    | none => exact KeepsUntil.bind hremoved fun _ => KeepsUntil.pure _
    | some routes =>
      refine KeepsUntil.bind (keepsUntil_entryAt index) fun entry => KeepsUntil.ite (KeepsUntil.pure _) ?_
      exact KeepsUntil.bind hremoved fun _ => KeepsUntil.bind (happly routes) fun _ => KeepsUntil.pure _

variable {rules : List UserRule}
  (happly : ∀ rule ∈ rules, ∀ routes,
    KeepsUntil V I C (applyRoutesInner rule.1 rule.key.2 routes none)) (addrs : List IfaceAddr)
  (observed : List AppliedRoute)
include happly

theorem keepsUntil_evaluateRules (owned : List Nat) (pass : CondPass) :
    KeepsUntil V I C (evaluateRules addrs observed owned rules pass) := by
  induction rules generalizing pass with
  | nil => exact KeepsUntil.pure _
  | cons rule rest ih =>
    refine KeepsUntil.bind (keepsUntil_evaluateRule hremove (happly rule (by simp)) _ _).attempt ?_
    exact fun _ => ih (fun rule hrule => happly rule (mem_cons_of_mem _ hrule)) _

theorem keepsUntil_reconcileConditional :
    KeepsUntil V I C (reconcileConditional addrs observed rules) :=
  KeepsUntil.bind (KeepsUntil.gets _) fun count =>
    KeepsUntil.bind (keepsUntil_removeOrphans hremove rules count []) fun _ =>
      KeepsUntil.bind (KeepsUntil.gets _) fun owned =>
        keepsUntil_evaluateRules hremove happly addrs observed owned _

end

/-! ### The entries of rules -/

/-- The entry of a conditional rule. -/
def JournalEntry.isCond (e : JournalEntry) : Bool :=
  match e.owner with
  | .cond _ => true
  | _ => false

def UserRule.origin (rule : UserRule) : Origin := .daemon rule.1 (.cond rule.2.id)

theorem JournalEntry.isCond_of_origin {e : JournalEntry} {uid : Nat} {ruleId : String}
    (h : e.origin = .daemon uid (.cond ruleId)) : e.isCond = true := by
  have howner : e.owner = .cond ruleId := (Origin.daemon.inj h).2
  rw [JournalEntry.isCond, howner]

structure RuleShape (j : Journal) (k : Kernel) : Prop where
  apart : j.Pairwise fun a b => a.isCond = true → b.isCond = true → a.origin ≠ b.origin
  routes : ∀ e ∈ j, e.isCond = true → ∀ x ∈ e.resources, ∃ r, x = .route r
  listed : ∀ row ∈ k.routes, ∀ uid ruleId, row.origin = .daemon uid (.cond ruleId) →
    row.route.protocol = rtprotNetworkOrchestrator ∧
      ∃ e ∈ j, e.origin = row.origin ∧ e.Lists row.key

namespace RuleShape

variable {j j' : Journal} {k k' : Kernel} {i : Nat} {entry : JournalEntry}

/-- Where the daemon owns nothing. -/
theorem fresh (h : ∀ row ∈ k.routes, row.origin = .foreign) : RuleShape [] k where
  apart := .nil
  routes := by simp
  listed row hrow uid ruleId horigin := by
    rw [h row hrow] at horigin
    cases horigin

section
variable (h : RuleShape j k)
include h

/-- Routes that go away, and routes of other owners. -/
theorem shrink (hrows : ∀ row ∈ k'.routes, ∀ uid ruleId, row.origin = .daemon uid (.cond ruleId) →
      row ∈ k.routes) : RuleShape j k' :=
  { h with
    listed row hrow uid ruleId horigin :=
      h.listed row (hrows row hrow uid ruleId horigin) uid ruleId horigin }

/-- Only the entries of rules matter. -/
theorem of_filter (hsame : j'.filter JournalEntry.isCond = j.filter JournalEntry.isCond) :
    RuleShape j' k := by
  have hmem : ∀ e, e.isCond = true → (e ∈ j' ↔ e ∈ j) := by
    intro e hcond
    have hfilter : e ∈ j'.filter JournalEntry.isCond ↔ e ∈ j.filter JournalEntry.isCond := by
      rw [hsame]
    simpa [hcond] using hfilter
  refine ⟨?_, fun e he hcond => h.routes e ((hmem e hcond).mp he) hcond, ?_⟩
  · rw [← pairwise_filter, hsame, pairwise_filter]
    exact h.apart
  · intro row hrow uid ruleId horigin
    obtain ⟨hprotocol, e, he, heq, hlists⟩ := h.listed row hrow uid ruleId horigin
    have hcond : e.isCond = true := JournalEntry.isCond_of_origin (heq.trans horigin)
    exact ⟨hprotocol, e, (hmem e hcond).mpr he, heq, hlists⟩

variable {a b : JournalEntry} {uid : Nat} {ruleId : String}

/-- The entry of an owner is the only one. -/
theorem eq_index {i' : Nat} (ha : j[i]? = some a) (hb : j[i']? = some b)
    (hcond : a.isCond = true) (horigin : a.origin = b.origin) : i = i' := by
  by_contra hne
  have hcond' : b.isCond = true := by
    have howner : a.owner = b.owner := (Origin.daemon.inj horigin).2
    rwa [JournalEntry.isCond, ← howner]
  exact pairwise_getElem? (R := fun a b : JournalEntry => a.isCond = true → b.isCond = true →
      a.origin ≠ b.origin)
    (fun a b hab hb ha heq => hab ha hb heq.symm) h.apart hne ha hb hcond hcond' horigin

theorem eq_of_origin (ha : a ∈ j) (hb : b ∈ j) (hcond : a.isCond = true)
    (horigin : a.origin = b.origin) : a = b := by
  obtain ⟨i, hi⟩ := mem_iff_getElem?.mp ha
  obtain ⟨i', hi'⟩ := mem_iff_getElem?.mp hb
  obtain rfl := h.eq_index hi hi' hcond horigin
  exact Option.some.inj (hi.symm.trans hi')

/-- The entry goes away with its routes. -/
theorem eraseIdx (hentry : j[i]? = some entry)
    (hrows : ∀ row ∈ k'.routes, row ∈ k.routes ∧ row.origin ≠ entry.origin) :
    RuleShape (j.eraseIdx i) k' where
  apart := h.apart.sublist (eraseIdx_sublist ..)
  routes e he := h.routes e (mem_of_mem_eraseIdx he)
  listed row hrow uid ruleId horigin := by
    obtain ⟨hold, hne⟩ := hrows row hrow
    obtain ⟨hprotocol, e, he, heq, hlists⟩ := h.listed row hold uid ruleId horigin
    refine ⟨hprotocol, e, mem_eraseIdx_of_ne he hentry ?_, heq, hlists⟩
    rintro rfl
    exact hne heq.symm

/-- The entry lists less, and still all of its routes that are left. -/
theorem modify (hentry : j[i]? = some entry) {f : JournalEntry → JournalEntry}
    (horigin : (f entry).origin = entry.origin)
    (hroutes : (f entry).isCond = true → ∀ x ∈ (f entry).resources, ∃ r, x = .route r)
    (hrows : ∀ row ∈ k'.routes, row ∈ k.routes)
    (hown : ∀ row ∈ k'.routes, row.origin = entry.origin → (f entry).Lists row.key) :
    RuleShape (j.modify i f) k' := by
  have hmem : f entry ∈ j.modify i f := by
    refine mem_iff_getElem?.mpr ⟨i, ?_⟩
    rw [getElem?_modify_eq, hentry]
    rfl
  refine ⟨?_, ?_, ?_⟩
  · refine pairwise_modify (fun a b hab hb ha heq => hab ha hb heq.symm) h.apart ?_
    intro a ha i' b hne hb hcond hcond' heq
    obtain rfl : entry = a := Option.some.inj (hentry.symm.trans ha)
    rw [horigin] at heq
    have hcond : entry.isCond = true := by
      have howner : entry.owner = b.owner := (Origin.daemon.inj heq).2
      rwa [JournalEntry.isCond, howner]
    exact hne (h.eq_index hentry hb hcond heq).symm
  · intro e he hcond
    obtain ⟨i', hi'⟩ := mem_iff_getElem?.mp he
    by_cases hne : i = i'
    · subst hne
      rw [getElem?_modify_eq, hentry] at hi'
      obtain rfl : f entry = e := Option.some.inj hi'
      exact hroutes hcond
    · rw [getElem?_modify_of_ne (Ne.symm hne)] at hi'
      exact h.routes e (mem_of_getElem? hi') hcond
  · intro row hrow uid ruleId ho
    obtain ⟨hprotocol, e, he, heq, hlists⟩ := h.listed row (hrows row hrow) uid ruleId ho
    refine ⟨hprotocol, ?_⟩
    by_cases hsame : row.origin = entry.origin
    · exact ⟨f entry, hmem, horigin.trans hsame.symm, hown row hrow hsame⟩
    · obtain ⟨i', hi'⟩ := mem_iff_getElem?.mp he
      refine ⟨e, mem_iff_getElem?.mpr ⟨i', ?_⟩, heq, hlists⟩
      rw [getElem?_modify_of_ne, hi']
      rintro rfl
      exact hsame (heq.symm.trans (congrArg _ (Option.some.inj (hi'.symm.trans hentry))))

/-- A new entry, with routes for it. -/
theorem push (hfree : j.position uid (.cond ruleId) = none)
    {state : OwnedState} {routes left : List AppliedRoute}
    (hk : k.Extends k' (.daemon uid (.cond ruleId)) left) (hleft : left ⊆ routes) :
    RuleShape (j ++ [routeEntry uid (.cond ruleId) state none routes]) k' := by
  have hlists : ∀ r ∈ routes, (routeEntry uid (.cond ruleId) state none routes).Lists r.key :=
    fun r hr => ⟨r, mem_append_right _ (mem_map_of_mem hr), rfl⟩
  refine ⟨?_, ?_, ?_⟩
  · refine pairwise_append.mpr ⟨h.apart, pairwise_singleton .., ?_⟩
    intro a ha b hb _ _ heq
    rw [mem_singleton.mp hb] at heq
    exact origin_ne_of_position hfree a ha heq
  · intro e he hcond
    rcases mem_append.mp he with hold | hnew
    · exact h.routes e hold hcond
    · rw [mem_singleton.mp hnew]
      intro x hx
      obtain ⟨r, -, rfl⟩ := mem_map.mp hx
      exact ⟨r, rfl⟩
  · intro row hrow uid' ruleId' ho
    rcases (hk.mem row).mp hrow with hold | ⟨r, hr, rfl⟩
    · obtain ⟨hprotocol, e, he, heq, hl⟩ := h.listed row hold uid' ruleId' ho
      exact ⟨hprotocol, e, mem_append_left _ he, heq, hl⟩
    · refine ⟨rfl, _, mem_append_right _ (mem_singleton.mpr rfl), rfl, ?_⟩
      rw [AppliedRoute.key_install]
      exact hlists r (hleft hr)

/-- The routes are listed wherever a failed apply leaves any. -/
theorem failedApply (hfree : j.position uid (.cond ruleId) = none)
    {left : List AppliedRoute} (hk : k.Extends k' (.daemon uid (.cond ruleId)) left) :
    RuleShape (Daemon.failedApply j uid (.cond ruleId) none left) k' := by
  unfold Daemon.failedApply
  split
  · rename_i hempty
    obtain rfl : left = [] := by simpa using hempty
    refine h.shrink fun row hrow _ _ _ => ?_
    rcases (hk.mem row).mp hrow with hold | ⟨r, hr, -⟩
    · exact hold
    · cases hr
  · exact h.push hfree hk (fun _ hr => hr)

end

theorem applyFails {core c : DaemonCore} (h : RuleShape core.journal core.kernel) {uid : Nat}
    {ruleId : String} {routes : List AppliedRoute}
    (ha : ApplyFails core uid (.cond ruleId) routes none c) : RuleShape c.journal c.kernel := by
  cases ha with
  | refused => exact h
  | unsynced _ _ => exact h
  | rolledBack k left disk _ hfree hk _ _ => exact h.failedApply hfree hk

end RuleShape

/-! ### Whatever fails -/

/-- The journal in memory and the one on disk. -/
structure Shaped (core : DaemonCore) : Prop where
  journal : RuleShape core.journal core.kernel
  disk : RuleShape core.disk core.kernel

section
variable {V : Verdict Fault → Prop} {core : DaemonCore} {uid : Nat} {ruleId : String}

theorem Shaped.save (h : Shaped core) : Shaped { core with disk := core.journal } :=
  ⟨h.journal, h.journal⟩

/-- What a cut-off leaves for the next start of the daemon. -/
def ShapedDisk (core : DaemonCore) : Prop := RuleShape core.disk core.kernel

theorem keepsUntil_persist_shaped : KeepsUntil V Shaped ShapedDisk persist :=
  fun _ h => wp_persist (fun _ => h.disk) h h.save

section
variable {routes : List AppliedRoute} {c : DaemonCore} (h : Shaped core)
include h

theorem Shaped.applies (ha : Applies core uid (.cond ruleId) routes none c) : Shaped c := by
  obtain ⟨-, hfree, k, disk, hk, hdisk, rfl⟩ := ha
  have hsub : routes.reverse ⊆ routes := fun r hr => mem_reverse.mp hr
  refine ⟨h.journal.push hfree hk hsub, ?_⟩
  rcases hdisk with rfl | rfl
  · exact h.journal.push hfree hk hsub
  · exact h.journal.push hfree hk hsub

theorem Shaped.applyFails (ha : ApplyFails core uid (.cond ruleId) routes none c) : Shaped c := by
  refine ⟨h.journal.applyFails ha, ?_⟩
  cases ha with
  | refused => exact h.disk
  | unsynced _ hfree => exact h.journal.push hfree (.refl _ _) (nil_subset _)
  | rolledBack k left disk _ hfree hk hsub hsaved =>
    rcases hsaved with rfl | rfl
    · exact h.journal.push hfree hk hsub
    · exact h.journal.failedApply hfree hk

end

theorem keepsUntil_applyRoutesInner_shaped (uid : Nat) (ruleId : String)
    (routes : List AppliedRoute) :
    KeepsUntil V Shaped ShapedDisk (applyRoutesInner uid (.cond ruleId) routes none) := by
  intro core h
  by_cases hfree : core.journal.position uid (.cond ruleId) = none
  · refine wp_mono (wp_applyRoutesInner core uid (.cond ruleId) routes none)
      (fun _ _ ha => h.applies ha) (fun _ _ ha => h.applyFails ha) ?_
    rintro c ⟨-, ⟨hkernel, hdisk⟩ | ⟨added, hk, hsub, hdisk⟩⟩
    · rw [ShapedDisk, hkernel, hdisk]
      exact h.disk
    · rw [ShapedDisk, hdisk]
      exact h.journal.push hfree hk hsub
  · -- The owner has an entry, so the request ends before its first step.
    refine wp_bind (wp_demand (fun _ => wp_bind (wp_position ?_)) fun _ _ => h)
    rw [if_pos (Option.isSome_iff_ne_none.mpr hfree)]
    exact wp_throw h

/-- A sweep over routes: none is added, and those of the owner that are left are still to be
removed or could not be. -/
structure SweptRoutes (base : Kernel) (origin : Origin) (left rest : List OwnedResource)
    (k : Kernel) : Prop where
  rows : ∀ row ∈ k.routes, row ∈ base.routes
  routes : ∀ x ∈ left ++ rest, ∃ r, x = .route r
  own : ∀ row ∈ k.routes, row.origin = origin → ∃ r, .route r ∈ left ++ rest ∧ r.key = row.key

/-- The removal of a rule's entry. -/
theorem Shaped.wp_teardownEntry (h : Shaped core) {index : Nat} {entry : JournalEntry}
    (hentry : core.journal[index]? = some entry) (howner : entry.owner = .cond ruleId) :
    wp V (teardownEntry index) (fun _ => Shaped) (fun _ => Shaped) ShapedDisk core := by
  have hcond : entry.isCond = true := by rw [JournalEntry.isCond, howner]
  have horigin : entry.origin = .daemon entry.uid (.cond ruleId) := by
    rw [JournalEntry.origin, howner]
  have hlisted : ∀ row ∈ core.kernel.routes, row.origin = entry.origin →
      row.route.protocol = rtprotNetworkOrchestrator ∧ entry.Lists row.key := by
    intro row hrow ho
    obtain ⟨hprotocol, e, he, heq, hl⟩ := h.journal.listed row hrow _ _ (ho.trans horigin)
    obtain rfl := h.journal.eq_of_origin (mem_of_getElem? hentry) he hcond
      (ho.symm.trans heq.symm)
    exact ⟨hprotocol, hl⟩
  refine wp_atEntry hentry ?_
  rw [howner]
  refine wp_mono (wp_teardownGenericEntry
    (J := SweptRoutes core.kernel entry.origin) hentry ?_ ?_ ?_) ?_ ?_ ?_
  · refine ⟨fun _ hrow => hrow, fun x hx => ?_, fun row hrow ho => ?_⟩
    · exact h.journal.routes entry (mem_of_getElem? hentry) hcond x (by simpa using hx)
    · obtain ⟨r, hr, hkey⟩ := (hlisted row hrow ho).2
      exact ⟨r, by simpa using hr, hkey⟩
  · rintro left x rest k ⟨hrows, hroutes, hown⟩
    obtain ⟨r, rfl⟩ := hroutes x (by simp)
    refine ⟨fun row hrow => hrows row (mem_removeRoute.mp hrow).1, fun x hx => ?_, ?_⟩
    · refine hroutes x ?_
      simp only [mem_append, mem_cons] at hx ⊢
      tauto
    · intro row hrow ho
      obtain ⟨hold, hkept⟩ := mem_removeRoute.mp hrow
      obtain ⟨r', hr', hkey⟩ := hown row hold ho
      refine ⟨r', ?_, hkey⟩
      -- A row of the owner with the removed key would have been removed.
      have hne : r' ≠ r := by
        rintro rfl
        exact hkept ⟨hkey.symm, (hlisted row (hrows row hold) ho).1⟩
      simp only [mem_append, mem_cons, OwnedResource.route.injEq] at hr' ⊢
      tauto
  · rintro left x rest k - ⟨hrows, hroutes, hown⟩
    exact ⟨hrows, by simpa using hroutes, by simpa using hown⟩
  · rintro _ _ ⟨k, hk, rfl⟩
    refine ⟨h.journal.eraseIdx hentry fun row hrow => ⟨hk.rows row hrow, fun ho => ?_⟩,
      h.disk.shrink fun row hrow _ _ _ => hk.rows row hrow⟩
    obtain ⟨r, hr, -⟩ := hk.own row hrow ho
    cases hr
  · rintro _ _ ⟨failed, k, -, hk, rfl⟩
    refine ⟨h.journal.modify hentry rfl (fun _ x hx => ?_) hk.rows fun row hrow ho => ?_,
      h.disk.shrink fun row hrow _ _ _ => hk.rows row hrow⟩
    · exact hk.routes x (by simpa [JournalEntry.setResources] using hx)
    · obtain ⟨r, hr, hkey⟩ := hk.own row hrow ho
      exact ⟨r, by simpa [JournalEntry.setResources] using hr, hkey⟩
  · rintro _ ⟨-, left, rest, k, hk, rfl⟩
    exact h.disk.shrink fun row hrow _ _ _ => hk.rows row hrow

theorem keepsUntil_removeOwnerInner_shaped (uid : Nat) (ruleId : String) :
    KeepsUntil V Shaped ShapedDisk (removeOwnerInner uid (.cond ruleId)) :=
  keepsUntil_removeOwnerInner keepsUntil_persist_shaped fun h => h.wp_teardownEntry

/-- A pass, whatever the rules and the snapshots it is given. -/
theorem keepsUntil_reconcileConditional_shaped (addrs : List IfaceAddr)
    (observed : List AppliedRoute) (rules : List UserRule) :
    KeepsUntil V Shaped ShapedDisk (reconcileConditional addrs observed rules) :=
  keepsUntil_reconcileConditional keepsUntil_removeOwnerInner_shaped
    (fun rule _ routes => keepsUntil_applyRoutesInner_shaped rule.1 rule.2.id routes) addrs observed

end

end NetOrchestrator.Daemon
