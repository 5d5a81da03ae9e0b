import NetOrchestrator.Proofs.RouteRequests

/-!
# `Proofs.OwnerExclusive`: whose routes an entry lists

A teardown and a convergence step delete what their entry lists. That is safe as long as no
entry lists a route that somebody else put into the kernel. `Exclusive` is that property with
what it needs to be kept: entries of different owners that list different keys.

A convergence step rewrites its entry to the whole derivation of the spec, also where the
kernel refused a route because it was there already. `owners_exclusive` says under which
condition on the steps of a run the property survives, and what a step may then remove.
-/

namespace NetOrchestrator.Daemon

open Net Lib Lib.Call List Table

/-! ### The property -/

/-- The entry lists a route with this key as its own. -/
def JournalEntry.Lists (e : JournalEntry) (key : RouteKey) : Prop :=
  ∃ r, .route r ∈ e.resources ∧ r.key = key

/-- An entry that holds routes, and perhaps the spec they are derived from. -/
structure JournalEntry.IsRouteOwner (e : JournalEntry) : Prop where
  owner : e.owner.holdsRoutes = true
  resources : ∀ x ∈ e.resources, (∃ spec, x = .attachSpec spec) ∨ ∃ r, x = .route r ∧ r.Normal

/-- Different owners, and no key in common. -/
structure JournalEntry.Beside (a b : JournalEntry) : Prop where
  origin : a.origin ≠ b.origin
  keys : ∀ key, a.Lists key → ¬b.Lists key

theorem JournalEntry.Beside.symm (a b : JournalEntry) (h : a.Beside b) : b.Beside a :=
  ⟨h.origin.symm, fun key hb ha => h.keys key ha hb⟩

variable (core : DaemonCore)

/-- No entry lists a route that the daemon did not add for it. -/
def DaemonCore.OwnsWhatItLists : Prop :=
  ∀ e ∈ core.journal, ∀ r, .route r ∈ e.resources → ∀ row ∈ core.kernel.routes,
    row.key = r.key → row.origin = e.origin

structure Exclusive (j : Journal) (k : Kernel) : Prop where
  routeOwners : ∀ e ∈ j, e.IsRouteOwner
  beside : j.Pairwise JournalEntry.Beside
  own : ∀ e ∈ j, ∀ key, e.Lists key → ∀ row ∈ k.routes, row.key = key → row.origin = e.origin

namespace Exclusive

variable {j : Journal} {k k' : Kernel} {index : Nat} {entry : JournalEntry}

theorem ownsWhatItLists {core : DaemonCore} (h : Exclusive core.journal core.kernel) :
    core.OwnsWhatItLists :=
  fun e he r hr row hrow hkey => h.own e he r.key ⟨r, hr, rfl⟩ row hrow hkey

theorem nil (k : Kernel) : Exclusive [] k := ⟨by simp, List.Pairwise.nil, by simp⟩

variable (h : Exclusive j k)
include h

theorem beside_of_ne {i i' : Nat} {a b : JournalEntry} (hne : i ≠ i') (ha : j[i]? = some a)
    (hb : j[i']? = some b) : a.Beside b :=
  pairwise_getElem? JournalEntry.Beside.symm h.beside hne ha hb

/-- Rows that a request took away do no harm. -/
theorem shrink (hsub : ∀ row ∈ k'.routes, row ∈ k.routes) : Exclusive j k' :=
  ⟨h.routeOwners, h.beside, fun e he key hl row hrow => h.own e he key hl row (hsub row hrow)⟩

theorem erase : Exclusive (j.eraseIdx index) k where
  routeOwners e he := h.routeOwners e (mem_of_mem_eraseIdx he)
  beside := h.beside.sublist (eraseIdx_sublist ..)
  own e he := h.own e (mem_of_mem_eraseIdx he)

/-- Rewrite one entry, over a kernel that may have changed. -/
theorem modify {f : JournalEntry → JournalEntry} (hentry : j[index]? = some entry)
    (horigin : (f entry).origin = entry.origin) (hshape : (f entry).IsRouteOwner)
    (hkeys : ∀ i e, i ≠ index → j[i]? = some e → ∀ key, (f entry).Lists key → ¬e.Lists key)
    (hown : ∀ key, (f entry).Lists key → ∀ row ∈ k'.routes, row.key = key →
      row.origin = entry.origin)
    (hothers : ∀ i e, i ≠ index → j[i]? = some e → ∀ key, e.Lists key → ∀ row ∈ k'.routes,
      row.key = key → row ∈ k.routes) : Exclusive (j.modify index f) k' := by
  have hcases : ∀ e ∈ j.modify index f, e = f entry ∨ ∃ i, i ≠ index ∧ j[i]? = some e := by
    intro e he
    obtain ⟨i, hi⟩ := mem_iff_getElem?.mp he
    by_cases hidx : i = index
    · subst hidx
      exact .inl (by simpa [hentry] using hi.symm)
    · exact .inr ⟨i, hidx, by rwa [getElem?_modify_of_ne hidx] at hi⟩
  refine ⟨fun e he => ?_, ?_, fun e he key hl row hrow hkey => ?_⟩
  · obtain rfl | ⟨i, -, hi⟩ := hcases e he
    · exact hshape
    · exact h.routeOwners e (mem_of_getElem? hi)
  · refine pairwise_modify JournalEntry.Beside.symm h.beside fun e he i b hne hb => ?_
    obtain rfl : entry = e := Option.some.inj (hentry.symm.trans he)
    refine ⟨?_, hkeys i b hne hb⟩
    rw [horigin]
    exact (h.beside_of_ne hne.symm hentry hb).origin
  · obtain rfl | ⟨i, hne, hi⟩ := hcases e he
    · rw [horigin]
      exact hown key hl row hrow hkey
    · exact h.own e (mem_of_getElem? hi) key hl row (hothers i e hne hi key hl row hrow hkey)
        hkey

/-- A new entry, over a kernel that has grown by rows of its own. -/
theorem push (hshape : entry.IsRouteOwner) (horigin : ∀ e ∈ j, e.origin ≠ entry.origin)
    (hkeys : ∀ e ∈ j, ∀ key, e.Lists key → ¬entry.Lists key)
    (hold : ∀ row ∈ k'.routes, row ∈ k.routes ∨
      (row.origin = entry.origin ∧ ∀ e ∈ j, ¬e.Lists row.key))
    (hown : ∀ key, entry.Lists key → ∀ row ∈ k'.routes, row.key = key →
      row.origin = entry.origin) : Exclusive (j ++ [entry]) k' := by
  refine ⟨fun e he => ?_, ?_, fun e he key hl row hrow hkey => ?_⟩
  · rcases mem_append.mp he with he | he
    · exact h.routeOwners e he
    · exact mem_singleton.mp he ▸ hshape
  · refine pairwise_append.mpr ⟨h.beside, by simp, fun e he b hb => ?_⟩
    obtain rfl := mem_singleton.mp hb
    exact ⟨horigin e he, hkeys e he⟩
  · rcases mem_append.mp he with he | he
    · rcases hold row hrow with hrow | ⟨-, hnone⟩
      · exact h.own e he key hl row hrow hkey
      · exact absurd (hkey ▸ hl) (hnone e he)
    · obtain rfl := mem_singleton.mp he
      exact hown key hl row hrow hkey

end Exclusive

/-! ### Taking an entry down -/

/-- `k'` is `k` less some rows that the entry lists. -/
structure Withdrawn (k k' : Kernel) (entry : JournalEntry) : Prop where
  sub : ∀ row ∈ k'.routes, row ∈ k.routes
  lost : ∀ row ∈ k.routes, row ∉ k'.routes → entry.Lists row.key

/-- A kernel that differs in one removed route. -/
theorem Withdrawn.removeRoute {k k' : Kernel} {entry : JournalEntry} {r : AppliedRoute}
    (h : Withdrawn k k' entry) (hr : .route r ∈ entry.resources) :
    Withdrawn k (k'.removeRoute r).2 entry := by
  refine ⟨fun row hrow => h.sub row (mem_removeRoute.mp hrow).1, fun row hrow hgone => ?_⟩
  by_cases hk' : row ∈ k'.routes
  · have hkey : row.key = r.key := by
      by_contra hne
      exact hgone (mem_removeRoute.mpr ⟨hk', fun hsel => hne hsel.1⟩)
    exact ⟨r, hr, hkey.symm⟩
  · exact h.lost row hrow hk'

/-- What a teardown of the entry may leave: everything released, or some of it kept. -/
inductive Retired (core : DaemonCore) (index : Nat) (entry : JournalEntry) :
    Bool → DaemonCore → Prop
  | gone (k : Kernel) (disk : Journal) (h : Withdrawn core.kernel k entry) :
      Retired core index entry true
        { core with journal := core.journal.eraseIdx index, kernel := k, disk }
  | kept (k : Kernel) (disk : Journal) (failed : List OwnedResource)
      (h : Withdrawn core.kernel k entry) (hsub : ∀ r ∈ failed, r ∈ entry.resources) :
      Retired core index entry false
        { core with journal := core.journal.leftBehind index failed, kernel := k, disk }

section
variable {V : Verdict Fault → Prop} {core c : DaemonCore} {index : Nat} {entry : JournalEntry}
  {done : Bool}

theorem Retired.withdrawn (h : Retired core index entry done c) :
    Withdrawn core.kernel c.kernel entry := by
  cases h with
  | gone k _ h => exact h
  | kept k _ failed h hsub => exact h

theorem Retired.exclusive (h : Exclusive core.journal core.kernel)
    (hentry : core.journal[index]? = some entry) (hret : Retired core index entry done c) :
    Exclusive c.journal c.kernel := by
  cases hret with
  | gone k disk hw => exact (h.shrink hw.sub).erase
  | kept k disk failed hw hsub =>
    have hshape := h.routeOwners entry (mem_of_getElem? hentry)
    have hlists : ∀ key, ((entry.setState .stale).setResources failed.reverse).Lists key →
        entry.Lists key :=
      fun key ⟨r, hr, hkey⟩ => ⟨r, hsub _ (mem_reverse.mp hr), hkey⟩
    refine h.modify hentry rfl ⟨hshape.owner, fun x hx => ?_⟩ ?_ ?_ ?_
    · exact hshape.resources x (hsub x (mem_reverse.mp hx))
    · intro i e hne he key hl
      exact (h.beside_of_ne hne.symm hentry he).keys key (hlists key hl)
    · intro key hl row hrow
      exact h.own entry (mem_of_getElem? hentry) key (hlists key hl) row (hw.sub row hrow)
    · intro i e hne he key hl row hrow _
      exact hw.sub row hrow

theorem JournalEntry.IsRouteOwner.teardown
    (hentry : core.journal[index]? = some entry) (h : entry.IsRouteOwner) :
    wp V (teardownEntry index) (fun _ => Retired core index entry true)
      (fun _ => Retired core index entry false) (fun _ => True) core := by
  refine wp_atEntry hentry ?_
  have hgeneric : wp V (teardownGenericEntry index) (fun _ => Retired core index entry true)
      (fun _ => Retired core index entry false) (fun _ => True) core := by
    refine wp_mono (wp_teardownGenericEntry (J := fun left rest k => Withdrawn core.kernel k entry ∧
        ∀ r, r ∈ left ∨ r ∈ rest → r ∈ entry.resources) hentry
      ⟨⟨fun _ hrow => hrow, fun _ hrow hno => absurd hrow hno⟩, by simp⟩ ?_ ?_) ?_ ?_ ?_
    · rintro left x rest k ⟨hw, hin⟩
      refine ⟨?_, fun r hr => hin r (hr.imp_right (mem_cons_of_mem x))⟩
      have hx := hin x (.inr (by simp))
      obtain ⟨spec, rfl⟩ | ⟨r, rfl, -⟩ := h.resources x hx
      · exact hw
      · exact hw.removeRoute hx
    · rintro left x rest k - ⟨hw, hin⟩
      refine ⟨hw, fun r hr => hin r ?_⟩
      simp only [mem_append, mem_singleton] at hr
      simp only [mem_cons]
      tauto
    · rintro _ _ ⟨k, ⟨hw, -⟩, rfl⟩
      exact .gone k core.disk hw
    · rintro _ _ ⟨failed, k, -, ⟨hw, hin⟩, rfl⟩
      exact .kept k core.disk failed hw fun r hr => hin r (.inl hr)
    · intro _ _
      trivial
  have howner := h.owner
  split
  all_goals first
    | exact hgeneric
    | (rename_i heq
       rw [heq] at howner
       cases howner)

end

/-! ### Applying -/

/-- What an entry of another owner lists of these routes is in the kernel. -/
def DaemonCore.Unclaimed (origin : Origin) (routes : List AppliedRoute) : Prop :=
  ∀ r ∈ routes, ∀ e ∈ core.journal, e.origin ≠ origin → e.Lists r.key →
    core.kernel.routes.has r.key = true

section
variable {core c : DaemonCore} {uid : Nat} {owner : Owner} {routes : List AppliedRoute}
variable {state : OwnedState}
  {attach : Option AttachSpecParams}

theorem origin_ne_of_position {j : Journal} (h : j.position uid owner = none) :
    ∀ e ∈ j, e.origin ≠ .daemon uid owner := by
  intro e he heq
  injection heq with huid howner
  exact Journal.position_eq_none.mp h e he ⟨huid, howner⟩

theorem lists_attachResources {key : RouteKey} :
    (routeEntry uid owner state attach routes).Lists key ↔ ∃ r ∈ routes, r.key = key := by
  simp [JournalEntry.Lists, routeEntry, attachResources]

theorem routeEntry_isRouteOwner (howner : owner.holdsRoutes = true)
    (hnormal : ∀ r ∈ routes, r.Normal) :
    (routeEntry uid owner state attach routes).IsRouteOwner := by
  refine ⟨howner, fun x hx => ?_⟩
  rcases mem_append.mp hx with hx | hx
  · obtain ⟨spec, -, rfl⟩ := mem_map.mp hx
    exact .inl ⟨spec, rfl⟩
  · obtain ⟨r, hr, rfl⟩ := mem_map.mp hx
    exact .inr ⟨r, rfl, hnormal r hr⟩

/-- The entry of routes that have just been added. -/
theorem Exclusive.pushApplied {j : Journal} {k k' : Kernel} {added : List AppliedRoute}
    (h : Exclusive j k) (howner : owner.holdsRoutes = true)
    (hfree : j.position uid owner = none) (hnormal : ∀ r ∈ added, r.Normal)
    (hclaims : ∀ r ∈ added, ∀ e ∈ j, e.origin ≠ .daemon uid owner → e.Lists r.key →
      k.routes.has r.key = true) (hk : k.Extends k' (.daemon uid owner) added) :
    Exclusive (j ++ [routeEntry uid owner state attach added]) k' := by
  have horigin := origin_ne_of_position hfree
  -- A route that was added where nothing was is one that no other entry lists.
  have hnone : ∀ r ∈ added, ∀ e ∈ j, ¬e.Lists r.key := by
    intro r hr e he hl
    have hhas := hclaims r hr e he (horigin e he) hl
    rw [hk.fresh r hr] at hhas
    cases hhas
  refine h.push (routeEntry_isRouteOwner howner hnormal) horigin ?_ ?_ ?_
  · intro e he key hl hnew
    obtain ⟨r, hr, rfl⟩ := lists_attachResources.mp hnew
    exact hnone r hr e he hl
  · intro row hrow
    rcases (hk.mem row).mp hrow with hold | ⟨r, hr, rfl⟩
    · exact .inl hold
    · exact .inr ⟨rfl, fun e he => by rw [r.key_install]; exact hnone r hr e he⟩
  · intro key hl row hrow hkey
    obtain ⟨r, hr, rfl⟩ := lists_attachResources.mp hl
    rcases (hk.mem row).mp hrow with hold | ⟨x, -, rfl⟩
    · exact absurd hkey (has_eq_false_iff.mp (hk.fresh r hr) row hold)
    · rfl

section
variable (h : Exclusive core.journal core.kernel) (howner : owner.holdsRoutes = true)
  (hclaims : core.Unclaimed (.daemon uid owner) routes)
include h howner hclaims

theorem Applies.exclusive (happlies : Applies core uid owner routes attach c) :
    Exclusive c.journal c.kernel := by
  obtain ⟨hvalid, hfree, k, disk, hk, -, rfl⟩ := happlies
  have hnormal := validateApply_normal hvalid
  -- The entry lists the routes in the order of the request.
  have hsame : core.kernel.Extends k (.daemon uid owner) routes :=
    ⟨fun r hr => hk.fresh r (by simpa using hr), by simpa using hk.nodup,
      fun row => by simpa using hk.mem row, hk.rules, hk.links⟩
  exact h.pushApplied howner hfree hnormal hclaims hsame

theorem ApplyFails.exclusive (hfails : ApplyFails core uid owner routes attach c) :
    Exclusive c.journal c.kernel := by
  cases hfails with
  | refused => exact h
  | unsynced _ _ => exact h
  | rolledBack k left disk valid free kernel sub saved =>
    have hnormal : ∀ r ∈ left, r.Normal := fun r hr => validateApply_normal valid r (sub hr)
    have hpushed : Exclusive (core.journal ++ [routeEntry uid owner .stale attach left]) k :=
      h.pushApplied howner free hnormal (fun r hr => hclaims r (sub hr)) kernel
    show Exclusive (failedApply core.journal uid owner attach left) k
    unfold failedApply
    split
    · rename_i hempty
      simp only [Bool.and_eq_true, List.isEmpty_iff] at hempty
      refine h.shrink fun row hrow => ?_
      simpa [hempty.1] using (kernel.mem row).mp hrow
    · exact hpushed

end

theorem ApplyFails.keeps_rows (h : ApplyFails core uid owner routes attach c) :
    ∀ row ∈ core.kernel.routes, row ∈ c.kernel.routes := by
  cases h with
  | refused => exact fun _ hrow => hrow
  | unsynced _ _ => exact fun _ hrow => hrow
  | rolledBack k left disk valid free kernel sub saved => exact fun _ hrow => kernel.subset hrow

theorem Applies.keeps_rows (h : Applies core uid owner routes attach c) :
    ∀ row ∈ core.kernel.routes, row ∈ c.kernel.routes := by
  obtain ⟨-, -, k, disk, hk, -, rfl⟩ := h
  exact fun _ hrow => hk.subset hrow

end

/-! ### Converging -/

/-- The entry is visited by a pass and its spec derives this route. -/
def JournalEntry.Derives (e : JournalEntry) (view : View) (d : AppliedRoute) : Prop :=
  e.state = .applied ∧ ∃ spec, findAttachSpec e.resources = some spec ∧ d ∈ attachDesired view spec

/-- A route that an entry below `n` derives and does not list yet is nobody's: its key is
free, no other entry lists it, and no other entry below `n` derives it. -/
def Derivable (n : Nat) (j : Journal) (k : Kernel) (view : View) : Prop :=
  ∀ i e d, i < n → j[i]? = some e → e.Derives view d → ¬e.Lists d.key →
    k.routes.has d.key = false ∧
      ∀ i' e', i' ≠ i → j[i']? = some e' →
        ¬e'.Lists d.key ∧ (i' < n → ∀ d', e'.Derives view d' → d'.key ≠ d.key)

/-- A kernel in the middle of a convergence step of the entry. -/
structure Converging (k k' : Kernel) (entry : JournalEntry) (desired : List AppliedRoute) :
    Prop where
  gained : ∀ row ∈ k'.routes, row ∈ k.routes ∨
    ∃ d ∈ desired, row = d.system.install entry.origin
  lost : ∀ row ∈ k.routes, row ∉ k'.routes →
    entry.Lists row.key ∧ ∀ d ∈ desired, d.key ≠ row.key

namespace Converging

variable {k k' : Kernel} {entry : JournalEntry} {desired : List AppliedRoute} {r : AppliedRoute}

theorem refl (k : Kernel) (entry : JournalEntry) (desired : List AppliedRoute) :
    Converging k k entry desired :=
  ⟨fun _ h => .inl h, fun _ h hno => absurd h hno⟩

theorem removeRoute (h : Converging k k' entry desired) (hr : .route r ∈ entry.resources)
    (hout : ∀ d ∈ desired, d.key ≠ r.key) : Converging k (k'.removeRoute r).2 entry desired := by
  refine ⟨fun row hrow => h.gained row (mem_removeRoute.mp hrow).1, fun row hrow hgone => ?_⟩
  by_cases hk' : row ∈ k'.routes
  · have hkey : row.key = r.key := by
      by_contra hne
      exact hgone (mem_removeRoute.mpr ⟨hk', fun hsel => hne hsel.1⟩)
    exact ⟨⟨r, hr, hkey.symm⟩, fun d hd => hkey ▸ hout d hd⟩
  · exact h.lost row hrow hk'

theorem addRoute (h : Converging k k' entry desired) (hr : r ∈ desired) :
    Converging k (k'.addRoute entry.origin r).2 entry desired := by
  refine ⟨fun row hrow => ?_, fun row hrow hgone => h.lost row hrow fun hin => ?_⟩
  · rcases mem_addRoute.mp hrow with hrow | ⟨-, rfl⟩
    · exact h.gained row hrow
    · exact .inr ⟨r, hr, rfl⟩
  · exact hgone (mem_addRoute.mpr (.inl hin))

end Converging

section
variable {V : Verdict Fault → Prop} {E : IoError → DaemonCore → Prop} {core : DaemonCore}
  {index : Nat} {entry : JournalEntry} {spec : AttachSpecParams} {observed : List AppliedRoute}
  {C : DaemonCore → Prop}

/-- What a convergence step of the entry has done. -/
inductive Converged (core : DaemonCore) (index : Nat) (entry : JournalEntry)
    (spec : AttachSpecParams) : DaemonCore → Prop
  | mk (k : Kernel) (retained : List AppliedRoute) (disk : Journal)
      (h : Converging core.kernel k entry (attachDesired core.view spec))
      (hsub : ∀ r ∈ retained, .route r ∈ entry.resources) :
      Converged core index entry spec
        { core with
          journal := core.journal.converged index spec (attachDesired core.view spec) retained
          kernel := k
          disk }

variable {r : AppliedRoute} {n : Nat} {c : DaemonCore}

theorem mem_ownedRoutes {resources : List OwnedResource} :
    r ∈ ownedRoutes resources ↔ .route r ∈ resources := by
  simp only [ownedRoutes, mem_filterMap]
  constructor
  · rintro ⟨x, hx, hr⟩
    cases x with
    | route r' =>
      cases hr
      exact hx
    | _ => cases hr
  · exact fun h => ⟨_, h, rfl⟩

/-- In normal form, an outdated route has no key that the spec derives. -/
theorem key_ne_of_outdated {desired : List AppliedRoute}
    (h : entry.IsRouteOwner) (hdesired : ∀ d ∈ desired, d.Normal)
    (hr : r ∈ outdatedRoutes entry desired) :
    .route r ∈ entry.resources ∧ ∀ d ∈ desired, d.key ≠ r.key := by
  obtain ⟨hr, hout⟩ := mem_filter.mp hr
  have hin := mem_ownedRoutes.mp hr
  have hnormal : r.Normal := by
    obtain ⟨spec, hbad⟩ | ⟨r', heq, hnormal⟩ := h.resources _ hin
    · cases hbad
    · cases heq
      exact hnormal
  refine ⟨hin, fun d hd hkey => ?_⟩
  rw [(hasRoute_iff hdesired hnormal).mpr ⟨d, hd, hkey⟩] at hout
  cases hout

theorem JournalEntry.IsRouteOwner.reconcileAttach (h : entry.IsRouteOwner)
    (hentry : core.journal[index]? = some entry) :
    wp V (reconcileAttach index spec observed) (fun _ => Converged core index entry spec) E
      (fun _ => True) core := by
  have hdesired : ∀ d ∈ attachDesired core.view spec, d.Normal :=
    fun d hd => attachDesired_normal hd
  refine wp_mono (wp_reconcileAttach
    (J := fun left rest k => Converging core.kernel k entry (attachDesired core.view spec) ∧
      (∀ r ∈ left, .route r ∈ entry.resources) ∧
      ∀ r ∈ rest, r ∈ outdatedRoutes entry (attachDesired core.view spec))
    (K := fun retained rest k => Converging core.kernel k entry (attachDesired core.view spec) ∧
      (∀ r ∈ retained, .route r ∈ entry.resources) ∧
      ∀ r ∈ rest, r ∈ attachDesired core.view spec)
    hentry ⟨.refl .., by simp, fun _ hr => hr⟩ ?_ ?_ ?_ ?_ ?_) ?_ (fun _ _ he => he)
    (fun _ _ => trivial)
  · rintro left r rest k ⟨hc, hleft, hrest⟩
    obtain ⟨hin, hout⟩ := key_ne_of_outdated h hdesired (hrest r (by simp))
    exact ⟨hc.removeRoute hin hout, hleft, fun x hx => hrest x (mem_cons_of_mem r hx)⟩
  · rintro left r rest k - ⟨hc, hleft, hrest⟩
    refine ⟨hc, fun x hx => ?_, fun x hx => hrest x (mem_cons_of_mem r hx)⟩
    rcases mem_append.mp hx with hx | hx
    · exact hleft x hx
    · obtain rfl := mem_singleton.mp hx
      exact (key_ne_of_outdated h hdesired (hrest x (by simp))).1
  · rintro retained k ⟨hc, hleft, -⟩
    exact ⟨hc, hleft, fun r hr => (mem_filter.mp hr).1⟩
  · rintro retained r rest k ⟨hc, hleft, hrest⟩
    exact ⟨hc.addRoute (hrest r (by simp)), hleft, fun x hx => hrest x (mem_cons_of_mem r hx)⟩
  · rintro retained r rest k - ⟨hc, hleft, hrest⟩
    exact ⟨hc, hleft, fun x hx => hrest x (mem_cons_of_mem r hx)⟩
  · rintro _ _ ⟨retained, k, disk, ⟨hc, hleft, -⟩, -, rfl⟩
    exact .mk k retained disk hc hleft

/-- No resource of a route owner speaks of a tunnel. -/
theorem wp_firstAlive {l : List OwnedResource}
    (h : ∀ x ∈ l, (∃ spec, x = .attachSpec spec) ∨ ∃ r, x = .route r ∧ r.Normal)
    {Q : Option Bool → DaemonCore → Prop} (hQ : Q none core) :
    wp V (firstAlive entry l) Q E C core := by
  induction l with
  | nil => exact wp_pure hQ
  | cons x rest ih =>
    have hnone : resourceAlive entry x = pure none := by
      obtain ⟨spec, rfl⟩ | ⟨r, rfl, -⟩ := h x (by simp) <;> rfl
    refine wp_bind ?_
    rw [hnone]
    exact wp_pure (ih fun y hy => h y (mem_cons_of_mem x hy))

/-- The rule for a pass over route owners: `J n` holds when the entries below `n` are still
to be visited. -/
theorem wp_reconcileLoop {J : Nat → DaemonCore → Prop} {changed : List OwnerKey}
    (hentry : ∀ n c, J (n + 1) c → ∃ entry, c.journal[n]? = some entry ∧ entry.IsRouteOwner)
    (hskip : ∀ n c entry, J (n + 1) c → c.journal[n]? = some entry →
      (entry.state ≠ .applied ∨ findAttachSpec entry.resources = none) → J n c)
    (hconverge : ∀ n c entry spec, J (n + 1) c → c.journal[n]? = some entry →
      entry.state = .applied → findAttachSpec entry.resources = some spec →
      wp V (Daemon.reconcileAttach n spec observed) (fun _ => J n) (fun _ _ => False) C c)
    (h : J n c) :
    wp V (reconcileLoop observed n changed) (fun _ => J 0) (fun _ _ => False) C c := by
  -- Reading the entry that a visit is about.
  have hat : ∀ {n : Nat} {c : DaemonCore} {entry : JournalEntry} {α : Type}
      {f : JournalEntry → Prog α} {Q : α → DaemonCore → Prop},
      c.journal[n]? = some entry → wp V (f entry) Q (fun _ _ => False) C c →
      wp V (entryAt n >>= f) Q (fun _ _ => False) C c := by
    intro n c entry α f Q he hf
    refine wp_bind (wp_entryAt (fun e he' => ?_) fun hnone => ?_)
    · rw [he] at he'
      exact Option.some.inj he' ▸ hf
    · rw [he] at hnone
      cases hnone
  induction n generalizing c changed with
  | zero => exact wp_pure h
  | succ n ih =>
    obtain ⟨entry, he, hshape⟩ := hentry n c h
    have hvisit : wp V (reconcileEntry n observed) (fun _ => J n) (fun _ _ => False) C c := by
      refine hat he ?_
      split
      · exact wp_pure (hskip n c entry h he (.inl ‹_›))
      rename_i hstate
      refine wp_tried (wp_mono (Q := fun _ => J n) (E := fun _ _ => False) ?_
        (fun _ _ h' => wp_pure h') (fun _ _ hf => hf.elim) fun _ hc => hc)
      unfold visitEntry
      cases hspec : findAttachSpec entry.resources with
      | some spec =>
        exact wp_bind (wp_ends (hconverge n c entry spec h he (by simpa using hstate) hspec)
          (fun _ _ h' => wp_pure h') (fun _ _ hf => hf))
      | none =>
        simp only
        split
        · rename_i howner
          have hholds := hshape.owner
          rw [howner] at hholds
          cases hholds
        · exact wp_bind (hat he (wp_firstAlive hshape.resources
            (wp_pure (hskip n c entry h he (.inr hspec)))))
    exact hat he (wp_bind (wp_ends hvisit (fun _ _ h' => ih h') (fun _ _ hf => hf)))

theorem lists_converged {desired retained : List AppliedRoute} {key : RouteKey} :
    (entry.setResources (.attachSpec spec :: desired.map OwnedResource.route ++
      retained.map .route)).Lists key ↔
      (∃ d ∈ desired, d.key = key) ∨ ∃ r ∈ retained, r.key = key := by
  simp [JournalEntry.Lists, JournalEntry.setResources, or_and_right, exists_or]

/-- A convergence step of the entry at `index`, where what it derives is nobody's. -/
theorem Converged.exclusive (h : Exclusive core.journal core.kernel)
    (hderivable : Derivable (index + 1) core.journal core.kernel core.view)
    (hentry : core.journal[index]? = some entry) (hstate : entry.state = .applied)
    (hspec : findAttachSpec entry.resources = some spec) (hc : Converged core index entry spec c) :
    Exclusive c.journal c.kernel ∧ Derivable index c.journal c.kernel c.view := by
  obtain ⟨k, retained, disk, hc, hsub⟩ := hc
  have hshape := h.routeOwners entry (mem_of_getElem? hentry)
  have hderives : ∀ d ∈ attachDesired core.view spec, entry.Derives core.view d :=
    fun d hd => ⟨hstate, spec, hspec, hd⟩
  have hretained : ∀ r ∈ retained, entry.Lists r.key := fun r hr => ⟨r, hsub r hr, rfl⟩
  -- What the entry lists after the step, no other entry lists.
  have hapart : ∀ i e, i ≠ index → core.journal[i]? = some e → ∀ d ∈ attachDesired core.view spec,
      ¬e.Lists d.key := by
    intro i e hne he d hd
    by_cases hl : entry.Lists d.key
    · exact (h.beside_of_ne hne.symm hentry he).keys d.key hl
    · exact ((hderivable index entry d (by omega) hentry (hderives d hd) hl).2 i e hne he).1
  refine ⟨h.modify hentry rfl ⟨hshape.owner, ?_⟩ ?_ ?_ ?_, ?_⟩
  · intro x hx
    simp only [JournalEntry.setResources, cons_append, mem_cons, mem_append, mem_map] at hx
    rcases hx with rfl | ⟨d, hd, rfl⟩ | ⟨r, hr, rfl⟩
    · exact .inl ⟨spec, rfl⟩
    · exact .inr ⟨d, rfl, attachDesired_normal hd⟩
    · exact hshape.resources _ (hsub r hr)
  · intro i e hne he key hl
    rcases lists_converged.mp hl with ⟨d, hd, rfl⟩ | ⟨r, hr, rfl⟩
    · exact hapart i e hne he d hd
    · exact (h.beside_of_ne hne.symm hentry he).keys _ (hretained r hr)
  · intro key hl row hrow hkey
    rcases hc.gained row hrow with hold | ⟨d, -, rfl⟩
    · have hentry' := h.own entry (mem_of_getElem? hentry)
      rcases lists_converged.mp hl with ⟨d, hd, rfl⟩ | ⟨r, hr, rfl⟩
      · by_cases hl : entry.Lists d.key
        · exact hentry' d.key hl row hold hkey
        · have hfree := (hderivable index entry d (by omega) hentry (hderives d hd) hl).1
          exact absurd hkey (has_eq_false_iff.mp hfree row hold)
      · exact hentry' r.key (hretained r hr) row hold hkey
    · rfl
  · intro i e hne he key hl row hrow hkey
    rcases hc.gained row hrow with hold | ⟨d, hd, rfl⟩
    · exact hold
    · rw [d.key_install] at hkey
      exact absurd (hkey ▸ hl) (hapart i e hne he d hd)
  · intro i e d hi he hd hl
    have he' : core.journal[i]? = some e := by
      rwa [Journal.converged, getElem?_modify_of_ne (by omega)] at he
    obtain ⟨hfree, hothers⟩ := hderivable i e d (by omega) he' hd hl
    have hindex := hothers index entry (by omega) hentry
    refine ⟨?_, fun i' e' hne he'' => ?_⟩
    · rw [has_eq_false_iff] at hfree ⊢
      intro row hrow
      rcases hc.gained row hrow with hold | ⟨x, hx, rfl⟩
      · exact hfree row hold
      · rw [x.key_install]
        exact hindex.2 (by omega) x (hderives x hx)
    · by_cases hidx : i' = index
      · subst hidx
        have hnew : entry.setResources (.attachSpec spec ::
            (attachDesired core.view spec).map OwnedResource.route ++ retained.map .route) = e' := by
          simpa [Journal.converged, hentry] using he''
        refine ⟨fun hlist => ?_, fun hlt => absurd hlt (by omega)⟩
        rw [← hnew] at hlist
        rcases lists_converged.mp hlist with ⟨x, hx, hkey⟩ | ⟨r, hr, hkey⟩
        · exact hindex.2 (by omega) x (hderives x hx) hkey
        · exact hindex.1 (hkey ▸ hretained r hr)
      · have he0 : core.journal[i']? = some e' := by
          rwa [Journal.converged, getElem?_modify_of_ne hidx] at he''
        have hother := hothers i' e' hne he0
        exact ⟨hother.1, fun hlt => hother.2 (by omega)⟩

theorem Derivable.mono {j : Journal} {k : Kernel} {view : View}
    (h : Derivable (n + 1) j k view) : Derivable n j k view := by
  intro i e d hi he hd hl
  obtain ⟨hfree, hothers⟩ := h i e d (by omega) he hd hl
  refine ⟨hfree, fun i' e' hne he' => ?_⟩
  have hother := hothers i' e' hne he'
  exact ⟨hother.1, fun hlt => hother.2 (by omega)⟩

/-- A row that an entry's own convergence withdrew: added for the entry, listed by it, and no
longer derived. -/
def WithdrawnBySpec (core : DaemonCore) (row : KernelRoute) : Prop :=
  ∃ e ∈ core.journal, e.Lists row.key ∧ e.origin = row.origin ∧ e.state = .applied ∧
    ∃ spec, findAttachSpec e.resources = some spec ∧
      ∀ d ∈ attachDesired core.view spec, d.key ≠ row.key

/-- A pass that has still to visit the entries below `n`. -/
structure Passing (before : DaemonCore) (n : Nat) (c : DaemonCore) : Prop where
  exclusive : Exclusive c.journal c.kernel
  derivable : Derivable n c.journal c.kernel c.view
  view : c.view = before.view
  bound : n ≤ before.journal.length
  ahead : ∀ i < n, c.journal[i]? = before.journal[i]?
  lost : ∀ row ∈ before.kernel.routes, row ∉ c.kernel.routes → WithdrawnBySpec before row

namespace Passing

variable {before c c' : DaemonCore} {n : Nat}

theorem skip (h : Passing before (n + 1) c) : Passing before n c :=
  ⟨h.exclusive, h.derivable.mono, h.view, by have := h.bound; omega,
    fun i hi => h.ahead i (by omega), h.lost⟩

theorem converge (h : Passing before (n + 1) c) (hentry : c.journal[n]? = some entry)
    (hstate : entry.state = .applied) (hspec : findAttachSpec entry.resources = some spec)
    (hc : Converged c n entry spec c') : Passing before n c' := by
  obtain ⟨hexclusive, hderivable⟩ := hc.exclusive h.exclusive h.derivable hentry hstate hspec
  obtain ⟨k, retained, disk, hc, hsub⟩ := hc
  refine ⟨hexclusive, hderivable, h.view, h.skip.bound, fun i hi => ?_, fun row hrow hgone => ?_⟩
  · show (c.journal.converged n spec (attachDesired c.view spec) retained)[i]? = _
    rw [Journal.converged, getElem?_modify_of_ne (by omega)]
    exact h.ahead i (by omega)
  · by_cases hin : row ∈ c.kernel.routes
    · obtain ⟨hl, hout⟩ := hc.lost row hin hgone
      have hmem : entry ∈ before.journal :=
        mem_of_getElem? ((h.ahead n (by omega)).symm.trans hentry)
      have horigin := h.exclusive.own entry (mem_of_getElem? hentry) row.key hl row hin rfl
      exact ⟨entry, hmem, hl, horigin.symm, hstate, spec, hspec, h.view ▸ hout⟩
    · exact h.lost row hrow hin

end Passing

theorem Exclusive.wp_reconcileNetwork (h : Exclusive core.journal core.kernel)
    (hderivable : Derivable core.journal.length core.journal core.kernel core.view)
    (observed : List AppliedRoute) :
    wp V (reconcileNetwork observed) (fun _ => Passing core 0) (fun _ _ => False)
      (fun _ => True) core := by
  have hstart : Passing core core.journal.length core :=
    ⟨h, hderivable, rfl, le_refl _, fun _ _ => rfl, fun _ hrow hno => absurd hrow hno⟩
  refine wp_read (wp_reconcileLoop ?_ (fun _ _ _ h' _ _ => h'.skip) ?_ hstart)
  · intro n c h'
    have hlt : n < core.journal.length := h'.bound
    have hentry : c.journal[n]? = some core.journal[n] := by
      rw [h'.ahead n (by omega)]
      simp [hlt]
    exact ⟨_, hentry, h'.exclusive.routeOwners _ (mem_of_getElem? hentry)⟩
  · intro n c entry spec h' hentry hstate hspec
    have hshape := h'.exclusive.routeOwners entry (mem_of_getElem? hentry)
    exact wp_ends (hshape.reconcileAttach hentry)
      (fun _ _ hc => h'.converge hentry hstate hspec hc) (fun _ _ hf => hf)


end

/-! ### Requests -/

/-- The condition. A request may add a route that an entry of another owner lists only where
the kernel has it and will refuse it. A pass may derive for an entry only what the entry lists
already or what is nobody's. The machine adds no route that an entry lists. -/
def RouteRequest.Admitted (lib : Crates) (core : DaemonCore) : RouteRequest → Prop
  | .applyRoutes uid owner routes => core.Unclaimed (.daemon uid (Owner.parse owner)) routes
  | .applyAttach uid owner _ routes => core.Unclaimed (.daemon uid (Owner.parse owner)) routes
  | .netIntentSet uid params => ∀ spec, intentSpec lib params = .ok spec →
      core.Unclaimed (.daemon uid (.intent params.id)) (attachDesired core.view spec)
  | .netIntentDel _ _ => True
  | .removeOwner _ _ => True
  | .reconcileNetwork _ => Derivable core.journal.length core.journal core.kernel core.view
  | .machine kernel _ => ∀ row ∈ kernel.routes, row ∈ core.kernel.routes ∨
      ∀ e ∈ core.journal, ¬e.Lists row.key

/-- Every row that a request removed was added for the owner it is about; a pass removes what
an entry's own spec no longer derives. -/
def RouteRequest.Spares (request : RouteRequest) (core c : DaemonCore) : Prop :=
  match request with
  | .applyRoutes .. | .applyAttach .. => ∀ row ∈ core.kernel.routes, row ∈ c.kernel.routes
  | .netIntentSet uid params => SparesOthers (.daemon uid (.intent params.id))
  | .netIntentDel uid id => SparesOthers (.daemon uid (.intent id))
  | .removeOwner uid owner => SparesOthers (.daemon uid (Owner.parse owner))
  | .reconcileNetwork _ => ∀ row ∈ core.kernel.routes, row ∉ c.kernel.routes →
      WithdrawnBySpec core row
  | .machine .. => True
where
  SparesOthers (origin : Origin) : Prop :=
    ∀ row ∈ core.kernel.routes, row ∉ c.kernel.routes → row.origin = origin

section
variable {V : Verdict Fault → Prop} {core c : DaemonCore} {uid : Nat} {owner : Owner}
variable {origin : Origin} {index : Nat} {routes : List AppliedRoute}

/-- The property, and what a request for one owner may have removed since `core`. -/
structure Held (core : DaemonCore) (origin : Origin) (c : DaemonCore) : Prop where
  exclusive : Exclusive c.journal c.kernel
  lost : ∀ row ∈ core.kernel.routes, row ∉ c.kernel.routes → row.origin = origin

theorem Held.refl (h : Exclusive core.journal core.kernel) (origin : Origin) :
    Held core origin core :=
  ⟨h, fun _ hrow hno => absurd hrow hno⟩

variable {c' : DaemonCore}

theorem Held.same (h : Held core origin c)
    (hjournal : c'.journal = c.journal) (hkernel : c'.kernel = c.kernel) : Held core origin c' :=
  ⟨by rw [hjournal, hkernel]; exact h.exclusive, by rw [hkernel]; exact h.lost⟩

theorem Held.retired {entry : JournalEntry}
    {done : Bool} (h : Held core origin c) (hentry : c.journal[index]? = some entry)
    (horigin : entry.origin = origin) (hret : Retired c index entry done c') :
    Held core origin c' := by
  refine ⟨hret.exclusive h.exclusive hentry, fun row hrow hgone => ?_⟩
  by_cases hin : row ∈ c.kernel.routes
  · have hl := hret.withdrawn.lost row hin hgone
    rw [← horigin]
    exact h.exclusive.own entry (mem_of_getElem? hentry) row.key hl row hin rfl
  · exact h.lost row hrow hin

/-- The entry of an owner, with its origin. -/
theorem Journal.position_origin {j : Journal} (h : j.position uid owner = some index) :
    ∃ entry, j[index]? = some entry ∧ entry.origin = .daemon uid owner := by
  obtain ⟨entry, hentry, rfl, rfl⟩ := Journal.position_eq_some h
  exact ⟨entry, hentry, rfl⟩

theorem Held.wp_applyRoutesInner {attach : Option AttachSpecParams} (h : Held core origin c)
    (howner : owner.holdsRoutes = true) (hclaims : c.Unclaimed (.daemon uid owner) routes) :
    wp V (applyRoutesInner uid owner routes attach)
      (fun _ c' => Held core origin c' ∧ ∀ row ∈ c.kernel.routes, row ∈ c'.kernel.routes)
      (fun _ c' => Held core origin c' ∧ ∀ row ∈ c.kernel.routes, row ∈ c'.kernel.routes)
      (fun _ => True) c := by
  have hkeep : ∀ {c' : DaemonCore}, Exclusive c'.journal c'.kernel →
      (∀ row ∈ c.kernel.routes, row ∈ c'.kernel.routes) →
      Held core origin c' ∧ ∀ row ∈ c.kernel.routes, row ∈ c'.kernel.routes :=
    fun hex hrows => ⟨⟨hex, fun row hrow hgone =>
      h.lost row hrow fun hin => hgone (hrows row hin)⟩, hrows⟩
  refine wp_mono (Daemon.wp_applyRoutesInner c uid owner routes attach) ?_ ?_ fun _ _ => trivial
  · exact fun _ c' ha => hkeep (ha.exclusive h.exclusive howner hclaims) ha.keeps_rows
  · exact fun _ c' ha => hkeep (ha.exclusive h.exclusive howner hclaims) ha.keeps_rows

theorem Held.bookkept (origin : Origin) : Bookkept V (Held core origin) (fun _ => True) :=
  ⟨fun _ h => h.same rfl rfl, fun _ _ h => h.same rfl rfl, fun _ _ _ => trivial⟩

theorem Held.wp_teardown (h : Held core (.daemon uid owner) c)
    (hpos : c.journal.position uid owner = some index) :
    wp V (teardownEntry index) (fun _ => Held core (.daemon uid owner))
      (fun _ => Held core (.daemon uid owner)) (fun _ => True) c := by
  obtain ⟨entry, hentry, horigin⟩ := Journal.position_origin hpos
  have hshape := h.exclusive.routeOwners entry (mem_of_getElem? hentry)
  exact wp_mono (hshape.teardown hentry) (fun _ _ hret => h.retired hentry horigin hret)
    (fun _ _ hret => h.retired hentry horigin hret) fun _ _ => trivial

/-- The property before an apply: other owners' claims on these routes are good. -/
structure Ready (core : DaemonCore) (origin : Origin) (routes : List AppliedRoute)
    (c : DaemonCore) : Prop where
  held : Held core origin c
  claims : c.Unclaimed origin routes

theorem Ready.bookkept (origin : Origin) (routes : List AppliedRoute) :
    Bookkept V (Ready core origin routes) (fun _ => True) :=
  ⟨fun _ h => ⟨h.held.same rfl rfl, h.claims⟩, fun _ _ h => ⟨h.held.same rfl rfl, h.claims⟩,
    fun _ _ _ => trivial⟩

/-- After an earlier version has been retired, other owners' claims are as they were. -/
theorem Ready.wp_teardown (h : Ready core (.daemon uid owner) routes core)
    (hpos : core.journal.position uid owner = some index) :
    wp V (teardownEntry index) (fun _ => Ready core (.daemon uid owner) routes)
      (fun _ => Held core (.daemon uid owner)) (fun _ => True) core := by
  obtain ⟨entry, hentry, horigin⟩ := Journal.position_origin hpos
  have hexclusive := h.held.exclusive
  have hshape := hexclusive.routeOwners entry (mem_of_getElem? hentry)
  refine wp_mono (hshape.teardown hentry) (fun _ c hret => ?_)
    (fun _ _ hret => h.held.retired hentry horigin hret) fun _ _ => trivial
  refine ⟨h.held.retired hentry horigin hret, ?_⟩
  obtain ⟨k, disk, hw⟩ := hret
  intro r hr e he hne hl
  have hmem : e ∈ core.journal := mem_of_mem_eraseIdx he
  obtain ⟨row, hrow, hkey⟩ := has_iff.mp (h.claims r hr e hmem hne hl)
  refine has_iff.mpr ⟨row, ?_, hkey⟩
  -- The row belongs to the other owner, so the teardown has not taken it.
  by_contra hgone
  refine hne ((hexclusive.own e hmem r.key hl row hrow hkey).symm.trans ?_)
  rw [← horigin]
  exact hexclusive.own entry (mem_of_getElem? hentry) row.key
    (hw.lost row hrow hgone) row hrow rfl

theorem Held.wp_netIntentSet {lib : Crates} {params : NetIntentSetParams}
    (h : Exclusive core.journal core.kernel) (hclaims : ∀ spec, intentSpec lib params = .ok spec →
      core.Unclaimed (.daemon uid (.intent params.id)) (attachDesired core.view spec)) :
    wp V (netIntentSet lib uid params) (fun _ => Held core (.daemon uid (.intent params.id)))
      (fun _ => Held core (.daemon uid (.intent params.id))) (fun _ => True) core := by
  have hrefl := Held.refl h (.daemon uid (.intent params.id))
  cases hspec : intentSpec lib params with
  | error m =>
    refine (Held.bookkept _).wp_netIntentSet (Held.bookkept _) hrefl (fun _ h' => h')
      (fun index hpos => hrefl.wp_teardown hpos) (fun c spec _ hbad => ?_)
      fun c index h' hpos => h'.wp_teardown hpos
    rw [hspec] at hbad
    cases hbad
  | ok spec =>
    have hready : Ready core (.daemon uid (.intent params.id)) (attachDesired core.view spec)
        core := ⟨hrefl, hclaims spec hspec⟩
    refine (Ready.bookkept _ _).wp_netIntentSet (Held.bookkept _) hready (fun _ h' => h'.held)
      (fun index hpos => hready.wp_teardown hpos) (fun c spec' h' hspec' => ?_)
      fun c index h' hpos => h'.wp_teardown hpos
    rw [hspec] at hspec'
    cases hspec'
    exact wp_ends (h'.held.wp_applyRoutesInner rfl h'.claims) (fun _ _ h'' => h''.1)
      (fun _ _ h'' => h''.1)

/-! ### Runs -/

/-- An admitted request keeps the property and spares what is not its own. -/
theorem RouteRequest.wp_exec (lib : Crates) (request : RouteRequest)
    (h : Exclusive core.journal core.kernel) (hadmitted : request.Admitted lib core) :
    wp V (request.exec lib) (fun _ c => Exclusive c.journal c.kernel ∧ request.Spares core c)
      (fun _ c => Exclusive c.journal c.kernel ∧ request.Spares core c) (fun _ => True) core := by
  have hkeep : ∀ c, c = core → Exclusive c.journal c.kernel ∧
      ∀ row ∈ core.kernel.routes, row ∈ c.kernel.routes := by
    rintro _ rfl
    exact ⟨h, fun _ hrow => hrow⟩
  cases request with
  | applyRoutes uid owner routes =>
    refine wp_discard (wp_bind (wp_checkClientOwner (fun howner => ?_) fun _ => hkeep core rfl))
    exact wp_ends ((Held.refl h (.daemon uid (Owner.parse owner))).wp_applyRoutesInner howner
      hadmitted) (fun _ _ h' => ⟨h'.1.exclusive, h'.2⟩) (fun _ _ h' => ⟨h'.1.exclusive, h'.2⟩)
  | applyAttach uid owner spec routes =>
    refine wp_discard (wp_bind (wp_checkClientOwner (fun howner => ?_) fun _ => hkeep core rfl))
    refine wp_bind (wp_demand (fun _ => ?_) fun _ _ => hkeep core rfl)
    exact wp_ends ((Held.refl h (.daemon uid (Owner.parse owner))).wp_applyRoutesInner howner
      hadmitted) (fun _ _ h' => ⟨h'.1.exclusive, h'.2⟩) (fun _ _ h' => ⟨h'.1.exclusive, h'.2⟩)
  | netIntentSet uid params =>
    exact wp_discard (wp_ends (Held.wp_netIntentSet h hadmitted)
      (fun _ _ h' => ⟨h'.exclusive, h'.lost⟩)
      (fun _ _ h' => ⟨h'.exclusive, h'.lost⟩))
  | netIntentDel uid id =>
    exact wp_ends ((Held.bookkept _).wp_netIntentDel (Held.refl h (.daemon uid (.intent id)))
      fun c index h' hpos => h'.wp_teardown hpos) (fun _ _ h' => ⟨h'.exclusive, h'.lost⟩)
      (fun _ _ h' => ⟨h'.exclusive, h'.lost⟩)
  | removeOwner uid owner =>
    have hrefl := Held.refl h (.daemon uid (Owner.parse owner))
    exact wp_discard (wp_ends ((Held.bookkept _).wp_removeOwner hrefl
      fun index hpos => hrefl.wp_teardown hpos) (fun _ _ h' => ⟨h'.exclusive, h'.lost⟩)
      (fun _ _ h' => ⟨h'.exclusive, h'.lost⟩))
  | reconcileNetwork observed =>
    exact wp_discard (wp_ends (h.wp_reconcileNetwork hadmitted observed)
      (fun _ _ h' => ⟨h'.exclusive, h'.lost⟩) (fun _ _ hf => hf.elim))
  | machine kernel view =>
    refine wp_modify ⟨⟨h.routeOwners, h.beside, fun e he key hl row hrow hkey => ?_⟩, trivial⟩
    rcases hadmitted row hrow with hold | hnone
    · exact h.own e he key hl row hold hkey
    · exact absurd (hkey ▸ hl) (hnone e he)

/-- In every run whose steps meet the condition, no entry lists a route that was not added
for it, and every request spares the routes of everybody else. -/
theorem owners_exclusive (lib : Crates) (kernel : Kernel) (view : View) (executors : Executors)
    {core : DaemonCore} (h : Reaches (RouteRequest.exec lib) (RouteRequest.Admitted lib)
      (DaemonCore.fresh kernel view executors) core) :
    core.OwnsWhatItLists ∧
      ∀ request : RouteRequest, request.Admitted lib core → ∀ vs o c vs',
        request.exec lib core vs = (o, c, vs') → o ≠ .crash → request.Spares core c := by
  have hexclusive : Exclusive core.journal core.kernel :=
    h.invariant (I := fun c => Exclusive c.journal c.kernel) (C := fun _ => True) (.nil kernel)
      fun _ request h' hok => wp_ends (request.wp_exec lib h' hok) (fun _ _ hq => hq.1)
        (fun _ _ he => he.1)
  refine ⟨hexclusive.ownsWhatItLists, fun request hadmitted vs o c vs' hrun halive => ?_⟩
  have hend := request.wp_exec (V := Verdict.Any) lib hexclusive hadmitted vs fun _ _ => trivial
  rw [hrun] at hend
  cases o with
  | ok a => exact hend.2.2
  | err e => exact hend.2.2
  | crash => exact absurd rfl halive

end

/-- `10.2.0.0/16` on the link `tun7`. -/
def branchSpec : AttachSpecParams :=
  { interfaceName := "tun7"
    routes := [{ destination := .v4 0x0a020000 16, metric := 5, via := none }]
    endpointBypasses := []
    uplink := false }

/-- The route that the spec derives on a machine where `tun7` has the index 7. -/
def branchRoute : AppliedRoute := .onLink (.v4 0x0a020000 16) 7 5

def branchView : View :=
  { View.bare with
    linkIndex := fun name => .ok (if name = "tun7" then some 7 else none)
    linkKind := fun name => .ok (if name = "tun7" then .tun else .missing) }

def branchCrates : Crates := ⟨fun _ => none, fun _ => 0⟩

def branchStart : DaemonCore := DaemonCore.fresh Kernel.empty branchView Executors.all

/-- Two owners attach the same spec, and a pass installs it. -/
def sharedBranch : DaemonCore :=
  RouteRequest.runAll branchCrates branchStart
    [.applyAttach 1000 "office" branchSpec [], .applyAttach 1001 "lab" branchSpec [],
      .reconcileNetwork []]

theorem reaches_sharedBranch :
    Reaches (RouteRequest.exec branchCrates) (fun _ _ => True) branchStart sharedBranch :=
  .call (.call (.call .start trivial (eq_of_outcome (o := .ok ()) (by decide)) (by simp))
    trivial (eq_of_outcome (o := .ok ()) (by decide)) (by simp))
    trivial (eq_of_outcome (o := .ok ()) (by decide)) (by simp)

/-- Both owners list the one route in the kernel, which was added for the second. Removing
the first takes it away while the second still lists it. -/
theorem shared_branch_not_exclusive :
    Reaches (RouteRequest.exec branchCrates) (fun _ _ => True) branchStart sharedBranch ∧
      ¬sharedBranch.OwnsWhatItLists ∧
      ∃ row ∈ sharedBranch.kernel.routes, row.origin = .daemon 1001 (.client "lab") ∧
        ∃ c, RouteRequest.exec branchCrates (.removeOwner 1000 "office") sharedBranch [] =
            (.ok (), c, []) ∧
          row ∉ c.kernel.routes ∧
          ∃ e ∈ c.journal, e.origin = row.origin ∧ .route branchRoute ∈ e.resources ∧
            branchRoute.key = row.key := by
  have hjournal : sharedBranch.journal =
      [⟨1000, .client "office", .applied, [.attachSpec branchSpec, .route branchRoute]⟩,
        ⟨1001, .client "lab", .applied, [.attachSpec branchSpec, .route branchRoute]⟩] := by
    decide
  have hrow : branchRoute.system.install (.daemon 1001 (.client "lab")) ∈
      sharedBranch.kernel.routes := by decide
  refine ⟨reaches_sharedBranch, fun h => ?_, _, hrow, rfl, _, eq_of_outcome (o := .ok ())
    (by decide), by decide, ?_⟩
  · have horigin := h ⟨1000, .client "office", .applied, [.attachSpec branchSpec,
      .route branchRoute]⟩ (by rw [hjournal]; simp) branchRoute (by simp) _ hrow rfl
    revert horigin
    decide
  · have hleft : (RouteRequest.exec branchCrates (.removeOwner 1000 "office") sharedBranch
        []).2.1.journal =
        [⟨1001, .client "lab", .applied, [.attachSpec branchSpec, .route branchRoute]⟩] := by
      decide
    exact ⟨_, by rw [hleft]; exact List.mem_singleton.mpr rfl, rfl, by simp, rfl⟩

/-- One owner attaches the spec. -/
def attachedBranch : DaemonCore :=
  RouteRequest.runAll branchCrates branchStart [.applyAttach 1000 "office" branchSpec []]

def loneBranch : DaemonCore :=
  RouteRequest.runAll branchCrates attachedBranch [.reconcileNetwork []]

theorem attachedBranch_derivable :
    RouteRequest.Admitted branchCrates attachedBranch (.reconcileNetwork []) := by
  have hjournal : attachedBranch.journal =
      [⟨1000, .client "office", .applied, [.attachSpec branchSpec]⟩] := by decide
  have hrows : attachedBranch.kernel.routes.rows = [] := by decide
  show Derivable attachedBranch.journal.length attachedBranch.journal _ _
  rw [hjournal]
  intro i e d hi he _ _
  refine ⟨by simp [Table.has, hrows], fun i' e' hne he' => ?_⟩
  obtain ⟨hi', -⟩ := List.getElem?_eq_some_iff.mp he'
  simp only [length_singleton] at hi hi'
  omega

/-- With one owner the pass installs the route and the entry owns it. Removing another owner's
name takes nothing away. -/
theorem lone_branch_exclusive :
    loneBranch.OwnsWhatItLists ∧
      branchRoute.system.install (.daemon 1000 (.client "office")) ∈
        (RouteRequest.exec branchCrates (.removeOwner 1001 "office") loneBranch
          []).2.1.kernel.routes := by
  have hattach : RouteRequest.Admitted branchCrates branchStart
      (.applyAttach 1000 "office" branchSpec []) := fun r hr => by cases hr
  have hreach : Reaches (RouteRequest.exec branchCrates) (RouteRequest.Admitted branchCrates)
      branchStart loneBranch :=
    .call (.call .start hattach (eq_of_outcome (o := .ok ()) (by decide))
      (by simp)) attachedBranch_derivable (eq_of_outcome (o := .ok ()) (by decide)) (by simp)
  obtain ⟨howns, hspares⟩ := owners_exclusive branchCrates _ _ _ hreach
  refine ⟨howns, ?_⟩
  by_contra hgone
  have horigin := hspares (.removeOwner 1001 "office") trivial [] _ _ _
    (eq_of_outcome (o := .err nothingApplied) (by decide)) (by simp)
    (branchRoute.system.install (.daemon 1000 (.client "office"))) (by decide) hgone
  revert horigin
  decide

end NetOrchestrator.Daemon
