import NetOrchestrator.Proofs.GenericTeardown

/-!
# `Proofs.RouteOwners`: applying, removing and converging routes

The specifications of the requests that hold routes for an owner. A transaction either adds
all its routes or ends with exactly those that its rollback could not remove, and the kernel
is the old one with these added (`Kernel.Extends`). `wp_applyRoutesInner` says what that
makes of memory, disk and kernel at each of its ends. `wp_reconcileAttach` is the rule for a
convergence step: one invariant for the withdrawals and one for the installs.
-/

namespace NetOrchestrator.Daemon

open Net Lib Lib.Call List

/-! ### Kernels that differ by added routes -/

/-- `k` is `base` with these routes added for `origin`, each where nothing was. -/
structure Kernel.Extends (base k : Kernel) (origin : Origin) (added : List AppliedRoute) : Prop where
  fresh : ∀ r ∈ added, base.routes.has r.key = false
  nodup : (added.map AppliedRoute.key).Nodup
  mem : ∀ row, row ∈ k.routes ↔ row ∈ base.routes ∨ ∃ r ∈ added, row = r.system.install origin
  rules : k.rules = base.rules
  links : k.links = base.links

variable {k : Kernel} {row : KernelRoute}

theorem addRoute_ok_iff (k : Kernel) (o : Origin) (r : AppliedRoute) :
    (k.addRoute o r).1 = .ok () ↔ k.routes.has r.key = false := by
  unfold Kernel.addRoute Kernel.addRouteRow
  rw [SystemRoute.key_install, show r.system.key = r.key from rfl]
  split
  · rename_i h
    simp [h]
  · rename_i h
    simp [h]

variable (r : AppliedRoute) (o : Origin)

@[simp]
theorem AppliedRoute.key_install : (r.system.install o).key = r.key := SystemRoute.key_install _ _

/-- The row that an `AppliedRoute` leaves is one that a delete of it selects. -/
theorem selects_install (row : KernelRoute) (h : row = r.system.install o) :
    row.key = r.key ∧ row.route.protocol = rtprotNetworkOrchestrator := by
  subst h
  exact ⟨r.key_install o, rfl⟩

theorem mem_removeRoute {r : AppliedRoute} : row ∈ (k.removeRoute r).2.routes ↔
      row ∈ k.routes ∧ ¬(row.key = r.key ∧ row.route.protocol = rtprotNetworkOrchestrator) := by
  unfold Kernel.removeRoute
  rw [mem_removeRouteRows]
  simp [← Bool.not_eq_true]

theorem mem_addRoute {o : Origin} {r : AppliedRoute} : row ∈ (k.addRoute o r).2.routes ↔
      row ∈ k.routes ∨ (k.routes.has r.key = false ∧ row = r.system.install o) := by
  unfold Kernel.addRoute
  rw [mem_addRouteRow, SystemRoute.key_install]
  rfl

/-- What is left after the resources of a route owner have been released. -/
theorem mem_releaseAll {l : List OwnedResource}
    (hl : ∀ x ∈ l, (∃ spec, x = .attachSpec spec) ∨ ∃ r, x = .route r) :
    row ∈ (k.releaseAll l).routes ↔ row ∈ k.routes ∧ ∀ r, .route r ∈ l →
      ¬(row.key = r.key ∧ row.route.protocol = rtprotNetworkOrchestrator) := by
  induction l generalizing k with
  | nil => simp [Kernel.releaseAll]
  | cons x rest ih =>
    have hrest := ih (k := k.release x) fun y hy => hl y (mem_cons_of_mem x hy)
    show row ∈ ((k.release x).releaseAll rest).routes ↔ _
    rw [hrest]
    obtain ⟨spec, rfl⟩ | ⟨r, rfl⟩ := hl x (by simp)
    · simp [Kernel.release]
    · rw [show k.release (.route r) = (k.removeRoute r).2 from rfl, mem_removeRoute, and_assoc]
      simp only [mem_cons, OwnedResource.route.injEq, forall_eq_or_imp]

/-! ### Exclusive adds -/

section
variable {o : Origin} {r : AppliedRoute}

theorem slotTaken_eq_false_iff :
    k.slotTaken r = false ↔ ∀ row ∈ k.routes, row.key.slot ≠ r.key.slot := by
  simp [Kernel.slotTaken, Table.mem_def]

theorem slotTaken_iff : k.slotTaken r = true ↔ ∃ row ∈ k.routes, row.key.slot = r.key.slot := by
  simp [Kernel.slotTaken, Table.mem_def]

/-- A free slot has no route with the key. -/
theorem has_of_slotTaken (h : k.slotTaken r = false) : k.routes.has r.key = false := by
  rw [Table.has_eq_false_iff]
  intro row hrow hkey
  exact slotTaken_eq_false_iff.mp h row hrow (congrArg RouteKey.slot hkey)

theorem addRouteExclusive_of_free (h : k.slotTaken r = false) :
    k.addRouteExclusive o r = k.addRoute o r := by
  rw [Kernel.addRouteExclusive, if_neg (by simp [h])]

theorem addRouteExclusive_of_taken (h : k.slotTaken r = true) :
    k.addRouteExclusive o r = (.error alreadyExists, k) := by
  rw [Kernel.addRouteExclusive, if_pos h]

theorem addRouteExclusive_ok_iff :
    (k.addRouteExclusive o r).1 = .ok () ↔ k.slotTaken r = false := by
  cases h : k.slotTaken r with
  | false => simpa [addRouteExclusive_of_free h, addRoute_ok_iff] using has_of_slotTaken h
  | true => simp [addRouteExclusive_of_taken h]

theorem mem_addRouteExclusive : row ∈ (k.addRouteExclusive o r).2.routes ↔
      row ∈ k.routes ∨ (k.slotTaken r = false ∧ row = r.system.install o) := by
  cases h : k.slotTaken r with
  | false =>
    rw [addRouteExclusive_of_free h, mem_addRoute]
    simp [has_of_slotTaken h]
  | true =>
    rw [addRouteExclusive_of_taken h]
    simp

variable {V : Verdict Fault → Prop} {Q : Unit → DaemonCore → Prop}
  {E : IoError → DaemonCore → Prop} {C : DaemonCore → Prop} {core : DaemonCore}

/-- An exclusive add finds its slot free or is refused. -/
theorem wp_addRouteExclusive (hcrash : V .crash → C core)
    (hfail : ∀ f : Fault, V (.fail f) → E f.report core) (hfree : core.kernel.slotTaken r = false →
      Q () { core with kernel := (core.kernel.addRouteExclusive o r).2 })
    (htaken : core.kernel.slotTaken r = true → E alreadyExists core) :
    wp V (addRouteExclusive o r) Q E C core := by
  refine wp_onKernel hcrash hfail (fun a ha => ?_) (fun e he => ?_)
  all_goals cases h : core.kernel.slotTaken r
  · exact hfree h
  · rw [addRouteExclusive_of_taken h] at ha
    cases ha
  · rw [addRouteExclusive_ok_iff.mpr h] at he
    cases he
  · rw [addRouteExclusive_of_taken h] at he ⊢
    cases he
    exact htaken h

end

namespace Kernel.Extends

variable {base k : Kernel} {o : Origin} {added pre post : List AppliedRoute} {r : AppliedRoute}

theorem refl (base : Kernel) (o : Origin) : base.Extends base o [] where
  fresh _ h := by cases h
  nodup := nodup_nil
  mem row := by simp
  rules := rfl
  links := rfl

section
variable (h : base.Extends k o added)
include h

/-- A key is free in the extension when it is in the base and nothing added has it. -/
theorem has_eq_false (key : RouteKey) : k.routes.has key = false ↔
      base.routes.has key = false ∧ ∀ r ∈ added, r.key ≠ key := by
  simp only [Table.has_eq_false_iff, h.mem]
  constructor
  · intro hfree
    refine ⟨fun row hrow => hfree row (.inl hrow), fun r hr => ?_⟩
    exact r.key_install o ▸ hfree (r.system.install o) (.inr ⟨r, hr, rfl⟩)
  · rintro ⟨hbase, hadded⟩ row (hrow | ⟨r, hr, rfl⟩)
    · exact hbase row hrow
    · exact (r.key_install o).symm ▸ hadded r hr

theorem add (hok : (k.addRoute o r).1 = .ok ()) :
    base.Extends (k.addRoute o r).2 o (r :: added) := by
  have hfree := (addRoute_ok_iff k o r).mp hok
  obtain ⟨hbase, hadded⟩ := (h.has_eq_false r.key).mp hfree
  refine ⟨?_, ?_, fun row => ?_, (addRouteRow_rules ..).trans h.rules,
    (addRouteRow_links ..).trans h.links⟩
  · intro x hx
    rcases mem_cons.mp hx with rfl | hx
    · exact hbase
    · exact h.fresh x hx
  · rw [map_cons, nodup_cons]
    refine ⟨fun hin => ?_, h.nodup⟩
    obtain ⟨x, hx, hkey⟩ := mem_map.mp hin
    exact hadded x hx hkey
  · rw [mem_addRoute, h.mem]
    simp only [hfree, true_and, mem_cons, exists_eq_or_imp]
    rw [or_assoc, or_comm (b := row = _)]

theorem trans {k' : Kernel} {more : List AppliedRoute} (h' : k.Extends k' o more) :
    base.Extends k' o (added ++ more) where
  fresh r hr := by
    rcases mem_append.mp hr with hr | hr
    · exact h.fresh r hr
    · exact ((h.has_eq_false r.key).mp (h'.fresh r hr)).1
  nodup := by
    rw [map_append, nodup_append]
    refine ⟨h.nodup, h'.nodup, ?_⟩
    rintro key hkey _ hkey' rfl
    obtain ⟨a, ha, rfl⟩ := mem_map.mp hkey
    obtain ⟨b, hb, hsame⟩ := mem_map.mp hkey'
    exact ((h.has_eq_false b.key).mp (h'.fresh b hb)).2 a ha hsame.symm
  mem row := by
    rw [h'.mem, h.mem, or_assoc]
    simp only [mem_append, or_and_right, exists_or]
  rules := h'.rules.trans h.rules
  links := h'.links.trans h.links

end

/-- Taking one of the added routes back leaves the others. -/
theorem remove (h : base.Extends k o (pre ++ r :: post)) :
    base.Extends (k.removeRoute r).2 o (pre ++ post) := by
  have hsub : (pre ++ post).Sublist (pre ++ r :: post) := (sublist_cons_self r post).append_left pre
  have hnodup := h.nodup
  rw [map_append, map_cons, nodup_append] at hnodup
  obtain ⟨-, hpost, hapart⟩ := hnodup
  refine ⟨fun x hx => h.fresh x (hsub.subset hx), h.nodup.sublist (hsub.map _), fun row => ?_,
    (removeRouteRows_rules ..).trans h.rules, (removeRouteRows_links ..).trans h.links⟩
  rw [mem_removeRoute, h.mem]
  constructor
  · rintro ⟨hrow | ⟨x, hx, rfl⟩, hkeep⟩
    · exact .inl hrow
    · refine .inr ⟨x, ?_, rfl⟩
      simp only [mem_append, mem_cons] at hx ⊢
      rcases hx with hx | rfl | hx
      · exact .inl hx
      · exact absurd (selects_install x o _ rfl) hkeep
      · exact .inr hx
  · rintro (hrow | ⟨x, hx, rfl⟩)
    · refine ⟨.inl hrow, fun hgone => ?_⟩
      exact Table.has_eq_false_iff.mp (h.fresh r (by simp)) row hrow hgone.1
    · refine ⟨.inr ⟨x, hsub.subset hx, rfl⟩, fun hgone => ?_⟩
      have hkey : x.key = r.key := x.key_install o ▸ hgone.1
      rcases mem_append.mp hx with hx | hx
      · exact hapart x.key (mem_map_of_mem hx) r.key (by simp) hkey
      · exact (nodup_cons.mp hpost).1 (hkey ▸ mem_map_of_mem hx)

theorem subset (h : base.Extends k o added) {row : KernelRoute} (hrow : row ∈ base.routes) :
    row ∈ k.routes :=
  (h.mem row).mpr (.inl hrow)

end Kernel.Extends

/-! ### The transaction -/

section
variable {V : Verdict Fault → Prop} {E : IoError → DaemonCore → Prop} {core : DaemonCore}
  {base : Kernel} {o : Origin} {all : List AppliedRoute}

/-- A cut-off inside a transaction: some of its routes are in the kernel. -/
def MidTransaction (V : Verdict Fault → Prop) (core : DaemonCore) (base : Kernel) (o : Origin)
    (all : List AppliedRoute) (c : DaemonCore) : Prop :=
  V .crash ∧ ∃ k added, base.Extends k o added ∧ added ⊆ all ∧ c = { core with kernel := k }

theorem removeRoute_clean (r : AppliedRoute) : Clean (·.removeRoute r) := clean_removeRouteRows _

theorem addRoute_clean (o : Origin) (r : AppliedRoute) : Clean (·.addRoute o r) :=
  clean_addRouteRow _

/-- The rollback removes what the transaction added, or reports it. `pre` is what it reported
so far. -/
theorem wp_rollbackRoutes {pre l : List AppliedRoute} (h : base.Extends core.kernel o (pre ++ l))
    (hall : pre ++ l ⊆ all) :
    wp V (rollbackRoutes l) (fun left c => ∃ k, base.Extends k o (pre ++ left) ∧ left ⊆ l ∧
        c = { core with kernel := k }) E (MidTransaction V core base o all) core := by
  induction l generalizing core pre with
  | nil => exact wp_pure ⟨core.kernel, h, fun _ hx => hx, rfl⟩
  | cons r rest ih =>
    have hcrash : V .crash → MidTransaction V core base o all core :=
      fun hv => ⟨hv, core.kernel, _, h, hall, rfl⟩
    -- A refused removal moves the route to what is left.
    have hkept : wp V (rollbackRoutes rest) (fun left c => wp V (pure (r :: left))
          (fun left c => ∃ k, base.Extends k o (pre ++ left) ∧ left ⊆ r :: rest ∧
            c = { core with kernel := k }) E (MidTransaction V core base o all) c)
        E (MidTransaction V core base o all) core := by
      refine wp_post (ih (show base.Extends core.kernel o (pre ++ [r] ++ rest) by simpa using h)
        (by simpa using hall)) ?_
      rintro left _ ⟨k, hk, hsub, rfl⟩
      refine wp_pure ⟨k, by simpa using hk, ?_, rfl⟩
      exact cons_subset_cons r hsub
    refine wp_tried (wp_onKernel hcrash (fun _ _ => wp_bind hkept) ?_ ?_)
    · intro _ hok
      have hgone := h.remove
      refine wp_bind (wp_mono (@ih { core with kernel := (core.kernel.removeRoute r).2 }
        _ hgone ?_) ?_ (fun _ _ he => he) ?_)
      · intro x hx
        exact hall (by
          rcases mem_append.mp hx with hx | hx
          · simp [hx]
          · simp [hx])
      · rintro left _ ⟨k, hk, hsub, rfl⟩
        exact wp_pure ⟨k, hk, fun x hx => mem_cons_of_mem r (hsub hx), rfl⟩
      · exact fun _ hc => hc
    · intro e he
      rw [show { core with kernel := (core.kernel.removeRoute r).2 } = core by
        rw [removeRoute_clean r _ e he]]
      exact wp_bind hkept

/-- The end of a transaction. -/
def TransactionEnd (core : DaemonCore) (base : Kernel) (o : Origin)
    (added routes : List AppliedRoute) :
    Except (IoError × List AppliedRoute) Unit → DaemonCore → Prop
  | .ok (), c => ∃ k, base.Extends k o (routes.reverse ++ added) ∧ c = { core with kernel := k }
  | .error (_, left), c => ∃ k, base.Extends k o left ∧ left ⊆ added ++ routes ∧
      c = { core with kernel := k }

theorem wp_applyRoutesTransactional {added routes : List AppliedRoute}
    (h : base.Extends core.kernel o added) (hall : added ++ routes ⊆ all) :
    wp V (applyRoutesTransactional o added routes) (TransactionEnd core base o added routes) E
      (MidTransaction V core base o all) core := by
  induction routes generalizing core added with
  | nil => exact wp_pure ⟨core.kernel, h, rfl⟩
  | cons r rest ih =>
    have hsub : added ⊆ all := fun x hx => hall (by simp [hx])
    -- Whatever refuses the add, the rollback starts from the kernel as it is.
    have hrefused : ∀ e, wp V (do
          let left ← rollbackRoutes added
          pure (.error (rollbackError e left, left)))
        (TransactionEnd core base o added (r :: rest)) E (MidTransaction V core base o all)
        core := by
      intro e
      refine wp_then (wp_rollbackRoutes
        (show base.Extends core.kernel o ([] ++ added) from h) hsub) ?_
      rintro left _ ⟨k, hk, hleft, rfl⟩
      exact wp_pure ⟨k, hk, fun x hx => by simp [hleft hx], rfl⟩
    refine wp_tried (wp_onKernel (fun hv => ⟨hv, core.kernel, added, h, hsub, rfl⟩)
      (fun f _ => hrefused _) ?_ ?_)
    · intro _ hok
      refine wp_post (@ih { core with kernel := (core.kernel.addRoute o r).2 } _ (h.add hok) ?_) ?_
      · intro x hx
        refine hall ?_
        simp only [cons_append, mem_cons, mem_append] at hx ⊢
        tauto
      · intro result c hend
        cases result with
        | ok u =>
          obtain ⟨k, hk, rfl⟩ := hend
          exact ⟨k, by simpa using hk, rfl⟩
        | error x =>
          obtain ⟨k, hk, hleft, rfl⟩ := hend
          refine ⟨k, hk, fun y hy => ?_, rfl⟩
          have hy' := hleft hy
          simp only [cons_append, mem_cons, mem_append] at hy' ⊢
          tauto
    · intro e he
      rw [show { core with kernel := (core.kernel.addRoute o r).2 } = core by
        rw [addRoute_clean o r _ e he]]
      exact hrefused e

end

/-! ### Applying -/

/-- The entry of a route owner. -/
def routeEntry (uid : Nat) (owner : Owner) (state : OwnedState) (attach : Option AttachSpecParams)
    (routes : List AppliedRoute) : JournalEntry :=
  { uid, owner, state, resources := attachResources attach routes }

/-- The journal after a transaction that failed: an entry for what the rollback left, and for
a spec to retry. -/
def failedApply (j : Journal) (uid : Nat) (owner : Owner) (attach : Option AttachSpecParams)
    (left : List AppliedRoute) : Journal :=
  if left.isEmpty && attach.isNone then j else j ++ [routeEntry uid owner .stale attach left]

section
variable {V : Verdict Fault → Prop} {core : DaemonCore}

/-- What a successful apply has done. -/
structure Applies (core : DaemonCore) (uid : Nat) (owner : Owner) (routes : List AppliedRoute)
    (attach : Option AttachSpecParams) (c : DaemonCore) : Prop where
  valid : validateApply routes = .ok ()
  free : core.journal.position uid owner = none
  result : ∃ k disk, core.kernel.Extends k (.daemon uid owner) routes.reverse ∧
    (disk = core.journal ++ [routeEntry uid owner .applying attach routes] ∨
      disk = core.journal ++ [routeEntry uid owner .applied attach routes]) ∧
    c = { core with
      journal := core.journal ++ [routeEntry uid owner .applied attach routes]
      kernel := k
      disk }

/-- What a failed apply has done: nothing, or only its save, or what its rollback left. -/
inductive ApplyFails (core : DaemonCore) (uid : Nat) (owner : Owner) (routes : List AppliedRoute)
    (attach : Option AttachSpecParams) : DaemonCore → Prop
  | refused : ApplyFails core uid owner routes attach core
  | unsynced (valid : validateApply routes = .ok ()) (free : core.journal.position uid owner = none) :
      ApplyFails core uid owner routes attach
        { core with disk := core.journal ++ [routeEntry uid owner .applying attach routes] }
  | rolledBack (k : Kernel) (left : List AppliedRoute) (disk : Journal)
      (valid : validateApply routes = .ok ()) (free : core.journal.position uid owner = none)
      (kernel : core.kernel.Extends k (.daemon uid owner) left) (sub : left ⊆ routes)
      (saved : disk = core.journal ++ [routeEntry uid owner .applying attach routes] ∨
        disk = failedApply core.journal uid owner attach left) :
      ApplyFails core uid owner routes attach
        { core with journal := failedApply core.journal uid owner attach left, kernel := k, disk }

/-- An apply that is cut off: before its save nothing has happened, after it the disk lists
every route. -/
def ApplyCut (V : Verdict Fault → Prop) (core : DaemonCore) (uid : Nat) (owner : Owner)
    (routes : List AppliedRoute) (attach : Option AttachSpecParams) (c : DaemonCore) : Prop :=
  V .crash ∧ ((c.kernel = core.kernel ∧ c.disk = core.disk) ∨
    ∃ added, core.kernel.Extends c.kernel (.daemon uid owner) added ∧ added ⊆ routes ∧
      c.disk = core.journal ++ [routeEntry uid owner .applying attach routes])

theorem modify_append_length (j : Journal) (entry : JournalEntry)
    (f : JournalEntry → JournalEntry) : (j ++ [entry]).modify j.length f = j ++ [f entry] := by
  induction j with
  | nil => rfl
  | cons e j ih => simp [ih]

/-- The bookkeeping after the transaction, at the last entry. -/
theorem wp_finishApply {uid : Nat} {owner : Owner} {attach : Option AttachSpecParams}
    {routes : List AppliedRoute} (core : DaemonCore) (j : Journal) (count : Nat)
    (h : core.journal = j ++ [routeEntry uid owner .applying attach routes])
    (result : Except (IoError × List AppliedRoute) Unit) :
    wp V (finishApply j.length attach count result) (fun _ c => result = .ok () ∧ ∃ disk,
        (disk = core.disk ∨ disk = j ++ [routeEntry uid owner .applied attach routes]) ∧
        c = { core with journal := j ++ [routeEntry uid owner .applied attach routes], disk })
      (fun _ c => ∃ e left, result = .error (e, left) ∧ ∃ disk,
        (disk = core.disk ∨ disk = failedApply j uid owner attach left) ∧
        c = { core with journal := failedApply j uid owner attach left, disk })
      (fun c => V .crash ∧ c.kernel = core.kernel ∧ c.disk = core.disk) core := by
  cases result with
  | ok u =>
    refine wp_bind (wp_updateEntry ?_)
    rw [h, modify_append_length]
    refine wp_bind (wp_persist (fun hv => ⟨hv, rfl, rfl⟩) (wp_pure ?_) (wp_pure ?_))
    · exact ⟨rfl, _, .inl rfl, rfl⟩
    · exact ⟨rfl, _, .inr rfl, rfl⟩
  | error x =>
    obtain ⟨e, left⟩ := x
    have hretain : wp V (retainFailed j.length attach left)
        (fun _ c => c = { core with journal := failedApply j uid owner attach left })
        (fun _ _ => False) (fun _ => False) core := by
      unfold retainFailed failedApply
      split
      · refine wp_removeEntry ?_
        rw [h, eraseIdx_append_of_length_le (Nat.le_refl _)]
        simp
      · refine wp_updateEntry ?_
        rw [h, modify_append_length]
        rfl
    refine wp_bind (wp_mono hretain ?_ (fun _ _ hf => hf.elim) (fun _ hf => hf.elim))
    rintro _ _ rfl
    refine wp_bind (wp_persist (fun hv => ⟨hv, rfl, rfl⟩) (wp_throw ?_) (wp_throw ?_))
    · exact ⟨e, left, rfl, _, .inl rfl, rfl⟩
    · exact ⟨e, left, rfl, _, .inr rfl, rfl⟩

theorem wp_applyRoutesInner (core : DaemonCore) (uid : Nat) (owner : Owner)
    (routes : List AppliedRoute) (attach : Option AttachSpecParams) :
    wp V (applyRoutesInner uid owner routes attach) (fun _ => Applies core uid owner routes attach)
      (fun _ => ApplyFails core uid owner routes attach)
      (ApplyCut V core uid owner routes attach) core := by
  refine wp_bind (wp_demand (fun hvalid => ?_) fun _ _ => .refused)
  refine wp_bind (wp_position ?_)
  split
  · exact wp_throw .refused
  rename_i hsome
  have hfree : core.journal.position uid owner = none := by simpa using hsome
  refine wp_bind (wp_pushEntry (wp_read ?_))
  simp only [length_append, length_singleton, Nat.add_sub_cancel]
  refine wp_tried (wp_save (fun hv => ⟨hv, .inl ⟨rfl, rfl⟩⟩) (fun f _ => ?_) (fun f _ => ?_) ?_)
  · refine wp_bind (wp_setJournal (wp_throw ?_))
    simp only [dropLast_concat]
    exact .refused
  · refine wp_bind (wp_setJournal (wp_throw ?_))
    simp only [dropLast_concat]
    exact .unsynced hvalid hfree
  -- From here on the disk lists every route of the request.
  refine wp_bind (wp_mono (wp_applyRoutesTransactional
    (.refl core.kernel _) (show [] ++ routes ⊆ routes by simp)) ?_ (fun _ _ h => h) ?_)
  · intro result c hend
    cases result with
    | ok u =>
      obtain ⟨k, hk, rfl⟩ := hend
      rw [append_nil] at hk
      refine wp_mono (wp_finishApply _ core.journal routes.length rfl (.ok ())) ?_ ?_ ?_
      · rintro _ _ ⟨-, disk, hdisk, rfl⟩
        exact ⟨hvalid, hfree, k, disk, hk, hdisk, rfl⟩
      · rintro _ _ ⟨_, _, hbad, _⟩
        cases hbad
      · rintro c ⟨hv, hkernel, hdisk⟩
        exact ⟨hv, .inr ⟨routes.reverse, by rw [hkernel]; exact hk,
          fun r hr => mem_reverse.mp hr, hdisk⟩⟩
    | error x =>
      obtain ⟨e, left⟩ := x
      obtain ⟨k, hk, hsub, rfl⟩ := hend
      refine wp_mono (wp_finishApply _ core.journal routes.length rfl (.error (e, left))) ?_ ?_ ?_
      · rintro _ _ ⟨hbad, _⟩
        cases hbad
      · rintro _ _ ⟨_, _, heq, disk, hdisk, rfl⟩
        cases heq
        exact .rolledBack k left disk hvalid hfree hk hsub hdisk
      · rintro c ⟨hv, hkernel, hdisk⟩
        exact ⟨hv, .inr ⟨left, by rw [hkernel]; exact hk, hsub, hdisk⟩⟩
  · rintro c ⟨hv, k, added, hk, hsub, rfl⟩
    exact ⟨hv, .inr ⟨added, hk, hsub, rfl⟩⟩

end

/-! ### Converging -/

/-- What the entry lists and its spec no longer derives. -/
def outdatedRoutes (entry : JournalEntry) (desired : List AppliedRoute) : List AppliedRoute :=
  (ownedRoutes entry.resources).filter fun route => !hasRoute desired route

/-- What the spec derives and the caller has not seen. -/
def missingRoutes (desired observed : List AppliedRoute) : List AppliedRoute :=
  desired.filter fun route => !hasRoute observed route

/-- The journal after a convergence step that could not withdraw `retained`. -/
def Journal.converged (j : Journal) (index : Nat) (spec : AttachSpecParams)
    (desired retained : List AppliedRoute) : Journal :=
  j.modify index (·.setResources
    (.attachSpec spec :: desired.map OwnedResource.route ++ retained.map .route))

section
variable {V : Verdict Fault → Prop} {E : IoError → DaemonCore → Prop} {core : DaemonCore}
  {index : Nat} {entry : JournalEntry} {spec : AttachSpecParams} {observed : List AppliedRoute}
  {J K : List AppliedRoute → List AppliedRoute → Kernel → Prop}

theorem wp_goneAfter_removeRoute {r : AppliedRoute} {Q : Bool → DaemonCore → Prop}
    {C : DaemonCore → Prop} (hcrash : V .crash → C core)
    (hgone : Q true { core with kernel := (core.kernel.removeRoute r).2 })
    (hkept : (∃ f, V (.fail f)) → Q false core) :
    wp V (goneAfter (removeRoute r)) Q E C core := by
  refine wp_tried (wp_onKernel hcrash (fun f hf => ?_) (fun _ _ => ?_) fun e he => ?_)
  · refine wp_pure ?_
    rw [isNotFound_report f]
    exact hkept ⟨f, hf⟩
  · exact wp_pure hgone
  · refine wp_pure ?_
    rw [isNotFound_of_removeRouteRows he]
    exact hgone

variable {l : List AppliedRoute}

/-- The withdrawals of a convergence step. -/
theorem wp_withdrawals (hstart : J [] l core.kernel)
    (hgone : ∀ left r rest k, J left (r :: rest) k → J left rest (k.removeRoute r).2)
    (hkept : ∀ left r rest k, (∃ f, V (.fail f)) → J left (r :: rest) k →
      J (left ++ [r]) rest k) :
    wp V (Call.sweep (fun _ route => goneAfter (removeRoute route)) [] l)
      (fun retained c => ∃ k, J retained [] k ∧ c = { core with kernel := k }) E
      (fun c => V .crash ∧ ∃ left rest k, J left rest k ∧ c = { core with kernel := k }) core := by
  refine wp_sweep (J := fun left rest c => ∃ k, J left rest k ∧ c = { core with kernel := k })
    ?_ ⟨core.kernel, hstart, rfl⟩
  rintro left r rest _ ⟨k, hJ, rfl⟩
  refine wp_goneAfter_removeRoute (fun hv => ⟨hv, left, r :: rest, k, hJ, rfl⟩) ?_ ?_
  · exact ⟨_, hgone left r rest k hJ, rfl⟩
  · exact fun hf => ⟨k, hkept left r rest k hf hJ, rfl⟩

/-- The installs of a convergence step, past those that are refused. -/
theorem wp_installRoutes {o : Origin} {L : List AppliedRoute → Kernel → Prop}
    (hstart : L l core.kernel) (hadd : ∀ r rest k, L (r :: rest) k → L rest (k.addRoute o r).2)
    (hskip : ∀ r rest k, (∃ f, V (.fail f)) → L (r :: rest) k → L rest k) :
    wp V (installRoutes o l) (fun _ c => ∃ k, L [] k ∧ c = { core with kernel := k }) E
      (fun c => V .crash ∧ ∃ rest k, L rest k ∧ c = { core with kernel := k }) core := by
  induction l generalizing core with
  | nil => exact wp_pure ⟨core.kernel, hstart, rfl⟩
  | cons r rest ih =>
    have hrest : ∀ (k : Kernel) (added : Except IoError Unit), L rest k → wp V (do
          let more ← installRoutes o rest
          pure (succeeded added || more))
        (fun _ c => ∃ k, L [] k ∧ c = { core with kernel := k }) E
        (fun c => V .crash ∧ ∃ rest k, L rest k ∧ c = { core with kernel := k })
        { core with kernel := k } := by
      intro k added hk
      exact wp_bind (wp_post (@ih { core with kernel := k } hk)
        (fun _ _ h => wp_pure h))
    refine wp_tried (wp_onKernel (fun hv => ⟨hv, r :: rest, core.kernel, hstart, rfl⟩)
      (fun f hf => ?_) (fun _ _ => ?_) fun e _ => ?_)
    · exact hrest core.kernel _ (hskip r rest _ ⟨f, hf⟩ hstart)
    · exact hrest _ _ (hadd r rest _ hstart)
    · exact hrest _ _ (hadd r rest _ hstart)

/-- The rule for a convergence step: `J` through the withdrawals, `K` through the installs. -/
theorem wp_reconcileAttach (hentry : core.journal[index]? = some entry)
    (hstart : J [] (outdatedRoutes entry (attachDesired core.view spec)) core.kernel)
    (hgone : ∀ left r rest k, J left (r :: rest) k → J left rest (k.removeRoute r).2)
    (hkept : ∀ left r rest k, (∃ f, V (.fail f)) → J left (r :: rest) k →
      J (left ++ [r]) rest k) (hmid : ∀ retained k, J retained [] k →
      K retained (missingRoutes (attachDesired core.view spec) observed) k)
    (hadd : ∀ retained r rest k, K retained (r :: rest) k →
      K retained rest (k.addRoute entry.origin r).2)
    (hskip : ∀ retained r rest k, (∃ f, V (.fail f)) → K retained (r :: rest) k →
      K retained rest k) :
    wp V (reconcileAttach index spec observed) (fun _ c => ∃ retained k disk, K retained [] k ∧
        (disk = core.disk ∨
          disk = core.journal.converged index spec (attachDesired core.view spec) retained) ∧
        c = { core with
          journal := core.journal.converged index spec (attachDesired core.view spec) retained
          kernel := k
          disk }) E
      (fun c => V .crash ∧ c.disk = core.disk ∧
        ((∃ left rest, J left rest c.kernel) ∨ ∃ retained rest, K retained rest c.kernel)) core := by
  have hat : ∀ {c : DaemonCore} {α : Type} {f : JournalEntry → Prog α} {Q : α → DaemonCore → Prop}
      {C : DaemonCore → Prop}, c.journal = core.journal → wp V (f entry) Q E C c →
      wp V (entryAt index >>= f) Q E C c := by
    intro c α f Q C hj h
    refine wp_bind (wp_entryAt (fun e he => ?_) fun hnone => ?_)
    · rw [hj, hentry] at he
      rw [← Option.some.inj he]
      exact h
    · rw [hj, hentry] at hnone
      cases hnone
  refine wp_read (hat rfl ?_)
  refine wp_bind (wp_mono (wp_withdrawals hstart hgone hkept) ?_ (fun _ _ h => h) ?_)
  · rintro retained _ ⟨k, hJ, rfl⟩
    refine wp_bind (wp_mono (wp_installRoutes (L := K retained) (hmid retained k hJ)
      (hadd retained) (hskip retained)) ?_ (fun _ _ h => h) ?_)
    · rintro installed _ ⟨k, hK, rfl⟩
      refine hat rfl (wp_bind (wp_updateEntry (wp_bind ?_)))
      unfold persistIf
      split
      · refine wp_persist (fun hv => ⟨hv, rfl, .inr ⟨retained, [], hK⟩⟩) (wp_pure ?_) (wp_pure ?_)
        · exact ⟨retained, k, _, hK, .inl rfl, rfl⟩
        · exact ⟨retained, k, _, hK, .inr rfl, rfl⟩
      · exact wp_pure (wp_pure ⟨retained, k, _, hK, .inl rfl, rfl⟩)
    · rintro _ ⟨hv, rest, k, hK, rfl⟩
      exact ⟨hv, rfl, .inr ⟨retained, rest, hK⟩⟩
  · rintro _ ⟨hv, left, rest, k, hJ, rfl⟩
    exact ⟨hv, rfl, .inl ⟨left, rest, hJ⟩⟩

end

/-! ### Routes in normal form -/

/-- A route as clients and derivations give it: no host bits, no table. -/
structure AppliedRoute.Normal (r : AppliedRoute) : Prop where
  table : r.table = none
  trunc : r.destination.trunc = r.destination

section
variable {a b r : AppliedRoute} {view : View} {spec : AttachSpecParams}
variable {routes : List AppliedRoute}

theorem validateRoute_normal (h : validateRoute r = .ok ()) : r.Normal := by
  unfold validateRoute refuse at h
  split at h
  · cases h
  rename_i htrunc
  split at h
  · cases h
  rename_i htable
  exact ⟨by simpa using htable, by simpa using htrunc⟩

theorem validateRoutes_normal {seen : List (IpNet × Nat)}
    (h : validateRoutes seen routes = .ok ()) : ∀ r ∈ routes, r.Normal := by
  induction routes generalizing seen with
  | nil => simp
  | cons route rest ih =>
    unfold validateRoutes at h
    cases hroute : validateRoute route with
    | error m => rw [hroute] at h; cases h
    | ok u =>
      simp only [hroute] at h
      change (if _ then _ else _) = _ at h
      split at h
      · cases h
      · intro r hr
        rcases mem_cons.mp hr with rfl | hr
        · exact validateRoute_normal hroute
        · exact ih h r hr

theorem validateApply_normal (h : validateApply routes = .ok ()) : ∀ r ∈ routes, r.Normal := by
  unfold validateApply refuse at h
  split at h
  · cases h
  · exact validateRoutes_normal h

theorem declaredRoutes_normal (h : r ∈ view.declaredRoutes spec) : r.Normal := by
  unfold View.declaredRoutes at h
  split at h
  · obtain ⟨route, -, hroute⟩ := mem_filterMap.mp h
    obtain ⟨hop, -, rfl⟩ := Option.map_eq_some_iff.mp hroute
    exact ⟨rfl, IpNet.trunc_trunc _⟩
  split at h
  · split at h
    · obtain ⟨route, -, rfl⟩ := mem_map.mp h
      exact ⟨rfl, IpNet.trunc_trunc _⟩
    · cases h
  · cases h

theorem uplinkBypassRoute_normal {host : IpAddr} (h : view.uplinkBypassRoute host = some r) :
    r.Normal := by
  obtain ⟨hop, -, rfl⟩ := Option.map_eq_some_iff.mp h
  exact ⟨rfl, IpAddr.trunc_toNet host⟩

/-- Bypasses are only ever added to what was declared. -/
theorem mem_foldl_addBypass {bypasses declared : List AppliedRoute}
    (h : r ∈ bypasses.foldl addBypass declared) : r ∈ declared ∨ r ∈ bypasses := by
  induction bypasses generalizing declared with
  | nil => exact .inl h
  | cons route rest ih =>
    rcases ih h with h | h
    · unfold addBypass at h
      split at h
      · exact .inl h
      · rcases mem_append.mp h with h | h
        · exact .inl h
        · exact .inr (by simp [mem_singleton.mp h])
    · exact .inr (mem_cons_of_mem _ h)

theorem attachDesired_normal (h : r ∈ attachDesired view spec) : r.Normal := by
  rcases mem_foldl_addBypass h with h | h
  · exact declaredRoutes_normal h
  · obtain ⟨host, -, hhost⟩ := mem_flatMap.mp h
    obtain ⟨ip, -, hip⟩ := mem_filterMap.mp hhost
    exact uplinkBypassRoute_normal hip

@[simp]
theorem AppliedRoute.key_kernelRoute (r : AppliedRoute) : r.kernelRoute.key = r.key := by
  unfold AppliedRoute.kernelRoute
  split
  · rename_i h
    have hfamily := (IpNet.isIpv4_eq_false_iff r.destination).mp h.1
    simp [AppliedRoute.key, AppliedRoute.system, SystemRoute.key, kernelMetric, h.2, hfamily]
  · rfl

/-- In normal form, what the kernel takes for one object is the same up to its metric. -/
theorem AppliedRoute.Normal.key_eq_iff (ha : a.Normal) (hb : b.Normal) :
    a.key = b.key ↔ a.kernelRoute = b.kernelRoute := by
  refine ⟨fun h => ?_, fun h => by rw [← a.key_kernelRoute, h, b.key_kernelRoute]⟩
  have hdest : a.destination = b.destination := by
    rw [← ha.trunc, ← hb.trunc]
    exact congrArg RouteKey.destination h
  have hindex : a.interfaceIndex = b.interfaceIndex :=
    Option.some.inj (congrArg RouteKey.interfaceIndex h)
  have hgateway : a.gateway = b.gateway := congrArg RouteKey.gateway h
  have hmetric : kernelMetric a.destination.family a.metric =
      kernelMetric b.destination.family b.metric := congrArg RouteKey.metric h
  have hnormal : ∀ r : AppliedRoute, r.kernelRoute =
      { r with metric := kernelMetric r.destination.family r.metric } := by
    intro r
    simp only [AppliedRoute.kernelRoute, kernelMetric, IpNet.isIpv4_eq_false_iff]
    split <;> rfl
  rw [hnormal a, hnormal b, hdest, hindex, hgateway, ha.table, hb.table]
  rw [hdest] at hmetric
  rw [hmetric]

theorem hasRoute_iff (hroutes : ∀ x ∈ routes, x.Normal)
    (hr : r.Normal) : hasRoute routes r = true ↔ ∃ x ∈ routes, x.key = r.key := by
  simp only [hasRoute, any_eq_true, beq_iff_eq]
  constructor
  · rintro ⟨x, hx, heq⟩
    exact ⟨x, hx, ((hroutes x hx).key_eq_iff hr).mpr heq⟩
  · rintro ⟨x, hx, heq⟩
    exact ⟨x, hx, ((hroutes x hx).key_eq_iff hr).mp heq⟩

end

end NetOrchestrator.Daemon
