import NetOrchestrator.Proofs.OwnerExclusive

/-!
# `Proofs.AttachConverges`: what one undisturbed pass repairs

A pass over the journal brings an attach entry to its derivation, from whatever routes earlier
failures left in it. It visits applied entries only. An apply that failed leaves a stale entry
with its spec, and no pass ever visits that.

`attach_retried` is the condition on the state before an undisturbed pass under which every
attach entry is converged after it, for every state that a run of requests can reach. The
visits of one pass can undo each other: an entry withdraws what it lists and no longer wants,
also where another entry wants it. `EndsUp` says which keys are left by the visits together.
-/

namespace NetOrchestrator.Daemon

open Net Lib Lib.Call Table Nat

/-! ### Every run keeps the shape of route owners -/

/-- Every entry is a route owner's. -/
def RouteJournal (j : Journal) : Prop := ∀ e ∈ j, e.IsRouteOwner

section
variable {V : Verdict Fault → Prop} {core c : DaemonCore} {index : Nat} {entry : JournalEntry}
  {spec : AttachSpecParams} {uid : Nat} {owner : Owner} {routes : List AppliedRoute}
  {attach : Option AttachSpecParams} {done : Bool}

theorem RouteJournal.modify {j : Journal} {f : JournalEntry → JournalEntry} (h : RouteJournal j)
    (hf : ∀ e, j[index]? = some e → (f e).IsRouteOwner) : RouteJournal (j.modify index f) := by
  intro e he
  obtain ⟨i, hi⟩ := List.mem_iff_getElem?.mp he
  by_cases hidx : i = index
  · subst hidx
    rw [List.getElem?_modify_eq] at hi
    obtain ⟨e', he', rfl⟩ := Option.map_eq_some_iff.mp hi
    exact hf e' he'
  · rw [getElem?_modify_of_ne hidx] at hi
    exact h e (List.mem_of_getElem? hi)

theorem RouteJournal.push {j : Journal} (h : RouteJournal j) (hentry : entry.IsRouteOwner) :
    RouteJournal (j ++ [entry]) := by
  intro e he
  rcases List.mem_append.mp he with he | he
  · exact h e he
  · exact List.mem_singleton.mp he ▸ hentry

section
variable (h : RouteJournal core.journal)
include h

theorem RouteJournal.retired (hentry : core.journal[index]? = some entry)
    (hret : Retired core index entry done c) : RouteJournal c.journal := by
  cases hret with
  | gone k disk hw => exact fun e he => h e (List.mem_of_mem_eraseIdx he)
  | kept k disk failed hw hsub =>
    refine RouteJournal.modify h fun e he => ?_
    obtain rfl : entry = e := Option.some.inj (hentry.symm.trans he)
    have hshape := h entry (List.mem_of_getElem? hentry)
    exact ⟨hshape.owner, fun x hx => hshape.resources x (hsub x (List.mem_reverse.mp hx))⟩

theorem RouteJournal.converged (hentry : core.journal[index]? = some entry)
    (hc : Converged core index entry spec c) : RouteJournal c.journal := by
  obtain ⟨k, retained, disk, -, hsub⟩ := hc
  refine RouteJournal.modify h fun e he => ?_
  obtain rfl : entry = e := Option.some.inj (hentry.symm.trans he)
  have hshape := h entry (List.mem_of_getElem? hentry)
  refine ⟨hshape.owner, fun x hx => ?_⟩
  simp only [JournalEntry.setResources, List.cons_append, List.mem_cons, List.mem_append,
    List.mem_map] at hx
  rcases hx with rfl | ⟨d, hd, rfl⟩ | ⟨r, hr, rfl⟩
  · exact .inl ⟨spec, rfl⟩
  · exact .inr ⟨d, rfl, attachDesired_normal hd⟩
  · exact hshape.resources _ (hsub r hr)

theorem RouteJournal.applies (howner : owner.holdsRoutes = true)
    (ha : Applies core uid owner routes attach c) : RouteJournal c.journal := by
  obtain ⟨hvalid, -, k, disk, -, -, rfl⟩ := ha
  exact h.push (routeEntry_isRouteOwner howner (validateApply_normal hvalid))

theorem RouteJournal.applyFails (howner : owner.holdsRoutes = true)
    (ha : ApplyFails core uid owner routes attach c) : RouteJournal c.journal := by
  cases ha with
  | refused => exact h
  | unsynced _ _ => exact h
  | rolledBack k left disk valid free kernel sub saved =>
    show RouteJournal (failedApply core.journal uid owner attach left)
    unfold failedApply
    split
    · exact h
    · exact h.push (routeEntry_isRouteOwner howner fun r hr =>
        validateApply_normal valid r (sub hr))

end

/-- The shape as a property of the daemon. -/
def OnRouteJournal (core : DaemonCore) : Prop := RouteJournal core.journal

theorem OnRouteJournal.bookkept : Bookkept V OnRouteJournal (fun _ => True) :=
  ⟨fun _ h => h, fun _ _ h => h, fun _ _ _ => trivial⟩

variable (h : OnRouteJournal core)
include h

theorem OnRouteJournal.wp_teardown (hentry : ∃ entry, core.journal[index]? = some entry) :
    wp V (teardownEntry index) (fun _ => OnRouteJournal) (fun _ => OnRouteJournal)
      (fun _ => True) core := by
  obtain ⟨entry, hentry⟩ := hentry
  exact wp_mono ((h entry (List.mem_of_getElem? hentry)).teardown hentry)
    (fun _ _ hret => RouteJournal.retired h hentry hret)
    (fun _ _ hret => RouteJournal.retired h hentry hret) fun _ _ => trivial

theorem OnRouteJournal.wp_retire (hpos : core.journal.position uid owner = some index) :
    wp V (teardownEntry index) (fun _ => OnRouteJournal) (fun _ => OnRouteJournal)
      (fun _ => True) core :=
  let ⟨entry, hentry, _⟩ := Journal.position_eq_some hpos
  h.wp_teardown ⟨entry, hentry⟩

theorem OnRouteJournal.wp_applyRoutesInner (howner : owner.holdsRoutes = true) :
    wp V (applyRoutesInner uid owner routes attach) (fun _ => OnRouteJournal)
      (fun _ => OnRouteJournal) (fun _ => True) core :=
  wp_mono (Daemon.wp_applyRoutesInner core uid owner routes attach)
    (fun _ _ ha => RouteJournal.applies h howner ha)
    (fun _ _ ha => RouteJournal.applyFails h howner ha) fun _ _ => trivial

theorem OnRouteJournal.wp_reconcileNetwork (observed : List AppliedRoute) :
    wp V (reconcileNetwork observed) (fun _ => OnRouteJournal) (fun _ _ => False)
      (fun _ => True) core := by
  refine wp_read (wp_ends (wp_reconcileLoop
    (J := fun n c => OnRouteJournal c ∧ n ≤ c.journal.length) ?_ ?_ ?_ ⟨h, le_refl _⟩)
    (fun _ _ h' => h'.1) (fun _ _ hf => hf))
  · rintro n c ⟨hc, hlt⟩
    have hlt : n < c.journal.length := hlt
    exact ⟨c.journal[n], by simp [hlt], hc _ (List.getElem_mem hlt)⟩
  · rintro n c entry ⟨hc, hlt⟩ - -
    exact ⟨hc, by omega⟩
  · rintro n c entry spec ⟨hc, hlt⟩ hentry - -
    refine wp_ends ((hc entry (List.mem_of_getElem? hentry)).reconcileAttach hentry) ?_
      (fun _ _ hf => hf)
    intro _ c' hc'
    refine ⟨RouteJournal.converged hc hentry hc', ?_⟩
    obtain ⟨k, retained, disk, -, -⟩ := hc'
    show n ≤ (c.journal.converged n spec _ retained).length
    rw [Journal.converged, List.length_modify]
    omega

theorem OnRouteJournal.wp_exec (lib : Crates) (request : RouteRequest) :
    wp V (request.exec lib) (fun _ => OnRouteJournal) (fun _ => OnRouteJournal) (fun _ => True)
      core := by
  cases request with
  | applyRoutes uid owner routes =>
    exact wp_discard (wp_bind (wp_checkClientOwner (fun howner => h.wp_applyRoutesInner howner)
      fun _ => h))
  | applyAttach uid owner spec routes =>
    exact wp_discard (wp_bind (wp_checkClientOwner (fun howner =>
      wp_bind (wp_demand (fun _ => h.wp_applyRoutesInner howner) fun _ _ => h)) fun _ => h))
  | netIntentSet uid params =>
    exact wp_discard (bookkept.wp_netIntentSet bookkept h (fun _ h' => h')
      (fun index hpos => h.wp_retire hpos) (fun _ _ h' _ => h'.wp_applyRoutesInner rfl)
      fun _ _ h' hpos => h'.wp_retire hpos)
  | netIntentDel uid id => exact bookkept.wp_netIntentDel h fun _ _ h' hpos => h'.wp_retire hpos
  | removeOwner uid owner =>
    exact wp_discard (bookkept.wp_removeOwner h fun _ hpos => h.wp_retire hpos)
  | reconcileNetwork observed =>
    exact wp_discard (wp_ends (h.wp_reconcileNetwork observed) (fun _ _ h' => h')
      (fun _ _ hf => hf.elim))
  | machine kernel view => exact wp_modify h

end

/-! ### What a visit does to a key -/

/-- A visit of the entry installs a route with this key. -/
def JournalEntry.Installs (e : JournalEntry) (view : View) (observed : List AppliedRoute)
    (key : RouteKey) : Prop :=
  e.state = .applied ∧ ∃ spec, findAttachSpec e.resources = some spec ∧
    ∃ d ∈ missingRoutes (attachDesired view spec) observed, d.key = key

/-- A visit of the entry withdraws a route with this key. -/
def JournalEntry.Withdraws (e : JournalEntry) (view : View) (key : RouteKey) : Prop :=
  e.state = .applied ∧ ∃ spec, findAttachSpec e.resources = some spec ∧
    ∃ r ∈ outdatedRoutes e (attachDesired view spec), r.key = key

/-- After the visits of the entries from `n` on, the highest first, a route with this key is in
the kernel. A withdrawal selects rows of the daemon's protocol only. -/
inductive EndsUp (core : DaemonCore) (observed : List AppliedRoute) (n : Nat) (key : RouteKey) :
    Prop
  | foreign (row : KernelRoute) (hrow : row ∈ core.kernel.routes) (hkey : row.key = key)
      (hprotocol : row.route.protocol ≠ rtprotNetworkOrchestrator)
  | kept (hhas : core.kernel.routes.has key = true)
      (hno : ∀ i e, n ≤ i → core.journal[i]? = some e → ¬e.Withdraws core.view key)
  | installed (i : Nat) (e : JournalEntry) (hi : n ≤ i) (he : core.journal[i]? = some e)
      (hin : e.Installs core.view observed key)
      (hno : ∀ i' e', n ≤ i' → i' < i → core.journal[i']? = some e' →
        ¬e'.Withdraws core.view key)

/-- Some row of another program has this key. -/
def Kernel.HasForeign (k : Kernel) (key : RouteKey) : Prop :=
  ∃ row ∈ k.routes, row.key = key ∧ row.route.protocol ≠ rtprotNetworkOrchestrator

namespace EndsUp

variable {core : DaemonCore} {observed : List AppliedRoute} {n : Nat} {key : RouteKey}
  {entry : JournalEntry}

theorem length_iff :
    EndsUp core observed core.journal.length key ↔ core.kernel.routes.has key = true := by
  have hout : ∀ {i : Nat} {e : JournalEntry}, core.journal.length ≤ i →
      core.journal[i]? ≠ some e := by
    intro i e hi he
    rw [List.getElem?_eq_none hi] at he
    cases he
  constructor
  · rintro (⟨row, hrow, hkey, -⟩ | ⟨hhas, -⟩ | ⟨i, e, hi, he, -, -⟩)
    · exact has_iff.mpr ⟨row, hrow, hkey⟩
    · exact hhas
    · exact absurd he (hout hi)
  · exact fun hhas => .kept hhas fun i e hi he => absurd he (hout hi)

/-- One more visit, of the entry at `n`. -/
theorem visit_iff (hentry : core.journal[n]? = some entry) :
    EndsUp core observed n key ↔ core.kernel.HasForeign key ∨
      (EndsUp core observed (n + 1) key ∧ ¬entry.Withdraws core.view key) ∨
        entry.Installs core.view observed key := by
  constructor
  · rintro (⟨row, hrow, hkey, hprotocol⟩ | ⟨hhas, hno⟩ | ⟨i, e, hi, he, hin, hno⟩)
    · exact .inl ⟨row, hrow, hkey, hprotocol⟩
    · exact .inr (.inl ⟨.kept hhas fun i e hi => hno i e (by omega),
        hno n entry (le_refl n) hentry⟩)
    · rcases eq_or_lt_of_le hi with rfl | hlt
      · rw [hentry] at he
        exact .inr (.inr (Option.some.inj he ▸ hin))
      · exact .inr (.inl ⟨.installed i e hlt he hin fun i' e' hi' => hno i' e' (by omega),
          hno n entry (le_refl n) hlt hentry⟩)
  · have hbelow : ¬entry.Withdraws core.view key → ∀ i e, ¬n + 1 ≤ i → n ≤ i →
        core.journal[i]? = some e → ¬e.Withdraws core.view key := by
      intro hno i e hlt hi he
      obtain rfl : i = n := by omega
      rw [hentry] at he
      exact Option.some.inj he ▸ hno
    rintro (⟨row, hrow, hkey, hprotocol⟩ |
      ⟨⟨row, hrow, hkey, hprotocol⟩ | ⟨hhas, hno⟩ | ⟨i, e, hi, he, hin, hno⟩, hnot⟩ | hin)
    · exact .foreign row hrow hkey hprotocol
    · exact .foreign row hrow hkey hprotocol
    · refine .kept hhas fun i e hi he => ?_
      by_cases hlt : n + 1 ≤ i
      · exact hno i e hlt he
      · exact hbelow hnot i e hlt hi he
    · refine .installed i e (by omega) he hin fun i' e' hi' hlt' he' => ?_
      by_cases hlt : n + 1 ≤ i'
      · exact hno i' e' hlt hlt' he'
      · exact hbelow hnot i' e' hlt hi' he'
    · exact .installed n entry (le_refl n) hentry hin fun i' _ hi' hlt => absurd hlt (by omega)

/-- An entry that no pass visits changes nothing. -/
theorem skip_iff (hentry : core.journal[n]? = some entry)
    (hskip : entry.state ≠ .applied ∨ findAttachSpec entry.resources = none) :
    EndsUp core observed n key ↔ EndsUp core observed (n + 1) key := by
  have hidle : ∀ P : AttachSpecParams → Prop, ¬(entry.state = .applied ∧
      ∃ spec, findAttachSpec entry.resources = some spec ∧ P spec) := by
    rintro P ⟨hstate, spec, hspec, -⟩
    rcases hskip with hne | hnone
    · exact hne hstate
    · rw [hnone] at hspec
      cases hspec
  rw [visit_iff hentry]
  constructor
  · rintro (⟨row, hrow, hkey, hprotocol⟩ | ⟨h, -⟩ | hin)
    · exact .foreign row hrow hkey hprotocol
    · exact h
    · exact absurd hin (hidle _)
  · exact fun h => .inr (.inl ⟨h, hidle _⟩)

end EndsUp

/-! ### An undisturbed visit -/

/-- `k` is `base` after these withdrawals, and these installs after them. -/
structure Stepped (base k : Kernel) (withdrawn installed : List AppliedRoute) : Prop where
  foreign : ∀ key, k.HasForeign key ↔ base.HasForeign key
  has : ∀ key, k.routes.has key = true ↔ base.HasForeign key ∨
    (base.routes.has key = true ∧ ∀ r ∈ withdrawn, r.key ≠ key) ∨ ∃ d ∈ installed, d.key = key

namespace Stepped

variable {base k : Kernel} {withdrawn installed : List AppliedRoute} {r : AppliedRoute}

theorem refl (k : Kernel) : Stepped k k [] [] := by
  refine ⟨fun _ => Iff.rfl, fun key => ?_⟩
  simp only [List.not_mem_nil, false_implies, implies_true, and_true, false_and, exists_false,
    or_false]
  refine ⟨.inr, fun h => h.elim (fun ⟨row, hrow, hkey, _⟩ => ?_) id⟩
  exact has_iff.mpr ⟨row, hrow, hkey⟩

theorem removeRoute (h : Stepped base k withdrawn []) :
    Stepped base (k.removeRoute r).2 (withdrawn ++ [r]) [] := by
  have hforeign : ∀ key, (k.removeRoute r).2.HasForeign key ↔ k.HasForeign key := by
    intro key
    constructor
    · rintro ⟨row, hrow, hkey, hprotocol⟩
      exact ⟨row, (mem_removeRoute.mp hrow).1, hkey, hprotocol⟩
    · rintro ⟨row, hrow, hkey, hprotocol⟩
      exact ⟨row, mem_removeRoute.mpr ⟨hrow, fun hsel => hprotocol hsel.2⟩, hkey, hprotocol⟩
  refine ⟨fun key => (hforeign key).trans (h.foreign key), fun key => ?_⟩
  -- A key that the removal is not about is left as it was.
  have hhas : (k.removeRoute r).2.routes.has key = true ↔ k.HasForeign key ∨
      (k.routes.has key = true ∧ r.key ≠ key) := by
    simp only [has_iff, mem_removeRoute]
    constructor
    · rintro ⟨row, ⟨hrow, hsel⟩, rfl⟩
      by_cases hkey : r.key = row.key
      · exact .inl ⟨row, hrow, rfl, fun hprotocol => hsel ⟨hkey.symm, hprotocol⟩⟩
      · exact .inr ⟨⟨row, hrow, rfl⟩, hkey⟩
    · rintro (⟨row, hrow, hkey, hprotocol⟩ | ⟨⟨row, hrow, rfl⟩, hne⟩)
      · exact ⟨row, ⟨hrow, fun hsel => hprotocol hsel.2⟩, hkey⟩
      · exact ⟨row, ⟨hrow, fun hsel => hne hsel.1.symm⟩, rfl⟩
  rw [hhas, h.foreign, h.has]
  simp only [List.not_mem_nil, false_and, exists_false, or_false, List.mem_append,
    List.mem_singleton, or_imp, forall_and, forall_eq]
  tauto

theorem addRoute (h : Stepped base k withdrawn installed) (o : Origin) :
    Stepped base (k.addRoute o r).2 withdrawn (installed ++ [r]) := by
  refine ⟨fun key => ?_, fun key => ?_⟩
  · rw [← h.foreign key]
    constructor
    · rintro ⟨row, hrow, hkey, hprotocol⟩
      rcases mem_addRoute.mp hrow with hrow | ⟨-, rfl⟩
      · exact ⟨row, hrow, hkey, hprotocol⟩
      · exact absurd rfl hprotocol
    · rintro ⟨row, hrow, hkey, hprotocol⟩
      exact ⟨row, mem_addRoute.mpr (.inl hrow), hkey, hprotocol⟩
  · have hhas : (k.addRoute o r).2.routes.has key = true ↔
        k.routes.has key = true ∨ r.key = key := by
      rw [Kernel.addRoute, has_addRouteRow, AppliedRoute.key_install]
    rw [hhas, h.has]
    simp only [List.mem_append, List.mem_singleton, or_and_right, exists_or, exists_eq_left]
    rw [or_assoc, or_assoc]

end Stepped

variable {core : DaemonCore}

/-- Undisturbed, a visit retains nothing: it withdraws all that is outdated and adds all that
is missing. -/
theorem wp_reconcileAttach_quiet {index : Nat} {entry : JournalEntry}
    {spec : AttachSpecParams} {observed : List AppliedRoute}
    (hentry : core.journal[index]? = some entry) :
    Succeeds (reconcileAttach index spec observed) (fun _ c => ∃ k disk, Stepped core.kernel k
          (outdatedRoutes entry (attachDesired core.view spec))
          (missingRoutes (attachDesired core.view spec) observed) ∧
        c = { core with
          journal := core.journal.converged index spec (attachDesired core.view spec) []
          kernel := k
          disk }) core := by
  have hquiet : ¬∃ f : Fault, Verdict.Quiet (.fail f) := by
    rintro ⟨f, hf⟩
    cases hf
  refine wp_mono (wp_reconcileAttach (J := fun left rest k => left = [] ∧ ∃ done,
      done ++ rest = outdatedRoutes entry (attachDesired core.view spec) ∧
        Stepped core.kernel k done [])
    (K := fun retained rest k => retained = [] ∧ ∃ done,
      done ++ rest = missingRoutes (attachDesired core.view spec) observed ∧
        Stepped core.kernel k (outdatedRoutes entry (attachDesired core.view spec)) done)
    hentry ⟨rfl, [], rfl, .refl _⟩ ?_ ?_ ?_ ?_ ?_) ?_ (fun _ _ he => he)
    (fun _ hc => by cases hc.1)
  · rintro left r rest k ⟨rfl, done, heq, hk⟩
    exact ⟨rfl, done ++ [r], by simpa using heq, hk.removeRoute⟩
  · exact fun _ _ _ _ hf => absurd hf hquiet
  · rintro retained k ⟨rfl, done, heq, hk⟩
    rw [List.append_nil] at heq
    exact ⟨rfl, [], rfl, heq ▸ hk⟩
  · rintro retained r rest k ⟨rfl, done, heq, hk⟩
    exact ⟨rfl, done ++ [r], by simpa using heq, hk.addRoute _⟩
  · exact fun _ _ _ _ hf => absurd hf hquiet
  · rintro _ _ ⟨retained, k, disk, ⟨rfl, done, heq, hk⟩, -, rfl⟩
    rw [List.append_nil] at heq
    exact ⟨k, disk, heq ▸ hk, rfl⟩

/-! ### An undisturbed pass -/

/-- Every attach entry lists exactly what its spec derives now, and all of it is in the
kernel. -/
def DaemonCore.Converges (core : DaemonCore) : Prop :=
  ∀ e ∈ core.journal, ∀ spec, findAttachSpec e.resources = some spec →
    ownedRoutes e.resources = attachDesired core.view spec ∧
      ∀ d ∈ attachDesired core.view spec, core.kernel.routes.has d.key = true

/-- The condition. An attach entry is one that a pass visits, or it lists its derivation
already. And each route that it derives is in the kernel after the visits of the pass. -/
def Retryable (core : DaemonCore) (observed : List AppliedRoute) : Prop :=
  ∀ e ∈ core.journal, ∀ spec, findAttachSpec e.resources = some spec →
    (e.state = .applied ∨ ownedRoutes e.resources = attachDesired core.view spec) ∧
      ∀ d ∈ attachDesired core.view spec, EndsUp core observed 0 d.key

/-- The entry after an undisturbed pass. -/
def JournalEntry.visited (e : JournalEntry) (view : View) : JournalEntry :=
  match e.state, findAttachSpec e.resources with
  | .applied, some spec =>
    e.setResources (.attachSpec spec :: (attachDesired view spec).map OwnedResource.route)
  | _, _ => e

section
variable {e : JournalEntry} {view : View} {spec : AttachSpecParams}

theorem JournalEntry.visited_of_applied (hstate : e.state = .applied)
    (hspec : findAttachSpec e.resources = some spec) : e.visited view =
      e.setResources (.attachSpec spec :: (attachDesired view spec).map OwnedResource.route) := by
  simp only [JournalEntry.visited, hstate, hspec]

theorem JournalEntry.visited_of_skipped
    (h : e.state ≠ .applied ∨ findAttachSpec e.resources = none) : e.visited view = e := by
  unfold JournalEntry.visited
  split
  · rename_i hstate hspec
    rcases h with hne | hnone
    · exact absurd hstate hne
    · rw [hnone] at hspec
      cases hspec
  · rfl

theorem ownedRoutes_attachResources (attach : Option AttachSpecParams)
    (routes : List AppliedRoute) : ownedRoutes (attachResources attach routes) = routes := by
  have hspec : ownedRoutes (attach.toList.map OwnedResource.attachSpec) = [] := by
    cases attach <;> rfl
  rw [attachResources, ownedRoutes, List.filterMap_append]
  rw [ownedRoutes] at hspec
  simp [hspec, List.filterMap_map]

/-- A visit keeps the spec, and leaves the derivation where it was due. -/
theorem JournalEntry.visited_spec (e : JournalEntry) (view : View) :
    findAttachSpec (e.visited view).resources = findAttachSpec e.resources ∧
      ∀ spec, findAttachSpec e.resources = some spec →
        (ownedRoutes (e.visited view).resources = attachDesired view spec ↔
          e.state = .applied ∨ ownedRoutes e.resources = attachDesired view spec) := by
  by_cases hskip : e.state ≠ .applied ∨ findAttachSpec e.resources = none
  · rw [visited_of_skipped hskip]
    refine ⟨rfl, fun spec hspec => ⟨.inr, fun h => h.resolve_left fun hstate => ?_⟩⟩
    rcases hskip with hne | hnone
    · exact hne hstate
    · rw [hnone] at hspec
      cases hspec
  · push Not at hskip
    obtain ⟨hstate, hsome⟩ := hskip
    obtain ⟨spec, hspec⟩ := Option.ne_none_iff_exists'.mp hsome
    rw [visited_of_applied hstate hspec]
    refine ⟨hspec.symm, fun spec' hspec' => ?_⟩
    rw [hspec] at hspec'
    cases hspec'
    exact ⟨fun _ => .inl hstate, fun _ => ownedRoutes_attachResources (some spec) _⟩

end

/-- An undisturbed pass that has still to visit the entries below `n`. -/
structure QuietPass (before : DaemonCore) (observed : List AppliedRoute) (n : Nat)
    (c : DaemonCore) : Prop where
  view : c.view = before.view
  bound : n ≤ before.journal.length
  ahead : ∀ i < n, c.journal[i]? = before.journal[i]?
  behind : ∀ i, n ≤ i →
    c.journal[i]? = before.journal[i]?.map fun e => e.visited before.view
  foreign : ∀ key, c.kernel.HasForeign key ↔ before.kernel.HasForeign key
  has : ∀ key, c.kernel.routes.has key = true ↔ EndsUp before observed n key

namespace QuietPass

variable {before c : DaemonCore} {observed : List AppliedRoute} {n : Nat} {entry : JournalEntry}
  {spec : AttachSpecParams}

theorem start (before : DaemonCore) (observed : List AppliedRoute) :
    QuietPass before observed before.journal.length before where
  view := rfl
  bound := le_refl _
  ahead _ _ := rfl
  behind i hi := by rw [List.getElem?_eq_none hi]; rfl
  foreign _ := Iff.rfl
  has _ := EndsUp.length_iff.symm

section
variable (h : QuietPass before observed (n + 1) c) (hentry : c.journal[n]? = some entry)
include h hentry

theorem entry_eq : before.journal[n]? = some entry := (h.ahead n (by omega)).symm.trans hentry

theorem skip (hskip : entry.state ≠ .applied ∨ findAttachSpec entry.resources = none) :
    QuietPass before observed n c := by
  refine ⟨h.view, le_of_succ_le h.bound, fun i hi => h.ahead i (by omega), fun i hi => ?_,
    h.foreign, fun key => (h.has key).trans (EndsUp.skip_iff (h.entry_eq hentry) hskip).symm⟩
  rcases eq_or_lt_of_le hi with rfl | hlt
  · rw [hentry, h.entry_eq hentry, Option.map_some, JournalEntry.visited_of_skipped hskip]
  · exact h.behind i hlt

theorem converge (hstate : entry.state = .applied)
    (hspec : findAttachSpec entry.resources = some spec) {k : Kernel} {disk : Journal}
    (hk : Stepped c.kernel k (outdatedRoutes entry (attachDesired c.view spec))
      (missingRoutes (attachDesired c.view spec) observed)) : QuietPass before observed n
      { c with
        journal := c.journal.converged n spec (attachDesired c.view spec) []
        kernel := k
        disk } := by
  have hbefore := h.entry_eq hentry
  rw [h.view] at hk ⊢
  refine ⟨rfl, le_of_succ_le h.bound, fun i hi => ?_, fun i hi => ?_,
    fun key => (hk.foreign key).trans (h.foreign key), fun key => ?_⟩
  · rw [Journal.converged, getElem?_modify_of_ne (by omega)]
    exact h.ahead i (by omega)
  · rw [Journal.converged]
    rcases eq_or_lt_of_le hi with rfl | hlt
    · rw [List.getElem?_modify_eq, hentry, hbefore, Option.map_eq_map, Option.map_some,
        Option.map_some, JournalEntry.visited_of_applied hstate hspec, List.map_nil, List.append_nil]
    · rw [getElem?_modify_of_ne (by omega)]
      exact h.behind i hlt
  · have hwithdraws : (∀ r ∈ outdatedRoutes entry (attachDesired before.view spec), r.key ≠ key) ↔
        ¬entry.Withdraws before.view key := by
      simp [JournalEntry.Withdraws, hstate, hspec]
    have hinstalls : (∃ d ∈ missingRoutes (attachDesired before.view spec) observed,
        d.key = key) ↔ entry.Installs before.view observed key := by
      simp [JournalEntry.Installs, hstate, hspec]
    rw [hk.has, EndsUp.visit_iff hbefore, h.foreign, h.has, hwithdraws, hinstalls]

end

/-- At the end of the pass the two conditions are one. -/
theorem converges_iff (h : QuietPass before observed 0 c) :
    c.Converges ↔ Retryable before observed := by
  have hmem : ∀ e, e ∈ c.journal ↔ ∃ e' ∈ before.journal, e'.visited before.view = e := by
    intro e
    simp only [List.mem_iff_getElem?, h.behind _ (zero_le _), Option.map_eq_some_iff]
    exact ⟨fun ⟨i, e', he', heq⟩ => ⟨e', ⟨i, he'⟩, heq⟩, fun ⟨e', ⟨i, he'⟩, heq⟩ => ⟨i, e', he', heq⟩⟩
  unfold DaemonCore.Converges Retryable
  simp only [hmem, forall_exists_index, and_imp, forall_apply_eq_imp_iff₂, h.view, h.has]
  refine forall₂_congr fun e _ => ?_
  obtain ⟨hspec, howned⟩ := e.visited_spec before.view
  rw [hspec]
  exact forall₂_congr fun spec hsome => and_congr_left fun _ => howned spec hsome

end QuietPass

theorem OnRouteJournal.wp_reconcileNetwork_quiet (h : OnRouteJournal core)
    (observed : List AppliedRoute) :
    Succeeds (reconcileNetwork observed) (fun _ c => c.Converges ↔ Retryable core observed)
      core := by
  refine wp_read (wp_ends (wp_reconcileLoop (J := QuietPass core observed) ?_
    (fun _ _ _ h' => h'.skip) ?_ (.start core observed)) (fun _ _ h' => h'.converges_iff)
    (fun _ _ hf => hf))
  · intro n c h'
    have hlt : n < core.journal.length := h'.bound
    refine ⟨core.journal[n], ?_, h _ (List.getElem_mem hlt)⟩
    rw [h'.ahead n (by omega)]
    simp [hlt]
  · intro n c entry spec h' hentry hstate hspec
    refine wp_ends (wp_reconcileAttach_quiet hentry) ?_ (fun _ _ hf => hf)
    rintro _ _ ⟨k, disk, hk, rfl⟩
    exact h'.converge hentry hstate hspec hk

/-- From every state that a run can reach, an undisturbed pass comes to its end, and every
attach entry is then converged exactly when the condition held before it. -/
theorem attach_retried (lib : Crates) (kernel : Kernel) (view : View) (executors : Executors)
    {core : DaemonCore} (h : Reaches (RouteRequest.exec lib) (fun _ _ => True)
      (DaemonCore.fresh kernel view executors) core) (observed : List AppliedRoute) :
    ∃ changed c vs, reconcileNetwork observed core [] = (.ok changed, c, vs) ∧
      (c.Converges ↔ Retryable core observed) := by
  have hshape : OnRouteJournal core :=
    h.invariant (I := OnRouteJournal) (C := fun _ => True)
      (by intro e he; cases he) fun _ request h' _ => h'.wp_exec lib request
  have hend := hshape.wp_reconcileNetwork_quiet observed [] (by simp)
  generalize hrun : reconcileNetwork observed core [] = r at hend
  obtain ⟨o, c, vs⟩ := r
  cases o with
  | ok changed => exact ⟨changed, c, vs, rfl, hend.2⟩
  | err e => exact hend.2.elim
  | crash => exact hend.elim

/-- One owner attaches the spec and the kernel refuses its only route. -/
def failedBranch : DaemonCore :=
  (RouteRequest.exec branchCrates (.applyAttach 1000 "office" branchSpec [branchRoute]) branchStart
    [.proceed, .fail .other]).2.1

/-- The apply leaves its spec in a stale entry. An undisturbed pass leaves it there, without
the route that it derives. -/
theorem failed_branch_not_retried :
    Reaches (RouteRequest.exec branchCrates) (fun _ _ => True) branchStart failedBranch ∧
      attachDesired failedBranch.view branchSpec = [branchRoute] ∧
      ∃ c, reconcileNetwork [] failedBranch [] = (.ok [], c, []) ∧ ¬c.Converges := by
  have hpass : (reconcileNetwork [] failedBranch []).2.1.journal =
      [⟨1000, .client "office", .stale, [.attachSpec branchSpec]⟩] := by decide
  refine ⟨.call .start trivial (eq_of_outcome (o := .err ⟨.other, .executor⟩) (by decide))
    (by simp), by decide, _, eq_of_outcome (o := .ok []) (by decide), fun h => ?_⟩
  have hlist := (h ⟨1000, .client "office", .stale, [.attachSpec branchSpec]⟩
    (by rw [hpass]; exact List.mem_singleton.mpr rfl) branchSpec rfl).1
  revert hlist
  decide

/-- An entry that was applied without its route is converged by one pass. -/
theorem attached_branch_retried :
    ∃ changed c vs, reconcileNetwork [] attachedBranch [] = (.ok changed, c, vs) ∧
      c.Converges := by
  have hreach : Reaches (RouteRequest.exec branchCrates) (fun _ _ => True) branchStart
      attachedBranch :=
    .call .start trivial (eq_of_outcome (o := .ok ()) (by decide)) (by simp)
  have hjournal : attachedBranch.journal =
      [⟨1000, .client "office", .applied, [.attachSpec branchSpec]⟩] := by decide
  have hretry : Retryable attachedBranch [] := by
    intro e he spec hspec
    rw [hjournal] at he
    obtain rfl := List.mem_singleton.mp he
    refine ⟨.inl rfl, fun d hd => .installed 0 _ (le_refl 0) (by rw [hjournal]; rfl) ?_ ?_⟩
    · exact ⟨rfl, spec, hspec, d, by simpa [missingRoutes, hasRoute] using hd, rfl⟩
    · exact fun i' _ _ hlt => absurd hlt (Nat.not_lt_zero i')
  obtain ⟨changed, c, vs, hrun, hiff⟩ := attach_retried branchCrates _ _ _ hreach []
  exact ⟨changed, c, vs, hrun, hiff.mpr hretry⟩

end NetOrchestrator.Daemon
