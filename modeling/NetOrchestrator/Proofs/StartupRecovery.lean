import NetOrchestrator.Proofs.OwnerExclusive

/-!
# `Proofs.StartupRecovery`: what a new daemon finds

A daemon may stop at any instant, and the next one knows of it what is on disk. `Covers` is what
makes that enough: every route of the daemon in the kernel is listed by an entry. The requests of
route owners keep it, in memory and on disk, because an entry is saved before its first route is
added and after its last one is gone. A reconcile pass is not among them: it saves an entry after
its routes have been added.
-/

namespace NetOrchestrator.Daemon

open Net Lib Lib.Call List

/-- What a new daemon starts from: the journal on disk, and nothing else remembered. -/
def DaemonCore.loaded (core : DaemonCore) : DaemonCore :=
  { core with
    journal := core.disk
    openvpn := { core.openvpn with children := [] }
    xray := { core.xray with children := [] }
    openvpnRuntime := []
    openvpnFailed := []
    tunnelFailed := []
    xrayRestarts := [] }

/-- Load the journal, and take down everything it lists. -/
def openWithAll : Prog Unit := do
  Call.modify DaemonCore.loaded
  if (← Call.gets fun core => core.journal.isEmpty) then pure ()
  else Call.discard (teardownWhere fun _ => true)

/-! ### The property -/

/-- A route that the daemon put into the kernel. -/
def KernelRoute.Ours (row : KernelRoute) : Prop := row.route.protocol = rtprotNetworkOrchestrator

def JournalEntry.HoldsRoutes (e : JournalEntry) : Prop :=
  e.owner.holdsRoutes = true ∧
    ∀ x ∈ e.resources, (∃ spec, x = .attachSpec spec) ∨ ∃ r, x = .route r

structure Covers (j : Journal) (k : Kernel) : Prop where
  shape : ∀ e ∈ j, e.HoldsRoutes
  listed : ∀ row ∈ k.routes, row.Ours → ∃ e ∈ j, e.Lists row.key

structure Recoverable (core : DaemonCore) : Prop where
  memory : Covers core.journal core.kernel
  disk : Covers core.disk core.kernel

/-- A cut-off after which the disk still covers the kernel. -/
def CutOff (V : Verdict Fault → Prop) (core : DaemonCore) : Prop :=
  V .crash ∧ Covers core.disk core.kernel

/-- The routes of everybody else are what they were. -/
def Spares (k k' : Kernel) : Prop := ∀ row, ¬row.Ours → (row ∈ k'.routes ↔ row ∈ k.routes)

section
variable {V : Verdict Fault → Prop} {core : DaemonCore} {index uid : Nat} {owner : Owner}
  {entry : JournalEntry} {j j' : Journal} {k k' : Kernel} {attach : Option AttachSpecParams}
  {routes added : List AppliedRoute} {state : OwnedState} {left rest : List OwnedResource}

/-! ### Applying -/

theorem Covers.push (h : Covers j k) (howner : owner.holdsRoutes = true)
    (hk : k.Extends k' (.daemon uid owner) added) (hsub : added ⊆ routes) :
    Covers (j ++ [routeEntry uid owner state attach routes]) k' := by
  refine ⟨fun e he => ?_, fun row hrow hours => ?_⟩
  · rcases mem_append.mp he with he | he
    · exact h.shape e he
    · rw [mem_singleton.mp he]
      refine ⟨howner, fun x hx => ?_⟩
      simp only [routeEntry, attachResources, mem_append, mem_map] at hx
      obtain ⟨spec, -, rfl⟩ | ⟨r, -, rfl⟩ := hx
      · exact .inl ⟨spec, rfl⟩
      · exact .inr ⟨r, rfl⟩
  · rcases (hk.mem row).mp hrow with hold | ⟨r, hr, rfl⟩
    · obtain ⟨e, he, hl⟩ := h.listed row hold hours
      exact ⟨e, mem_append_left _ he, hl⟩
    · exact ⟨_, mem_append_right _ (mem_singleton.mpr rfl),
        lists_attachResources.mpr ⟨r, hsub hr, (r.key_install _).symm⟩⟩

theorem Covers.shrink (h : Covers j k) (hsub : ∀ row ∈ k'.routes, row.Ours → row ∈ k.routes) :
    Covers j k' :=
  ⟨h.shape, fun row hrow hours => h.listed row (hsub row hrow hours) hours⟩

theorem Covers.failedApply (h : Covers j k) (howner : owner.holdsRoutes = true)
    (hk : k.Extends k' (.daemon uid owner) added) :
    Covers (failedApply j uid owner attach added) k' := by
  unfold Daemon.failedApply
  split
  · rename_i hempty
    simp only [Bool.and_eq_true, List.isEmpty_iff] at hempty
    exact h.shrink fun row hrow _ => by simpa [hempty.1] using (hk.mem row).mp hrow
  · exact h.push howner hk (Subset.refl _)

theorem Recoverable.wp_applyRoutesInner (h : Recoverable core) (howner : owner.holdsRoutes = true) :
    wp V (applyRoutesInner uid owner routes attach) (fun _ => Recoverable) (fun _ => Recoverable)
      (CutOff V) core := by
  refine wp_mono (Daemon.wp_applyRoutesInner core uid owner routes attach) ?_ ?_ ?_
  · rintro _ _ ⟨-, -, k, disk, hk, rfl | rfl, rfl⟩
    all_goals
      have hsub : routes.reverse ⊆ routes := fun r hr => mem_reverse.mp hr
      exact ⟨h.memory.push howner hk hsub, h.memory.push howner hk hsub⟩
  · intro _ c hc
    cases hc with
    | refused => exact h
    | unsynced _ _ => exact ⟨h.memory, h.memory.push howner (.refl _ _) (nil_subset _)⟩
    | rolledBack k left disk _ _ hk hsub hdisk =>
      refine ⟨h.memory.failedApply howner hk, ?_⟩
      obtain rfl | rfl := hdisk
      · exact h.memory.push howner hk hsub
      · exact h.memory.failedApply howner hk
  · rintro c ⟨hv, ⟨hkernel, hdisk⟩ | ⟨added, hk, hsub, hdisk⟩⟩
    · exact ⟨hv, by rw [hkernel, hdisk]; exact h.disk⟩
    · exact ⟨hv, by rw [hdisk]; exact h.memory.push howner hk hsub⟩

/-! ### Taking down -/

/-- The entry on its way down: its routes in the kernel are left behind or still to come. -/
structure Shedding (V : Verdict Fault → Prop) (k : Kernel) (e : JournalEntry)
    (left rest : List OwnedResource) (k' : Kernel) : Prop where
  sub : ∀ row ∈ k'.routes, row ∈ k.routes
  spares : Spares k k'
  owed : ∀ row ∈ k'.routes, row.Ours → e.Lists row.key → ∃ r, .route r ∈ left ++ rest ∧
    r.key = row.key
  listed : left ++ rest ⊆ e.resources
  disturbed : left ≠ [] → ∃ f, V (.fail f)

/-- The ends of a teardown. -/
theorem JournalEntry.HoldsRoutes.wp_teardownEntry (h : entry.HoldsRoutes)
    (hentry : core.journal[index]? = some entry) : wp V (teardownEntry index)
      (fun _ c => ∃ k, Shedding V core.kernel entry [] [] k ∧
        c = { core with journal := core.journal.eraseIdx index, kernel := k })
      (fun _ c => ∃ failed k, failed ≠ [] ∧ Shedding V core.kernel entry failed [] k ∧
        c = { core with journal := core.journal.leftBehind index failed, kernel := k })
      (fun c => V .crash ∧ ∃ left rest k, Shedding V core.kernel entry left rest k ∧
        c = { core with kernel := k }) core := by
  refine wp_atEntry hentry ?_
  have hgeneric := wp_teardownGenericEntry (V := V) (J := Shedding V core.kernel entry) hentry
    ⟨fun _ hrow => hrow, fun _ _ => Iff.rfl,
      fun _ _ _ ⟨r, hr, hkey⟩ => ⟨r, by simpa using hr, hkey⟩,
      fun x hx => by simpa using hx, fun hne => absurd rfl hne⟩ ?_ ?_
  · have howner := h.1
    split
    all_goals first
      | exact hgeneric
      | (rename_i heq
         rw [heq] at howner
         cases howner)
  · intro left x rest k hs
    have hlisted : left ++ rest ⊆ entry.resources :=
      fun y hy => hs.listed (by simp only [mem_append, mem_cons] at hy ⊢; tauto)
    obtain ⟨spec, rfl⟩ | ⟨r, rfl⟩ := h.2 x (hs.listed (by simp))
    · exact ⟨hs.sub, hs.spares, fun row hrow => by simpa using hs.owed row hrow, hlisted,
        hs.disturbed⟩
    · refine ⟨fun row hrow => hs.sub row (mem_removeRoute.mp hrow).1, fun row hforeign => ?_,
        fun row hrow hours hl => ?_, hlisted, hs.disturbed⟩
      · rw [← hs.spares row hforeign]
        exact mem_removeRoute.trans (and_iff_left fun hsel => hforeign hsel.2)
      · obtain ⟨hrow, hkept⟩ := mem_removeRoute.mp hrow
        obtain ⟨r', hr', hkey⟩ := hs.owed row hrow hours hl
        have hne : r' ≠ r := fun heq => hkept ⟨heq ▸ hkey.symm, hours⟩
        exact ⟨r', by simpa [hne] using hr', hkey⟩
  · intro left x rest k hd hs
    have hfail : ∃ f, V (.fail f) := hd.resolve_right fun ⟨hneeds, _⟩ => by
      obtain ⟨spec, rfl⟩ | ⟨r, rfl⟩ := h.2 x (hs.listed (by simp)) <;> cases hneeds
    exact ⟨hs.sub, hs.spares, by simpa using hs.owed, by simpa using hs.listed, fun _ => hfail⟩

/-- A journal in which the entry lists what is left of it covers the kernel. -/
theorem Covers.settle (h : Covers j k) (hentry : j[index]? = some entry)
    (hs : Shedding V k entry left [] k') (hothers : ∀ i ≠ index, ∀ e, j[i]? = some e → e ∈ j')
    (hshape : ∀ e ∈ j', e.HoldsRoutes)
    (hleft : ∀ r, .route r ∈ left → ∃ e ∈ j', e.Lists r.key) : Covers j' k' := by
  refine ⟨hshape, fun row hrow hours => ?_⟩
  obtain ⟨e, he, hl⟩ := h.listed row (hs.sub row hrow) hours
  obtain ⟨i, hi⟩ := mem_iff_getElem?.mp he
  by_cases hidx : i = index
  · rw [hidx, hentry] at hi
    obtain ⟨r, hr, hkey⟩ := hs.owed row hrow hours (Option.some.inj hi ▸ hl)
    rw [← hkey]
    exact hleft r (by simpa using hr)
  · exact ⟨e, hothers i hidx e hi, hl⟩

theorem Recoverable.wp_teardownEntry (h : Recoverable core)
    (hentry : core.journal[index]? = some entry) : wp V (teardownEntry index)
      (fun _ c => Recoverable c ∧ Spares core.kernel c.kernel ∧
        c.journal = core.journal.eraseIdx index)
      (fun _ c => Recoverable c ∧ Spares core.kernel c.kernel ∧ ∃ f, V (.fail f))
      (CutOff V) core := by
  have hshape := h.memory.shape entry (mem_of_getElem? hentry)
  have hdisk : ∀ {left rest k}, Shedding V core.kernel entry left rest k → Covers core.disk k :=
    fun hs => h.disk.shrink fun row hrow _ => hs.sub row hrow
  refine wp_mono (hshape.wp_teardownEntry hentry) ?_ ?_ ?_
  · rintro _ _ ⟨k, hs, rfl⟩
    refine ⟨⟨h.memory.settle hentry hs ?_ ?_ (by simp), hdisk hs⟩, hs.spares, rfl⟩
    · exact fun i hne e he => mem_eraseIdx_iff_getElem?.mpr ⟨i, hne, he⟩
    · exact fun e he => h.memory.shape e (mem_of_mem_eraseIdx he)
  · rintro _ _ ⟨failed, k, hne, hs, rfl⟩
    have hat : (core.journal.leftBehind index failed)[index]? =
        some ((entry.setState .stale).setResources failed.reverse) := by
      simp [Journal.leftBehind, hentry]
    have hother : ∀ i ≠ index, (core.journal.leftBehind index failed)[i]? = core.journal[i]? :=
      fun i hi => getElem?_modify_of_ne hi
    refine ⟨⟨h.memory.settle hentry hs ?_ ?_ ?_, hdisk hs⟩, hs.spares, hs.disturbed hne⟩
    · exact fun i hi e he => mem_of_getElem? ((hother i hi).trans he)
    · intro e he
      obtain ⟨i, hi⟩ := mem_iff_getElem?.mp he
      by_cases hidx : i = index
      · rw [hidx, hat] at hi
        rw [← Option.some.inj hi]
        exact ⟨hshape.1, fun x hx => hshape.2 x (hs.listed (by simpa using mem_reverse.mp hx))⟩
      · exact h.memory.shape e (mem_of_getElem? ((hother i hidx).symm.trans hi))
    · exact fun r hr => ⟨_, mem_of_getElem? hat, r, mem_reverse.mpr hr, rfl⟩
  · rintro _ ⟨hv, left, rest, k, hs, rfl⟩
    exact ⟨hv, hdisk hs⟩

/-! ### Opening -/

theorem wp_teardownLoop_recoverable {result : CleanupResult} {count : Nat} (h : Recoverable core)
    (hspares : Spares k core.kernel) (hcount : core.journal.length = count ∨ ∃ f, V (.fail f)) :
    wp V (teardownLoop (fun _ => true) count result)
      (fun _ c => Recoverable c ∧ ((∃ f, V (.fail f)) ∨ (c.journal = [] ∧ Spares k c.kernel)))
      (fun _ c => Recoverable c ∧ ∃ f, V (.fail f)) (CutOff V) core := by
  induction count generalizing core result with
  | zero => exact wp_pure ⟨h, hcount.symm.imp_right fun hl => ⟨length_eq_zero_iff.mp hl, hspares⟩⟩
  | succ index ih =>
    refine wp_bind (wp_entryAt (fun entry hentry => ?_) fun hnone => ⟨h, ?_⟩)
    · rw [if_pos rfl]
      refine wp_either (h.wp_teardownEntry hentry) ?_ ?_
      · rintro _ c ⟨hc, hs, hj⟩
        refine ih hc (fun row hf => (hs row hf).trans (hspares row hf))
          (hcount.imp_left fun hl => ?_)
        rw [hj, length_eraseIdx_of_lt (by omega)]
        omega
      · rintro _ c ⟨hc, hs, hf⟩
        exact ih hc (fun row hf => (hs row hf).trans (hspares row hf)) (.inr hf)
    · refine hcount.resolve_left fun hl => ?_
      rw [getElem?_eq_none_iff] at hnone
      omega

/-- Opening keeps the property, and takes everything down unless something fails. -/
theorem wp_openWithAll (h : Covers core.disk core.kernel) : wp V openWithAll
      (fun _ c => Recoverable c ∧ ((∃ f, V (.fail f)) ∨
        (c.journal = [] ∧ c.disk = [] ∧ Spares core.kernel c.kernel)))
      (fun _ c => Recoverable c ∧ ∃ f, V (.fail f)) (CutOff V) core := by
  have hloaded : Recoverable core.loaded := ⟨h, h⟩
  refine wp_write (wp_read ?_)
  split
  · rename_i hempty
    have hnone : core.disk = [] := List.isEmpty_iff.mp hempty
    exact wp_pure ⟨hloaded, .inr ⟨hnone, hnone, fun _ _ => Iff.rfl⟩⟩
  · refine wp_discard (wp_read (wp_then (wp_teardownLoop_recoverable hloaded
      (fun _ _ => Iff.rfl) (.inl rfl)) ?_))
    rintro result c ⟨hc, hdone⟩
    refine wp_bind (wp_save (fun hv => ⟨hv, hc.disk⟩) (fun f hf => ⟨hc, f, hf⟩)
      (fun f hf => ⟨⟨hc.memory, hc.memory⟩, f, hf⟩) (wp_pure ?_))
    exact ⟨⟨hc.memory, hc.memory⟩, hdone.imp_right fun ⟨hj, hs⟩ => ⟨hj, hj, hs⟩⟩

/-! ### Runs -/

/-- One request of a route owner, or a new daemon. Where it is cut off, a new daemon loads the
journal. -/
def serve (lib : Crates) (request : Option RouteRequest) : Prog Unit :=
  Call.restarting DaemonCore.loaded (request.elim openWithAll (RouteRequest.exec lib))

/-- A new daemon that nothing disturbs takes down what the daemon before it has put in place, and
nothing of anybody else. -/
def DaemonCore.Recovers (core : DaemonCore) : Prop :=
  Succeeds openWithAll (fun _ c => c.journal = [] ∧ c.disk = [] ∧
    ∀ row, row ∈ c.kernel.routes ↔ row ∈ core.kernel.routes ∧ ¬row.Ours) core

/-- No pass, and no routes in the daemon's name from anybody else. -/
def Served (core : DaemonCore) : Option RouteRequest → Prop
  | some (.reconcileNetwork _) => False
  | some (.machine kernel _) => ∀ row ∈ kernel.routes, row.Ours → row ∈ core.kernel.routes
  | _ => True

theorem Recoverable.bookkept : Bookkept V Recoverable (CutOff V) :=
  ⟨fun _ h => ⟨h.memory, h.memory⟩, fun _ _ h => ⟨h.memory, h.disk⟩, fun _ h hv => ⟨hv, h.disk⟩⟩

theorem Recoverable.wp_retire (h : Recoverable core)
    (hpos : core.journal.position uid owner = some index) :
    wp V (teardownEntry index) (fun _ => Recoverable) (fun _ => Recoverable) (CutOff V) core := by
  obtain ⟨entry, hentry, -⟩ := Journal.position_eq_some hpos
  exact wp_ends (h.wp_teardownEntry hentry) (fun _ _ hc => hc.1) fun _ _ hc => hc.1

theorem Recoverable.wp_exec (lib : Crates) (request : RouteRequest) (h : Recoverable core)
    (hserved : Served core (some request)) :
    wp V (request.exec lib) (fun _ => Recoverable) (fun _ => Recoverable) (CutOff V) core := by
  cases request with
  | applyRoutes uid owner routes =>
    exact wp_discard (wp_bind (wp_checkClientOwner (fun howner => h.wp_applyRoutesInner howner)
      fun _ => h))
  | applyAttach uid owner spec routes =>
    refine wp_discard (wp_bind (wp_checkClientOwner (fun howner => ?_) fun _ => h))
    exact wp_bind (wp_demand (fun _ => h.wp_applyRoutesInner howner) fun _ _ => h)
  | netIntentSet uid params =>
    exact wp_discard (bookkept.wp_netIntentSet bookkept h (fun _ h' => h') (fun _ => h.wp_retire)
      (fun _ _ h' _ => h'.wp_applyRoutesInner rfl) fun _ _ h' => h'.wp_retire)
  | netIntentDel uid id => exact bookkept.wp_netIntentDel h fun _ _ h' => h'.wp_retire
  | removeOwner uid owner => exact wp_discard (bookkept.wp_removeOwner h fun _ => h.wp_retire)
  | reconcileNetwork observed => exact hserved.elim
  | machine kernel view => exact wp_modify ⟨h.memory.shrink hserved, h.disk.shrink hserved⟩

/-- However the requests of route owners fail and wherever the daemon is cut off, both journals list
every route of the daemon that is in the kernel, so the next daemon finds it. -/
theorem openWithAll_recovers (lib : Crates) (kernel : Kernel) (view : View) (executors : Executors)
    (hforeign : ∀ row ∈ kernel.routes, ¬row.Ours)
    (h : Reaches (serve lib) Served (.fresh kernel view executors) core) :
    Recoverable core ∧ core.Recovers := by
  have hnone : Covers [] kernel :=
    ⟨fun _ he => absurd he not_mem_nil, fun row hrow hours => absurd hours (hforeign row hrow)⟩
  have hrecoverable : Recoverable core := by
    refine h.invariant (C := fun _ => True) ⟨hnone, hnone⟩ fun c request hc hserved => ?_
    refine wp_restarting ?_
    have hcut : ∀ c, CutOff Verdict.Any c → Recoverable c.loaded := fun c h' => ⟨h'.2, h'.2⟩
    cases request with
    | none => exact wp_mono (wp_openWithAll hc.disk) (fun _ _ h' => h'.1) (fun _ _ h' => h'.1) hcut
    | some request =>
      exact wp_mono (hc.wp_exec lib request hserved) (fun _ _ h' => h') (fun _ _ h' => h') hcut
  refine ⟨hrecoverable, wp_mono (wp_openWithAll hrecoverable.disk) ?_ ?_ ?_⟩
  · rintro _ c ⟨hc, ⟨f, hf⟩ | ⟨hj, hd, hs⟩⟩
    · cases hf
    refine ⟨hj, hd, fun row => ?_⟩
    by_cases hours : row.Ours
    · refine ⟨fun hrow => ?_, fun hrow => absurd hours hrow.2⟩
      obtain ⟨e, he, -⟩ := hc.memory.listed row hrow hours
      rw [hj] at he
      cases he
    · rw [hs row hours, and_iff_left hours]
  · rintro _ _ ⟨-, f, hf⟩
    cases hf
  · rintro _ ⟨hv, -⟩
    cases hv

/-- A daemon that is cut off between adding its first route and saving that it has. -/
def cutBranch : DaemonCore :=
  (serve branchCrates (some (.applyRoutes 1000 "office" [branchRoute])) branchStart
    [.proceed, .proceed, .crash]).2.1

theorem cutBranch_recovers :
    branchRoute.system.install (.daemon 1000 (.client "office")) ∈ cutBranch.kernel.routes ∧
      Recoverable cutBranch ∧ cutBranch.Recovers :=
  ⟨by decide, openWithAll_recovers branchCrates Kernel.empty branchView Executors.all
    (fun _ hrow => absurd hrow not_mem_nil) (.call (i := some (.applyRoutes ..)) .start trivial
      (eq_of_outcome (o := .ok ()) (by decide)) (by simp))⟩

end

end NetOrchestrator.Daemon
