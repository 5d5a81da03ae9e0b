import NetOrchestrator.Proofs.OwnerExclusive

/-!
# `Proofs.BypassMigration`: moving a bypass route to another uplink

`migrateOwnedBypass` swaps one route of an entry for the same route through another next
hop. It journals the new route, adds it, deletes the old one and forgets it, and where the
old route is in the way of the new one it deletes first and puts back on failure. Any step
may fail and the daemon may crash before any of them.

`Migration.Safe` is what has to hold at every end of such a call: whatever of the two routes
the daemon has in the kernel is listed on disk, and nothing that belongs to somebody else
was removed or claimed. `migration_crash_safe_iff` gives the exact condition on the state
before the call. Two of its parts are not met by every state. A record that is only in
memory, left by an earlier call whose save failed, is taken for a durable one. And the
check for a foreign route compares the metrics as written, while the kernel files an IPv6
metric of zero as 1024.
-/

namespace NetOrchestrator.Daemon

open Net Lib Lib.Call List Kernel Table

/-! ### The property -/

/-- The row carries the daemon's protocol number. -/
def KernelRoute.Managed (row : KernelRoute) : Prop := row.route.protocol = rtprotNetworkOrchestrator

instance (row : KernelRoute) : Decidable row.Managed :=
  inferInstanceAs (Decidable (row.route.protocol = rtprotNetworkOrchestrator))

/-- A dump as netlink gives it: the family of a route is that of its destination, and a
route with an outgoing link of its own has no list of next hops. -/
def Kernel.Plain (k : Kernel) : Prop :=
  ∀ row ∈ k.routes, row.route.family = row.route.destination.family ∧
    (row.route.interfaceIndex.isSome → row.route.nexthops = [])

/-- An entry of this owner lists a route with the key. -/
def Journal.OwnerLists (j : Journal) (o : Origin) (key : RouteKey) : Prop :=
  ∃ entry ∈ j, entry.origin = o ∧ entry.Lists key

/-- A call of `migrate_owned_bypass`. `restore_owned_network` makes it for a route whose
next hop is not that of the current uplink any more. -/
structure Migration where
  index : Nat
  old : AppliedRoute
  interfaceIndex : Nat
  gateway : Option IpAddr
  moves : (interfaceIndex, gateway) ≠ (old.interfaceIndex, old.gateway)

namespace Migration

def desired (m : Migration) : AppliedRoute :=
  { m.old with interfaceIndex := m.interfaceIndex, gateway := m.gateway }

/-- Each of the two routes that the daemon has in the kernel is listed on disk. -/
def Durable (m : Migration) (o : Origin) (k : Kernel) (disk : Journal) : Prop :=
  ∀ row ∈ k.routes, row.Managed → row.key = m.old.key ∨ row.key = m.desired.key →
    disk.OwnerLists o row.key

/-- Nobody has this route: it is not in the kernel, and no other owner lists it. -/
def Vacant (o : Origin) (core : DaemonCore) (key : RouteKey) : Prop :=
  (∀ row ∈ core.kernel.routes, row.key ≠ key) ∧
    ∀ other ∈ core.journal, other.origin ≠ o → ¬other.Lists key

/-- No route of another program or another owner was removed or claimed. -/
structure TakesNothing (o : Origin) (start now : DaemonCore) : Prop where
  rows : ∀ row ∈ start.kernel.routes, ¬row.Managed ∨ ¬start.journal.OwnerLists o row.key →
    row ∈ now.kernel.routes
  memory : ∀ key, now.journal.OwnerLists o key →
    start.journal.OwnerLists o key ∨ Vacant o start key
  disk : ∀ key, now.disk.OwnerLists o key →
    start.disk.OwnerLists o key ∨ start.journal.OwnerLists o key ∨ Vacant o start key

structure Safe (m : Migration) (o : Origin) (start now : DaemonCore) : Prop where
  durable : m.Durable o now.kernel now.disk
  takesNothing : TakesNothing o start now

/-- The new route is in the kernel and listed, in memory and on disk, and the old one is
neither. -/
structure Migrated (m : Migration) (now : DaemonCore) : Prop where
  placed : ∃ row ∈ now.kernel.routes, row.Managed ∧ row.key = m.desired.key
  withdrawn : ∀ row ∈ now.kernel.routes, row.Managed → row.key ≠ m.old.key
  saved : now.disk = now.journal
  listed : ∃ entry, now.journal[m.index]? = some entry ∧ .route m.desired ∈ entry.resources ∧
    .route m.old ∉ entry.resources

/-- The call is safe however it ends and wherever it is cut off, and has done its work when
it returns. -/
def CrashSafe (m : Migration) (o : Origin) (core : DaemonCore) : Prop :=
  wp Verdict.Any (migrateOwnedBypass m.index m.old m.desired)
    (fun _ now => m.Safe o core now ∧ m.Migrated now) (fun _ => m.Safe o core) (m.Safe o core)
    core

/-! ### The condition -/

/-- Another entry lists a route in the slot. -/
def blocked (m : Migration) (j : Journal) : Bool :=
  (j.eraseIdx m.index).any fun other => (ownedRoutes other.resources).any fun route =>
    sameSlot route m.desired

def ours (m : Migration) (journaled : Bool) (row : SystemRoute) : Bool :=
  row.managed && (sameRoute row m.old || (journaled && sameRoute row m.desired))

/-- The dump has a row in the slot that is not the entry's. -/
def collides (m : Migration) (journaled : Bool) (k : Kernel) : Bool :=
  k.netTables.routes.any fun row => row.collides m.desired && !m.ours journaled row

end Migration

/-- The dump has the route, as a route of the daemon. -/
def Kernel.present (k : Kernel) (route : AppliedRoute) : Bool :=
  k.netTables.routes.any fun row => row.managed && sameRoute row route

namespace Migration

/-- The checks before the first change refuse the call. -/
def Refused (m : Migration) (journaled : Bool) (core : DaemonCore) : Prop :=
  m.blocked core.journal = true ∨ m.collides journaled core.kernel = true

/-- The exclusive add of the new route goes through, at the latest once the old route is
gone. -/
def Opens (m : Migration) (k : Kernel) : Prop :=
  ∀ row ∈ k.routes, row.key.slot = m.desired.key.slot →
    row.key = m.old.key ∧ row.Managed ∧ k.present m.old = true

/-- A new route that memory lists already is on disk too, or cannot be added; one that it
does not list is nobody's yet, or this owner's under another spelling. -/
def Sound (m : Migration) (entry : JournalEntry) (core : DaemonCore) : Prop :=
  if .route m.desired ∈ entry.resources then
    m.Refused true core ∨ core.disk.OwnerLists entry.origin m.desired.key ∨ ¬m.Opens core.kernel
  else
    m.Refused false core ∨ core.journal.OwnerLists entry.origin m.desired.key ∨
      Vacant entry.origin core m.desired.key

end Migration

/-! ### The kernel under the two requests -/

section
variable {k : Kernel} {o : Origin} {r : AppliedRoute} {row : KernelRoute}

theorem managed_install (r : AppliedRoute) (o : Origin) : (r.system.install o).Managed := rfl

theorem managed_dumpRoute (row : KernelRoute) : (k.dumpRoute row).managed = true ↔ row.Managed := by
  have hmanaged : row.route.managed = (row.route.protocol == rtprotNetworkOrchestrator) :=
    congrArg SystemRoute.managed row.normal.symm
  show row.route.managed = true ↔ _
  rw [hmanaged, beq_iff_eq]
  rfl

/-- A dumped row that the daemon takes for the route has its key. -/
theorem key_of_sameRoute (hplain : k.Plain) (hrow : row ∈ k.routes)
    (h : sameRoute (k.dumpRoute row) r = true) : row.key = r.key := by
  obtain ⟨hfamily, hhops⟩ := hplain row hrow
  have htrunc : row.route.destination.trunc = row.route.destination :=
    congrArg SystemRoute.destination row.normal
  simp only [sameRoute, Kernel.dumpRoute, Bool.and_eq_true, beq_iff_eq] at h
  obtain ⟨⟨⟨⟨⟨-, hdest⟩, hindex⟩, hmetric⟩, hgateway⟩, htable⟩ := h
  have hnexthops := hhops (by simp [hindex])
  rw [← r.key_kernelRoute]
  simp [KernelRoute.key, SystemRoute.key, AppliedRoute.key, AppliedRoute.system, hfamily, hdest,
    hindex, hmetric, hgateway, htable, hnexthops]

theorem present_iff : k.present r = true ↔
      ∃ row ∈ k.routes, row.Managed ∧ sameRoute (k.dumpRoute row) r = true := by
  simp only [Kernel.present, Kernel.netTables, any_map, any_eq_true, Function.comp_apply,
    Bool.and_eq_true, managed_dumpRoute, mem_def]

theorem exists_of_present (hplain : k.Plain) (h : k.present r = true) :
    ∃ row ∈ k.routes, row.Managed ∧ row.key = r.key := by
  obtain ⟨row, hrow, hmanaged, hsame⟩ := present_iff.mp h
  exact ⟨row, hrow, hmanaged, key_of_sameRoute hplain hrow hsame⟩

end

section
variable {V : Verdict Fault → Prop} {Q : Unit → DaemonCore → Prop}
  {E : IoError → DaemonCore → Prop} {C : DaemonCore → Prop} {core : DaemonCore} {o : Origin}
  {r : AppliedRoute}

/-- A delete that finds nothing leaves the kernel in the same state as one that does. -/
theorem wp_removeRoute {E : IoError → DaemonCore → Prop} (hcrash : C core)
    (hfail : ∀ f : Fault, E f.report core)
    (hok : Q () { core with kernel := (core.kernel.removeRoute r).2 })
    (habsent : ∀ e, isNotFound e = true →
      E e { core with kernel := (core.kernel.removeRoute r).2 }) :
    wp V (removeRoute r) Q E C core :=
  wp_onKernel (fun _ => hcrash) (fun f _ => hfail f) (fun _ _ => hok)
    (fun e he => habsent e (isNotFound_of_removeRouteRows he))

end

namespace Migration

/-! ### What the kernel steps of a call do -/

section
variable {m : Migration} {o : Origin} {k k' : Kernel} {placed : Prop}

theorem sameSlot_desired (m : Migration) : sameSlot m.old m.desired = true := by
  simp [sameSlot, desired]

theorem desired_ne_old (m : Migration) : m.desired ≠ m.old := by
  intro h
  apply m.moves
  rw [← h]
  rfl

theorem key_desired_ne (m : Migration) : m.desired.key ≠ m.old.key := by
  intro h
  have hindex : m.interfaceIndex = m.old.interfaceIndex :=
    Option.some.inj (congrArg RouteKey.interfaceIndex h)
  have hgateway : m.gateway = m.old.gateway := congrArg RouteKey.gateway h
  exact m.moves (Prod.ext hindex hgateway)

/-- What the requests of a call have made of the kernel `k`: only rows of the daemon at the
old key went, and every row of the daemon has a key that one had before, or the new one
where that was `placed`. -/
structure Moved (m : Migration) (placed : Prop) (k k' : Kernel) : Prop where
  keeps : ∀ row ∈ k.routes, ¬row.Managed ∨ row.key ≠ m.old.key → row ∈ k'.routes
  known : ∀ row ∈ k'.routes, row.Managed →
    (∃ seen ∈ k.routes, seen.Managed ∧ seen.key = row.key) ∨ (placed ∧ row.key = m.desired.key)

namespace Moved

theorem refl (m : Migration) (placed : Prop) (k : Kernel) : m.Moved placed k k where
  keeps _ hrow _ := hrow
  known row hrow hmanaged := .inl ⟨row, hrow, hmanaged, rfl⟩

variable (h : m.Moved placed k k')
include h

theorem mono {placed' : Prop} (himp : placed → placed') : m.Moved placed' k k' where
  keeps := h.keeps
  known row hrow hmanaged := (h.known row hrow hmanaged).imp_right fun hp => ⟨himp hp.1, hp.2⟩

theorem place (hplaced : placed) : m.Moved placed k (k'.addRouteExclusive o m.desired).2 where
  keeps row hrow hkeep := mem_addRouteExclusive.mpr (.inl (h.keeps row hrow hkeep))
  known row hrow hmanaged := by
    rcases mem_addRouteExclusive.mp hrow with hrow | ⟨-, rfl⟩
    · exact h.known row hrow hmanaged
    · exact .inr ⟨hplaced, SystemRoute.key_install ..⟩

theorem withdraw : m.Moved placed k (k'.removeRoute m.old).2 where
  keeps row hrow hkeep := by
    refine mem_removeRoute.mpr ⟨h.keeps row hrow hkeep, ?_⟩
    rintro ⟨hkey, hmanaged⟩
    exact hkeep.elim (fun hn => hn hmanaged) (fun hn => hn hkey)
  known row hrow hmanaged := h.known row (mem_removeRoute.mp hrow).1 hmanaged

/-- The old route is put back only where it was. -/
theorem restore (hold : ∃ seen ∈ k.routes, seen.Managed ∧ seen.key = m.old.key) :
    m.Moved placed k (k'.addRouteExclusive o m.old).2 where
  keeps row hrow hkeep := mem_addRouteExclusive.mpr (.inl (h.keeps row hrow hkeep))
  known row hrow hmanaged := by
    rcases mem_addRouteExclusive.mp hrow with hrow | ⟨-, rfl⟩
    · exact h.known row hrow hmanaged
    · obtain ⟨seen, hseen, hmine, hkey⟩ := hold
      exact .inl ⟨seen, hseen, hmine, hkey.trans (SystemRoute.key_install ..).symm⟩

end Moved

/-- A slot that is free, if need be without the old route, is one that opens. -/
theorem opens_of_free (h : k.slotTaken m.desired = false) : m.Opens k :=
  fun row hrow hslot => absurd hslot (slotTaken_eq_false_iff.mp h row hrow)

theorem opens_of_freed (hpresent : k.present m.old = true)
    (h : (k.removeRoute m.old).2.slotTaken m.desired = false) : m.Opens k := by
  intro row hrow hslot
  by_cases hmine : row.key = m.old.key ∧ row.Managed
  · exact ⟨hmine.1, hmine.2, hpresent⟩
  · have hstays : row ∈ (k.removeRoute m.old).2.routes := mem_removeRoute.mpr ⟨hrow, hmine⟩
    exact absurd hslot (slotTaken_eq_false_iff.mp h row hstays)

end

/-! ### The two journals of a call -/

section
variable {m : Migration} {o : Origin} {core : DaemonCore} {j j' d : Journal} {entry : JournalEntry}
  {key : RouteKey} {index : Nat} {f : JournalEntry → JournalEntry}

theorem ownerLists_of_getElem? (hentry : j[index]? = some entry) (h : entry.Lists key) :
    j.OwnerLists entry.origin key :=
  ⟨entry, mem_of_getElem? hentry, rfl, h⟩

/-- What a rewritten entry adds to the listing is what it lists itself. -/
theorem ownerLists_modify (hentry : j[index]? = some entry)
    (h : Journal.OwnerLists (j.modify index f) o key) : j.OwnerLists o key ∨ (f entry).Lists key := by
  obtain ⟨e, he, horigin, hlists⟩ := h
  obtain ⟨i, hi⟩ := mem_iff_getElem?.mp he
  by_cases hidx : i = index
  · subst hidx
    have hsame : f entry = e := by simpa [hentry] using hi
    exact .inr (hsame ▸ hlists)
  · rw [getElem?_modify_of_ne hidx] at hi
    exact .inl ⟨e, mem_of_getElem? hi, horigin, hlists⟩

/-- The journals at some instant of the call, over the kernel it started with: neither
claims what was somebody else's, and what the daemon had in the kernel is on disk. -/
structure Books (m : Migration) (o : Origin) (core : DaemonCore) (j d : Journal) : Prop where
  memory : ∀ key, j.OwnerLists o key → core.journal.OwnerLists o key ∨ Vacant o core key
  disk : ∀ key, d.OwnerLists o key →
    core.disk.OwnerLists o key ∨ core.journal.OwnerLists o key ∨ Vacant o core key
  durable : m.Durable o core.kernel d

namespace Books

theorem start (h : m.Durable o core.kernel core.disk) : m.Books o core core.journal core.disk where
  memory _ := .inl
  disk _ := .inl
  durable := h

theorem shrink (h : m.Books o core j d) (hsub : ∀ key, j'.OwnerLists o key → j.OwnerLists o key) :
    m.Books o core j' d :=
  { h with
    memory key hl := h.memory key (hsub key hl) }

/-- The books after a save. -/
theorem saved (h : m.Books o core j d) (hdurable : m.Durable o core.kernel j) :
    m.Books o core j j where
  memory := h.memory
  disk key hl := .inr (h.memory key hl)
  durable := hdurable

/-- Sound books make a safe state, as long as a new route in the kernel is on disk. -/
theorem safe {k' : Kernel} {placed : Prop} {now : DaemonCore} (h : m.Books o core j d)
    (hold : core.journal.OwnerLists o m.old.key) (hmoved : m.Moved placed core.kernel k')
    (hplaced : placed → d.OwnerLists o m.desired.key)
    (hnow : now = { core with kernel := k', journal := j, disk := d }) : m.Safe o core now := by
  subst hnow
  refine ⟨?_, ?_, h.memory, h.disk⟩
  · intro row hrow hmanaged hkey
    rcases hmoved.known row hrow hmanaged with ⟨seen, hseen, hmine, hsame⟩ | ⟨hp, hsame⟩
    · rw [← hsame] at hkey ⊢
      exact h.durable seen hseen hmine hkey
    · rw [hsame]
      exact hplaced hp
  · intro row hrow hapart
    refine hmoved.keeps row hrow (hapart.imp_right fun hn hkey => hn ?_)
    rw [hkey]
    exact hold

end Books

end

/-! ### The steps of a call -/

/-- The entry without its record of a route. -/
def without (r : AppliedRoute) (entry : JournalEntry) : JournalEntry :=
  entry.setResources (entry.resources.filter fun resource => resource != .route r)

variable {r : AppliedRoute} {entry : JournalEntry}

theorem mem_without {x : OwnedResource} :
    x ∈ (without r entry).resources ↔ x ∈ entry.resources ∧ x ≠ .route r := by
  simp [without, JournalEntry.setResources]

theorem lists_of_without {key : RouteKey} (h : (without r entry).Lists key) : entry.Lists key := by
  obtain ⟨x, hx, hkey⟩ := h
  exact ⟨x, (mem_without.mp hx).1, hkey⟩

/-- The journals once the new route is noted. A record made by this very call can be taken
back, which gives the journal it started with. -/
structure Noted (m : Migration) (entry : JournalEntry) (core : DaemonCore) (journaled : Bool)
    (j d : Journal) : Prop where
  books : m.Books entry.origin core j d
  lists : ∃ e, j[m.index]? = some e ∧ e.origin = entry.origin ∧ .route m.old ∈ e.resources ∧
    .route m.desired ∈ e.resources
  undone : journaled = false → j.modify m.index (without m.desired) = core.journal ∧
    m.Books entry.origin core core.journal core.journal
  ready : d.OwnerLists entry.origin m.desired.key ∨ ¬m.Opens core.kernel

section
variable {V : Verdict Fault → Prop} {m : Migration} {core : DaemonCore} {entry : JournalEntry}
variable {k' : Kernel} {now : DaemonCore}
  {j d : Journal} {journaled : Bool} {vs : List (Verdict Fault)}

theorem noted_of_journaled (hentry : core.journal[m.index]? = some entry)
    (hold : .route m.old ∈ entry.resources) (hdesired : .route m.desired ∈ entry.resources)
    (hdurable : m.Durable entry.origin core.kernel core.disk)
    (hready : core.disk.OwnerLists entry.origin m.desired.key ∨ ¬m.Opens core.kernel) :
    m.Noted entry core true core.journal core.disk where
  books := .start hdurable
  lists := ⟨entry, hentry, rfl, hold, hdesired⟩
  undone h := by cases h
  ready := hready

theorem lists_push {r : AppliedRoute} {key : RouteKey} :
    (entry.push (.route r)).Lists key ↔ entry.Lists key ∨ r.key = key := by
  simp only [JournalEntry.Lists, JournalEntry.push, mem_append, mem_singleton,
    OwnedResource.route.injEq]
  constructor
  · rintro ⟨x, hx | rfl, hkey⟩
    · exact .inl ⟨x, hx, hkey⟩
    · exact .inr hkey
  · rintro (⟨x, hx, hkey⟩ | hkey)
    · exact ⟨x, .inl hx, hkey⟩
    · exact ⟨r, .inr rfl, hkey⟩

/-- The journal with the new route noted. -/
def noted (m : Migration) (j : Journal) : Journal := j.modify m.index (·.push (.route m.desired))

theorem books_noted (hentry : core.journal[m.index]? = some entry)
    (hdurable : m.Durable entry.origin core.kernel core.disk)
    (hclaim : core.journal.OwnerLists entry.origin m.desired.key ∨
      Vacant entry.origin core m.desired.key) :
    m.Books entry.origin core (m.noted core.journal) core.disk where
  memory key h := by
    rcases ownerLists_modify hentry h with h | h
    · exact .inl h
    · rcases lists_push.mp h with h | rfl
      · exact .inl (ownerLists_of_getElem? hentry h)
      · exact hclaim
  disk _ := .inl
  durable := hdurable

theorem getElem?_noted (hentry : core.journal[m.index]? = some entry) :
    (m.noted core.journal)[m.index]? = some (entry.push (.route m.desired)) := by
  simp [noted, hentry]

theorem without_push (h : .route m.desired ∉ entry.resources) :
    without m.desired (entry.push (.route m.desired)) = entry := by
  have hkeep : entry.resources.filter (fun x => x != .route m.desired) = entry.resources := by
    rw [filter_eq_self]
    intro x hx
    simp only [bne_iff_ne, ne_eq]
    rintro rfl
    exact h hx
  simp [without, JournalEntry.push, JournalEntry.setResources, hkeep]

/-- Taking the record back gives the journal of the start. -/
theorem undo_noted (hentry : core.journal[m.index]? = some entry)
    (h : .route m.desired ∉ entry.resources) :
    (m.noted core.journal).modify m.index (without m.desired) = core.journal := by
  refine ext_getElem? fun i => ?_
  by_cases hidx : i = m.index
  · subst hidx
    simp [noted, hentry, without_push h]
  · rw [getElem?_modify_of_ne hidx, noted, getElem?_modify_of_ne hidx]

theorem noted_of_new (hentry : core.journal[m.index]? = some entry)
    (hold : .route m.old ∈ entry.resources) (hdesired : .route m.desired ∉ entry.resources)
    (hdurable : m.Durable entry.origin core.kernel core.disk)
    (hclaim : core.journal.OwnerLists entry.origin m.desired.key ∨
      Vacant entry.origin core m.desired.key) :
    m.Noted entry core false (m.noted core.journal) (m.noted core.journal) := by
  have hnew := getElem?_noted (m := m) hentry
  have horigin : (entry.push (.route m.desired)).origin = entry.origin := rfl
  have hlisted : ∀ key, entry.Lists key ∨ m.desired.key = key →
      (m.noted core.journal).OwnerLists entry.origin key := fun key h =>
    horigin ▸ ownerLists_of_getElem? hnew (lists_push.mpr h)
  have hnow : m.Durable entry.origin core.kernel (m.noted core.journal) := by
    intro row _ _ hkey
    rcases hkey with hkey | hkey
    · exact hlisted _ (.inl ⟨m.old, hold, hkey.symm⟩)
    · exact hlisted _ (.inr hkey.symm)
  -- A row of the daemon at the new key shows that the key is not vacant.
  have hback : m.Durable entry.origin core.kernel core.journal := by
    intro row hrow _ hkey
    rcases hkey with hkey | hkey
    · exact ownerLists_of_getElem? hentry ⟨m.old, hold, hkey.symm⟩
    · rw [hkey]
      exact hclaim.resolve_right fun hv => hv.1 row hrow hkey
  exact
    { books := (books_noted hentry hdurable hclaim).saved hnow
      lists := ⟨_, hnew, rfl, by simp [JournalEntry.push, hold], by simp [JournalEntry.push]⟩
      undone := fun _ => ⟨undo_noted hentry hdesired, (Books.start hdurable).saved hback⟩
      ready := .inl (hlisted _ (.inr rfl)) }

theorem wp_dropDesired {e : IoError} (h : m.Noted entry core journaled j d)
    (hold : core.journal.OwnerLists entry.origin m.old.key)
    (hmoved : m.Moved False core.kernel k') :
    wp V (dropDesired m.index journaled m.desired e) (fun _ => m.Safe entry.origin core)
      (fun _ => m.Safe entry.origin core) (m.Safe entry.origin core)
      { core with kernel := k', journal := j, disk := d } := by
  unfold dropDesired
  split
  · rename_i hcond
    simp only [Bool.and_eq_true, Bool.not_eq_true'] at hcond
    obtain ⟨hundo, hsaved⟩ := h.undone hcond.2
    have hdropped : m.Books entry.origin core core.journal d :=
      ⟨fun _ => .inl, h.books.disk, h.books.durable⟩
    refine wp_bind (wp_updateEntry ?_)
    show wp V save _ _ _
      { core with kernel := k', journal := j.modify m.index (without m.desired), disk := d }
    rw [hundo]
    have hsafe := hdropped.safe hold hmoved False.elim rfl
    have hdone := hsaved.safe hold hmoved False.elim rfl
    exact wp_save (fun _ => hsafe) (fun _ _ => hsafe) (fun _ _ => hdone) hdone
  · exact wp_pure (h.books.safe hold hmoved False.elim rfl)

/-- The new route is in the kernel `k'` and on disk. -/
structure Placed (m : Migration) (entry : JournalEntry) (core : DaemonCore) (d : Journal)
    (k' : Kernel) : Prop where
  moved : m.Moved True core.kernel k'
  onDisk : d.OwnerLists entry.origin m.desired.key
  row : ∃ row ∈ k'.routes, row.Managed ∧ row.key = m.desired.key

def Withdrawn (m : Migration) (k' : Kernel) : Prop :=
  ∀ row ∈ k'.routes, row.Managed → row.key ≠ m.old.key

theorem withdrawn_removeRoute (m : Migration) (k' : Kernel) :
    m.Withdrawn (k'.removeRoute m.old).2 :=
  fun _ hrow hmanaged hkey => (mem_removeRoute.mp hrow).2 ⟨hkey, hmanaged⟩

/-- A free slot of the new route, and the disk ready for it. -/
theorem placed_of_free (hmoved : m.Moved False core.kernel k')
    (hready : d.OwnerLists entry.origin m.desired.key) (hfree : k'.slotTaken m.desired = false) :
    m.Placed entry core d (k'.addRouteExclusive entry.origin m.desired).2 where
  moved := (hmoved.mono False.elim).place trivial
  onDisk := hready
  row := ⟨m.desired.system.install entry.origin,
    mem_addRouteExclusive.mpr (.inr ⟨hfree, rfl⟩), managed_install .., SystemRoute.key_install ..⟩

theorem Placed.withdraw (h : m.Placed entry core d k') :
    m.Placed entry core d (k'.removeRoute m.old).2 where
  moved := h.moved.withdraw
  onDisk := h.onDisk
  row := by
    obtain ⟨row, hrow, hmanaged, hkey⟩ := h.row
    refine ⟨row, mem_removeRoute.mpr ⟨hrow, ?_⟩, hmanaged, hkey⟩
    rintro ⟨hsame, -⟩
    exact m.key_desired_ne (hkey.symm.trans hsame)

theorem Placed.safe (h : m.Placed entry core d k') (hbooks : m.Books entry.origin core j d)
    (hold : core.journal.OwnerLists entry.origin m.old.key)
    (hnow : now = { core with kernel := k', journal := j, disk := d }) :
    m.Safe entry.origin core now :=
  hbooks.safe hold h.moved (fun _ => h.onDisk) hnow

/-- The state after the new route was placed, and the old one removed if that was needed. -/
def Standing (m : Migration) (entry : JournalEntry) (core : DaemonCore) (j d : Journal)
    (removed : Bool) (now : DaemonCore) : Prop :=
  ∃ k', now = { core with kernel := k', journal := j, disk := d } ∧
    m.Placed entry core d k' ∧ (removed = true → m.Withdrawn k')

/-- The end of a failed placement. -/
theorem wp_placeFailed (e : IoError) (h : m.Noted entry core journaled j d)
    (hold : core.journal.OwnerLists entry.origin m.old.key)
    (hmoved : m.Moved False core.kernel k') :
    wp V (do dropDesired m.index journaled m.desired e; Call.throw e : Prog Bool)
      (m.Standing entry core j d) (fun _ => m.Safe entry.origin core) (m.Safe entry.origin core)
      { core with kernel := k', journal := j, disk := d } :=
  wp_then (wp_dropDesired h hold hmoved) (fun _ _ hs => wp_throw hs)

/-- The second try, with the old route out of the way. -/
def retryDesired (m : Migration) (origin : Origin) (journaled : Bool) : Prog Bool := do
  match ← Call.attempt (addRouteExclusive origin m.desired) with
  | .ok () => pure true
  | .error e => do
      let _ ← Call.attempt (addRouteExclusive origin m.old)
      dropDesired m.index journaled m.desired e
      Call.throw e

section
variable (hplain : core.kernel.Plain) (h : m.Noted entry core journaled j d)
  (hold : core.journal.OwnerLists entry.origin m.old.key)
include hplain h hold

theorem wp_retryDesired (hpresent : core.kernel.present m.old = true) :
    wp V (m.retryDesired entry.origin journaled) (m.Standing entry core j d)
      (fun _ => m.Safe entry.origin core) (m.Safe entry.origin core)
      { core with kernel := (core.kernel.removeRoute m.old).2, journal := j, disk := d } := by
  have hgone := (Moved.refl m False core.kernel).withdraw
  have hsafe := h.books.safe hold hgone False.elim rfl
  have hwas := exists_of_present hplain hpresent
  -- A failed try puts the old route back, where that still goes.
  have hback : ∀ e, wp V (do
      let _ ← Call.attempt (addRouteExclusive entry.origin m.old)
      dropDesired m.index journaled m.desired e
      Call.throw e : Prog Bool) (m.Standing entry core j d) (fun _ => m.Safe entry.origin core)
      (m.Safe entry.origin core)
      { core with kernel := (core.kernel.removeRoute m.old).2, journal := j, disk := d } := by
    intro e
    refine wp_tried (wp_addRouteExclusive (fun _ => hsafe) ?_ ?_ ?_)
    · intro f _
      exact wp_placeFailed e h hold hgone
    · intro _
      exact wp_placeFailed e h hold (hgone.restore hwas)
    · intro _
      exact wp_placeFailed e h hold hgone
  refine wp_tried (wp_addRouteExclusive (fun _ => hsafe) ?_ ?_ ?_)
  · intro f _
    exact hback _
  · intro hfree
    have hready := h.ready.resolve_right (not_not_intro (opens_of_freed hpresent hfree))
    refine wp_pure ⟨_, rfl, placed_of_free hgone hready hfree, fun _ row hrow hmanaged hkey => ?_⟩
    rcases mem_addRouteExclusive.mp hrow with hrow | ⟨-, rfl⟩
    · exact withdrawn_removeRoute m _ row hrow hmanaged hkey
    · exact m.key_desired_ne ((SystemRoute.key_install ..).symm.trans hkey)
  · intro _
    exact hback _

theorem wp_placeDesired :
    wp V (placeDesired m.index entry.origin journaled (core.kernel.present m.old) m.old m.desired)
      (m.Standing entry core j d) (fun _ => m.Safe entry.origin core) (m.Safe entry.origin core)
      { core with journal := j, disk := d } := by
  have hrefl := Moved.refl m False core.kernel
  have hsafe := h.books.safe hold hrefl False.elim rfl
  refine wp_tried (wp_addRouteExclusive (fun _ => hsafe) ?_ ?_ ?_)
  · intro f _
    have hkind : isAlreadyExists f.report = false := by cases f <;> rfl
    simp only [hkind, Bool.false_and]
    exact wp_placeFailed _ h hold hrefl
  · intro hfree
    have hready := h.ready.resolve_right (not_not_intro (opens_of_free hfree))
    exact wp_pure ⟨_, rfl, placed_of_free hrefl hready hfree, fun hf => by cases hf⟩
  · intro _
    have hexists : isAlreadyExists alreadyExists = true := rfl
    simp only [hexists, Bool.true_and, m.sameSlot_desired, Bool.and_true]
    split
    · rename_i hpresent
      have hretry := wp_retryDesired (V := V) hplain h hold hpresent
      refine wp_bind (wp_tolerate (wp_removeRoute hsafe ?_ hretry ?_))
      · intro f
        rw [isNotFound_report]
        exact hsafe
      · intro e he
        rw [if_pos he]
        exact hretry
    · exact wp_placeFailed _ h hold hrefl

end

section
variable (h : m.Noted entry core journaled j d)
  (hold : core.journal.OwnerLists entry.origin m.old.key)
include h hold

theorem wp_withdrawOld {removed : Bool} (hstanding : m.Standing entry core j d removed now) :
    wp V (withdrawOld removed m.old) (fun _ => m.Standing entry core j d true)
      (fun _ => m.Safe entry.origin core) (m.Safe entry.origin core) now := by
  obtain ⟨k', rfl, hplaced, hwithdrawn⟩ := hstanding
  have hsafe := hplaced.safe h.books hold rfl
  have hgone : m.Standing entry core j d true
      { core with kernel := (k'.removeRoute m.old).2, journal := j, disk := d } :=
    ⟨_, rfl, hplaced.withdraw, fun _ => withdrawn_removeRoute m k'⟩
  cases removed with
  | true => exact wp_pure ⟨k', rfl, hplaced, fun _ => hwithdrawn rfl⟩
  | false =>
    refine wp_tried (wp_removeRoute hsafe ?_ (wp_pure hgone) ?_)
    · intro f
      simp only [isNotFound_report]
      exact wp_throw hsafe
    · intro e he
      simp only [he]
      exact wp_pure hgone

/-- Forgetting the old route is the last step. -/
theorem wp_forgetOld {changed : Bool} (hstanding : m.Standing entry core j d true now) :
    wp V (do updateEntry m.index (without m.old); save; pure changed : Prog Bool)
      (fun _ now => m.Safe entry.origin core now ∧ m.Migrated now)
      (fun _ => m.Safe entry.origin core) (m.Safe entry.origin core) now := by
  obtain ⟨k', rfl, hplaced, hwithdrawn⟩ := hstanding
  obtain ⟨e, he, horigin, -, hdesired⟩ := h.lists
  have hforgot : m.Books entry.origin core (j.modify m.index (without m.old)) d :=
    h.books.shrink fun key hl => by
      rcases ownerLists_modify he hl with hl | hl
      · exact hl
      · exact horigin ▸ ownerLists_of_getElem? he (lists_of_without hl)
  have hlast : (j.modify m.index (without m.old))[m.index]? = some (without m.old e) := by
    simp [he]
  have hkeeps : .route m.desired ∈ (without m.old e).resources :=
    mem_without.mpr ⟨hdesired, fun hsame => m.desired_ne_old (OwnedResource.route.inj hsame)⟩
  have hlisted : Journal.OwnerLists (j.modify m.index (without m.old)) entry.origin m.desired.key := by
    have horigin' : (without m.old e).origin = entry.origin := horigin
    exact horigin' ▸ ownerLists_of_getElem? hlast ⟨m.desired, hkeeps, rfl⟩
  have hsafe := hplaced.safe hforgot hold rfl
  have hsaved : m.Safe entry.origin core { core with
      kernel := k'
      journal := j.modify m.index (without m.old)
      disk := j.modify m.index (without m.old) } := by
    refine ⟨?_, hsafe.takesNothing.rows, hsafe.takesNothing.memory, ?_⟩
    · intro row hrow hmanaged hkey
      rcases hkey with hkey | hkey
      · exact absurd hkey (hwithdrawn rfl row hrow hmanaged)
      · rw [hkey]
        exact hlisted
    · intro key hl
      exact .inr (hsafe.takesNothing.memory key hl)
  refine wp_bind (wp_updateEntry (wp_bind (wp_save (fun _ => hsafe) (fun _ _ => hsafe)
    (fun _ _ => hsaved) ?_)))
  exact wp_pure ⟨hsaved, hplaced.row, hwithdrawn rfl, rfl,
    ⟨_, hlast, hkeeps, fun hmem => (mem_without.mp hmem).2 rfl⟩⟩

end

/-- The two changes to the kernel, and the last record. -/
def settle (m : Migration) (origin : Origin) (journaled presentOld desiredPresent : Bool) :
    Prog Bool := do
  let removedOld ←
    if desiredPresent then pure false
    else placeDesired m.index origin journaled presentOld m.old m.desired
  let withdrawn ← withdrawOld removedOld m.old
  updateEntry m.index (without m.old)
  save
  pure (!desiredPresent || withdrawn)

/-- What follows the checks. -/
def swap (m : Migration) (origin : Origin) (journaled presentOld presentDesired : Bool) :
    Prog Bool := do
  noteDesired m.index journaled m.desired
  m.settle origin journaled presentOld (journaled && presentDesired)

/-- The swap that a call comes to from this state. -/
def swapFrom (m : Migration) (entry : JournalEntry) (k : Kernel) : Prog Bool :=
  m.swap entry.origin (entry.resources.contains (.route m.desired)) (k.present m.old)
    (k.present m.desired)

/-- The call refuses, or goes on to the swap. -/
theorem wp_migrate {Q : Bool → DaemonCore → Prop} {E : IoError → DaemonCore → Prop}
    {C : DaemonCore → Prop} (hentry : core.journal[m.index]? = some entry) (hcrash : C core)
    (herr : ∀ e, E e core) (hswap : ¬m.Refused (entry.resources.contains (.route m.desired)) core →
      wp V (m.swapFrom entry core.kernel) Q E C core) :
    wp V (migrateOwnedBypass m.index m.old m.desired) Q E C core := by
  refine wp_atEntry hentry ?_
  refine wp_read ?_
  split
  · exact wp_throw (herr _)
  · rename_i hblocked
    refine wp_bind (wp_query (fun _ => hcrash) (fun _ _ => herr _) ?_ (fun e he => by cases he))
    intro tables htables
    cases htables
    dsimp only
    split
    · exact wp_throw (herr _)
    · rename_i hcollides
      exact hswap fun hrefused => hrefused.elim hblocked hcollides

theorem migrate_run (hentry : core.journal[m.index]? = some entry)
    (hrefused : ¬m.Refused (entry.resources.contains (.route m.desired)) core)
    (vs : List (Verdict Fault)) : migrateOwnedBypass m.index m.old m.desired core (.proceed :: vs) =
      m.swapFrom entry core.kernel core vs := by
  obtain ⟨hblocked, hcollides⟩ := not_or.mp hrefused
  unfold migrateOwnedBypass
  rw [bind_of_ok (entryAt_run hentry), bind_of_ok (gets_apply ..)]
  split
  · exact absurd ‹_› hblocked
  · rw [bind_of_ok (show netTables core (.proceed :: vs) = (.ok core.kernel.netTables, core, vs)
      from rfl)]
    dsimp only
    split
    · exact absurd ‹_› hcollides
    · rfl

theorem wp_settle (hplain : core.kernel.Plain) (h : m.Noted entry core journaled j d)
    (hold : core.journal.OwnerLists entry.origin m.old.key) :
    wp V (m.settle entry.origin journaled (core.kernel.present m.old)
        (journaled && core.kernel.present m.desired))
      (fun _ now => m.Safe entry.origin core now ∧ m.Migrated now)
      (fun _ => m.Safe entry.origin core) (m.Safe entry.origin core)
      { core with journal := j, disk := d } := by
  have hrest : ∀ removed now changed, m.Standing entry core j d removed now → wp V (do
        let withdrawn ← withdrawOld removed m.old
        updateEntry m.index (without m.old)
        save
        pure (changed || withdrawn) : Prog Bool)
        (fun _ now => m.Safe entry.origin core now ∧ m.Migrated now)
        (fun _ => m.Safe entry.origin core) (m.Safe entry.origin core) now :=
    fun removed now changed hstanding =>
      wp_then (wp_withdrawOld h hold hstanding) (fun _ _ hgone => wp_forgetOld h hold hgone)
  unfold settle
  dsimp only
  split
  · rename_i hpresent
    simp only [Bool.and_eq_true] at hpresent
    obtain ⟨row, hrow, hmanaged, hkey⟩ := exists_of_present hplain hpresent.2
    have hplaced : m.Placed entry core d core.kernel :=
      { moved := Moved.refl m True core.kernel
        onDisk := hkey ▸ h.books.durable row hrow hmanaged (.inr hkey)
        row := ⟨row, hrow, hmanaged, hkey⟩ }
    exact wp_bind (wp_pure (hrest _ _ _ ⟨core.kernel, rfl, hplaced, fun hf => by cases hf⟩))
  · exact wp_then (wp_placeDesired hplain h hold) (fun _ _ hs => hrest _ _ _ hs)

theorem crashSafe_of_sound (hplain : core.kernel.Plain)
    (hentry : core.journal[m.index]? = some entry) (hold : .route m.old ∈ entry.resources)
    (hdurable : m.Durable entry.origin core.kernel core.disk) (hsound : m.Sound entry core) :
    m.CrashSafe entry.origin core := by
  have hlisted := ownerLists_of_getElem? hentry ⟨m.old, hold, rfl⟩
  have hstart : m.Safe entry.origin core core :=
    (Books.start hdurable).safe hlisted (Moved.refl m False core.kernel) False.elim rfl
  refine wp_migrate hentry hstart (fun _ => hstart) fun hrefused => ?_
  by_cases hdesired : .route m.desired ∈ entry.resources
  · have hjournaled : entry.resources.contains (.route m.desired) = true := by simpa using hdesired
    rw [Sound, if_pos hdesired] at hsound
    rw [hjournaled] at hrefused
    rw [swapFrom, hjournaled]
    have hnoted := noted_of_journaled hentry hold hdesired hdurable (hsound.resolve_left hrefused)
    exact wp_bind (wp_pure (wp_settle hplain hnoted hlisted))
  · have hjournaled : entry.resources.contains (.route m.desired) = false := by simpa using hdesired
    rw [Sound, if_neg hdesired] at hsound
    rw [hjournaled] at hrefused
    rw [swapFrom, hjournaled]
    have hclaim := hsound.resolve_left hrefused
    have hpushed := (books_noted hentry hdurable hclaim).safe hlisted
      (Moved.refl m False core.kernel) False.elim rfl
    have hnoted := noted_of_new hentry hold hdesired hdurable hclaim
    refine wp_bind (wp_bind (wp_updateEntry (wp_save (fun _ => hpushed) (fun _ _ => hpushed)
      (fun _ _ => ?_) ?_)))
    · exact hnoted.books.safe hlisted (Moved.refl m False core.kernel) False.elim rfl
    exact wp_settle hplain hnoted hlisted

/-! ### Where the condition fails -/

section
variable {o : Origin} {r : AppliedRoute} {vs : List (Verdict Fault)}

theorem addRouteExclusive_run (h : core.kernel.slotTaken r = false) :
    addRouteExclusive o r core (.proceed :: vs) =
      (.ok (), { core with kernel := (core.kernel.addRouteExclusive o r).2 }, vs) :=
  onKernel_of_ok rfl (addRouteExclusive_ok_iff.mpr h)

theorem addRouteExclusive_run_taken (h : core.kernel.slotTaken r = true) :
    addRouteExclusive o r core (.proceed :: vs) = (.err alreadyExists, core, vs) := by
  refine onKernel_of_error ?_ rfl (by rw [addRouteExclusive_of_taken h])
  intro k e he
  dsimp only at he ⊢
  cases hk : k.slotTaken r with
  | false =>
    rw [addRouteExclusive_ok_iff.mpr hk] at he
    cases he
  | true => rw [addRouteExclusive_of_taken hk]

theorem removeRoute_run (h : ∃ row ∈ core.kernel.routes, row.key = r.key ∧ row.Managed) :
    removeRoute r core (.proceed :: vs) =
      (.ok (), { core with kernel := (core.kernel.removeRoute r).2 }, vs) := by
  refine onKernel_of_ok rfl ?_
  obtain ⟨row, hrow, hkey, hmanaged⟩ := h
  have hany : core.kernel.routes.rows.any (fun row =>
      row.key == r.key && row.route.protocol == rtprotNetworkOrchestrator) = true := by
    rw [any_eq_true]
    refine ⟨row, hrow, ?_⟩
    rw [hkey, show row.route.protocol = rtprotNetworkOrchestrator from hmanaged]
    simp
  rw [Kernel.removeRoute, Kernel.removeRouteRows, if_pos hany]

end

theorem placeDesired_run {presentOld : Bool} (hfree : core.kernel.slotTaken m.desired = false) :
    placeDesired m.index entry.origin journaled presentOld m.old m.desired core (.proceed :: vs) =
      (.ok false,
        { core with kernel := (core.kernel.addRouteExclusive entry.origin m.desired).2 }, vs) := by
  unfold placeDesired
  rw [bind_of_ok (attempt_of_ok (addRouteExclusive_run hfree))]
  rfl

/-- The old route holds the slot, and gives it up. -/
theorem placeDesired_run_held (hold : ∃ row ∈ core.kernel.routes, row.key = m.old.key ∧ row.Managed)
    (htaken : core.kernel.slotTaken m.desired = true)
    (hfreed : (core.kernel.removeRoute m.old).2.slotTaken m.desired = false) :
    placeDesired m.index entry.origin journaled true m.old m.desired core
        (.proceed :: .proceed :: .proceed :: vs) = (.ok true,
        { core with
          kernel := ((core.kernel.removeRoute m.old).2.addRouteExclusive entry.origin m.desired).2 },
        vs) := by
  have hexists : isAlreadyExists alreadyExists = true := rfl
  have hremoved : Call.tolerate isNotFound (removeRoute m.old) core (.proceed :: .proceed :: vs) =
      (.ok (), { core with kernel := (core.kernel.removeRoute m.old).2 }, .proceed :: vs) := by
    unfold Call.tolerate
    rw [bind_of_ok (attempt_of_ok (removeRoute_run hold))]
    rfl
  unfold placeDesired
  rw [bind_of_ok (attempt_of_err (addRouteExclusive_run_taken htaken))]
  simp only [hexists, m.sameSlot_desired, Bool.and_true, if_true]
  rw [bind_of_ok hremoved, bind_of_ok (attempt_of_ok (addRouteExclusive_run hfreed))]
  rfl

/-- A slot that opens has the new route in it before anything is saved. -/
theorem settle_run (entry : JournalEntry) (hopens : m.Opens core.kernel) :
    ∃ now, ∃ vs : List (Verdict Fault),
      m.settle entry.origin true (core.kernel.present m.old) false core vs = (.crash, now, []) ∧
      now.disk = core.disk ∧
      ∃ row ∈ now.kernel.routes, row.Managed ∧ row.key = m.desired.key := by
  have hrow : ∀ k : Kernel, k.slotTaken m.desired = false →
      ∃ row ∈ (k.addRouteExclusive entry.origin m.desired).2.routes, row.Managed ∧
        row.key = m.desired.key := fun k hfree =>
    ⟨m.desired.system.install entry.origin, mem_addRouteExclusive.mpr (.inr ⟨hfree, rfl⟩),
      managed_install .., SystemRoute.key_install ..⟩
  cases hslot : core.kernel.slotTaken m.desired with
  | false =>
    refine ⟨{ core with kernel := (core.kernel.addRouteExclusive entry.origin m.desired).2 },
      [.proceed, .crash], ?_, rfl, hrow _ hslot⟩
    unfold settle
    rw [if_neg Bool.false_ne_true, bind_of_ok (placeDesired_run hslot)]
    rfl
  | true =>
    obtain ⟨row, hmem, hsame⟩ := slotTaken_iff.mp hslot
    obtain ⟨hkey, hmanaged, hpresent⟩ := hopens row hmem hsame
    have hfreed : (core.kernel.removeRoute m.old).2.slotTaken m.desired = false := by
      rw [slotTaken_eq_false_iff]
      intro other hother hslot
      obtain ⟨hin, hstays⟩ := mem_removeRoute.mp hother
      obtain ⟨hk, hm, -⟩ := hopens other hin hslot
      exact hstays ⟨hk, hm⟩
    refine ⟨{ core with
        kernel := ((core.kernel.removeRoute m.old).2.addRouteExclusive entry.origin m.desired).2
        journal := core.journal.modify m.index (without m.old) },
      [.proceed, .proceed, .proceed, .crash], ?_, rfl, hrow _ hfreed⟩
    unfold settle
    rw [if_neg Bool.false_ne_true, hpresent,
      bind_of_ok (placeDesired_run_held ⟨row, hmem, hkey, hmanaged⟩ hslot hfreed)]
    rfl

theorem sound_of_crashSafe (hplain : core.kernel.Plain)
    (hentry : core.journal[m.index]? = some entry)
    (hdurable : m.Durable entry.origin core.kernel core.disk)
    (h : m.CrashSafe entry.origin core) : m.Sound entry core := by
  unfold Sound
  split
  · rename_i hdesired
    have hjournaled : entry.resources.contains (.route m.desired) = true := by simpa using hdesired
    by_contra hnot
    simp only [not_or, not_not] at hnot
    obtain ⟨hrefused, hdisk, hopens⟩ := hnot
    have hpresent : core.kernel.present m.desired = false := by
      rw [← Bool.not_eq_true]
      intro hpresent
      obtain ⟨row, hrow, hmanaged, hkey⟩ := exists_of_present hplain hpresent
      exact hdisk (hkey ▸ hdurable row hrow hmanaged (.inr hkey))
    obtain ⟨now, vs, hrun, hsame, row, hrow, hmanaged, hkey⟩ := settle_run entry hopens
    have hend := h (.proceed :: vs) fun _ _ => trivial
    rw [migrate_run hentry (hjournaled ▸ hrefused), swapFrom, hjournaled, hpresent] at hend
    rw [show m.swap entry.origin true (core.kernel.present m.old) false core vs = _ from hrun] at hend
    have hlisted := hend.durable row hrow hmanaged (.inr hkey)
    rw [hsame, hkey] at hlisted
    exact hdisk hlisted
  · rename_i hdesired
    have hjournaled : entry.resources.contains (.route m.desired) = false := by simpa using hdesired
    by_contra hnot
    simp only [not_or] at hnot
    obtain ⟨hrefused, hlists, hvacant⟩ := hnot
    have hend := h [.proceed, .crash] fun _ _ => trivial
    rw [migrate_run hentry (hjournaled ▸ hrefused), swapFrom, hjournaled] at hend
    have hsafe : m.Safe entry.origin core { core with journal := m.noted core.journal } := hend
    have hnew : (entry.push (.route m.desired)).Lists m.desired.key := lists_push.mpr (.inr rfl)
    have hclaimed : (m.noted core.journal).OwnerLists (entry.push (.route m.desired)).origin
        m.desired.key := ownerLists_of_getElem? (getElem?_noted hentry) hnew
    exact (hsafe.takesNothing.memory _ hclaimed).elim hlists hvacant

end

end Migration

/-- Over a kernel and a disk that respect the ownership of the two routes at the start, a
migration is crash-safe and takes nothing from others exactly when the state is `Sound`. -/
theorem migration_crash_safe_iff (m : Migration) (core : DaemonCore) (entry : JournalEntry)
    (hentry : core.journal[m.index]? = some entry) (hold : .route m.old ∈ entry.resources)
    (hplain : core.kernel.Plain) (hdurable : m.Durable entry.origin core.kernel core.disk) :
    m.CrashSafe entry.origin core ↔ m.Sound entry core :=
  ⟨Migration.sound_of_crashSafe hplain hentry hdurable,
    Migration.crashSafe_of_sound hplain hentry hold hdurable⟩

/-! ### A record that only memory has -/

section

instance (e : JournalEntry) (key : RouteKey) : Decidable (e.Lists key) :=
  decidable_of_iff (∃ r ∈ ownedRoutes e.resources, r.key = key) (by
    simp only [mem_ownedRoutes, JournalEntry.Lists])

instance (j : Journal) (o : Origin) (key : RouteKey) : Decidable (j.OwnerLists o key) :=
  inferInstanceAs (Decidable (∃ entry ∈ j, entry.origin = o ∧ entry.Lists key))

instance (k : Kernel) : Decidable k.Plain :=
  inferInstanceAs (Decidable (∀ row ∈ k.routes.rows,
    row.route.family = row.route.destination.family ∧
      (row.route.interfaceIndex.isSome → row.route.nexthops = [])))

namespace Migration
variable (m : Migration) (o : Origin)

instance (k : Kernel) (disk : Journal) : Decidable (m.Durable o k disk) :=
  inferInstanceAs (Decidable (∀ row ∈ k.routes.rows, row.Managed →
    row.key = m.old.key ∨ row.key = m.desired.key → disk.OwnerLists o row.key))

instance (core : DaemonCore) (key : RouteKey) : Decidable (Vacant o core key) :=
  inferInstanceAs (Decidable ((∀ row ∈ core.kernel.routes.rows, row.key ≠ key) ∧
    ∀ other ∈ core.journal, other.origin ≠ o → ¬other.Lists key))

instance (journaled : Bool) (core : DaemonCore) : Decidable (m.Refused journaled core) :=
  inferInstanceAs (Decidable (_ ∨ _))

instance (k : Kernel) : Decidable (m.Opens k) :=
  inferInstanceAs (Decidable (∀ row ∈ k.routes.rows, row.key.slot = m.desired.key.slot →
    row.key = m.old.key ∧ row.Managed ∧ k.present m.old = true))

instance (entry : JournalEntry) (core : DaemonCore) : Decidable (m.Sound entry core) :=
  inferInstanceAs (Decidable (if .route m.desired ∈ entry.resources then
      m.Refused true core ∨ core.disk.OwnerLists entry.origin m.desired.key ∨ ¬m.Opens core.kernel
    else
      m.Refused false core ∨ core.journal.OwnerLists entry.origin m.desired.key ∨
        Vacant entry.origin core m.desired.key))

end Migration

end

def ferryRoute : AppliedRoute :=
  { destination := .v4 0xcb007107 32
    interfaceIndex := 2
    metric := 0
    gateway := some (.v4 0xc0000201)
    table := none }

def ferryEntry : JournalEntry :=
  { uid := 1000, owner := .xray "ferry", state := .applied, resources := [.route ferryRoute] }

/-- The bypass of a tunnel is in the kernel and on disk. -/
def ferry : DaemonCore :=
  { DaemonCore.fresh (Kernel.empty.addRoute ferryEntry.origin ferryRoute).2 .bare .all with
    journal := [ferryEntry]
    disk := [ferryEntry] }

/-- The default gateway moves to another link. -/
def ferryMove : Migration :=
  { index := 0, old := ferryRoute, interfaceIndex := 3, gateway := some (.v4 0xc6336401)
    moves := by decide }

/-- The migration fails at the save that notes the new route. -/
def ferryNoted : DaemonCore :=
  (migrateOwnedBypass 0 ferryRoute ferryMove.desired ferry [.proceed, .fail .other]).2.1

/-- The next pass finds the record in memory and takes it for a durable one. -/
theorem ferry_not_crash_safe :
    ferryMove.Durable ferryEntry.origin ferry.kernel ferry.disk ∧
      (migrateOwnedBypass 0 ferryRoute ferryMove.desired ferry [.proceed, .fail .other]).1 =
        .err ⟨.other, .executor⟩ ∧
      ferryNoted.kernel.Plain ∧
      ferryMove.Durable ferryEntry.origin ferryNoted.kernel ferryNoted.disk ∧
      ¬ferryMove.CrashSafe ferryEntry.origin ferryNoted := by
  refine ⟨by decide, by decide, by decide, by decide, ?_⟩
  intro hsafe
  have hend := hsafe [.proceed, .proceed, .proceed, .proceed, .crash] fun _ _ => trivial
  have hcrash : (migrateOwnedBypass ferryMove.index ferryMove.old ferryMove.desired ferryNoted
      [.proceed, .proceed, .proceed, .proceed, .crash]).1 = .crash := by decide
  rw [eq_of_outcome hcrash] at hend
  exact absurd hend.durable (by decide)

theorem ferry_crash_safe : ferryMove.CrashSafe ferryEntry.origin ferry :=
  (migration_crash_safe_iff ferryMove ferry ferryEntry rfl (by decide) (by decide)
    (by decide)).mpr (by decide)

end NetOrchestrator.Daemon
