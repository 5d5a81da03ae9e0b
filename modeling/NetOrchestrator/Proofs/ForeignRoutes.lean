import NetOrchestrator.Lib.Runs
import NetOrchestrator.Proofs.BookedRequests

/-!
# `Proofs.ForeignRoutes`: no tunnel deletes somebody else's route

`route delete` names a destination, not an owner. So an executor may delete what it has on record
only if each of these destinations is free or has its own row. `RoutesKept` says this of every
journal and every session, and of everything that was deleted so far.

Two things break it, and `routesClean` is lost with them. The required routes of a plan go on
record before they are added, while one of the destinations still has somebody else's row. And a
route is added at a destination which another tunnel has on record, though its own row is gone.
-/

namespace NetOrchestrator.Macos

open Net Lib Lib.Call List

/-- The destination of `op` is free, or its row is this component's. -/
def OwnedAt (who : Component) (w : Machine) (op : RouteOp) : Prop :=
  ∀ row, w.table.get op.net = some row → row.owner = some who

structure RoutesKept (w : Machine) : Prop where
  listed : ∀ kind op, op ∈ w.listed (.tunnel kind) → OwnedAt (.tunnel kind) w op
  deleted : ∀ entry ∈ w.deleted, entry.2.owner = some entry.1

def RoutesSafe (w : Machine) : Prop := w.routesClean = true → RoutesKept w

/-- The component has no session, and `own` in hand. -/
structure RoutesInHand (who : Component) (own : List RouteOp) (w : Machine) : Prop where
  idle : w.sessionRecord who = none
  safe : w.routesClean = true → RoutesKept w ∧ ∀ op ∈ own, OwnedAt who w op

/-! ### Tables and records -/

section
variable {who : Component} {kind : Kind} {own own' : List RouteOp} {op : RouteOp}
  {w w' : Machine}

/-- No row is new. -/
def Shrunk (w w' : Machine) : Prop :=
  ∀ net row, w'.table.get net = some row → w.table.get net = some row

theorem shrunk_of_eq (h : w'.table = w.table) : Shrunk w w' := by
  intro net row hrow
  rw [h] at hrow
  exact hrow

theorem shrunk_of_drop (h : ∃ gone, w'.table = w.table.drop gone) : Shrunk w w' := by
  obtain ⟨gone, hgone⟩ := h
  intro net row hrow
  rw [hgone, Table.get_drop] at hrow
  exact (Option.filter_eq_some_iff.mp hrow).1

theorem OwnedAt.shrink (h : OwnedAt who w op) (hs : Shrunk w w') : OwnedAt who w' op :=
  fun row hrow => h row (hs op.net row hrow)

theorem RoutesKept.shrink (h : RoutesKept w) (hs : Shrunk w w')
    (hlisted : ∀ kind, w'.listed (.tunnel kind) ⊆ w.listed (.tunnel kind))
    (hdeleted : ∀ entry ∈ w'.deleted, entry ∈ w.deleted ∨ entry.2.owner = some entry.1) :
    RoutesKept w' := by
  refine ⟨?_, ?_⟩
  · exact fun kind op hop => (h.listed kind op (hlisted kind hop)).shrink hs
  · intro entry hentry
    rcases hdeleted entry hentry with hold | hown
    · exact h.deleted entry hold
    · exact hown

theorem RoutesInHand.shrink (h : RoutesInHand who own w) (hs : Shrunk w w')
    (hrecord : w'.sessionRecord = w.sessionRecord) (hjournal : w'.journal = w.journal)
    (hdeleted : w'.deleted = w.deleted)
    (hflag : w'.routesClean = w.routesClean) : RoutesInHand who own w' := by
  refine ⟨by rw [hrecord]; exact h.idle, ?_⟩
  intro hclean
  rw [hflag] at hclean
  obtain ⟨hkept, hown⟩ := h.safe hclean
  have hlisted : ∀ kind, w'.listed (.tunnel kind) ⊆ w.listed (.tunnel kind) := by
    intro kind op hop
    unfold Machine.listed at hop ⊢
    rw [hjournal, hrecord] at hop
    exact hop
  refine ⟨hkept.shrink hs hlisted ?_, fun op hop => (hown op hop).shrink hs⟩
  intro entry hentry
  rw [hdeleted] at hentry
  exact .inl hentry

theorem mem_listed :
    op ∈ w.listed who ↔ (∃ record, w.journal who = some record ∧ op ∈ record.routes) ∨
      ∃ record, w.sessionRecord who = some record ∧ op ∈ record.routes := by
  unfold Machine.listed
  rw [mem_append]
  cases w.journal who <;> cases w.sessionRecord who <;> simp

/-- Who has the destination on record besides `who`. -/
theorem listedByOther_eq_false {net : IpNet} (h : w.listedByOther who net = false) (kind : Kind)
    (hop : op ∈ w.listed (.tunnel kind)) (hnet : op.net = net) : Component.tunnel kind = who := by
  by_contra hne
  have htrue : w.listedByOther who net = true := by
    apply any_eq_true.mpr
    refine ⟨kind, by cases kind <;> simp [Kind.all], ?_⟩
    have hany : ((w.listed (.tunnel kind)).any fun op => op.net == net) = true :=
      any_eq_true.mpr ⟨op, hop, by simpa using hnet⟩
    simp [hne, hany]
  exact absurd (h.symm.trans htrue) (by decide)

/-- The table after an add. -/
theorem get_routeAdded (hfree : w.table.has op.net = false) (net : IpNet) :
    (w.routeAdded who op).table.get net =
      if net = op.net then some ⟨op.entry w.deviceOf, some who⟩ else w.table.get net := by
  have hkey : RouteRow.net (⟨op.entry w.deviceOf, some who⟩ : RouteRow Component) = op.net :=
    net_entry op w.deviceOf
  show (w.table.insert _).get net = _
  rw [Table.get_insert (by rw [hkey]; exact hfree), hkey]

theorem listed_routeAdded : (w.routeAdded who op).listed = w.listed := by
  funext other
  unfold Machine.listed
  cases other with
  | tailscale => rfl
  | tunnel kind => cases kind <;> rfl

section
variable (h : RoutesInHand who own w)
include h

theorem RoutesInHand.add (hfree : w.table.has op.net = false) :
    RoutesInHand who (own ++ [op]) (w.routeAdded who op) := by
  refine ⟨h.idle, ?_⟩
  intro hclean
  obtain ⟨hbefore, hother⟩ := Bool.and_eq_true_iff.mp hclean
  obtain ⟨hkept, hown⟩ := h.safe hbefore
  have hnobody : w.listedByOther who op.net = false := by simpa using hother
  -- A row of the new table is the new one or an old one.
  have hrow : ∀ other op', (op'.net = op.net → other = who) → OwnedAt other w op' →
      OwnedAt other (w.routeAdded who op) op' := by
    intro other op' hwho howned row hget
    rw [get_routeAdded hfree] at hget
    split at hget
    · rename_i hnet
      cases hget
      rw [hwho hnet]
    · exact howned row hget
  refine ⟨⟨?_, hkept.deleted⟩, ?_⟩
  · intro kind op' hop'
    rw [listed_routeAdded] at hop'
    exact hrow _ op' (listedByOther_eq_false hnobody kind hop') (hkept.listed kind op' hop')
  · intro op' hop'
    rcases mem_append.mp hop' with hold | hnew
    · exact hrow who op' (fun _ => rfl) (hown op' hold)
    · obtain rfl := mem_singleton.mp hnew
      intro row hget
      rw [get_routeAdded hfree, if_pos rfl] at hget
      cases hget
      rfl

theorem RoutesInHand.delete (hop : op ∈ own) : RoutesInHand who own (w.routeDeleted who op) := by
  refine ⟨h.idle, ?_⟩
  intro hclean
  obtain ⟨hkept, hown⟩ := h.safe hclean
  have hs : Shrunk w (w.routeDeleted who op) := shrunk_of_drop ⟨_, rfl⟩
  refine ⟨hkept.shrink hs (fun _ => List.Subset.refl _) ?_, fun op' hop' =>
    (hown op' hop').shrink hs⟩
  intro entry hentry
  rcases mem_append.mp hentry with hold | hnew
  · exact .inl hold
  · -- What was deleted is the row of `op`, which is the component's own.
    obtain ⟨row, hrow, rfl⟩ := mem_map.mp hnew
    exact .inr (hown op hop row (Option.mem_toList.mp hrow))

theorem RoutesInHand.journaled {new : Option Record}
    (hroutes : ∀ record, new = some record → record.routes ⊆ own) :
    RoutesInHand who own (w.journaled who new) := by
  refine ⟨h.idle, ?_⟩
  intro hclean
  obtain ⟨hkept, hown⟩ := h.safe hclean
  refine ⟨⟨?_, hkept.deleted⟩, hown⟩
  intro kind op hop
  rcases mem_listed.mp hop with ⟨r, hr, hmem⟩ | ⟨r, hr, hmem⟩
  · by_cases hwho : Component.tunnel kind = who
    · subst hwho
      exact hown op (hroutes r ((journal_journaled ..).symm.trans hr) hmem)
    · have hsame : w.journal (.tunnel kind) = some r :=
        (journal_journaled_of_ne hwho ..).symm.trans hr
      exact hkept.listed kind op (mem_listed.mpr (.inl ⟨r, hsame, hmem⟩))
  · exact hkept.listed kind op (mem_listed.mpr (.inr ⟨r, hr, hmem⟩))

theorem RoutesInHand.plan (ops : List RouteOp) :
    RoutesInHand who (own ++ requiredOps ops) (w.planned who ops) := by
  refine ⟨h.idle, ?_⟩
  intro hclean
  obtain ⟨hbefore, hall⟩ := Bool.and_eq_true_iff.mp hclean
  obtain ⟨hkept, hown⟩ := h.safe hbefore
  refine ⟨⟨hkept.listed, hkept.deleted⟩, ?_⟩
  intro op hop
  rcases mem_append.mp hop with hold | hnew
  · exact hown op hold
  · intro row hrow
    have hmay : (w.table.get op.net).all (fun row => row.owner == some who) = true :=
      all_eq_true.mp hall op hnew
    rw [show w.table.get op.net = some row from hrow] at hmay
    simpa using hmay

end

variable {record : Record}

theorem RoutesInHand.of_session (h : RoutesSafe w)
    (hsession : w.sessionRecord (.tunnel kind) = some record) (hhanded : Handed (.tunnel kind) w w')
    (hidle : w'.sessionRecord (.tunnel kind) = none) :
    RoutesInHand (.tunnel kind) record.routes w' := by
  refine ⟨hidle, ?_⟩
  intro hclean
  rw [hhanded.routesClean] at hclean
  have hkept := h hclean
  have hs : Shrunk w w' := shrunk_of_eq hhanded.table
  refine ⟨hkept.shrink hs ?_ ?_, ?_⟩
  · intro other op hop
    rcases mem_listed.mp hop with ⟨r, hr, hmem⟩ | ⟨r, hr, hmem⟩
    · rw [hhanded.journal] at hr
      exact mem_listed.mpr (.inl ⟨r, hr, hmem⟩)
    · by_cases hother : Component.tunnel other = .tunnel kind
      · rw [hother, hidle] at hr
        cases hr
      · rw [hhanded.record _ hother] at hr
        exact mem_listed.mpr (.inr ⟨r, hr, hmem⟩)
  · intro entry hentry
    rw [hhanded.deleted] at hentry
    exact .inl hentry
  · intro op hop
    exact (hkept.listed kind op (mem_listed.mpr (.inr ⟨record, hsession, hop⟩))).shrink hs

theorem RoutesInHand.start (h : RoutesInHand (.tunnel kind) own w)
    (hroutes : record.routes ⊆ own) (hhanded : Handed (.tunnel kind) w w')
    (hsession : w'.sessionRecord (.tunnel kind) = some record) : RoutesSafe w' := by
  intro hclean
  rw [hhanded.routesClean] at hclean
  obtain ⟨hkept, hown⟩ := h.safe hclean
  have hs : Shrunk w w' := shrunk_of_eq hhanded.table
  refine ⟨?_, by rw [hhanded.deleted]; exact hkept.deleted⟩
  intro other op hop
  rcases mem_listed.mp hop with ⟨r, hr, hmem⟩ | ⟨r, hr, hmem⟩
  · rw [hhanded.journal] at hr
    exact (hkept.listed other op (mem_listed.mpr (.inl ⟨r, hr, hmem⟩))).shrink hs
  · by_cases hother : Component.tunnel other = .tunnel kind
    · rw [hother] at hr ⊢
      obtain rfl : record = r := Option.some.inj (hsession.symm.trans hr)
      exact (hown op (hroutes hmem)).shrink hs
    · rw [hhanded.record _ hother] at hr
      exact (hkept.listed other op (mem_listed.mpr (.inr ⟨r, hr, hmem⟩))).shrink hs

theorem RoutesSafe.restarted (h : RoutesSafe w) (gone : String → Bool) :
    RoutesSafe (w.restarted gone) := by
  intro hclean
  refine (h hclean).shrink (shrunk_of_drop ⟨_, rfl⟩) ?_ (fun entry hentry => .inl hentry)
  intro kind op hop
  rcases mem_listed.mp hop with ⟨r, hr, hmem⟩ | ⟨r, hr, _⟩
  · exact mem_listed.mpr (.inl ⟨r, hr, hmem⟩)
  · cases kind <;> cases hr

end

/-- The books of who may delete what. -/
theorem bookkeeping_routes :
    Bookkeeping RoutesSafe RoutesSafe fun who own _ _ _ => RoutesInHand who own where
  idle_same := by
    intro w w' hsame h hclean
    rw [hsame.routesClean] at hclean
    refine (h hclean).shrink (shrunk_of_drop hsame.table) ?_ ?_
    · intro kind op hop
      unfold Machine.listed at hop ⊢
      rw [hsame.journal, hsame.record] at hop
      exact hop
    · intro entry hentry
      rw [hsame.deleted] at hentry
      exact .inl hentry
  hand_same := by
    intro who own _ _ _ w w' hsame h
    exact h.shrink (shrunk_of_drop hsame.table) hsame.record hsame.journal hsame.deleted
      hsame.routesClean
  idle_cut := id
  hand_cut h hclean := (h.safe hclean).1
  hand_idle h := h.idle
  adjust hown _ _ _ h :=
    ⟨h.idle, fun hclean => ⟨(h.safe hclean).1, fun op hop => (h.safe hclean).2 op (hown hop)⟩⟩
  take h hsession hhanded hidle := .of_session h hsession hhanded hidle
  load := by
    intro kind w record h hidle hjournal
    refine ⟨hidle, fun hclean => ⟨h hclean, ?_⟩⟩
    exact fun op hop => (h hclean).listed kind op (mem_listed.mpr (.inl ⟨record, hjournal, hop⟩))
  fresh h hidle _ := ⟨hidle, fun hclean => ⟨h hclean, fun _ hop => by cases hop⟩⟩
  start h hroutes _ _ hhanded hsession := h.start hroutes hhanded hsession
  done h hclean := (h.safe hclean).1
  unsupervised h _ hclean := (h.safe hclean).1
  plan ops h := h.plan ops
  add h hfree := h.add hfree
  delete h hop _ := h.delete hop
  deleteFailed h _ := h.shrink (shrunk_of_eq rfl) rfl rfl rfl rfl
  save h hroutes _ _ := h.journaled (by rintro _ ⟨⟩; exact hroutes)
  saveFailed h := h.shrink (shrunk_of_eq rfl) rfl rfl rfl rfl
  clear h := h.journaled (by simp)
  noFiles h := h
  write h _ _ _ _ := h.shrink (shrunk_of_eq rfl) rfl rfl rfl rfl
  remove h _ := h.shrink (shrunk_of_eq rfl) rfl rfl rfl rfl
  removeFailed h := h.shrink (shrunk_of_eq rfl) rfl rfl rfl rfl
  skip h _ _ := h

/-! ### Every sequence of requests -/

theorem Untried.routesSafe {w : Machine} (h : Untried w) : RoutesSafe w := by
  intro _
  refine ⟨?_, ?_⟩
  · intro kind op hop
    rcases mem_listed.mp hop with ⟨r, hr, _⟩ | ⟨r, hr, _⟩
    · rw [h.journal] at hr
      cases hr
    · cases kind with
      | xray => simp [Machine.sessionRecord, h.xray] at hr
      | wireGuard => simp [Machine.sessionRecord, h.wireGuard] at hr
      | openVpn => simp [Machine.sessionRecord, h.openVpn] at hr
  · intro entry hentry
    rw [h.deleted] at hentry
    cases hentry

/-- Over any sequence of requests and events, crashes and restarts included, and at every point of
the last one: as long as `routesClean` is not lost, whatever was deleted was a row that the same
executor had added. -/
theorem only_own_routes_deleted {w t u : Machine} (hstart : Untried w)
    (hrun : Reaches handleCall (fun _ _ => True) w t) (request : TunnelRequest)
    (vs rest : List (Verdict Fault)) {outcome : Outcome TunnelError Unit}
    (hlast : runRequest request t vs = (outcome, u, rest)) (hclean : u.routesClean = true) :
    ∀ entry ∈ u.deleted, entry.2.owner = some entry.1 := by
  have ht : RoutesSafe t := by
    refine hrun.invariant (C := fun _ => True) hstart.routesSafe ?_
    intro v call hv _
    apply wp_restarting
    exact wp_mono (bookkeeping_routes.booked_runRequest call.1 hv) (fun _ _ hs => hs)
      (fun _ _ hs => hs) (fun _ hs => hs.restarted call.2)
  have hend := bookkeeping_routes.booked_runRequest request ht vs fun _ _ => trivial
  rw [hlast] at hend
  cases outcome with
  | ok _ => exact (hend.2 hclean).deleted
  | err _ => exact (hend.2 hclean).deleted
  | crash => exact (hend hclean).deleted

/-! ### A route of another VPN -/

/-- Half of all addresses. -/
def quayRow : RouteRow Component := ⟨⟨.v4 0x80000000 1, none, "utun9"⟩, none⟩

/-- Another VPN has a route. -/
def quayMachine : Machine := .initial (Table.empty.insert quayRow) []

theorem untried_initial {table : RouteTable Component} (h : ∀ row ∈ table, row.owner = none)
    (dns : List DnsLine) : Untried (.initial table dns) where
  journal _ := rfl
  xray := rfl
  wireGuard := rfl
  openVpn := rfl
  rows := h
  files _ hfile := by cases hfile
  guarded := rfl
  deleted := rfl

theorem untried_quayMachine : Untried quayMachine := by
  apply untried_initial
  decide

/-- A WireGuard tunnel for all of IPv4. -/
def quayConnect (networks : List IpNet) : TunnelRequest :=
  .wgConnect
    { uplink := some ⟨"en0", some 0xc0a80101⟩
      service := true
      resolves := fun _ => true
      tun := "utun10"
      helperPid := 90 }
    { uid := 501
      profileId := "quay"
      role := .primary
      config := .ok
        { addresses := []
          dnsServers := []
          peers := [⟨none, networks⟩]
          tableOff := false }
      routes := []
      dnsDomains := [] }

/-- The engine cannot start. -/
def quaySchedule : List (Verdict Fault) := List.replicate 5 .proceed ++ [.fail .other]

/-- A tunnel for other networks, whose second route cannot be added: the first one is deleted. -/
theorem quay_own_route_deleted :
    let after := (runRequest (quayConnect [.v4 0 1, .v6 0 1]) quayMachine
      (List.replicate 7 .proceed ++ [.fail .other])).2.1
    after.deleted ≠ [] ∧ ∀ entry ∈ after.deleted, entry.2.owner = some entry.1 :=
  ⟨by decide, only_own_routes_deleted untried_quayMachine .start _ _ _
    (eq_of_outcome (o := .err (.noRoute ⟨.v6 0 1, .interface "utun10", false⟩))
      (by decide)) (by decide)⟩

/-- The rollback of a connect deletes the other VPN's route. -/
theorem quay_foreign_route_deleted :
    ¬∀ w t u : Machine, Untried w → Reaches handleCall (fun _ _ => True) w t →
      ∀ (request : TunnelRequest) (vs rest : List (Verdict Fault))
        (outcome : Outcome TunnelError Unit), runRequest request t vs = (outcome, u, rest) →
        ∀ entry ∈ u.deleted, entry.2.owner = some entry.1 := by
  intro hall
  have hown := hall quayMachine quayMachine _ untried_quayMachine .start
    (quayConnect [.v4 0 0]) quaySchedule _ _
    (eq_of_outcome (o := .err (.unavailable "The WireGuard engine could not start"))
      (by decide)) (wgTunnel, quayRow) (by decide)
  cases hown

end NetOrchestrator.Macos
