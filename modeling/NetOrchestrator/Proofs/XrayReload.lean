import NetOrchestrator.Proofs.XrayConnect

/-!
# `Proofs.XrayReload`: reloading an unchanged profile

A reload restarts the child of a connected profile on a new configuration. It refuses when
the new plan asks for another network than the running one. The check takes the bypass
routes that the plan would like to have, while a connect records those that it could
install: it skips a host without an uplink of its family, and one that the kernel has a route
to already in the same slot. So a reload of the very same profile is refused wherever the connect
skipped one.

`reload_unchanged_iff` is the exact condition, and what an accepted reload leaves: the same
network, up to the index of the new TUN link.
-/

namespace NetOrchestrator.Daemon

open Net Lib Lib.Call List Bool Table

/-! ### The property -/

/-- Addresses and routes are on links that exist. -/
structure Kernel.Attached (k : Kernel) : Prop where
  addresses : ∀ address ∈ k.addresses, ∃ link ∈ k.links, link.index = address.1
  routes : ∀ row ∈ k.routes, ∀ n, row.rides n = true → ∃ link ∈ k.links, link.index = n

/-- Time passes between the connect and the reload. Links may appear and the uplinks may
change; names resolve as before. -/
structure Later (now later : DaemonCore) : Prop where
  journal : later.journal = now.journal
  executors : later.executors = now.executors
  xray : later.xray = now.xray
  resolver : later.resolver = now.resolver
  quicReject : later.quicReject = now.quicReject
  routes : later.kernel.routes = now.kernel.routes
  addresses : later.kernel.addresses = now.kernel.addresses
  links : ∀ link ∈ now.kernel.links, link ∈ later.kernel.links
  resolve : later.view.resolve = now.view.resolve
  dnsApply : later.view.dnsApply = now.view.dnsApply

/-- The route with the TUN link's index replaced. -/
def SystemRoute.rebind (old new : Nat) (r : SystemRoute) : SystemRoute :=
  { r with
    interfaceIndex := if r.interfaceIndex = some old then some new else r.interfaceIndex
    nexthops := r.nexthops.map fun hop =>
      if hop.interfaceIndex = old then { hop with interfaceIndex := new } else hop }

/-- The network of a reloaded profile: what it was, up to the index of the TUN link. -/
structure SameNetwork (before after : DaemonCore) (index : Nat) (name : String) (old new : Nat) :
    Prop where
  journal : after.journal = before.journal.modify index fun entry =>
    entry.setResources (entry.resources.map (OwnedResource.rebind old new))
  disk : after.disk = after.journal
  routes : ∀ route o, (∃ row ∈ after.kernel.routes, row.route = route ∧ row.origin = o) ↔
    ∃ row ∈ before.kernel.routes, row.route.rebind old new = route ∧ row.origin = o
  rules : after.kernel.rules = before.kernel.rules
  links : ∀ link, link ∈ after.kernel.links ↔ ∃ seen ∈ before.kernel.links,
    link = if seen.name = name then { seen with index := new } else seen
  addresses : ∀ address, address ∈ after.kernel.addresses ↔ ∃ seen ∈ before.kernel.addresses,
    address = if seen.1 = old then (new, seen.2) else seen
  resolver : after.resolver = before.resolver
  quicReject : after.quicReject = before.quicReject
  xray : after.xray = before.xray

/-- When the profile was connected, every host that the tunnel must reach directly had an
uplink of its family, other than the TUN link itself, and no route was in the slot of its
bypass. -/
def XrayPlan.Bypassed (plan : XrayPlan) (core : DaemonCore) : Prop :=
  ∀ ip ∈ plan.bypassTargets core.view, ∃ route,
    core.view.uplinkHostRoute ip xrayBypassMetric = some route ∧
      core.kernel.slotTaken route = false ∧
      route.interfaceIndex ≠ core.kernel.nextIndex

/-! ### The check -/

section
variable (plan : XrayPlan) (full : Option WireGuardFullResource) (uid mark : Nat) (owner : Owner)
  (core : DaemonCore) (link : Nat)

theorem ownedRoutes_resources : ownedRoutes (plan.resources full uid mark owner core link) =
      plan.bypasses core ++ plan.tunnelled full link := by
  have hdns : ∀ outcome, ownedRoutes (plan.dnsRecords link full.isSome outcome) = [] := fun o => by
    unfold XrayPlan.dnsRecords
    split <;> rfl
  have happend : ∀ a b, ownedRoutes (a ++ b) = ownedRoutes a ++ ownedRoutes b := fun a b =>
    filterMap_append
  show ownedRoutes (_ ++ _ ++ plan.dnsRecords link full.isSome _) = _
  rw [happend, happend, hdns]
  simp [ownedRoutes, filterMap_map]

theorem ownedAddresses_resources :
    ownedAddresses (plan.resources full uid mark owner core link) = [plan.address] := by
  have hdns : ∀ outcome, ownedAddresses (plan.dnsRecords link full.isSome outcome) = [] :=
    fun o => by
      unfold XrayPlan.dnsRecords
      split <;> rfl
  have happend : ∀ a b, ownedAddresses (a ++ b) = ownedAddresses a ++ ownedAddresses b :=
    fun a b => filterMap_append
  show plan.address :: ownedAddresses (_ ++ _ ++ plan.dnsRecords link full.isSome _) = _
  rw [happend, happend, hdns]
  simp [ownedAddresses, filterMap_map]

/-- The resources of a connected profile before its DNS record. -/
def XrayPlan.besidesDns (plan : XrayPlan) (full : Option WireGuardFullResource) (uid mark : Nat)
    (owner : Owner) (core : DaemonCore) (link : Nat) : List OwnedResource :=
  .xrayProcess { plan.process uid mark owner full with index := link } ::
    .address { interfaceIndex := link, address := plan.address } ::
    ((plan.bypasses core ++ plan.tunnelled full link).map .route ++
      (full.toList.flatMap fullPolicyRules).map .rule)

theorem resources_eq :
    plan.resources full uid mark owner core link = plan.besidesDns full uid mark owner core link ++
        plan.dnsRecords link full.isSome (core.view.dnsApply plan.name) := by
  simp [XrayPlan.resources, XrayPlan.besidesDns]

theorem findDns_append (a b : List OwnedResource) : findDns (a ++ b) = (findDns a).or (findDns b) :=
  findSome?_append

theorem findDns_besidesDns : findDns (plan.besidesDns full uid mark owner core link) = none := by
  have hroutes : ∀ l : List AppliedRoute, findDns (l.map .route) = none := fun l => by
    simp [findDns, findSome?_eq_none_iff]
  have hrules : ∀ l : List OwnedRuleResource, findDns (l.map .rule) = none := fun l => by
    simp [findDns, findSome?_eq_none_iff]
  show findDns (_ ++ _) = none
  rw [findDns_append, hroutes, hrules]
  rfl

theorem findDns_resources : findDns (plan.resources full uid mark owner core link) =
      findDns (plan.dnsRecords link full.isSome (core.view.dnsApply plan.name)) := by
  rw [resources_eq, findDns_append, findDns_besidesDns]
  rfl

theorem sameDns_resources : plan.sameDns (plan.resources full uid mark owner core link) = true := by
  unfold XrayPlan.sameDns
  rw [findDns_resources]
  unfold XrayPlan.dnsRecords
  by_cases hservers : plan.dnsServers.isEmpty = true
  · simp [hservers, findDns]
  · simp [hservers, findDns, XrayPlan.dnsRecord]

/-- The hosts whose bypass was installed beside the TUN link. -/
def bypassedBeside (ip : IpAddr) : Bool :=
  (bypassFor core.view core.kernel ip).any fun route => route.interfaceIndex != link

theorem filter_tunnelled :
    (plan.tunnelled full link).filter (fun route => route.interfaceIndex != link) = [] := by
  simp [XrayPlan.tunnelled, XrayPlan.appliedRoute, AppliedRoute.onLink]

theorem journaledBypasses_resources :
    journaledBypasses (plan.resources full uid mark owner core link) link =
      ((plan.bypassTargets core.view).filter (bypassedBeside core link)).map IpAddr.toNet := by
  rw [journaledBypasses, ownedRoutes_resources, filter_append, filter_tunnelled,
    append_nil, XrayPlan.bypasses]
  induction plan.bypassTargets core.view with
  | nil => rfl
  | cons ip rest ih =>
    cases hroute : bypassFor core.view core.kernel ip with
    | none =>
      have hout : bypassedBeside core link ip = false := by simp [bypassedBeside, hroute]
      rw [filterMap_cons_none hroute, filter_cons_of_neg (by simp [hout]), ih]
    | some route =>
      have hdest := destination_of_uplinkHostRoute (bypassFor_eq_some.mp hroute).1
      rw [filterMap_cons_some hroute]
      by_cases hlink : route.interfaceIndex = link
      · have hout : bypassedBeside core link ip = false := by
          simp [bypassedBeside, hroute, hlink]
        rw [filter_cons_of_neg (by simp [hlink]), filter_cons_of_neg (by simp [hout]), ih]
      · have hin : bypassedBeside core link ip = true := by
          simp [bypassedBeside, hroute, hlink]
        rw [filter_cons_of_pos (by simp [hlink]), filter_cons_of_pos (by simp [hin]),
          map_cons, map_cons, ih, hdest]

end

section
variable {plan : XrayPlan} {uid mark : Nat} {owner : Owner} {core : DaemonCore}

theorem bypassed_iff : plan.Bypassed core ↔
      ∀ ip ∈ plan.bypassTargets core.view, bypassedBeside core core.kernel.nextIndex ip = true := by
  refine forall_congr' fun ip => imp_congr_right fun _ => ?_
  simp only [bypassedBeside, Option.any_eq_true, bne_iff_ne, bypassFor_eq_some]
  constructor
  · rintro ⟨r, hr, hfree, hne⟩
    exact ⟨r, ⟨hr, hfree⟩, hne⟩
  · rintro ⟨r, ⟨hr, hfree⟩, hne⟩
    exact ⟨r, hr, hfree, hne⟩

/-- Every bypass that was installed leaves by an uplink. -/
theorem beside_of_bypassed {route : AppliedRoute} (h : plan.Bypassed core)
    (hroute : route ∈ plan.bypasses core) : route.interfaceIndex ≠ core.kernel.nextIndex := by
  obtain ⟨ip, hip, hsome⟩ := mem_filterMap.mp hroute
  have hany := bypassed_iff.mp h ip hip
  rw [bypassedBeside, hsome] at hany
  simpa using hany

/-- A selection is a rearrangement of the whole only where it selects everything. -/
theorem perm_filter_iff {α β : Type} {l : List α} {p : α → Bool} {f : α → β} :
    ((l.filter p).map f).Perm (l.map f) ↔ ∀ a ∈ l, p a = true := by
  constructor
  · intro h
    have hlength : (l.filter p).length = l.length := by simpa using h.length_eq
    exact filter_eq_self.mp (filter_sublist.eq_of_length hlength)
  · intro h
    rw [filter_eq_self.mpr h]

/-- With every bypass beside the link, the routes on the link are those of the plan. -/
theorem journaledTunnelRoutes_resources (h : plan.Bypassed core) : journaledTunnelRoutes
        (plan.resources (plan.fullTunnel mark) uid mark owner core core.kernel.nextIndex)
        core.kernel.nextIndex =
      plan.tunnelRoutes { plan.process uid mark owner (plan.fullTunnel mark) with
        index := core.kernel.nextIndex } := by
  have hbeside : (plan.bypasses core).filter
      (fun route => route.interfaceIndex == core.kernel.nextIndex) = [] := by
    rw [filter_eq_nil_iff]
    intro route hroute
    simpa using beside_of_bypassed h hroute
  have hon : (plan.tunnelled (plan.fullTunnel mark) core.kernel.nextIndex).filter
      (fun route => route.interfaceIndex == core.kernel.nextIndex) =
      plan.tunnelled (plan.fullTunnel mark) core.kernel.nextIndex := by
    simp [XrayPlan.tunnelled, XrayPlan.appliedRoute, AppliedRoute.onLink]
  rw [journaledTunnelRoutes, ownedRoutes_resources, filter_append, hbeside, hon,
    nil_append, XrayPlan.tunnelled, XrayPlan.tunnelRoutes, map_map]
  refine map_congr_left fun route _ => ?_
  simp only [Function.comp_apply, XrayPlan.appliedRoute, AppliedRoute.onLink, XrayPlan.process,
    XrayPlan.fullTunnel]
  by_cases hfull : (plan.fullIpv4 || plan.fullIpv6) = true
  · rw [if_pos hfull]
    by_cases hroute : isFullRoute plan.fullIpv4 plan.fullIpv6 route.destination = true
    · simp [fullResource, hroute]
    · simp [fullResource, hroute]
  · rw [if_neg hfull]
    simp

theorem bypassTargets_congr {view view' : View} (h : view'.resolve = view.resolve) :
    plan.bypassTargets view' = plan.bypassTargets view := by
  have hhost : view'.resolveHostAddrs = view.resolveHostAddrs := by
    funext host
    simp only [View.resolveHostAddrs, h]
  simp only [XrayPlan.bypassTargets, hhost]

/-- The check accepts the plan of the running profile exactly when no bypass was skipped. -/
theorem reloadCompatible_iff {view : View} (hresolve : view.resolve = core.view.resolve) :
    reloadCompatible view
        (plan.resources (plan.fullTunnel mark) uid mark owner core core.kernel.nextIndex) plan
        { plan.process uid mark owner (plan.fullTunnel mark) with
          index := core.kernel.nextIndex } = true ↔ plan.Bypassed core := by
  have hbypasses := journaledBypasses_resources plan (plan.fullTunnel mark) uid mark owner core
    core.kernel.nextIndex
  have hperm : (journaledBypasses
      (plan.resources (plan.fullTunnel mark) uid mark owner core core.kernel.nextIndex)
      core.kernel.nextIndex).isPerm ((plan.bypassTargets view).map IpAddr.toNet) = true ↔
      plan.Bypassed core := by
    rw [isPerm_iff, hbypasses, bypassTargets_congr hresolve, perm_filter_iff, bypassed_iff]
  have hfull : plan.fullIpv4 = (plan.fullTunnel mark).any WireGuardFullResource.ipv4 ∧
      plan.fullIpv6 = (plan.fullTunnel mark).any WireGuardFullResource.ipv6 := by
    unfold XrayPlan.fullTunnel
    cases plan.fullIpv4 <;> cases plan.fullIpv6 <;> simp [fullResource]
  unfold reloadCompatible
  rw [and_eq_true, hperm]
  constructor
  · exact fun h => h.2
  · intro h
    refine ⟨?_, h⟩
    rw [journaledTunnelRoutes_resources h, sameDns_resources, ownedAddresses_resources]
    simp [XrayPlan.process, ← hfull.1, ← hfull.2, isPerm_iff]

end

/-! ### The entry on the new link -/

section
variable {plan : XrayPlan} {full : Option WireGuardFullResource} {uid mark : Nat} {owner : Owner}
  {core : DaemonCore} {link : Nat}

/-- Re-pointing the entry gives the entry of a connect on the new link. -/
theorem map_rebind_resources (h : plan.Bypassed core) :
    (plan.resources full uid mark owner core core.kernel.nextIndex).map
        (OwnedResource.rebind core.kernel.nextIndex link) =
      plan.resources full uid mark owner core link := by
  have hbypasses : (plan.bypasses core).map
      (OwnedResource.rebind core.kernel.nextIndex link ∘ .route) =
      (plan.bypasses core).map .route := by
    refine map_congr_left fun route hroute => ?_
    simp [OwnedResource.rebind, beside_of_bypassed h hroute]
  have htunnelled : (plan.tunnelled full core.kernel.nextIndex).map
      (OwnedResource.rebind core.kernel.nextIndex link ∘ .route) =
      (plan.tunnelled full link).map .route := by
    simp [XrayPlan.tunnelled, OwnedResource.rebind, XrayPlan.appliedRoute, AppliedRoute.onLink]
  have hdns : ∀ outcome, (plan.dnsRecords core.kernel.nextIndex full.isSome outcome).map
      (OwnedResource.rebind core.kernel.nextIndex link) =
      plan.dnsRecords link full.isSome outcome := by
    intro outcome
    unfold XrayPlan.dnsRecords
    split
    · rfl
    · simp [OwnedResource.rebind, XrayPlan.dnsRecord]
  simp only [XrayPlan.resources, map_cons, map_append, map_map, hbypasses,
    htunnelled, hdns, append_assoc]
  simp [OwnedResource.rebind, Function.comp_def]

theorem map_setProcessMtu_resources :
    (plan.resources full uid mark owner core link).map (setProcessMtu plan.mtu) =
      plan.resources full uid mark owner core link := by
  have hdns : ∀ outcome, (plan.dnsRecords link full.isSome outcome).map (setProcessMtu plan.mtu) =
      plan.dnsRecords link full.isSome outcome := by
    intro outcome
    unfold XrayPlan.dnsRecords
    split <;> rfl
  simp only [XrayPlan.resources, map_cons, map_append, map_map, hdns]
  simp [setProcessMtu, Function.comp_def, XrayPlan.process]

theorem setDnsApplied_append {applied : Bool} {a b : List OwnedResource} (h : findDns a = none) :
    setDnsApplied applied (a ++ b) = a ++ setDnsApplied applied b := by
  induction a with
  | nil => rfl
  | cons x rest ih =>
    rw [findDns, findSome?_cons] at h
    cases x with
    | dns dns => cases h
    | _ => simp only [cons_append, setDnsApplied, ih h]

end

/-! ### The kernel through a restart -/

section
variable {k : Kernel} {tun : KernelLink}

theorem lt_nextIndex {link : KernelLink} (h : link ∈ k.links) : link.index < k.nextIndex := by
  have hfold : ∀ (l : List KernelLink) (n : Nat),
      n ≤ l.foldl (fun acc link => max acc link.index) n ∧
        ∀ link ∈ l, link.index ≤ l.foldl (fun acc link => max acc link.index) n := by
    intro l
    induction l with
    | nil => simp
    | cons a rest ih =>
      intro n
      obtain ⟨hle, hall⟩ := ih (max n a.index)
      refine ⟨le_trans (le_max_left ..) hle, fun link hlink => ?_⟩
      rcases mem_cons.mp hlink with rfl | hlink
      · exact le_trans (le_max_right ..) hle
      · exact hall link hlink
  have := (hfold k.links.rows 0).2 link h
  unfold Kernel.nextIndex
  omega

section
variable (htun : tun ∈ k.links) (hkind : tun.kind = .tun)
include htun hkind

variable {link : KernelLink}

/-- By its name and kind, the restart finds exactly the TUN link. -/
theorem selects_tun (hlink : link ∈ k.links) :
    (link.name == tun.name && link.kind == .tun) = true ↔ link = tun := by
  simp only [and_eq_true, beq_iff_eq]
  constructor
  · rintro ⟨hname, -⟩
    exact eq_of_key_eq hlink htun hname
  · rintro rfl
    exact ⟨rfl, hkind⟩

theorem mem_gone {n : Nat} :
    n ∈ (k.links.rows.filter fun link => link.name == tun.name && link.kind == .tun).map
        KernelLink.index ↔ n = tun.index := by
  simp only [mem_map, mem_filter]
  constructor
  · rintro ⟨link, ⟨hlink, hselects⟩, rfl⟩
    rw [(selects_tun htun hkind hlink).mp hselects]
  · rintro rfl
    exact ⟨tun, ⟨htun, (selects_tun htun hkind htun).mpr rfl⟩, rfl⟩

theorem mem_dropTun_links : link ∈ (k.dropTun tun.name).links ↔ link ∈ k.links ∧ link ≠ tun := by
  show link ∈ k.links.drop _ ↔ _
  rw [mem_drop]
  refine and_congr_right fun hlink => ?_
  rw [← not_eq_true, selects_tun htun hkind hlink]

theorem mem_dropTun_routes {row : KernelRoute} :
    row ∈ (k.dropTun tun.name).routes ↔ row ∈ k.routes ∧ row.rides tun.index = false := by
  show row ∈ k.routes.drop _ ↔ _
  rw [mem_drop]
  refine and_congr_right fun _ => ?_
  rw [← not_eq_true, ← not_eq_true, any_eq_true]
  refine not_congr ⟨?_, fun h => ⟨tun.index, (mem_gone htun hkind).mpr rfl, h⟩⟩
  rintro ⟨n, hn, hrides⟩
  rwa [(mem_gone htun hkind).mp hn] at hrides

theorem mem_dropTun_addresses {address : Nat × IpNet} :
    address ∈ (k.dropTun tun.name).addresses ↔ address ∈ k.addresses ∧ address.1 ≠ tun.index := by
  show address ∈ k.addresses.filter _ ↔ _
  rw [mem_filter]
  refine and_congr_right fun _ => ?_
  rw [not_eq_true', ← not_eq_true, contains_iff_mem, mem_gone htun hkind]

theorem unnamed_dropTun : (k.dropTun tun.name).links.has tun.name = false := by
  rw [has_eq_false_iff]
  intro link hlink hname
  obtain ⟨hin, hne⟩ := (mem_dropTun_links htun hkind).mp hlink
  exact hne (eq_of_key_eq hin htun hname)

end

/-- The index of the new link is on nothing that survived the old one. -/
theorem unused_of_attached (hattached : k.Attached) (htun : tun ∈ k.links) (hkind : tun.kind = .tun) :
    (∀ row ∈ (k.dropTun tun.name).routes, row.rides (k.dropTun tun.name).nextIndex = false) ∧
      ∀ address ∈ (k.dropTun tun.name).addresses, address.1 ≠ (k.dropTun tun.name).nextIndex := by
  have hlink : ∀ link ∈ k.links, link.index = (k.dropTun tun.name).nextIndex → link = tun := by
    intro link hin hindex
    by_contra hne
    have := lt_nextIndex ((mem_dropTun_links htun hkind).mpr ⟨hin, hne⟩)
    omega
  constructor
  · intro row hrow
    obtain ⟨hin, hfree⟩ := (mem_dropTun_routes htun hkind).mp hrow
    rw [← not_eq_true]
    intro hrides
    obtain ⟨link, hmem, hindex⟩ := hattached.routes row hin _ hrides
    rw [← hindex, hlink link hmem hindex, hfree] at hrides
    cases hrides
  · intro address haddress hindex
    obtain ⟨hin, hfree⟩ := (mem_dropTun_addresses htun hkind).mp haddress
    obtain ⟨link, hmem, heq⟩ := hattached.addresses address hin
    have hsame := hlink link hmem (heq.trans hindex)
    exact hfree (heq.symm.trans (congrArg KernelLink.index hsame))

end

/-! ### The undisturbed reload -/

section
variable {base now : DaemonCore} {entry : JournalEntry}
variable {α : Type} {m : Prog α} {link : Nat} {plan : XrayPlan}

theorem Succeeds.bind {β : Type} {f : α → Prog β} {R : α → DaemonCore → Prop}
    {Q : β → DaemonCore → Prop} (hm : Succeeds m R now)
    (hf : ∀ a now', R a now' → Succeeds (f a) Q now') : Succeeds (m >>= f) Q now :=
  wp_then hm hf

theorem succeeds_xrayStage {stage : String} {Q : α → DaemonCore → Prop}
    (h : Succeeds m Q now) : Succeeds (xrayStage stage m) Q now :=
  wp_tried (wp_sure h (fun _ _ hq => wp_pure hq))

theorem succeeds_query {answer : DaemonCore → Except IoError α} {a : α} (h : answer now = .ok a) :
    Succeeds (query answer) (fun a' now' => a' = a ∧ now' = now) now := by
  refine wp_query (fun hf => by cases hf) (fun _ hf => by cases hf) ?_ ?_
  · intro a' ha'
    rw [h] at ha'
    cases ha'
    exact ⟨rfl, rfl⟩
  · intro e he
    rw [h] at he
    cases he

namespace Entered

variable (h : Entered base entry now)
include h

theorem updated (f : JournalEntry → JournalEntry) :
    Succeeds (updateEntry base.journal.length f) (fun _ => Entered base (f entry)) now := by
  obtain ⟨d, rfl⟩ := h
  refine wp_updateEntry ⟨d, ?_⟩
  rw [modify_append_length]

theorem saved : Succeeds Daemon.save
      (fun _ now' => Entered base entry now' ∧ now'.disk = now'.journal) now := by
  obtain ⟨d, rfl⟩ := h
  exact wp_save (fun hf => by cases hf) (fun _ hf => by cases hf) (fun _ hf => by cases hf)
    ⟨⟨_, rfl⟩, rfl⟩

theorem read :
    Succeeds (Daemon.entryAt base.journal.length) (fun e now' => e = entry ∧ now' = now) now := by
  obtain ⟨d, rfl⟩ := h
  refine wp_entryAt (fun e he => ⟨?_, rfl⟩) (fun hf => ?_)
  · simpa using he.symm
  · simp at hf

theorem asked {α : Type} {a : α} (request : Kernel → Reply α)
    (hok : (request base.kernel).1 = .ok a) :
    Succeeds (Daemon.onKernel request) (fun a' now' => a' = a ∧
        Entered { base with kernel := (request base.kernel).2 } entry now') now := by
  obtain ⟨d, rfl⟩ := h
  refine wp_onKernel (fun hf => by cases hf) (fun _ hf => by cases hf) ?_ ?_
  · intro a' ha'
    rw [hok] at ha'
    cases ha'
    exact ⟨rfl, d, rfl⟩
  · intro e he
    rw [hok] at he
    cases he

end Entered

section
variable (h : Entered base entry now)
include h

theorem succeeds_adjust : Succeeds adjust (fun _ => Entered base entry) now := by
  refine wp_post (succeeds_query rfl) ?_
  rintro _ now' ⟨-, rfl⟩
  exact h

/-- A QUIC reject that is in place stays as it is. -/
theorem succeeds_ensureXrayQuic (hquic : ∀ process, findQuicProcess entry.resources = some process →
      base.executors.quicReject = true ∧
        base.quicReject.contains (entry.uid, process.name) = true) :
    Succeeds (ensureXrayQuic base.journal.length) (fun _ => Entered base entry) now := by
  refine Succeeds.bind h.read ?_
  rintro e now' ⟨rfl, rfl⟩
  cases hfound : findQuicProcess e.resources with
  | none => exact wp_pure h
  | some process =>
    obtain ⟨hexecutor, hin⟩ := hquic process hfound
    obtain ⟨d, rfl⟩ := h
    refine wp_read ?_
    dsimp only
    rw [if_pos hexecutor]
    refine wp_step (fun hf => by cases hf) (fun _ hf => by cases hf) ?_ ?_
    · intro _ s' hstep
      dsimp only at hstep
      rw [if_pos hin] at hstep
      cases hstep
      exact ⟨d, rfl⟩
    · intro e s' hstep
      dsimp only at hstep
      rw [if_pos hin] at hstep
      cases hstep

theorem succeeds_tunLink {link : Nat} (stage name : String)
    (hlink : base.kernel.linkIndex name = some link) :
    Succeeds (tunLink stage name) (fun l now' => l = link ∧ Entered base entry now') now := by
  have hkernel : now.kernel = base.kernel := by
    obtain ⟨d, rfl⟩ := h
    rfl
  have hasked : Succeeds (runnerLinkIndex name)
      (fun found now' => found = some link ∧ now' = now) now := by
    refine succeeds_query ?_
    rw [hkernel, hlink]
  refine Succeeds.bind (succeeds_xrayStage hasked) ?_
  rintro found now' ⟨rfl, rfl⟩
  exact wp_pure ⟨rfl, h⟩

/-- The restart puts a fresh TUN link in the place of the old one. -/
theorem succeeds_xrayRestart (o : Origin) (uid : Nat) (name : String)
    (hstaged : base.xray.staged uid name = true)
    (hlast : base.xray.children.filter (fun child => child.2 != name) ++ [(uid, name)] =
      base.xray.children) : Succeeds (xrayRestart o uid name)
      (fun _ => Entered { base with kernel := (base.kernel.dropTun name).addTun o name } entry)
      now := by
  obtain ⟨d, rfl⟩ := h
  refine wp_step (fun hf => by cases hf) (fun _ hf => by cases hf) ?_ ?_
  · intro _ s' hstep
    dsimp only at hstep
    rw [if_pos hstaged, hlast] at hstep
    cases hstep
    exact ⟨d, rfl⟩
  · intro e s' hstep
    dsimp only at hstep
    rw [if_pos hstaged] at hstep
    cases hstep

end

/-! ### Moving the entry to the new link -/

def OwnedResource.isAddress : OwnedResource → Bool
  | .address _ => true
  | _ => false

/-- The routes that `rebind_xray_link` adds again. -/
def OwnedResource.onLink (link : Nat) : OwnedResource → Bool
  | .route r => decide (r.interfaceIndex = link ∧ r.gateway = none)
  | _ => false

theorem succeeds_rebindMtu (h : Entered base entry now) (resource : OwnedResource) :
    Succeeds (rebindMtu resource) (fun _ => Entered base entry) now := by
  cases resource with
  | xrayProcess process =>
    rw [rebindMtu, adjustIf]
    split
    · exact succeeds_adjust h
    · exact wp_pure h
  | _ => exact wp_pure h

theorem succeeds_rebindAddress {address : WireGuardAddressResource} (h : Entered base entry now)
    (hwg : base.executors.wg = true) (hfree : (link, address.address) ∉ base.kernel.addresses) :
    Succeeds (rebindAddress link (.address address))
      (fun _ => Entered { base with kernel := { base.kernel with
        addresses := base.kernel.addresses ++ [(link, address.address)] } } entry) now := by
  have hexecutor : now.executors.wg = true := by
    obtain ⟨d, rfl⟩ := h
    exact hwg
  have hout : ¬ base.kernel.addresses.contains (link, address.address) = true := by
    simpa using hfree
  have hadd : base.kernel.addAddress link address.address =
      (.ok (), { base.kernel with
        addresses := base.kernel.addresses ++ [(link, address.address)] }) := by
    unfold Kernel.addAddress
    rw [if_neg hout]
  refine wp_read ?_
  dsimp only
  rw [if_pos hexecutor]
  have hasked := h.asked (·.addAddress link address.address) (by rw [hadd])
  rw [hadd] at hasked
  exact wp_post hasked (fun _ _ h' => h'.2)

/-- Routes on the new link, to free slots, are all added. -/
theorem succeeds_rebindRoutes {routes : List AppliedRoute} (h : Entered base entry now) (o : Origin)
    (link : Nat) (hroutes : ∀ r ∈ routes, r.interfaceIndex = link ∧ r.gateway = none)
    (hslots : ∀ r ∈ routes, base.kernel.slotTaken r = false)
    (hnodup : (routes.map fun r => r.key.slot).Nodup) :
    Succeeds (Call.forEach (rebindRoute o link) (routes.map .route))
      (fun _ now' => ∃ k, base.kernel.Adds k o routes ∧
        Entered { base with kernel := k } entry now') now := by
  refine wp_post (wp_forEach
    (J := fun rest now' => ∃ done todo k, routes = done ++ todo ∧ rest = todo.map .route ∧
      base.kernel.Adds k o done ∧ Entered { base with kernel := k } entry now')
    ?_ ?_) ?_
  · rintro resource rest now' ⟨done, todo, k, rfl, hrest, hadds, hentered⟩
    obtain ⟨r, todo, rfl⟩ : ∃ r todo', todo = r :: todo' := by
      cases todo with
      | nil => cases hrest
      | cons r todo => exact ⟨r, todo, rfl⟩
    rw [map_cons, List.cons.injEq] at hrest
    obtain ⟨rfl, rfl⟩ := hrest
    have hin : r ∈ done ++ r :: todo := by simp
    rw [map_append, nodup_append] at hnodup
    -- Nothing that the loop added before has this slot.
    have hfree : k.slotTaken r = false := by
      rw [hadds.slotTaken_eq_false]
      refine ⟨hslots r hin, fun r' hr' hslot => ?_⟩
      exact hnodup.2.2 r'.key.slot (mem_map_of_mem hr') r.key.slot (by simp) hslot
    have hok : (k.addRouteExclusive o r).1 = .ok () := addRouteExclusive_ok_iff.mpr hfree
    rw [rebindRoute, if_pos (hroutes r hin)]
    have hasked := hentered.asked (·.addRouteExclusive o r) hok
    refine wp_tolerate (wp_sure hasked ?_)
    rintro _ now'' ⟨-, hstep⟩
    exact ⟨done ++ [r], todo, _, by simp, rfl, hadds.add hok, hstep⟩
  · exact ⟨[], routes, base.kernel, rfl, rfl, .refl _ _, h⟩
  · rintro _ now' ⟨done, todo, k, rfl, htodo, hadds, hentered⟩
    obtain rfl : todo = [] := by simpa using htodo.symm
    rw [append_nil]
    exact ⟨k, hadds, hentered⟩

/-- The resolver has the settings of the plan. -/
def XrayPlan.Resolved (plan : XrayPlan) (full : Bool) (core : DaemonCore) : Prop :=
  plan.resolver full core = core.resolver

theorem resolved_resolver (plan : XrayPlan) (full : Bool) (core : DaemonCore) :
    plan.Resolved full { core with resolver := plan.resolver full core } := by
  unfold XrayPlan.Resolved XrayPlan.resolver
  split
  · simp [filter_append, filter_filter]
  · rfl

/-- Handing the resolver the settings it has changes nothing. -/
theorem succeeds_dnsApply {full : Bool} (h : Entered base entry now)
    (hservers : plan.dnsServers.isEmpty = false) (hresolved : plan.Resolved full base) :
    Succeeds (dnsApply plan.name plan.dnsServers plan.dnsDomains full)
      (fun outcome now' => outcome = base.view.dnsApply plan.name ∧ Entered base entry now')
      now := by
  obtain ⟨d, rfl⟩ := h
  unfold XrayPlan.Resolved XrayPlan.resolver at hresolved
  rw [hservers] at hresolved
  refine wp_step (fun hf => by cases hf) (fun _ hf => by cases hf) ?_ ?_
  · intro outcome s' hstep
    dsimp only at hstep
    cases houtcome : base.view.dnsApply plan.name with
    | applied =>
      rw [houtcome] at hresolved
      simp only [houtcome] at hstep
      rw [show base.resolver.filter (fun setting => setting.1 != plan.name) ++
        [(plan.name, plan.dnsServers, plan.dnsDomains, full)] = base.resolver from hresolved]
        at hstep
      cases hstep
      exact ⟨rfl, d, rfl⟩
    | unavailable =>
      simp only [houtcome] at hstep
      cases hstep
      exact ⟨rfl, d, rfl⟩
    | skipped =>
      simp only [houtcome] at hstep
      cases hstep
      exact ⟨rfl, d, rfl⟩
  · intro e s' hstep
    dsimp only at hstep
    cases houtcome : base.view.dnsApply plan.name with
    | _ =>
      simp only [houtcome] at hstep
      cases hstep

/-- The DNS record already says what the resolver answers. -/
theorem succeeds_rebindDns {full : Option WireGuardFullResource}
    {before : List OwnedResource} (h : Entered base entry now) (hresources : entry.resources =
      before ++ plan.dnsRecords link full.isSome (base.view.dnsApply plan.name))
    (hbefore : findDns before = none)
    (hexecutor : plan.dnsServers.isEmpty = true ∨ base.executors.dns = true)
    (hresolved : plan.Resolved full.isSome base) :
    Succeeds (rebindDns base.journal.length entry.resources) (fun _ => Entered base entry) now := by
  have hfound : findDns entry.resources =
      findDns (plan.dnsRecords link full.isSome (base.view.dnsApply plan.name)) := by
    rw [hresources, findDns_append, hbefore]
    rfl
  unfold rebindDns
  rw [hfound]
  cases hservers : plan.dnsServers.isEmpty with
  | true =>
    rw [XrayPlan.dnsRecords, if_pos hservers]
    exact wp_pure h
  | false =>
    have hrecords : plan.dnsRecords link full.isSome (base.view.dnsApply plan.name) =
        [.dns (plan.dnsRecord link full.isSome (base.view.dnsApply plan.name == .applied))] := by
      rw [XrayPlan.dnsRecords, hservers]
      rfl
    have hdns : now.executors.dns = true := by
      obtain ⟨d, rfl⟩ := h
      simpa [hservers] using hexecutor
    rw [hrecords]
    refine wp_read ?_
    dsimp only
    rw [if_pos hdns]
    have happly := succeeds_dnsApply h hservers hresolved
    refine wp_tried (wp_sure happly ?_)
    rintro outcome now₁ ⟨rfl, h₁⟩
    have hsame : entry.setResources (setDnsApplied (base.view.dnsApply plan.name == .applied)
        entry.resources) = entry := by
      rw [hresources, setDnsApplied_append hbefore, hrecords]
      show { entry with resources := _ } = entry
      rw [show (setDnsApplied _ [OwnedResource.dns (plan.dnsRecord link full.isSome
        (base.view.dnsApply plan.name == .applied))]) = _ from rfl]
      cases entry
      simp only at hresources
      subst hresources
      rw [hrecords]
      rfl
    refine Succeeds.bind (h₁.updated _) fun _ now₂ h₂ => ?_
    have h₃ : Entered base entry now₂ := by
      cases houtcome : base.view.dnsApply plan.name with
      | _ =>
        rw [houtcome] at h₂ hsame
        exact (congrArg (fun e => Entered base e now₂) hsame).mp h₂
    exact wp_post h₃.saved (fun _ _ h' => h'.1)

end

section
variable {base now core : DaemonCore} {uid mark : Nat} {owner : Owner} {plan : XrayPlan}
  {full : Option WireGuardFullResource} {link : Nat}

theorem filter_isAddress_resources :
    (plan.resources full uid mark owner core link).filter OwnedResource.isAddress =
      [.address { interfaceIndex := link, address := plan.address }] := by
  have hdns : ∀ outcome,
      (plan.dnsRecords link full.isSome outcome).filter OwnedResource.isAddress = [] := by
    intro outcome
    unfold XrayPlan.dnsRecords
    split <;> rfl
  have hroutes : ∀ l : List AppliedRoute,
      (l.map OwnedResource.route).filter OwnedResource.isAddress = [] := fun l => by
    simp [filter_map, Function.comp_def, OwnedResource.isAddress]
  have hrules : ∀ l : List OwnedRuleResource,
      (l.map OwnedResource.rule).filter OwnedResource.isAddress = [] := fun l => by
    simp [filter_map, Function.comp_def, OwnedResource.isAddress]
  simp only [XrayPlan.resources, filter_cons, filter_append, hroutes, hrules, hdns,
    OwnedResource.isAddress]
  rfl

theorem filter_onLink_resources
    (hbeside : ∀ route ∈ plan.bypasses core, route.interfaceIndex ≠ link) :
    (plan.resources full uid mark owner core link).filter (OwnedResource.onLink link) =
      (plan.tunnelled full link).map .route := by
  have hdns : ∀ outcome,
      (plan.dnsRecords link full.isSome outcome).filter (OwnedResource.onLink link) = [] := by
    intro outcome
    unfold XrayPlan.dnsRecords
    split <;> rfl
  have hrules : ∀ l : List OwnedRuleResource,
      (l.map OwnedResource.rule).filter (OwnedResource.onLink link) = [] := fun l => by
    simp [filter_map, Function.comp_def, OwnedResource.onLink]
  have hbypasses : ((plan.bypasses core).map OwnedResource.route).filter
      (OwnedResource.onLink link) = [] := by
    rw [filter_eq_nil_iff]
    intro resource hresource
    obtain ⟨route, hroute, rfl⟩ := mem_map.mp hresource
    simp [OwnedResource.onLink, hbeside route hroute]
  have htunnelled : ((plan.tunnelled full link).map OwnedResource.route).filter
      (OwnedResource.onLink link) = (plan.tunnelled full link).map .route := by
    simp [XrayPlan.tunnelled, filter_eq_self, OwnedResource.onLink, XrayPlan.appliedRoute,
      AppliedRoute.onLink]
  simp only [XrayPlan.resources, filter_cons, filter_append, map_append, hbypasses,
    htunnelled, hrules, hdns, OwnedResource.onLink]
  simp

theorem findQuicProcess_resources : findQuicProcess (plan.resources full uid mark owner core link) =
      if plan.rejectQuic then some { plan.process uid mark owner full with index := link }
      else none := by
  have hdns : ∀ outcome,
      findQuicProcess (plan.dnsRecords link full.isSome outcome) = none := by
    intro outcome
    unfold XrayPlan.dnsRecords
    split <;> rfl
  have happend : ∀ a b, findQuicProcess (a ++ b) = (findQuicProcess a).or (findQuicProcess b) :=
    fun a b => findSome?_append
  have hroutes : ∀ l : List AppliedRoute, findQuicProcess (l.map .route) = none := fun l => by
    simp [findQuicProcess, findSome?_eq_none_iff]
  have hrules : ∀ l : List OwnedRuleResource, findQuicProcess (l.map .rule) = none := fun l => by
    simp [findQuicProcess, findSome?_eq_none_iff]
  have hrest : findQuicProcess ((plan.bypasses core ++ plan.tunnelled full link).map .route ++
      (full.toList.flatMap fullPolicyRules).map .rule ++
      plan.dnsRecords link full.isSome (core.view.dnsApply plan.name)) = none := by
    rw [happend, happend, hroutes, hrules, hdns]
    rfl
  cases hreject : plan.rejectQuic with
  | true => exact findQuicProcess_process plan uid mark owner full link _ hreject
  | false =>
    have hskip : (plan.process uid mark owner full).rejectQuic = false := hreject
    simpa [findQuicProcess, XrayPlan.resources, hskip] using hrest

/-- What `rebind_xray_link` finds on a kernel with the new link. -/
structure Rebindable (base : DaemonCore) (plan : XrayPlan)
    (full : Option WireGuardFullResource) (core : DaemonCore) (link : Nat) : Prop where
  wg : base.executors.wg = true
  unaddressed : (link, plan.address) ∉ base.kernel.addresses
  beside : ∀ route ∈ plan.bypasses core, route.interfaceIndex ≠ link
  free : ∀ r ∈ plan.tunnelled full link, base.kernel.slotTaken r = false
  slots : ((plan.tunnelled full link).map fun r => r.key.slot).Nodup
  dnsApply : base.view.dnsApply = core.view.dnsApply
  dns : plan.dnsServers.isEmpty = true ∨ base.executors.dns = true
  resolved : plan.Resolved full.isSome base

/-- The kernel of `base` with the address and the routes of the plan on the new link. -/
structure Rebound (base : Kernel) (k : Kernel) (o : Origin) (plan : XrayPlan)
    (full : Option WireGuardFullResource) (link : Nat) : Prop where
  routes : base.Extends k o (plan.tunnelled full link)
  addresses : k.addresses = base.addresses ++ [(link, plan.address)]

/-- The entry of a connected profile on this link. -/
def XrayPlan.entry (plan : XrayPlan) (full : Option WireGuardFullResource) (uid mark : Nat)
    (owner : Owner) (core : DaemonCore) (link : Nat) : JournalEntry :=
  ⟨uid, owner, .applied, plan.resources full uid mark owner core link⟩

theorem succeeds_rebindXrayLink (hbypassed : plan.Bypassed core)
    (h : Entered base (plan.entry full uid mark owner core core.kernel.nextIndex) now)
    (hbase : Rebindable base plan full core link) (hquic : plan.rejectQuic = true →
      base.executors.quicReject = true ∧ base.quicReject.contains (uid, plan.name) = true) :
    Succeeds (rebindXrayLink base.journal.length core.kernel.nextIndex link)
      (fun _ now' => ∃ k, Rebound base.kernel k (.daemon uid owner) plan full link ∧
        Entered { base with kernel := k } (plan.entry full uid mark owner core link) now') now := by
  have hmoved : (plan.entry full uid mark owner core core.kernel.nextIndex).setResources
      ((plan.entry full uid mark owner core core.kernel.nextIndex).resources.map
        (OwnedResource.rebind core.kernel.nextIndex link)) =
      plan.entry full uid mark owner core link := by
    show (⟨_, _, _, _⟩ : JournalEntry) = _
    rw [XrayPlan.entry, map_rebind_resources hbypassed]
    rfl
  refine Succeeds.bind (h.updated _) fun _ now₁ h₁ => ?_
  rw [hmoved] at h₁
  refine Succeeds.bind h₁.saved ?_
  rintro _ now₂ ⟨h₂, -⟩
  refine Succeeds.bind h₂.read ?_
  rintro entry now₃ ⟨rfl, rfl⟩
  -- The address.
  have haddress : Succeeds
      (Call.forEach (rebindAddress link) (plan.entry full uid mark owner core link).resources)
      (fun _ => Entered { base with kernel := { base.kernel with
          addresses := base.kernel.addresses ++ [(link, plan.address)] } }
        (plan.entry full uid mark owner core link)) now₃ := by
    rw [forEach_filter (p := OwnedResource.isAddress) (fun a ha => by
      cases a with
      | address _ => cases ha
      | _ => rfl)]
    rw [XrayPlan.entry, filter_isAddress_resources]
    refine Succeeds.bind (succeeds_rebindAddress h₂ hbase.wg hbase.unaddressed) fun _ now' h' => ?_
    exact wp_pure h'
  refine Succeeds.bind haddress fun _ now₄ h₄ => ?_
  refine Succeeds.bind (succeeds_adjust h₄) fun _ now₅ h₅ => ?_
  have hmtu : Succeeds
      (Call.forEach rebindMtu (plan.entry full uid mark owner core link).resources) _ now₅ :=
    wp_forEach (J := fun _ => Entered _ _) (fun resource rest now' h' => succeeds_rebindMtu h' resource) h₅
  refine Succeeds.bind hmtu fun _ now₆ h₆ => ?_
  have hensured := succeeds_ensureXrayQuic h₆ (fun process hprocess => by
    cases hreject : plan.rejectQuic with
    | false =>
      rw [XrayPlan.entry, findQuicProcess_resources, hreject] at hprocess
      cases hprocess
    | true =>
      rw [XrayPlan.entry, findQuicProcess_resources, hreject] at hprocess
      cases hprocess
      exact hquic hreject)
  refine Succeeds.bind hensured fun _ now₇ h₇ => ?_
  -- The routes on the link; the bypass routes stay where they are.
  have hroutes : Succeeds (Call.forEach (rebindRoute (.daemon uid owner) link)
        (plan.entry full uid mark owner core link).resources)
      (fun _ now' => ∃ k, Rebound base.kernel k (.daemon uid owner) plan full link ∧
        Entered { base with kernel := k } (plan.entry full uid mark owner core link) now') now₇ := by
    rw [forEach_filter (p := OwnedResource.onLink link) (fun a ha => by
      cases a with
      | route r => rw [rebindRoute, if_neg (by simpa [OwnedResource.onLink] using ha)]
      | _ => rfl)]
    rw [XrayPlan.entry, filter_onLink_resources hbase.beside]
    have hon : ∀ r ∈ plan.tunnelled full link, r.interfaceIndex = link ∧ r.gateway = none := by
      intro r hr
      obtain ⟨route, -, rfl⟩ := mem_map.mp hr
      exact ⟨rfl, rfl⟩
    have hadded := succeeds_rebindRoutes h₇ (.daemon uid owner) link hon hbase.free hbase.slots
    refine wp_post hadded ?_
    rintro _ now' ⟨k, hadds, h'⟩
    exact ⟨k, ⟨⟨hadds.routes.fresh, hadds.routes.nodup, hadds.routes.mem, hadds.routes.rules,
      hadds.routes.links⟩, hadds.addresses⟩, h'⟩
  refine Succeeds.bind hroutes ?_
  rintro _ now₈ ⟨k, hrebound, h₈⟩
  have hresources : (plan.entry full uid mark owner core link).resources =
      plan.besidesDns full uid mark owner core link ++
        plan.dnsRecords link full.isSome (base.view.dnsApply plan.name) := by
    rw [hbase.dnsApply]
    exact resources_eq ..
  have hdns := succeeds_rebindDns h₈ hresources (findDns_besidesDns ..) hbase.dns hbase.resolved
  refine wp_post hdns ?_
  intro _ now₉ h₉
  exact ⟨k, hrebound, h₉⟩

end

/-! ### The network after a reload -/

section
variable {core now later : DaemonCore} {uid mark : Nat} {owner : Owner} {plan : XrayPlan}
  {full : Option WireGuardFullResource}

section
variable (hup : XrayUp core now uid mark owner plan full) (hlater : Later now later)
include hup hlater

/-- The old TUN link is still there when the reload starts. -/
theorem XrayUp.tun_mem :
    core.kernel.tunLink (.daemon uid owner) plan.name ∈ later.kernel.links := by
  refine hlater.links _ ?_
  rw [hup.kernel.links]
  exact (mem_insert hup.unnamed).mpr (.inr rfl)

theorem XrayUp.mem_routes (row : KernelRoute) :
    row ∈ later.kernel.routes ↔ row ∈ core.kernel.routes ∨
      ∃ r ∈ plan.bypasses core ++ plan.tunnelled full core.kernel.nextIndex,
        row = r.system.install (.daemon uid owner) := by
  rw [hlater.routes]
  exact hup.kernel.routes row

end

theorem rides_install {r : AppliedRoute} {o : Origin} {n : Nat} :
    (r.system.install o).rides n = true ↔ r.interfaceIndex = n := by
  simp [KernelRoute.rides, SystemRoute.install, SystemRoute.stored, AppliedRoute.system]

variable {row : KernelRoute}

/-- With every bypass beside the link, only the routes of the profile ride it. -/
theorem XrayUp.rides_iff (hup : XrayUp core now uid mark owner plan full) (hlater : Later now later)
    (hattached : core.kernel.Attached) (hbypassed : plan.Bypassed core)
    (hrow : row ∈ later.kernel.routes) : row.rides core.kernel.nextIndex = true ↔
      ∃ r ∈ plan.tunnelled full core.kernel.nextIndex,
        row = r.system.install (.daemon uid owner) := by
  constructor
  · intro hrides
    rcases (hup.mem_routes hlater row).mp hrow with hold | ⟨r, hr, rfl⟩
    · obtain ⟨link, hlink, hindex⟩ := hattached.routes row hold _ hrides
      have := lt_nextIndex hlink
      omega
    · rcases mem_append.mp hr with hr | hr
      · exact absurd (rides_install.mp hrides) (beside_of_bypassed hbypassed hr)
      · exact ⟨r, hr, rfl⟩
  · rintro ⟨r, hr, rfl⟩
    obtain ⟨route, -, rfl⟩ := mem_map.mp hr
    exact rides_install.mpr rfl

/-- A route has the same slot on every link. -/
theorem slots_tunnelled (old new : Nat) : (plan.tunnelled full new).map (fun r => r.key.slot) =
      (plan.tunnelled full old).map fun r => r.key.slot := by
  unfold XrayPlan.tunnelled
  rw [map_map, map_map]
  rfl

/-- The daemon of a reload after the restart, without the entry. -/
def restarted (core later : DaemonCore) (o : Origin) (name : String) : DaemonCore :=
  { later with
    journal := core.journal
    kernel := (later.kernel.dropTun name).addTun o name }

theorem XrayUp.rebindable (hup : XrayUp core now uid mark owner plan full)
    (hlater : Later now later) (hattached : later.kernel.Attached)
    (hbypassed : plan.Bypassed core) (hwg : core.executors.wg = true)
    (hdns : plan.dnsServers.isEmpty = true ∨ core.executors.dns = true) :
    Rebindable (restarted core later (.daemon uid owner) plan.name) plan full core
      (later.kernel.dropTun plan.name).nextIndex := by
  have htun := hup.tun_mem hlater
  obtain ⟨hunridden, hunaddressed⟩ := unused_of_attached hattached htun rfl
  have hkernel : (restarted core later (.daemon uid owner) plan.name).kernel = _ :=
    addTun_eq (unnamed_dropTun htun rfl)
  have hexecutors : later.executors = core.executors := hlater.executors.trans hup.executors
  have happly : later.view.dnsApply = core.view.dnsApply := by
    rw [hlater.dnsApply, hup.view]
  have hall := hup.kernel.slots
  rw [map_append, nodup_append] at hall
  refine
    { wg := hexecutors ▸ hwg
      unaddressed := ?_
      beside := ?_
      free := ?_
      slots := ?_
      dnsApply := happly
      dns := hexecutors ▸ hdns
      resolved := ?_ }
  · intro hin
    rw [hkernel] at hin
    exact hunaddressed _ hin rfl
  · intro route hroute heq
    have hbeside := beside_of_bypassed hbypassed hroute
    have hrow : route.system.install (.daemon uid owner) ∈ later.kernel.routes :=
      (hup.mem_routes hlater _).mpr (.inr ⟨route, by simp [hroute], rfl⟩)
    have hkept := (mem_dropTun_routes htun rfl).mpr
      ⟨hrow, eq_false_iff.mpr (fun hrides => hbeside (rides_install.mp hrides))⟩
    exact eq_false_iff.mp (hunridden _ hkept) (rides_install.mpr heq)
  · -- The slot was the route's on the old link, and the old link's routes are gone.
    intro r hr
    obtain ⟨route, hroute, rfl⟩ := mem_map.mp hr
    have hold : plan.appliedRoute full core.kernel.nextIndex route ∈
        plan.tunnelled full core.kernel.nextIndex := mem_map_of_mem hroute
    rw [hkernel, slotTaken_eq_false_iff]
    intro row hrow hslot
    obtain ⟨hin, hleft⟩ := (mem_dropTun_routes htun rfl).mp hrow
    rcases (hup.mem_routes hlater row).mp hin with hcore | ⟨r, hr, rfl⟩
    · exact slotTaken_eq_false_iff.mp (hup.kernel.free _ (mem_append_right _ hold)) row hcore hslot
    · rcases mem_append.mp hr with hr | hr
      · rw [r.key_install] at hslot
        exact hall.2.2 r.key.slot (mem_map_of_mem hr) _ (mem_map_of_mem hold) hslot
      · obtain ⟨_, -, rfl⟩ := mem_map.mp hr
        exact eq_false_iff.mp hleft (rides_install.mpr rfl)
  · rw [slots_tunnelled core.kernel.nextIndex]
    exact hall.2.1
  · have hresolved := resolved_resolver plan full.isSome core
    have hset : later.resolver = plan.resolver full.isSome core := hlater.resolver.trans hup.resolver
    unfold XrayPlan.Resolved XrayPlan.resolver at hresolved ⊢
    simp only [restarted, hset, happly]
    exact hresolved

/-- A row that does not ride the old link is not touched by the move. -/
theorem rebind_of_not_rides {old new : Nat} (h : row.rides old = false) :
    row.route.rebind old new = row.route := by
  simp only [KernelRoute.rides, or_eq_false_iff, beq_eq_false_iff_ne, any_eq_false, beq_iff_eq] at h
  have hhops : row.route.nexthops.map (fun hop =>
      if hop.interfaceIndex = old then { hop with interfaceIndex := new } else hop) =
      row.route.nexthops := by
    refine (map_congr_left fun hop hhop => ?_).trans (map_id _)
    rw [if_neg (h.2 hop hhop)]
    rfl
  unfold SystemRoute.rebind
  rw [if_neg h.1, hhops]

theorem rebind_appliedRoute (o : Origin) (old new : Nat) (route : PolicyRoute) :
    ((plan.appliedRoute full old route).system.install o).route.rebind old new =
      ((plan.appliedRoute full new route).system.install o).route := by
  simp [SystemRoute.rebind, SystemRoute.install, SystemRoute.stored, AppliedRoute.system,
    XrayPlan.appliedRoute, AppliedRoute.onLink]

variable (hup : XrayUp core now uid mark owner plan full) (hlater : Later now later)
include hup hlater

/-- The routes of the reloaded kernel. -/
theorem XrayUp.routes_after (hattached : core.kernel.Attached) (hbypassed : plan.Bypassed core)
    {new : Nat} {k : Kernel}
    (hk : ∀ row, row ∈ k.routes ↔ row ∈ (later.kernel.dropTun plan.name).routes ∨
      ∃ r ∈ plan.tunnelled full new, row = r.system.install (.daemon uid owner))
    (route : SystemRoute) (o : Origin) : (∃ row ∈ k.routes, row.route = route ∧ row.origin = o) ↔
      ∃ row ∈ later.kernel.routes,
        row.route.rebind core.kernel.nextIndex new = route ∧ row.origin = o := by
  have htun := hup.tun_mem hlater
  constructor
  · rintro ⟨row, hrow, rfl, rfl⟩
    rcases (hk row).mp hrow with hold | ⟨r, hr, rfl⟩
    · obtain ⟨hin, hfree⟩ := (mem_dropTun_routes htun rfl).mp hold
      exact ⟨row, hin, rebind_of_not_rides hfree, rfl⟩
    · obtain ⟨route, hroute, rfl⟩ := mem_map.mp hr
      refine ⟨(plan.appliedRoute full core.kernel.nextIndex route).system.install
        (.daemon uid owner), ?_, rebind_appliedRoute .., rfl⟩
      refine (hup.mem_routes hlater _).mpr (.inr ⟨_, ?_, rfl⟩)
      exact mem_append.mpr (.inr (mem_map_of_mem hroute))
  · rintro ⟨row, hrow, rfl, rfl⟩
    cases hrides : row.rides core.kernel.nextIndex with
    | false =>
      have hkept := (mem_dropTun_routes htun rfl).mpr ⟨hrow, hrides⟩
      exact ⟨row, (hk row).mpr (.inl hkept), (rebind_of_not_rides hrides).symm, rfl⟩
    | true =>
      obtain ⟨r, hr, rfl⟩ := (hup.rides_iff hlater hattached hbypassed hrow).mp hrides
      obtain ⟨route, hroute, rfl⟩ := mem_map.mp hr
      refine ⟨(plan.appliedRoute full new route).system.install (.daemon uid owner), ?_,
        (rebind_appliedRoute ..).symm, rfl⟩
      exact (hk _).mpr (.inr ⟨_, mem_map_of_mem hroute, rfl⟩)

theorem XrayUp.links_after (link : KernelLink) :
    link ∈ ((later.kernel.dropTun plan.name).addTun (.daemon uid owner) plan.name).links ↔
      ∃ seen ∈ later.kernel.links, link = if seen.name = plan.name then
        { seen with index := (later.kernel.dropTun plan.name).nextIndex } else seen := by
  have htun := hup.tun_mem hlater
  have hunnamed : (later.kernel.dropTun plan.name).links.has plan.name = false :=
    unnamed_dropTun htun rfl
  rw [addTun_eq hunnamed]
  refine Iff.trans (mem_insert hunnamed) ?_
  constructor
  · rintro (hold | rfl)
    · obtain ⟨hin, hne⟩ := (mem_dropTun_links htun rfl).mp hold
      have hname : link.name ≠ plan.name := fun hname =>
        hne (eq_of_key_eq hin htun hname)
      exact ⟨link, hin, by rw [if_neg hname]⟩
    · exact ⟨_, htun, by simp [Kernel.tunLink]⟩
  · rintro ⟨seen, hseen, rfl⟩
    by_cases hname : seen.name = plan.name
    · obtain rfl : seen = core.kernel.tunLink (.daemon uid owner) plan.name :=
        eq_of_key_eq hseen htun hname
      rw [if_pos hname]
      exact .inr rfl
    · rw [if_neg hname]
      refine .inl ((mem_dropTun_links htun rfl).mpr ⟨hseen, ?_⟩)
      rintro rfl
      exact hname rfl

theorem XrayUp.addresses_after (hattached : core.kernel.Attached) (new : Nat)
    (address : Nat × IpNet) :
    address ∈ (later.kernel.dropTun plan.name).addresses ++ [(new, plan.address)] ↔
      ∃ seen ∈ later.kernel.addresses,
        address = if seen.1 = core.kernel.nextIndex then (new, seen.2) else seen := by
  have htun := hup.tun_mem hlater
  have hmem : ∀ seen, seen ∈ later.kernel.addresses ↔
      seen ∈ core.kernel.addresses ∨ seen = (core.kernel.nextIndex, plan.address) := by
    intro seen
    rw [hlater.addresses, hup.kernel.addresses, mem_append, mem_singleton]
  -- Before the connect, the link's index was on no address.
  have hold : ∀ seen ∈ core.kernel.addresses, seen.1 ≠ core.kernel.nextIndex := by
    intro seen hseen heq
    obtain ⟨link, hlink, hindex⟩ := hattached.addresses seen hseen
    have := lt_nextIndex hlink
    omega
  rw [mem_append, mem_singleton]
  constructor
  · rintro (hkept | rfl)
    · obtain ⟨hin, hne⟩ := (mem_dropTun_addresses htun rfl).mp hkept
      have hindex : address.1 ≠ core.kernel.nextIndex := hne
      exact ⟨address, hin, by rw [if_neg hindex]⟩
    · exact ⟨_, (hmem _).mpr (.inr rfl), by rw [if_pos rfl]⟩
  · rintro ⟨seen, hseen, rfl⟩
    rcases (hmem seen).mp hseen with hcore | rfl
    · rw [if_neg (hold seen hcore)]
      exact .inl ((mem_dropTun_addresses htun rfl).mpr ⟨hseen, hold seen hcore⟩)
    · rw [if_pos rfl]
      exact .inr rfl

end

/-! ### Reloading -/

section
variable {core now later : DaemonCore} {uid mark : Nat} {profileId : String} {plan : XrayPlan}
  {prepare : Nat → Except IoError XrayPlan}

/-- The entry of a connected profile and its process marker. -/
def DaemonCore.runningXray (core : DaemonCore) (uid : Nat) (profileId : String) :
    Option (Nat × XrayProcessResource) :=
  (core.journal.position uid (.xray profileId)).bind fun index =>
    core.journal[index]?.bind fun entry =>
      (findXrayProcess entry.resources).map fun process => (index, process)

theorem position_append {j : Journal} {entry : JournalEntry} {owner : Owner}
    (habsent : j.position uid owner = none) (huid : entry.uid = uid)
    (howner : entry.owner = owner) : Journal.position (j ++ [entry]) uid owner = some j.length := by
  unfold Journal.position at habsent ⊢
  rw [findIdx?_append, habsent]
  simp [huid, howner]

/-- The profile's process on its link. -/
def XrayPlan.running (plan : XrayPlan) (uid mark : Nat) (profileId : String) (link : Nat) :
    XrayProcessResource :=
  { plan.process uid mark (.xray profileId) (plan.fullTunnel mark) with index := link }

section
variable (h : Connected core now uid profileId prepare mark plan) (hlater : Later now later)
include h hlater

theorem Connected.journal :
    later.journal = core.journal ++ [plan.entry (plan.fullTunnel mark) uid mark (.xray profileId)
      core core.kernel.nextIndex] :=
  hlater.journal.trans h.up.journal

theorem Connected.position :
    later.journal.position uid (.xray profileId) = some core.journal.length := by
  rw [h.journal hlater]
  exact position_append h.absent rfl rfl

theorem Connected.runningXray : later.runningXray uid profileId =
      some (core.journal.length, plan.running uid mark profileId core.kernel.nextIndex) := by
  rw [DaemonCore.runningXray, h.position hlater, h.journal hlater]
  simp [XrayPlan.entry, XrayPlan.resources, findXrayProcess, XrayPlan.running]

end

/-- Everything that a reload does after the check. -/
def reloadAccepted (index uid : Nat) (owner : Owner) (plan : XrayPlan) (origin : Origin)
    (old : Nat) : Prog Unit := do
  if ← Call.gets fun core => core.executors.xray then do
    xrayStage "reload" (xrayRestart origin uid plan.name)
    let link ← tunLink "tun_lookup" plan.name
    xrayStage "rebind" (rebindXrayLink index old link)
    updateEntry index fun entry =>
      entry.setResources (entry.resources.map (setProcessMtu plan.mtu))
    xrayStage "journal_failover" save
    clearXrayRestarts (uid, owner)
    clearTunnelFailed (uid, owner)
  else Call.throw xrayUnavailable

section
variable (h : Connected core now uid profileId prepare mark plan) (hlater : Later now later)
include h hlater

/-- On a connected profile, a reload is decided by the check alone. -/
theorem Connected.wp_reloadXray {V : Verdict Fault → Prop} {Q : Unit → DaemonCore → Prop}
    {E : IoError → DaemonCore → Prop} {C : DaemonCore → Prop}
    (hrefused : ¬ plan.Bypassed core → E incompatibleReload later) (haccepted : plan.Bypassed core →
      wp V (reloadAccepted core.journal.length uid (.xray profileId) plan
        (.daemon uid (.xray profileId)) core.kernel.nextIndex) Q E C later) :
    wp V (reloadXray uid profileId prepare) Q E C later := by
  have hresolve : later.view.resolve = core.view.resolve := by rw [hlater.resolve, h.up.view]
  have hprocess : findXrayProcess (plan.entry (plan.fullTunnel mark) uid mark (.xray profileId) core
        core.kernel.nextIndex).resources =
      some (plan.running uid mark profileId core.kernel.nextIndex) := by
    simp [XrayPlan.entry, XrayPlan.resources, findXrayProcess, XrayPlan.running]
  refine wp_bind (wp_demand (fun _ => ?_) (fun e he => by rw [h.valid] at he; cases he))
  refine wp_bind (wp_position ?_)
  rw [h.position hlater]
  refine wp_bind (wp_entryAt ?_ (fun hf => by simp [h.journal hlater] at hf))
  intro entry hentry
  obtain rfl : plan.entry (plan.fullTunnel mark) uid mark (.xray profileId) core
      core.kernel.nextIndex = entry := by
    simpa [h.journal hlater] using hentry
  rw [if_neg (by simp [XrayPlan.entry]), hprocess]
  refine wp_bind (wp_ofExcept ?_ (fun e he => absurd (h.prepared.symm.trans he) (by simp)))
  intro plan' hplan'
  obtain rfl : plan = plan' := Except.ok.inj (h.prepared.symm.trans hplan')
  refine wp_read ?_
  have hcheck : reloadCompatible later.view
      (plan.entry (plan.fullTunnel mark) uid mark (.xray profileId) core
        core.kernel.nextIndex).resources plan
      (plan.running uid mark profileId core.kernel.nextIndex) = true ↔ plan.Bypassed core :=
    reloadCompatible_iff hresolve
  by_cases hbypassed : plan.Bypassed core
  · rw [hcheck.mpr hbypassed]
    exact haccepted hbypassed
  · rw [eq_false_iff.mpr (mt hcheck.mp hbypassed)]
    exact wp_throw (hrefused hbypassed)

/-- The accepted reload leaves the same network, on a new link. -/
theorem Connected.succeeds_reloadAccepted (hcore : core.kernel.Attached)
    (hattached : later.kernel.Attached) (hwg : core.executors.wg = true)
    (hbypassed : plan.Bypassed core) :
    Succeeds (reloadAccepted core.journal.length uid (.xray profileId) plan
        (.daemon uid (.xray profileId)) core.kernel.nextIndex)
      (fun _ after => SameNetwork later after core.journal.length plan.name core.kernel.nextIndex
        (later.kernel.dropTun plan.name).nextIndex) later := by
  have hup := h.up
  have hxray : later.xray = core.xray.spawn uid plan.name := hlater.xray.trans hup.xray
  have hexecutors : later.executors = core.executors := hlater.executors.trans hup.executors
  have htun := hup.tun_mem hlater
  have hunnamed : (later.kernel.dropTun plan.name).links.has plan.name = false :=
    unnamed_dropTun htun rfl
  have hentered : Entered { later with journal := core.journal }
      (plan.entry (plan.fullTunnel mark) uid mark (.xray profileId) core core.kernel.nextIndex)
      later := by
    refine ⟨later.disk, ?_⟩
    rw [← h.journal hlater]
  refine wp_read ?_
  rw [if_pos (hexecutors ▸ h.executor)]
  have hrestart := succeeds_xrayRestart hentered (.daemon uid (.xray profileId)) uid plan.name
    (by simp [hxray, Runner.staged, Runner.spawn])
    (by
      have huntracked : core.xray.children.filter (fun child => child.2 != plan.name) =
          core.xray.children := by
        rw [filter_eq_self]
        intro child hchild
        have hall := hup.untracked
        rw [Runner.tracks, any_eq_false] at hall
        simpa using hall child hchild
      simp [hxray, Runner.spawn, filter_append, huntracked])
  refine Succeeds.bind (succeeds_xrayStage hrestart) fun _ now₁ h₁ => ?_
  have hlink := succeeds_tunLink h₁ "tun_lookup" plan.name (linkIndex_addTun hunnamed)
  refine Succeeds.bind hlink ?_
  rintro link now₂ ⟨rfl, h₂⟩
  have hrebindable := hup.rebindable hlater hattached hbypassed hwg h.resolver
  have hrestarted :
  Entered (restarted core later (.daemon uid (.xray profileId)) plan.name) _ now₂ := h₂
  have hrebind := succeeds_rebindXrayLink hbypassed hrestarted hrebindable (fun hreject => by
      obtain ⟨hexecutor, hin⟩ := hup.quicReject hreject
      exact ⟨hexecutors ▸ hexecutor, hlater.quicReject ▸ hin⟩)
  refine Succeeds.bind (succeeds_xrayStage hrebind) ?_
  rintro _ now₃ ⟨k, hrebound, h₃⟩
  have hmtu := h₃.updated fun entry =>
    entry.setResources (entry.resources.map (setProcessMtu plan.mtu))
  refine Succeeds.bind hmtu fun _ now₄ h₄ => ?_
  have hsame : (plan.entry (plan.fullTunnel mark) uid mark (.xray profileId) core
      (later.kernel.dropTun plan.name).nextIndex).setResources
      ((plan.entry (plan.fullTunnel mark) uid mark (.xray profileId) core
        (later.kernel.dropTun plan.name).nextIndex).resources.map (setProcessMtu plan.mtu)) =
      plan.entry (plan.fullTunnel mark) uid mark (.xray profileId) core
        (later.kernel.dropTun plan.name).nextIndex := by
    show (⟨_, _, _, _⟩ : JournalEntry) = _
    rw [XrayPlan.entry, map_setProcessMtu_resources]
  rw [hsame] at h₄
  refine Succeeds.bind (succeeds_xrayStage h₄.saved) ?_
  rintro _ now₅ ⟨⟨d, rfl⟩, hdisk⟩
  refine wp_write (wp_modify ?_)
  have hkernel : (restarted core later (.daemon uid (.xray profileId)) plan.name).kernel = _ :=
    addTun_eq hunnamed
  have hroutes : ∀ row, row ∈ k.routes ↔ row ∈ (later.kernel.dropTun plan.name).routes ∨
      ∃ r ∈ plan.tunnelled (plan.fullTunnel mark) (later.kernel.dropTun plan.name).nextIndex,
        row = r.system.install (.daemon uid (.xray profileId)) := by
    intro row
    rw [hrebound.routes.mem, hkernel]
  exact
    { journal := by
        rw [h.journal hlater, modify_append_length]
        refine congrArg (fun entry => core.journal ++ [entry]) ?_
        show (⟨_, _, _, _⟩ : JournalEntry) = ⟨_, _, _, _⟩
        rw [XrayPlan.entry, map_rebind_resources hbypassed]
      disk := hdisk
      routes := hup.routes_after hlater hcore hbypassed hroutes
      rules := by
        show k.rules = later.kernel.rules
        rw [hrebound.routes.rules, hkernel]
        rfl
      links := fun link => by
        show link ∈ k.links ↔ _
        rw [hrebound.routes.links]
        exact hup.links_after hlater link
      addresses := fun address => by
        show address ∈ k.addresses ↔ _
        rw [hrebound.addresses, hkernel]
        exact hup.addresses_after hlater hcore _ address
      resolver := rfl
      quicReject := rfl
      xray := rfl }

end

/-- An undisturbed reload of the profile as it was connected leaves its network as it is
exactly when the connect skipped none of the bypass routes that its plan asks for. -/
theorem reload_unchanged_iff {vs rest : List (Verdict Fault)}
    (hconnect : connectXray uid profileId prepare core vs = (.ok (), now, rest))
    (hcore : core.kernel.Attached) (hwg : core.executors.wg = true) (hlater : Later now later)
    (hattached : later.kernel.Attached) :
    (∃ after rest, reloadXray uid profileId prepare later [] = (.ok (), after, rest) ∧
        ∃ index process new, later.runningXray uid profileId = some (index, process) ∧
          SameNetwork later after index process.name process.index new) ↔
      ∃ index process plan, later.runningXray uid profileId = some (index, process) ∧
        prepare process.transportMark = .ok plan ∧ plan.Bypassed core := by
  obtain ⟨mark, plan, h⟩ := of_wp_ok (connected_of_returns profileId prepare) hconnect
  have hrunning := h.runningXray hlater
  constructor
  · rintro ⟨after, rest, hrun, -⟩
    refine ⟨_, _, plan, hrunning, h.prepared, ?_⟩
    by_contra hskipped
    -- The check refuses before anything happens.
    have hrefused : wp Verdict.Quiet (reloadXray uid profileId prepare) (fun _ _ => False)
        (fun _ _ => True) (fun _ => False) later :=
      h.wp_reloadXray hlater (fun _ => trivial) (fun hbypassed => absurd hbypassed hskipped)
    have hend := hrefused [] (by simp)
    rw [hrun] at hend
    exact hend.2
  · rintro ⟨index, process, plan', hfound, hprepare, hbypassed⟩
    rw [hrunning] at hfound
    cases hfound
    obtain rfl : plan = plan' := Except.ok.inj (h.prepared.symm.trans hprepare)
    have hreload : Succeeds (reloadXray uid profileId prepare) _ later :=
      h.wp_reloadXray hlater (fun hskipped => absurd hbypassed hskipped)
        (fun _ => h.succeeds_reloadAccepted hlater hcore hattached hwg hbypassed)
    obtain ⟨_, after, rest, hrun, hsame⟩ := run_of_succeeds hreload
    exact ⟨after, rest, hrun, _, _, _, hrunning, hsame⟩

end

section

theorem attached_iff {k : Kernel} :
    k.Attached ↔ (∀ address ∈ k.addresses, ∃ link ∈ k.links.rows, link.index = address.1) ∧
      ∀ row ∈ k.routes.rows,
        ∀ n ∈ row.route.interfaceIndex.toList ++ row.route.nexthops.map SystemNexthop.interfaceIndex,
          ∃ link ∈ k.links.rows, link.index = n := by
  have hrides : ∀ (row : KernelRoute) n, row.rides n = true ↔ n ∈ row.route.interfaceIndex.toList ++
        row.route.nexthops.map SystemNexthop.interfaceIndex := by
    intro row n
    simp [KernelRoute.rides]
  constructor
  · rintro ⟨haddresses, hroutes⟩
    exact ⟨haddresses, fun row hrow n hn => hroutes row hrow n ((hrides row n).mpr hn)⟩
  · rintro ⟨haddresses, hroutes⟩
    exact ⟨haddresses, fun row hrow n hn => hroutes row hrow n ((hrides row n).mp hn)⟩

instance decidableAttached (k : Kernel) : Decidable k.Attached :=
  decidable_of_iff _ attached_iff.symm

instance decidableBypassed (plan : XrayPlan) (core : DaemonCore) : Decidable (plan.Bypassed core) :=
  decidable_of_iff _ bypassed_iff.symm

end

/-- A split tunnel to a host with one address of each family. -/
def relayPlan : XrayPlan :=
  { profileId := "relay"
    name := "xr-relay"
    routes := [{ destination := .v4 0x0a640000 16, metric := 50, via := none }]
    address := .v4 0x0a0a0001 30
    mtu := 1500
    dnsServers := [.v4 0x0a640035]
    dnsDomains := ["relay.test"]
    dnsBypass := []
    fullIpv4 := false
    fullIpv6 := false
    serverHosts := ["relay"]
    unpinnedHosts := []
    serverPinned := false
    rejectQuic := false
    proxyExits := [] }

/-- A machine with one physical link and these default gateways on it. -/
def relayHost (gateways : List IpAddr) : DaemonCore :=
  DaemonCore.fresh (Kernel.empty.createLink .foreign .other "eth0" "").2
    { View.bare with
      defaultGateways := .ok (gateways.map fun gateway => (gateway, 1))
      resolve := fun _ => [.v4 0xcb007107, .v6 0x20010db8000000000000000000000007] }
    .all

/-- Connecting the profile there, without trouble. -/
def relayRun (gateways : List IpAddr) : Outcome IoError Unit × DaemonCore × List (Verdict Fault) :=
  connectXray 1000 "relay" (fun _ => .ok relayPlan) (relayHost gateways) []

/-- Without an IPv6 uplink, the reload of the unchanged profile is refused. -/
theorem relay_reload_refused :
    (relayRun [.v4 0xc0000201]).1 = .ok () ∧
      (reloadXray 1000 "relay" (fun _ => .ok relayPlan) (relayRun [.v4 0xc0000201]).2.1 []).1 =
        .err incompatibleReload :=
  ⟨by decide +kernel, by decide +kernel⟩

/-- A machine with both uplinks. -/
def relayDual : List IpAddr := [.v4 0xc0000201, .v6 0x20010db8000100000000000000000001]

theorem Later.refl (now : DaemonCore) : Later now now :=
  ⟨rfl, rfl, rfl, rfl, rfl, rfl, rfl, fun _ h => h, rfl, rfl⟩

theorem relay_reload_accepted :
    ∃ after rest, reloadXray 1000 "relay" (fun _ => .ok relayPlan) (relayRun relayDual).2.1 [] =
        (.ok (), after, rest) ∧
      ∃ index process new,
        (relayRun relayDual).2.1.runningXray 1000 "relay" = some (index, process) ∧
          SameNetwork (relayRun relayDual).2.1 after index process.name process.index new := by
  have hrun : relayRun relayDual = (.ok (), (relayRun relayDual).2.1, (relayRun relayDual).2.2) :=
    eq_of_outcome (by decide +kernel)
  refine (reload_unchanged_iff hrun (by decide +kernel) rfl (Later.refl _)
    (by decide +kernel)).mpr ?_
  have hrunning : ((relayRun relayDual).2.1.runningXray 1000 "relay").isSome = true := by
    decide +kernel
  obtain ⟨⟨index, process⟩, hprocess⟩ := Option.isSome_iff_exists.mp hrunning
  exact ⟨index, process, relayPlan, hprocess, rfl, by decide +kernel⟩

end NetOrchestrator.Daemon
