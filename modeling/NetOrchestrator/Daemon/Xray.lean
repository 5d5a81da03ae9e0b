import NetOrchestrator.Daemon.OpenVpnSession

/-!
# `Daemon.Xray`: Xray owners

The child process creates the TUN link; the daemon adds the address, the routes, the policy
rules of a full tunnel and the DNS setting, each behind a journal save. Hosts that the
tunnel itself must reach get a bypass route through the physical uplink.

`prepare` stands for `prepare_xray` followed by `pin_server_addresses`: it turns the request
and a transport mark into a plan, or refuses. Of the plan, the model keeps what reaches the
kernel and the journal.
-/

namespace NetOrchestrator.Daemon

open Net Lib

structure XrayPlan where
  profileId : String
  name : String
  routes : List PolicyRoute
  address : IpNet
  mtu : Nat
  dnsServers : List IpAddr
  dnsDomains : List String
  dnsBypass : List String
  fullIpv4 : Bool
  fullIpv6 : Bool
  serverHosts : List String
  unpinnedHosts : List String
  serverPinned : Bool
  rejectQuic : Bool
  proxyExits : List ProxyExitBinding
  deriving DecidableEq

/-- `xray_stage`: the error keeps its kind and names the stage. -/
def xrayStage {α : Type} (stage : String) (m : Prog α) : Prog α := do
  match ← Call.attempt m with
  | .ok a => pure a
  | .error e => Call.throw { e with message := .xrayStage stage }

def xrayUnavailable : IoError := ⟨.notConnected, .text "Xray executor is unavailable"⟩
def tunLinkUnavailable : IoError := ⟨.notConnected, .text "Xray TUN link is unavailable"⟩
def tunExecutorUnavailable : IoError := ⟨.notConnected, .text "TUN executor is unavailable"⟩

/-! ### Bypass targets -/

/-- `resolve_host_addrs`. -/
def View.resolveHostAddrs (view : View) (host : String) : List IpAddr :=
  match parseIpAddr host with
  | some ip => [ip]
  | none => view.resolve host

/-- `dns_bypass_addrs`: the addresses of the families that the tunnel fully captures. -/
def dnsBypassAddrs (addrs : List IpAddr) (fullIpv4 fullIpv6 : Bool) : List IpAddr :=
  addrs.filter fun
    | .v4 _ => fullIpv4
    | .v6 _ => fullIpv6

variable (plan : XrayPlan)

def XrayPlan.dnsServerBypass : List IpAddr :=
  if plan.serverPinned then [] else dnsBypassAddrs plan.dnsServers plan.fullIpv4 plan.fullIpv6

/-- The hosts that must stay reachable outside the tunnel, each address once. -/
def XrayPlan.bypassTargets (view : View) : List IpAddr :=
  extendNew []
    ((plan.serverHosts ++ plan.unpinnedHosts).flatMap view.resolveHostAddrs ++
      plan.dnsServerBypass ++
      plan.dnsBypass.flatMap fun host =>
        dnsBypassAddrs (view.resolveHostAddrs host) plan.fullIpv4 plan.fullIpv6)

def xrayBypassMetric : Nat := 5

/-! ### Installing a plan -/

/-- Record a resource, save, and act. A taken key is not ours, so its record goes again. -/
def claimResource (index : Nat) (resource : OwnedResource) (journalStage stage : String)
    (act : Prog Unit) : Prog Unit := do
  updateEntry index (·.push resource)
  xrayStage journalStage save
  match ← Call.attempt act with
  | .ok () => pure ()
  | .error e => do
      popIfTaken index e
      Call.throw { e with message := .xrayStage stage }

/-- One bypass route. Somebody else's route to the same host serves as well. -/
def addXrayBypass (index : Nat) (origin : Origin) (ip : IpAddr) : Prog Unit := do
  match (← Call.gets DaemonCore.view).uplinkHostRoute ip xrayBypassMetric with
  | none => pure ()
  | some route => do
      updateEntry index (·.push (.route route))
      xrayStage "journal_bypass" save
      match ← Call.attempt (addRouteExclusive origin route) with
      | .ok () => pure ()
      | .error e =>
        if isAlreadyExists e then popResource index
        else Call.throw { e with message := .xrayStage "bypass_route_add" }

def addXrayBypassRoutes (index : Nat) (origin : Origin) (plan : XrayPlan) : Prog Unit := do
  let targets ← Call.gets fun core => plan.bypassTargets core.view
  Call.forEach (addXrayBypass index origin) targets

/-- The first process marker that asks for the QUIC reject. -/
def findQuicProcess (resources : List OwnedResource) : Option XrayProcessResource :=
  resources.findSome? fun
    | .xrayProcess process => if process.rejectQuic then some process else none
    | _ => none

/-- `ensure_xray_quic`. -/
def ensureXrayQuic (index : Nat) : Prog Unit := do
  let entry ← entryAt index
  match findQuicProcess entry.resources with
  | none => pure ()
  | some process => do
      if ← Call.gets fun core => core.executors.quicReject then
        quicEnsure entry.uid process.name
      else Call.throw ⟨.notConnected, .text "QUIC reject executor is unavailable"⟩

/-- `self.journal.entries[index].resources[0]`, when it is the process marker. -/
def JournalEntry.updateProcess (f : XrayProcessResource → XrayProcessResource)
    (entry : JournalEntry) : JournalEntry :=
  match entry.resources with
  | .xrayProcess process :: rest => { entry with resources := .xrayProcess (f process) :: rest }
  | _ => entry

def XrayPlan.appliedRoute (full : Option WireGuardFullResource)
    (index : Nat) (route : PolicyRoute) : AppliedRoute :=
  { AppliedRoute.onLink route.destination index route.metric with
    table :=
      if isFullRoute plan.fullIpv4 plan.fullIpv6 route.destination then full.map (·.table)
      else none }

def xrayDns (index link : Nat) (plan : XrayPlan) (full : Bool) : Prog Unit := do
  if plan.dnsServers.isEmpty then pure ()
  else do
    updateEntry index (·.push (.dns
      { interfaceIndex := link, name := plan.name, servers := plan.dnsServers,
        domains := plan.dnsDomains, full, applied := false }))
    xrayStage "journal_dns" save
    match ← Call.attempt (dnsApply plan.name plan.dnsServers plan.dnsDomains full) with
    | .ok .applied => do
        updateEntry index JournalEntry.dnsApplied
        xrayStage "journal_dns_applied" save
    | .ok _ => pure ()
    | .error _ => Call.throw ⟨.other, .xrayStage "dns_apply"⟩

/-- The stage of a failed start: a link that did not appear in time, or the spawn itself. -/
def startXrayChild (origin : Origin) (uid : Nat) (name : String) : Prog Unit := do
  match ← Call.attempt (xrayStart origin uid name) with
  | .ok () => pure ()
  | .error e =>
    let stage := if e.kind = .timedOut ∨ e.kind = .notConnected then "tun_wait" else "spawn"
    Call.throw { e with message := .xrayStage stage }

/-- The index of the child's TUN link. -/
def tunLink (stage name : String) : Prog Nat := do
  match ← xrayStage stage (runnerLinkIndex name) with
  | some index => pure index
  | none => Call.throw tunLinkUnavailable

/-- `apply_xray_plan`. -/
def applyXrayPlan (index uid : Nat) (origin : Origin) (plan : XrayPlan)
    (full : Option WireGuardFullResource) : Prog Unit := do
  startXrayChild origin uid plan.name
  let link ← tunLink "tun_lookup" plan.name
  updateEntry index (·.updateProcess fun process => { process with index := link })
  xrayStage "journal_link" save
  claimResource index (.address { interfaceIndex := link, address := plan.address })
    "journal_address" "address_add" (addAddress link plan.address)
  xrayStage "mtu_set" adjust
  xrayStage "link_up" adjust
  xrayStage "quic_reject" (ensureXrayQuic index)
  addXrayBypassRoutes index origin plan
  Call.forEach
    (fun route =>
      claimResource index (.route (plan.appliedRoute full link route)) "journal_route"
        "route_add" (addRouteExclusive origin (plan.appliedRoute full link route)))
    plan.routes
  Call.forEach
    (fun rule => claimResource index (.rule rule) "journal_rule" "rule_add" (addRule origin rule))
    (full.toList.flatMap fullPolicyRules)
  xrayDns index link plan full.isSome

/-! ### Connecting -/

/-- The full tunnel of a plan takes the slot of its transport mark. -/
def xrayFull (mark : Nat) : Prog (Option WireGuardFullResource) := do
  if plan.fullIpv4 || plan.fullIpv6 then
    if ← Call.gets fun core => core.journal.any JournalEntry.holdsFull then
      Call.throw anotherFullTunnel
    else if ← Call.gets fun core => core.executors.policy then
      pure (some (fullResource (mark - firstMark) plan.fullIpv4 plan.fullIpv6))
    else Call.throw policyUnavailable
  else pure none

def XrayPlan.process (uid mark : Nat) (owner : Owner)
    (full : Option WireGuardFullResource) : XrayProcessResource :=
  { name := plan.name
    index := 0
    ownerMarker := ownerMarker uid owner
    transportMark := mark
    full
    rejectQuic := plan.rejectQuic
    mtu := some plan.mtu
    proxyExits := plan.proxyExits }

/-- Tear down what a failed connect left and return its error. -/
def abandonXray {α : Type} (index : Nat) (e : IoError) : Prog α := do
  let _ ← Call.attempt (teardownXrayEntry index)
  persist
  Call.throw e

def clearXrayRestarts (key : OwnerKey) : Prog Unit :=
  Call.modify fun core =>
    { core with xrayRestarts := core.xrayRestarts.filter fun x => x.1 != key }

/-- Mark the entry applied and save it, or take it down. -/
def commitXray (index : Nat) : Prog Unit := do
  updateEntry index (·.setState .applied)
  match ← Call.attempt save with
  | .ok () => pure ()
  | .error e => abandonXray index { e with message := .xrayStage "journal_commit" }

/-- From the write-ahead entry on. -/
def connectXrayEntry (uid : Nat) (owner : Owner) (plan : XrayPlan) (mark : Nat)
    (full : Option WireGuardFullResource) : Prog Unit := do
  pushEntry
    { uid, owner, state := .applying
      resources := [.xrayProcess (plan.process uid mark owner full)] }
  match ← Call.attempt save with
  | .error e => do
      setJournal List.dropLast
      Call.throw { e with message := .xrayStage "journal_prepare" }
  | .ok () => do
      let index := (← Call.gets fun core => core.journal.length) - 1
      match ← Call.attempt (applyXrayPlan index uid (.daemon uid owner) plan full) with
      | .error e => abandonXray index e
      | .ok () => do
          commitXray index
          clearXrayRestarts (uid, owner)
          clearTunnelFailed (uid, owner)

/-- `connect_xray`. -/
def connectXray (uid : Nat) (profileId : String) (prepare : Nat → Except IoError XrayPlan) :
    Prog Unit := do
  let owner := Owner.xray profileId
  demand (validateOwner owner.render)
  if (← position uid owner).isSome then
    Call.throw ⟨.alreadyExists, .text "Xray profile is already connected"⟩
  else do
    let mark ← allocateOpenvpnMark
    let plan ← Call.ofExcept (prepare mark)
    let executors ← Call.gets DaemonCore.executors
    if !executors.xray then Call.throw xrayUnavailable
    else do
      xrayStage "binary_verify" adjust
      let link ← xrayStage "link_lookup" (runnerLinkIndex plan.name)
      if link.isSome then
        Call.throw ⟨.alreadyExists, .text "Xray link name is occupied"⟩
      else do
        let full ← xrayFull plan mark
        if !plan.dnsServers.isEmpty && !executors.dns then Call.throw dnsUnavailable
        else connectXrayEntry uid owner plan mark full

/-- `disconnect_xray`. -/
def disconnectXray (uid : Nat) (profileId : String) : Prog Unit := do
  let key := (uid, Owner.xray profileId)
  match ← position uid (.xray profileId) with
  | none => disconnectAbsent key "Xray profile is not connected"
  | some index => do
      let result ← Call.attempt (teardownEntry index)
      clearXrayRestarts key
      save
      Call.ofExcept result

/-! ### Restarting the child -/

/-- Re-point what rides the old link at the new one. -/
def OwnedResource.rebind (old new : Nat) : OwnedResource → OwnedResource
  | .xrayProcess p => .xrayProcess { p with index := new }
  | .route r => if r.interfaceIndex = old then .route { r with interfaceIndex := new } else .route r
  | .address a =>
    if a.interfaceIndex = old then .address { a with interfaceIndex := new } else .address a
  | .dns d => if d.interfaceIndex = old then .dns { d with interfaceIndex := new } else .dns d
  | resource => resource

/-- The wg executor, which also sets addresses on TUN links. -/
def withWg {α : Type} (m : Prog α) : Prog α := do
  if ← Call.gets fun core => core.executors.wg then m else Call.throw tunExecutorUnavailable

def rebindAddress (new : Nat) : OwnedResource → Prog Unit
  | .address address => withWg (addAddress new address.address)
  | _ => pure ()

def rebindMtu : OwnedResource → Prog Unit
  | .xrayProcess process => adjustIf process.mtu.isSome
  | _ => pure ()

/-- Bypass routes keep their uplink; the restore pass right after handles those. -/
def rebindRoute (origin : Origin) (new : Nat) : OwnedResource → Prog Unit
  | .route route =>
    if route.interfaceIndex = new ∧ route.gateway = none then
      Call.tolerate isAlreadyExists (addRouteExclusive origin route)
    else pure ()
  | _ => pure ()

/-- Set the `applied` flag of the first DNS record. -/
def setDnsApplied (applied : Bool) : List OwnedResource → List OwnedResource
  | [] => []
  | .dns dns :: rest => .dns { dns with applied } :: rest
  | resource :: rest => resource :: setDnsApplied applied rest

def rebindDns (index : Nat) (resources : List OwnedResource) : Prog Unit := do
  match findDns resources with
  | none => pure ()
  | some dns => do
      if ← Call.gets fun core => core.executors.dns then do
        let outcome ← Call.attempt (dnsApply dns.name dns.servers dns.domains dns.full)
        let applied := match outcome with
          | .ok .applied => true
          | _ => false
        updateEntry index fun entry =>
          entry.setResources (setDnsApplied applied entry.resources)
        save
      else pure ()

/-- `rebind_xray_link`. -/
def rebindXrayLink (index old new : Nat) : Prog Unit := do
  updateEntry index fun entry =>
    entry.setResources (entry.resources.map (OwnedResource.rebind old new))
  save
  let entry ← entryAt index
  Call.forEach (rebindAddress new) entry.resources
  adjust
  Call.forEach rebindMtu entry.resources
  ensureXrayQuic index
  Call.forEach (rebindRoute entry.origin new) entry.resources
  rebindDns index entry.resources

def incompatibleReload : IoError :=
  invalidInput (.text "Xray network parameters changed; disconnect and reconnect to apply")

/-- The routes on the TUN link that the plan would install, as the journal records them. -/
def XrayPlan.tunnelRoutes (process : XrayProcessResource) : List (IpNet × Nat × Option Nat) :=
  plan.routes.map fun route =>
    (route.destination, route.metric,
      process.full.bind fun full =>
        if isFullRoute full.ipv4 full.ipv6 route.destination then some full.table else none)

def journaledTunnelRoutes (resources : List OwnedResource) (link : Nat) :
    List (IpNet × Nat × Option Nat) :=
  ((ownedRoutes resources).filter fun route => route.interfaceIndex == link).map fun route =>
    (route.destination, route.metric, route.table)

def journaledBypasses (resources : List OwnedResource) (link : Nat) : List IpNet :=
  ((ownedRoutes resources).filter fun route => route.interfaceIndex != link).map
    AppliedRoute.destination

def ownedAddresses (resources : List OwnedResource) : List IpNet :=
  resources.filterMap fun
    | .address address => some address.address
    | _ => none

def XrayPlan.sameDns (resources : List OwnedResource) : Bool :=
  match findDns resources with
  | some dns =>
    !plan.dnsServers.isEmpty && dns.servers == plan.dnsServers && dns.domains == plan.dnsDomains
  | none => plan.dnsServers.isEmpty

/-- `ensure_xray_reload_compatible`. The source compares sorted lists. -/
def reloadCompatible (view : View) (resources : List OwnedResource) (plan : XrayPlan)
    (process : XrayProcessResource) : Bool :=
  plan.name == process.name &&
    plan.fullIpv4 == process.full.any WireGuardFullResource.ipv4 &&
    plan.fullIpv6 == process.full.any WireGuardFullResource.ipv6 &&
    plan.rejectQuic == process.rejectQuic &&
    process.mtu.all (· == plan.mtu) &&
    plan.proxyExits == process.proxyExits &&
    ownedAddresses resources == [plan.address] &&
    plan.sameDns resources &&
    (journaledTunnelRoutes resources process.index).isPerm (plan.tunnelRoutes process) &&
    (journaledBypasses resources process.index).isPerm
      ((plan.bypassTargets view).map IpAddr.toNet)

/-- The probe policy and MTU that the reload runs with. -/
def setProcessMtu (mtu : Nat) : OwnedResource → OwnedResource
  | .xrayProcess process => .xrayProcess { process with mtu := some mtu }
  | resource => resource

/-- `reload_xray`. -/
def reloadXray (uid : Nat) (profileId : String) (prepare : Nat → Except IoError XrayPlan) :
    Prog Unit := do
  let owner := Owner.xray profileId
  demand (validateOwner owner.render)
  match ← position uid owner with
  | none => Call.throw ⟨.notFound, .text "Xray profile is not connected"⟩
  | some index => do
      let entry ← entryAt index
      if entry.state ≠ .applied then
        Call.throw (invalidInput (.text "Xray tunnel is not fully applied"))
      else
        match findXrayProcess entry.resources with
        | none => Call.throw ⟨.invalidData, .text "missing Xray process marker"⟩
        | some process => do
            let plan ← Call.ofExcept (prepare process.transportMark)
            let view ← Call.gets DaemonCore.view
            if !reloadCompatible view entry.resources plan process then
              Call.throw incompatibleReload
            else if ← Call.gets fun core => core.executors.xray then do
              xrayStage "reload" (xrayRestart entry.origin uid plan.name)
              let link ← tunLink "tun_lookup" plan.name
              xrayStage "rebind" (rebindXrayLink index process.index link)
              updateEntry index fun entry =>
                entry.setResources (entry.resources.map (setProcessMtu plan.mtu))
              xrayStage "journal_failover" save
              clearXrayRestarts (uid, owner)
              clearTunnelFailed (uid, owner)
            else Call.throw xrayUnavailable

end NetOrchestrator.Daemon
