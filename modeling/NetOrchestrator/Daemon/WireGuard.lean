import NetOrchestrator.Daemon.Attach

/-!
# `Daemon.WireGuard`: connecting a WireGuard profile

A connect records each resource, saves the journal and then changes the kernel, one
resource at a time. Whatever goes wrong on the way, the entry is torn down again; what
cannot be removed stays in it.

A full tunnel needs policy routing: a table, a mark and two rule priorities, all taken from
one of 128 slots (`allocateFull`). Only one entry of the journal may hold a full tunnel.
-/

namespace NetOrchestrator.Daemon

open Net Lib

structure WireGuardPlan where
  setconf : String
  addresses : List IpNet
  dnsServers : List IpAddr
  dnsDomains : List String
  mtu : Option Nat
  routes : List PolicyRoute
  fullIpv4 : Bool
  fullIpv6 : Bool
  warnings : List WireGuardWarning
  interfaceName : Option String
  deriving DecidableEq

/-! ### Slots of policy routing -/

def firstMark : Nat := 51820
def markSlots : Nat := 128

/-- The table, mark and priorities of a slot. -/
def fullResource (slot : Nat) (ipv4 ipv6 : Bool) : WireGuardFullResource :=
  { table := firstMark + slot
    fwmark := firstMark + slot
    priorityMain := 10000 + slot * 2
    priorityTunnel := 10000 + slot * 2 + 1
    ipv4
    ipv6 }

def OwnedResource.full : OwnedResource → Option WireGuardFullResource
  | .wireGuardLink link => link.full
  | .openVpnProcess process => process.full
  | .xrayProcess process => process.full
  | _ => none

def JournalEntry.holdsFull (entry : JournalEntry) : Bool :=
  entry.resources.any fun resource => resource.full.isSome

def anotherFullTunnel : IoError := ⟨.alreadyExists, .text "another full tunnel owns policy routing"⟩

/-- Whether a rule of the snapshot stands in the way of a slot. -/
def slotClash (rules : List OwnedRuleResource) (slot : Nat) : Bool :=
  rules.any fun rule =>
    rule.fwmark == some (firstMark + slot) || rule.priority == 10000 + slot * 2 ||
      rule.priority == 10000 + slot * 2 + 1

/-- A transport mark of an OpenVPN or Xray process. -/
def OwnedResource.transportMark : OwnedResource → Option Nat
  | .openVpnProcess process => process.transportMark
  | .xrayProcess process => some process.transportMark
  | _ => none

/-- The first free slot: not a mark of another WireGuard link, not the transport mark of a
journaled process, no clashing rule, and its table empty. -/
def freeFullSlot (journal : Journal) (marks : List Nat) (rules : List OwnedRuleResource) :
    List Nat → Prog (Option Nat)
  | [] => pure none
  | slot :: rest => do
      if marks.contains (firstMark + slot) ||
          journal.any (fun entry => entry.resources.any fun resource =>
            resource.transportMark == some (firstMark + slot)) ||
          slotClash rules slot then freeFullSlot journal marks rules rest
      else if ← tableInUse (firstMark + slot) then freeFullSlot journal marks rules rest
      else pure (some slot)

variable (plan : WireGuardPlan)

/-- `allocate_full`. -/
def allocateFull : Prog (Option WireGuardFullResource) := do
  if !plan.fullIpv4 && !plan.fullIpv6 then pure none
  else if ← Call.gets fun core => core.journal.any JournalEntry.holdsFull then
    Call.throw anotherFullTunnel
  else if ← Call.gets fun core => core.executors.policy then do
    let rules ← rulesSnapshot
    let marks ← query fun core => .ok core.view.wgMarksInUse
    let journal ← Call.gets DaemonCore.journal
    match ← freeFullSlot journal marks rules (List.range markSlots) with
    | some slot => pure (some (fullResource slot plan.fullIpv4 plan.fullIpv6))
    | none =>
      Call.throw ⟨.alreadyExists, .text "no safe policy routing slot is available"⟩
  else Call.throw policyUnavailable

/-- `full_policy_rules`. -/
def fullPolicyRules (full : WireGuardFullResource) : List OwnedRuleResource :=
  let rules := fun family : IpFamily =>
    [ { family, priority := full.priorityMain, table := rtTableMain, fwmark := none,
        invert := false, suppressPrefixLength := some 0 : OwnedRuleResource },
      { family, priority := full.priorityTunnel, table := full.table,
        fwmark := some full.fwmark, invert := true, suppressPrefixLength := none } ]
  (if full.ipv4 then rules .ipv4 else []) ++ (if full.ipv6 then rules .ipv6 else [])

/-! ### Connecting -/

/-- `self.journal.entries[index].resources[0]`, when it is a WireGuard link. -/
def JournalEntry.updateLink (f : WireGuardLinkResource → WireGuardLinkResource)
    (entry : JournalEntry) : JournalEntry :=
  match entry.resources with
  | .wireGuardLink link :: rest => { entry with resources := .wireGuardLink (f link) :: rest }
  | _ => entry

/-- Record a resource, save, then act. -/
def writeAhead (index : Nat) (resource : OwnedResource) (act : Prog Unit) : Prog Unit := do
  updateEntry index (·.push resource)
  save
  act

/-- Create the link. When somebody else has the requested name, try the fallback once. -/
def createWireguardLink (origin : Origin) (name fallback marker : String) :
    Prog (Nat × String) := do
  match ← Call.attempt (createLink origin name marker) with
  | .ok index => pure (index, name)
  | .error e =>
    if isAlreadyExists e && fallback != name then do
      let index ← createLink origin fallback marker
      pure (index, fallback)
    else Call.throw e

/-- Whether a route goes to the tunnel's own table. -/
def WireGuardPlan.inFullTable (full : Option WireGuardFullResource) (destination : IpNet) : Bool :=
  full.isSome && isFullRoute plan.fullIpv4 plan.fullIpv6 destination

/-- An endpoint inside the tunnel's own addresses or main-table routes would send the
encrypted transport back into the tunnel. -/
def WireGuardPlan.covers (full : Option WireGuardFullResource) (endpoint : IpAddr) : Bool :=
  plan.addresses.any (fun address => address.trunc.containsAddr endpoint) ||
    plan.routes.any fun route =>
      !plan.inFullTable full route.destination && route.destination.containsAddr endpoint

def WireGuardPlan.appliedRoute (full : Option WireGuardFullResource)
    (index : Nat) (route : PolicyRoute) : AppliedRoute :=
  { AppliedRoute.onLink route.destination index route.metric with
    table := if plan.inFullTable full route.destination then full.map (·.table) else none }

/-- Routes for a connected address prefix are the kernel's own. -/
def WireGuardPlan.tunnelRoutes : List PolicyRoute :=
  plan.routes.filter fun route =>
    !plan.addresses.any fun address => address.trunc == route.destination

/-- What the outcome of a DNS request does to the entry. -/
def recordWireguardDns (outcome : DnsApply) (entry : JournalEntry) : JournalEntry :=
  let warn := JournalEntry.updateLink fun link =>
    { link with warnings := link.warnings ++ [.dnsNotApplied] }
  match outcome with
  | .applied =>
    match entry.resources.getLast? with
    | some (.dns dns) => entry.pop.push (.dns { dns with applied := true })
    | _ => entry
  | .unavailable => warn entry
  | .skipped => warn entry.pop

def wireguardDns (index ifindex : Nat) (name : String) (plan : WireGuardPlan) (full : Bool) :
    Prog Unit := do
  if plan.dnsServers.isEmpty then pure ()
  else do
    updateEntry index (·.push (.dns
      { interfaceIndex := ifindex, name, servers := plan.dnsServers, domains := plan.dnsDomains,
        full, applied := false }))
    save
    let outcome ← asOther (dnsApply name plan.dnsServers plan.dnsDomains full)
    updateEntry index (recordWireguardDns outcome)
    save

/-- The policy rules of a full tunnel, and the check of its transport. -/
def wireguardRules (index : Nat) (origin : Origin) : Option WireGuardFullResource → Prog Unit
  | none => pure ()
  | some full => do
      Call.forEach (fun rule => writeAhead index (.rule rule) (addRule origin rule))
        (fullPolicyRules full)
      adjust

/-- A setting that is made only when it is asked for. -/
def adjustIf (wanted : Bool) : Prog Unit := if wanted then adjust else pure ()

/-- Everything after the link is created and recorded. -/
def configureWireguard (index ifindex : Nat) (name : String) (origin : Origin)
    (plan : WireGuardPlan) (full : Option WireGuardFullResource) : Prog Unit := do
  adjust
  let endpoints ← query fun core => .ok (core.view.wgEndpointIps name)
  if endpoints.any (plan.covers full) then
    Call.throw
      (invalidInput (.text "WireGuard endpoint is covered by tunnel routes or addresses"))
  else do
    adjustIf full.isSome
    Call.forEach
      (fun address =>
        writeAhead index (.address { interfaceIndex := ifindex, address })
          (addAddress ifindex address))
      plan.addresses
    adjustIf plan.mtu.isSome
    adjust
    Call.forEach
      (fun route =>
        writeAhead index (.route (plan.appliedRoute full ifindex route))
          (addRouteExclusive origin (plan.appliedRoute full ifindex route)))
      plan.tunnelRoutes
    wireguardRules index origin full
    wireguardDns index ifindex name plan full.isSome

/-- The closure of `connect_wireguard`. -/
def establishWireguard (index : Nat) (origin : Origin) (name fallback marker : String)
    (plan : WireGuardPlan) (full : Option WireGuardFullResource) : Prog Unit := do
  let (ifindex, name) ← createWireguardLink origin name fallback marker
  updateEntry index (·.updateLink fun link => { link with index := ifindex, name })
  save
  configureWireguard index ifindex name origin plan full

/-- Tear down what a failed connect left and return its error. -/
def abandon {α : Type} (index : Nat) (e : IoError) : Prog α := do
  let _ ← Call.attempt (teardownEntry index)
  persist
  Call.throw e

/-- A link that was never created: the entry has nothing but the intent to create it. -/
def JournalEntry.linkNotCreated (entry : JournalEntry) : Bool :=
  match entry.resources with
  | [.wireGuardLink link] => link.index == 0
  | _ => false

/-- A refused creation must not claim the link of that name, so it is not torn down. -/
def failWireguard (index : Nat) (e : IoError) : Prog Unit := do
  let entry ← entryAt index
  if isAlreadyExists e && entry.linkNotCreated then do
    removeEntry index
    persist
    Call.throw e
  else abandon index e

def clearTunnelFailed (key : OwnerKey) : Prog Unit :=
  Call.modify fun core =>
    { core with tunnelFailed := core.tunnelFailed.filter fun seen => seen != key }

/-- The last step of a connect: mark the entry applied and save it, or take it down. -/
def commitTunnel (index : Nat) : Prog Unit := do
  updateEntry index (·.setState .applied)
  match ← Call.attempt save with
  | .ok () => pure ()
  | .error e => abandon index e

def ownerMarker (uid : Nat) (owner : Owner) : String :=
  "network-orchestrator:" ++ toString uid ++ ":" ++ owner.render

def WireGuardPlan.allWarnings : List WireGuardWarning :=
  plan.warnings ++ if plan.fullIpv4 && !plan.fullIpv6 then [.ipv6NotCovered] else []

/-- From the write-ahead entry on. -/
def connectWireguardEntry (uid : Nat) (profileId : String) (plan : WireGuardPlan)
    (full : Option WireGuardFullResource) : Prog Unit := do
  let owner := Owner.wg profileId
  let (name, fallback) := wireguardName uid profileId plan.interfaceName
  let marker := ownerMarker uid owner
  pushEntry
    { uid, owner, state := .applying
      resources :=
        [.wireGuardLink
          { name, index := 0, ownerMarker := marker, full, warnings := plan.allWarnings }] }
  let index := (← Call.gets fun core => core.journal.length) - 1
  match ← Call.attempt save with
  | .error e => do
      setJournal List.dropLast
      Call.throw e
  | .ok () =>
    match ← Call.attempt
        (establishWireguard index (.daemon uid owner) name fallback marker plan full) with
    | .error e => failWireguard index e
    | .ok () => do
        commitTunnel index
        clearTunnelFailed (uid, owner)

/-- `connect_wireguard`. The profile id passes the owner check (`wireguard_owner`). -/
def connectWireguard (uid : Nat) (profileId : String) (plan : WireGuardPlan) : Prog Unit := do
  demand (validateOwner profileId)
  let executors ← Call.gets DaemonCore.executors
  if !plan.dnsServers.isEmpty && !executors.dns then
    Call.throw (invalidInput (.text "DNS executor is unavailable"))
  else if (← position uid (.wg profileId)).isSome then
    Call.throw ⟨.alreadyExists, .text "WireGuard profile is already connected"⟩
  else if !executors.wg || !executors.wgConfig then
    Call.throw ⟨.notConnected, .text "WireGuard executor is unavailable"⟩
  else do
    let full ← allocateFull plan
    connectWireguardEntry uid profileId plan full

/-- The end of a disconnect: the outcome of the teardown, unless the save failed. -/
def disconnectAt (index : Nat) : Prog Unit := do
  let result ← Call.attempt (teardownEntry index)
  save
  Call.ofExcept result

/-- Disconnecting a tunnel that a reconcile took down clears its failure mark. -/
def disconnectAbsent (key : OwnerKey) (message : String) : Prog Unit := do
  if ← Call.gets fun core => core.tunnelFailed.contains key then clearTunnelFailed key
  else Call.throw ⟨.notFound, .text message⟩

def disconnectWireguard (uid : Nat) (profileId : String) : Prog Unit := do
  demand (validateOwner profileId)
  match ← position uid (.wg profileId) with
  | none => disconnectAbsent (uid, .wg profileId) "WireGuard profile is not connected"
  | some index => disconnectAt index

end NetOrchestrator.Daemon
