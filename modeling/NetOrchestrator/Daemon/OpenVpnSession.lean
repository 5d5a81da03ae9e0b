import NetOrchestrator.Daemon.WireGuard

/-!
# `Daemon.OpenVpnSession`: OpenVPN owners

A connect starts the child and journals its transport mark. What the tunnel carries is
known only later: `reconcileOpenvpnOwner` polls the management socket and installs routes,
rules and DNS when the session is connected. It becomes a full tunnel there too.
-/

namespace NetOrchestrator.Daemon

open Net Lib

structure OpenVpnPlan where
  profileId : String
  name : String
  fallbackName : String
  routes : List PolicyRoute
  role : TunnelRole
  dnsDomains : List String
  deriving DecidableEq

/-! ### Transport marks -/

/-- The marks that a resource holds: a transport mark, or the mark of a full WireGuard
tunnel. -/
def OwnedResource.usesMark (mark : Nat) (resource : OwnedResource) : Bool :=
  match resource with
  | .openVpnProcess process => process.transportMark == some mark
  | .xrayProcess process => process.transportMark == mark
  | .wireGuardLink link => link.full.any fun full => full.fwmark == mark
  | _ => false

/-- A table that could not be looked up counts as occupied. -/
def tableOccupied (table : Nat) : Prog Bool := do
  if ← Call.gets fun core => core.executors.policy then
    match ← Call.attempt (tableInUse table) with
    | .ok used => pure used
    | .error _ => pure true
  else pure false

def freeMark (journal : Journal) (rules : List OwnedRuleResource) : List Nat → Prog (Option Nat)
  | [] => pure none
  | slot :: rest => do
      if journal.any (fun entry => entry.resources.any (·.usesMark (firstMark + slot))) then
        freeMark journal rules rest
      else if slotClash rules slot then freeMark journal rules rest
      else if ← tableOccupied (firstMark + slot) then freeMark journal rules rest
      else pure (some (firstMark + slot))

/-- The rules that stand in the way; without a policy executor none are known. -/
def existingRules : Prog (List OwnedRuleResource) := do
  if ← Call.gets fun core => core.executors.policy then rulesSnapshot else pure []

/-- `allocate_openvpn_mark`. Xray takes its mark here as well. -/
def allocateOpenvpnMark : Prog Nat := do
  let rules ← existingRules
  let journal ← Call.gets DaemonCore.journal
  match ← freeMark journal rules (List.range markSlots) with
  | some mark => pure mark
  | none => Call.throw ⟨.alreadyExists, .text "no OpenVPN transport mark is available"⟩

/-! ### Connecting -/

def nameOccupied : IoError := ⟨.alreadyExists, .text "OpenVPN link name is occupied"⟩

/-- Whether neither a link nor a staging directory has the name. -/
def openvpnNameFree (uid : Nat) (name : String) : Prog Bool := do
  if (← runnerLinkIndex name).isNone then do
    let staged ← query fun core => .ok (core.openvpn.staged uid name)
    pure (!staged)
  else pure false

/-- `resolve_openvpn_name`. -/
def resolveOpenvpnName (uid : Nat) (plan : OpenVpnPlan) : Prog String := do
  if ← openvpnNameFree uid plan.name then pure plan.name
  else if plan.name = plan.fallbackName then Call.throw nameOccupied
  else if ← openvpnNameFree uid plan.fallbackName then pure plan.fallbackName
  else Call.throw nameOccupied

def putRuntime (key : OwnerKey) (runtime : OpenVpnRuntime) (core : DaemonCore) : DaemonCore :=
  { core with
    openvpnRuntime := core.openvpnRuntime.filter (fun x => x.1 != key) ++ [(key, runtime)] }

variable (core : DaemonCore)

def DaemonCore.runtime? (key : OwnerKey) : Option OpenVpnRuntime :=
  (core.openvpnRuntime.find? fun x => x.1 == key).map Prod.snd

def clearOpenvpnFailed (key : OwnerKey) (core : DaemonCore) : DaemonCore :=
  { core with openvpnFailed := core.openvpnFailed.filter fun seen => seen != key }

/-- Start the child behind a write-ahead entry. -/
def startOpenvpnEntry (uid : Nat) (owner : Owner) (name : String) (mark : Nat) : Prog Unit := do
  pushEntry
    { uid, owner, state := .applying
      resources :=
        [.openVpnProcess
          { name, ownerMarker := ownerMarker uid owner, transportMark := some mark,
            full := none }] }
  match ← Call.attempt save with
  | .error e => do
      setJournal List.dropLast
      Call.throw e
  | .ok () => do
      let index := (← Call.gets fun core => core.journal.length) - 1
      match ← Call.attempt (openvpnStart uid name) with
      | .error e => do
          let _ ← Call.attempt (teardownOpenvpnEntry index)
          persist
          Call.throw e
      | .ok () => do
          updateEntry index (·.setState .applied)
          persist

def openvpnUnavailable : IoError := ⟨.notConnected, .text "OpenVPN executor is unavailable"⟩

/-- The shared part of a connect and a probe. -/
def launchOpenvpn (uid : Nat) (owner : Owner) (plan : OpenVpnPlan) : Prog Unit := do
  let mark ← allocateOpenvpnMark
  if ← Call.gets fun core => core.executors.openvpn then do
    adjust
    let name ← resolveOpenvpnName uid plan
    startOpenvpnEntry uid owner name mark
  else Call.throw openvpnUnavailable

/-- `connect_openvpn`. -/
def connectOpenvpn (uid : Nat) (plan : OpenVpnPlan) : Prog Unit := do
  demand (validateOwner (Owner.ovpn plan.profileId).render)
  let connected ← position uid (.ovpn plan.profileId)
  let probed ← position uid (.ovpnProbe plan.profileId)
  if connected.isSome || probed.isSome then
    Call.throw ⟨.alreadyExists, .text "OpenVPN profile is already connected"⟩
  else do
    launchOpenvpn uid (.ovpn plan.profileId) plan
    let key := (uid, Owner.ovpn plan.profileId)
    Call.modify (putRuntime key
      { explicitRoutes := plan.routes, role := plan.role, dnsDomains := plan.dnsDomains,
        snapshot := ManagementSnapshot.initial })
    Call.modify (clearOpenvpnFailed key)

/-- `start_openvpn_probe`: the process and its link, no routes and no DNS. -/
def startOpenvpnProbe (uid : Nat) (plan : OpenVpnPlan) : Prog Unit := do
  demand (validateOwner (Owner.ovpnProbe plan.profileId).render)
  let probed ← position uid (.ovpnProbe plan.profileId)
  let connected ← position uid (.ovpn plan.profileId)
  if probed.isSome || connected.isSome then
    Call.throw ⟨.alreadyExists, .text "OpenVPN profile is already active"⟩
  else launchOpenvpn uid (.ovpnProbe plan.profileId) plan

/-- `finish_openvpn_probe`. -/
def finishOpenvpnProbe (uid : Nat) (profileId : String) : Prog Unit := do
  match ← position uid (.ovpnProbe profileId) with
  | none => Call.throw ⟨.notFound, .text "OpenVPN probe is not active"⟩
  | some index => do
      let result ← Call.attempt (teardownOpenvpnEntry index)
      persist
      Call.ofExcept result

/-- `disconnect_openvpn`. -/
def disconnectOpenvpn (uid : Nat) (profileId : String) : Prog Unit := do
  let key := (uid, Owner.ovpn profileId)
  match ← position uid (.ovpn profileId) with
  | none => do
      if ← Call.gets fun core => core.openvpnFailed.contains key then
        Call.modify (clearOpenvpnFailed key)
      else Call.throw ⟨.notFound, .text "OpenVPN profile is not connected"⟩
  | some index => do
      match ← Call.attempt (teardownEntry index) with
      | .ok () => do
          persist
          Call.modify (clearOpenvpnFailed key)
      | .error e => do
          persist
          Call.throw e

/-! ### The reconcile pass -/

/-- `fail_openvpn`: take the session down and report it failed. -/
def failOpenvpn (uid : Nat) (owner : Owner) : Prog Unit := do
  undoOpenvpn
  Call.modify fun core =>
    { clearOpenvpnFailed (uid, owner) core with
      openvpnFailed := (clearOpenvpnFailed (uid, owner) core).openvpnFailed ++ [(uid, owner)] }
  Call.throw
    (invalidInput
      (.text "OpenVPN connection failed or requested unsupported network options"))
where
  undoOpenvpn : Prog Unit := do
    match ← position uid owner with
    | none => pure ()
    | some index => do
        let _ ← Call.attempt (teardownOpenvpnEntry index)
        persist

/-- Whether a full tunnel of another entry stands in the way. -/
def otherFull (journal : Journal) (index : Nat) : Bool :=
  (journal.eraseIdx index).any JournalEntry.holdsFull

/-- The slot of a transport mark. -/
def markSlot (mark : Nat) : Option Nat :=
  if firstMark ≤ mark ∧ mark - firstMark < markSlots then some (mark - firstMark) else none

/-- A slot that a process takes up for the first time has to be free. -/
def checkOpenvpnSlot (mark slot : Nat) : Prog Unit := do
  if ← Call.gets fun core => core.executors.policy then do
    let rules ← rulesSnapshot
    let used ← occupied rules
    if used then Call.throw ⟨.alreadyExists, .text "OpenVPN policy slot is occupied"⟩
    else pure ()
  else Call.throw policyUnavailable
where
  occupied (rules : List OwnedRuleResource) : Prog Bool := do
    if slotClash rules slot then pure true
    else if ← tableInUse mark then pure true
    else if ← Call.gets fun core => core.executors.wgConfig then
      match ← Call.attempt (query fun core => .ok core.view.wgMarksInUse) with
      | .ok marks => pure (marks.contains mark)
      | .error _ => pure true
    else pure false

/-- `openvpn_full_plan`. -/
def openvpnFullPlan (index : Nat) (ipv4 ipv6 : Bool) : Prog (Option WireGuardFullResource) := do
  if !ipv4 && !ipv6 then pure none
  else if ← Call.gets fun core => otherFull core.journal index then Call.throw anotherFullTunnel
  else do
    let entry ← entryAt index
    match findOpenVpnProcess entry.resources with
    | none => Call.throw ⟨.invalidData, .text "OpenVPN process journal is malformed"⟩
    | some process =>
      match process.transportMark with
      | none => Call.throw ⟨.invalidData, .text "OpenVPN transport mark is missing"⟩
      | some mark =>
        match markSlot mark with
        | none => Call.throw ⟨.invalidData, .text "OpenVPN transport mark is invalid"⟩
        | some slot => do
            if process.full.isSome then pure (some (fullResource slot ipv4 ipv6))
            else do
              checkOpenvpnSlot mark slot
              pure (some (fullResource slot ipv4 ipv6))

/-- What a batch of management events asks for. -/
inductive Polled where
  | failed
  | session
  deriving DecidableEq

/-- Fold the events into the runtime. An authentication failure or an unanswered prompt
ends the session. -/
def applyEvents (key : OwnerKey) : List ManagementEvent → Prog Polled
  | [] => pure .session
  | event :: rest =>
    match event with
    | .authenticationFailed | .passwordPrompt | .failureDetail .credentialsRequired =>
      pure .failed
    | event => do
        Call.modify fun core =>
          { core with
            openvpnRuntime := core.openvpnRuntime.map fun x =>
              if x.1 == key then
                (x.1, { x.2 with snapshot := x.2.snapshot.apply event })
              else x }
        applyEvents key rest

/-- The plan of the session's current state; `none` while it is neither up nor
reconnecting. -/
def sessionPlan (runtime : OpenVpnRuntime) : Except IoError (Option OpenVpnNetworkPlan) :=
  match runtime.snapshot.state with
  | some .connected => (OpenVpnNetworkPlan.fromRuntime runtime).map some
  | some .reconnecting => .ok (some .idle)
  | _ => .ok none

def OpenVpnNetworkPlan.appliedRoute (plan : OpenVpnNetworkPlan)
    (full : Option WireGuardFullResource) (index : Nat) (route : PolicyRoute) : AppliedRoute :=
  { AppliedRoute.onLink route.destination index route.metric with
    table := if plan.isFullRoute route.destination then full.map (·.table) else none }

/-- Whether the entry already holds what the plan asks for. Interface indices are not
compared. -/
def OpenVpnNetworkPlan.isCurrent (plan : OpenVpnNetworkPlan)
    (full : Option WireGuardFullResource) (resources : List OwnedResource) : Bool :=
  let current := (ownedRoutes resources).map fun route =>
    (route.destination, route.metric, route.table)
  let desired := plan.routes.map fun route =>
    (route.destination, route.metric,
      if plan.isFullRoute route.destination then full.map (·.table) else none)
  let currentFull := (findOpenVpnProcess resources).bind OpenVpnProcessResource.full
  let dns := findDns resources
  current == desired && currentFull == full &&
    dns.all (fun dns => dns.servers == plan.dnsServers && dns.domains == plan.dnsDomains &&
      dns.full == full.isSome) &&
    dns.isSome != plan.dnsServers.isEmpty

/-- Any failure of `m` fails the session. -/
def orFail {α : Type} (uid : Nat) (owner : Owner) (m : Prog α) (next : α → Prog Unit) :
    Prog Unit := do
  match ← Call.attempt m with
  | .ok a => next a
  | .error _ => failOpenvpn uid owner

def popResource (index : Nat) : Prog Unit := updateEntry index JournalEntry.pop

/-- A refused add whose key was taken leaves nothing of ours behind. -/
def popIfTaken (index : Nat) (e : IoError) : Prog Unit :=
  if isAlreadyExists e then popResource index else pure ()

/-- Install the routes of the plan. The flag says whether the pass goes on. -/
def installOpenvpnRoutes (uid : Nat) (owner : Owner) (index : Nat) : List AppliedRoute → Prog Unit
  | [] => pure ()
  | route :: rest => do
      updateEntry index (·.push (.route route))
      match ← Call.attempt save with
      | .error e => do
          popResource index
          let _ ← Call.attempt (failOpenvpn uid owner)
          Call.throw e
      | .ok () =>
        match ← Call.attempt (addRouteExclusive (.daemon uid owner) route) with
        | .error e => do
            popIfTaken index e
            failOpenvpn uid owner
        | .ok () => installOpenvpnRoutes uid owner index rest

def installOpenvpnRules (uid : Nat) (owner : Owner) (index : Nat) :
    List OwnedRuleResource → Prog Unit
  | [] => pure ()
  | rule :: rest => do
      updateEntry index (·.push (.rule rule))
      match ← Call.attempt save with
      | .error _ => do
          popResource index
          failOpenvpn uid owner
      | .ok () =>
        match ← Call.attempt (addRule (.daemon uid owner) rule) with
        | .error e => do
            popIfTaken index e
            failOpenvpn uid owner
        | .ok () => installOpenvpnRules uid owner index rest

/-- Mark the last resource, a DNS record, as applied. -/
def JournalEntry.dnsApplied (entry : JournalEntry) : JournalEntry :=
  match entry.resources.getLast? with
  | some (.dns dns) => entry.pop.push (.dns { dns with applied := true })
  | _ => entry

def installOpenvpnDns (uid : Nat) (owner : Owner) (index link : Nat) (name : String)
    (plan : OpenVpnNetworkPlan) (full : Bool) : Prog Unit := do
  if plan.dnsServers.isEmpty then pure ()
  else do
    updateEntry index (·.push (.dns
      { interfaceIndex := link, name, servers := plan.dnsServers, domains := plan.dnsDomains,
        full, applied := false }))
    match ← Call.attempt save with
    | .error _ => do
        popResource index
        failOpenvpn uid owner
    | .ok () =>
      match ← Call.attempt (dnsApply name plan.dnsServers plan.dnsDomains full) with
      | .ok .applied => do
          updateEntry index JournalEntry.dnsApplied
          persist
      | .ok _ => pure ()
      | .error _ => failOpenvpn uid owner

/-- `resources.first_mut()`, when it is the process marker. -/
def JournalEntry.setOpenvpnFull (full : Option WireGuardFullResource) (entry : JournalEntry) :
    JournalEntry :=
  match entry.resources with
  | .openVpnProcess process :: rest =>
    { entry with resources := .openVpnProcess { process with full } :: rest }
  | _ => entry

/-- The link that the session's routes go to. -/
def sessionLink (name : String) : Prog Nat := do
  match ← runnerLinkIndex name with
  | some index => pure index
  | none => Call.throw ⟨.notFound, .text "OpenVPN link is absent"⟩

/-- Replace the session's network state by the plan's. -/
def installOpenvpnPlan (uid : Nat) (owner : Owner) (index : Nat) (name : String)
    (plan : OpenVpnNetworkPlan) (full : Option WireGuardFullResource) : Prog Unit :=
  orFail uid owner (clearOpenvpnNetwork index) fun () => do
    if plan.routes.isEmpty && plan.dnsServers.isEmpty then pure ()
    else
      orFail uid owner (sessionLink name) fun link => do
        updateEntry index (·.setOpenvpnFull full)
        orFail uid owner save fun () => do
          installOpenvpnRoutes uid owner index
            (plan.routes.map (plan.appliedRoute full link))
          installOpenvpnRules uid owner index (full.toList.flatMap fullPolicyRules)
          installOpenvpnDns uid owner index link name plan full.isSome

/-- The pass over a session whose plan is known. -/
def reconcileOpenvpnPlan (uid : Nat) (owner : Owner) (index : Nat) (name : String)
    (plan : OpenVpnNetworkPlan) : Prog Unit :=
  orFail uid owner (openvpnFullPlan index plan.fullIpv4 plan.fullIpv6) fun full => do
    let executors ← Call.gets DaemonCore.executors
    if !plan.dnsServers.isEmpty && !executors.dns then failOpenvpn uid owner
    else do
      let entry ← entryAt index
      if plan.isCurrent full entry.resources then pure ()
      else installOpenvpnPlan uid owner index name plan full

/-- `reconcile_openvpn_owner`. -/
def reconcileOpenvpnOwner (uid : Nat) (owner : Owner) : Prog Unit := do
  match ← position uid owner with
  | none => Call.throw ⟨.notFound, .text "OpenVPN owner is missing"⟩
  | some index => do
      let entry ← entryAt index
      match findOpenVpnProcess entry.resources with
      | none => Call.throw ⟨.invalidData, .text "OpenVPN process journal is malformed"⟩
      | some process =>
        orFail uid owner (query fun core => core.view.openvpnPoll process.name) fun events => do
          match ← applyEvents (uid, owner) events with
          | .failed => failOpenvpn uid owner
          | .session => do
              match ← Call.gets fun core => core.runtime? (uid, owner) with
              | none => pure ()
              | some runtime =>
                match sessionPlan runtime with
                | .error _ => failOpenvpn uid owner
                | .ok none => pure ()
                | .ok (some plan) => reconcileOpenvpnPlan uid owner index process.name plan

/-- The owners of the pass: sessions whose entry is applied. -/
def openvpnOwners : List OwnerKey :=
  (core.openvpnRuntime.map Prod.fst).filter fun key =>
    ((core.journal.position key.1 key.2).bind fun index => core.journal[index]?).any fun entry =>
      entry.state == .applied

/-- One failing owner does not starve the others; the first error is reported. -/
def reconcileOwners : List OwnerKey → Option IoError → Prog Unit
  | [], none => pure ()
  | [], some e => Call.throw e
  | key :: rest, first => do
      match ← Call.attempt (reconcileOpenvpnOwner key.1 key.2) with
      | .ok () => reconcileOwners rest first
      | .error e => reconcileOwners rest (first.orElse fun _ => some e)

/-- `reconcile_openvpn`. -/
def reconcileOpenvpn : Prog Unit := do
  let owners ← Call.gets openvpnOwners
  reconcileOwners owners none

end NetOrchestrator.Daemon
