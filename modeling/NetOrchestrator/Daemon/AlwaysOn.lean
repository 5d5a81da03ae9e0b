import NetOrchestrator.Daemon.WireGuardConfig

/-!
# `Daemon.AlwaysOn`: profiles that the daemon keeps up

A user stores definitions of WireGuard profiles and static routes; a pass starts every
enabled one that is not up, unless the user's document is paused. The documents are files,
one for each user. Here a document is a value, and `StoreReads` says which reads go through.

A WireGuard definition carries the parameters of an interactive connect. The handler of that
request turns them into a plan (`wireguardConnectPlan`); `applyDefinition` makes its own
(`definitionPlan`).
-/

namespace NetOrchestrator.Daemon

open Net Lib

/-! ### Definitions -/

structure WireGuardConnectParams where
  profileId : String
  config : String
  routes : List PolicyRoute
  interfaceName : Option String
  role : TunnelRole
  dnsDomains : List String
  deriving DecidableEq

structure AlwaysOnStaticRoutes where
  profileId : String
  interfaceName : String
  routes : List PolicyRoute
  deriving DecidableEq

inductive AlwaysOnKind where
  | wireGuard
  | staticRoutes
  deriving DecidableEq

inductive AlwaysOnDefinition where
  | wireGuard (profile : WireGuardConnectParams)
  | staticRoutes (profile : AlwaysOnStaticRoutes)
  deriving DecidableEq

/-- `AlwaysOnDefinition::owner`. -/
def AlwaysOnDefinition.owner : AlwaysOnDefinition → String
  | .wireGuard profile => "wg:" ++ profile.profileId
  | .staticRoutes profile => profile.profileId

/-- `invalid_data`. -/
def alwaysOnInvalid : IoError := ⟨.invalidData, .text "always-on definitions are not safe to load"⟩

/-- The message of a failed check is not kept. -/
def orUnsafe {ε α : Type} (check : Except ε α) : Except IoError α :=
  check.mapError fun _ => alwaysOnInvalid

/-- The routes of a static profile on a link. -/
def AlwaysOnStaticRoutes.appliedRoutes (profile : AlwaysOnStaticRoutes) (index : Nat) :
    List AppliedRoute :=
  profile.routes.map fun route =>
    { destination := route.destination
      interfaceIndex := index
      metric := route.metric
      gateway := route.via
      table := none }

/-- Whether an owner has one of the tunnel prefixes. -/
def isTunnelOwner (owner : String) : Bool :=
  ["wg:", "ovpn:", "ovpn-probe:", "xray:"].any fun reserved =>
    reserved.toList.isPrefixOf owner.toList

variable (lib : WireGuardCrates)

/-- `validate_definition`. -/
def validateDefinition (definition : AlwaysOnDefinition) : Except IoError Unit := do
  orUnsafe (validateOwner definition.owner)
  match definition with
  | .wireGuard profile => do
      let _ ← orUnsafe (parseWireguardConfig lib profile.config profile.routes)
      pure ()
  | .staticRoutes profile =>
    if isTunnelOwner definition.owner then .error alwaysOnInvalid
    else do
      orUnsafe (validateIfaceName profile.interfaceName)
      if profile.routes.isEmpty then .error alwaysOnInvalid
      else orUnsafe (validateApply (profile.appliedRoutes 1))

/-! ### The plan of a WireGuard profile, on both paths -/

def maxSecondaryNetworks : Nat := 512

/-- `secondary_networks`. -/
def secondaryNetworks (routes : List PolicyRoute) : Except String (List IpNet) :=
  if routes.isEmpty then .error "Add at least one network to this secondary connection"
  else if maxSecondaryNetworks < routes.length then
    .error "A secondary connection can carry at most 512 networks"
  else
    routes.foldlM
      (fun networks route =>
        let network := route.destination.trunc
        if network.len ≤ 1 then
          .error "A secondary connection cannot take all traffic; make it the primary"
        else if network.addr.isMulticast || network.addr.isLoopback then
          .error "A secondary connection cannot take multicast or loopback addresses"
        else .ok (if networks.contains network then networks else networks ++ [network]))
      []

/-- `valid_dns_suffix`. -/
def validDnsSuffix (name : String) : Bool :=
  name != "" && name.utf8ByteSize ≤ 253 && name.toList.head? != some '.' &&
    name.toList.getLast? != some '.' && !(name.toList.zip name.toList.tail).contains ('.', '.') &&
    (name.toList.all fun c => isAsciiAlphanumeric c || ['.', '-', '_'].contains c) &&
    name.toList.any Char.isAlpha

/-- `validate_secondary`. -/
def validateSecondary (role : TunnelRole) (routes : List PolicyRoute) (dnsDomains : List String) :
    Except String Unit :=
  if role ≠ .secondary then .ok ()
  else do
    let _ ← secondaryNetworks routes
    if 16 < dnsDomains.length || !dnsDomains.all validDnsSuffix then
      .error "A split-DNS domain is not valid"
    else .ok ()

/-- The plan that the `WIREGUARD_CONNECT` handler passes to `connect_wireguard`. Names under
the listed suffixes resolve through the tunnel's own servers. -/
def wireguardConnectPlan (params : WireGuardConnectParams) : Except Message WireGuardPlan := do
  validateOwner params.profileId
  let plan ← (parseWireguardConfig lib params.config params.routes).mapError Message.text
  let plan := { plan with interfaceName := params.interfaceName }
  (validateSecondary params.role params.routes params.dnsDomains).mapError Message.text
  if params.role = .secondary then
    if plan.fullIpv4 || plan.fullIpv6 then
      .error (.text "A secondary connection cannot take all traffic")
    else
      .ok { plan with dnsDomains := if plan.dnsServers.isEmpty then [] else params.dnsDomains }
  else .ok plan

/-- The plan that `apply_definition` passes to `connect_wireguard`. -/
def definitionPlan (profile : WireGuardConnectParams) : Except IoError WireGuardPlan := do
  let plan ← orUnsafe (parseWireguardConfig lib profile.config profile.routes)
  pure { plan with interfaceName := profile.interfaceName }

/-! ### Starting a definition -/

/-- `if_nametoindex`; zero where there is no such link. -/
def ifNametoindex (name : String) : Prog Nat :=
  Call.gets fun core =>
    match core.view.linkIndex name with
    | .ok (some index) => index
    | _ => 0

/-- The state of the entry of an owner, if there is one. -/
def ownedState (uid : Nat) (owner : String) : Prog (Option OwnedState) :=
  Call.gets fun core =>
    (core.journal.find? fun entry => entry.uid == uid && entry.owner == Owner.parse owner).map
      JournalEntry.state

/-- `apply_definition`: whether it started the owner. -/
def applyDefinition (uid : Nat) (definition : AlwaysOnDefinition) : Prog Bool := do
  Call.ofExcept (validateDefinition lib definition)
  match ← ownedState uid definition.owner with
  | some .applied => pure false
  | some _ =>
    Call.throw ⟨.alreadyExists, .text "existing owner needs recovery before replay"⟩
  | none =>
    match definition with
    | .wireGuard profile => do
        let plan ← Call.ofExcept (definitionPlan lib profile)
        connectWireguard uid profile.profileId plan
        pure true
    | .staticRoutes profile => do
        let index ← ifNametoindex profile.interfaceName
        if index = 0 then Call.throw ⟨.notFound, .text "interface is unavailable"⟩
        else do
          let _ ← applyRoutes uid profile.profileId (profile.appliedRoutes index)
          pure true

/-! ### The documents -/

structure StoredEntry where
  enabled : Bool
  definition : AlwaysOnDefinition
  deriving DecidableEq

structure AlwaysOnDocument where
  paused : Bool
  entries : List StoredEntry
  deriving DecidableEq

def AlwaysOnDocument.blank : AlwaysOnDocument := { paused := false, entries := [] }

def maxAlwaysOnEntries : Nat := 32

namespace AlwaysOnDocument

/-- `insert`. The flag says whether the document changed. -/
def insert (definition : AlwaysOnDefinition) (document : AlwaysOnDocument) :
    Except IoError (Bool × AlwaysOnDocument) :=
  match document.entries.find? fun entry => entry.definition.owner == definition.owner with
  | some entry =>
    if entry.definition ≠ definition then
      .error ⟨.alreadyExists, .text "definition differs"⟩
    else if entry.enabled then .ok (false, document)
    else
      let index := document.entries.findIdx fun entry =>
        entry.definition.owner == definition.owner
      .ok (true, { document with entries := document.entries.set index ⟨true, definition⟩ })
  | none =>
    if maxAlwaysOnEntries ≤ document.entries.length then .error alwaysOnInvalid
    else .ok (true, { document with entries := document.entries ++ [⟨true, definition⟩] })

/-- `disable`: the first entry of the owner. -/
def disable (owner : String) (document : AlwaysOnDocument) : Bool × AlwaysOnDocument :=
  if document.entries.any fun entry => entry.definition.owner == owner then
    let index := document.entries.findIdx fun entry => entry.definition.owner == owner
    (true, { document with
      entries := document.entries.modify index fun entry => { entry with enabled := false } })
  else (false, document)

/-- `remove`: every entry of the owner. -/
def remove (owner : String) (document : AlwaysOnDocument) : Bool × AlwaysOnDocument :=
  let kept := document.entries.filter fun entry => entry.definition.owner != owner
  if kept.length = document.entries.length then (false, document)
  else (true, { document with entries := kept })

def pause (document : AlwaysOnDocument) : AlwaysOnDocument := { document with paused := true }

def resume (document : AlwaysOnDocument) : AlwaysOnDocument := { document with paused := false }

/-- The definitions that a pass starts: the enabled ones, unless the document is paused. -/
def replayable (document : AlwaysOnDocument) : List AlwaysOnDefinition :=
  if document.paused then []
  else (document.entries.filter StoredEntry.enabled).map StoredEntry.definition

end AlwaysOnDocument

/-- The documents of all users, in the order of the uids. -/
abbrev AlwaysOnDocuments := List (Nat × AlwaysOnDocument)

/-- What a read of the store meets: the root directory and each document. -/
structure StoreReads where
  root : Bool
  document : Nat → Bool

/-- `load_all`: each document on its own, so that a broken one does not hide the others. -/
def loadAlwaysOn (reads : StoreReads) (documents : AlwaysOnDocuments) :
    Except IoError (List (Nat × Except IoError AlwaysOnDocument)) :=
  if reads.root then
    .ok (documents.map fun doc =>
      (doc.1, if reads.document doc.1 then .ok doc.2 else .error alwaysOnInvalid))
  else .error alwaysOnInvalid

/-- `replayable_owners`: an unreadable document is skipped. -/
def replayableOwners (reads : StoreReads) (documents : AlwaysOnDocuments) :
    Except IoError (List (Nat × String)) := do
  let loaded ← loadAlwaysOn reads documents
  pure (loaded.flatMap fun doc =>
    match doc.2 with
    | .ok document => document.replayable.map fun definition => (doc.1, definition.owner)
    | .error _ => [])

/-! ### Replay -/

structure ReplayReport where
  started : Nat
  alreadyActive : Nat
  blocked : Nat
  failed : Nat
  deriving DecidableEq

def ReplayReport.zero : ReplayReport :=
  { started := 0, alreadyActive := 0, blocked := 0, failed := 0 }

/-- One definition of a replay. -/
def replayDefinition (uid : Nat) (report : ReplayReport)
    (definition : AlwaysOnDefinition) : Prog ReplayReport := do
  match ← ownedState uid definition.owner with
  | some .applied => pure { report with alreadyActive := report.alreadyActive + 1 }
  | some _ => pure { report with blocked := report.blocked + 1 }
  | none =>
    match ← Call.attempt (applyDefinition lib uid definition) with
    | .ok true => pure { report with started := report.started + 1 }
    | .ok false => pure { report with alreadyActive := report.alreadyActive + 1 }
    | .error _ => pure { report with failed := report.failed + 1 }

def replayDefinitions (lib : WireGuardCrates) (uid : Nat) :
    ReplayReport → List AlwaysOnDefinition → Prog ReplayReport
  | report, [] => pure report
  | report, definition :: rest => do
      let report ← replayDefinition lib uid report definition
      replayDefinitions lib uid report rest

/-- The documents of a replay. An unreadable one counts as failed. -/
def replayUsers (lib : WireGuardCrates) :
    ReplayReport → List (Nat × Except IoError AlwaysOnDocument) → Prog ReplayReport
  | report, [] => pure report
  | report, (_, .error _) :: rest =>
    replayUsers lib { report with failed := report.failed + 1 } rest
  | report, (uid, .ok document) :: rest => do
      let report ← replayDefinitions lib uid report document.replayable
      replayUsers lib report rest

/-- `replay`. -/
def replay (reads : StoreReads) (documents : AlwaysOnDocuments) : Prog ReplayReport := do
  let loaded ← Call.ofExcept (loadAlwaysOn reads documents)
  replayUsers lib .zero loaded

end NetOrchestrator.Daemon
