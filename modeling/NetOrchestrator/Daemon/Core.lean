import NetOrchestrator.Lib.Loops
import NetOrchestrator.Daemon.Kernel
import NetOrchestrator.Daemon.OpenVpn

/-!
# `Daemon.Core`: the daemon's state and its executors

`DaemonCore` is the state that every request works on: the journal in memory and on disk,
the kernel, the process runners, the resolver, the intent store, and the daemon's own
bookkeeping. A request is a `Prog`, a `Call` over this state. Each executor call and each
journal save is one primitive step, so it may fail without effect and the daemon may crash
right before it.

Questions that the daemon asks about the machine around it (which link has which index,
where the default gateways are, what a name resolves to) are answered by `View`. The
environment chooses it anew for every request and it does not change during one. Questions
about what the daemon itself put in place are answered by the kernel model.
-/

namespace NetOrchestrator.Daemon

open Net Lib

inductive ExternalLinkKind where
  | missing
  | wireGuard
  | tun
  | other
  deriving DecidableEq

inductive DnsApply where
  | applied
  | unavailable
  | skipped
  deriving DecidableEq

abbrev OwnerKey := Nat × Owner

/-- The machine around the daemon, as one request sees it. -/
structure View where
  linkIndex : String → Except IoError (Option Nat)
  linkKind : String → Except IoError ExternalLinkKind
  defaultGateways : Except IoError (List (IpAddr × Nat))
  onLinkNetworks : Except IoError (List (Nat × IpNet))
  resolve : String → List IpAddr
  wgMarksInUse : List Nat
  wgEndpointIps : String → List IpAddr
  dnsApply : String → DnsApply
  openvpnPoll : String → Except IoError (List ManagementEvent)
  xrayHealth : String → Bool
  watchdogNetwork : Bool
  watchdogOnline : OwnerKey → Bool
  watchdogRequest : OwnerKey → Bool

/-- Which of the optional executors this daemon was opened with. -/
structure Executors where
  policy : Bool
  dns : Bool
  wg : Bool
  wgConfig : Bool
  openvpn : Bool
  xray : Bool
  quicReject : Bool
  intents : Bool
  deriving DecidableEq

/-- A process runner: the children it tracks and the staging directories on disk, both by
uid and link name. -/
structure Runner where
  children : List (Nat × String)
  stages : List (Nat × String)
  deriving DecidableEq

/-- Per-user intent documents, by uid. -/
abbrev IntentDocuments := List (Nat × List NetIntentSetParams)

structure DaemonCore where
  journal : Journal
  disk : Journal
  kernel : Kernel
  view : View
  executors : Executors
  openvpn : Runner
  xray : Runner
  resolver : List (String × List IpAddr × List String × Bool)
  quicReject : List (Nat × String)
  intents : IntentDocuments
  openvpnRuntime : List (OwnerKey × OpenVpnRuntime)
  openvpnFailed : List OwnerKey
  tunnelFailed : List OwnerKey
  xrayRestarts : List (OwnerKey × Nat)

/-- A daemon that has just been opened on a machine where it owns nothing. -/
def DaemonCore.fresh (kernel : Kernel) (view : View) (executors : Executors) : DaemonCore :=
  { journal := []
    disk := []
    kernel
    view
    executors
    openvpn := ⟨[], []⟩
    xray := ⟨[], []⟩
    resolver := []
    quicReject := []
    intents := []
    openvpnRuntime := []
    openvpnFailed := []
    tunnelFailed := []
    xrayRestarts := [] }

/-- A machine with no links and no uplink. -/
def View.bare : View :=
  { linkIndex := fun _ => .ok none
    linkKind := fun _ => .ok .missing
    defaultGateways := .ok []
    onLinkNetworks := .ok []
    resolve := fun _ => []
    wgMarksInUse := []
    wgEndpointIps := fun _ => []
    dnsApply := fun _ => .applied
    openvpnPoll := fun _ => .ok []
    xrayHealth := fun _ => true
    watchdogNetwork := false
    watchdogOnline := fun _ => true
    watchdogRequest := fun _ => false }

def Executors.all : Executors :=
  { policy := true, dns := true, wg := true, wgConfig := true, openvpn := true, xray := true,
    quicReject := true, intents := true }

/-- A request, or a part of one. -/
abbrev Prog (α : Type) := Call DaemonCore Fault IoError α

/-! ### The journal -/

/-- `JournalStore::save`: an atomic replace, so a failed save leaves the old file or, when the sync
behind the rename failed, the new one. -/
def save : Prog Unit :=
  Call.commit Fault.report Fault.late fun core => (.ok (), { core with disk := core.journal })

/-- Save after the kernel has already changed. A failure is logged, not returned. -/
def persist : Prog Unit := do
  let _ ← Call.attempt save
  pure ()

def position (uid : Nat) (owner : Owner) : Prog (Option Nat) :=
  Call.gets fun core => core.journal.position uid owner

/-- An entry by its index. An index out of range is a panic in the source. -/
def entryAt (index : Nat) : Prog JournalEntry := do
  match ← Call.gets fun core => core.journal[index]? with
  | some entry => pure entry
  | none => Call.throw ⟨.other, .text "index out of bounds"⟩

def setJournal (f : Journal → Journal) : Prog Unit :=
  Call.modify fun core => { core with journal := f core.journal }

def updateEntry (index : Nat) (f : JournalEntry → JournalEntry) : Prog Unit :=
  setJournal fun j => j.modify index f

def pushEntry (entry : JournalEntry) : Prog Unit := setJournal (· ++ [entry])

def removeEntry (index : Nat) : Prog Unit := setJournal (·.eraseIdx index)

def JournalEntry.setState (state : OwnedState) (entry : JournalEntry) : JournalEntry :=
  { entry with state }

def JournalEntry.setResources (resources : List OwnedResource) (entry : JournalEntry) :
    JournalEntry :=
  { entry with resources }

def JournalEntry.push (resource : OwnedResource) (entry : JournalEntry) : JournalEntry :=
  { entry with resources := entry.resources ++ [resource] }

def JournalEntry.pop (entry : JournalEntry) : JournalEntry :=
  { entry with resources := entry.resources.dropLast }

def JournalEntry.origin (entry : JournalEntry) : Origin := .daemon entry.uid entry.owner

/-! ### Executor calls -/

/-- A netlink request. -/
def onKernel {α : Type} (request : Kernel → Reply α) : Prog α :=
  Call.step Fault.report fun core =>
    ((request core.kernel).1, { core with kernel := (request core.kernel).2 })

/-- A question to an executor. -/
def query {α : Type} (answer : DaemonCore → Except IoError α) : Prog α :=
  Call.step Fault.report fun core => (answer core, core)

/-- A setting on a link that none of the modelled tables records. -/
def adjust : Prog Unit := query fun _ => .ok ()

def addRoute (origin : Origin) (route : AppliedRoute) : Prog Unit :=
  onKernel (·.addRoute origin route)

def addRouteExclusive (origin : Origin) (route : AppliedRoute) : Prog Unit :=
  onKernel (·.addRouteExclusive origin route)

def removeRoute (route : AppliedRoute) : Prog Unit := onKernel (·.removeRoute route)

def addSystemRoute (origin : Origin) (route : SystemRoute) : Prog Unit :=
  onKernel (·.addSystemRoute origin route)

def removeSystemRoute (route : SystemRoute) : Prog Unit := onKernel (·.removeSystemRoute route)

def netTables : Prog NetTablesResult := query fun core => .ok core.kernel.netTables

def policyUnavailable : IoError := ⟨.notConnected, .text "policy executor is unavailable"⟩

/-- `with_policy`. -/
def withPolicy {α : Type} (m : Prog α) : Prog α := do
  if ← Call.gets fun core => core.executors.policy then m else Call.throw policyUnavailable

def addSystemRule (origin : Origin) (rule : SystemRule) : Prog Unit :=
  withPolicy (onKernel (·.addSystemRule origin rule))

def removeSystemRule (rule : SystemRule) : Prog Unit :=
  withPolicy (onKernel (·.removeSystemRule rule))

def addRule (origin : Origin) (rule : OwnedRuleResource) : Prog Unit :=
  onKernel (·.addRule origin rule)

def removeRule (rule : OwnedRuleResource) : Prog Unit := onKernel (·.removeRule rule)

def rulePresent (rule : OwnedRuleResource) : Prog Bool :=
  query fun core => .ok (core.kernel.rulePresent rule)

def rulesSnapshot : Prog (List OwnedRuleResource) := query fun core => .ok core.kernel.rulesSnapshot

def tableInUse (table : Nat) : Prog Bool := query fun core => .ok (core.kernel.tableInUse table)

def createLink (origin : Origin) (name marker : String) : Prog Nat :=
  onKernel (·.createLink origin .wireguard name marker)

def linkOwned (link : WireGuardLinkResource) : Prog Bool :=
  query fun core => .ok (core.kernel.linkOwned link.name link.index link.ownerMarker)

def linkPresent (link : WireGuardLinkResource) : Prog Bool :=
  query fun core => .ok (core.kernel.linkPresent link.name link.index)

def deleteLink (link : WireGuardLinkResource) : Prog Unit :=
  onKernel (·.deleteLink link.name link.index link.ownerMarker)

def addAddress (index : Nat) (address : IpNet) : Prog Unit := onKernel (·.addAddress index address)

def removeAddress (index : Nat) (address : IpNet) : Prog Unit :=
  onKernel (·.removeAddress index address)

/-- `map_err(io::Error::other)`. -/
def asOther {α : Type} (m : Prog α) : Prog α := do
  match ← Call.attempt m with
  | .ok a => pure a
  | .error e => Call.throw { e with kind := .other }

/-- `DnsExecutor::apply`. Only an `Applied` outcome changes the resolver. -/
def dnsApply (link : String) (servers : List IpAddr) (domains : List String) (full : Bool) :
    Prog DnsApply :=
  Call.step Fault.report fun core =>
    let outcome := core.view.dnsApply link
    match outcome with
    | .applied =>
      let others := core.resolver.filter fun setting => setting.1 != link
      (.ok outcome, { core with resolver := others ++ [(link, servers, domains, full)] })
    | _ => (.ok outcome, core)

/-- `DnsExecutor::revert`. -/
def dnsRevert (link : String) : Prog Unit :=
  Call.step Fault.report fun core =>
    (.ok (), { core with resolver := core.resolver.filter fun setting => setting.1 != link })

def dnsUnavailable : IoError := ⟨.notConnected, .text "DNS executor is unavailable"⟩

/-! ### Process runners -/

/-- `link_index` of a runner, from the kernel's links. -/
def runnerLinkIndex (name : String) : Prog (Option Nat) :=
  query fun core => .ok (core.kernel.linkIndex name)

def Runner.tracks (r : Runner) (name : String) : Bool := r.children.any fun child => child.2 == name

def Runner.staged (r : Runner) (uid : Nat) (name : String) : Bool := r.stages.contains (uid, name)

def Runner.spawn (r : Runner) (uid : Nat) (name : String) : Runner :=
  { children := r.children ++ [(uid, name)], stages := r.stages ++ [(uid, name)] }

def Runner.forget (r : Runner) (name : String) : Runner :=
  { r with children := r.children.filter fun child => child.2 != name }

def Runner.unstage (r : Runner) (uid : Nat) (name : String) : Runner :=
  { r with stages := r.stages.filter fun stage => stage != (uid, name) }

/-- The TUN link of a child that has gone. -/
def Kernel.dropTun (k : Kernel) (name : String) : Kernel :=
  k.dropLinks fun link => link.name == name && link.kind == .tun

/-- The TUN link of a fresh child. -/
def Kernel.addTun (k : Kernel) (origin : Origin) (name : String) : Kernel :=
  (k.createLink origin .tun name "").2

def runnerAlreadyExists (text : String) : IoError := ⟨.alreadyExists, .text text⟩

/-- The link of an OpenVPN child appears later, when the session comes up. -/
def openvpnStart (uid : Nat) (name : String) : Prog Unit :=
  Call.step Fault.report fun core =>
    if core.openvpn.tracks name then
      (.error (runnerAlreadyExists "OpenVPN child already exists"), core)
    else if core.openvpn.staged uid name then
      (.error (runnerAlreadyExists "OpenVPN staging directory exists"), core)
    else (.ok (), { core with openvpn := core.openvpn.spawn uid name })

def openvpnStop (name : String) : Prog Unit :=
  Call.step Fault.report fun core =>
    if core.openvpn.tracks name then
      (.ok (),
        { core with openvpn := core.openvpn.forget name, kernel := core.kernel.dropTun name })
    else (.error ⟨.notFound, .text "OpenVPN child not found"⟩, core)

def openvpnCleanup (uid : Nat) (name : String) : Prog Unit :=
  Call.step Fault.report fun core =>
    if core.openvpn.tracks name then
      if core.openvpn.children.contains (uid, name) then
        (.error ⟨.other, .text "OpenVPN child is still tracked"⟩, core)
      else (.error ⟨.permissionDenied, .text "OpenVPN child ownership mismatch"⟩, core)
    else (.ok (), { core with openvpn := core.openvpn.unstage uid name })

/-- `start` waits for the TUN link to appear. -/
def xrayStart (origin : Origin) (uid : Nat) (name : String) : Prog Unit :=
  Call.step Fault.report fun core =>
    if core.xray.tracks name || (core.kernel.linkIndex name).isSome then
      (.error (runnerAlreadyExists "Xray interface exists"), core)
    else if core.xray.staged uid name then
      (.error (runnerAlreadyExists "Xray staging directory exists"), core)
    else
      (.ok (),
        { core with
          xray := core.xray.spawn uid name
          kernel := core.kernel.addTun origin name })

def xrayStop (name : String) : Prog Unit :=
  Call.step Fault.report fun core =>
    if core.xray.tracks name then
      (.ok (), { core with xray := core.xray.forget name, kernel := core.kernel.dropTun name })
    else (.error ⟨.notFound, .text "Xray child is not tracked"⟩, core)

/-- `cleanup` stops a child it still finds, tracked or recorded in the stage. -/
def xrayCleanup (uid : Nat) (name : String) : Prog Unit :=
  Call.step Fault.report fun core =>
    if core.xray.tracks name && !core.xray.children.contains (uid, name) then
      (.error ⟨.permissionDenied, .text "Xray process ownership mismatch"⟩, core)
    else
      (.ok (),
        { core with
          xray := (core.xray.forget name).unstage uid name
          kernel := core.kernel.dropTun name })

/-- `respawn` and `reload` replace the child on its staging directory. Its TUN link goes
away and comes back with a fresh index. -/
def xrayRestart (origin : Origin) (uid : Nat) (name : String) : Prog Unit :=
  Call.step Fault.report fun core =>
    if core.xray.staged uid name then
      let children := core.xray.children.filter fun child => child.2 != name
      (.ok (),
        { core with
          xray := { core.xray with children := children ++ [(uid, name)] }
          kernel := (core.kernel.dropTun name).addTun origin name })
    else (.error ⟨.notFound, .text "Xray staging directory is missing"⟩, core)

/-- `TrustedQuicReject`. -/
def quicEnsure (uid : Nat) (name : String) : Prog Unit :=
  Call.step Fault.report fun core =>
    if core.quicReject.contains (uid, name) then (.ok (), core)
    else (.ok (), { core with quicReject := core.quicReject ++ [(uid, name)] })

def quicRemove (uid : Nat) (name : String) : Prog Unit :=
  Call.step Fault.report fun core =>
    (.ok (), { core with quicReject := core.quicReject.filter fun x => x != (uid, name) })

/-! ### Reading entries -/

def findWireGuardLink (resources : List OwnedResource) : Option WireGuardLinkResource :=
  resources.findSome? fun
    | .wireGuardLink link => some link
    | _ => none

def findOpenVpnProcess (resources : List OwnedResource) : Option OpenVpnProcessResource :=
  resources.findSome? fun
    | .openVpnProcess process => some process
    | _ => none

def findXrayProcess (resources : List OwnedResource) : Option XrayProcessResource :=
  resources.findSome? fun
    | .xrayProcess process => some process
    | _ => none

def findAttachSpec (resources : List OwnedResource) : Option AttachSpecParams :=
  resources.findSome? fun
    | .attachSpec spec => some spec
    | _ => none

def findDns (resources : List OwnedResource) : Option WireGuardDnsResource :=
  resources.findSome? fun
    | .dns dns => some dns
    | _ => none

def ownedRoutes (resources : List OwnedResource) : List AppliedRoute :=
  resources.filterMap fun
    | .route route => some route
    | _ => none

def isNotFound (e : IoError) : Bool := e.kind == .notFound

def isAlreadyExists (e : IoError) : Bool := e.kind == .alreadyExists

end NetOrchestrator.Daemon
