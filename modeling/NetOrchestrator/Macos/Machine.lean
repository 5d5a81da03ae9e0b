import NetOrchestrator.Daemon.AlwaysOn
import NetOrchestrator.Macos.Routes
import NetOrchestrator.Macos.Service

/-!
# `Macos.Machine`: what the tunnel executors work on

Three tunnel executors and the Tailscale guard share one machine: its route table, the DNS
setting of its network service, the files in `/etc/resolver`. Each of them writes what it is
about to do to a journal file of its own, so that the next helper can undo it.

A command, a file operation or a socket call is a primitive step: it is refused without effect,
it is where the helper dies, or it goes through. Setting the DNS is two of them, as it can also
fail after it took effect. What the helper only reads of its surroundings (the uplink, the
addresses of a name) comes with the request.

The ghosts: the owner of a row and of a resolver file, `deleted`, and the flags, which are lost
for good. `behind` says that a journal is behind: a route through the uplink was added since its
last save, or that save failed.
-/

namespace NetOrchestrator.Macos

open Net Lib
open NetOrchestrator.Core (RouteTarget)
open Daemon (ManagementSnapshot validDnsSuffix)

/-! ### Data -/

/-- Who has a journal. -/
inductive Component where
  | tunnel (kind : Kind)
  | tailscale
  deriving DecidableEq

structure Uplink where
  interface : String
  gateway : Option (BitVec 32)
  deriving DecidableEq

/-- A line of `networksetup -getdnsservers`. -/
inductive DnsLine where
  | address (ip : IpAddr)
  | other (text : String)
  deriving DecidableEq

/-- `parse_servers`: what is not an address is dropped. -/
def parseServers (lines : List DnsLine) : List IpAddr :=
  lines.filterMap fun
    | .address ip => some ip
    | .other _ => none

/-- The service that has these servers. -/
def dnsOf (servers : List IpAddr) : List DnsLine := servers.map .address

/-- The journal record. `dns` is the snapshot; all of this is about one network service. -/
structure Record where
  profileId : String
  interface : String
  pid : Nat
  routes : List RouteOp
  dns : Option (List IpAddr)
  resolverDomains : List String
  deriving DecidableEq

/-- The record that a connect starts with. -/
def Record.fresh (profileId interface : String) : Record :=
  { profileId
    interface
    pid := 0
    routes := []
    dns := none
    resolverDomains := [] }

/-- A file in `/etc/resolver`. `marked` is the helper's first line. -/
structure ResolverFile where
  domain : String
  servers : List IpAddr
  marked : Bool
  owner : Option Component
  deriving DecidableEq

abbrev ResolverDir := Table ResolverFile.domain

/-- A child process. An OpenVPN opens its own device. -/
structure Child where
  kind : Kind
  pid : Nat
  device : Option String
  deriving DecidableEq

structure XrayActive where
  profileId : String
  ownerUid : Nat
  role : TunnelRole
  record : Record
  tun : String
  pid : Nat
  deriving DecidableEq

structure WireGuardActive where
  profileId : String
  ownerUid : Nat
  role : TunnelRole
  record : Record
  tun : String
  engineAlive : Bool
  deriving DecidableEq

structure OpenVpnActive where
  profileId : String
  ownerUid : Nat
  role : TunnelRole
  dnsDomains : List String
  tun : String
  uplink : Uplink
  record : Record
  pid : Nat
  stage : String
  snapshot : ManagementSnapshot
  credentials : Bool
  remotes : List IpAddr
  policyNetworks : List IpNet
  applied : Option (List IpNet × List IpAddr)
  deriving DecidableEq

structure Machine where
  table : RouteTable Component
  /-- The device through which the kernel reaches a gateway. -/
  deviceOf : IpAddr → String
  dns : List DnsLine
  resolvers : ResolverDir
  journal : Component → Option Record
  children : List Child
  nextPid : Nat
  /-- The tunnel devices that the helper holds open. -/
  devices : List (Kind × String)
  /-- The staged geo data of an Xray. -/
  geo : Bool
  /-- The staged OpenVPN configurations. -/
  stages : List String
  xray : Option XrayActive
  wireGuard : Option WireGuardActive
  openVpn : Option OpenVpnActive
  /-- `installed` of the Tailscale guard. -/
  guarded : List RouteOp
  deleted : List (Component × RouteRow Component)
  behind : Component → Bool
  undone : Bool
  routesClean : Bool
  dnsClean : Bool
  filesClean : Bool
  supervised : Bool

namespace Machine

/-- A machine on which no helper has run. -/
def initial (table : RouteTable Component) (dns : List DnsLine) : Machine :=
  { table
    deviceOf := fun _ => "en0"
    dns
    resolvers := .empty
    journal := fun _ => none
    children := []
    nextPid := 100
    devices := []
    geo := false
    stages := []
    xray := none
    wireGuard := none
    openVpn := none
    guarded := []
    deleted := []
    behind := fun _ => false
    undone := true
    routesClean := true
    dnsClean := true
    filesClean := true
    supervised := true }

variable (w : Machine)

/-- The record of a running session. -/
def sessionRecord : Component → Option Record
  | .tunnel .xray => w.xray.map XrayActive.record
  | .tunnel .wireGuard => w.wireGuard.map WireGuardActive.record
  | .tunnel .openVpn => w.openVpn.map OpenVpnActive.record
  | .tailscale => none

variable (who : Component)

/-- The routes that a component has on record, in its journal or in memory. -/
def listed : List RouteOp :=
  ((w.journal who).elim [] Record.routes) ++ ((w.sessionRecord who).elim [] Record.routes)

/-- Whether another tunnel has the destination on record. -/
def listedByOther (net : IpNet) : Bool :=
  Kind.all.any fun kind =>
    Component.tunnel kind != who && (w.listed (.tunnel kind)).any fun op => op.net == net

/-- Whether another journal holds a DNS snapshot. -/
def snapshotElsewhere : Bool :=
  Kind.all.any fun kind =>
    Component.tunnel kind != who && (w.journal (.tunnel kind)).any fun record => record.dns.isSome

/-- The kernel drops the routes of a device that goes away. -/
def dropDevice (name : String) : Machine :=
  { w with
    table := w.table.drop fun row => row.entry.interfaceName == name
    devices := w.devices.filter fun device => device.2 != name }

/-- What is left of the helper when it has died: nothing in memory, and no device of its own.
`gone` are the devices that went with it. -/
def restarted (gone : String → Bool) (w : Machine) : Machine :=
  { w with
    table := w.table.drop fun row => gone row.entry.interfaceName
    devices := []
    xray := none
    wireGuard := none
    openVpn := none
    guarded := [] }

end Machine

/-! ### Commands -/

/-- How the system reports that a step failed. -/
inductive Fault where
  | permissionDenied
  | other
  deriving DecidableEq

/-- `xray::Error`, and errors of the system on their way to one. -/
inductive TunnelError where
  | invalid (text : String)
  | conflict (text : String)
  | unavailable (text : String)
  /-- "The tunnel routes could not be installed": the required route that could not. -/
  | noRoute (op : RouteOp)
  | io (fault : Fault)
  deriving DecidableEq

abbrev HelperProg := Call Machine Fault TunnelError

def command {α : Type} (act : Machine → Except TunnelError α × Machine) : HelperProg α :=
  Call.step .io act

/-- A step that only looks. -/
def reading {α : Type} (answer : Machine → Except TunnelError α) : HelperProg α :=
  command fun w => (answer w, w)

/-- Report any error of `m` as this one. -/
def orElse {α : Type} (error : TunnelError) (m : HelperProg α) : HelperProg α := do
  match ← Call.attempt m with
  | .ok a => pure a
  | .error _ => Call.throw error

/-- Clean up if `m` fails, and report its error as this one. -/
def orUndo {α : Type} (undo : HelperProg Unit) (report : TunnelError → TunnelError)
    (m : HelperProg α) : HelperProg α := do
  match ← Call.attempt m with
  | .ok a => pure a
  | .error e => do
      undo
      Call.throw (report e)

/-- An undo command: its error is ignored. `failed` is what the ghosts make of one. -/
def undoing (act failed : Machine → Machine) : HelperProg Unit := do
  match ← Call.attempt (command fun w => (.ok (), act w)) with
  | .ok () => pure ()
  | .error _ => Call.modify failed

/-! ### Routes -/

/-- `tun::GATEWAY`, 169.254.10.1. -/
def tunGateway : BitVec 32 := 0xa9fe0a01

/-- A route that does not lead into a tunnel. -/
def RouteTarget.isUplink : RouteTarget → Bool
  | .gateway address => address != .v4 tunGateway
  | .interface _ => false

variable (who : Component) (record : Record) (kind : Kind)

/-- The route is in the table. -/
def Machine.routeAdded (op : RouteOp) (w : Machine) : Machine :=
  { w with
    table := w.table.insert ⟨op.entry w.deviceOf, some who⟩
    routesClean := w.routesClean && !w.listedByOther who op.net
    behind :=
      if RouteTarget.isUplink op.target then Function.update w.behind who true
      else w.behind }

/-- `RouteOp::add`. -/
def addRoute (op : RouteOp) : HelperProg Unit :=
  command fun w =>
    if w.table.has op.net then (.error (.io .other), w) else (.ok (), w.routeAdded who op)

/-- Whatever row has the destination is gone. -/
def Machine.routeDeleted (op : RouteOp) (w : Machine) : Machine :=
  { w with
    table := w.table.erase op.net
    deleted := w.deleted ++ (w.table.get op.net).toList.map fun row => (who, row) }

/-- `RouteOp::delete`: by destination only. -/
def deleteRoute (op : RouteOp) : HelperProg Unit :=
  undoing (Machine.routeDeleted who op)
    (fun w => { w with undone := w.undone && !w.table.has op.net })

/-- `routes::remove`: in reverse order. -/
def removeRoutes (ops : List RouteOp) : HelperProg Unit :=
  Call.forEach (deleteRoute who) ops.reverse

/-- The loop of `routes::apply`. -/
def applyLoop (who : Component) : List RouteOp → List RouteOp → HelperProg (List RouteOp)
  | installed, [] => pure installed
  | installed, op :: rest => do
      match ← Call.attempt (addRoute who op) with
      | .ok () => applyLoop who (installed ++ [op]) rest
      | .error _ =>
        if op.optional then applyLoop who installed rest
        else do
          removeRoutes who installed
          Call.throw (.noRoute op)

/-- `routes::apply`: the routes that are really in place. -/
def applyRoutes (ops : List RouteOp) : HelperProg (List RouteOp) :=
  applyLoop who [] ops

/-- The required routes of a plan, which the record lists before they are added. -/
def requiredOps (ops : List RouteOp) : List RouteOp := ops.filter fun op => !op.optional

/-- Whether the destination is free, or the component's own already. -/
def Machine.mayTake (w : Machine) (who : Component) (op : RouteOp) : Bool :=
  (w.table.get op.net).all fun row => row.owner == some who

def Machine.planned (ops : List RouteOp) (w : Machine) : Machine :=
  { w with routesClean := w.routesClean && (requiredOps ops).all (w.mayTake who) }

/-- The ghosts take note that the required routes of a plan go on record. -/
def planRoutes (ops : List RouteOp) : HelperProg Unit :=
  Call.modify (Machine.planned who ops)

/-- `detect_uplink`. A tunnel that already has the default route is in the way. -/
def detectUplink (uplink : Option Uplink) (text : String) : HelperProg Uplink := do
  match ← Call.attempt (reading fun _ => .ok uplink) with
  | .error _ => Call.throw (.unavailable text)
  | .ok none => Call.throw (.unavailable text)
  | .ok (some uplink) =>
    if uplink.interface.startsWith "utun" then
      Call.throw (.conflict "another VPN already owns the default route")
    else pure uplink

def capturePrefixesV4 : List IpNet :=
  [.v4 0x80000000 1, .v4 0x40000000 2, .v4 0x20000000 3, .v4 0x10000000 4, .v4 0x08000000 5,
    .v4 0x04000000 6, .v4 0x02000000 7, .v4 0x01000000 8]

def capturePrefixesV6 : List IpNet := [.v6 0 1, .v6 0x80000000000000000000000000000000 1]

/-- A host route through the uplink's gateway. -/
def bypassOp (gateway : BitVec 32) (host : BitVec 32) : RouteOp :=
  { destination := .v4 host 32
    target := .gateway (.v4 gateway)
    optional := true }

/-- A tailnet address, in 100.64.0.0/10. -/
def inTailnet (host : BitVec 32) : Bool := host.toNat / 2 ^ 22 == 0x191

/-- `routes::plan`. -/
def planOps (uplink : Uplink) (tun : String) (bypass : List (BitVec 32)) : List RouteOp :=
  (match uplink.gateway with
    | none => []
    | some gateway =>
      (bypass.filter fun host => host != gateway && !inTailnet host).map (bypassOp gateway)) ++
    (capturePrefixesV4.map fun net => ⟨net, .gateway (.v4 tunGateway), false⟩) ++
    capturePrefixesV6.map fun net => ⟨net, .interface tun, false⟩

/-- Add a route to a plan unless its destination is there already. -/
def pushOp (ops : List RouteOp) (op : RouteOp) : List RouteOp :=
  if ops.any fun have_ => have_.destination == op.destination then ops else ops ++ [op]

/-- `gateway_routes`. -/
def gatewayRoutes (tun : String) (networks : List IpNet) : List RouteOp :=
  networks.foldl
    (fun ops net =>
      let target := if net.isIpv4 then .gateway (.v4 tunGateway) else .interface tun
      pushOp ops ⟨net.trunc, target, true⟩)
    []

/-- The routes of one network. -/
def interfaceOps (tun : String) : IpNet → List RouteOp
  | .v4 addr len =>
    if len = 0 then
      [⟨.v4 0 1, .interface tun, false⟩, ⟨.v4 0x80000000 1, .interface tun, false⟩]
    else [⟨(IpNet.v4 addr len).trunc, .interface tun, 1 < len.val⟩]
  | .v6 addr len =>
    if len = 0 then
      [⟨.v6 0 1, .interface tun, false⟩,
        ⟨.v6 0x80000000000000000000000000000000 1, .interface tun, false⟩]
    else [⟨(IpNet.v6 addr len).trunc, .interface tun, 1 < len.val⟩]

/-- `interface_routes`. -/
def interfaceRoutes (tun : String) (networks : List IpNet) : List RouteOp :=
  (networks.flatMap (interfaceOps tun)).foldl pushOp []

/-! ### Journals -/

def Machine.saved (w : Machine) : Machine :=
  { w with
    journal := Function.update w.journal who (some record)
    behind := Function.update w.behind who false }

/-- `Journal::save`: the whole record, or the old file stays. -/
def saveJournal : HelperProg Unit := do
  match ← Call.attempt (command fun w => (.ok (), w.saved who record)) with
  | .ok () => pure ()
  | .error e => do
      Call.modify fun w => { w with behind := Function.update w.behind who true }
      Call.throw e

/-- `let _ = journal.save(..)`. -/
def trySave : HelperProg Unit :=
  Call.discard (Call.attempt (saveJournal who record))

def Machine.cleared (w : Machine) : Machine :=
  { w with
    journal := Function.update w.journal who none
    behind := Function.update w.behind who false }

/-- `Journal::clear`. -/
def clearJournal : HelperProg Unit := do
  match ← Call.attempt (command fun w => (.ok (), w.cleared who)) with
  | .ok () => pure ()
  | .error e => do
      Call.modify fun w => { w with undone := false }
      Call.throw e

/-- `let _ = journal.clear()`. -/
def tryClear : HelperProg Unit := Call.discard (Call.attempt (clearJournal who))

/-- `Journal::load`. -/
def loadJournal : HelperProg (Option Record) :=
  reading fun w => .ok (w.journal who)

/-! ### DNS -/

/-- `dns::set`. The second step is its report: it may be that of a failure. -/
def setDns (servers : List IpAddr) : HelperProg Unit := do
  command fun w => (.ok (), { w with dns := dnsOf servers })
  reading fun _ => .ok ()

/-- `dns::snapshot`, if the uplink has a network service. -/
def readDns (service : Bool) : HelperProg (List IpAddr) := do
  reading fun _ => if service then .ok () else .error (.io .other)
  reading fun w => .ok (parseServers w.dns)

/-- The ghosts take note of a snapshot that is going to be kept. -/
def Machine.snapshotTaken (w : Machine) : Machine :=
  { w with
    dnsClean := w.dnsClean && !w.snapshotElsewhere who && dnsOf (parseServers w.dns) == w.dns }

/-- A snapshot that is kept to be restored, `.ok()`. -/
def takeSnapshot (service : Bool) : HelperProg (Option (List IpAddr)) := do
  match ← Call.attempt (readDns service) with
  | .ok servers => do
      Call.modify (Machine.snapshotTaken who)
      pure (some servers)
  | .error _ => pure none

/-- `dns::restore` where its error decides what happens to the journal. -/
def restoreDns (snapshot : Option (List IpAddr)) : HelperProg Bool := do
  match snapshot with
  | none => pure true
  | some servers =>
    match ← Call.attempt (setDns servers) with
    | .ok () => pure true
    | .error _ => do
        Call.modify fun w => { w with undone := false }
        pure false

/-- `let _ = dns::restore(..)`: nobody finds out that it failed. -/
def tryRestore (servers : List IpAddr) : HelperProg Unit := do
  match ← Call.attempt (setDns servers) with
  | .ok () => pure ()
  | .error _ => Call.modify fun w => { w with undone := false, dnsClean := false }

/-! ### Split DNS -/

/-- Whether the file of a domain may be replaced. -/
def Machine.resolverOurs (w : Machine) (domain : String) : Bool :=
  (w.resolvers.get domain).all ResolverFile.marked

def maxServers : Nat := 3

def Machine.resolverWritten (domain : String) (servers : List IpAddr) (w : Machine) : Machine :=
  { w with resolvers := (w.resolvers.erase domain).insert ⟨domain, servers, true, some who⟩ }

/-- Write the file of a domain, in one go: a temporary file is renamed. A refused write leaves the
file of the domain as it was; the temporary `.domain.tmp` that the source may leave beside it is
no suffix that anybody resolves, the next write takes it out first, and it is not modelled. -/
def writeResolver (domain : String) (servers : List IpAddr) : HelperProg Unit :=
  command fun w => (.ok (), w.resolverWritten who domain servers)

/-- The loop of `resolver::apply`. -/
def applyResolvers (who : Component) (servers : List IpAddr) :
    List String → List String → HelperProg (List String)
  | written, [] => pure written
  | written, domain :: rest => do
      let ours ← Call.gets fun w => w.resolverOurs domain.toLower
      if validDnsSuffix domain.toLower && ours then do
        writeResolver who domain.toLower servers
        applyResolvers who servers (written ++ [domain.toLower]) rest
      else applyResolvers who servers written rest

/-- `resolver::apply`: the suffixes that were written. -/
def resolverApply (domains : List String) (servers : List IpAddr) : HelperProg (List String) := do
  if domains.isEmpty || servers.isEmpty then pure []
  else do
    reading fun _ => .ok ()
    applyResolvers who (servers.take maxServers) [] domains

/-- Remove the file of a domain if it is the helper's. -/
def removeResolver (domain : String) : HelperProg Unit := do
  let ours ← Call.gets fun w => (w.resolvers.get domain).any ResolverFile.marked
  if validDnsSuffix domain && ours then
    undoing (fun w => { w with resolvers := w.resolvers.erase domain })
      (fun w => { w with undone := false, filesClean := false })
  else pure ()

/-- `resolver::remove`. -/
def resolverRemove (domains : List String) : HelperProg Unit := Call.forEach removeResolver domains

/-- The suffixes of a request that get a file. -/
def splitDomains (domains : List String) : List String :=
  (domains.map String.toLower).filter validDnsSuffix

/-! ### Processes and devices -/

/-- Start a child. -/
def spawnChild (device : Option String) : HelperProg Nat :=
  command fun w =>
    (.ok w.nextPid, { w with
      children := ⟨kind, w.nextPid, device⟩ :: w.children
      nextPid := w.nextPid + 1 })

/-- A child ends, and the device that it opened goes with it. -/
def Machine.endChild (pid : Nat) (w : Machine) : Machine :=
  let ended := { w with children := w.children.filter fun child => child.pid != pid }
  (w.children.filter fun child => child.pid == pid).foldl
    (fun w child => child.device.elim w w.dropDevice) ended

def Machine.childAlive (pid : Nat) (w : Machine) : Bool :=
  w.children.any fun child => child.pid == pid

/-- `Process::stop`. -/
def stopChild (pid : Nat) : HelperProg Unit := Call.modify (Machine.endChild pid)

/-- Open a tunnel device. -/
def openDevice (name : String) : HelperProg Unit :=
  command fun w => (.ok (), { w with devices := (kind, name) :: w.devices })

/-- Dropping the handle of a device removes it. -/
def closeDevice (name : String) : HelperProg Unit := Call.modify fun w => w.dropDevice name

/-- `recover` kills the child that a dead helper left running. -/
def killLeftover (pid : Nat) : HelperProg Unit :=
  Call.modify fun w =>
    if pid ≠ 0 ∧ w.children.any (fun child => child.kind == kind && child.pid == pid) then
      w.endChild pid
    else w

/-! ### Undoing a record -/

/-- The common end of every teardown and recovery: the DNS, the routes and `rest` are undone, and
the journal goes if the DNS is back. -/
def undoRecord (rest : HelperProg Unit) : HelperProg Unit := do
  let dnsOk ← restoreDns record.dns
  removeRoutes who record.routes
  rest
  if dnsOk then clearJournal who else Call.throw (.io .other)

/-- `recover_locked_io`. `kill` and `rest` are the parts in which the executors differ. -/
def recoverLocked (kill : Nat → HelperProg Unit)
    (rest : Record → HelperProg Unit) : HelperProg Unit := do
  match ← loadJournal who with
  | none => pure ()
  | some record => do
      kill record.pid
      undoRecord who record (rest record)

/-- The check that every connect starts with. -/
def checkProfileId (profileId : String) : HelperProg Unit :=
  if profileId.isEmpty || 128 < profileId.utf8ByteSize then
    Call.throw (.invalid "invalid profile id")
  else pure ()

/-- The networks of a secondary tunnel. -/
def networksOf (role : TunnelRole) (routes : List Daemon.PolicyRoute) : HelperProg (List IpNet) :=
  match role with
  | .primary => pure []
  | .secondary =>
    match Daemon.secondaryNetworks routes with
    | .ok networks => pure networks
    | .error text => Call.throw (.invalid text)

end NetOrchestrator.Macos
