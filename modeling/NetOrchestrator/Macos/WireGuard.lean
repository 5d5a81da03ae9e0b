import NetOrchestrator.Macos.Xray

/-!
# `Macos.WireGuard`: the WireGuard executor of the helper

A connect creates a device, gives it its addresses, starts the engine on it, installs the routes
that the peers ask for and sets the DNS: the system's for a primary, resolver files for a
secondary. DNS that cannot be set is a warning here, not an error.

The packets are `WgEngine`'s part. The texts of the log are left out.
-/

namespace NetOrchestrator.Macos

open Net Lib
open Daemon (PolicyRoute)

structure WgPeer where
  endpoint : Option String
  allowedIps : List IpNet

/-- What `wireguard_config::parse` makes of the configuration. -/
structure WgConfig where
  addresses : List IpNet
  dnsServers : List IpAddr
  peers : List WgPeer
  tableOff : Bool

structure WgRequest where
  uid : Nat
  profileId : String
  role : TunnelRole
  config : Except String WgConfig
  routes : List PolicyRoute
  dnsDomains : List String

structure WgSurroundings where
  uplink : Option Uplink
  service : Bool
  resolves : String → Bool
  tun : String
  /-- `std::process::id()`. -/
  helperPid : Nat

abbrev wgTunnel : Component := .tunnel .wireGuard

/-! ### Teardown -/

/-- `teardown`. The engine is part of the helper. -/
def wgTeardown (active : WireGuardActive) : HelperProg Unit :=
  undoRecord wgTunnel active.record do
    resolverRemove active.record.resolverDomains
    closeDevice active.tun

def wgTake (expected : WireGuardActive → Bool) : HelperProg (Option WireGuardActive) := do
  let taken ← Call.gets fun w => w.wireGuard.filter expected
  Call.modify fun w => { w with wireGuard := if taken.isSome then none else w.wireGuard }
  pure taken

def wgEnd (taken : Option WireGuardActive) : HelperProg Unit :=
  match taken with
  | none => pure ()
  | some active => Call.discard (Call.attempt (wgTeardown active))

/-- `reap`. -/
def wgReap : HelperProg Unit := do
  let taken ← wgTake fun active => !active.engineAlive
  wgEnd taken

/-- `disconnect`. -/
def wgDisconnect (uid : Nat) (profileId : String) : HelperProg Bool := do
  let taken ← wgTake fun active => active.profileId == profileId && active.ownerUid == uid
  match taken with
  | none => pure false
  | some active => do
      orElse (.unavailable "The previous DNS settings could not be restored") (wgTeardown active)
      pure true

/-- `shutdown`. -/
def wgShutdown : HelperProg Unit := do
  let taken ← wgTake fun _ => true
  wgEnd taken

/-- Only routes and DNS remain of an engine whose helper died. -/
def wgRecoverLocked : HelperProg Unit :=
  recoverLocked wgTunnel (fun _ => pure ()) fun record => resolverRemove record.resolverDomains

/-- `recover`. -/
def wgRecover : HelperProg Unit := do
  let active ← Call.gets fun w => w.wireGuard
  if active.isSome then pure () else wgRecoverLocked

/-! ### Connect -/

variable (env : WgSurroundings) (request : WgRequest) (config : WgConfig) (record : Record)

/-- `rollback`. -/
def wgRollback : HelperProg Unit := do
  removeRoutes wgTunnel record.routes
  tryClear wgTunnel

/-- Roll back and give up. The device goes when the request is over. -/
def wgFail (tun : String) (record : Record) (error : TunnelError) : HelperProg Unit := do
  wgRollback record
  closeDevice tun
  Call.throw error

/-- `*guard = Some(active)`. -/
def wgStart : HelperProg Unit :=
  Call.modify fun w => { w with
    wireGuard := some
      { profileId := request.profileId
        ownerUid := request.uid
        role := request.role
        record
        tun := env.tun
        engineAlive := true } }

/-- The resolver files of a secondary. -/
def wgResolvers : HelperProg Unit :=
  if record.resolverDomains.isEmpty then wgStart env request record
  else do
    let _ ← Call.attempt (resolverApply wgTunnel record.resolverDomains config.dnsServers)
    trySave wgTunnel record
    wgStart env request record

/-- The DNS of a primary. If it cannot be set, it is put back and left alone. -/
def wgDns : HelperProg Unit := do
  match record.dns with
  | none => wgResolvers env request config record
  | some servers =>
    match ← Call.attempt (setDns config.dnsServers) with
    | .ok () => wgResolvers env request config record
    | .error _ => do
        tryRestore servers
        trySave wgTunnel { record with dns := none }
        wgResolvers env request config { record with dns := none }

/-- The routes. The engine is stopped where they fail. -/
def wgRoutes (planned : List RouteOp) (record : Record) : HelperProg Unit := do
  match ← Call.attempt (applyRoutes wgTunnel planned) with
  | .error e => wgFail env.tun { record with routes := [] } e
  | .ok installed =>
    if request.role = .secondary ∧ installed = [] then
      wgFail env.tun { record with routes := [] }
        (.unavailable "None of this connection's networks could be routed")
    else do
      trySave wgTunnel { record with routes := installed }
      wgDns env request config { record with routes := installed }

/-- `Engine::start`: peers, sockets, a pipe, a thread. A failure leaves none of them. -/
def startEngine : HelperProg Unit := reading fun _ => .ok ()

/-- The record is complete. -/
def wgEngine (planned : List RouteOp) (record : Record) : HelperProg Unit := do
  match ← Call.attempt (saveJournal wgTunnel record) with
  | .error _ =>
    wgFail env.tun record (.unavailable "The tunnel state could not be recorded")
  | .ok () =>
    match ← Call.attempt startEngine with
    | .error _ =>
      wgFail env.tun record (.unavailable "The WireGuard engine could not start")
    | .ok () => wgRoutes env request config planned record

def wgPlan (networks : List IpNet) : List RouteOp :=
  match request.role with
  | .secondary => interfaceRoutes env.tun networks
  | .primary =>
    if config.tableOff then []
    else interfaceRoutes env.tun (config.peers.flatMap WgPeer.allowedIps)

/-- A primary replaces its service's DNS. -/
def wgSnapshot (role : TunnelRole) (config : WgConfig) (service : Bool) :
    HelperProg (Option (List IpAddr)) :=
  if config.dnsServers.isEmpty || role == .secondary then pure none
  else takeSnapshot wgTunnel service

/-- A secondary only adds resolvers for its domains. -/
def wgDomains : List String :=
  if request.role = .secondary ∧ config.dnsServers ≠ [] then splitDomains request.dnsDomains
  else []

/-- The device has its addresses. -/
def wgBringUp (networks : List IpNet) : HelperProg Unit := do
  let planned := wgPlan env request config networks
  planRoutes wgTunnel planned
  let snapshot ← wgSnapshot request.role config env.service
  wgEngine env request config planned
    { profileId := request.profileId
      interface := env.tun
      pid := env.helperPid
      routes := requiredOps planned
      dns := snapshot
      resolverDomains := wgDomains request config }

/-- `ifconfig` for each address. -/
def setAddresses (addresses : List IpNet) : HelperProg Unit :=
  Call.forEach (fun _ => reading fun _ => .ok ()) addresses

/-- The journal has its first record. -/
def wgDevice (networks : List IpNet) : HelperProg Unit := do
  let record := Record.fresh request.profileId ""
  orUndo (wgRollback record) deviceError (openDevice .wireGuard env.tun)
  match ← Call.attempt (setAddresses config.addresses) with
  | .error _ =>
    wgFail env.tun { record with interface := env.tun }
      (.unavailable "The tunnel address could not be set")
  | .ok () => wgBringUp env request config networks

/-- The endpoints of the peers must resolve. -/
def resolvePeers : HelperProg Unit :=
  if (config.peers.filterMap WgPeer.endpoint).all env.resolves then pure ()
  else Call.throw (.unavailable "The WireGuard endpoint could not be resolved")

/-- No session is there. -/
def wgProceed (networks : List IpNet) : HelperProg Unit := do
  orElse (.unavailable "A previous tunnel could not be cleaned up") wgRecoverLocked
  let _ ← detectUplink env.uplink "There is no network connection to use"
  resolvePeers env config
  orElse (.unavailable "The tunnel state could not be recorded")
    (saveJournal wgTunnel (Record.fresh request.profileId ""))
  wgDevice env request config networks

def wgCheck : HelperProg (WgConfig × List IpNet) := do
  checkProfileId request.profileId
  match request.config with
  | .error text => Call.throw (.invalid text)
  | .ok config => do
      let networks ← networksOf request.role request.routes
      pure (config, networks)

/-- `connect_logged`. -/
def wgConnect : HelperProg Unit := do
  let (config, networks) ← wgCheck request
  wgReap
  match ← Call.gets fun w => w.wireGuard with
  | some active =>
    Call.throw (.conflict (if active.profileId = request.profileId then
      "this connection is already running"
    else "another WireGuard connection already owns the tunnel"))
  | none => wgProceed env request config networks

end NetOrchestrator.Macos
