import NetOrchestrator.Macos.WireGuard

/-!
# `Macos.OpenVpn`: the OpenVPN executor of the helper

A connect stages the configuration, starts the child and opens its management socket. The network
comes later: the server's push arrives as a management event, and `applyNetwork` installs the
routes and the DNS that it asks for, each time it has changed.

Here one request or one batch of events is handled after another; what the threads of a session
can do to each other is another matter. Statuses and warnings are left out.
-/

namespace NetOrchestrator.Macos

open Net Lib
open Daemon (PolicyRoute ManagementEvent PushedNetworkConfig)

structure OpenVpnRequest where
  uid : Nat
  profileId : String
  role : TunnelRole
  routes : List PolicyRoute
  dnsDomains : List String
  credentials : Bool
  credentialsValid : Bool
  assetsDecode : Bool
  /-- `sanitize_openvpn_config` accepts the configuration. -/
  accepted : Bool

structure OpenVpnSurroundings where
  uplink : Option Uplink
  /-- The addresses of the configuration's `remote` hosts. -/
  remotes : List IpAddr
  /-- A free `utunN`. -/
  unit : String
  stage : String
  /-- The configuration and its assets have sizes that can be staged. -/
  stageable : Bool
  /-- The child opens its management socket in time. -/
  controllable : Bool

abbrev ovpnTunnel : Component := .tunnel .openVpn

/-! ### Teardown -/

/-- `remove_dir_all` of a staged configuration. -/
def removeStage (stage : String) : HelperProg Unit :=
  undoing (fun w => { w with stages := w.stages.filter (· != stage) })
    (fun w => { w with undone := w.undone && !w.stages.contains stage })

variable (active : OpenVpnActive) (env : OpenVpnSurroundings) (request : OpenVpnRequest)
  (uplink : Uplink)

/-- `teardown`. -/
def ovpnTeardown : HelperProg Unit := do
  stopChild active.pid
  Call.discard (Call.attempt (undoRecord ovpnTunnel active.record do
    resolverRemove active.record.resolverDomains
    removeStage active.stage))

def ovpnTake (expected : Machine → OpenVpnActive → Bool) : HelperProg (Option OpenVpnActive) := do
  let taken ← Call.gets fun w => w.openVpn.filter (expected w)
  Call.modify fun w => { w with openVpn := if taken.isSome then none else w.openVpn }
  pure taken

def ovpnEnd (taken : Option OpenVpnActive) : HelperProg Unit :=
  match taken with
  | none => pure ()
  | some active => ovpnTeardown active

/-- `reap`. -/
def ovpnReap : HelperProg Unit := do
  let taken ← ovpnTake fun w active => !w.childAlive active.pid
  ovpnEnd taken

/-- `disconnect`: whether something was stopped. -/
def ovpnDisconnect (uid : Nat) (profileId : String) : HelperProg Bool := do
  let taken ← ovpnTake fun _ active => active.profileId == profileId && active.ownerUid == uid
  ovpnEnd taken
  pure taken.isSome

/-- `shutdown`. -/
def ovpnShutdown : HelperProg Unit := do
  let taken ← ovpnTake fun _ _ => true
  ovpnEnd taken

/-- The end of `monitor`: the management socket is closed. -/
def ovpnClosed (profileId : String) : HelperProg Unit := do
  let taken ← ovpnTake fun _ active => active.profileId == profileId
  ovpnEnd taken

/-- Every staged secret is stale. -/
def removeStages : HelperProg Unit :=
  undoing (fun w => { w with stages := [] }) (fun w => { w with undone := false })

def ovpnRecoverLocked : HelperProg Unit :=
  recoverLocked ovpnTunnel (killLeftover .openVpn) fun record => do
    resolverRemove record.resolverDomains
    removeStages

/-- `recover`. -/
def ovpnRecover : HelperProg Unit := do
  let active ← Call.gets fun w => w.openVpn
  if active.isSome then pure () else ovpnRecoverLocked

/-! ### Management events -/

/-- A host route through the uplink for every server. -/
def bypassOps (remotes : List IpAddr) : List RouteOp :=
  match uplink.gateway with
  | none => []
  | some gateway =>
    remotes.filterMap fun
      | .v4 host => if host = gateway then none else some (bypassOp gateway host)
      | .v6 _ => none

/-- A secondary carries only the networks listed for it. -/
def OpenVpnActive.networks (push : PushedNetworkConfig) : List IpNet :=
  (match active.role with
    | .secondary => []
    | .primary => push.routes) ++ active.policyNetworks

/-- The servers of a push. -/
def pushedServers (push : PushedNetworkConfig) : List IpAddr :=
  Daemon.extendNew push.legacyDnsServers (push.dnsServers.flatMap (·.addresses))

def OpenVpnActive.setRoutes (routes : List RouteOp) : OpenVpnActive :=
  { active with record := { active.record with routes } }

def OpenVpnActive.setDns (dns : Option (List IpAddr)) : OpenVpnActive :=
  { active with record := { active.record with dns } }

def OpenVpnActive.setDomains (domains : List String) : OpenVpnActive :=
  { active with record := { active.record with resolverDomains := domains } }

/-- The save right before the DNS is set, whose error is ignored. The ghosts take note if it
leaves no snapshot on disk. -/
def saveSnapshot (record : Record) : HelperProg Unit := do
  match ← Call.attempt (saveJournal ovpnTunnel record) with
  | .ok () => pure ()
  | .error _ =>
    Call.modify fun w => { w with
      dnsClean := w.dnsClean && (w.journal ovpnTunnel).any fun record => record.dns.isSome }

/-- The snapshot is only taken once. -/
def ovpnSnapshot (service : Bool) : HelperProg (Option (List IpAddr)) :=
  match active.record.dns with
  | some servers => pure (some servers)
  | none => takeSnapshot ovpnTunnel service

/-- The DNS of a primary. -/
def ovpnSystemDns (service : Bool) (servers : List IpAddr) : HelperProg OpenVpnActive := do
  match ← ovpnSnapshot active service with
  | none => pure active
  | some snapshot => do
      saveSnapshot (active.setDns (some snapshot)).record
      match ← Call.attempt (setDns servers) with
      | .ok () => pure (active.setDns (some snapshot))
      | .error _ => do
          tryRestore snapshot
          pure (active.setDns none)

/-- Split DNS: the pushed servers answer only the listed suffixes. -/
def ovpnSplitDns (servers : List IpAddr) : HelperProg OpenVpnActive := do
  resolverRemove active.record.resolverDomains
  let active := active.setDomains (splitDomains active.dnsDomains)
  trySave ovpnTunnel active.record
  let _ ← Call.attempt (resolverApply ovpnTunnel active.record.resolverDomains servers)
  pure active

def ovpnDns (service : Bool) (servers : List IpAddr) : HelperProg OpenVpnActive :=
  match active.role with
  | .secondary => ovpnSplitDns active servers
  | .primary => if servers.isEmpty then pure active else ovpnSystemDns active service servers

/-- The routes of a push that has changed. -/
def ovpnInstall (service : Bool) (networks : List IpNet)
    (servers : List IpAddr) : HelperProg (OpenVpnActive × Option TunnelError) := do
  removeRoutes ovpnTunnel active.record.routes
  let ops := bypassOps active.uplink active.remotes ++ interfaceRoutes active.tun networks
  planRoutes ovpnTunnel ops
  trySave ovpnTunnel (active.setRoutes (requiredOps ops)).record
  match ← Call.attempt (applyRoutes ovpnTunnel ops) with
  | .error e => do
      trySave ovpnTunnel (active.setRoutes []).record
      pure (active.setRoutes [], some e)
  | .ok installed => do
      let active ← ovpnDns (active.setRoutes installed) service servers
      trySave ovpnTunnel active.record
      pure ({ active with applied := some (networks, servers) }, none)

/-- `apply_network`. An equal signature means that the push is applied already. -/
def applyNetwork (service : Bool) : HelperProg (OpenVpnActive × Option TunnelError) :=
  match active.snapshot.activePush with
  | none => pure (active, none)
  | some push =>
    if active.applied = some (active.networks push, pushedServers push) then pure (active, none)
    else ovpnInstall active service (active.networks push) (pushedServers push)

/-- The events of one reading. A password prompt is answered on the management socket; the flag
says that one could not be. -/
def foldEvents : OpenVpnActive → Bool → List ManagementEvent → HelperProg (OpenVpnActive × Bool)
  | active, failed, [] => pure (active, failed)
  | active, failed, .passwordPrompt :: rest => do
      let answered ← Call.attempt (reading fun _ =>
        if active.credentials then .ok () else .error (.io .other))
      foldEvents active (failed || answered.toOption.isNone) rest
  | active, failed, event :: rest =>
    foldEvents { active with snapshot := active.snapshot.apply event } failed rest

def OpenVpnActive.learnRemote (remote : Option IpAddr) : OpenVpnActive :=
  match remote with
  | none => active
  | some ip =>
    if ip ∈ active.remotes then active else { active with remotes := active.remotes ++ [ip] }

/-- Keep the session, or end it. -/
def ovpnSettle (ended : Bool) : HelperProg Unit :=
  if ended then ovpnTeardown active
  else Call.modify fun w => { w with openVpn := some active }

def OpenVpnActive.upWithPush : Bool :=
  active.snapshot.state == some .connected && active.snapshot.activePush.isSome

/-- What the events ask for. -/
def ovpnReact (service : Bool) : HelperProg Unit :=
  if active.upWithPush then do
    let (active, error) ← applyNetwork active service
    ovpnSettle active (error.isSome || active.snapshot.state == some .exiting)
  else ovpnSettle active (active.snapshot.state == some .exiting)

/-- `handle_events`. The session is in its hands until it has settled. -/
def handleEvents (profileId : String) (events : List ManagementEvent) (remote : Option IpAddr)
    (service : Bool) : HelperProg Unit := do
  match ← ovpnTake fun _ active => active.profileId == profileId with
  | none => pure ()
  | some active => do
      let (active, failed) ← foldEvents (active.learnRemote remote) false events
      if failed then ovpnSettle active true else ovpnReact active service

/-! ### Connect -/

/-- `cleanup`. -/
def ovpnCleanup (stage : Option String) (installed : List RouteOp) : HelperProg Unit := do
  Call.forEach removeStage stage.toList
  removeRoutes ovpnTunnel installed
  tryClear ovpnTunnel

/-- `stage_config`: the directory, then the files. A leftover is replaced. -/
def stageConfig (stageable : Bool) (stage : String) : HelperProg Unit := do
  reading fun _ => if stageable then .ok () else .error (.io .other)
  command fun w => (.ok (), { w with stages := stage :: w.stages.filter (· != stage) })
  orUndo (removeStage stage) id (reading fun _ => .ok ())

def ovpnSession (networks : List IpNet) (record : Record) (pid : Nat) : OpenVpnActive :=
  { profileId := request.profileId
    ownerUid := request.uid
    role := request.role
    dnsDomains := request.dnsDomains
    tun := env.unit
    uplink
    record
    pid
    stage := env.stage
    snapshot := .initial
    credentials := request.credentials
    remotes := env.remotes
    policyNetworks :=
      match request.role with
      | .secondary => networks
      | .primary => request.routes.map PolicyRoute.destination
    applied := none }

/-- A step of the supervision that gives up without cleaning up. -/
def superviseStep (text : String) : HelperProg Unit := do
  match ← Call.attempt (reading fun _ => .ok ()) with
  | .ok () => pure ()
  | .error _ => do
      Call.modify fun w => { w with supervised := false }
      Call.throw (.unavailable text)

def ovpnGiveUp (installed : List RouteOp) (pid : Nat) (text : String) : HelperProg Unit := do
  stopChild pid
  ovpnCleanup (some env.stage) installed
  Call.throw (.unavailable text)

/-- The management socket is open: a second handle of it, the first orders, the monitor. -/
def ovpnSupervise (networks : List IpNet) (record : Record) (pid : Nat) : HelperProg Unit := do
  superviseStep "The OpenVPN control channel could not be opened"
  match ← Call.attempt (reading fun _ => .ok ()) with
  | .error _ =>
    ovpnGiveUp env record.routes pid "The OpenVPN control channel could not be opened"
  | .ok () => do
      superviseStep "OpenVPN could not be supervised"
      Call.modify fun w => { w with
        openVpn := some (ovpnSession env request uplink networks record pid) }

/-- The child runs. -/
def ovpnControl (networks : List IpNet) (record : Record) (pid : Nat) : HelperProg Unit := do
  trySave ovpnTunnel record
  let opened ← Call.attempt (reading fun _ =>
    if env.controllable then .ok () else .error (.io .other))
  match opened with
  | .error _ =>
    ovpnGiveUp env record.routes pid "OpenVPN exited before it could be controlled"
  | .ok () => ovpnSupervise env request uplink networks record pid

/-- The configuration is staged. -/
def ovpnLaunch (networks : List IpNet) (record : Record) : HelperProg Unit := do
  match ← Call.attempt (spawnChild .openVpn (some env.unit)) with
  | .error _ => do
      ovpnCleanup (some env.stage) record.routes
      Call.throw (.unavailable "OpenVPN could not start")
  | .ok pid => ovpnControl env request uplink networks { record with pid } pid

/-- The journal has its first record. The server stays reachable from the first packet on. -/
def ovpnBringUp (networks : List IpNet) : HelperProg Unit := do
  let applied ← Call.attempt (applyRoutes ovpnTunnel (bypassOps uplink env.remotes))
  let record := { Record.fresh request.profileId env.unit with
    routes := applied.toOption.getD [] }
  trySave ovpnTunnel record
  orUndo (ovpnCleanup none record.routes)
    (fun _ => .unavailable "The OpenVPN configuration could not be staged")
    (stageConfig env.stageable env.stage)
  ovpnLaunch env request uplink networks record

/-- No session is there. -/
def ovpnProceed (networks : List IpNet) : HelperProg Unit := do
  orElse (.unavailable "A previous tunnel could not be cleaned up") ovpnRecoverLocked
  Call.ofExcept (if request.accepted then .ok ()
    else .error (.invalid "the OpenVPN configuration is not accepted"))
  let uplink ← detectUplink env.uplink "There is no network connection to use"
  orElse (.unavailable "The bundled OpenVPN could not be verified; reinstall the app")
    (reading fun _ => .ok ())
  orElse (.unavailable "No tunnel device number is free") (reading fun _ => .ok ())
  orElse (.unavailable "The tunnel state could not be recorded")
    (saveJournal ovpnTunnel (Record.fresh request.profileId env.unit))
  ovpnBringUp env request uplink networks

def ovpnCheck : HelperProg (List IpNet) := do
  checkProfileId request.profileId
  if request.credentials && !request.credentialsValid then
    Call.throw (.invalid "OpenVPN credentials are invalid")
  else if !request.assetsDecode then
    Call.throw (.invalid "an OpenVPN asset is not valid base64")
  else networksOf request.role request.routes

/-- A session that never came up makes way for another profile of the same user. -/
def OpenVpnActive.stale (uid : Nat) : Bool :=
  active.ownerUid == uid && active.snapshot.state != some .connected

/-- `connect`. -/
def ovpnConnect : HelperProg Unit := do
  let networks ← ovpnCheck request
  ovpnReap
  match ← Call.gets fun w => w.openVpn with
  | none => ovpnProceed env request networks
  | some active =>
    if active.profileId = request.profileId then
      Call.throw (.conflict "this connection is already running")
    else if !active.stale request.uid then
      Call.throw (.conflict "another OpenVPN connection already owns the tunnel")
    else do
      let taken ← ovpnTake fun _ _ => true
      ovpnEnd taken
      ovpnProceed env request networks

end NetOrchestrator.Macos
