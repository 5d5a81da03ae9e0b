import Mathlib.Data.List.Sort
import NetOrchestrator.Macos.Machine

/-!
# `Macos.Xray`: the Xray executor of the helper

A connect of an Xray tunnel opens a device, starts the child, installs the routes and points the
system DNS at the tunnel, with its journal written ahead of the routes that the tunnel cannot do
without. What fails on the way is rolled back. Every request runs under the executor's lock.
-/

namespace NetOrchestrator.Macos

open Net Lib
open Daemon (PolicyRoute)

/-- The configuration, as far as the checks look at it. -/
inductive XrayConfig where
  | notJson
  | notObject
  /-- It has no place for the tunnel or for the DNS capture. -/
  | notRunnable
  | runnable
  deriving DecidableEq

structure XrayRequest where
  uid : Nat
  profileId : String
  role : TunnelRole
  config : XrayConfig
  proxyExits : Bool
  routes : List PolicyRoute
  dnsBypass : List String
  geoAssets : Bool

/-- What the machine answers while the request is handled. -/
structure XraySurroundings where
  verified : Except TunnelError Unit
  uplink : Option Uplink
  service : Bool
  resolve : String → List (BitVec 32)
  /-- The helper was set up to serve geo data. -/
  assets : Bool
  geoValid : Bool
  tun : String
  /-- The child lives through its first moments. -/
  settles : Bool

abbrev xrayTunnel : Component := .tunnel .xray

/-! ### Teardown -/

/-- `clear_assets`. -/
def clearAssets : HelperProg Unit :=
  undoing (fun w => { w with geo := false }) (fun w => { w with undone := w.undone && !w.geo })

/-- `teardown`. -/
def xrayTeardown (active : XrayActive) : HelperProg Unit := do
  stopChild active.pid
  undoRecord xrayTunnel active.record do
    closeDevice active.tun
    clearAssets

/-- `guard.take()`, where there is a session as `expected`. -/
def xrayTake (expected : Machine → XrayActive → Bool) : HelperProg (Option XrayActive) := do
  let taken ← Call.gets fun w => w.xray.filter (expected w)
  Call.modify fun w => { w with xray := if taken.isSome then none else w.xray }
  pure taken

/-- Tear down what was taken. -/
def xrayEnd (taken : Option XrayActive) : HelperProg Unit :=
  match taken with
  | none => pure ()
  | some active => Call.discard (Call.attempt (xrayTeardown active))

/-- `reap`. -/
def xrayReap : HelperProg Unit := do
  let taken ← xrayTake fun w active => !w.childAlive active.pid
  xrayEnd taken

/-- `disconnect`: whether something was stopped. -/
def xrayDisconnect (uid : Nat) (profileId : String) : HelperProg Bool := do
  let taken ← xrayTake fun _ active => active.profileId == profileId && active.ownerUid == uid
  match taken with
  | none => pure false
  | some active => do
      orElse (.unavailable "The previous DNS settings could not be restored")
        (xrayTeardown active)
      pure true

/-- `shutdown`. -/
def xrayShutdown : HelperProg Unit := do
  let taken ← xrayTake fun _ _ => true
  xrayEnd taken

def xrayRecoverLocked : HelperProg Unit :=
  recoverLocked xrayTunnel (killLeftover .xray) fun _ => pure ()

/-- `recover`. -/
def xrayRecover : HelperProg Unit := do
  let active ← Call.gets fun w => w.xray
  if active.isSome then pure () else xrayRecoverLocked

/-! ### Connect -/

/-- The hosts that keep using the uplink, in order. They belong to the DNS capture of a
primary. -/
def xrayBypass (role : TunnelRole) (hosts : List String) (resolve : String → List (BitVec 32)) :
    List (BitVec 32) :=
  match role with
  | .secondary => []
  | .primary =>
    ((hosts.flatMap fun host =>
      match parseIpAddr host with
      | some (.v4 ip) => [ip]
      | some (.v6 _) => []
      | none => resolve host).insertionSort (· ≤ ·)).dedup

variable (env : XraySurroundings) (request : XrayRequest) (record : Record) (uplink : Uplink)

/-- `rollback`. -/
def xrayRollback (dnsTouched : Bool) : HelperProg Unit := do
  removeRoutes xrayTunnel record.routes
  match dnsTouched, record.dns with
  | true, some servers => do
      tryRestore servers
      clearAssets
      tryClear xrayTunnel
  | _, _ => do
      clearAssets
      tryClear xrayTunnel

/-- `fail`. The device goes when the request is over. -/
def xrayFail (pid : Nat) (tun : String) (record : Record) (dnsTouched : Bool)
    (error : TunnelError) : HelperProg Unit := do
  stopChild pid
  xrayRollback record dnsTouched
  closeDevice tun
  Call.throw error

/-- `geo_stage::stage`: the directory first, then the files. -/
def stageGeo (valid : Bool) : HelperProg Unit := do
  command fun w => (.ok (), { w with geo := true })
  reading fun _ => if valid then .ok () else .error (.io .other)

/-- The geo data of the request. -/
def xrayAssets : HelperProg Unit :=
  if !request.geoAssets then pure ()
  else if !env.assets then do
    xrayRollback record false
    Call.throw (.unavailable "This helper cannot serve custom geo data")
  else
    orUndo (xrayRollback record false)
      (fun _ => .invalid "The geo data could not be prepared") (stageGeo env.geoValid)

def deviceError : TunnelError → TunnelError
  | .io .permissionDenied => .unavailable "The helper may not create a tunnel device"
  | _ => .unavailable "The tunnel device could not be created"

/-- `*guard = Some(active)`. -/
def xrayStart (pid : Nat) : HelperProg Unit :=
  Call.modify fun w => { w with
    xray := some
      { profileId := request.profileId
        ownerUid := request.uid
        role := request.role
        record
        tun := env.tun
        pid } }

/-- The DNS of a primary, the last step. -/
def xrayDns (pid : Nat) : HelperProg Unit := do
  match record.dns with
  | none => xrayStart env request record pid
  | some _ =>
    match ← Call.attempt (setDns [.v4 tunGateway]) with
    | .ok () => xrayStart env request record pid
    | .error _ =>
      xrayFail pid env.tun record true
        (.unavailable "The system DNS could not be changed")

/-- The routes. -/
def xrayRoutes (planned : List RouteOp) (record : Record) (pid : Nat) : HelperProg Unit := do
  match ← Call.attempt (applyRoutes xrayTunnel planned) with
  | .error e =>
    -- `apply` has removed what it added; nothing else is ours.
    xrayFail pid env.tun { record with routes := [] } false e
  | .ok installed =>
    if request.role = .secondary ∧ installed = [] then
      xrayFail pid env.tun { record with routes := [] } false
        (.unavailable "None of this connection's networks could be routed")
    else do
      match ← Call.attempt (saveJournal xrayTunnel { record with routes := installed }) with
      | .error _ =>
        xrayFail pid env.tun { record with routes := installed } false
          (.unavailable "The tunnel state could not be recorded")
      | .ok () => xrayDns env request { record with routes := installed } pid

/-- The child may have ended at once. -/
def settle (settles : Bool) (pid : Nat) : HelperProg Unit :=
  Call.modify fun w => if settles then w else w.endChild pid

/-- The child runs. -/
def xrayCutOver (planned : List RouteOp) (record : Record) (pid : Nat) : HelperProg Unit := do
  match ← Call.attempt (saveJournal xrayTunnel record) with
  | .error _ =>
    xrayFail pid env.tun record false (.unavailable "The tunnel state could not be recorded")
  | .ok () => do
      settle env.settles pid
      let alive ← Call.gets (Machine.childAlive pid)
      if !alive then
        xrayFail pid env.tun record false (.unavailable "Xray stopped right after start")
      else xrayRoutes env request planned record pid

/-- The device is open. -/
def xrayLaunch (planned : List RouteOp)
    (snapshot : Option (List IpAddr)) (record : Record) : HelperProg Unit := do
  match ← Call.attempt (spawnChild .xray none) with
  | .error _ => do
      xrayRollback record false
      closeDevice env.tun
      Call.throw (.unavailable "Xray could not start")
  | .ok pid => xrayCutOver env request planned { record with pid, dns := snapshot } pid

def xrayPlan (networks : List IpNet) : List RouteOp :=
  match request.role with
  | .secondary => gatewayRoutes env.tun networks
  | .primary =>
    planOps uplink env.tun (xrayBypass request.role request.dnsBypass env.resolve)

/-- The tunnel's gateway is reached through the device. -/
def reachGateway (tun : String) : HelperProg Unit :=
  Call.modify fun w => { w with deviceOf := Function.update w.deviceOf (.v4 tunGateway) tun }

/-- The journal has its first record. -/
def xrayBringUp (networks : List IpNet) (snapshot : Option (List IpAddr)) : HelperProg Unit := do
  let record := Record.fresh request.profileId ""
  xrayAssets env request record
  orUndo (xrayRollback record false) deviceError (openDevice .xray env.tun)
  reachGateway env.tun
  let planned := xrayPlan env request uplink networks
  planRoutes xrayTunnel planned
  xrayLaunch env request planned snapshot
    { record with interface := env.tun, routes := requiredOps planned }

/-- The DNS is read before anything is changed. A secondary does not touch it. -/
def xraySnapshot (role : TunnelRole) (service : Bool) : HelperProg (Option (List IpAddr)) :=
  match role with
  | .secondary => pure none
  | .primary => takeSnapshot xrayTunnel service

/-- No session is there. -/
def xrayProceed (networks : List IpNet) : HelperProg Unit := do
  orElse (.unavailable "A previous tunnel could not be cleaned up") xrayRecoverLocked
  reading fun _ => env.verified
  let uplink ← detectUplink env.uplink "There is no network connection to protect"
  let snapshot ← xraySnapshot request.role env.service
  if request.config = .notRunnable then
    Call.throw (.invalid "the Xray configuration cannot run as a tunnel")
  else do
    orElse (.unavailable "The tunnel state could not be recorded")
      (saveJournal xrayTunnel (Record.fresh request.profileId ""))
    xrayBringUp env request uplink networks snapshot

def xrayCheck : HelperProg (List IpNet) := do
  checkProfileId request.profileId
  if request.proxyExits then
    Call.throw (.invalid "named process proxy exits are supported only on Linux")
  else if request.config = .notJson then
    Call.throw (.invalid "the Xray configuration is not valid JSON")
  else if request.config = .notObject then
    Call.throw (.invalid "the Xray configuration must be an object")
  else networksOf request.role request.routes

/-- `connect`. -/
def xrayConnect : HelperProg Unit := do
  let networks ← xrayCheck request
  xrayReap
  match ← Call.gets fun w => w.xray with
  | some active =>
    Call.throw (.conflict (if active.profileId = request.profileId then
      "this connection is already running"
    else "another connection already owns the tunnel"))
  | none => xrayProceed env request networks

end NetOrchestrator.Macos
