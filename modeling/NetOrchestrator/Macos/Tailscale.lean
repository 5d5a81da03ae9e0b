import NetOrchestrator.Macos.OpenVpn

/-!
# `Macos.Tailscale`: routes that keep Tailscale reachable, and all requests

The guard pins the tailnet prefixes to Tailscale's device where something else wins them, and
gives Tailscale's own remote hosts a route through the uplink. Each call brings its routes in line
with what it is asked for, and then saves them.

`TunnelRequest` are the requests of the three tunnel executors, and what happens to them without a
request.
-/

namespace NetOrchestrator.Macos

open Net Lib
open Daemon (ManagementEvent)

structure TailscaleProtectParams where
  selfIps : List IpAddr
  endpoints : List IpAddr

structure TailscaleSurroundings where
  /-- The device with one of Tailscale's own addresses. -/
  interface : Option String
  /-- Whether a lookup in this prefix finds Tailscale's own route. -/
  winning : IpNet → Bool
  uplink : Option Uplink

def maxEndpoints : Nat := 64
def maxSelfIps : Nat := 8

def tailnetV4 : IpNet := .v4 0x64400000 10
def tailnetV6 : IpNet := .v6 0xfd7a115ca1e000000000000000000000 48

/-- A remote address that is worth a bypass: public unicast IPv4. -/
def bypassable : IpAddr → Option (BitVec 32)
  | .v6 _ => none
  | .v4 ip =>
    let inNet (net : IpNet) : Bool := net.containsAddr (.v4 ip)
    let special := inNet (.v4 0x0a000000 8) || inNet (.v4 0xac100000 12) ||
      inNet (.v4 0xc0a80000 16) || inNet (.v4 0x7f000000 8) || inNet (.v4 0xa9fe0000 16) ||
      inNet (.v4 0xe0000000 4) || ip == 0xffffffff || ip == 0 || inNet tailnetV4
    if special then none else some ip

def sameRoute (a b : RouteOp) : Bool := a.destination == b.destination && a.target == b.target

def validateProtect (params : TailscaleProtectParams) : HelperProg Unit :=
  if params.selfIps.isEmpty || maxSelfIps < params.selfIps.length ||
      !params.selfIps.all (fun ip => tailnetV4.containsAddr ip || tailnetV6.containsAddr ip) then
    Call.throw (.invalid "Tailscale's own addresses are not valid")
  else if maxEndpoints < params.endpoints.length then
    Call.throw (.invalid "too many Tailscale endpoints")
  else pure ()

variable (env : TailscaleSurroundings)

/-- The pins: where they are ours already, or where something else wins. -/
def pinOps (params : TailscaleProtectParams) (installed : List RouteOp) : List RouteOp :=
  match env.interface with
  | none => []
  | some interface =>
    let pins := tailnetV4 :: (if params.selfIps.any (!·.isIpv4) then [tailnetV6] else [])
    (pins.map fun net => (⟨net, .interface interface, true⟩ : RouteOp)).filter fun op =>
      installed.any (sameRoute op) || !env.winning op.destination

/-- The bypasses. Without a physical gateway there is nothing to route around. -/
def guardBypasses (uplink : Option Uplink) (endpoints : List IpAddr) : List RouteOp :=
  match uplink.bind Uplink.gateway with
  | none => []
  | some gateway =>
    ((((endpoints.filterMap bypassable).insertionSort (· ≤ ·)).dedup).filter
      (· != gateway)).map (bypassOp gateway)

/-- `save`: nothing installed, no journal. -/
def guardSave (interface : String) (installed : List RouteOp) : HelperProg Unit :=
  orElse (.unavailable "The Tailscale state could not be recorded")
    (if installed.isEmpty then clearJournal .tailscale
     else saveJournal .tailscale
       { Record.fresh "tailscale" interface with routes := installed })

/-- Bring the routes in line. What is right already is left alone. -/
def guardApply (interface : String) (desired : List RouteOp) : HelperProg Unit := do
  let installed ← Call.gets fun w => w.guarded
  let keep := installed.filter fun op => desired.any (sameRoute op)
  let stale := installed.filter fun op => !desired.any (sameRoute op)
  removeRoutes .tailscale stale
  let fresh := desired.filter fun op => !keep.any fun have_ => sameRoute have_ op
  let added ← Call.attempt (applyRoutes .tailscale fresh)
  let now := keep ++ added.toOption.getD []
  Call.modify fun w => { w with guarded := now }
  guardSave interface now

/-- The uplink as `detect_uplink` sees it, `.ok()`. -/
def readUplink (uplink : Option Uplink) : HelperProg (Option Uplink) := do
  match ← Call.attempt (detectUplink uplink "") with
  | .ok uplink => pure (some uplink)
  | .error _ => pure none

/-- `protect`. -/
def guardProtect (params : TailscaleProtectParams) : HelperProg Unit := do
  validateProtect params
  orElse (.unavailable "The network interfaces could not be read") (reading fun _ => .ok ())
  let installed ← Call.gets fun w => w.guarded
  let uplink ← readUplink env.uplink
  guardApply (env.interface.getD "")
    (pinOps env params installed ++ guardBypasses uplink params.endpoints)

/-- `release`. -/
def guardRelease : HelperProg Unit := do
  let installed ← Call.gets fun w => w.guarded
  removeRoutes .tailscale installed
  Call.modify fun w => { w with guarded := [] }
  guardSave "" []

/-- `recover`. -/
def guardRecover : HelperProg Unit := do
  match ← loadJournal .tailscale with
  | none => pure ()
  | some record => do
      removeRoutes .tailscale record.routes
      clearJournal .tailscale

/-! ### Requests -/

/-- A call of a tunnel executor, or something that happens to its session. -/
inductive TunnelRequest where
  | xrayConnect (env : XraySurroundings) (request : XrayRequest)
  | xrayDisconnect (uid : Nat) (profileId : String)
  | wgConnect (env : WgSurroundings) (request : WgRequest)
  | wgDisconnect (uid : Nat) (profileId : String)
  | ovpnConnect (env : OpenVpnSurroundings) (request : OpenVpnRequest)
  | ovpnDisconnect (uid : Nat) (profileId : String)
  | events (profileId : String) (events : List ManagementEvent) (remote : Option IpAddr)
      (service : Bool)
  | closed (profileId : String)
  | reap (kind : Kind)
  | shutdown (kind : Kind)
  | recover (kind : Kind)
  /-- A child process ends on its own. -/
  | childEnds (pid : Nat)
  /-- The WireGuard engine stops on its own. -/
  | engineEnds

def reapTunnel : Kind → HelperProg Unit
  | .xray => xrayReap
  | .wireGuard => wgReap
  | .openVpn => ovpnReap

def shutdownTunnel : Kind → HelperProg Unit
  | .xray => xrayShutdown
  | .wireGuard => wgShutdown
  | .openVpn => ovpnShutdown

def recoverTunnel : Kind → HelperProg Unit
  | .xray => xrayRecover
  | .wireGuard => wgRecover
  | .openVpn => ovpnRecover

/-- The engine of a session has stopped. -/
def Machine.endEngine (w : Machine) : Machine :=
  { w with wireGuard := w.wireGuard.map fun active => { active with engineAlive := false } }

def runRequest : TunnelRequest → HelperProg Unit
  | .xrayConnect env request => xrayConnect env request
  | .xrayDisconnect uid profileId => Call.discard (xrayDisconnect uid profileId)
  | .wgConnect env request => wgConnect env request
  | .wgDisconnect uid profileId => Call.discard (wgDisconnect uid profileId)
  | .ovpnConnect env request => ovpnConnect env request
  | .ovpnDisconnect uid profileId => Call.discard (ovpnDisconnect uid profileId)
  | .events profileId events remote service => handleEvents profileId events remote service
  | .closed profileId => ovpnClosed profileId
  | .reap kind => reapTunnel kind
  | .shutdown kind => shutdownTunnel kind
  | .recover kind => recoverTunnel kind
  | .childEnds pid => Call.modify (Machine.endChild pid)
  | .engineEnds => Call.modify Machine.endEngine

/-- Where the helper dies, the next one starts. `gone` are the devices that go with it. -/
def handleRequest (gone : String → Bool) (request : TunnelRequest) : HelperProg Unit :=
  Call.restarting (Machine.restarted gone) (runRequest request)

/-- A helper request, and the devices that go if the helper dies in it. -/
abbrev HelperCall := TunnelRequest × (String → Bool)

def handleCall (call : HelperCall) : HelperProg Unit := handleRequest call.2 call.1

/-- No executor runs and no journal is there. -/
structure Unused (w : Machine) : Prop where
  journal : ∀ who, w.journal who = none
  xray : w.xray = none
  wireGuard : w.wireGuard = none
  openVpn : w.openVpn = none

/-- Nothing on the machine is the helper's. -/
structure Untried (w : Machine) : Prop extends Unused w where
  rows : ∀ row ∈ w.table, row.owner = none
  files : ∀ file ∈ w.resolvers, file.owner = none
  guarded : w.guarded = []
  deleted : w.deleted = []

end NetOrchestrator.Macos
