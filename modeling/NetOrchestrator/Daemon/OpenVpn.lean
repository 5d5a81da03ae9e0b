import NetOrchestrator.Daemon.Protocol

/-!
# `Daemon.OpenVpn`: the management session and its network plan

What the daemon knows about an OpenVPN session: the events that the management socket
delivers, the snapshot they are folded into, and the network plan that a connected
session asks for.
-/

namespace NetOrchestrator.Daemon

open Net

inductive OpenVpnState where
  | connecting
  | resolve
  | tcpConnect
  | wait
  | auth
  | authPending
  | getConfig
  | assignIp
  | addRoutes
  | connected
  | reconnecting
  | exiting
  deriving DecidableEq

inductive OpenVpnFailure where
  | authenticationFailure
  | credentialsRequired
  | resolveError
  | connectError
  | tlsError
  | connectionLost
  | exitWithError
  | exitNotification
  | terminated
  deriving DecidableEq

structure PushedDnsServer where
  id : Nat
  addresses : List IpAddr
  resolveDomains : List String
  deriving DecidableEq

structure PushedNetworkConfig where
  routes : List IpNet
  redirectGatewayDef1 : Bool
  legacyDnsServers : List IpAddr
  searchDomains : List String
  dnsServers : List PushedDnsServer
  moreFollows : Bool
  deriving DecidableEq

/-- Append the items that are not there yet. -/
def extendNew {α : Type} [DecidableEq α] (into from_ : List α) : List α :=
  from_.foldl (fun acc item => if item ∈ acc then acc else acc ++ [item]) into

/-- A later fragment of a split push reply. -/
def PushedNetworkConfig.merge (pending next : PushedNetworkConfig) : PushedNetworkConfig :=
  { routes := extendNew pending.routes next.routes
    redirectGatewayDef1 := pending.redirectGatewayDef1 || next.redirectGatewayDef1
    legacyDnsServers := extendNew pending.legacyDnsServers next.legacyDnsServers
    searchDomains := extendNew pending.searchDomains next.searchDomains
    dnsServers := pending.dnsServers ++ next.dnsServers
    moreFollows := next.moreFollows }

inductive ManagementEvent where
  | state (state : OpenVpnState)
  | failureDetail (failure : OpenVpnFailure)
  | byteCount (received sent : Nat)
  | passwordPrompt
  | authenticationFailed
  | pushReply (push : PushedNetworkConfig)
  deriving DecidableEq

structure ManagementSnapshot where
  state : Option OpenVpnState
  lastFailure : Option OpenVpnFailure
  received : Nat
  sent : Nat
  activePush : Option PushedNetworkConfig
  pendingPush : Option PushedNetworkConfig
  deriving DecidableEq

namespace ManagementSnapshot

def initial : ManagementSnapshot :=
  { state := none, lastFailure := none, received := 0, sent := 0, activePush := none,
    pendingPush := none }

def apply (s : ManagementSnapshot) : ManagementEvent → ManagementSnapshot
  | .state state =>
    let s := { s with state := some state }
    match state with
    | .connected => { s with activePush := s.pendingPush, pendingPush := none }
    | .reconnecting | .exiting => { s with activePush := none, pendingPush := none }
    | _ => s
  | .byteCount received sent => { s with received, sent }
  | .pushReply push =>
    match s.pendingPush with
    | some pending =>
      if pending.moreFollows then { s with pendingPush := some (pending.merge push) }
      else { s with pendingPush := some push }
    | none => { s with pendingPush := some push }
  | .failureDetail failure =>
    let generic := failure == .exitWithError || failure == .exitNotification
    if s.lastFailure.isNone || !generic then { s with lastFailure := some failure } else s
  | .authenticationFailed =>
    { s with
      state := some .exiting
      activePush := none
      pendingPush := none
      lastFailure := some .authenticationFailure }
  | .passwordPrompt => s

end ManagementSnapshot

inductive TunnelRole where
  | primary
  | secondary
  deriving DecidableEq

structure OpenVpnRuntime where
  explicitRoutes : List PolicyRoute
  role : TunnelRole
  dnsDomains : List String
  snapshot : ManagementSnapshot
  deriving DecidableEq

structure OpenVpnNetworkPlan where
  routes : List PolicyRoute
  fullIpv4 : Bool
  fullIpv6 : Bool
  dnsServers : List IpAddr
  dnsDomains : List String
  deriving DecidableEq

/-! ### Default routes and their halves -/

def defaultIpv4 : IpNet := .v4 0 0
def lowerIpv4 : IpNet := .v4 0 1
def upperIpv4 : IpNet := .v4 0x80000000 1
def defaultIpv6 : IpNet := .v6 0 0
def lowerIpv6 : IpNet := .v6 0 1
def upperIpv6 : IpNet := .v6 0x80000000000000000000000000000000 1

/-- A default route or one of its halves in a family that is fully tunnelled. -/
def isFullRoute (fullIpv4 fullIpv6 : Bool) (destination : IpNet) : Bool :=
  match destination with
  | .v4 _ _ => fullIpv4 && [defaultIpv4, lowerIpv4, upperIpv4].contains destination
  | .v6 _ _ => fullIpv6 && [defaultIpv6, lowerIpv6, upperIpv6].contains destination

def OpenVpnNetworkPlan.isFullRoute (plan : OpenVpnNetworkPlan) (destination : IpNet) : Bool :=
  Daemon.isFullRoute plan.fullIpv4 plan.fullIpv6 destination

/-- The plan of a session that carries nothing. -/
def OpenVpnNetworkPlan.idle : OpenVpnNetworkPlan :=
  { routes := [], fullIpv4 := false, fullIpv6 := false, dnsServers := [], dnsDomains := [] }

/-- The routes of the profile and, for a primary tunnel, the pushed ones. -/
def pushedRoutes (routes : List PolicyRoute) (destinations : List IpNet) : List PolicyRoute :=
  destinations.foldl
    (fun acc destination =>
      if acc.any fun route => route.destination == destination then acc
      else acc ++ [{ destination, metric := 5, via := none }])
    routes

/-- `from_runtime`. -/
def OpenVpnNetworkPlan.fromRuntime (runtime : OpenVpnRuntime) : Except IoError OpenVpnNetworkPlan :=
  let secondary := runtime.role == .secondary
  let push := runtime.snapshot.activePush
  let redirect := push.any fun p => p.redirectGatewayDef1 && !secondary
  let routes :=
    match push with
    | some p => if secondary then runtime.explicitRoutes
        else pushedRoutes runtime.explicitRoutes p.routes
    | none => runtime.explicitRoutes
  let dnsServers :=
    match push with
    | some p => extendNew [] (p.legacyDnsServers ++ p.dnsServers.flatMap PushedDnsServer.addresses)
    | none => []
  let domains :=
    match push with
    | some p =>
      if secondary then extendNew [] runtime.dnsDomains
      else extendNew [] (p.searchDomains ++ p.dnsServers.flatMap PushedDnsServer.resolveDomains)
    | none => []
  let dnsDomains := if secondary && dnsServers.isEmpty then [] else domains
  if 8 < dnsServers.length || 16 < dnsDomains.length then
    .error (invalidInput (.text "OpenVPN pushed too many DNS settings"))
  else if !dnsDomains.isEmpty && dnsServers.isEmpty then
    .error (invalidInput (.text "OpenVPN pushed DNS domains without a server"))
  else
    let has := fun net => routes.any fun route => route.destination == net
    .ok
      { routes
        fullIpv4 := redirect || has defaultIpv4 || (has lowerIpv4 && has upperIpv4)
        fullIpv6 := has defaultIpv6 || (has lowerIpv6 && has upperIpv6)
        dnsServers
        dnsDomains }

end NetOrchestrator.Daemon
