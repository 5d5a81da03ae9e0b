import NetOrchestrator.Core.RouteIntents
import NetOrchestrator.Daemon.Failover
import NetOrchestrator.Net.IpText

/-!
# `Core.StaticRoutes`: the intents of static-route profiles

A profile without a tunnel keeps its routes as intents whose names are derived from its id:
`static-<slug>` for the routes through its interface, `static-<slug>-gw<n>` for each gateway and
`static-<slug>-bypass` for its endpoints. `staticBelongs` recognises these names again, and the
profile's switch removes what it recognises.
-/

namespace NetOrchestrator.Core

open Net
open Daemon (NetIntentSetParams PolicyRoute stripPrefix trim)

def staticPrefix : String := "static-"
def bypassSuffix : String := "-bypass"
def gatewaySuffix : String := "-gw"

/-! ### Names -/

def slugChar (c : Char) : Char :=
  let c := c.toLower
  if isAsciiLowercase c || isAsciiDigit c || c == '_' || c == '-' then c else '-'

def slug (profileId : String) : String := String.ofList (profileId.toList.map slugChar)

/-- Why a profile has no intents. -/
inductive StaticRefusal where
  | notStatic
  | noRoute
  | idTooLong
  | noInterface
  | badInterface (name : String)
  | refused (refusal : IntentRefusal)
  deriving DecidableEq

def staticIntentId (profileId : String) : Except StaticRefusal String :=
  let id := staticPrefix ++ slug profileId
  if slug profileId = "" || maxIdLen < id.utf8ByteSize + bypassSuffix.utf8ByteSize ||
      !validId id then
    .error .idTooLong
  else .ok id

/-- What may stand behind the base name. -/
def derivedSuffix (rest : String) : Bool :=
  rest == "" || rest == bypassSuffix ||
    (stripPrefix gatewaySuffix rest).any fun n => n != "" && n.toList.all isAsciiDigit

def staticBelongs (profileId intentId : String) : Bool :=
  match staticIntentId profileId with
  | .error _ => false
  | .ok base => (stripPrefix base intentId).any derivedSuffix

/-! ### Intents -/

inductive TunnelBackend where
  | none
  | wireGuard
  | openVpn
  | xray
  deriving DecidableEq

/-- What `static_intents` reads of a `Profile`. -/
structure StaticProfile where
  id : String
  backend : TunnelBackend
  interfaceName : String
  routes : List PolicyRoute
  deriving DecidableEq

/-- The loop over the bypass addresses: each network once. -/
def bypassNets : List IpNet → List IpAddr → Except StaticRefusal (List IpNet)
  | seen, [] => .ok seen
  | seen, address :: rest =>
    match checkRoutable address.toNet with
    | .error refusal => .error (.refused refusal)
    | .ok () =>
      bypassNets (if seen.contains address.toNet then seen else seen ++ [address.toNet]) rest

/-- Put a route with the others of its gateway. -/
def addToGateway (gateway : IpAddr) (route : PolicyRoute) :
    List (IpAddr × List PolicyRoute) → List (IpAddr × List PolicyRoute)
  | [] => [(gateway, [route])]
  | (known, routes) :: rest =>
    if known = gateway then (known, routes ++ [route]) :: rest
    else (known, routes) :: addToGateway gateway route rest

/-- The loop over the routes with a gateway. -/
def gatewayGroups : List (IpAddr × List PolicyRoute) → List PolicyRoute →
    Except StaticRefusal (List (IpAddr × List PolicyRoute))
  | groups, [] => .ok groups
  | groups, route :: rest =>
    match route.via with
    | none => gatewayGroups groups rest
    | some gateway =>
      match checkGateway gateway with
      | .error refusal => .error (.refused refusal)
      | .ok () => gatewayGroups (addToGateway gateway route groups) rest

variable (text : NetText)

def bypassIntent (base : String) (nets : List IpNet) : NetIntentSetParams :=
  { id := base ++ bypassSuffix
    destinations := nets.map text.render
    path := { kind := "direct", interface := none, gateway := none }
    metric := none
    enabled := some true }

def interfaceIntent (base interface : String) (routes : List PolicyRoute) : NetIntentSetParams :=
  { id := base
    destinations := routes.map fun route => text.render route.destination
    path := { kind := "interface", interface := some interface, gateway := none }
    metric := routes.head?.map PolicyRoute.metric
    enabled := some true }

def gatewayIntent (base : String) (index : Nat)
    (group : IpAddr × List PolicyRoute) : NetIntentSetParams :=
  { id := base ++ gatewaySuffix ++ Nat.repr (index + 1)
    destinations := group.2.map fun route => text.render route.destination
    path := { kind := "gateway", interface := none, gateway := some (renderIp group.1) }
    metric := group.2.head?.map PolicyRoute.metric
    enabled := some true }

def staticIntents (profile : StaticProfile) (bypass : List IpAddr) :
    Except StaticRefusal (List NetIntentSetParams) :=
  let interface := trim profile.interfaceName
  let direct := profile.routes.filter fun route => route.via.isNone
  if profile.backend ≠ .none then .error .notStatic
  else if profile.routes.isEmpty then .error .noRoute
  else do
    let base ← staticIntentId profile.id
    if !direct.isEmpty && interface == "" then .error .noInterface
    else if interface != "" && (!validInterface interface || interface == "lo0") then
      .error (.badInterface interface)
    else
      let bypassed ← bypassNets [] bypass
      let groups ← gatewayGroups [] profile.routes
      .ok ((if bypassed.isEmpty then [] else [bypassIntent text base bypassed]) ++
        (if direct.isEmpty then [] else [interfaceIntent text base interface direct]) ++
        groups.mapIdx fun index group => gatewayIntent text base index group)

/-! ### The profile's switch -/

/-- `own_intents`: the names of the profile's intents among everything that the helper holds. -/
def ownIntents (held : List String) (profile : StaticProfile) : List String :=
  held.filter (staticBelongs profile.id)

/-- The intents that `stop` asks the helper to delete, in this order: the routes go before the
bypass that protects the tunnel's own packets. -/
def stopRequests (held : List String) (profile : StaticProfile) : List String :=
  let isBypass (id : String) : Bool := bypassSuffix.toList.isSuffixOf id.toList
  (ownIntents held profile).filter (fun id => !isBypass id) ++
    (ownIntents held profile).filter isBypass

end NetOrchestrator.Core
