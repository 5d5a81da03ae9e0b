import NetOrchestrator.Daemon.CondRules

/-!
# `Core.RouteIntents`: what intents and conditional rules want on macOS

The pure half of the macOS helper's routing: what a request may say, which routes an intent or
a rule wants given the network, and how a wanted route compares with the route table. The
texts that only a status shows are kept as the values they print.

`NetText` stands for the text form of prefixes, which is the `ipnet` crate's.
-/

namespace NetOrchestrator.Core

open Net
open Daemon (NetIntentPath NetIntentSetParams ConditionalRouteRule PolicyRoute isAsciiAlphanumeric
  isControl trim)

/-- `IpNet::from_str` and `IpNet::to_string`. -/
structure NetText where
  parse : String → Option IpNet
  render : IpNet → String

def maxDestinations : Nat := 64
def defaultMetric : Nat := 100
def maxIdLen : Nat := 64

/-! ### Requests -/

inductive IntentPath where
  | direct
  | interface (name : String)
  | gateway (address : IpAddr)
  deriving DecidableEq

structure Intent where
  id : String
  destinations : List IpNet
  path : IntentPath
  metric : Nat
  enabled : Bool
  deriving DecidableEq

/-- Why a request is not accepted, with the values that the texts print. -/
inductive IntentRefusal where
  | name
  | noDestination
  | tooManyDestinations
  | notANetwork (text : String)
  | notRoutable (destination : IpNet)
  | noInterface
  | notAnAddress
  | badGateway
  | unknownPath
  | ruleId
  | ruleName
  | conditionHostBits (net : IpNet)
  | routeCount (count : Nat)
  | hostBits (destination : IpNet)
  | gatewayFamily (via : IpAddr) (destination : IpNet)
  | gatewayNotUnicast (via : IpAddr)
  | duplicate (destination : IpNet)
  deriving DecidableEq

def isAsciiLowercase (c : Char) : Bool := 'a' ≤ c && c ≤ 'z'

def isAsciiDigit (c : Char) : Bool := '0' ≤ c && c ≤ '9'

def validId (id : String) : Bool :=
  id.utf8ByteSize ≤ maxIdLen &&
    match id.toList with
    | [] => false
    | first :: rest =>
      (isAsciiLowercase first || isAsciiDigit first) &&
        rest.all fun c => isAsciiLowercase c || isAsciiDigit c || c == '_' || c == '-'

def validInterface (name : String) : Bool :=
  name.utf8ByteSize ≤ 15 &&
    match name.toList with
    | [] => false
    | first :: rest => first.isAlpha && rest.all isAsciiAlphanumeric

/-- `169.254.0.0/16` and `fe80::/10`. -/
def isLinkLocal : IpAddr → Bool
  | .v4 a => a.toNat / 2 ^ 16 == 0xa9fe
  | .v6 a => a.toNat / 2 ^ 118 == 0x3fa

/-- The full length of a prefix's family. -/
def maxPrefixLen (net : IpNet) : Nat := if net.isIpv4 then 32 else 128

def checkRoutable (net : IpNet) : Except IntentRefusal Unit :=
  let address := net.trunc.addr
  let host := net.len == maxPrefixLen net
  if address.isLoopback || address.isMulticast || isLinkLocal address ||
      (address.isUnspecified && host) then
    .error (.notRoutable net)
  else .ok ()

def checkGateway (gateway : IpAddr) : Except IntentRefusal Unit :=
  if gateway.isUnspecified || gateway.isLoopback || gateway.isMulticast || isLinkLocal gateway then
    .error .badGateway
  else .ok ()

def parseDestination (text : NetText) (raw : String) : Except IntentRefusal IpNet :=
  let raw := trim raw
  match (text.parse raw).or ((parseIpAddr raw).map IpAddr.toNet) with
  | none => .error (.notANetwork raw)
  | some net => do
      checkRoutable net.trunc
      .ok net.trunc

/-- The loop of `normalize`: what was there before is left out. -/
def parseDestinations (text : NetText) :
    List IpNet → List String → Except IntentRefusal (List IpNet)
  | seen, [] => .ok seen
  | seen, raw :: rest => do
      let net ← parseDestination text raw
      parseDestinations text (if seen.contains net then seen else seen ++ [net]) rest

def intentPath (path : NetIntentPath) : Except IntentRefusal IntentPath :=
  if path.kind = "direct" then .ok .direct
  else if path.kind = "interface" then
    let name := path.interface.getD ""
    if !validInterface name || name == "lo0" then .error .noInterface else .ok (.interface name)
  else if path.kind = "gateway" then
    match parseIpAddr (trim (path.gateway.getD "")) with
    | none => .error .notAnAddress
    | some gateway => do
        checkGateway gateway
        .ok (.gateway gateway)
  else .error .unknownPath

def normalize (text : NetText) (params : NetIntentSetParams) : Except IntentRefusal Intent :=
  if !validId params.id then .error .name
  else if params.destinations.isEmpty then .error .noDestination
  else if maxDestinations < params.destinations.length then .error .tooManyDestinations
  else do
    let destinations ← parseDestinations text [] params.destinations
    let path ← intentPath params.path
    .ok
      { id := params.id
        destinations
        path
        metric := params.metric.getD defaultMetric
        enabled := params.enabled.getD true }

theorem normalize_eq_ok {text : NetText} {params : NetIntentSetParams} {intent : Intent} :
    normalize text params = .ok intent ↔ validId params.id = true ∧ params.destinations ≠ [] ∧
      params.destinations.length ≤ maxDestinations ∧
      ∃ nets path, parseDestinations text [] params.destinations = .ok nets ∧
        intentPath params.path = .ok path ∧
        { id := params.id, destinations := nets, path, metric := params.metric.getD defaultMetric,
          enabled := params.enabled.getD true } = intent := by
  unfold normalize
  cases validId params.id with
  | false => simp
  | true =>
    by_cases hempty : params.destinations = []
    · simp [hempty]
    by_cases hlen : maxDestinations < params.destinations.length
    · simp [hempty, hlen, Nat.not_le.mpr hlen]
    · cases parseDestinations text [] params.destinations <;> cases intentPath params.path <;>
        simp [hempty, hlen, Nat.le_of_not_lt hlen, bind, Except.bind]

/-! ### The network -/

structure Uplink where
  interface : String
  gateway : Option IpAddr
  deriving DecidableEq

structure IfaceAddr where
  ifIndex : Nat
  interface : String
  address : IpNet
  deriving DecidableEq

structure NetworkView where
  uplink : Option Uplink
  interfaces : List String
  addresses : List IfaceAddr
  deriving DecidableEq

inductive RouteTarget where
  | gateway (address : IpAddr)
  | interface (name : String)
  deriving DecidableEq

structure WantedRoute where
  destination : IpNet
  target : RouteTarget
  deriving DecidableEq

/-- Why there is nothing to install yet. -/
inductive Deferral where
  | noUplink
  | absent (interface : String)
  | notConnected (gateway : IpAddr)
  | noAddress (net : IpNet)
  deriving DecidableEq

/-- `skipped` are the destinations held back, with the gateway that they contain. -/
inductive Derivation where
  | disabled
  | deferred (reason : Deferral)
  | routes (wanted : List WantedRoute) (skipped : List (IpNet × IpAddr))
  deriving DecidableEq

/-- The routes that a derivation wants now. -/
def Derivation.wanted : Derivation → List WantedRoute
  | .routes wanted _ => wanted
  | _ => []

/-- Whether a destination would pull the protected gateway off the uplink. -/
def containsProtected (protect : Option IpAddr) (destination : IpNet) : Option IpAddr :=
  protect.filter fun gateway => destination.containsAddr gateway

/-- The loop of `derive` and of `derive_rule`: the wanted routes that are not held back. -/
def derivation (protect : Option IpAddr) (routes : List WantedRoute) : Derivation :=
  .routes (routes.filter fun route => (containsProtected protect route.destination).isNone)
    (routes.filterMap fun route =>
      (containsProtected protect route.destination).map fun gateway => (route.destination, gateway))

def derive (intent : Intent) (network : NetworkView) : Derivation :=
  let toward (target : RouteTarget) (protect : Option IpAddr) : Derivation :=
    derivation protect (intent.destinations.map fun destination => ⟨destination, target⟩)
  if !intent.enabled then .disabled
  else
    match intent.path with
    | .direct =>
      match network.uplink with
      | none => .deferred .noUplink
      | some uplink =>
        match uplink.gateway with
        | some gateway => toward (.gateway gateway) none
        | none => toward (.interface uplink.interface) none
    | .interface name =>
      if !network.interfaces.contains name then .deferred (.absent name)
      else
        toward (.interface name)
          ((network.uplink.filter fun uplink => uplink.interface != name).bind Uplink.gateway)
    | .gateway gateway =>
      if !network.addresses.any fun known => known.address.containsAddr gateway then
        .deferred (.notConnected gateway)
      else toward (.gateway gateway) (some gateway)

/-! ### Conditional rules -/

def maxRules : Nat := 32
def maxRuleRoutes : Nat := 256
def maxRuleIdBytes : Nat := 48
def maxRuleNameBytes : Nat := 128

def nonUplinkPrefixes : List String :=
  [ "lo", "utun", "utap", "gif", "stf", "ipsec", "ppp", "tun", "tap", "awdl", "llw", "anpi", "ap",
    "p2p", "bridge", "vmenet", "vmnet" ]

def nonUplinkName (name : String) : Bool :=
  nonUplinkPrefixes.any fun start => start.toList.isPrefixOf name.toList

def globalScope (address : IpAddr) : Bool :=
  !(address.isLoopback || address.isMulticast || address.isUnspecified || isLinkLocal address)

/-- The first address with the lowest index. -/
def minByIndex : List IfaceAddr → Option IfaceAddr
  | [] => none
  | first :: rest =>
    some (rest.foldl (fun best addr => if addr.ifIndex < best.ifIndex then addr else best) first)

def matchInterface (addresses : List IfaceAddr) (net : IpNet) : Option String :=
  (minByIndex (addresses.filter fun a =>
    a.ifIndex != 0 && !nonUplinkName a.interface && globalScope a.address.addr &&
      net.containsAddr a.address.addr)).map IfaceAddr.interface

def validateRuleRoute (route : PolicyRoute) : Except IntentRefusal Unit :=
  if route.destination.trunc ≠ route.destination then .error (.hostBits route.destination)
  else do
    checkRoutable route.destination
    match route.via with
    | none => .ok ()
    | some via =>
      if via.isIpv4 != route.destination.isIpv4 then
        .error (.gatewayFamily via route.destination)
      else if via.isUnspecified || via.isMulticast then .error (.gatewayNotUnicast via)
      else .ok ()

/-- The loop over the routes. `seen` are the destinations before. -/
def validateRuleRoutes (seen : List IpNet) : List PolicyRoute → Except IntentRefusal Unit
  | [] => .ok ()
  | route :: rest => do
      validateRuleRoute route
      if seen.contains route.destination then .error (.duplicate route.destination)
      else validateRuleRoutes (route.destination :: seen) rest

def validateRule (rule : ConditionalRouteRule) : Except IntentRefusal Unit :=
  if rule.id = "" ∨ maxRuleIdBytes < rule.id.utf8ByteSize ∨
      !rule.id.toList.head?.any isAsciiAlphanumeric ∨
      !rule.id.toList.all (fun c => isAsciiAlphanumeric c || ['.', '_', '-'].contains c) then
    .error .ruleId
  else if rule.name = "" ∨ maxRuleNameBytes < rule.name.utf8ByteSize ∨
      rule.name.toList.any isControl then
    .error .ruleName
  else
    match rule.condition with
    | .interfaceAddressIn net =>
      if net.trunc ≠ net then .error (.conditionHostBits net)
      else if rule.routes.isEmpty || maxRuleRoutes < rule.routes.length then
        .error (.routeCount rule.routes.length)
      else validateRuleRoutes [] rule.routes

def conditionMatch (rule : ConditionalRouteRule) (network : NetworkView) : Option String :=
  match rule.condition with
  | .interfaceAddressIn net => matchInterface network.addresses net

/-- The route that a rule's entry stands for on the matched interface. -/
def ruleRoute (matched : String) (route : PolicyRoute) : WantedRoute :=
  { destination := route.destination
    target :=
      match route.via with
      | some gateway => .gateway gateway
      | none => .interface matched }

def deriveRule (rule : ConditionalRouteRule) (network : NetworkView) : Derivation :=
  if !rule.enabled then .disabled
  else
    match conditionMatch rule network with
    | none =>
      match rule.condition with
      | .interfaceAddressIn net => .deferred (.noAddress net)
    | some matched =>
      derivation
        ((network.uplink.filter fun uplink => uplink.interface != matched).bind Uplink.gateway)
        (rule.routes.map (ruleRoute matched))

/-! ### Comparing with the route table -/

/-- A row of the route table. Its destination and prefix length are one value. -/
structure RouteEntry where
  destination : IpNet
  gateway : Option IpAddr
  interfaceName : String
  deriving DecidableEq

/-- Why a wanted route is not ours to touch. -/
inductive Rival where
  | identical
  | another (destination : IpNet) (interface : String)
  deriving DecidableEq

inductive RouteState where
  | present
  | missing
  | conflicted (rival : Rival)
  deriving DecidableEq

def RouteTarget.matches (target : RouteTarget) (entry : RouteEntry) : Bool :=
  match target with
  | .gateway address => entry.gateway == some address
  | .interface name => entry.interfaceName == name

def judge (wanted : WantedRoute) (ours : Bool) (table : List RouteEntry) : RouteState :=
  let found := table.filter fun entry => entry.destination.trunc == wanted.destination
  match found with
  | [] => .missing
  | first :: _ =>
    if found.any wanted.target.matches then
      if ours then .present else .conflicted .identical
    else .conflicted (.another wanted.destination first.interfaceName)

end NetOrchestrator.Core
