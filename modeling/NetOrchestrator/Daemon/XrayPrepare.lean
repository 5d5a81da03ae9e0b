import NetOrchestrator.Daemon.ProxyExits

/-!
# `Daemon.XrayPrepare`: from a connect request to the config that runs

`prepareXray` checks a connect request and rewrites its config. The client's inbounds are replaced
by the TUN link and by loopback listeners: one that reaches the API, one for each node and each
pin that is probed, two for each named exit. Their rules go in front of the client's rules, and
every outbound gets the transport mark.

The prefix parser and printer, the aggregation, the JSON parser and the URL parser are
third-party functions and parameters. The plan keeps the config as the document that is printed.
-/

namespace NetOrchestrator.Daemon

open Net Lib
open NetOrchestrator.Core (nodeTag pinTag failoverBalancer)

/-! ### The request -/

/-- What is read of a parsed URL. `text` is the URL as it is printed. -/
structure ParsedUrl where
  scheme : String
  username : String
  password : Option String
  host : Option String
  /-- `port_or_known_default`. -/
  port : Option Nat
  fragment : Option String
  text : String
  deriving DecidableEq

structure XrayCrates extends WireGuardCrates where
  parseJson : String → Option Json
  parseUrl : String → Option ParsedUrl

structure ServiceCheck where
  id : String
  name : String
  url : String
  endpointKey : String
  background : Bool
  deriving DecidableEq

/-- The failover parameters with the probe that a request names. -/
structure XrayFailoverRequest extends XrayFailoverParams where
  probeUrl : String
  intervalSecs : Nat
  deriving DecidableEq

structure XrayConnectParams where
  profileId : String
  config : String
  routes : List PolicyRoute := []
  dnsServers : List IpAddr := []
  dnsDomains : List String := []
  dnsBypass : List String := []
  interfaceName : Option String := none
  failover : Option XrayFailoverRequest := none
  rejectQuic : Bool := false
  probeUrl : Option String := none
  mtu : Option Nat := none
  serviceChecks : List ServiceCheck := []
  proxyExits : List NamedProxyExit := []
  deriving DecidableEq

def maxXrayConfigBytes : Nat := 512 * 1024
def maxServiceChecks : Nat := 16
def maxUrlBytes : Nat := 2048
def maxFailoverNodes : Nat := 8

/-- The plan with the config and with what the probes and the supervisors use. -/
structure PreparedXray extends XrayPlan where
  config : Json
  mark : Nat
  apiPort : Nat
  failover : Option XrayFailoverRequest
  probeUrl : Option String
  pinnedKeys : List String
  serviceChecks : List ServiceCheck
  deriving DecidableEq

/-! ### URLs and service checks -/

def invalidProbeUrl : IoError := invalidInput (.text "invalid HTTPS probe URL")

variable (lib : XrayCrates) (params : XrayConnectParams)

/-- `checked_probe_url`. -/
def checkedProbeUrl (text : String) : Except IoError String :=
  if 512 < text.utf8ByteSize || text.toList.any isControl then .error invalidProbeUrl
  else
    match lib.parseUrl text with
    | none => .error invalidProbeUrl
    | some url =>
      if url.scheme != "https" || url.host.isNone || url.username != "" || url.password.isSome ||
          url.fragment.isSome then
        .error invalidProbeUrl
      else .ok url.text

def serviceRefused (message : String) : IoError := ⟨.invalidData, .text message⟩

/-- `service_url`. -/
def validateServiceUrl (value : String) : Except IoError Unit :=
  let invalid := serviceRefused "Invalid service check URL"
  if value = "" || maxUrlBytes < value.utf8ByteSize ||
      value.toList.any (fun c => isControl c || isWhitespace c) || value.toList.contains '\\' then
    .error invalid
  else
    match Core.splitScheme value.toList, lib.parseUrl value with
    | some (_, rest), some url =>
      let authority := Core.beforePath rest
      if url.scheme != "https" || authority.isEmpty || authority.contains '@' ||
          url.host.all (· == "") || url.username != "" || url.password.isSome ||
          url.fragment.isSome || url.port.all (· == 0) then
        .error (serviceRefused
          "Service checks require HTTPS with a host and without credentials or fragments")
      else .ok ()
    | _, _ => .error invalid

def validServiceId (id : String) : Bool :=
  id != "" && id.utf8ByteSize ≤ 64 &&
    id.toList.all fun c => isAsciiAlphanumeric c || c == '-' || c == '_'

/-- The checks one by one. `ids` is what came before. -/
def validateServiceList (lib : XrayCrates) : List String → List ServiceCheck → Except IoError Unit
  | _, [] => .ok ()
  | ids, check :: rest =>
    if !validServiceId check.id || ids.contains check.id then
      .error (serviceRefused "Service check IDs must be valid and unique")
    else if trim check.name = "" || 80 < check.name.length || check.name.toList.any isControl then
      .error (serviceRefused
        "Service check names must contain 1-80 characters without controls")
    else do
      validateServiceUrl lib check.url
      if !Core.validEndpointKey check.endpointKey then
        .error (serviceRefused "Invalid service check endpoint key")
      validateServiceList lib (check.id :: ids) rest

/-- `validate_service_checks`. -/
def validateServiceChecks (checks : List ServiceCheck) : Except IoError Unit :=
  if maxServiceChecks < checks.length then
    .error (serviceRefused "A profile supports at most 16 service checks")
  else validateServiceList lib [] checks

/-! ### Failover -/

/-- The node tags of the config and the declared candidates name each other. -/
def nodesDeclared (nodes : List String) (outbounds : List Json) : Bool :=
  (nodes.all fun key => (taggedOutbound outbounds (nodeTag key)).isSome) &&
    outbounds.all fun outbound =>
      ((outbound.text? "tag").bind (stripPrefix "node-")).all fun key => nodes.contains key

/-- `validate_failover`. -/
def validateFailover (failover : XrayFailoverRequest) (outbounds : List Json) :
    Except IoError XrayFailoverRequest :=
  let nodes := failover.nodes
  if nodes.isEmpty || maxFailoverNodes < nodes.length then .error xrayRejected
  else if !nodes.all validNodeKey || !decide nodes.Nodup then .error xrayRejected
  else if !validNodeKey failover.primaryKey || nodes.head? != some failover.primaryKey then
    .error xrayRejected
  else if !nodesDeclared nodes outbounds then .error xrayRejected
  else do
    let probe ← checkedProbeUrl lib (trim failover.probeUrl)
    if !(1 ≤ failover.intervalSecs && failover.intervalSecs ≤ 300) then .error xrayRejected
    else .ok { failover with probeUrl := probe }

/-! ### Ports -/

/-- A port that fits into 16 bits, or the base of its range. -/
def portOr (base port : Nat) : Nat := if port < 2 ^ 16 then port else base

def xrayApiPort (mark : Nat) : Nat := portOr 10185 (10185 + portSlot mark)

def xrayProbePort (mark index : Nat) : Nat := portOr 11185 (11185 + portSlot mark * 8 + min index 7)

def xrayPinProbePort (mark index : Nat) : Nat :=
  (13000 + portSlot mark * 40 + min index 32) % 2 ^ 16

/-! ### Checks of the request -/

/-- A destination without host bits, through the tunnel itself, and listed once. -/
def routesAccepted (routes : List PolicyRoute) : Bool :=
  (routes.all fun route => route.via.isNone && route.destination.trunc == route.destination) &&
    decide (routes.map PolicyRoute.destination).Nodup

def validBypassHost (host : String) : Bool :=
  host != "" && host.utf8ByteSize ≤ 253 &&
    host.toList.all fun c => !(isControl c || isWhitespace c || ['/', '@', '%'].contains c)

def dnsAccepted : Bool :=
  (params.dnsServers.all fun ip => !(ip.isUnspecified || ip.isMulticast)) &&
    (params.dnsDomains.isEmpty || !params.dnsServers.isEmpty) &&
    (params.dnsDomains.all fun domain =>
      domain != "" && domain.utf8ByteSize ≤ 253 && !domain.toList.any isControl) &&
    params.dnsBypass.length ≤ 16 && params.dnsBypass.all validBypassHost

/-- Whether the routes take the families, and that they do not in any other way. -/
def coverageAccepted (routes : List PolicyRoute) : Bool :=
  let (coversIpv4, coversIpv6) :=
    fullCoverage lib.toWireGuardCrates (routes.map PolicyRoute.destination)
  (!coversIpv4 || takesAll routes defaultIpv4 lowerIpv4 upperIpv4) &&
    (!coversIpv6 || takesAll routes defaultIpv6 lowerIpv6 upperIpv6)

def dnsCovered : Bool :=
  params.dnsServers.all fun server =>
    params.routes.any fun route => route.destination.containsAddr server

/-- What `prepare_xray` checks before it reads the config. -/
def checkRequest (mark : Nat) : Except IoError Unit := do
  (validateOwner ("xray:" ++ params.profileId)).mapError fun _ => xrayRejected
  if mark = 0 || maxXrayConfigBytes < params.config.utf8ByteSize || 64 < params.routes.length ||
      8 < params.dnsServers.length || 16 < params.dnsDomains.length then
    .error xrayRejected
  validateServiceChecks lib params.serviceChecks
  if !routesAccepted params.routes || !dnsAccepted params ||
      !coverageAccepted lib params.routes || !dnsCovered params then
    .error xrayRejected

/-! ### The host of each proxy -/

/-- The upstream host of a proxy outbound. -/
def serverHost (outbound : Json) : Option String :=
  match outbound.text? "protocol" with
  | some "vless" =>
    (((outbound.index "settings").index "vnext").asArray.bind List.head?).bind fun server =>
      server.text? "address"
  | some "hysteria" => (outbound.index "settings").text? "address"
  | _ => none

/-- `198.18.0.0` and the low seventeen bits of the hash. -/
def tunnelAddress (uid : Nat) (profileId : String) : IpNet :=
  .v4 (BitVec.ofNat 32 (198 * 2 ^ 24 + 18 * 2 ^ 16 + (linkNameSeed uid profileId).toNat % 2 ^ 17)) 32

/-- The keys of the pins that reach a server, as their tags have them. -/
def pinnedKeysOf (outbounds : List Json) : List String :=
  (outbounds.filter fun outbound => isProxyProtocol (outbound.text? "protocol")).filterMap
    fun outbound => (outbound.text? "tag").bind (stripPrefix "pin-")

/-! ### Inbounds -/

def probeTag (key : String) : String := "probe-" ++ key

def pinProbeTag (key : String) : String := "pin-probe-" ++ key

def hasFakedns (root : List (String × Json)) : Bool :=
  ((getField "fakedns" root).bind Json.asArray).any fun pools => !pools.isEmpty

/-- TUN traffic arrives as packets; sniffing finds the names for the rules. -/
def tunInbound (name : String) (mtu : Nat) (fakedns : Bool) : Json :=
  .object [("tag", .str "tun-in"), ("protocol", .str "tun"),
    ("settings", .object [("name", .str name), ("mtu", .nat mtu)]),
    ("sniffing", .object [("enabled", .bool true),
      ("destOverride", .texts (["http", "tls", "quic"] ++ if fakedns then ["fakedns"] else []))])]

def apiInbound (port : Nat) : Json :=
  .object [("tag", .str "api-in"), ("protocol", .str "dokodemo-door"), ("listen", .str "127.0.0.1"),
    ("port", .nat port), ("settings", .object [("address", .str "127.0.0.1")])]

/-- The SOCKS listener of a probe. -/
def probeInbound (tag : String) (port : Nat) : Json :=
  .object [("tag", .str tag), ("protocol", .str "socks"), ("listen", .str "127.0.0.1"),
    ("port", .nat port)]

/-- The inbounds that replace the client's. -/
def controlInbounds (mark : Nat) (nodes pinned : List String) (tun : Json) : List Json :=
  [tun, apiInbound (xrayApiPort mark)] ++
    nodes.mapIdx (fun index key => probeInbound (probeTag key) (xrayProbePort mark index)) ++
    pinned.mapIdx fun index key => probeInbound (pinProbeTag key) (xrayPinProbePort mark index)

/-! ### The rewritten sections -/

def systemPolicy : Json :=
  .object [("statsInboundUplink", .bool true), ("statsInboundDownlink", .bool true),
    ("statsOutboundUplink", .bool true), ("statsOutboundDownlink", .bool true)]

/-- The sections other than the outbounds and the routing. -/
def controlSections (inbounds : List Json) (routed : Bool) (root : List (String × Json)) :
    List (String × Json) :=
  let root := insertField "inbounds" (.arr inbounds) root
  let root := insertField "log" (.object [("loglevel", .str "warning")]) root
  let root := insertField "stats" (.object []) root
  -- the check has seen that a policy is an object
  let policy := ((getField "policy" root).bind Json.asObject).getD []
  let root := insertField "policy" (.obj (insertField "system" systemPolicy policy)) root
  let services := if routed then ["StatsService", "RoutingService"] else ["StatsService"]
  insertField "api" (.object [("tag", .str "api"), ("services", .texts services)]) root

def apiRule : Json := forcedRule ["api-in"] "outboundTag" "api"

/-- Control and probe traffic wins over every rule of the client. -/
def controlRules (nodes pinned : List String) : List Json :=
  apiRule :: nodes.map (fun key => forcedRule [probeTag key] "outboundTag" (nodeTag key)) ++
    pinned.map fun key => forcedRule [pinProbeTag key] "outboundTag" (pinTag key)

/-- What matched no rule goes to the balancer. -/
def failoverRule : Json :=
  .object [("type", .str "field"), ("network", .str "tcp,udp"),
    ("balancerTag", .str failoverBalancer)]

def routeControl (nodes pinned : List String) (failover : Bool) (root : List (String × Json)) :
    Except IoError (List (String × Json)) := do
  let routing ← objectField "routing" root xrayRejected
  let rules ← arrayField "rules" routing xrayRejected
  let rules := controlRules nodes pinned ++ rules ++ if failover then [failoverRule] else []
  .ok (insertField "routing" (.obj (insertField "rules" (.arr rules) routing)) root)

def addUnavailable (failover : Bool) (root : List (String × Json)) :
    Except IoError (List (String × Json)) :=
  if failover then do
    let outbounds ← arrayField "outbounds" root xrayRejected
    .ok (insertField "outbounds" (.arr (outbounds ++ [unavailableOutbound])) root)
  else .ok root

/-- Write the transport mark to the socket options of an outbound. -/
def markOutbound (mark : Nat) (outbound : Json) : Except IoError Json :=
  if outbound.text? "protocol" = some "blackhole" then .ok outbound
  else
    let stream := if outbound.index "streamSettings" = .null then .object []
      else outbound.index "streamSettings"
    match outbound, stream with
    | .obj fields, .obj stream =>
      match (getField "sockopt" stream).getD (.object []) with
      | .obj sockopt =>
        .ok (.obj (insertField "streamSettings"
          (.obj (insertField "sockopt" (.obj (insertField "mark" (.nat mark) sockopt)) stream))
          fields))
      | _ => .error xrayRejected
    | _, _ => .error xrayRejected

def markOutbounds (mark : Nat) (root : List (String × Json)) :
    Except IoError (List (String × Json)) := do
  let outbounds ← arrayField "outbounds" root xrayRejected
  let outbounds ← outbounds.mapM (markOutbound mark)
  .ok (insertField "outbounds" (.arr outbounds) root)

/-! ### Preparing -/

/-- What is read off the client's config before it is rewritten. -/
structure XrayReading where
  exits : List ProxyExitBinding
  failover : Option XrayFailoverRequest
  probeUrl : Option String
  pinnedKeys : List String

def XrayReading.nodes (reading : XrayReading) : List String :=
  (reading.failover.map fun failover => failover.nodes).getD []

def XrayReading.hasPool (reading : XrayReading) : Bool :=
  reading.exits.any fun exit => exit.target.isPool

def failoverOf (outbounds : List Json) : Except IoError (Option XrayFailoverRequest) :=
  match params.failover with
  | none => .ok none
  | some failover => do
      let failover ← validateFailover lib failover outbounds
      .ok (some failover)

def probeUrlOf : Except IoError (Option String) :=
  match params.probeUrl with
  | none => .ok none
  | some text => do
      let url ← checkedProbeUrl lib text
      .ok (some url)

/-- The part of `prepare_xray` that reads the config. -/
def readConfig (config : Json) (outbounds : List Json) : Except IoError XrayReading := do
  let exits ← bindings params.proxyExits config
  let failover ← failoverOf lib params outbounds
  let mtu := params.mtu.getD 1500
  if !(1280 ≤ mtu && mtu ≤ 9000) then .error xrayRejected
  let probeUrl ← probeUrlOf lib params
  if (exits.any fun exit => exit.target.isPool) && probeUrl.isNone && failover.isNone then
    .error xrayRejected
  let pinnedKeys := pinnedKeysOf outbounds
  if 33 < pinnedKeys.length then .error xrayRejected
  .ok { exits, failover, probeUrl, pinnedKeys }

/-- The part of `prepare_xray` that rewrites the config. -/
def rewriteConfig (reading : XrayReading) (mark mtu : Nat) (name : String)
    (root : List (String × Json)) : Except IoError (List (String × Json)) := do
  let tun := tunInbound name mtu (hasFakedns root)
  let root := controlSections (controlInbounds mark reading.nodes reading.pinnedKeys tun)
    (reading.failover.isSome || reading.hasPool) root
  let root ← routeControl reading.nodes reading.pinnedKeys reading.failover.isSome root
  let root ← addUnavailable reading.failover.isSome root
  let root ← injectExits mark reading.exits root
  markOutbounds mark root

/-- `prepare_xray`. -/
def prepareXray (uid : Nat) (params : XrayConnectParams) (mark : Nat) :
    Except IoError PreparedXray := do
  checkRequest lib params mark
  match lib.parseJson params.config with
  | none => .error xrayRejected
  | some config =>
    if !validateGenerated lib.parseNet config then .error xrayRejected
    else do
      let outbounds ← arrayField "outbounds" (config.asObject.getD []) xrayRejected
      let reading ← readConfig lib params config outbounds
      let name := (tunnelLinkNames "xray-" uid params.profileId params.interfaceName).1
      let mtu := params.mtu.getD 1500
      let root ← rewriteConfig reading mark mtu name (config.asObject.getD [])
      .ok
        { profileId := params.profileId
          name
          config := .obj root
          routes := params.routes
          address := tunnelAddress uid params.profileId
          mtu
          dnsServers := params.dnsServers
          dnsDomains := params.dnsDomains
          dnsBypass := params.dnsBypass
          fullIpv4 := takesAll params.routes defaultIpv4 lowerIpv4 upperIpv4
          fullIpv6 := takesAll params.routes defaultIpv6 lowerIpv6 upperIpv6
          mark
          apiPort := xrayApiPort mark
          serverHosts := extendNew [] (outbounds.filterMap serverHost)
          unpinnedHosts := []
          serverPinned := false
          failover := reading.failover
          rejectQuic := params.rejectQuic
          probeUrl := reading.probeUrl
          pinnedKeys := reading.pinnedKeys
          serviceChecks := params.serviceChecks
          proxyExits := reading.exits }

end NetOrchestrator.Daemon
