import NetOrchestrator.Core.Multinode
import NetOrchestrator.Daemon.XrayConfig

/-!
# `Daemon.ProxyExits`: named loopback exits of an Xray tunnel

A named exit is a pair of loopback listeners whose traffic leaves through a declared target. The
client declares the exits; `bindings` checks them against the config that it sent, and `inject`
adds their listeners, the rules that force them to their targets, and a balancer for each pool.
-/

namespace NetOrchestrator.Daemon

open Net Lib
open NetOrchestrator.Core (pinTag)

structure NamedProxyExit where
  name : String
  target : ProxyTarget
  noProxy : List String
  deriving DecidableEq

namespace ProxyTarget

/-- `endpoint_keys`. -/
def endpointKeys : ProxyTarget → List String
  | .rules | .direct => []
  | .node endpointKey => [endpointKey]
  | .pool endpointKeys => endpointKeys

def isPool : ProxyTarget → Bool
  | .pool _ => true
  | _ => false

end ProxyTarget

/-! ### Checks of the declared exits -/

def maxProxyExits : Nat := 16
def maxPoolKeys : Nat := 8
def maxNoProxy : Nat := 32
def maxNoProxyLen : Nat := 253

/-- `RESERVED_NAMES`: the verbs of the command. -/
def reservedExitNames : List String := ["list", "set", "remove", "help"]

def exitRefused (message : String) : IoError := invalidInput (.text message)

/-- `valid_proxy_exit_name`. -/
def validProxyExitName (name : String) : Bool :=
  1 ≤ name.utf8ByteSize && name.utf8ByteSize ≤ 32 && name.toList.head?.any isAsciiAlphanumeric &&
    (name.toList.all fun c =>
      Core.isAsciiLowercase c || Core.isAsciiDigit c || c == '-' || c == '_') &&
    !reservedExitNames.contains name

/-- `valid_no_proxy_entry`. -/
def validNoProxyEntry (entry : String) : Bool :=
  entry != "" && entry.utf8ByteSize ≤ maxNoProxyLen &&
    entry.toList.all fun c =>
      isAsciiAlphanumeric c || ['.', '-', '_', ':', '[', ']', '/', '*'].contains c

/-- The keys of a pool. `seen` is what came before. -/
def validatePoolKeys : List String → List String → Except IoError Unit
  | _, [] => .ok ()
  | seen, key :: rest =>
    if !Core.validEndpointKey key then .error (exitRefused "Invalid proxy exit endpoint key")
    else if seen.contains key then .error (exitRefused "Duplicate proxy exit pool key")
    else validatePoolKeys (key :: seen) rest

def validateTarget : ProxyTarget → Except IoError Unit
  | .rules | .direct => .ok ()
  | .node endpointKey =>
    if Core.validEndpointKey endpointKey then .ok ()
    else .error (exitRefused "Invalid proxy exit endpoint key")
  | .pool endpointKeys =>
    if endpointKeys.isEmpty || maxPoolKeys < endpointKeys.length then
      .error (exitRefused "A proxy exit pool needs 1-8 endpoint keys")
    else validatePoolKeys [] endpointKeys

def validateNoProxy (noProxy : List String) : Except IoError Unit :=
  if maxNoProxy < noProxy.length then
    .error (exitRefused "At most 32 no-proxy entries per exit")
  else if !noProxy.all validNoProxyEntry then
    .error (exitRefused "A no-proxy entry is invalid")
  else .ok ()

/-- The exits one by one. `names` is what came before. -/
def validateExitList : List String → List NamedProxyExit → Except IoError Unit
  | _, [] => .ok ()
  | names, exit :: rest =>
    if !validProxyExitName exit.name then
      .error (exitRefused "A proxy exit name is invalid or reserved")
    else if names.contains exit.name then .error (exitRefused "Duplicate proxy exit name")
    else do
      validateTarget exit.target
      validateNoProxy exit.noProxy
      validateExitList (exit.name :: names) rest

/-- `validate_proxy_exits`. -/
def validateProxyExits (exits : List NamedProxyExit) : Except IoError Unit :=
  if maxProxyExits < exits.length then
    .error (exitRefused "At most 16 named proxy exits are supported")
  else validateExitList [] exits

/-! ### Binding them to a config -/

def exitsRejected : IoError := exitRefused "invalid named Xray proxy exits"

/-- The first outbound with a tag. -/
def taggedOutbound (outbounds : List Json) (tag : String) : Option Json :=
  outbounds.find? fun outbound => outbound.text? "tag" = some tag

/-- An outbound that no other one carries on. -/
def dialsItself (outbound : Json) : Bool :=
  outbound.index "proxySettings" = .null &&
    ((outbound.index "streamSettings").index "sockopt").index "dialerProxy" = .null

/-- Whether the outbounds that the target names can serve it. -/
def bindable (outbounds : List Json) (target : ProxyTarget) : Bool :=
  (target.endpointKeys.all fun key =>
    (taggedOutbound outbounds (pinTag key)).any fun outbound =>
      (isProxyProtocol (outbound.text? "protocol") ||
        outbound.text? "protocol" = some "blackhole") && dialsItself outbound) &&
    (target != .direct ||
      (taggedOutbound outbounds "direct").any fun direct =>
        direct.text? "protocol" = some "freedom" && dialsItself direct)

/-- `bindings`. -/
def bindings (exits : List NamedProxyExit) (config : Json) :
    Except IoError (List ProxyExitBinding) := do
  validateProxyExits exits
  match (config.index "outbounds").asArray with
  | none => .error exitsRejected
  | some outbounds =>
    let pins := outbounds.filter fun outbound =>
      (outbound.text? "tag").any fun tag => (stripPrefix "pin-" tag).isSome
    if 33 < pins.length then .error exitsRejected
    else if !exits.all fun exit => bindable outbounds exit.target then .error exitsRejected
    else .ok (exits.map fun exit => { name := exit.name, target := exit.target })

/-! ### Injecting them -/

/-- The policy slot of a mark. -/
def portSlot (mark : Nat) : Nat := min (mark - firstMark) 127

/-- `ports`: the SOCKS and the HTTP port of an exit, as 16-bit numbers. -/
def exitPorts (mark index : Nat) : Nat × Nat :=
  let socks := (24000 + portSlot mark * 32 + index * 2) % 2 ^ 16
  (socks, (socks + 1) % 2 ^ 16)

/-- `balancer_tag`. -/
def balancerTag (name : String) : String := "proxy-pool-" ++ name

def exitSocksTag (name : String) : String := "proxy-socks-" ++ name

def exitHttpTag (name : String) : String := "proxy-http-" ++ name

def exitSniffing : Json :=
  .object [("enabled", .bool true), ("destOverride", .texts ["http", "tls"]),
    ("routeOnly", .bool true)]

def exitInbound (tag protocol : String) (port : Nat) (settings : Json) : Json :=
  .object [("tag", .str tag), ("listen", .str "127.0.0.1"), ("protocol", .str protocol),
    ("port", .nat port), ("settings", settings), ("sniffing", exitSniffing)]

/-- The two listeners of an exit. -/
def exitInbounds (mark index : Nat) (exit : ProxyExitBinding) : List Json :=
  [exitInbound (exitSocksTag exit.name) "socks" (exitPorts mark index).1
      (.object [("udp", .bool false)]),
    exitInbound (exitHttpTag exit.name) "http" (exitPorts mark index).2 (.object [])]

/-- A rule that sends what enters by some inbounds to a fixed target. -/
def forcedRule (inbounds : List String) (field target : String) : Json :=
  .object [("type", .str "field"), ("inboundTag", .texts inbounds), (field, .str target)]

/-- The rule of an exit, unless it follows the profile's rules. -/
def exitRule (exit : ProxyExitBinding) : Option Json :=
  let inbounds := [exitSocksTag exit.name, exitHttpTag exit.name]
  match exit.target with
  | .rules => none
  | .node endpointKey => some (forcedRule inbounds "outboundTag" (pinTag endpointKey))
  | .direct => some (forcedRule inbounds "outboundTag" "direct")
  | .pool _ => some (forcedRule inbounds "balancerTag" (balancerTag exit.name))

def unavailableOutbound : Json :=
  .object [("tag", .str unavailableTag), ("protocol", .str "blackhole")]

/-- No candidate of a pool is safe until its controller has probed it. -/
def poolBalancer (exit : ProxyExitBinding) : Option Json :=
  if exit.target.isPool then
    some (.object [("tag", .str (balancerTag exit.name)), ("selector", .texts [unavailableTag])])
  else none

/-- An array field of an object. -/
def arrayField (key : String) (fields : List (String × Json)) (e : IoError) :
    Except IoError (List Json) :=
  match (getField key fields).bind Json.asArray with
  | some items => .ok items
  | none => .error e

def objectField (key : String) (fields : List (String × Json)) (e : IoError) :
    Except IoError (List (String × Json)) :=
  match (getField key fields).bind Json.asObject with
  | some object => .ok object
  | none => .error e

/-- Declare the balancers of the pools, with the blackhole that they start on. -/
def injectBalancers (balancers : List Json) (root : List (String × Json)) :
    Except IoError (List (String × Json)) :=
  if balancers.isEmpty then .ok root
  else do
    let routing ← objectField "routing" root exitsRejected
    let declared ←
      match ((getField "balancers" routing).getD (.arr [])).asArray with
      | some declared => .ok declared
      | none => .error exitsRejected
    let outbounds ← arrayField "outbounds" root exitsRejected
    let root := insertField "routing"
      (.obj (insertField "balancers" (.arr (declared ++ balancers)) routing)) root
    if outbounds.any fun outbound => outbound.text? "tag" = some unavailableTag then .ok root
    else .ok (insertField "outbounds" (.arr (outbounds ++ [unavailableOutbound])) root)

/-- `inject`. -/
def injectExits (mark : Nat) (exits : List ProxyExitBinding) (root : List (String × Json)) :
    Except IoError (List (String × Json)) :=
  if exits.isEmpty then .ok root
  else do
    let inbounds ← arrayField "inbounds" root exitsRejected
    let listeners := (exits.mapIdx (exitInbounds mark)).flatten
    let root := insertField "inbounds" (.arr (inbounds ++ listeners)) root
    let routing ← objectField "routing" root exitsRejected
    let rules ← arrayField "rules" routing exitsRejected
    let root := insertField "routing"
      (.obj (insertField "rules" (.arr (exits.filterMap exitRule ++ rules)) routing)) root
    injectBalancers (exits.filterMap poolBalancer) root

end NetOrchestrator.Daemon
