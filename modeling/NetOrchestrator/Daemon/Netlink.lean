import NetOrchestrator.Core.GeoData
import NetOrchestrator.Lib.Attributes

/-!
# `Daemon.Netlink`: routes and rules as netlink messages

The netlink crate gives a message as a header and a list of attributes. `systemRoute` and
`systemRule` render such a message for the clients, and `systemRouteMessage` and
`systemRuleMessage` build the message again, to delete or to restore what was reported.
`routeRequest` is the message of a route of the daemon's own, and `ownedRouteSnapshot` reads it.

The types of the crate are here as far as the daemon looks at them. Its codes are kept as the
crate's enumerations; what a client sees are their names.
-/

namespace NetOrchestrator.Daemon.Netlink

open Net Lib.Attributes

/-! ### The crate's messages -/

inductive AddressFamily where
  | inet
  | inet6
  | other (code : Nat)
  deriving DecidableEq

inductive RouteType where
  | unspec | unicast | hostLocal | broadcast | anycast | multicast | blackHole | unreachable
  | prohibit | throws | nat | externalResolve
  | other (code : Fin 256)
  deriving DecidableEq

inductive RouteScope where
  | universe | site | link | host | noWhere
  | other (code : Fin 256)
  deriving DecidableEq

inductive RuleAction where
  | unspec | toTable | goto | nop | blackhole | unreachable | prohibit
  | other (code : Fin 256)
  deriving DecidableEq

/-- `IpProtocol`, as the number that the crate converts it to and from. -/
abbrev IpProtocol := { code : Int // -2 ^ 31 ≤ code ∧ code < 2 ^ 31 }

inductive RouteAddress where
  | inet (address : BitVec 32)
  | inet6 (address : BitVec 128)
  | other (bytes : List UInt8)
  deriving DecidableEq

/-- A next hop of a multipath route. -/
structure RouteNextHop (α : Type) where
  hops : Nat
  interfaceIndex : Nat
  attributes : List α

inductive RouteAttribute where
  | destination (address : RouteAddress)
  | gateway (address : RouteAddress)
  | prefSource (address : RouteAddress)
  | oif (index : Nat)
  | priority (metric : Nat)
  | table (table : Nat)
  | multiPath (hops : List (RouteNextHop RouteAttribute))
  | other (kind : Nat) (bytes : List UInt8)

/-- The defaults are the crate's. -/
structure RouteHeader where
  addressFamily : AddressFamily := .other 0
  destinationPrefixLength : Nat := 0
  table : Nat := 0
  protocol : Nat := 0
  scope : RouteScope := .universe
  kind : RouteType := .unspec
  deriving DecidableEq

structure RouteMessage where
  header : RouteHeader
  attributes : List RouteAttribute

inductive RuleFlag where
  | invert
  | other (bits : Nat)
  deriving DecidableEq

structure RuleHeader where
  family : AddressFamily := .other 0
  dstLen : Nat := 0
  srcLen : Nat := 0
  tos : Nat := 0
  table : Nat := 0
  action : RuleAction := .unspec
  flags : List RuleFlag := []
  deriving DecidableEq

inductive RuleAttribute where
  | destination (address : IpAddr)
  | source (address : IpAddr)
  | iifname (name : String)
  | goto (priority : Nat)
  | priority (priority : Nat)
  | fwMark (mark : Nat)
  | tunId (tunId : Nat)
  | suppressIfGroup (group : Nat)
  | suppressPrefixLen (length : Nat)
  | table (table : Nat)
  | fwMask (mask : Nat)
  | oifname (name : String)
  | uidRange (range : Nat × Nat)
  | protocol (protocol : Nat)
  | ipProtocol (protocol : IpProtocol)
  | sourcePortRange (range : Nat × Nat)
  | destinationPortRange (range : Nat × Nat)
  | other (kind : Nat) (bytes : List UInt8)
  deriving DecidableEq

structure RuleMessage where
  header : RuleHeader
  attributes : List RuleAttribute
  deriving DecidableEq

/-- `RouteHeader::RT_TABLE_UNSPEC`. -/
def rtTableUnspec : Nat := 0

/-- `u32::MAX`. -/
def unlimited : Nat := 2 ^ 32 - 1

/-! ### Names of codes -/

/-- A number in decimal, negative ones with a sign. -/
def renderInt (v : Int) : String := if v < 0 then "-" ++ toString v.natAbs else toString v.natAbs

/-- `parse::<i32>()`: an optional sign and at least one digit. -/
def parseI32 (text : String) : Option IpProtocol :=
  let value : Option Int :=
    match stripPrefix "-" text with
    | some digits =>
      if digits.toList.head? = some '+' then none
      else (parseUnsigned (2 ^ 31 + 1) digits).map fun n : Nat => -(n : Int)
    | none => (parseUnsigned (2 ^ 31) text).map Int.ofNat
  value.bind fun code =>
    if h : -2 ^ 31 ≤ code ∧ code < 2 ^ 31 then some ⟨code, h⟩ else none

/-- `parse::<u8>()`. -/
def parseU8 (text : String) : Option (Fin 256) :=
  (parseUnsigned 256 text).bind fun code => if h : code < 256 then some ⟨code, h⟩ else none

def routeKinds : List (String × RouteType) :=
  [("unicast", .unicast), ("local", .hostLocal), ("broadcast", .broadcast),
    ("anycast", .anycast), ("multicast", .multicast), ("blackhole", .blackHole),
    ("unreachable", .unreachable), ("prohibit", .prohibit), ("throw", .throws), ("nat", .nat),
    ("xresolve", .externalResolve)]

def routeKindName : RouteType → String
  | .unspec => "unspec"
  | .unicast => "unicast"
  | .hostLocal => "local"
  | .broadcast => "broadcast"
  | .anycast => "anycast"
  | .multicast => "multicast"
  | .blackHole => "blackhole"
  | .unreachable => "unreachable"
  | .prohibit => "prohibit"
  | .throws => "throw"
  | .nat => "nat"
  | .externalResolve => "xresolve"
  | .other code => "type " ++ toString code.val

def routeKindValue (name : String) : RouteType :=
  match routeKinds.lookup name with
  | some kind => kind
  | none => (((stripPrefix "type " name).bind parseU8).map .other).getD .unspec

def routeScopes : List (String × RouteScope) :=
  [("universe", .universe), ("site", .site), ("link", .link), ("host", .host),
    ("nowhere", .noWhere)]

def routeScopeName : RouteScope → String
  | .universe => "universe"
  | .site => "site"
  | .link => "link"
  | .host => "host"
  | .noWhere => "nowhere"
  | .other code => "scope " ++ toString code.val

/-- The scope that matches any scope stands for a name that is not known. -/
def routeScopeValue (name : String) : RouteScope :=
  match routeScopes.lookup name with
  | some scope => scope
  | none => (((stripPrefix "scope " name).bind parseU8).map .other).getD .noWhere

def ruleActions : List (String × RuleAction) :=
  [("lookup", .toTable), ("goto", .goto), ("nop", .nop), ("blackhole", .blackhole),
    ("unreachable", .unreachable), ("prohibit", .prohibit), ("unspec", .unspec)]

def ruleActionName : RuleAction → String
  | .toTable => "lookup"
  | .goto => "goto"
  | .nop => "nop"
  | .blackhole => "blackhole"
  | .unreachable => "unreachable"
  | .prohibit => "prohibit"
  | .unspec => "unspec"
  | .other code => "type " ++ toString code.val

def ruleActionValue (name : String) : RuleAction :=
  match ruleActions.lookup name with
  | some action => action
  | none => (((stripPrefix "type " name).bind parseU8).map .other).getD .unspec

def ipProtocols : List (String × IpProtocol) :=
  [("icmp", ⟨1, by decide⟩), ("tcp", ⟨6, by decide⟩), ("udp", ⟨17, by decide⟩),
    ("icmpv6", ⟨58, by decide⟩), ("sctp", ⟨132, by decide⟩)]

def ipProtocolName (protocol : IpProtocol) : String :=
  match ipProtocols.find? fun known => known.2 == protocol with
  | some known => known.1
  | none => renderInt protocol.val

def ipProtocolValue (name : String) : Option IpProtocol :=
  match ipProtocols.lookup name with
  | some protocol => some protocol
  | none => parseI32 name

/-! ### What clients see -/

structure SystemNexthop where
  gateway : Option IpAddr
  interfaceIndex : Nat
  interfaceName : Option String
  weight : Nat
  deriving DecidableEq

/-- A route as it is reported: kind and scope are names. -/
structure SystemRoute where
  family : IpFamily
  destination : IpNet
  table : Nat
  kind : String
  scope : String
  protocol : Nat
  managed : Bool
  gateway : Option IpAddr
  interfaceIndex : Option Nat
  interfaceName : Option String
  metric : Option Nat
  prefSource : Option IpAddr
  nexthops : List SystemNexthop
  deriving DecidableEq

/-- A rule as it is reported: the action is a name. -/
structure SystemRule where
  family : IpFamily
  priority : Nat
  action : String
  table : Nat
  goto : Option Nat
  src : Option IpNet
  dst : Option IpNet
  fwmark : Option Nat
  fwmask : Option Nat
  iifname : Option String
  oifname : Option String
  uidRange : Option (Nat × Nat)
  sourcePortRange : Option (Nat × Nat)
  destinationPortRange : Option (Nat × Nat)
  ipProtocol : Option String
  suppressPrefixLength : Option Nat
  suppressIfGroup : Option Nat
  tunId : Option Nat
  tos : Nat
  invert : Bool
  protocol : Nat
  managed : Bool
  deriving DecidableEq

/-! ### Selectors -/

/-- The address, where it is one of the two families. -/
def RouteAddress.ip : RouteAddress → Option IpAddr
  | .inet address => some (.v4 address)
  | .inet6 address => some (.v6 address)
  | .other _ => none

namespace RouteAttribute

def destination? : RouteAttribute → Option IpAddr
  | .destination address => address.ip
  | _ => none

def gateway? : RouteAttribute → Option IpAddr
  | .gateway address => address.ip
  | _ => none

def prefSource? : RouteAttribute → Option IpAddr
  | .prefSource address => address.ip
  | _ => none

def oif? : RouteAttribute → Option Nat
  | .oif index => some index
  | _ => none

def priority? : RouteAttribute → Option Nat
  | .priority metric => some metric
  | _ => none

def table? : RouteAttribute → Option Nat
  | .table value => some value
  | _ => none

def multiPath? : RouteAttribute → Option (List (RouteNextHop RouteAttribute))
  | .multiPath hops => some hops
  | _ => none

end RouteAttribute

namespace RuleAttribute

def destination? : RuleAttribute → Option IpAddr
  | .destination address => some address
  | _ => none

def source? : RuleAttribute → Option IpAddr
  | .source address => some address
  | _ => none

def iifname? : RuleAttribute → Option String
  | .iifname name => some name
  | _ => none

def goto? : RuleAttribute → Option Nat
  | .goto value => some value
  | _ => none

def priority? : RuleAttribute → Option Nat
  | .priority value => some value
  | _ => none

def fwMark? : RuleAttribute → Option Nat
  | .fwMark mark => some mark
  | _ => none

def tunId? : RuleAttribute → Option Nat
  | .tunId value => some value
  | _ => none

/-- The kernel reports no limit as the largest number. -/
def suppressIfGroup? : RuleAttribute → Option Nat
  | .suppressIfGroup group => if group ≠ unlimited then some group else none
  | _ => none

def suppressPrefixLen? : RuleAttribute → Option Nat
  | .suppressPrefixLen length => if length ≠ unlimited then some length else none
  | _ => none

def table? : RuleAttribute → Option Nat
  | .table value => some value
  | _ => none

def fwMask? : RuleAttribute → Option Nat
  | .fwMask mask => some mask
  | _ => none

def oifname? : RuleAttribute → Option String
  | .oifname name => some name
  | _ => none

def uidRange? : RuleAttribute → Option (Nat × Nat)
  | .uidRange range => some range
  | _ => none

def protocol? : RuleAttribute → Option Nat
  | .protocol value => some value
  | _ => none

def ipProtocol? : RuleAttribute → Option IpProtocol
  | .ipProtocol value => some value
  | _ => none

def sourcePortRange? : RuleAttribute → Option (Nat × Nat)
  | .sourcePortRange range => some range
  | _ => none

def destinationPortRange? : RuleAttribute → Option (Nat × Nat)
  | .destinationPortRange range => some range
  | _ => none

end RuleAttribute

/-! ### Reading -/

def AddressFamily.ipFamily : AddressFamily → Option IpFamily
  | .inet => some .ipv4
  | .inet6 => some .ipv6
  | .other _ => none

/-- `0.0.0.0` or `::`, as the family of a header has it. -/
def AddressFamily.unspecified : AddressFamily → Option IpAddr
  | .inet => some (.v4 0)
  | .inet6 => some (.v6 0)
  | .other _ => none

/-- The destination of a message. A default route may come without one. -/
def RouteMessage.destination (message : RouteMessage) : Option IpNet :=
  ((message.attributes.findSome? RouteAttribute.destination?).or
    (if message.header.destinationPrefixLength ≠ 0 then none
      else message.header.addressFamily.unspecified)).bind fun address =>
    (newNet address message.header.destinationPrefixLength).map IpNet.trunc

/-- `route_table`. -/
def routeTable (message : RouteMessage) : Nat :=
  (message.attributes.findSome? RouteAttribute.table?).getD message.header.table

def systemNexthop (names : Nat → Option String) (hop : RouteNextHop RouteAttribute) :
    SystemNexthop :=
  { gateway := hop.attributes.findSome? RouteAttribute.gateway?
    interfaceIndex := hop.interfaceIndex
    interfaceName := names hop.interfaceIndex
    weight := hop.hops }

/-- `system_route`. -/
def systemRoute (message : RouteMessage) (names : Nat → Option String) : Option SystemRoute :=
  message.header.addressFamily.ipFamily.bind fun family =>
    message.destination.map fun destination =>
      let interfaceIndex := message.attributes.findSome? RouteAttribute.oif?
      { family
        destination
        table := routeTable message
        kind := routeKindName message.header.kind
        scope := routeScopeName message.header.scope
        protocol := message.header.protocol
        managed := message.header.protocol == rtprotNetworkOrchestrator
        gateway := message.attributes.findSome? RouteAttribute.gateway?
        interfaceIndex
        interfaceName := interfaceIndex.bind names
        metric := message.attributes.findSome? RouteAttribute.priority?
        prefSource := message.attributes.findSome? RouteAttribute.prefSource?
        nexthops := ((message.attributes.findSome? RouteAttribute.multiPath?).getD []).map
          (systemNexthop names) }

/-- `rule_selector`. -/
def ruleSelector (family : AddressFamily) (address : Option IpAddr) (length : Nat) : Option IpNet :=
  let address :=
    match address with
    | some address => some address
    | none => if length = 0 then none else family.unspecified
  address.bind fun address => (newNet address length).map IpNet.trunc

/-- `system_rule`. -/
def systemRule (message : RuleMessage) : SystemRule :=
  let find := fun {β : Type} (select : RuleAttribute → Option β) =>
    message.attributes.findSome? select
  let protocol := (find RuleAttribute.protocol?).getD 0
  { family := if message.header.family = .inet6 then .ipv6 else .ipv4
    priority := (find RuleAttribute.priority?).getD 0
    action := ruleActionName message.header.action
    table := (find RuleAttribute.table?).getD message.header.table
    goto := find RuleAttribute.goto?
    src := ruleSelector message.header.family (find RuleAttribute.source?) message.header.srcLen
    dst := ruleSelector message.header.family (find RuleAttribute.destination?)
      message.header.dstLen
    fwmark := find RuleAttribute.fwMark?
    fwmask := find RuleAttribute.fwMask?
    iifname := find RuleAttribute.iifname?
    oifname := find RuleAttribute.oifname?
    uidRange := find RuleAttribute.uidRange?
    sourcePortRange := find RuleAttribute.sourcePortRange?
    destinationPortRange := find RuleAttribute.destinationPortRange?
    ipProtocol := (find RuleAttribute.ipProtocol?).map ipProtocolName
    suppressPrefixLength := find RuleAttribute.suppressPrefixLen?
    suppressIfGroup := find RuleAttribute.suppressIfGroup?
    tunId := find RuleAttribute.tunId?
    tos := message.header.tos
    invert := message.header.flags.contains .invert
    protocol
    managed := protocol == rtprotNetworkOrchestrator }

/-! ### Building -/

/-- `route_address`. -/
def routeAddress : IpAddr → RouteAddress
  | .v4 address => .inet address
  | .v6 address => .inet6 address

def addressFamily : IpFamily → AddressFamily
  | .ipv4 => .inet
  | .ipv6 => .inet6

/-- The next hop of a message, back from what was reported. -/
def routeNextHop (hop : SystemNexthop) : RouteNextHop RouteAttribute :=
  { hops := hop.weight
    interfaceIndex := hop.interfaceIndex
    attributes := present (fun address => .gateway (routeAddress address)) hop.gateway }

/-- `system_route_message`. -/
def systemRouteMessage (route : SystemRoute) : RouteMessage where
  header :=
    { addressFamily := addressFamily route.family
      kind := routeKindValue route.kind
      scope := routeScopeValue route.scope
      protocol := route.protocol
      destinationPrefixLength := route.destination.len
      table := if route.table ≤ 255 then route.table % 256 else rtTableUnspec }
  attributes :=
    present .table (if route.table ≤ 255 then none else some route.table) ++
    present (fun address => .destination (routeAddress address))
      (if route.destination.len ≠ 0 then some route.destination.addr else none) ++
    present .oif route.interfaceIndex ++
    present .priority route.metric ++
    present (fun address => .gateway (routeAddress address)) route.gateway ++
    present (fun address => .prefSource (routeAddress address)) route.prefSource ++
    present .multiPath
      (if route.nexthops = [] then none else some (route.nexthops.map routeNextHop))

/-- `system_rule_message`. -/
def systemRuleMessage (rule : SystemRule) : RuleMessage where
  header :=
    { family := addressFamily rule.family
      action := ruleActionValue rule.action
      tos := rule.tos
      flags := if rule.invert then [.invert] else []
      srcLen := (rule.src.map IpNet.len).getD 0
      dstLen := (rule.dst.map IpNet.len).getD 0
      table := if rule.table ≤ 255 then rule.table % 256 else 0 }
  attributes :=
    present .table (if rule.table ≤ 255 then none else some rule.table) ++
    present .priority (if rule.priority ≠ 0 then some rule.priority else none) ++
    present (fun net => .source net.addr) rule.src ++
    present (fun net => .destination net.addr) rule.dst ++
    present .fwMark rule.fwmark ++
    present .fwMask rule.fwmask ++
    present .iifname rule.iifname ++
    present .oifname rule.oifname ++
    present .uidRange rule.uidRange ++
    present .sourcePortRange rule.sourcePortRange ++
    present .destinationPortRange rule.destinationPortRange ++
    present .ipProtocol (rule.ipProtocol.bind ipProtocolValue) ++
    [.suppressPrefixLen (rule.suppressPrefixLength.getD unlimited),
      .suppressIfGroup (rule.suppressIfGroup.getD unlimited)] ++
    present .tunId rule.tunId ++
    present .goto rule.goto ++
    present .protocol (if rule.protocol ≠ 0 then some rule.protocol else none)

/-! ### The daemon's own routes -/

inductive RouteOp where
  | add
  | delete
  deriving DecidableEq

/-- The scope of a request. A delete matches any. -/
def requestScope (op : RouteOp) (destination : IpNet) (gateway : Option IpAddr) : RouteScope :=
  match op with
  | .delete => .noWhere
  | .add => if destination.isIpv4 && gateway.isNone then .link else .universe

/-- `route_request`. -/
def routeRequest (route : AppliedRoute) (op : RouteOp) : RouteMessage where
  header :=
    { addressFamily := addressFamily route.destination.family
      protocol := rtprotNetworkOrchestrator
      kind := .unicast
      destinationPrefixLength := route.destination.len
      scope := requestScope op route.destination route.gateway
      table :=
        match route.table with
        | none => rtTableMain
        | some table => if table ≤ 255 then table % 256 else rtTableUnspec }
  attributes :=
    [.destination (routeAddress route.destination.trunc.addr)] ++
    present .table (route.table.filter fun table => 255 < table) ++
    [.oif route.interfaceIndex, .priority route.metric] ++
    present (fun address => .gateway (routeAddress address)) route.gateway

/-- `owned_route_snapshot`. -/
def ownedRouteSnapshot (message : RouteMessage) : Option AppliedRoute :=
  if message.header.protocol ≠ rtprotNetworkOrchestrator ∨ message.header.kind ≠ .unicast then
    none
  else
    message.destination.bind fun destination =>
      (message.attributes.findSome? RouteAttribute.oif?).map fun interfaceIndex =>
        { destination
          interfaceIndex
          metric := (message.attributes.findSome? RouteAttribute.priority?).getD 0
          gateway := message.attributes.findSome? RouteAttribute.gateway?
          table :=
            ((message.attributes.findSome? RouteAttribute.table?).or
              (if message.header.table ≠ rtTableMain then some message.header.table
                else none)).filter fun table => table ≠ rtTableMain }

end NetOrchestrator.Daemon.Netlink
