import NetOrchestrator.Net.Ip

/-!
# `Daemon.Protocol`: routes, rules, owned resources, the journal

The data that the daemon's core reads and writes: the routes a client asks for
(`AppliedRoute`), the rows of the kernel's tables as the daemon dumps them (`SystemRoute`,
`SystemRule`), what an owner holds (`OwnedResource`) and the ownership journal
(`JournalEntry`).

An owner is a string with a reserved prefix in the source. `Owner` is that string read
once: one constructor for each reserved prefix and `client` for a name with none of them,
so a prefix test is a match. The rendered kinds, scopes and actions of a dumped row are
enumerations here.

Supervisor parameters of an Xray process (failover policy, probe address, pinned keys) are
left out: the core copies them and decides nothing by them.
-/

namespace NetOrchestrator.Daemon

open Net

/-! ### Errors -/

inductive ErrorKind where
  | notFound
  | alreadyExists
  | permissionDenied
  | invalidInput
  | invalidData
  | notConnected
  | timedOut
  | other
  deriving DecidableEq

inductive RuleAction where
  | lookup
  | goto
  | nop
  | blackhole
  | unreachable
  | prohibit
  | unspec
  | other (code : Nat)
  deriving DecidableEq

/-- A journal owner: the reserved prefixes, and the names that clients choose. -/
inductive Owner where
  | client (name : String)
  | wg (profileId : String)
  | ovpn (profileId : String)
  | ovpnProbe (profileId : String)
  | xray (profileId : String)
  | cond (ruleId : String)
  | intent (id : String)
  | manual
  deriving DecidableEq

/-- The owner as the source writes it. -/
def Owner.render : Owner → String
  | .client name => name
  | .wg id => "wg:" ++ id
  | .ovpn id => "ovpn:" ++ id
  | .ovpnProbe id => "ovpn-probe:" ++ id
  | .xray id => "xray:" ++ id
  | .cond id => "cond:" ++ id
  | .intent id => "intent:" ++ id
  | .manual => "manual"

/-- Strip a reserved prefix. -/
def Owner.strip (reserved : String) (owner : List Char) : Option String :=
  if reserved.toList.isPrefixOf owner then some (String.ofList (owner.drop reserved.length))
  else none

/-- Read an owner: the reserved prefixes in the order the source tests them. -/
def Owner.parse (owner : String) : Owner :=
  if owner = "manual" then .manual
  else
    let cs := owner.toList
    match strip "wg:" cs, strip "ovpn:" cs, strip "ovpn-probe:" cs, strip "xray:" cs,
        strip "cond:" cs, strip "intent:" cs with
    | some id, _, _, _, _, _ => .wg id
    | _, some id, _, _, _, _ => .ovpn id
    | _, _, some id, _, _, _ => .ovpnProbe id
    | _, _, _, some id, _, _ => .xray id
    | _, _, _, _, some id, _ => .cond id
    | _, _, _, _, _, some id => .intent id
    | _, _, _, _, _, _ => .client owner

example : Owner.parse "intent:lab" = .intent "lab" := by decide

/-- The text of an error. Fixed texts are kept as they are; a formatted one keeps the
values it prints. -/
inductive Message where
  | text (text : String)
  | executor
  | ifaceNameLength (bytes : Nat)
  | ownerLength (bytes : Nat)
  | tooManySpecRoutes (count : Nat)
  | tooManyBypasses (count : Nat)
  | viaNotUnicast (via : IpAddr) (destination : IpNet)
  | bypassHost (host : String)
  | hostBits (destination : IpNet)
  | noInterfaceIndex (destination : IpNet)
  | gatewayFamily (gateway : IpAddr) (destination : IpNet)
  | gatewayNotUnicast (gateway : IpAddr)
  | tooManyRoutes (count : Nat)
  | duplicateRoute (destination : IpNet) (metric : Nat)
  | rollbackFailed (cause : Message) (failed : List IpNet)
  | routeManagedBy (owner : Owner)
  | ruleManagedBy (owner : Owner)
  | ruleAction (action : RuleAction)
  | notCidr (raw : String)
  | unknownPathKind (kind : String)
  | xrayStage (stage : String)
  deriving DecidableEq

structure IoError where
  kind : ErrorKind
  message : Message
  deriving DecidableEq

def invalidInput (message : Message) : IoError := ⟨.invalidInput, message⟩

/-- A failure of an executor or of the disk, without effect. `NotFound` and
`AlreadyExists` are not among them: those two report what is in the kernel, and the kernel
model below answers them.

`unsynced` is the failed sync of the directory behind a rename: where a file is replaced, the new
one is in place by then. At every other step it is one more failure without effect. -/
inductive Fault where
  | permissionDenied
  | invalidInput
  | notConnected
  | timedOut
  | other
  | unsynced
  deriving DecidableEq

/-- The fault comes when the file has been replaced. -/
def Fault.late (fault : Fault) : Bool := fault == .unsynced

def Fault.report : Fault → IoError
  | .permissionDenied => ⟨.permissionDenied, .executor⟩
  | .invalidInput => ⟨.invalidInput, .executor⟩
  | .notConnected => ⟨.notConnected, .executor⟩
  | .timedOut => ⟨.timedOut, .executor⟩
  | .other => ⟨.other, .executor⟩
  | .unsynced => ⟨.other, .executor⟩

/-! ### Routes and rules -/

structure AppliedRoute where
  destination : IpNet
  interfaceIndex : Nat
  metric : Nat
  gateway : Option IpAddr
  table : Option Nat
  deriving DecidableEq

def AppliedRoute.onLink (destination : IpNet) (interfaceIndex metric : Nat) : AppliedRoute :=
  { destination, interfaceIndex, metric, gateway := none, table := none }

structure PolicyRoute where
  destination : IpNet
  metric : Nat
  via : Option IpAddr
  deriving DecidableEq

inductive RouteKind where
  | unspec
  | unicast
  | hostLocal
  | broadcast
  | anycast
  | multicast
  | blackhole
  | unreachable
  | prohibit
  | throws
  | nat
  | xresolve
  | other (code : Nat)
  deriving DecidableEq

inductive RouteScope where
  | universe
  | site
  | link
  | host
  | nowhere
  | other (code : Nat)
  deriving DecidableEq

structure SystemNexthop where
  gateway : Option IpAddr
  interfaceIndex : Nat
  interfaceName : Option String
  weight : Nat
  deriving DecidableEq

/-- One kernel route as the daemon sees it. -/
structure SystemRoute where
  family : IpFamily
  destination : IpNet
  table : Nat
  kind : RouteKind
  scope : RouteScope
  protocol : Nat
  managed : Bool
  gateway : Option IpAddr
  interfaceIndex : Option Nat
  interfaceName : Option String
  metric : Option Nat
  prefSource : Option IpAddr
  nexthops : List SystemNexthop
  deriving DecidableEq

/-- One policy-routing rule as the daemon sees it. -/
structure SystemRule where
  family : IpFamily
  priority : Nat
  action : RuleAction
  table : Nat
  goto : Option Nat
  src : Option IpNet
  dst : Option IpNet
  fwmark : Option Nat
  fwmask : Option Nat
  iifname : Option String
  oifname : Option String
  uidRange : Option (Nat × Nat)
  sourcePortRange : Option (Nat × Nat)
  destinationPortRange : Option (Nat × Nat)
  ipProtocol : Option String
  suppressPrefixLength : Option Nat
  suppressIfGroup : Option Nat
  tunId : Option Nat
  tos : Nat
  invert : Bool
  protocol : Nat
  managed : Bool
  deriving DecidableEq

/-- The rules of a full tunnel, with the selectors the daemon itself sets. -/
structure OwnedRuleResource where
  family : IpFamily
  priority : Nat
  table : Nat
  fwmark : Option Nat
  invert : Bool
  suppressPrefixLength : Option Nat
  deriving DecidableEq

structure NetTablesResult where
  routes : List SystemRoute
  rules : List SystemRule

structure NetRouteAddParams where
  destination : IpNet
  table : Option Nat
  gateway : Option IpAddr
  interfaceName : Option String
  interfaceIndex : Option Nat
  metric : Option Nat
  prefSource : Option IpAddr
  deriving DecidableEq

structure NetRuleAddParams where
  family : IpFamily
  priority : Nat
  table : Nat
  src : Option IpNet
  dst : Option IpNet
  fwmark : Option Nat
  fwmask : Option Nat
  iifname : Option String
  oifname : Option String
  invert : Bool
  deriving DecidableEq

inductive NetEditOutcome where
  | deleted
  | suppressed
  deriving DecidableEq

/-! ### Attach specs and intents -/

structure AttachSpecParams where
  interfaceName : String
  routes : List PolicyRoute
  endpointBypasses : List String
  uplink : Bool
  deriving DecidableEq

structure NetIntentPath where
  kind : String
  interface : Option String
  gateway : Option String
  deriving DecidableEq

structure NetIntentSetParams where
  id : String
  destinations : List String
  path : NetIntentPath
  metric : Option Nat
  enabled : Option Bool
  deriving DecidableEq

/-! ### Owned resources -/

inductive OwnedState where
  | applying
  | applied
  | stale
  deriving DecidableEq

structure WireGuardFullResource where
  table : Nat
  fwmark : Nat
  priorityMain : Nat
  priorityTunnel : Nat
  ipv4 : Bool
  ipv6 : Bool
  deriving DecidableEq

inductive WireGuardWarning where
  | ignoredHook
  | ignoredSaveConfig
  | dnsNotApplied
  | ipv6NotCovered
  deriving DecidableEq

/-- `index` is zero while the creation is journaled and the kernel's index is not known. -/
structure WireGuardLinkResource where
  name : String
  index : Nat
  ownerMarker : String
  full : Option WireGuardFullResource
  warnings : List WireGuardWarning
  deriving DecidableEq

structure WireGuardAddressResource where
  interfaceIndex : Nat
  address : IpNet
  deriving DecidableEq

structure WireGuardDnsResource where
  interfaceIndex : Nat
  name : String
  servers : List IpAddr
  domains : List String
  full : Bool
  applied : Bool
  deriving DecidableEq

structure OpenVpnProcessResource where
  name : String
  ownerMarker : String
  transportMark : Option Nat
  full : Option WireGuardFullResource
  deriving DecidableEq

/-- Where a named proxy exit leads. -/
inductive ProxyTarget where
  /-- The profile's own rules. -/
  | rules
  | node (endpointKey : String)
  | pool (endpointKeys : List String)
  | direct
  deriving DecidableEq

structure ProxyExitBinding where
  name : String
  target : ProxyTarget
  deriving DecidableEq

/-- `index` is zero until the process creates the TUN link. -/
structure XrayProcessResource where
  name : String
  index : Nat
  ownerMarker : String
  transportMark : Nat
  full : Option WireGuardFullResource
  rejectQuic : Bool
  mtu : Option Nat
  proxyExits : List ProxyExitBinding
  deriving DecidableEq

inductive OwnedResource where
  | route (route : AppliedRoute)
  | wireGuardLink (link : WireGuardLinkResource)
  | openVpnProcess (process : OpenVpnProcessResource)
  | xrayProcess (process : XrayProcessResource)
  | address (address : WireGuardAddressResource)
  | rule (rule : OwnedRuleResource)
  | dns (dns : WireGuardDnsResource)
  | attachSpec (spec : AttachSpecParams)
  | netRoute (route : SystemRoute)
  | netRule (rule : SystemRule)
  | suppressedRoute (route : SystemRoute)
  | suppressedRule (rule : SystemRule)
  deriving DecidableEq

structure JournalEntry where
  uid : Nat
  owner : Owner
  state : OwnedState
  resources : List OwnedResource
  deriving DecidableEq

/-- The journal's entries in insertion order. Teardown walks them in reverse. -/
abbrev Journal := List JournalEntry

/-- `position`: the first entry of `(uid, owner)`. -/
def Journal.position (j : Journal) (uid : Nat) (owner : Owner) : Option Nat :=
  j.findIdx? fun entry => entry.uid == uid && entry.owner == owner

/-! ### Constants -/

def rtTableUnspec : Nat := 0
def rtTableMain : Nat := 254
def rtTableLocal : Nat := 255

/-- The protocol number stamped on everything the daemon installs. -/
def rtprotNetworkOrchestrator : Nat := 79

def maxRoutesPerRequest : Nat := 8192
def maxOwnerBytes : Nat := 128
def maxEndpointBypasses : Nat := 256
def intentDefaultMetric : Nat := 100
def endpointBypassMetric : Nat := 50

end NetOrchestrator.Daemon
