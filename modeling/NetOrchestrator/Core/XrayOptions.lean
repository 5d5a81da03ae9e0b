import NetOrchestrator.Core.RouteIntents
import NetOrchestrator.Daemon.Failover
import NetOrchestrator.Net.IpText
import NetOrchestrator.Lib.Json
import NetOrchestrator.Lib.Checks

/-!
# `Core.XrayOptions`: what a profile says about Xray's routing

The domain policies, DNS settings and routing options of an Xray profile, how a selector is
told apart into a domain or an address selector, and the checks the options pass before they
are turned into a config. `NetText.Lawful` is what the crate says about the text of prefixes.
-/

namespace NetOrchestrator.Core

open Net Lib
open Daemon (trim stripPrefix splitChars splitOnce parseUnsigned
  isAsciiAlphanumeric)

/-- The errors of the config functions. Writing a field of what is no object panics. -/
inductive XrayError where
  | invalidInput (message : String)
  | invalidData (message : String)
  | panics
  deriving DecidableEq

/-! ### The profile's fields -/

inductive DomainRouteTarget where
  | proxy
  | direct
  | block
  deriving DecidableEq

structure DomainPolicy where
  domains : List String
  target : DomainRouteTarget
  deriving DecidableEq

inductive XrayDomainStrategy where
  | asIs
  | ipIfNonMatch
  | ipOnDemand
  deriving DecidableEq

def XrayDomainStrategy.asXrayStr : XrayDomainStrategy → String
  | .asIs => "AsIs"
  | .ipIfNonMatch => "IPIfNonMatch"
  | .ipOnDemand => "IPOnDemand"

inductive XrayDomainMatcher where
  | mph
  | hybrid
  | linear
  deriving DecidableEq

def XrayDomainMatcher.asXrayStr : XrayDomainMatcher → String
  | .mph => "mph"
  | .hybrid => "hybrid"
  | .linear => "linear"

inductive XrayDnsQueryStrategy where
  | useIp
  | useIpv4
  | useIpv6
  deriving DecidableEq

def XrayDnsQueryStrategy.asXrayStr : XrayDnsQueryStrategy → String
  | .useIp => "UseIP"
  | .useIpv4 => "UseIPv4"
  | .useIpv6 => "UseIPv6"

inductive XrayDnsRoute where
  | none
  | proxy
  | direct
  deriving DecidableEq

structure XrayDnsServer where
  address : String
  port : Option Nat := none
  domains : List String := []
  skipFallback : Bool := false
  route : XrayDnsRoute := .none
  deriving DecidableEq

structure XrayDnsRewriteRule where
  action : String
  qType : Option String := none
  rCode : Option Nat := none
  domain : List String := []
  deriving DecidableEq

structure XrayDnsOutboundSettings where
  rewriteAddress : Option String := none
  rewriteNetwork : Option String := none
  rewritePort : Option Nat := none
  rules : List XrayDnsRewriteRule := []
  deriving DecidableEq

/-- The `hosts` are in the order of the names. -/
structure XrayDnsConfig where
  servers : List XrayDnsServer := []
  hosts : List (String × List String) := []
  fakeDns : Bool := false
  queryStrategy : Option XrayDnsQueryStrategy := none
  enableParallelQuery : Option Bool := none
  outboundKey : Option String := none
  outbound : Option XrayDnsOutboundSettings := none
  deriving DecidableEq

def XrayDnsConfig.isEmpty (dns : XrayDnsConfig) : Bool :=
  dns.servers.isEmpty && dns.hosts.isEmpty && !dns.fakeDns && dns.queryStrategy.isNone &&
    dns.enableParallelQuery.isNone && dns.outboundKey.isNone && dns.outbound.isNone

structure XrayInterfaceRoute where
  selectors : List String
  interfaceName : String
  domainStrategy : Option String := none
  deriving DecidableEq

structure XrayTrafficRule where
  ips : List String
  port : Nat
  network : String
  target : DomainRouteTarget
  deriving DecidableEq

structure XraySockopts where
  tcpKeepAliveIdle : Option Nat := none
  tcpKeepAliveInterval : Option Nat := none
  tcpUserTimeout : Option Nat := none
  tcpNoDelay : Bool := false
  deriving DecidableEq

structure ProfileRoutingOptions where
  privateLanDirect : Bool := false
  domainStrategy : Option XrayDomainStrategy := none
  domainMatcher : Option XrayDomainMatcher := none
  dns : XrayDnsConfig := {}
  sockopts : Option XraySockopts := none
  trafficRules : List XrayTrafficRule := []
  interfaceRoutes : List XrayInterfaceRoute := []
  connectionIdleSecs : Option Nat := none
  directDomainStrategy : Option String := none
  deriving DecidableEq

/-! ### Selectors -/

inductive SelectorKind where
  | domain
  | ip
  deriving DecidableEq

/-- A comment or a blank line of a selector list, once trimmed. -/
def isComment (selector : String) : Bool := selector == "" || selector.toList.head? == some '#'

/-- `category@attr`. -/
def splitAttr (category : String) : String × Option String :=
  match splitOnce '@' category.toList with
  | some (name, attr) => (String.ofList name, some (String.ofList attr))
  | none => (category, none)

def validGeositeName (name : String) : Bool :=
  name != "" && name.utf8ByteSize ≤ 64 &&
    name.toList.all fun c => isAsciiAlphanumeric c || ['-', '_', '!'].contains c

def validGeositeAttr (attr : String) : Bool :=
  attr != "" && attr.utf8ByteSize ≤ 32 &&
    attr.toList.all fun c => isAsciiAlphanumeric c || ['-', '_', '*', '.'].contains c

def validGeoipCode (code : String) : Bool :=
  code != "" && code.utf8ByteSize ≤ 64 &&
    code.toList.all fun c => isAsciiAlphanumeric c || c == '-' || c == '_'

variable (text : NetText)

def classifyRoutingSelector (selector : String) :
    Except XrayError (Option (SelectorKind × String)) :=
  let selector := trim selector
  if isComment selector then .ok none
  else
    match stripPrefix "geosite:" selector with
    | some category =>
      if validGeositeName (splitAttr category).1 && (splitAttr category).2.all validGeositeAttr then
        .ok (some (.domain, selector))
      else .error (.invalidInput "invalid geosite category")
    | none =>
      match stripPrefix "geoip:" selector with
      | some code =>
        if validGeoipCode code then .ok (some (.ip, selector))
        else .error (.invalidInput "invalid geoip code")
      | none =>
        match parseIpAddr selector with
        | some ip => .ok (some (.ip, renderIp ip))
        | none =>
          match text.parse selector with
          | some net => .ok (some (.ip, text.render net))
          | none => .ok (some (.domain, selector))

def validateRoutingPolicySelectors (policies : List DomainPolicy) : Except XrayError Unit :=
  policies.forM fun policy =>
    if policy.domains.isEmpty then .error (.invalidInput "routing rule must contain selectors")
    else policy.domains.forM fun selector => do
      let _ ← classifyRoutingSelector text selector

/-- What the crate says about the text of a prefix: its address, a slash and its length, which
it reads back. -/
structure NetText.Lawful (text : NetText) : Prop where
  render_eq : ∀ net, text.render net = renderNet net
  parse_render : ∀ net, text.parse (text.render net) = some net

/-- The text of a prefix as the crate writes it. -/
def ipnetText : NetText := ⟨parseNet, renderNet⟩

theorem ipnetText_lawful : ipnetText.Lawful where
  render_eq := fun _ => rfl
  parse_render := by
    intro net
    simp only [ipnetText, parseNet_renderNet]

/-! ### DNS servers -/

def dnsSchemes : List String := ["udp", "tcp", "tls", "https", "https+local", "quic+local"]

/-- `split_once("://")`. -/
def splitScheme : List Char → Option (List Char × List Char)
  | [] => none
  | ':' :: '/' :: '/' :: rest => some ([], rest)
  | c :: cs => (splitScheme cs).map fun parts => (c :: parts.1, parts.2)

/-- What follows the last `@`. -/
def afterAt (cs : List Char) : List Char := (cs.reverse.takeWhile (· != '@')).reverse

/-- The first piece of `split(['/', '?', '#'])`. -/
def beforePath (cs : List Char) : List Char := cs.takeWhile fun c => !(['/', '?', '#'].contains c)

def dnsServerHost (address : String) : Option String :=
  let rest :=
    match splitScheme address.toList with
    | some (_, rest) => rest
    | none => address.toList
  let host := afterAt (trim (String.ofList (beforePath rest))).toList
  let host :=
    match host with
    | '[' :: inner => inner.takeWhile (· != ']')
    | _ => if host.count ':' = 1 then host.takeWhile (· != ':') else host
  if host.isEmpty then none else some (String.ofList host)

/-- The destination of a resolver, which the two internal ones do not have. -/
def dnsServerRouteTarget (address : String) : Option (SelectorKind × String) :=
  match dnsServerHost address with
  | none => none
  | some host =>
    if host = "localhost" ∨ host = "fakedns" then none
    else
      match parseIpAddr host with
      | some ip => some (.ip, renderIp ip)
      | none => some (.domain, host)

/-! ### Checks -/

def validEndpointKey (key : String) : Bool :=
  key.utf8ByteSize == 16 && key.toList.all fun c => isAsciiDigit c || ('a' ≤ c && c ≤ 'f')

def isAsciiGraphic (c : Char) : Bool := 0x21 ≤ c.toNat && c.toNat ≤ 0x7e

def hostChar (c : Char) : Bool := isAsciiAlphanumeric c || ['.', '-', '_'].contains c

def validRewriteAddress (address : String) : Bool :=
  (parseIpAddr address).isSome ||
    (address != "" && address.utf8ByteSize ≤ 253 && address.toList.all hostChar)

def validQueryTypes (types : String) : Bool :=
  types.utf8ByteSize ≤ 128 && (splitChars ',' types.toList).all fun value =>
    (parseUnsigned (2 ^ 16) (String.ofList value)).isSome

def validateRewriteRule (rule : XrayDnsRewriteRule) : Except XrayError Unit :=
  if !(["direct", "drop", "return", "hijack"].contains rule.action) || 128 < rule.domain.length ||
      !rule.qType.all validQueryTypes then
    .error (.invalidInput "invalid DNS outbound rewrite rule")
  else rule.domain.forM fun domain => do
    match ← classifyRoutingSelector text domain with
    | some (.domain, _) => .ok ()
    | _ => .error (.invalidInput "DNS rewrite rules require domain selectors")

def validateDnsOutbound (outbound : XrayDnsOutboundSettings) : Except XrayError Unit :=
  if outbound.rewritePort = some 0 ||
      !outbound.rewriteNetwork.all (fun network => ["tcp", "udp"].contains network) ||
      !outbound.rewriteAddress.all validRewriteAddress || 64 < outbound.rules.length then
    .error (.invalidInput "invalid DNS outbound rewrite settings")
  else outbound.rules.forM (validateRewriteRule text)

/-- The check of a resolver's address that is neither `localhost` nor `fakedns`. -/
def validateServerHost (address : String) : Except XrayError Unit :=
  match splitScheme address.toList with
  | some (scheme, _) =>
    if !dnsSchemes.contains (String.ofList scheme) then
      .error (.invalidInput "unsupported dns server scheme")
    else if (dnsServerHost address).isNone then
      .error (.invalidInput "invalid dns server address")
    else .ok ()
  | none =>
    if (dnsServerHost address).isNone then .error (.invalidInput "invalid dns server address")
    else .ok ()

def validateDnsServer (fakeDns : Bool) (server : XrayDnsServer) : Except XrayError Unit := do
  let address := trim server.address
  if address == "" || 256 < address.utf8ByteSize || !address.toList.all isAsciiGraphic then
    .error (.invalidInput "invalid dns server address")
  if address = "localhost" then .ok ()
  else if address = "fakedns" then
    if fakeDns then .ok () else .error (.invalidInput "fakedns server requires fakeDns")
  else validateServerHost address
  if server.port = some 0 then .error (.invalidInput "dns server port must be nonzero")
  server.domains.forM fun selector => do
    match ← classifyRoutingSelector text selector with
    | some (.ip, _) => .error (.invalidInput "dns server domains must be domain selectors")
    | _ => .ok ()

def validHostValue (value : String) : Bool :=
  (parseIpAddr (trim value)).isSome ||
    (trim value != "" && (trim value).utf8ByteSize ≤ 253 &&
      (trim value).toList.all fun c => hostChar c || c == '*')

def validateDnsHost (entry : String × List String) : Except XrayError Unit :=
  let name := trim entry.1
  if name == "" || 253 < name.utf8ByteSize || !name.toList.all isAsciiGraphic then
    .error (.invalidInput "invalid dns hosts entry")
  else if entry.2.isEmpty then .error (.invalidInput "dns hosts entry must map to an address")
  else if !entry.2.all validHostValue then .error (.invalidInput "invalid dns hosts value")
  else .ok ()

def validateDnsConfig (dns : XrayDnsConfig) : Except XrayError Unit := do
  if !dns.outboundKey.all validEndpointKey then
    .error (.invalidInput "invalid DNS egress endpoint key")
  match dns.outbound with
  | some outbound => validateDnsOutbound text outbound
  | none => .ok ()
  dns.servers.forM (validateDnsServer text dns.fakeDns)
  dns.hosts.forM validateDnsHost

def validateStreamSockopts (sockopts : XraySockopts) : Except XrayError Unit :=
  if sockopts.tcpUserTimeout.any (3600000 < ·) then
    .error (.invalidInput "TCP user timeout must not exceed one hour")
  else .ok ()

def validateOutboundDomainStrategy (strategy : Option String) : Except XrayError Unit :=
  if strategy.all fun s =>
      ["UseIP", "UseIPv4", "UseIPv6", "ForceIP", "ForceIPv4", "ForceIPv6"].contains s then .ok ()
  else .error (.invalidInput "unsupported outbound domain strategy")

/-- The domains and the addresses among selectors, in their order. -/
def splitSelectors (text : NetText) : List String → Except XrayError (List String × List String)
  | [] => .ok ([], [])
  | selector :: rest => do
      let found ← classifyRoutingSelector text selector
      let (domains, ips) ← splitSelectors text rest
      match found with
      | some (.domain, value) => .ok (value :: domains, ips)
      | some (.ip, value) => .ok (domains, value :: ips)
      | none => .ok (domains, ips)

def validateInterfaceRoute (route : XrayInterfaceRoute) : Except XrayError Unit := do
  let name := route.interfaceName
  if name == "" || 15 < name.utf8ByteSize || name.toList.head? == some '-' ||
      !name.toList.all hostChar || route.selectors.isEmpty then
    .error (.invalidInput "invalid interface-bound policy")
  validateOutboundDomainStrategy route.domainStrategy
  let (domains, ips) ← splitSelectors text route.selectors
  if domains.length + ips.length = 0 || 128 < domains.length || 128 < ips.length then
    .error (.invalidInput "interface-bound policy needs 1-128 selectors per emitted rule")

def validateTrafficRule (rule : XrayTrafficRule) : Except XrayError Unit := do
  if rule.port = 0 || rule.ips.isEmpty || 128 < rule.ips.length ||
      !(["tcp", "udp", "tcp,udp"].contains rule.network) then
    .error (.invalidInput "invalid IP/port guard")
  rule.ips.forM fun selector => do
    match ← classifyRoutingSelector text selector with
    | some (.ip, _) => .ok ()
    | _ => .error (.invalidInput "IP/port guards require IP selectors")

def validateAdvancedRoutingOptions (options : ProfileRoutingOptions) : Except XrayError Unit := do
  if options.connectionIdleSecs.any (86400 < ·) then
    .error (.invalidInput "connection idle timeout must not exceed one day")
  validateOutboundDomainStrategy options.directDomainStrategy
  match options.sockopts with
  | some sockopts => validateStreamSockopts sockopts
  | none => .ok ()
  if 16 < options.interfaceRoutes.length then
    .error (.invalidInput "at most 16 interface-bound policies are supported")
  options.interfaceRoutes.forM (validateInterfaceRoute text)
  if 32 < options.trafficRules.length then
    .error (.invalidInput "at most 32 IP/port guards are supported")
  options.trafficRules.forM (validateTrafficRule text)

end NetOrchestrator.Core
