import NetOrchestrator.Core.XrayOptions
import NetOrchestrator.Lib.Names

/-!
# `Core.XrayRouting`: a profile's routing as an Xray config

`apply_profile_routing` turns the policies and options of a profile into outbounds, rules and a
DNS section, over a config that was imported or generated. The outbounds come first: each
destination that a rule can name takes an outbound of the base config or adds one, and finds a
tag for it. The rules are built with these tags and put in front of the rules of the base
config.

`applyProfileRouting_ok` says what a call that succeeds leaves: the base config, or the
outbounds of `routedOutbounds` and the rules of `mergedRules` in front of the base's.
-/

namespace NetOrchestrator.Core

open Net Lib Option
open Daemon (trim)

/-! ### Outbounds and their tags -/

/-- `outbound["tag"]`, where it is a text. -/
def rawTag (outbound : Json) : Option String := outbound.text? "tag"

def protocolOf (outbound : Json) : Option String := outbound.text? "protocol"

/-- A tag as it is counted: trimmed, and blank tags left out. -/
def countedTag (outbound : Json) : Option String :=
  (rawTag outbound).bind fun tag => if trim tag = "" then none else some (trim tag)

/-- The tags that are counted at the start. -/
def countedTags (outbounds : List Json) : List String := outbounds.filterMap countedTag

/-- `{base_tag}`, then `{base_tag}-2`, `{base_tag}-3` and so on. -/
def tagCandidate (baseTag : String) (i : Nat) : String :=
  if i = 0 then baseTag else s!"{baseTag}-{i + 1}"

/-- Give an outbound the first candidate that is not in use. -/
def newTag (outbound : Json) (baseTag : String) (used : List String) :
    Except XrayError (Json × List String × String) :=
  let candidate := firstFree (tagCandidate baseTag) used 0 used.length
  match outbound.put "tag" (.str candidate) with
  | some outbound => .ok (outbound, candidate :: used, candidate)
  | none => .error .panics

/-- The tag of a destination: the outbound's own where no other has it, else a new one. The
outbound, the tags in use and the tag are returned. -/
def resolveOutboundTag (outbound : Json) (baseTag : String) (counts used : List String) :
    Except XrayError (Json × List String × String) :=
  match countedTag outbound with
  | some tag =>
    if counts.count tag = 1 then .ok (outbound, used, tag) else newTag outbound baseTag used
  | none => newTag outbound baseTag used

/-- The outbounds so far, and the tags in use. -/
structure OutboundState where
  outbounds : List Json
  used : List String

/-- Resolve the tag of the outbound at an index. -/
def resolveAt (counts : List String) (baseTag : String) (st : OutboundState) (i : Nat) :
    Except XrayError (OutboundState × String) :=
  match st.outbounds[i]? with
  | none => .error .panics
  | some outbound => do
      let (outbound, used, tag) ← resolveOutboundTag outbound baseTag counts st.used
      .ok (⟨st.outbounds.set i outbound, used⟩, tag)

/-- An outbound that can be the proxy. -/
def eligibleProxy (outbound : Json) : Bool :=
  match protocolOf outbound with
  | some protocol => trim protocol != "" && !(["freedom", "blackhole", "dns"].contains protocol)
  | none => false

def hasProtocol (protocol : String) (outbound : Json) : Bool := protocolOf outbound == some protocol

/-- The tag of the first outbound of a protocol, which is added where there is none. -/
def resolveShared (counts : List String) (protocol baseTag : String) (st : OutboundState) :
    Except XrayError (OutboundState × String) :=
  match st.outbounds.findIdx? (hasProtocol protocol) with
  | some i => resolveAt counts baseTag st i
  | none =>
    resolveAt counts baseTag
      { st with outbounds := st.outbounds ++ [.object [("protocol", .str protocol)]] }
      st.outbounds.length

def resolveProxy (counts : List String) (st : OutboundState) :
    Except XrayError (OutboundState × String) :=
  match st.outbounds.findIdx? eligibleProxy with
  | some i => resolveAt counts "network-orchestrator-proxy" st i
  | none => .error (.invalidData "no eligible proxy outbound for domain policy")

/-- A tag that only some options need. -/
def resolveIf (needed : Bool)
    (resolve : OutboundState → Except XrayError (OutboundState × String)) (st : OutboundState) :
    Except XrayError (OutboundState × Option String) :=
  if needed then do
    let (st, tag) ← resolve st
    .ok (st, some tag)
  else .ok (st, none)

/-! ### What the options need -/

def dnsActive (options : ProfileRoutingOptions) : Bool := !options.dns.isEmpty

def rulesActive (policies : List DomainPolicy) (options : ProfileRoutingOptions) : Bool :=
  !policies.isEmpty || options.privateLanDirect || dnsActive options ||
    !options.trafficRules.isEmpty || !options.interfaceRoutes.isEmpty

def needsProxy (policies : List DomainPolicy) (options : ProfileRoutingOptions) : Bool :=
  policies.any (fun policy => policy.target == .proxy) ||
    options.dns.servers.any (fun server => server.route == .proxy) ||
    options.trafficRules.any fun rule => rule.target == .proxy

def needsDirect (policies : List DomainPolicy) (options : ProfileRoutingOptions) : Bool :=
  options.privateLanDirect || policies.any (fun policy => policy.target == .direct) ||
    options.dns.servers.any (fun server => server.route == .direct) ||
    options.trafficRules.any fun rule => rule.target == .direct

/-- An interface and the strategy its names are resolved with. -/
abbrev InterfaceIdentity := String × Option String

def XrayInterfaceRoute.identity (route : XrayInterfaceRoute) : InterfaceIdentity :=
  (route.interfaceName, route.domainStrategy)

/-- The tags that rules can name. -/
structure RouteTags where
  proxy : Option String
  direct : Option String
  block : Option String
  dns : Option String
  interfaces : List (InterfaceIdentity × String)

/-- `unwrap_or_default` of the tag of a target. -/
def RouteTags.target (tags : RouteTags) : DomainRouteTarget → String
  | .proxy => tags.proxy.getD ""
  | .direct => tags.direct.getD ""
  | .block => tags.block.getD ""

/-! ### Outbound settings -/

def optionField (key : String) (value : Option Json) : List (String × Json) :=
  match value with
  | some value => [(key, value)]
  | none => []

def XrayDnsRewriteRule.toJson (rule : XrayDnsRewriteRule) : Json :=
  .object (("action", .str rule.action) :: optionField "qType" (rule.qType.map .str) ++
    optionField "rCode" (rule.rCode.map .nat) ++
    if rule.domain.isEmpty then [] else [("domain", .texts rule.domain)])

def XrayDnsOutboundSettings.toJson (settings : XrayDnsOutboundSettings) : Json :=
  .object (optionField "rewriteAddress" (settings.rewriteAddress.map .str) ++
    optionField "rewriteNetwork" (settings.rewriteNetwork.map .str) ++
    optionField "rewritePort" (settings.rewritePort.map .nat) ++
    if settings.rules.isEmpty then [] else [("rules", .arr (settings.rules.map (·.toJson)))])

/-- Write a field of the first outbound of a protocol. -/
def putFirst (protocol key : String) (value : Json) : List Json → Except XrayError (List Json)
  | [] => .ok []
  | outbound :: rest =>
    if hasProtocol protocol outbound then
      match outbound.put key value with
      | some outbound => .ok (outbound :: rest)
      | none => .error .panics
    else do
      let rest ← putFirst protocol key value rest
      .ok (outbound :: rest)

/-- Rewrite the socket options of an outbound, with the texts for what is no object. -/
def rewriteSockopt (notOutbound notStream notSockopt : String)
    (rewrite : List (String × Json) → List (String × Json)) (outbound : Json) :
    Except XrayError Json :=
  match outbound.asObject with
  | none => .error (.invalidData notOutbound)
  | some object =>
    match ((getField "streamSettings" object).getD (.object [])).asObject with
    | none => .error (.invalidData notStream)
    | some stream =>
      match ((getField "sockopt" stream).getD (.object [])).asObject with
      | none => .error (.invalidData notSockopt)
      | some sockopt =>
        .ok (.obj (insertField "streamSettings"
          (.obj (insertField "sockopt" (.obj (rewrite sockopt)) stream)) object))

def directStrategy (strategy : String) (outbound : Json) : Except XrayError Json :=
  if hasProtocol "freedom" outbound then
    rewriteSockopt "invalid direct outbound" "invalid direct stream settings"
      "invalid direct socket options" (insertField "domainStrategy" (.str strategy)) outbound
  else .ok outbound

def sockoptFields (sockopts : XraySockopts) : List (String × Json) :=
  optionField "tcpKeepAliveIdle" (sockopts.tcpKeepAliveIdle.map .nat) ++
    optionField "tcpKeepAliveInterval" (sockopts.tcpKeepAliveInterval.map .nat) ++
    optionField "tcpUserTimeout" (sockopts.tcpUserTimeout.map .nat) ++
    [("tcpNoDelay", .bool sockopts.tcpNoDelay)]

def applyStreamSockopts (sockopts : XraySockopts) (outbound : Json) : Except XrayError Json := do
  validateStreamSockopts sockopts
  rewriteSockopt "outbound must be an object" "streamSettings must be an object"
    "sockopt must be an object"
    (fun fields => (sockoptFields sockopts).foldl (fun fs f => insertField f.1 f.2 fs) fields)
    outbound

/-- Outbounds that open no socket of their own keep their settings. -/
def sockoptsOf (sockopts : XraySockopts) (outbound : Json) : Except XrayError Json :=
  if ["blackhole", "dns", "loopback", ""].contains ((protocolOf outbound).getD "") then .ok outbound
  else applyStreamSockopts sockopts outbound

def interfaceOutbound (identity : InterfaceIdentity) : Json :=
  .object [("protocol", .str "freedom"), ("streamSettings", .object [("sockopt",
    .object (("interface", .str identity.1) ::
      optionField "domainStrategy" (identity.2.map .str)))])]

/-- One outbound for each interface and strategy. -/
def addInterfaces (counts : List String) :
    List XrayInterfaceRoute → OutboundState → List (InterfaceIdentity × String) →
      Except XrayError (OutboundState × List (InterfaceIdentity × String))
  | [], st, tags => .ok (st, tags)
  | route :: rest, st, tags =>
    if (tags.lookup route.identity).isSome then addInterfaces counts rest st tags
    else do
      let (outbound, used, tag) ← resolveOutboundTag (interfaceOutbound route.identity)
        "network-orchestrator-interface" counts st.used
      addInterfaces counts rest ⟨st.outbounds ++ [outbound], used⟩
        (tags ++ [(route.identity, tag)])

def nodeTag (key : String) : String := s!"node-{key}"

def pinTag (key : String) : String := s!"pin-{key}"

def dnsSettings (dns : XrayDnsConfig) (outbounds : List Json) : Except XrayError (List Json) :=
  match dns.outbound with
  | some settings => putFirst "dns" "settings" settings.toJson outbounds
  | none => .ok outbounds

/-- The DNS outbound dials through a pinned endpoint. -/
def dnsEgress (dns : XrayDnsConfig) (outbounds : List Json) : Except XrayError (List Json) :=
  match dns.outboundKey with
  | some key =>
    putFirst "dns" "streamSettings"
      (.object [("sockopt", .object [("dialerProxy", .str (pinTag key))])]) outbounds
  | none => .ok outbounds

def directSettings (options : ProfileRoutingOptions) (outbounds : List Json) :
    Except XrayError (List Json) :=
  match options.directDomainStrategy with
  | some strategy => outbounds.mapM (directStrategy strategy)
  | none => .ok outbounds

/-- The settings of the DNS outbound and of the direct ones. -/
def outboundSettings (options : ProfileRoutingOptions) (outbounds : List Json) :
    Except XrayError (List Json) := do
  let outbounds ← dnsSettings options.dns outbounds
  let outbounds ← dnsEgress options.dns outbounds
  directSettings options outbounds

def allSockopts (options : ProfileRoutingOptions) (outbounds : List Json) :
    Except XrayError (List Json) :=
  match options.sockopts with
  | some sockopts => outbounds.mapM (sockoptsOf sockopts)
  | none => .ok outbounds

/-- The outbounds that the rules need, and their tags. -/
def routedOutbounds (policies : List DomainPolicy) (options : ProfileRoutingOptions)
    (outbounds : List Json) : Except XrayError (List Json × RouteTags) := do
  let counts := countedTags outbounds
  let st : OutboundState := ⟨outbounds, counts⟩
  let (st, proxy) ← resolveIf (needsProxy policies options) (resolveProxy counts) st
  let (st, direct) ← resolveIf (needsDirect policies options)
    (resolveShared counts "freedom" "network-orchestrator-direct") st
  let (st, block) ← resolveIf (rulesActive policies options)
    (resolveShared counts "blackhole" "network-orchestrator-block") st
  let (st, dns) ← resolveIf (dnsActive options) (resolveShared counts "dns" "dns-out") st
  let outbounds ← outboundSettings options st.outbounds
  let (st, interfaces) ← addInterfaces counts options.interfaceRoutes ⟨outbounds, st.used⟩ []
  let outbounds ← allSockopts options st.outbounds
  .ok (outbounds, ⟨proxy, direct, block, dns, interfaces⟩)

/-! ### Rules -/

def domainRule (domains : List String) (tag : String) : Json :=
  .object [("type", .str "field"), ("domain", .texts domains), ("outboundTag", .str tag)]

def ipRule (ips : List String) (tag : String) : Json :=
  .object [("type", .str "field"), ("ip", .texts ips), ("outboundTag", .str tag)]

def portRule (port tag : String) : Json :=
  .object [("type", .str "field"), ("port", .str port), ("outboundTag", .str tag)]

def guardRule (guard : XrayTrafficRule) (tag : String) : Json :=
  .object [("type", .str "field"), ("ip", .texts guard.ips), ("port", .str (toString guard.port)),
    ("network", .str guard.network), ("outboundTag", .str tag)]

variable (text : NetText)

/-- The domain rule and the address rule of a selector list, each only if it has selectors. -/
def selectorRules (selectors : List String) (tag : String) : Except XrayError (List Json) := do
  let (domains, ips) ← splitSelectors text selectors
  .ok ((if domains.isEmpty then [] else [domainRule domains tag]) ++
    if ips.isEmpty then [] else [ipRule ips tag])

def interfaceRules (tags : RouteTags) (route : XrayInterfaceRoute) : Except XrayError (List Json) :=
  match tags.interfaces.lookup route.identity with
  | some tag => selectorRules text route.selectors tag
  | none => .error .panics

def policyRules (tags : RouteTags) (policy : DomainPolicy) : Except XrayError (List Json) :=
  selectorRules text policy.domains (tags.target policy.target)

/-- The target a resolver is pinned to. -/
def XrayDnsRoute.target : XrayDnsRoute → Option DomainRouteTarget
  | .none => .none
  | .proxy => some .proxy
  | .direct => some .direct

/-- The rule that keeps a resolver on its own side of the tunnel. -/
def pinRule (tags : RouteTags) (server : XrayDnsServer) : Option Json :=
  match server.route.target with
  | none => none
  | some target =>
    match dnsServerRouteTarget server.address with
    | some (.ip, value) => some (ipRule [value] (tags.target target))
    | some (.domain, value) => some (domainRule [value] (tags.target target))
    | none => none

def multicastNets : List String := ["224.0.0.0/4", "ff00::/8"]

def privateNets : List String :=
  ["10.0.0.0/8", "172.16.0.0/12", "192.168.0.0/16", "127.0.0.0/8", "169.254.0.0/16", "fc00::/7",
    "fe80::/10", "::1/128"]

/-- The rules of the profile, in order. -/
def mergedRules (policies : List DomainPolicy) (options : ProfileRoutingOptions)
    (tags : RouteTags) : Except XrayError (List Json) := do
  let guards := options.trafficRules.map fun guard => guardRule guard (tags.target guard.target)
  let capture := tags.dns.toList.map (portRule "53")
  let interfaces ← options.interfaceRoutes.mapM (interfaceRules text tags)
  let policies ← policies.mapM (policyRules text tags)
  let pins := options.dns.servers.filterMap (pinRule tags)
  let merged := guards ++ capture ++ interfaces.flatten ++ policies.flatten ++ pins
  let multicast :=
    if !merged.isEmpty || options.privateLanDirect then
      [ipRule multicastNets (tags.block.getD "")]
    else []
  let lan := if options.privateLanDirect then [ipRule privateNets (tags.direct.getD "")] else []
  .ok (merged ++ multicast ++ lan)

/-! ### The DNS section -/

/-- A blocked name that can be null-routed by the resolver too. -/
def dnsHostsKey (selector : String) : Option String :=
  let selector := trim selector
  if isComment selector then none
  else
    match (Daemon.stripPrefix "domain:" selector).or (Daemon.stripPrefix "full:" selector) with
    | some rest => if trim rest = "" then none else some (trim rest)
    | none =>
      if selector.toList.contains ':' || (parseIpAddr selector).isSome then none
      else some selector

/-- The domains of the policies of a target. -/
def policyDomains (policies : List DomainPolicy) (target : DomainRouteTarget) : List String :=
  (policies.filter fun policy => policy.target == target).flatMap fun policy =>
    policy.domains.filterMap fun selector =>
      match classifyRoutingSelector text selector with
      | .ok (some (.domain, value)) => some value
      | _ => none

def dnsServerEntry (policies : List DomainPolicy) (server : XrayDnsServer) : Json :=
  let domains :=
    if server.domains.isEmpty then
      (server.route.target.map (policyDomains text policies)).getD []
    else server.domains
  .object (("address", .str (trim server.address)) :: optionField "port" (server.port.map .nat) ++
    (if domains.isEmpty then [] else [("domains", .texts domains)]) ++
    if server.skipFallback then [("skipFallback", .bool true)] else [])

def dnsServersJson (dns : XrayDnsConfig) (policies : List DomainPolicy) : List Json :=
  let servers := (if dns.fakeDns then [Json.str "fakedns"] else []) ++
    dns.servers.map (dnsServerEntry text policies)
  if servers.any fun s => s.asStr.isSome || (s.get? "domains").isNone then servers
  else
    match (dns.servers.find? fun server => server.route == .proxy).or dns.servers.head? with
    | some server =>
      servers.insertIdx (if dns.fakeDns then 1 else 0)
        (.object [("address", .str (trim server.address))])
    | none => servers

/-- The null routes of blocked names, with the profile's own hosts over them. -/
def dnsHosts (policies : List DomainPolicy) (dns : XrayDnsConfig) : List (String × Json) :=
  let blocked := (policies.filter fun policy => policy.target == .block).flatMap fun policy =>
    policy.domains.filterMap dnsHostsKey
  let hosts := blocked.foldl (fun hosts host =>
    if (getField host hosts).isSome then hosts
    else insertField host (.texts ["127.0.0.1"]) hosts) []
  dns.hosts.foldl (fun hosts entry => insertField entry.1 (.texts entry.2) hosts) hosts

def dnsSection (policies : List DomainPolicy) (dns : XrayDnsConfig) : Json :=
  let hosts := dnsHosts policies dns
  let servers := dnsServersJson text dns policies
  .object ((if hosts.isEmpty then [] else [("hosts", .obj hosts)]) ++
    (if servers.isEmpty then [] else [("servers", .arr servers)]) ++
    optionField "queryStrategy" (dns.queryStrategy.map fun strategy => .str strategy.asXrayStr) ++
    optionField "enableParallelQuery" (dns.enableParallelQuery.map .bool))

/-- Sniffing on an inbound turns fake answers back into names. -/
def sniffFakeDns (inbound : Json) : Json :=
  match inbound.asObject with
  | none => inbound
  | some object =>
    match ((getField "sniffing" object).getD (.object [])).asObject with
    | none => inbound
    | some sniffing =>
      let sniffing := insertField "enabled" (.bool true) sniffing
      let sniffing :=
        match ((getField "destOverride" sniffing).getD (.arr [])).asArray with
        | some items =>
          insertField "destOverride"
            (.arr (if items.contains (.str "fakedns") then items
              else items ++ [.str "fakedns"])) sniffing
        | none => sniffing
      .obj (insertField "sniffing" (.obj sniffing) object)

def withDns (policies : List DomainPolicy) (options : ProfileRoutingOptions)
    (root : List (String × Json)) : List (String × Json) :=
  if !dnsActive options then root
  else
    let root := insertField "dns" (dnsSection text policies options.dns) root
    if !options.dns.fakeDns then root
    else
      let root := insertField "fakedns"
        (.arr [.object [("ipPool", .str "198.18.0.0/16"), ("poolSize", .nat 65535)]]) root
      match (getField "inbounds" root).bind Json.asArray with
      | some inbounds => insertField "inbounds" (.arr (inbounds.map sniffFakeDns)) root
      | none => root

/-! ### The whole config -/

def routingFields (options : ProfileRoutingOptions) (routing : List (String × Json)) :
    List (String × Json) :=
  (optionField "domainStrategy" (options.domainStrategy.map fun s => .str s.asXrayStr) ++
    optionField "domainMatcher" (options.domainMatcher.map fun m => .str m.asXrayStr)).foldl
    (fun routing field => insertField field.1 field.2 routing) routing

def idlePolicy (options : ProfileRoutingOptions) (root : List (String × Json)) :
    List (String × Json) :=
  match options.connectionIdleSecs with
  | some seconds =>
    insertField "policy" (.object [("levels",
      .object [("0", .object [("connIdle", .nat seconds)])])]) root
  | none => root

/-- `routing.rules` of a routing section, which may be missing. -/
def baseRules (routing : List (String × Json)) : Except XrayError (List Json) :=
  match ((getField "rules" routing).getD (.arr [])).asArray with
  | some rules => .ok rules
  | none => .error (.invalidData "xray config routing.rules must be an array")

def baseRouting (root : List (String × Json)) : Except XrayError (List (String × Json)) :=
  match ((getField "routing" root).getD (.object [])).asObject with
  | some routing => .ok routing
  | none => .error (.invalidData "xray config routing must be an object")

/-- Nothing is asked for. -/
def isPlain (policies : List DomainPolicy) (options : ProfileRoutingOptions) : Bool :=
  !rulesActive policies options && options.domainStrategy.isNone && options.domainMatcher.isNone &&
    options.sockopts.isNone && options.connectionIdleSecs.isNone &&
    options.directDomainStrategy.isNone

def applyProfileRouting (base : Json) (policies : List DomainPolicy)
    (options : ProfileRoutingOptions) : Except XrayError Json :=
  if isPlain policies options then .ok base
  else do
    validateRoutingPolicySelectors text policies
    validateDnsConfig text options.dns
    validateAdvancedRoutingOptions text options
    match base.asObject with
    | none => .error (.invalidData "xray config root must be an object")
    | some root =>
      match (getField "outbounds" root).bind Json.asArray with
      | none => .error (.invalidData "xray config outbounds must be an array")
      | some outbounds => do
          let (outbounds, tags) ← routedOutbounds policies options outbounds
          let root := idlePolicy options (insertField "outbounds" (.arr outbounds) root)
          let routing ← baseRouting root
          let routing := routingFields options routing
          let rules ← baseRules routing
          let merged ← mergedRules text policies options tags
          let root := insertField "routing"
            (.obj (insertField "rules" (.arr (merged ++ rules)) routing)) root
          .ok (.obj (withDns text policies options root))

/-! ### What a call leaves -/

/-- The outbounds of a config. -/
def outboundsOf (config : Json) : List Json := ((config.index "outbounds").asArray).getD []

/-- The routing rules of a config. -/
def rulesOf (config : Json) : List Json :=
  (((config.index "routing").index "rules").asArray).getD []

/-- `routing.domainStrategy` of a config. -/
def strategyOf (config : Json) : Option String := (config.index "routing").text? "domainStrategy"

variable {options : ProfileRoutingOptions} {root routing : List (String × Json)} {key : String}
  {policies : List DomainPolicy}

@[simp]
theorem getField_withDns {text : NetText} (hdns : key ≠ "dns") (hfake : key ≠ "fakedns")
    (hinbounds : key ≠ "inbounds") :
    getField key (withDns text policies options root) = getField key root := by
  unfold withDns
  split
  · rfl
  · simp only
    split
    · rw [getField_insertField_of_ne hdns]
    · split
      · rw [getField_insertField_of_ne hinbounds, getField_insertField_of_ne hfake,
          getField_insertField_of_ne hdns]
      · rw [getField_insertField_of_ne hfake, getField_insertField_of_ne hdns]

theorem getField_idlePolicy (h : key ≠ "policy") :
    getField key (idlePolicy options root) = getField key root := by
  unfold idlePolicy
  split
  · rw [getField_insertField_of_ne h]
  · rfl

theorem getField_routingFields
    (hstrategy : key ≠ "domainStrategy") (hmatcher : key ≠ "domainMatcher") :
    getField key (routingFields options routing) = getField key routing := by
  unfold routingFields
  cases options.domainStrategy <;> cases options.domainMatcher <;>
    simp [optionField, getField_insertField, hstrategy, hmatcher]

/-- The rules of a base config, as the call reads them. -/
theorem rulesOf_of_base {rules : List Json} (hrouting : baseRouting root = .ok routing)
    (hrules : baseRules (routingFields options routing) = .ok rules) :
    rulesOf (.obj root) = rules := by
  rw [baseRules, getField_routingFields (by decide) (by decide)] at hrules
  unfold baseRouting at hrouting
  split at hrouting
  · rename_i fields hfields
    cases hrouting
    split at hrules
    · rename_i items hitems
      cases hrules
      rw [rulesOf, Json.index_obj]
      cases hroot : getField "routing" root with
      | none =>
        rw [hroot] at hfields
        cases hfields
        cases hitems
        rfl
      | some value =>
        rw [hroot, getD_some] at hfields
        obtain rfl := Json.asObject_eq_some.mp hfields
        rw [getD_some, Json.index_obj]
        cases hvalue : getField "rules" routing with
        | none =>
          rw [hvalue] at hitems
          cases hitems
          rfl
        | some items =>
          rw [hvalue, getD_some] at hitems
          rw [getD_some, hitems, getD_some]
    · cases hrules
  · cases hrouting

theorem strategyOf_of_base (hrouting : baseRouting root = .ok routing) :
    (getField "domainStrategy" (routingFields options routing)).bind Json.asStr =
      (options.domainStrategy.map XrayDomainStrategy.asXrayStr).or (strategyOf (.obj root)) := by
  have hold : strategyOf (.obj root) = (getField "domainStrategy" routing).bind Json.asStr := by
    unfold baseRouting at hrouting
    split at hrouting
    · rename_i fields hfields
      cases hrouting
      rw [strategyOf, Json.index_obj]
      cases hroot : getField "routing" root with
      | none =>
        rw [hroot] at hfields
        cases hfields
        rfl
      | some value =>
        rw [hroot, getD_some] at hfields
        obtain rfl := Json.asObject_eq_some.mp hfields
        rw [getD_some, Json.text?_obj]
    · cases hrouting
  rw [hold, routingFields]
  cases options.domainStrategy <;> cases options.domainMatcher <;>
    simp [optionField, getField_insertField]

/-- The outbounds and the rules that a call leaves, and the checks that it passed. -/
structure Routed (text : NetText) (base : Json) (policies : List DomainPolicy)
    (options : ProfileRoutingOptions) (config : Json) (outbounds : List Json) (tags : RouteTags)
    (merged : List Json) : Prop where
  policies_valid : validateRoutingPolicySelectors text policies = .ok ()
  dns_valid : validateDnsConfig text options.dns = .ok ()
  options_valid : validateAdvancedRoutingOptions text options = .ok ()
  routed : routedOutbounds policies options (outboundsOf base) = .ok (outbounds, tags)
  merged_eq : mergedRules text policies options tags = .ok merged
  outbounds_eq : outboundsOf config = outbounds
  rules_eq : rulesOf config = merged ++ rulesOf base
  strategy_eq : strategyOf config =
    (options.domainStrategy.map XrayDomainStrategy.asXrayStr).or (strategyOf base)

theorem applyProfileRouting_ok {text : NetText} {base config : Json}
    (h : applyProfileRouting text base policies options = .ok config) :
    (isPlain policies options = true ∧ config = base) ∨
      isPlain policies options = false ∧
        ∃ outbounds tags merged, Routed text base policies options config outbounds tags merged := by
  unfold applyProfileRouting at h
  split at h
  · rename_i hplain
    cases h
    exact .inl ⟨hplain, rfl⟩
  · rename_i hplain
    refine .inr ⟨by simpa using hplain, ?_⟩
    obtain ⟨⟨⟩, hpolicies, h⟩ := Checks.bind_eq_ok.mp h
    obtain ⟨⟨⟩, hdns, h⟩ := Checks.bind_eq_ok.mp h
    obtain ⟨⟨⟩, hoptions, h⟩ := Checks.bind_eq_ok.mp h
    split at h
    · cases h
    · rename_i root hroot
      split at h
      · cases h
      · rename_i outbounds houtbounds
        obtain ⟨⟨routed, tags⟩, hrouted, h⟩ := Checks.bind_eq_ok.mp h
        obtain ⟨routing, hrouting, h⟩ := Checks.bind_eq_ok.mp h
        obtain ⟨rules, hrules, h⟩ := Checks.bind_eq_ok.mp h
        obtain ⟨merged, hmerged, h⟩ := Checks.bind_eq_ok.mp h
        cases h
        obtain rfl := Json.asObject_eq_some.mp hroot
        obtain ⟨value, hvalue, harray⟩ := bind_eq_some_iff.mp houtbounds
        obtain rfl := Json.asArray_eq_some.mp harray
        refine ⟨routed, tags, merged, hpolicies, hdns, hoptions, ?_, hmerged, ?_, ?_, ?_⟩
        · rw [outboundsOf, Json.index_obj, hvalue]
          exact hrouted
        · rw [outboundsOf, Json.index_obj, getField_withDns (by decide) (by decide) (by decide),
            getField_insertField_of_ne (by decide), getField_idlePolicy (by decide),
            getField_insertField_self]
          rfl
        rotate_left
        · have hbase : baseRouting root = .ok routing := by
            rw [← hrouting, baseRouting, baseRouting, getField_idlePolicy (by decide),
              getField_insertField_of_ne (by decide)]
          rw [← strategyOf_of_base hbase, strategyOf, Json.index_obj,
            getField_withDns (by decide) (by decide) (by decide), getField_insertField_self,
            getD_some, Json.text?_obj, getField_insertField_of_ne (by decide)]
        · -- the rules of the base are read after the strategy and the matcher are written
          have hbase : rulesOf (.obj root) = rules := by
            refine rulesOf_of_base ?_ hrules
            rw [← hrouting, baseRouting, baseRouting, getField_idlePolicy (by decide),
              getField_insertField_of_ne (by decide)]
          rw [hbase, rulesOf, Json.index_obj, getField_withDns (by decide) (by decide) (by decide),
            getField_insertField_self]
          simp

end NetOrchestrator.Core
