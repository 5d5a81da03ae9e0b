import NetOrchestrator.Core.XrayOptions

/-!
# `Daemon.XrayConfig`: which generated Xray configs the daemon takes

`validateGenerated` walks over a config that the client sent and refuses what the generator of
the app would not write: unknown fields, listeners off loopback, tags that the daemon injects
itself, selectors that name files. There is one refusal, so a check answers whether it returns
`Ok`.

`parseNet` is the prefix parser of a third-party crate.
-/

namespace NetOrchestrator.Daemon

open Net Lib

def xrayRejected : IoError := invalidInput (.text "unsupported generated Xray TUN config")

/-! ### Values -/

/-- `object`: an object without fields other than the allowed ones. -/
def jsonObject (value : Json) (allowed : List String) : Bool :=
  value.asObject.any fun map => map.all fun field => allowed.contains field.1

/-- `string`: a text that is not empty. -/
def jsonString (value : Json) : Option String := value.asStr.filter (· ≠ "")

/-- `maybe_string`: a text that may be empty. -/
def jsonMaybeString (value : Json) : Bool := value.asStr.any fun s => s.utf8ByteSize ≤ 256

/-- `port`. -/
def jsonPort (value : Json) : Bool := value.asU64.any fun port => 1 ≤ port && port ≤ 65535

/-- `one`: the item of an array of one. -/
def jsonOne (value : Json) : Option Json :=
  match value.asArray with
  | some [item] => some item
  | _ => none

/-- A list of items within bounds that each pass a check. -/
def jsonItems (least most : Nat) (check : Json → Bool) (value : Json) : Bool :=
  value.asArray.any fun items =>
    least ≤ items.length && items.length ≤ most && items.all check

def isBoolean (value : Json) : Bool := value.asBool.isSome

/-- A text of at most 64 bytes that is not empty. -/
def jsonShortString (value : Json) : Bool := (jsonString value).any fun s => s.utf8ByteSize ≤ 64

/-- Check a field that may be missing. -/
def optionally (value : Json) (key : String) (check : Json → Bool) : Bool :=
  (value.get? key).all check

/-- `valid_node_key`: exactly 16 lowercase hex digits. -/
def validNodeKey (key : String) : Bool :=
  key.utf8ByteSize == 16 && key.toList.all fun c => Core.isAsciiDigit c || ('a' ≤ c && c ≤ 'f')

/-! ### Selectors -/

def geoipCode (code : String) : Bool :=
  code != "" && code.utf8ByteSize ≤ 64 &&
    code.toList.all fun c => isAsciiAlphanumeric c || c == '-' || c == '_'

/-- `category@attr` of a geosite selector. -/
def geositeCategory (category : String) : Bool :=
  let (name, attr) := Core.splitAttr category
  name != "" && name.utf8ByteSize ≤ 64 &&
    (name.toList.all fun c => isAsciiAlphanumeric c || ['-', '_', '!'].contains c) &&
    attr.all fun attr => attr != "" && attr.utf8ByteSize ≤ 64 &&
      attr.toList.all fun c => isAsciiAlphanumeric c || ['-', '_', '*'].contains c

variable (parseNet : String → Option IpNet)

def ipSelector (item : String) : Bool :=
  match stripPrefix "geoip:" item with
  | some code => geoipCode code
  | none => (parseIpAddr item).isSome || (parseNet item).isSome

def domainSelector (item : String) : Bool :=
  match splitOnce ':' item.toList with
  | some (kind, value) =>
    if kind = "geosite".toList then geositeCategory (String.ofList value)
    else ["domain", "full", "keyword", "regexp"].contains (String.ofList kind) && !value.isEmpty
  | none => !item.toList.contains '/' && !item.toList.contains '\\'

/-- `routing_selector`. -/
def routingSelector (key item : String) : Bool :=
  if key = "ip" then ipSelector parseNet item else domainSelector item

/-! ### Sections around the routing -/

def validateLog (log : Json) : Bool :=
  jsonObject log ["loglevel"] &&
    (log.text? "loglevel").any fun level => ["warning", "error", "none"].contains level

def validateDnsHosts (hosts : Json) : Bool :=
  hosts.asObject.any fun hosts =>
    hosts.length ≤ 128 && hosts.all fun (name, value) =>
      name != "" && name.utf8ByteSize ≤ 253 &&
        match value with
        | .str entry => entry != "" && entry.utf8ByteSize ≤ 256
        | .arr entries =>
          1 ≤ entries.length && entries.length ≤ 8 &&
            entries.all fun entry => (jsonString entry).isSome
        | _ => false

def validateDnsServerEntry (server : Json) : Bool :=
  match server with
  | .str address => address != "" && address.utf8ByteSize ≤ 256
  | .obj _ =>
    jsonObject server ["address", "port", "domains", "skipFallback", "queryStrategy"] &&
      (jsonString (server.index "address")).isSome &&
      optionally server "port" jsonPort &&
      optionally server "domains" (jsonItems 1 64 fun domain => (jsonString domain).isSome) &&
      optionally server "skipFallback" isBoolean &&
      optionally server "queryStrategy" fun query => (jsonString query).isSome
  | _ => false

/-- `validate_dns`. -/
def validateDns (dns : Json) : Bool :=
  jsonObject dns ["hosts", "servers", "queryStrategy", "tag", "enableParallelQuery",
    "disableCache", "serveStale", "clientIp"] &&
    (["queryStrategy", "tag", "clientIp"].all fun key =>
      optionally dns key fun value => (jsonString value).isSome) &&
    (["enableParallelQuery", "disableCache", "serveStale"].all fun key =>
      optionally dns key isBoolean) &&
    optionally dns "hosts" validateDnsHosts &&
    optionally dns "servers" (jsonItems 1 16 validateDnsServerEntry)

/-- `validate_fakedns`. -/
def validateFakedns (fakedns : Json) : Bool :=
  jsonItems 1 4 (fun pool =>
    jsonObject pool ["ipPool", "poolSize"] &&
      ((jsonString (pool.index "ipPool")).any fun cidr => (parseNet cidr).isSome) &&
      (pool.index "poolSize").asU64.any fun size => size != 0 && size ≤ 65535) fakedns

def validatePolicy (policy : Json) : Bool :=
  jsonObject policy ["levels"] && jsonObject (policy.index "levels") ["0"] &&
    jsonObject ((policy.index "levels").index "0") ["connIdle"] &&
    (((policy.index "levels").index "0").index "connIdle").asU64.any fun value => value ≤ 86400

/-! ### Inbounds -/

/-- `validate_sniffing`. -/
def validateSniffing (sniffing : Json) : Bool :=
  jsonObject sniffing ["enabled", "destOverride", "routeOnly", "metadataOnly", "domainsExcluded"] &&
    (["enabled", "routeOnly", "metadataOnly"].all fun key => optionally sniffing key isBoolean) &&
    ["destOverride", "domainsExcluded"].all fun key =>
      optionally sniffing key (jsonItems 0 8 jsonShortString)

def validateInbound (inbound : Json) : Bool :=
  jsonObject inbound ["tag", "listen", "port", "protocol", "settings", "sniffing"] &&
    inbound.text? "listen" = some "127.0.0.1" &&
    jsonPort (inbound.index "port") &&
    (jsonString (inbound.index "tag")).isSome &&
    optionally inbound "sniffing" validateSniffing &&
    match inbound.text? "protocol" with
    | some "socks" =>
      optionally inbound "settings" fun settings =>
        jsonObject settings ["udp"] && settings.index "udp" = .bool true
    | some "http" => (inbound.get? "settings").isNone
    | _ => false

/-! ### Outbounds -/

/-- `validate_mux`. -/
def validateMux (mux : Json) : Bool :=
  jsonObject mux ["enabled", "concurrency", "xudpConcurrency", "xudpProxyUDP443"] &&
    optionally mux "enabled" isBoolean &&
    (["concurrency", "xudpConcurrency"].all fun key =>
      optionally mux key fun value => value.asI64.any fun n => 1 ≤ n && n ≤ 1024) &&
    optionally mux "xudpProxyUDP443" jsonShortString

/-- `validate_tcp_settings`. -/
def validateTcpSettings (tcp : Json) : Bool :=
  jsonObject tcp ["header"] &&
    optionally tcp "header" fun header =>
      jsonObject header ["type"] && (jsonString (header.index "type")).isSome

def sockoptFieldOk (key : String) (value : Json) : Bool :=
  if ["mark", "tcpKeepAliveInterval", "tcpKeepAliveIdle", "tcpWindowClamp"].contains key then
    value.asU64.any fun n => n < 2 ^ 32
  else if key = "tcpUserTimeout" then value.asU64.any fun n => n ≤ 3600000
  else if ["tcpFastOpen", "V6Only", "tcpMptcp", "tcpNoDelay"].contains key then isBoolean value
  else if key = "tproxy" then value.asStr.any fun s => ["off", "redirect", "tproxy"].contains s
  else (jsonString value).isSome

/-- `validate_sockopt`. -/
def validateSockopt (sockopt : Json) : Bool :=
  jsonObject sockopt ["mark", "dialerProxy", "domainStrategy", "tcpFastOpen", "tproxy",
    "tcpKeepAliveInterval", "tcpKeepAliveIdle", "tcpUserTimeout", "tcpcongestion", "interface",
    "V6Only", "tcpWindowClamp", "tcpMptcp", "tcpNoDelay"] &&
    sockopt.asObject.any fun map => map.all fun (key, value) => sockoptFieldOk key value

/-- `validate_dns_rewrite_rule`. -/
def validateDnsRewriteRule (rule : Json) : Bool :=
  jsonObject rule ["action", "qType", "rCode", "domain", "domains"] &&
    (optionally rule "action" fun action =>
      (jsonString action).any fun action => ["return", "hijack", "direct", "drop"].contains action) &&
    (optionally rule "qType" fun qtype =>
      (jsonString qtype).any fun qtype =>
        qtype.utf8ByteSize ≤ 128 && (splitChars ',' qtype.toList).all fun item =>
          (parseUnsigned (2 ^ 16) (String.ofList item)).isSome) &&
    (optionally rule "rCode" fun rcode => rcode.asU64.isSome) &&
    ["domain", "domains"].all fun key =>
      optionally rule key (jsonItems 1 128 fun item =>
        (jsonString item).any (routingSelector parseNet "domain"))

def freedomFieldOk (key : String) (value : Json) : Bool :=
  if ["timeout", "userLevel"].contains key then value.asU64.isSome
  else if key = "fragment" then jsonObject value ["packets", "length", "interval"]
  else (jsonString value).isSome

def dnsFieldOk (key : String) (value : Json) : Bool :=
  if key = "port" then jsonPort value
  else if ["userLevel", "rewritePort"].contains key then value.asU64.isSome
  else if key = "skipFallback" then isBoolean value
  else if key = "blockTypes" then jsonItems 1 16 (fun item => item.asU64.isSome) value
  else if key = "rules" then jsonItems 1 64 (validateDnsRewriteRule parseNet) value
  else (jsonString value).isSome

/-- `validate_auxiliary_settings`. -/
def validateAuxiliarySettings (protocol : String) (settings : Json) : Bool :=
  if protocol = "freedom" then
    jsonObject settings ["domainStrategy", "redirect", "timeout", "userLevel", "fragment"] &&
      settings.asObject.any fun map => map.all fun (key, value) => freedomFieldOk key value
  else if protocol = "blackhole" then
    jsonObject settings ["response"] &&
      optionally settings "response" fun response =>
        jsonObject response ["type"] && (jsonString (response.index "type")).isSome
  else if protocol = "dns" then
    jsonObject settings ["address", "port", "network", "userLevel", "nonIPQuery", "blockTypes",
      "skipFallback", "queryStrategy", "rewriteAddress", "rewriteNetwork", "rewritePort", "rules"] &&
      settings.asObject.any fun map => map.all fun (key, value) => dnsFieldOk parseNet key value
  else false

/-- `validate_auxiliary_stream`. -/
def validateAuxiliaryStream (stream : Json) : Bool :=
  jsonObject stream ["network", "security", "tcpSettings", "sockopt"] &&
    (["network", "security"].all fun key =>
      optionally stream key fun value => (jsonString value).isSome) &&
    optionally stream "tcpSettings" validateTcpSettings &&
    optionally stream "sockopt" validateSockopt

/-- `validate_auxiliary`. -/
def validateAuxiliary (outbound : Json) : Bool :=
  (optionally outbound "settings"
    (validateAuxiliarySettings parseNet ((jsonString (outbound.index "protocol")).getD ""))) &&
    optionally outbound "streamSettings" validateAuxiliaryStream

/-- The stream settings of a transport or of its security, with the fields they may have. -/
def vlessStreamSections : List (String × List String) :=
  [("wsSettings", ["path", "headers"]), ("grpcSettings", ["serviceName"]),
    ("xhttpSettings", ["path", "host"]), ("httpupgradeSettings", ["path", "host"]),
    ("tlsSettings", ["serverName", "fingerprint", "alpn"]),
    ("realitySettings", ["serverName", "fingerprint", "publicKey", "shortId", "spiderX"])]

def vlessSectionFieldOk (key field : String) (value : Json) : Bool :=
  if key = "wsSettings" ∧ field = "headers" then
    jsonObject value ["Host"] && (jsonString (value.index "Host")).isSome
  else if key = "tlsSettings" ∧ field = "alpn" then
    jsonItems 1 8 (fun item => (jsonString item).isSome) value
  else jsonMaybeString value

/-- `validate_vless_stream`. -/
def validateVlessStream (stream : Json) : Bool :=
  jsonObject stream ["network", "security", "wsSettings", "grpcSettings", "xhttpSettings",
    "httpupgradeSettings", "tlsSettings", "realitySettings", "tcpSettings", "sockopt"] &&
    optionally stream "tcpSettings" validateTcpSettings &&
    optionally stream "sockopt" validateSockopt &&
    ((stream.text? "network").any fun network =>
      ["tcp", "raw", "ws", "grpc", "xhttp", "httpupgrade"].contains network) &&
    ((stream.text? "security").any fun security => ["none", "tls", "reality"].contains security) &&
    vlessStreamSections.all fun (key, allowed) =>
      optionally stream key fun value =>
        jsonObject value allowed &&
          value.asObject.any fun map => map.all fun (field, value) =>
            vlessSectionFieldOk key field value

/-- `validate_hysteria_stream`. -/
def validateHysteriaStream (stream : Json) : Bool :=
  jsonObject stream ["network", "security", "tlsSettings", "hysteriaSettings", "finalmask"] &&
    stream.text? "network" = some "hysteria" && stream.text? "security" = some "tls" &&
    jsonObject (stream.index "tlsSettings") ["serverName", "pinnedPeerCertSha256"] &&
    ((stream.index "tlsSettings").asObject.any fun tls =>
      tls.all fun field => (jsonString field.2).isSome) &&
    jsonObject (stream.index "hysteriaSettings") ["version", "auth"] &&
    (stream.index "hysteriaSettings").index "version" = .nat 2 &&
    (jsonString ((stream.index "hysteriaSettings").index "auth")).isSome &&
    optionally stream "finalmask" fun mask =>
      jsonObject mask ["udp", "quicParams"] &&
        (optionally mask "udp" fun udp =>
          (jsonOne udp).any fun item =>
            jsonObject item ["type", "settings"] && item.text? "type" = some "salamander" &&
              jsonObject (item.index "settings") ["password"] &&
              (jsonString ((item.index "settings").index "password")).isSome) &&
        optionally mask "quicParams" fun quic =>
          jsonObject quic ["udpHop"] && jsonObject (quic.index "udpHop") ["ports"] &&
            (jsonString ((quic.index "udpHop").index "ports")).isSome

def validateVlessUser (user : Json) : Bool :=
  jsonObject user ["id", "encryption", "flow"] && (jsonString (user.index "id")).isSome &&
    user.text? "encryption" = some "none" &&
    optionally user "flow" fun flow =>
      flow.asStr.any fun flow => ["", "xtls-rprx-vision", "xtls-rprx-vision-udp443"].contains flow

def validateVless (outbound : Json) : Bool :=
  jsonObject (outbound.index "settings") ["vnext"] &&
    (((outbound.index "settings").get? "vnext").bind jsonOne).any (fun server =>
      jsonObject server ["address", "port", "users"] &&
        (jsonString (server.index "address")).isSome && jsonPort (server.index "port") &&
        (jsonOne (server.index "users")).any validateVlessUser) &&
    validateVlessStream (outbound.index "streamSettings")

def validateHysteria (outbound : Json) : Bool :=
  jsonObject (outbound.index "settings") ["version", "address", "port"] &&
    (outbound.index "settings").index "version" = .nat 2 &&
    (jsonString ((outbound.index "settings").index "address")).isSome &&
    jsonPort ((outbound.index "settings").index "port") &&
    validateHysteriaStream (outbound.index "streamSettings")

/-- `RESERVED_TAGS`: tags that the daemon injects itself. -/
def reservedTags : List String := ["api", "api-in", "tun-in", "unavailable"]

def validOutboundTag (tag : String) : Bool :=
  tag != "" && !reservedTags.contains tag && (stripPrefix "probe-" tag).isNone &&
    ["node-", "pin-"].all fun start => (stripPrefix start tag).all validNodeKey

def validateOutbound (outbound : Json) : Bool :=
  jsonObject outbound ["tag", "protocol", "settings", "streamSettings", "mux"] &&
    (outbound.text? "tag").any validOutboundTag &&
    optionally outbound "mux" validateMux &&
    match outbound.text? "protocol" with
    | some "vless" => validateVless outbound
    | some "hysteria" => validateHysteria outbound
    | some "freedom" => validateAuxiliary parseNet outbound
    | some "blackhole" => validateAuxiliary parseNet outbound
    | some "dns" => validateAuxiliary parseNet outbound
    | _ => false

/-- The protocols that reach a server. -/
def isProxyProtocol (protocol : Option String) : Bool :=
  protocol = some "vless" || protocol = some "hysteria"

/-- The outbounds of a config, and that there is a proxy and a direct one among them. -/
def validateOutbounds (outbounds : List Json) : Bool :=
  2 ≤ outbounds.length && outbounds.length ≤ 64 &&
    outbounds.all (validateOutbound parseNet) &&
    decide (outbounds.map fun outbound => outbound.text? "tag").Nodup &&
    (outbounds.any fun outbound => isProxyProtocol (outbound.text? "protocol")) &&
    outbounds.any fun outbound => outbound.text? "protocol" = some "freedom"

/-! ### Routing -/

/-- The only balancer: `failover`, which selects nothing but the `unavailable` blackhole. -/
def validateBalancers (balancers : Json) : Bool :=
  (jsonOne balancers).any fun balancer =>
    jsonObject balancer ["tag", "selector"] && balancer.text? "tag" = some "failover" &&
      (jsonOne (balancer.index "selector")).any fun selector => selector = .str "unavailable"

/-- `splitn(2, '-')` of a port range. -/
def portBounds (item : List Char) : List (List Char) :=
  match splitOnce '-' item with
  | some (low, high) => [low, high]
  | none => [item]

def portListOk (list : String) : Bool :=
  list.utf8ByteSize ≤ 128 && (splitChars ',' list.toList).all fun item =>
    (portBounds item).all fun bound =>
      (parseUnsigned (2 ^ 16) (String.ofList bound)).isSome && (String.ofList bound).utf8ByteSize ≤ 5

def rulePortOk (value : Json) : Bool :=
  match value with
  | .str list => portListOk list
  | .num _ => jsonPort value
  | _ => false

/-- A rule names one outbound or the balancer. -/
def ruleTargetOk (tags : List (Option String)) (rule : Json) : Bool :=
  match rule.get? "outboundTag", rule.get? "balancerTag" with
  | some outbound, none => (jsonString outbound).any fun tag => tags.contains (some tag)
  | none, some balancer => jsonString balancer = some "failover"
  | _, _ => false

def validateRoutingRule (tags : List (Option String)) (rule : Json) : Bool :=
  jsonObject rule ["type", "domain", "ip", "port", "network", "outboundTag", "balancerTag",
    "inboundTag"] &&
    (optionally rule "type" fun kind => kind = .str "field") &&
    ruleTargetOk tags rule &&
    optionally rule "inboundTag" (jsonItems 1 8 jsonShortString) &&
    optionally rule "port" rulePortOk &&
    (optionally rule "network" fun network =>
      network.asStr.any fun network => ["tcp", "udp", "tcp,udp"].contains network) &&
    ["domain", "ip"].all fun key =>
      optionally rule key (jsonItems 1 128 fun item =>
        (jsonString item).any (routingSelector parseNet key))

def validateRouting (tags : List (Option String)) (routing : Json) : Bool :=
  jsonObject routing ["domainStrategy", "domainMatcher", "rules", "balancers"] &&
    optionally routing "balancers" validateBalancers &&
    (optionally routing "domainStrategy" fun strategy =>
      strategy.asStr.any fun strategy => ["AsIs", "IPIfNonMatch", "IPOnDemand"].contains strategy) &&
    (optionally routing "domainMatcher" fun name =>
      name.asStr.any fun name => ["mph", "hybrid", "linear"].contains name) &&
    jsonItems 0 64 (validateRoutingRule parseNet tags) (routing.index "rules")

/-! ### The whole config -/

/-- `validate_generated`. -/
def validateGenerated (config : Json) : Bool :=
  jsonObject config ["log", "inbounds", "outbounds", "routing", "dns", "fakedns", "policy"] &&
    optionally config "log" validateLog &&
    optionally config "dns" validateDns &&
    optionally config "fakedns" (validateFakedns parseNet) &&
    optionally config "policy" validatePolicy &&
    jsonItems 1 2 validateInbound (config.index "inbounds") &&
    ((config.index "outbounds").asArray.any fun outbounds =>
      validateOutbounds parseNet outbounds &&
        validateRouting parseNet (outbounds.map fun outbound => outbound.text? "tag")
          (config.index "routing"))

end NetOrchestrator.Daemon
