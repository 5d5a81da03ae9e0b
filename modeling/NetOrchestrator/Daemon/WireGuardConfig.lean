import NetOrchestrator.Daemon.WireGuard

/-!
# `Daemon.WireGuardConfig`: from a configuration text to a plan

`parseWireguardConfig` reads the text of a WireGuard configuration line by line, checks what
it collected and plans the routes. Fields of wg-quick and executable hooks stay out of the
`setconf` text. Every error is a fixed text.

Four functions of third-party crates are parameters: the prefix parser and printer, the
aggregation of prefixes and the base64 decoder.
-/

namespace NetOrchestrator.Daemon

open Net Lib

/-- `IpNet::from_str`, `IpNet::to_string`, `IpNet::aggregate` and the standard base64 decoder. -/
structure WireGuardCrates where
  parseNet : String → Option IpNet
  showNet : IpNet → String
  aggregate : List IpNet → List IpNet
  decodeBase64 : String → Option (List UInt8)

def maxWireguardConfigBytes : Nat := 256 * 1024
def maxWireguardPeers : Nat := 16
def maxWireguardAddresses : Nat := 32
def maxWireguardRoutes : Nat := 512
def maxWireguardDnsServers : Nat := 8
def maxWireguardDnsDomains : Nat := 16

/-! ### Strings as the standard library reads them -/

/-- Split at every `sep`. There is always a first piece. -/
def splitChars (sep : Char) : List Char → List (List Char)
  | [] => [[]]
  | c :: cs =>
    if c = sep then [] :: splitChars sep cs
    else
      match splitChars sep cs with
      | [] => [[c]]
      | piece :: rest => (c :: piece) :: rest

/-- `str::lines`: the pieces between line ends, with one carriage return before each taken
off. What follows the last line end counts only if it is not empty. -/
def textLines (s : String) : List (List Char) :=
  let pieces := splitChars '\n' s.toList
  let stripCr := fun (line : List Char) =>
    if line.getLast? = some '\r' then line.dropLast else line
  let closed := pieces.dropLast.map stripCr
  match pieces.getLast? with
  | none | some [] => closed
  | some last => closed ++ [last]

def asciiLower (s : String) : String := String.ofList (s.toList.map Char.toLower)

/-- `str::split_once` at the first `sep`. -/
def splitOnce (sep : Char) : List Char → Option (List Char × List Char)
  | [] => none
  | c :: cs =>
    if c = sep then some ([], cs)
    else (splitOnce sep cs).map fun parts => (c :: parts.1, parts.2)

/-- `str::rsplit_once` at the last `sep`. -/
def rsplitOnce (sep : Char) (s : List Char) : Option (List Char × List Char) :=
  (splitOnce sep s.reverse).map fun parts => (parts.2.reverse, parts.1.reverse)

/-- `split_once("]:")`. -/
def splitBracket : List Char → Option (List Char × List Char)
  | [] => none
  | ']' :: ':' :: cs => some ([], cs)
  | c :: cs => (splitBracket cs).map fun parts => (c :: parts.1, parts.2)

/-- `parse::<uN>()`: an optional plus sign and at least one digit, below `bound`. -/
def parseUnsigned (bound : Nat) (s : String) : Option Nat :=
  let digits :=
    match s.toList with
    | '+' :: cs => cs
    | cs => cs
  if digits.isEmpty || !digits.all Char.isDigit then none
  else
    let value := digits.foldl (fun acc c => acc * 10 + (c.toNat - '0'.toNat)) 0
    if value < bound then some value else none

/-- `comma_items`. -/
def commaItems (value : String) : List String :=
  (splitChars ',' value.toList).map fun item => trim (String.ofList item)

/-! ### Checks of single values -/

/-- `valid_dns_name`. -/
def validDnsName (value : String) : Bool :=
  value != "" && value.utf8ByteSize ≤ 253 &&
    (splitChars '.' value.toList).all fun label =>
      !label.isEmpty && label.length ≤ 63 && label.head? != some '-' &&
        label.getLast? != some '-' && label.all fun c => isAsciiAlphanumeric c || c == '-'

variable (lib : WireGuardCrates)

/-- `validate_key`: base64 of 32 bytes. -/
def validateKey (value error : String) : Except String Unit :=
  match lib.decodeBase64 value with
  | some bytes => if bytes.length = 32 then .ok () else .error error
  | none => .error error

/-- `validate_port`. -/
def validatePort (value error : String) : Except String Unit :=
  match parseUnsigned (2 ^ 16) value with
  | some port => if port = 0 then .error error else .ok ()
  | none => .error error

/-- The host and the port of an endpoint. A bracketed host is an IPv6 address. -/
def splitEndpoint (value : String) : Option (String × String) :=
  match value.toList with
  | '[' :: bracketed =>
    match splitBracket bracketed with
    | none => none
    | some (host, port) =>
      match parseIpAddr (String.ofList host) with
      | some (.v6 _) => some (String.ofList host, String.ofList port)
      | _ => none
  | cs =>
    match rsplitOnce ':' cs with
    | none => none
    | some (host, port) =>
      if host.contains ':' then none else some (String.ofList host, String.ofList port)

/-- `validate_endpoint`. -/
def validateEndpoint (value : String) : Except String Unit :=
  match splitEndpoint value with
  | none => .error "invalid Endpoint"
  | some (host, port) => do
      validatePort port "invalid Endpoint"
      if (parseIpAddr host).isNone && !validDnsName host then .error "invalid Endpoint"
      else .ok ()

/-! ### The lines -/

inductive ConfigSection where
  | none
  | interface
  | peer
  deriving DecidableEq

/-- A peer so far. `allowedLine` is where its `AllowedIPs` line stands in the `setconf`
text. -/
structure ConfigPeer where
  hasPublicKey : Bool
  hasPresharedKey : Bool
  hasEndpoint : Bool
  hasKeepalive : Bool
  allowedIps : List IpNet
  allowedLine : Option (Nat × Nat)
  deriving DecidableEq

def ConfigPeer.blank : ConfigPeer :=
  { hasPublicKey := false, hasPresharedKey := false, hasEndpoint := false, hasKeepalive := false,
    allowedIps := [], allowedLine := none }

/-- What the loop over the lines has collected. -/
structure ConfigState where
  setconf : String
  addresses : List IpNet
  dnsServers : List IpAddr
  dnsDomains : List String
  mtu : Option Nat
  warnings : List WireGuardWarning
  block : ConfigSection
  seenInterface : Bool
  hasPrivateKey : Bool
  hasListenPort : Bool
  peers : List ConfigPeer
  tableOff : Bool
  tableSeen : Bool
  mtuSeen : Bool
  deriving DecidableEq

def ConfigState.blank : ConfigState :=
  { setconf := "", addresses := [], dnsServers := [], dnsDomains := [], mtu := none,
    warnings := [], block := .none, seenInterface := false, hasPrivateKey := false,
    hasListenPort := false, peers := [], tableOff := false, tableSeen := false,
    mtuSeen := false }

namespace ConfigState

/-- `push_setconf`. -/
def pushSetconf (key value : String) (st : ConfigState) : ConfigState :=
  { st with setconf := st.setconf ++ key ++ " = " ++ value ++ "\n" }

def warn (warning : WireGuardWarning) (st : ConfigState) : ConfigState :=
  if st.warnings.contains warning then st else { st with warnings := st.warnings ++ [warning] }

/-- `peers.last_mut()`. -/
def lastPeer (st : ConfigState) : ConfigPeer := st.peers.getLast?.getD .blank

def setLastPeer (peer : ConfigPeer) (st : ConfigState) : ConfigState :=
  { st with peers := st.peers.dropLast ++ [peer] }

/-- A section header. -/
def openSection (line : String) (st : ConfigState) : Except String ConfigState :=
  let header := asciiLower line
  if header = "[interface]" then
    if !st.seenInterface && st.peers.isEmpty then
      .ok { st with
        seenInterface := true, block := .interface, setconf := st.setconf ++ "[Interface]\n" }
    else .error "invalid WireGuard section"
  else if header = "[peer]" then
    if st.seenInterface && st.peers.length < maxWireguardPeers then
      .ok { st with
        peers := st.peers ++ [.blank], block := .peer, setconf := st.setconf ++ "\n[Peer]\n" }
    else .error "too many or misplaced peers"
  else .error "invalid WireGuard section"

variable (lib : WireGuardCrates)

/-- One item of an `Address` field. -/
def addAddress (st : ConfigState) (item : String) : Except String ConfigState :=
  match lib.parseNet item with
  | none => .error "invalid Address"
  | some address =>
    if address.addr.isUnspecified || address.addr.isMulticast then .error "invalid Address"
    else if st.addresses.contains address then .ok st
    else if maxWireguardAddresses < st.addresses.length + 1 then
      .error "too many Address entries"
    else .ok { st with addresses := st.addresses ++ [address] }

/-- One item of a `DNS` field: a server, else a search domain. -/
def addDns (st : ConfigState) (item : String) : Except String ConfigState :=
  match parseIpAddr item with
  | some server =>
    if server.isUnspecified || server.isMulticast then .error "invalid DNS"
    else if maxWireguardDnsServers < st.dnsServers.length + 1 then .error "too many DNS servers"
    else .ok { st with dnsServers := st.dnsServers ++ [server] }
  | none =>
    if !validDnsName item then .error "invalid DNS domain"
    else if maxWireguardDnsDomains < st.dnsDomains.length + 1 then
      .error "too many DNS domains"
    else .ok { st with dnsDomains := st.dnsDomains ++ [asciiLower item] }

def interfaceField (key value : String) (st : ConfigState) : Except String ConfigState :=
  if key = "privatekey" then
    if st.hasPrivateKey then .error "duplicate PrivateKey"
    else do
      validateKey lib value "invalid PrivateKey"
      pure (pushSetconf "PrivateKey" value { st with hasPrivateKey := true })
  else if key = "listenport" then
    if st.hasListenPort then .error "duplicate ListenPort"
    else do
      validatePort value "invalid ListenPort"
      pure (pushSetconf "ListenPort" value { st with hasListenPort := true })
  else if key = "address" then (commaItems value).foldlM (addAddress lib) st
  else if key = "dns" then (commaItems value).foldlM addDns st
  else if key = "mtu" then
    if st.mtuSeen then .error "duplicate MTU"
    else
      match parseUnsigned (2 ^ 32) value with
      | none => .error "invalid MTU"
      | some mtu =>
        if mtu < 576 || 9000 < mtu then .error "invalid MTU"
        else .ok { st with mtuSeen := true, mtu := some mtu }
  else if key = "table" then
    if st.tableSeen then .error "duplicate Table"
    else if asciiLower value = "off" then .ok { st with tableSeen := true, tableOff := true }
    else if asciiLower value = "auto" then .ok { st with tableSeen := true, tableOff := false }
    else .error "unsupported Table"
  else if key = "preup" || key = "postup" || key = "predown" || key = "postdown" then
    .ok (st.warn .ignoredHook)
  else if key = "saveconfig" then .ok (st.warn .ignoredSaveConfig)
  else if key = "fwmark" then .error "unsupported FwMark"
  else .error "unsupported WireGuard field"

/-- One item of an `AllowedIPs` field. -/
def addAllowed (allowed : List IpNet) (item : String) : Except String (List IpNet) :=
  match lib.parseNet item with
  | none => .error "invalid AllowedIPs"
  | some network =>
    if maxWireguardRoutes < allowed.length + 1 then .error "too many AllowedIPs"
    else .ok (allowed ++ [network.trunc])

/-- The value of an `AllowedIPs` line. -/
def allowedText (allowed : List IpNet) : String :=
  ", ".intercalate (allowed.map lib.showNet)

def peerField (key value : String) (st : ConfigState) : Except String ConfigState :=
  let peer := st.lastPeer
  if key = "publickey" then
    if peer.hasPublicKey then .error "duplicate PublicKey"
    else do
      validateKey lib value "invalid PublicKey"
      pure (pushSetconf "PublicKey" value (st.setLastPeer { peer with hasPublicKey := true }))
  else if key = "presharedkey" then
    if peer.hasPresharedKey then .error "duplicate PresharedKey"
    else do
      validateKey lib value "invalid PresharedKey"
      pure (pushSetconf "PresharedKey" value
        (st.setLastPeer { peer with hasPresharedKey := true }))
  else if key = "endpoint" then
    if peer.hasEndpoint then .error "duplicate Endpoint"
    else do
      validateEndpoint value
      pure (pushSetconf "Endpoint" value (st.setLastPeer { peer with hasEndpoint := true }))
  else if key = "allowedips" then
    if !peer.allowedIps.isEmpty then .error "duplicate AllowedIPs"
    else do
      let allowedIps ← (commaItems value).foldlM (addAllowed lib) []
      let written := st.pushSetconf "AllowedIPs" (allowedText lib allowedIps)
      pure (written.setLastPeer
        { peer with allowedIps, allowedLine := some (st.setconf.length, written.setconf.length) })
  else if key = "persistentkeepalive" then
    if peer.hasKeepalive then .error "duplicate PersistentKeepalive"
    else
      match parseUnsigned (2 ^ 16) value with
      | none => .error "invalid PersistentKeepalive"
      | some keepalive =>
        let st := st.setLastPeer { peer with hasKeepalive := true }
        .ok (if 0 < keepalive then st.pushSetconf "PersistentKeepalive" value else st)
  else .error "unsupported WireGuard field"

/-- One line of the text. -/
def readLine (st : ConfigState) (raw : List Char) : Except String ConfigState :=
  let line := trim (String.ofList (raw.takeWhile (· != '#')))
  if line = "" then .ok st
  else if line.toList.head? = some '[' then st.openSection line
  else
    match splitOnce '=' line.toList with
    | none => .error "invalid WireGuard field"
    | some (key, value) =>
      let key := asciiLower (trim (String.ofList key))
      let value := trim (String.ofList value)
      if value = "" then .error "empty WireGuard field"
      else
        match st.block with
        | .none => .error "unsupported WireGuard field"
        | .interface => st.interfaceField lib key value
        | .peer => st.peerField lib key value

end ConfigState

/-! ### The plan -/

/-- What must be there once all lines are read. -/
def checkConfig (st : ConfigState) : Except String Unit :=
  if !st.hasPrivateKey || st.peers.isEmpty || !st.peers.all ConfigPeer.hasPublicKey then
    .error "missing WireGuard key or peer"
  else if !st.peers.any ConfigPeer.hasEndpoint then .error "missing Endpoint"
  else if st.addresses.isEmpty || st.peers.any fun peer => peer.allowedIps.isEmpty then
    .error "missing Address or AllowedIPs"
  else if !st.dnsDomains.isEmpty && st.dnsServers.isEmpty then
    .error "DNS domains require a DNS server"
  else .ok ()

/-- The prefixes of one peer against each other and against those of the peers before it. -/
def checkAllowed (prior : List IpNet) : List IpNet → List IpNet → Except String Unit
  | _, [] => .ok ()
  | seen, allowed :: rest =>
    if seen.contains allowed || prior.contains allowed then
      .error "duplicate AllowedIPs across peers"
    else if prior.any fun p => p.containsNet allowed || allowed.containsNet p then
      .error "overlapping AllowedIPs across peers"
    else checkAllowed prior (allowed :: seen) rest

def checkPeers (prior : List IpNet) : List ConfigPeer → Except String Unit
  | [] => .ok ()
  | peer :: rest => do
      checkAllowed prior [] peer.allowedIps
      checkPeers (prior ++ peer.allowedIps) rest

/-- The declared routes. With a single peer, a route outside its prefixes widens them; the
result is the peers with their prefixes and whether any was widened. -/
def coverRoutes (seen : List IpNet) (peers : List ConfigPeer) (expanded : Bool) :
    List PolicyRoute → Except String (List ConfigPeer × Bool)
  | [] => .ok (peers, expanded)
  | route :: rest =>
    if route.via.isSome || route.destination != route.destination.trunc then
      .error "invalid policy route"
    else if peers.any fun peer => peer.allowedIps.any (·.containsNet route.destination) then
      if seen.contains route.destination then .error "duplicate policy route"
      else coverRoutes (route.destination :: seen) peers expanded rest
    else
      match peers with
      | [peer] =>
        if seen.contains route.destination then .error "duplicate policy route"
        else coverRoutes (route.destination :: seen)
          [{ peer with allowedIps := peer.allowedIps ++ [route.destination] }] true rest
      | _ => .error "policy route is not covered by AllowedIPs"

/-- `String::replace_range`. -/
def replaceRange (s : String) (range : Nat × Nat) (line : String) : String :=
  String.ofList (s.toList.take range.1) ++ line ++ String.ofList (s.toList.drop range.2)

/-- The `setconf` text with the widened `AllowedIPs` line of the only peer. -/
def widenSetconf (setconf : String) : List ConfigPeer → String
  | peer :: _ =>
    match peer.allowedLine with
    | some range =>
      replaceRange setconf range
        ("AllowedIPs = " ++ ConfigState.allowedText lib peer.allowedIps ++ "\n")
    | none => setconf
  | [] => setconf

/-- The routes of the plan and its `setconf` text. Declared routes replace those derived from
the prefixes of the peers. -/
def planConfigRoutes (st : ConfigState)
    (policyRoutes : List PolicyRoute) : Except String (List PolicyRoute × String) :=
  if !policyRoutes.isEmpty then do
    let (peers, expanded) ← coverRoutes [] st.peers false policyRoutes
    pure (policyRoutes, if expanded then widenSetconf lib st.setconf peers else st.setconf)
  else if st.tableOff then .ok ([], st.setconf)
  else
    let routes := (st.peers.flatMap ConfigPeer.allowedIps).map fun destination =>
      { destination, metric := 5, via := none : PolicyRoute }
    if maxWireguardRoutes < routes.length then .error "too many routes"
    else .ok (routes, st.setconf)

/-- `full_coverage`. -/
def fullCoverage (routes : List IpNet) : Bool × Bool :=
  let aggregated := lib.aggregate routes
  (aggregated.any fun net => lib.showNet net == "0.0.0.0/0",
    aggregated.any fun net => lib.showNet net == "::/0")

/-- Whether the routes take a whole family: its default route, or both halves. -/
def takesAll (routes : List PolicyRoute) (whole lower upper : IpNet) : Bool :=
  let has := fun net => routes.any fun route => route.destination == net
  has whole || (has lower && has upper)

/-- The end of `parse_wireguard_config`: the checks of the planned routes. -/
def finishPlan (st : ConfigState) (routes : List PolicyRoute)
    (setconf : String) : Except String WireGuardPlan :=
  let fullIpv4 := takesAll routes defaultIpv4 lowerIpv4 upperIpv4
  let fullIpv6 := takesAll routes defaultIpv6 lowerIpv6 upperIpv6
  let (coversIpv4, coversIpv6) := fullCoverage lib (routes.map PolicyRoute.destination)
  if (coversIpv4 && !fullIpv4) || (coversIpv6 && !fullIpv6) then
    .error "unsupported full-tunnel route decomposition"
  else if !st.dnsServers.all fun server =>
      routes.any fun route => route.destination.containsAddr server then
    .error "DNS server is not covered by tunnel routes"
  else
    .ok { setconf, addresses := st.addresses, dnsServers := st.dnsServers,
          dnsDomains := st.dnsDomains, mtu := st.mtu, routes, fullIpv4, fullIpv6,
          warnings := st.warnings, interfaceName := none }

/-- `parse_wireguard_config`. -/
def parseWireguardConfig (source : String)
    (policyRoutes : List PolicyRoute) : Except String WireGuardPlan :=
  if maxWireguardConfigBytes < source.utf8ByteSize then .error "WireGuard config is too large"
  else if maxWireguardRoutes < policyRoutes.length then .error "too many policy routes"
  else do
    let st ← (textLines source).foldlM (ConfigState.readLine lib) .blank
    checkConfig st
    checkPeers [] st.peers
    let (routes, setconf) ← planConfigRoutes lib st policyRoutes
    finishPlan lib st routes setconf

end NetOrchestrator.Daemon
