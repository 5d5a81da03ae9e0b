import NetOrchestrator.Daemon.WireGuardConfig

/-!
# `Daemon.WireGuardText`: a configuration by its sections

A WireGuard text as the fields of its interface and of each of its peers, in the order of the
lines. `ConfigBlocks.read` reads any such text, a source as well as a `setconf` text, and refuses
what is no line of one. `ConfigBlocks.setconf` is what a `setconf` text may hold of a source.
-/

namespace NetOrchestrator.Daemon

open Net

/-- The name of a field in lower case, and its value. -/
abbrev ConfigField := String × String

/-- The fields of the interface, once its header is read, and those of each peer. -/
structure ConfigBlocks where
  interface : Option (List ConfigField)
  peers : List (List ConfigField)
  deriving DecidableEq

namespace ConfigBlocks

def blank : ConfigBlocks := { interface := none, peers := [] }

/-- A header opens the interface, which comes first and once, or a further peer. -/
def openSection (blocks : ConfigBlocks) (header : String) : Option ConfigBlocks :=
  if header = "[interface]" then
    if blocks.interface.isNone then some { blocks with interface := some [] } else none
  else if header = "[peer]" then
    if blocks.interface.isSome then some { blocks with peers := blocks.peers ++ [[]] } else none
  else none

/-- A field belongs to the section opened last. -/
def addField (blocks : ConfigBlocks) (field : ConfigField) : Option ConfigBlocks :=
  match blocks.interface, blocks.peers.getLast? with
  | some _, some last =>
    some { blocks with peers := blocks.peers.dropLast ++ [last ++ [field]] }
  | some fields, none => some { blocks with interface := some (fields ++ [field]) }
  | none, _ => none

def readLine (blocks : ConfigBlocks) (raw : List Char) : Option ConfigBlocks :=
  let line := trim (String.ofList (raw.takeWhile (· != '#')))
  if line = "" then some blocks
  else if line.toList.head? = some '[' then blocks.openSection (asciiLower line)
  else
    match splitOnce '=' line.toList with
    | none => none
    | some (key, value) =>
      blocks.addField (asciiLower (trim (String.ofList key)), trim (String.ofList value))

def read (text : String) : Option ConfigBlocks := (textLines text).foldlM readLine blank

end ConfigBlocks

/-! ### What a `setconf` text holds of a source -/

variable (lib : WireGuardCrates)

/-- The prefixes of an `AllowedIPs` value. -/
def allowedNets (value : String) : List IpNet :=
  (commaItems value).filterMap fun item => (lib.parseNet item).map IpNet.trunc

/-- The cryptokey fields of the interface. -/
def isInterfaceKey (field : ConfigField) : Bool := field.1 = "privatekey" || field.1 = "listenport"

/-- A cryptokey field of a peer. Its prefixes are written out, with those of `extra`, and a
keepalive of zero is left out. -/
def setconfField (extra : List IpNet) (field : ConfigField) : Option ConfigField :=
  if field.1 = "allowedips" then
    some (field.1, ConfigState.allowedText lib (allowedNets lib field.2 ++ extra))
  else if field.1 = "persistentkeepalive" then
    if parseUnsigned (2 ^ 16) field.2 = some 0 then none else some field
  else if field.1 = "publickey" || field.1 = "presharedkey" || field.1 = "endpoint" then some field
  else none

def ConfigBlocks.setconf (extra : List IpNet) (blocks : ConfigBlocks) : ConfigBlocks :=
  { interface := blocks.interface.map (·.filter isInterfaceKey)
    peers := blocks.peers.map (·.filterMap (setconfField lib extra)) }

/-! ### The peers as the kernel sees them -/

/-- The key by which the kernel identifies the peer. -/
def peerKey (fields : List ConfigField) : Option (List UInt8) :=
  (fields.lookup "publickey").bind lib.decodeBase64

/-- The prefixes that are routed to the peer. -/
def peerNets (fields : List ConfigField) : List IpNet :=
  fields.flatMap fun field => if field.1 = "allowedips" then allowedNets lib field.2 else []

end NetOrchestrator.Daemon
