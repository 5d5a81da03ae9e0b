import NetOrchestrator.Core.Profiles
import NetOrchestrator.Lib.Windows

/-!
# `Core.ProfileImport`: listener ports of profiles

A generated Xray profile listens on two loopback ports. They are chosen so that no other profile
uses them, in the document that the caller has read: `importShareLink` reads it itself, and the
callers of `prepareConnectPorts` read it before they call.

Both work in two steps on the store, which is what `portCalls` says. The files of the vault come in
as `Configs`, since they are the call's own and nothing here depends on what they say.
-/

namespace NetOrchestrator.Core.Profiles

open Lib Core.Errors
open Daemon (trim isAsciiAlphanumeric)

/-! ### Choosing ports -/

def autoSocksPortStart : Nat := 10808
def autoSocksPortEnd : Nat := 10999

/-- The automatic range, its last port included. -/
def autoSocksPorts : List Nat :=
  List.range' autoSocksPortStart (autoSocksPortEnd + 1 - autoSocksPortStart)

/-- `select_available_socks_port`. -/
def selectAvailableSocksPort (used : List Nat) (available : Nat → Bool) : Except IoError Nat :=
  match autoSocksPorts.find? fun port => !used.contains port && available port with
  | some port => .ok port
  | none => .error (failure
      s!"no available SOCKS5 port in automatic range {autoSocksPortStart}-{autoSocksPortEnd}")

/-- Whether a port that the profile had may stay. -/
def mayStay (used : List Nat) (available : Nat → Bool) (port : Nat) : Bool :=
  port != 0 && !used.contains port && available port

def generatedSocksPort (preferred : Option Nat) (used : List Nat) (available : Nat → Bool) :
    Except IoError Nat :=
  match preferred with
  | some port =>
    if mayStay used available port then .ok port
    else .error (failure "SOCKS5 port is unavailable")
  | none => selectAvailableSocksPort used available

def generatedHttpPort (preferred : Option Nat) (reserved : List Nat) (available : Nat → Bool) :
    Except IoError Nat :=
  match preferred.filter (mayStay reserved available) with
  | some port => .ok port
  | none => selectAvailableSocksPort reserved available

/-- `select_generated_ports`. -/
def selectGeneratedPorts (preferredSocks preferredHttp : Option Nat) (used : List Nat)
    (available : Nat → Bool) : Except IoError (Nat × Nat) := do
  let socks ← generatedSocksPort preferredSocks used available
  let http ← generatedHttpPort preferredHttp (socks :: used) available
  pure (socks, http)

/-! ### What a call works with -/

/-- The config files while a call runs: the listeners that `analyze_profile` finds, a config that
is read, and the path of a config that is stored. -/
structure Configs where
  listeners : Profile → Except IoError (List (String × Nat))
  read : String → String → Except IoError Json
  store : String → Json → Except IoError String
  isManaged : String → String → Bool

/-- Share links: the config of a link on two ports, and the name in it. -/
structure ShareLinks where
  generate : String → Nat → Nat → Except IoError Json
  name : String → Option String

/-- What is the same for all calls. `platform` is `XrayMode::platform_default`. -/
structure Setting where
  checks : ProfileChecks
  links : ShareLinks
  platform : XrayMode
  available : Nat → Bool

def Profile.listenerPorts (profile : Profile) : List Nat :=
  profile.xraySocksPort.toList ++ profile.xrayHttpPort.toList

/-- The addresses on which a listener of a config takes a local port. -/
def localAddresses : List String := ["127.0.0.1", "0.0.0.0", "::", ""]

def configPorts (configs : Configs) (profile : Profile) : List Nat :=
  match configs.listeners profile with
  | .ok listeners =>
    (listeners.filter fun listener => localAddresses.contains listener.1).map Prod.snd
  | .error _ => []

/-- `profile_listener_ports`. -/
def profileListenerPorts (configs : Configs) (profiles : List Profile) (excludeId : String) :
    List Nat :=
  (profiles.filter fun profile => profile.id != excludeId).flatMap fun profile =>
    profile.listenerPorts ++ configPorts configs profile

/-! ### Connecting -/

/-- A port that is occupied is replaced. -/
def connectPort (used : List Nat) (available : Nat → Bool) (port : Nat) : Except IoError Nat :=
  if available port then .ok port else selectAvailableSocksPort used available

def connectHttpPort (used : List Nat) (available : Nat → Bool) :
    Option Nat → Except IoError (Option Nat)
  | none => .ok none
  | some port => (connectPort used available port).map some

/-- `select_connect_ports`. -/
def selectConnectPorts (configs : Configs) (profiles : List Profile) (profile : Profile)
    (available : Nat → Bool) : Except IoError (Option (Nat × Option Nat)) :=
  match profile.xraySocksPort with
  | none => .ok none
  | some socksPort =>
    if available socksPort && profile.xrayHttpPort.all available then .ok none
    else do
      let used := profile.xrayHttpPort.toList ++ profileListenerPorts configs profiles profile.id
      let socks ← connectPort used available socksPort
      let http ← connectHttpPort (socks :: used) available profile.xrayHttpPort
      pure (some (socks, http))

/-- The first inbound with the tag, on another port. -/
def withInboundPort (tag : String) (port : Nat) (inbounds : List Json) :
    Except IoError (List Json) :=
  match inbounds with
  | [] => .error (failure s!"generated config has no '{tag}' inbound")
  | inbound :: rest =>
    if inbound.text? "tag" = some tag then
      match inbound.put "port" (.nat port) with
      | some inbound => .ok (inbound :: rest)
      | none => .error (failure s!"generated config has no '{tag}' inbound")
    else do
      let rest ← withInboundPort tag port rest
      pure (inbound :: rest)

/-- The config with its inbounds on the new ports. -/
def rewrittenConfig (doc : Json) (newSocks : Nat) (newHttp : Option Nat) : Except IoError Json :=
  match (doc.index "inbounds").asArray with
  | none => .error (failure "generated config has no inbounds array")
  | some inbounds => do
      let inbounds ← withInboundPort "socks-in" newSocks inbounds
      let inbounds ←
        match newHttp with
        | some port => withInboundPort "http-in" port inbounds
        | none => .ok inbounds
      match doc.put "inbounds" (.arr inbounds) with
      | some doc => .ok doc
      | none => .error (failure "generated config has no inbounds array")

/-- `rewrite_generated_proxy_ports`: the profile on the new ports and the new revision. -/
def rewriteGeneratedProxyPorts (configs : Configs) (profile : Profile) (newSocks : Nat)
    (newHttp : Option Nat) : Except IoError Profile :=
  if profile.backend ≠ .xray ∨ profile.xraySocksPort = none ∨
      configs.isManaged profile.id profile.configPath = false then
    .error (failure "profile does not use a managed generated Xray config")
  else if newSocks = 0 ∨ newHttp = some 0 ∨ newHttp = some newSocks ∨
      profile.xrayHttpPort.isSome ≠ newHttp.isSome then
    .error (failure "generated Xray listener ports are invalid")
  else do
    let doc ← configs.read profile.configPath profile.id
    let doc ← rewrittenConfig doc newSocks newHttp
    let configPath ← configs.store profile.id doc
    pure { profile with configPath, xraySocksPort := some newSocks, xrayHttpPort := newHttp }

/-- The change that `prepare_connect_ports` makes to the stored profile. `old` is the profile that
the caller has read. -/
def movePorts (old new stored : Profile) : Except IoError Profile :=
  if stored.configPath ≠ old.configPath ∨ stored.xraySocksPort ≠ old.xraySocksPort ∨
      stored.xrayHttpPort ≠ old.xrayHttpPort then
    .error (failure "profile changed while preparing listener ports")
  else
    .ok { stored with
      configPath := new.configPath
      xraySocksPort := new.xraySocksPort
      xrayHttpPort := new.xrayHttpPort }

/-- `prepare_connect_ports` up to its update: the profile on its new ports, if it has to move. -/
def preparePorts (setting : Setting) (configs : Configs) (document : ProfileDocument)
    (profile : Profile) : Except IoError (Option Profile) := do
  let selected ← selectConnectPorts configs document.profiles profile setting.available
  match selected with
  | none => pure none
  | some ports => (rewriteGeneratedProxyPorts configs profile ports.1 ports.2).map some

/-! ### Importing -/

/-- `is_safe_id`. -/
def isSafeId (id : String) : Bool :=
  id != "" &&
    (id.toList.all fun c => isAsciiAlphanumeric c || c == '-' || c == '_') &&
      !(id.toList.all fun c => c == '_')

/-- `sanitize_profile_id`, as far as it refuses. -/
def sanitizeProfileId (id : String) : Except IoError Unit :=
  if isSafeId (id.map fun c => if isAsciiAlphanumeric c || c == '-' || c == '_' then c else '_')
  then .ok ()
  else .error (invalidInput "profile id cannot be used to name a vault directory")

/-- The checks of a share link before the store is read. -/
def checkShareLink (id link : String) : Except IoError Unit := do
  sanitizeProfileId id
  if link = "" ∨ 65536 < link.utf8ByteSize ∨ link.toList.contains '\r' ∨
      link.toList.contains '\n' then
    throw (invalidInput "Paste one supported share link")

/-- A name that is given, else the one in the link. -/
def importedName (links : ShareLinks) (name link : String) : String :=
  if isBlank name then (links.name link).getD "Imported connection" else trim name

/-- `import_share_link` between its reading of the store and its `upsert`. -/
def importedProfile (setting : Setting) (configs : Configs) (id name link : String)
    (document : ProfileDocument) : Except IoError Profile :=
  if document.profiles.any fun profile => profile.id == id then
    .error ⟨.alreadyExists, "A profile with this identifier already exists"⟩
  else do
    let used := profileListenerPorts configs document.profiles id
    let (socks, http) ← selectGeneratedPorts none none used setting.available
    let config ← (setting.links.generate link socks http).mapError fun _ =>
      invalidInput "Invalid or unsupported share link. Use vless://, hysteria2:// or hy2://."
    let configPath ← configs.store id config
    let profile : Profile :=
      { id
        name := importedName setting.links name link
        backend := .xray
        configPath
        xraySocksPort := some socks
        xrayHttpPort := some http
        xrayMode := setting.platform }
    let _ ← configs.listeners profile
    pure profile

/-! ### Calls on the store -/

/-- A call with the config files that it meets. -/
inductive PortCall where
  | importShareLink (id name link : String) (configs : Configs)
  | prepareConnectPorts (id : String) (configs : Configs)

/-- The profile that the call is about. -/
def PortCall.id : PortCall → String
  | .importShareLink id _ _ _ | .prepareConnectPorts id _ => id

def PortCall.configs : PortCall → Configs
  | .importShareLink _ _ _ configs | .prepareConnectPorts _ configs => configs

/-- The first step. -/
def PortCall.read (setting : Setting) (file : Option ProfileDocument) :
    PortCall → Except IoError ProfileDocument
  | .importShareLink id _ link _ => do
      checkShareLink id (trim link)
      load setting.checks file
  | .prepareConnectPorts _ _ => load setting.checks file

/-- The rest, with the store as it is by then. A profile whose ports are free stays as it is. -/
def PortCall.write (setting : Setting) (document : ProfileDocument)
    (file : Option ProfileDocument) : PortCall → Except IoError (Option ProfileDocument)
  | .importShareLink id name link configs => do
      let profile ← importedProfile setting configs id name (trim link) document
      (upsert setting.checks profile file).map some
  | .prepareConnectPorts id configs =>
    match findProfile id document.profiles with
    | none => throw ⟨.notFound, "profile not found"⟩
    | some profile => do
        let moved ← preparePorts setting configs document profile
        match moved with
        | none => pure file
        | some moved =>
          (updateProfile setting.checks id (movePorts profile moved) file).map some

/-- The calls over one store. A call that returns an error takes no further step. -/
def portCalls {ι : Type} (setting : Setting) (calls : ι → PortCall) :
    Windows.Calls (Option ProfileDocument) ProfileDocument ι where
  read i file := ((calls i).read setting file).toOption
  write i document file := ((calls i).write setting document file).toOption

end NetOrchestrator.Core.Profiles
