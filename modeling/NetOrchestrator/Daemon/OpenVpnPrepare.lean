import NetOrchestrator.Core.OpenVpnConfig
import NetOrchestrator.Daemon.AlwaysOn
import NetOrchestrator.Daemon.OpenVpnSession

/-!
# `Daemon.OpenVpnPrepare`: checks before an OpenVPN connect

`prepareOpenvpn` checks a connect request before anything is started: the routes, the role, the
configuration text and the credentials that come with it. Whether the credentials fit is read off
the sanitized text, line by line.

The base64 decoder is a third-party function and a parameter, and so is the root of the staging
directories, which an environment variable may move.
-/

namespace NetOrchestrator.Daemon

open Net Lib
open NetOrchestrator.Core

/-! ### Credentials -/

structure OpenVpnUserPass where
  username : String
  password : String
  deriving DecidableEq

structure OpenVpnCredentials where
  authUserPass : Option OpenVpnUserPass
  privateKeyPassphrase : Option String
  deriving DecidableEq

inductive ManagementCredentialError where
  | missing
  | invalid
  deriving DecidableEq

def maxUsernameBytes : Nat := 256
def maxSecretBytes : Nat := 4096

/-- `safe_credential`. -/
def safeCredential (value : String) (maxBytes : Nat) (allowEmpty : Bool) : Bool :=
  (allowEmpty || value != "") && value.utf8ByteSize ≤ maxBytes && !value.toList.any isControl

/-- `validate_openvpn_credentials`. -/
def validateOpenvpnCredentials (credentials : OpenVpnCredentials) :
    Except ManagementCredentialError Unit :=
  if credentials.authUserPass.isNone && credentials.privateKeyPassphrase.isNone then
    .error .invalid
  else if credentials.authUserPass.any fun auth =>
      !safeCredential auth.username maxUsernameBytes false ||
        !safeCredential auth.password maxSecretBytes true then
    .error .invalid
  else if credentials.privateKeyPassphrase.any fun passphrase =>
      !safeCredential passphrase maxSecretBytes false then
    .error .invalid
  else .ok ()

/-- Whether a line of the sanitized text names a private key. -/
def keyLine (line : List Char) : Bool :=
  line = "<key>".toList || line = "<pkcs12>".toList || "key ".toList.isPrefixOf line ||
    "pkcs12 ".toList.isPrefixOf line

/-- `encrypted_key`, the same search as `has_encrypted_key`. -/
def encryptedKey (bytes : List UInt8) : Bool := hasEncryptedKey bytes

/-- The credential test of `prepare_openvpn`. -/
def credentialsAccepted (config : SanitizedOpenVpnConfig)
    (credentials : Option OpenVpnCredentials) : Bool :=
  let lines := textLines config.config
  let hasAuth := lines.any (· = "auth-user-pass".toList)
  let hasAskpass := lines.any (· = "askpass".toList)
  let hasKey := lines.any keyLine
  let suppliedAuth := credentials.any fun value => value.authUserPass.isSome
  let suppliedKeyPassphrase := credentials.any fun value => value.privateKeyPassphrase.isSome
  !(hasAuth != suppliedAuth || (hasAskpass && !hasKey) ||
    ((hasAskpass || encryptedKey (utf8Bytes config.config.toList)) && !suppliedKeyPassphrase) ||
    (suppliedKeyPassphrase && !hasKey)) &&
  !((config.assets.any fun asset => encryptedKey asset.bytes) && !suppliedKeyPassphrase)

/-! ### The request -/

structure OpenVpnConnectParams where
  profileId : String
  config : String
  /-- Asset bytes in base64, by their references. -/
  assets : TextMap String
  routes : List PolicyRoute
  interfaceName : Option String
  role : TunnelRole
  dnsDomains : List String

/-- The plan of a connect, with the text, the assets and the credentials that the start needs. -/
structure PreparedOpenVpn extends OpenVpnPlan where
  configText : String
  assetBytes : AssetMap
  credentials : Option OpenVpnCredentials

def openvpnRejected : IoError := ⟨.invalidInput, .text "OpenVPN profile is unsupported or unsafe"⟩

/-- `stage_dir`. -/
def stageDir (root : String) (uid : Nat) (name : String) : String :=
  joinPath (joinPath root (Nat.repr uid)) name

/-- The checks of the routes, one after another. `seen` is what came before. -/
def validateOpenvpnRoutes : List IpNet → List PolicyRoute → Except IoError (List IpNet)
  | seen, [] => .ok seen
  | seen, route :: rest =>
    if route.via.isSome || route.destination.trunc != route.destination ||
        route.destination.len == 0 || seen.contains route.destination then
      .error openvpnRejected
    else validateOpenvpnRoutes (route.destination :: seen) rest

/-- `prepare_openvpn`. -/
def prepareOpenvpn (root : String) (decodeBase64 : String → Option (List UInt8)) (uid : Nat)
    (params : OpenVpnConnectParams) (credentials : Option OpenVpnCredentials) :
    Except IoError PreparedOpenVpn := do
  (validateOwner ("ovpn:" ++ params.profileId)).mapError fun _ => openvpnRejected
  if credentials.any fun value => !(validateOpenvpnCredentials value).isOk then
    .error openvpnRejected
  else if 64 < params.routes.length then .error openvpnRejected
  else do
    let seen ← validateOpenvpnRoutes [] params.routes
    if seen.contains lowerIpv4 && seen.contains upperIpv4 then .error openvpnRejected
    else do
      (validateSecondary params.role params.routes params.dnsDomains).mapError
        fun _ => openvpnRejected
      let (name, fallbackName) :=
        tunnelLinkNames "ovpn-" uid params.profileId params.interfaceName
      if 32 < params.assets.entries.length then .error openvpnRejected
      else if params.assets.values.any fun encoded => (decodeBase64 encoded).isNone then
        .error openvpnRejected
      else do
        let assetBytes := params.assets.map fun encoded => (decodeBase64 encoded).getD []
        let config ← (sanitizeOpenvpnConfig params.config assetBytes
          (stageDir root uid name)).mapError fun _ => openvpnRejected
        if !credentialsAccepted config credentials then .error openvpnRejected
        else
          pure
            { profileId := params.profileId
              name
              fallbackName
              routes := params.routes
              role := params.role
              dnsDomains := params.dnsDomains
              configText := params.config
              assetBytes
              credentials }

end NetOrchestrator.Daemon
