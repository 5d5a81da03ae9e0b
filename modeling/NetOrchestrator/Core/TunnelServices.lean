import NetOrchestrator.Core.ConfigVault

/-!
# `Core.TunnelServices`: WireGuard tunnels as Windows services

On Windows every WireGuard tunnel is a service of its own. `wireguard.exe` installs it from a config
and names it after the file. The manager installs from a copy of the profile's config, so that the
tunnel sets no routes, and remembers which profiles have a service.

The model has the profiles whose backend is WireGuard. A question to the file system, a write and a
command are steps that may be refused, and then nothing has happened. What the copy says is left
out, since the service has its name from the path.
-/

namespace NetOrchestrator.Core.TunnelServices

open Lib Lib.Call
open Core.Errors Core.Profiles

/-! ### Names -/

/-- The names of a Windows path. -/
def windowsPlace (path : String) : Place :=
  (path.toList.splitOnP fun c => c == '/' || c == '\\').filter fun part => part != [] && part != ['.']

/-- The name without `.conf` or `.conf.dpapi`. -/
def withoutEnding (name : List Char) : Option (List Char) :=
  let lower := name.map Char.toLower
  if ".conf.dpapi".toList.isSuffixOf lower then some (name.take (name.length - 11))
  else if ".conf".toList.isSuffixOf lower then some (name.take (name.length - 5))
  else none

/-- `wireguard_tunnel_name`. -/
def wireguardTunnelName (config : Place) : Except IoError (List Char) :=
  match config.getLast?.filter (· != "..".toList) with
  | none => .error (invalidData "config path has no usable file name")
  | some fileName =>
    match withoutEnding fileName with
    | none =>
      .error (invalidData (s!"unsupported WireGuard config name '{String.ofList fileName}' " ++
        "(expected .conf or .conf.dpapi)"))
    | some [] => .error (invalidData "WireGuard config name has no tunnel name")
    | some stem => .ok stem

/-- The tunnel name of the profile's own config. -/
def tunnelName (profile : Profiles.Profile) : Except IoError (List Char) :=
  wireguardTunnelName (windowsPlace profile.configPath)

/-- What stands behind the name of every tunnel service. -/
def serviceOf (name : List Char) : List Char := "WireGuardTunnel$".toList ++ name

/-- `wireguard_service_name`. -/
def wireguardServiceName (profile : Profiles.Profile) : Except IoError (List Char) :=
  serviceOf <$> tunnelName profile

/-- The arguments of `wg` in `wg_dump`. -/
def wgDumpArgs (profile : Profiles.Profile) : Except IoError (List (List Char)) := do
  let name ← tunnelName profile
  pure ["show".toList, name, "dump".toList]

/-- A command of `wireguard.exe`. -/
inductive ServiceCommand where
  | installTunnelService (config : Place)
  | uninstallTunnelService (name : List Char)
  deriving DecidableEq

/-- `wireguard_disconnect_spec`. -/
def wireguardDisconnectSpec (profile : Profiles.Profile) : Except IoError ServiceCommand :=
  .uninstallTunnelService <$> tunnelName profile

/-- The path of the copy in `wireguard_table_off_config`, beside the config. -/
def transientConfig (profile : Profiles.Profile) : Except IoError Place :=
  let place := windowsPlace profile.configPath
  if place = [] then .error (invalidData "WireGuard config path has no parent directory")
  else do
    let safe ← vaultName profile.id
    pure (place.dropLast ++ [safe ++ ".table-off.conf".toList])

/-! ### The services -/

/-- The service manager, and what the `TunnelManager` remembers. -/
structure Services where
  installed : List (List Char) := []
  wireguardServices : List String := []
  wireguardTransientConfigs : List (String × Place) := []
  deriving DecidableEq

/-- What is done to the services. A step is refused with the error that it reports. -/
abbrev ServiceCall := Call Services IoError IoError

def systemStep {α : Type} (act : Services → Except IoError α × Services) : ServiceCall α :=
  Call.step id act

/-- What `wireguard.exe` does. -/
def ServiceCommand.run (s : Services) : ServiceCommand → Except IoError Unit × Services
  | .installTunnelService config =>
    match config.getLast?.bind withoutEnding with
    | none => (.error (failure "Unable to install the tunnel service"), s)
    | some name =>
      if s.installed.contains name then
        (.error (failure "Tunnel already installed and running"), s)
      else (.ok (), { s with installed := name :: s.installed })
  | .uninstallTunnelService name =>
    if s.installed.contains name then
      (.ok (), { s with installed := s.installed.filter (· != name) })
    else (.error (failure "The specified service does not exist as an installed service."), s)

/-- `run_service_command`. -/
def runServiceCommand (command : ServiceCommand) : ServiceCall Unit := systemStep command.run

/-- A file that is looked for, read or written, or `wireguard.exe` that is looked for. -/
def fileStep : ServiceCall Unit := systemStep fun s => (.ok (), s)

/-- `query_wireguard_service`. -/
def queryWireguardService (profile : Profiles.Profile) : ServiceCall Bool := do
  let service ← ofExcept (wireguardServiceName profile)
  systemStep fun s => (.ok ((s.installed.map serviceOf).contains service), s)

/-- `wireguard_connect_spec`: the config is read, and the copy written and protected. -/
def wireguardConnectSpec (profile : Profiles.Profile) : ServiceCall Place := do
  fileStep
  let transient ← ofExcept (transientConfig profile)
  fileStep
  fileStep
  pure transient

/-- `TunnelManager::connect`. -/
def connect (profile : Profiles.Profile) : ServiceCall Unit := do
  let connected ← gets fun s => s.wireguardServices.contains profile.id
  if connected then
    throw ⟨.alreadyExists, s!"profile '{profile.id}' is already running"⟩
  else
    fileStep
    fileStep
    let present ← queryWireguardService profile
    if present then
      throw ⟨.alreadyExists,
        s!"WireGuard tunnel service for profile '{profile.id}' is already installed"⟩
    else
      let transient ← wireguardConnectSpec profile
      runServiceCommand (.installTunnelService transient)
      modify fun s => { s with
        wireguardServices := profile.id :: s.wireguardServices
        wireguardTransientConfigs := (profile.id, transient) ::
          s.wireguardTransientConfigs.filter (·.1 != profile.id) }

/-- `TunnelManager::disconnect`. -/
def disconnect (profile : Profiles.Profile) : ServiceCall Unit := do
  fileStep
  let command ← ofExcept (wireguardDisconnectSpec profile)
  runServiceCommand command
  modify fun s => { s with
    wireguardServices := s.wireguardServices.filter (· != profile.id)
    wireguardTransientConfigs := s.wireguardTransientConfigs.filter (·.1 != profile.id) }

end NetOrchestrator.Core.TunnelServices
