import NetOrchestrator.Core.ConfigVault

/-!
# `Core.ConnectPorts`: moving a profile off occupied ports

Before a profile is connected, `prepareConnectPorts` looks whether its ports are free. Otherwise it
writes a new revision of the config, puts it into the caller's profile and into the store, and
removes the old one. It works on what is on disk and on the profile and the list that the caller
has read (`Caller`). Any of its writes may fail, and then leaves things as they were.
-/

namespace NetOrchestrator.Core.Profiles

open Lib Core.Errors

/-- What a call meets. `unreadable` is the error of a config that is there, and `nanos` the clock.
The others say which writes fail. -/
structure PortMove where
  root : VaultRoot
  checks : ProfileChecks
  available : Nat → Bool
  listeners : Profile → Except IoError (List (String × Nat))
  unreadable : Option IoError
  nanos : Nat
  storeFails : Bool
  updateFails : Bool
  removeFails : Bool

/-- The disk, and what the caller has in hand. -/
structure Caller where
  state : VaultState
  profile : Profile
  profiles : List Profile

namespace PortMove

variable (move : PortMove) (state : VaultState)

def storeFault : Option Fault :=
  if move.storeFails then some .storeConfig else none

def removeFault : Option Fault :=
  if move.removeFails then some .removeRevision else none

/-- `read_xray_config`, and the parser. -/
def readConfig (path : String) : Except IoError Json :=
  match configAt path state with
  | none => .error ⟨.notFound, "No such file or directory"⟩
  | some config =>
    match move.unreadable with
    | some e => .error e
    | none => .ok config

/-- The config files as the vault has them. -/
def configs : Configs where
  listeners := move.listeners
  read path _ := move.readConfig state path
  store id config := (storeGeneratedXray move.root id move.nanos config move.storeFault state).1
  isManaged := isManagedProfilePath move.root

/-- `rewrite_generated_proxy_ports`, with what it leaves on disk. -/
def rewriteProxyPorts (profile : Profile) (newSocks : Nat)
    (newHttp : Option Nat) (state : VaultState) : Except IoError Profile × VaultState :=
  if profile.backend ≠ .xray ∨ profile.xraySocksPort = none ∨
      isManagedProfilePath move.root profile.id profile.configPath = false then
    (.error (failure "profile does not use a managed generated Xray config"), state)
  else if newSocks = 0 ∨ newHttp = some 0 ∨ newHttp = some newSocks ∨
      profile.xrayHttpPort.isSome ≠ newHttp.isSome then
    (.error (failure "generated Xray listener ports are invalid"), state)
  else
    match move.readConfig state profile.configPath >>= (rewrittenConfig · newSocks newHttp) with
    | .error e => (.error e, state)
    | .ok config =>
      match storeGeneratedXray move.root profile.id move.nanos config move.storeFault state with
      | (.error e, state) => (.error e, state)
      | (.ok configPath, state) =>
        (.ok { profile with
          configPath, xraySocksPort := some newSocks, xrayHttpPort := newHttp }, state)

/-- `ProfileStore::update_profile` on disk. -/
def updateStored (id : String) (update : Profile → Except IoError Profile)
    (state : VaultState) : Except IoError ProfileDocument × VaultState :=
  if move.updateFails then (.error writeFailed, state)
  else
    match updateProfile move.checks id update state.store with
    | .error e => (.error e, state)
    | .ok document => (.ok document, { state with store := some document })

end PortMove

/-- The notices about the ports that have changed. -/
def portNotices (old new : Profile) : String :=
  let socks :=
    match old.xraySocksPort, new.xraySocksPort with
    | some port, some newPort =>
      if port ≠ newPort then [s!"SOCKS5 port changed from {port} to {newPort}."] else []
    | _, _ => []
  let http :=
    match old.xrayHttpPort, new.xrayHttpPort with
    | some port, some newPort =>
      if port ≠ newPort then [s!"HTTP port changed from {port} to {newPort}."] else []
    | _, _ => []
  " ".intercalate (socks ++ http)

variable (move : PortMove)

/-- The end of `prepare_connect_ports`: the old revision goes. -/
def dropOldRevision (old moved : Profile) (caller : Caller) :
    Except IoError (Option String) × Caller :=
  if isManagedProfilePath move.root caller.profile.id old.configPath then
    match removeRevisionForConfig move.root old.configPath move.removeFault caller.state with
    | (.error e, state) => (.error e, { caller with state })
    | (.ok (), state) => (.ok (some (portNotices old moved)), { caller with state })
  else (.ok (some (portNotices old moved)), caller)

/-- `prepare_connect_ports`: the result, and what it leaves on disk and in the caller's hands. -/
def prepareConnectPorts (caller : Caller) : Except IoError (Option String) × Caller :=
  match selectConnectPorts (move.configs caller.state) caller.profiles caller.profile
      move.available with
  | .error e => (.error e, caller)
  | .ok none => (.ok none, caller)
  | .ok (some (newSocks, newHttp)) =>
    match move.rewriteProxyPorts caller.profile newSocks newHttp caller.state with
    | (.error e, state) => (.error e, { caller with state })
    | (.ok moved, state) =>
      match move.updateStored moved.id (movePorts caller.profile moved) state with
      | (.error e, state) =>
        -- The new revision goes again, and the profile keeps its path.
        let (_, state) := removeRevisionForConfig move.root moved.configPath
          move.removeFault state
        (.error e, { caller with state, profile := moved })
      | (.ok document, state) =>
        -- The updated profile is in the document.
        let stored := (findProfile moved.id document.profiles).getD moved
        dropOldRevision move caller.profile moved
          { state
            profile := stored
            profiles := replaceProfile stored.id stored caller.profiles }

/-- `free_listener_ports`, which ignores the error. The profile is connected with what it says
then. -/
def freeListenerPorts (state : VaultState) (profile : Profile) : VaultState × Profile :=
  match load move.checks state.store with
  | .error _ => (state, profile)
  | .ok document =>
    let after := (prepareConnectPorts move ⟨state, profile, document.profiles⟩).2
    (after.state, after.profile)

end NetOrchestrator.Core.Profiles
