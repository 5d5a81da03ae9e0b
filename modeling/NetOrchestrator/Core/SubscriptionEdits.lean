import NetOrchestrator.Core.ConfigVault
import NetOrchestrator.Core.Subscription

/-!
# `Core.SubscriptionEdits`: subscriptions on disk

Importing a subscription, refreshing it and choosing another endpoint each make a chain of writes:
a config in a new revision, the endpoints, the profile, and last the revision that is not needed
any more. Where one of them fails, the operation takes back those before.
-/

namespace NetOrchestrator.Core.Profiles

open Lib Core.Errors
open Daemon (trim)

/-- What is the same for all calls. `checkUrl` is `validate_url`, `platform` is
`XrayMode::platform_default`. -/
structure VaultSetting where
  checks : ProfileChecks
  crates : SubscriptionCrates
  checkUrl : String → Except IoError Unit
  platform : XrayMode
  root : VaultRoot

/-- What a call meets: the clock in nanoseconds besides, and the write that fails. -/
structure Occasion where
  around : Surroundings
  nanos : Nat
  fault : Option Fault

/-- The endpoints are those on disk. -/
def Occasion.surroundings (occasion : Occasion) (state : VaultState) : Surroundings :=
  { occasion.around with endpoints := readEndpoints state }

/-! ### Importing -/

structure SubscriptionImport where
  id : String
  url : String
  hwid : String
  name : String
  refreshIntervalMinutes : Option Nat

structure BatchImportError where
  path : String
  error : String
  deriving DecidableEq

structure BatchImportResult where
  profiles : List Profile
  errors : List BatchImportError

/-- What `import_body` has found before it stores a config. -/
structure ImportStage where
  socks : Nat
  http : Nat
  first : SubscriptionEndpoint
  config : Json
  later : List SubscriptionEndpoint
  errors : List BatchImportError
  skippedProtocols : List String

/-- What an import says about entries that it leaves out. -/
def importErrors (links : ShareLinks) (socks http unsupported : Nat) (urls : List String) :
    List BatchImportError :=
  (if unsupported ≠ 0 then
    [⟨"Subscription", s!"{unsupported} unsupported share link(s) skipped"⟩] else []) ++
  urls.zipIdx.filterMap fun entry =>
    match links.generate entry.1 socks http with
    | .ok _ => none
    | .error _ => some ⟨s!"Endpoint {entry.2 + 1}", "Invalid or unsupported share link"⟩

variable (setting : VaultSetting)

/-- `import_body` before its first write. -/
def importPlan (around : Surroundings) (request : SubscriptionImport)
    (body : String) (file : Option ProfileDocument) : Except IoError ImportStage := do
  let _ ← vaultName request.id
  setting.checkUrl request.url
  checkBody body
  checkInterval request.refreshIntervalMinutes
  let document ← load setting.checks file
  if (findProfile request.id document.profiles).isSome then
    throw (invalidInput "A profile with this identifier already exists")
  let (urls, unsupported, skippedProtocols) := setting.crates.parseBody body
  if urls.isEmpty then
    throw (invalidInput "Subscription contained no supported share links")
  if isUnsupportedClientPlaceholder setting.crates urls then
    throw (invalidInput unsupportedClientMessage)
  let used := profileListenerPorts around.configs document.profiles ""
  let (socks, http) ← selectGeneratedPorts none none used around.available
  match usableEndpoints setting.crates.links socks http 0 urls with
  | [] => throw (invalidInput "Subscription contained no valid share links")
  | (first, config) :: rest =>
    pure { socks, http, first, config, later := rest.map Prod.fst,
           errors := importErrors setting.crates.links socks http unsupported urls,
           skippedProtocols }

/-- The profile that `import_body` stores. -/
def importedSubscription (now : Nat) (request : SubscriptionImport)
    (response : ResponseMeta) (stage : ImportStage) (configPath : String) : Profile :=
  { id := request.id
    name :=
      if isBlank request.name then
        subscriptionProfileName response.providerTitle stage.first.name
      else trim request.name
    backend := .xray
    configPath
    xraySocksPort := some stage.socks
    xrayHttpPort := some stage.http
    xrayMode := setting.platform
    subscription := some
      { url := trim request.url
        hwid := request.hwid
        endpointCount := stage.later.length + 1
        activeIndex := 0
        refreshIntervalMinutes := request.refreshIntervalMinutes
        lastRefreshAtUnix := some now
        userInfo := response.userInfo
        providerTitle := response.providerTitle
        announce := response.announce
        supportUrl := response.supportUrl
        webPageUrl := response.webPageUrl
        updateIntervalHours := response.updateIntervalHours
        skippedProtocols := stage.skippedProtocols
        activeKey := some (endpointKey setting.crates.keys stage.first.url) } }

/-- The endpoints, then the profile. -/
def storeSubscription (endpoints : List SubscriptionEndpoint)
    (profile : Profile) (fault : Option Fault) (state : VaultState) :
    Except IoError ProfileDocument × VaultState :=
  match storeSubscriptionEndpoints endpoints fault state with
  | (.error e, state) => (.error e, state)
  | (.ok (), state) => upsertProfile setting.checks profile fault state

/-- `import_body`. -/
def importBody (occasion : Occasion) (request : SubscriptionImport)
    (body : String) (response : ResponseMeta) (state : VaultState) :
    Except IoError BatchImportResult × VaultState :=
  match importPlan setting occasion.around request body state.store with
  | .error e => (.error e, state)
  | .ok stage =>
    match storeGeneratedXray setting.root request.id occasion.nanos stage.config occasion.fault
        state with
    | (.error e, state) => (.error e, state)
    | (.ok configPath, state) =>
      let profile := importedSubscription setting occasion.around.now request response stage
        configPath
      match storeSubscription setting (stage.first :: stage.later) profile occasion.fault
          state with
      | (.ok document, state) => (.ok ⟨document.profiles, stage.errors⟩, state)
      | (.error e, state) => (.error e, removeProfileDir setting.root request.id state)

/-! ### Another endpoint -/

/-- The revision of the old config goes, where it is one of the profile. -/
def removeOldRevision (occasion : Occasion) (id oldPath : String)
    (state : VaultState) : Except IoError Unit × VaultState :=
  if isManagedProfilePath setting.root id oldPath then
    removeRevisionForConfig setting.root oldPath occasion.fault state
  else (.ok (), state)

/-- `switch_endpoint_key` up to its `upsert`: the profile as it was, and the document. -/
def storeSwitched (occasion : Occasion) (id key : String)
    (state : VaultState) : Except IoError (Profile × ProfileDocument) × VaultState :=
  match (do
      checkKey key
      let document ← load setting.checks state.store
      switchPlan setting.crates (occasion.surroundings state) id key document) with
  | .error e => (.error e, state)
  | .ok (endpoints, stage) =>
    match storeGeneratedXray setting.root id occasion.nanos stage.config occasion.fault
        state with
    | (.error e, state) => (.error e, state)
    | (.ok configPath, state) =>
      match upsertProfile setting.checks (switchedProfile key endpoints stage configPath)
          occasion.fault state with
      | (.error e, state) =>
        (.error e, (removeRevisionForConfig setting.root configPath none state).2)
      | (.ok document, state) => (.ok (stage.profile, document), state)

/-- `switch_endpoint_key`. An old revision that cannot be removed is an error. -/
def switchEndpoint (occasion : Occasion) (id key : String)
    (state : VaultState) : Except IoError ProfileDocument × VaultState :=
  match storeSwitched setting occasion id key state with
  | (.error e, state) => (.error e, state)
  | (.ok (old, document), state) =>
    let (removed, state) := removeOldRevision setting occasion id old.configPath state
    (removed.map fun _ => document, state)

/-! ### A fresh body -/

structure RefreshOutcome where
  endpointCount : Nat
  activeIndex : Nat
  skippedCount : Nat
  fallbackUsed : Bool
  cleanupFailed : Bool
  deriving DecidableEq

/-- The endpoints as they were. Where they are, nothing is written. -/
def restoreEndpoints (previous : List SubscriptionEndpoint) (state : VaultState) :
    Bool × VaultState :=
  match readEndpoints state with
  | .ok current =>
    if current = previous then (true, state)
    else
      let (stored, state) := storeSubscriptionEndpoints previous none state
      (stored.isOk, state)
  | .error _ =>
    let (stored, state) := storeSubscriptionEndpoints previous none state
    (stored.isOk, state)

/-- The `rollback` and the `failure_message` of `refresh_body`. -/
def rollbackRefresh (previous : List SubscriptionEndpoint)
    (newPath message : String) (state : VaultState) : Except IoError RefreshStage × VaultState :=
  let (restored, state) := restoreEndpoints previous state
  let (removed, state) := removeRevisionForConfig setting.root newPath none state
  if restored && removed.isOk then (.error (invalidInput message), state)
  else (.error (failure "subscription refresh failed; rollback incomplete"), state)

/-- `refresh_body` up to its `upsert`: what the refresh has found. -/
def storeRefreshed (occasion : Occasion) (id body : String)
    (response : ResponseMeta) (state : VaultState) : Except IoError RefreshStage × VaultState :=
  match (do
      checkBody body
      let document ← load setting.checks state.store
      refreshPlan setting.crates (occasion.surroundings state) id body document) with
  | .error e => (.error e, state)
  | .ok (previous, stage) =>
    match storeGeneratedXray setting.root id occasion.nanos stage.config occasion.fault
        state with
    | (.error e, state) => (.error e, state)
    | (.ok newPath, state) =>
      match storeSubscriptionEndpoints stage.endpoints occasion.fault state with
      | (.error _, state) =>
        rollbackRefresh setting previous newPath "failed to store refreshed endpoints" state
      | (.ok (), state) =>
        match upsertProfile setting.checks
            (refreshedProfile setting.crates response occasion.around.now previous stage
              newPath) occasion.fault state with
        | (.error _, state) =>
          rollbackRefresh setting previous newPath "failed to store refreshed profile"
            state
        | (.ok _, state) => (.ok stage, state)

/-- `refresh_body`. An old revision that cannot be removed is only reported. -/
def refreshSubscription (occasion : Occasion) (id body : String)
    (response : ResponseMeta) (state : VaultState) : Except IoError RefreshOutcome × VaultState :=
  match storeRefreshed setting occasion id body response state with
  | (.error e, state) => (.error e, state)
  | (.ok stage, state) =>
    let (removed, state) := removeOldRevision setting occasion id stage.profile.configPath state
    (.ok
      { endpointCount := stage.endpoints.length
        activeIndex := stage.activeIndex
        skippedCount := stage.skippedCount
        fallbackUsed := stage.fallbackUsed
        cleanupFailed := !removed.isOk }, state)

/-! ### The edits -/

inductive SubscriptionEdit where
  | importBody (request : SubscriptionImport) (body : String) (response : ResponseMeta)
  | refreshBody (id body : String) (response : ResponseMeta)
  | switchEndpointKey (id key : String)

/-- The profile that the edit is about. -/
def SubscriptionEdit.id : SubscriptionEdit → String
  | .importBody request _ _ => request.id
  | .refreshBody id _ _ | .switchEndpointKey id _ => id

/-- Whether the edit went through, and what is on disk then. -/
def runEdit (occasion : Occasion) (state : VaultState) :
    SubscriptionEdit → Except IoError Unit × VaultState
  | .importBody request body response =>
    let (result, state) := importBody setting occasion request body response state
    (result.map fun _ => (), state)
  | .refreshBody id body response =>
    let (result, state) := refreshSubscription setting occasion id body response state
    (result.map fun _ => (), state)
  | .switchEndpointKey id key =>
    let (result, state) := switchEndpoint setting occasion id key state
    (result.map fun _ => (), state)

end NetOrchestrator.Core.Profiles
