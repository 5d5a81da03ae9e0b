import NetOrchestrator.Core.NodePool
import NetOrchestrator.Core.ProfileFields
import NetOrchestrator.Core.ProfileImport

/-!
# `Core.Subscription`: what is done to the profile of a subscription

A subscription is a profile with a list of endpoints beside its config. The operations change a
profile that they have read, and hand it to `upsert`. The changes come first: each takes the
profile and what else the operation has found, and gives the profile to be stored. Then
`profileCalls` has the operations as calls on the store, with a step for `load` and a step for
`upsert`.

Bodies and share links are parsed by parts that come in as `SubscriptionCrates`.
-/

namespace NetOrchestrator.Core.Profiles

open Lib Core.Errors
open Lib.Checks (bind_eq_ok mapError_eq_ok)
open Daemon (trim stripPrefix isWhitespace)

/-- `parseBody` is `parse_subscription_body_detailed`: the entries, the number of those that are
not supported, and their schemes. -/
structure SubscriptionCrates where
  keys : KeyCrates
  links : ShareLinks
  text : NetText
  lowercase : String → String
  parseBody : String → List String × Nat × List String

structure ResponseMeta where
  userInfo : Option SubscriptionUserInfo := none
  providerTitle : Option String := none
  announce : Option String := none
  supportUrl : Option String := none
  webPageUrl : Option String := none
  updateIntervalHours : Option Nat := none
  deriving DecidableEq

/-- `MAX_SUBSCRIPTION_BODY_BYTES`. -/
def maxSubscriptionBodyBytes : Nat := 4 * 1024 * 1024

/-! ### Names -/

def titleSeparators : List Char := ['-', '–', '—', '|', '·', '•']

/-- `subscription_profile_name`. -/
def subscriptionProfileName (providerTitle : Option String) (endpointName : String) : String :=
  match (providerTitle.map trim).filter (· != "") with
  | none => endpointName
  | some title =>
    let joined := title ++ " · " ++ endpointName
    match stripPrefix title endpointName with
    | none => joined
    | some rest =>
      let rest := rest.toList.dropWhile isWhitespace
      if rest.head?.any titleSeparators.contains then
        let stripped := trim (String.ofList (rest.dropWhile (' ' :: titleSeparators).contains))
        if stripped == "" then title else title ++ " · " ++ stripped
      else if endpointName == title then title
      else joined

/-- Behind the last occurrence of the separator. -/
def behindLastOnce (separator : String) (name : String) : Option String :=
  (splitOnce separator.toList.reverse name.toList.reverse).map fun parts =>
    String.ofList parts.1.reverse

/-- `endpoint_tail`. -/
def endpointTail (endpointName : String) : String :=
  let tails := [" · ", " • ", " - ", " – ", " — ", " | "].filterMap fun separator =>
    (behindLastOnce separator endpointName).map trim
  (tails.find? (· != "")).getD endpointName

/-- `auto_profile_name_matches`. -/
def autoProfileNameMatches (providerTitle : Option String) (endpointName profileName : String) :
    Bool :=
  endpointName == profileName ||
    subscriptionProfileName providerTitle endpointName == profileName ||
    endpointTail endpointName == profileName ||
    subscriptionProfileName providerTitle profileName ==
      subscriptionProfileName providerTitle endpointName

/-- `is_generated_name`. -/
def isGeneratedName (name : String) (providerTitle : Option String)
    (endpoints : List SubscriptionEndpoint) : Bool :=
  endpoints.any fun endpoint => autoProfileNameMatches providerTitle endpoint.name name

/-- Generated names follow the selection; a name that the user chose is kept. -/
def followedName (profile : Profile) (storedTitle title : Option String)
    (known : List SubscriptionEndpoint) (selected : String) : String :=
  if isGeneratedName profile.name storedTitle known then subscriptionProfileName title selected
  else profile.name

/-! ### Changes of settings -/

/-- Change the subscription of a profile that has one. -/
def Profile.modifySubscription (profile : Profile) (change : SubscriptionMeta → SubscriptionMeta) :
    Profile :=
  { profile with subscription := profile.subscription.map change }

/-- `subscription_profile`. -/
def subscriptionProfile (id : String) (document : ProfileDocument) : Except IoError Profile :=
  match document.profiles.find? fun profile => profile.id == id && profile.subscription.isSome with
  | some profile => .ok profile
  | none => .error (invalidInput "Profile is not a subscription")

variable (keys : KeyCrates) (crates : SubscriptionCrates) (around : Surroundings)

/-- The key of the primary as `set_backup_endpoints` takes it. -/
def activeKeyOf (profile : Profile) (endpoints : List SubscriptionEndpoint) : Option String :=
  (storedActiveKey profile).or
    (profile.subscription.bind fun subscription =>
      (endpoints[subscription.activeIndex]?).map fun endpoint => endpointKey keys endpoint.url)

/-- The backups that the keys name, each with the name of its endpoint. -/
def backupRefs (keys : KeyCrates) (endpoints : List SubscriptionEndpoint) :
    List String → List String → Except IoError (List EndpointRef)
  | _, [] => .ok []
  | seen, key :: rest =>
    if !validEndpointKey key then .error (invalidInput "Invalid endpoint key")
    else if seen.contains key then .error (invalidInput "Duplicate failover endpoint")
    else do
      let later ← backupRefs keys endpoints (key :: seen) rest
      let name := ((keyIndex keys endpoints key).bind fun index =>
        (endpoints[index]?).map (·.name)).getD key
      pure (⟨key, name⟩ :: later)

/-- `set_backup_endpoints`. -/
def setBackupEndpoints (keys : List String)
    (endpoints : List SubscriptionEndpoint) (profile : Profile) : Except IoError Profile := do
  let refs ← backupRefs crates.keys endpoints [] keys
  let active := activeKeyOf crates.keys profile endpoints
  let refs := refs.filter fun reference => some reference.key != active
  pure (profile.modifySubscription fun subscription => { subscription with backupKeys := refs })

/-- `set_auto_return_primary`. -/
def setAutoReturnPrimary (enabled : Bool) (profile : Profile) : Profile :=
  profile.modifySubscription fun subscription =>
    { subscription with autoReturnPrimary := some enabled }

/-- `set_refresh_interval`. -/
def setRefreshInterval (minutes : Option Nat) (now : Nat) (profile : Profile) : Profile :=
  profile.modifySubscription fun subscription =>
    { subscription with refreshIntervalMinutes := minutes, lastRefreshAtUnix := some now }

/-- `record_refresh_failure`. -/
def recordRefreshFailure (now : Nat) (profile : Profile) : Profile :=
  profile.modifySubscription fun subscription =>
    { subscription with
      lastRefreshAtUnix := some now
      lastRefreshError := some "Refresh failed" }

/-- A reference takes the name of its endpoint, where that is still listed. -/
def namedRef (endpoints : List SubscriptionEndpoint) (reference : EndpointRef) : EndpointRef :=
  match (keyIndex keys endpoints reference.key).bind (endpoints[·]?) with
  | some endpoint => { reference with name := endpoint.name }
  | none => reference

/-- `sync_endpoint_refs`. -/
def syncEndpointRefs (endpoints : List SubscriptionEndpoint) (profile : Profile) : Profile :=
  { profile.modifySubscription fun subscription =>
      { subscription with
        backupKeys := subscription.backupKeys.map (namedRef keys endpoints)
        poolKeys := subscription.poolKeys.map (namedRef keys endpoints) } with
    pinnedPolicies := profile.pinnedPolicies.map fun pinned =>
      { pinned with missing := (keyIndex keys endpoints pinned.endpointKey).isNone } }

def xrayError : XrayError → IoError
  | .invalidInput message => invalidInput message
  | .invalidData message => invalidData message
  | .panics => failure "panic"

/-- The checks of one pinned route. -/
def checkPinnedRoute (text : NetText) (route : PinnedRoute) : Except IoError Unit :=
  if !validEndpointKey route.endpointKey then
    .error (invalidInput "Invalid pinned endpoint key")
  else if route.selectors.isEmpty ∨ 128 < route.selectors.length then
    .error (invalidInput "A pinned route needs 1-128 selectors")
  else do
    (validateRoutingPolicySelectors text [⟨route.selectors, .direct⟩]).mapError xrayError
    route.selectors.forM fun selector => do
      let found ← (classifyRoutingSelector text selector).mapError xrayError
      if found.any fun kind => kind.1 == .ip then
        throw (invalidInput "Pinned routes take domain selectors only")

/-- `set_pinned_routes`. -/
def setPinnedRoutes (routes : List PinnedRoute)
    (endpoints : List SubscriptionEndpoint) (profile : Profile) : Except IoError Profile := do
  routes.forM (checkPinnedRoute crates.text)
  pure (syncEndpointRefs crates.keys endpoints { profile with pinnedPolicies := routes })

/-! ### Another endpoint -/

/-- What `switch_endpoint_key` has found before it stores a config. -/
structure SwitchStage where
  profile : Profile
  index : Nat
  endpoint : SubscriptionEndpoint
  socks : Nat
  http : Nat
  config : Json

/-- The profile that has to be there, with its subscription. -/
def storedSubscription (id : String) (document : ProfileDocument) :
    Except IoError (Profile × SubscriptionMeta) :=
  match findProfile id document.profiles with
  | none => .error (invalidInput "Profile not found")
  | some profile =>
    match profile.subscription with
    | none => .error (invalidInput "Profile is not a subscription")
    | some subscription => .ok (profile, subscription)

/-- `switch_endpoint_key` between its reading of the endpoints and its config. `used` are the ports
of the other profiles. -/
def switchStage (available : Nat → Bool) (used : List Nat)
    (key : String) (endpoints : List SubscriptionEndpoint) (profile : Profile) :
    Except IoError SwitchStage :=
  match (keyIndex crates.keys endpoints key).bind fun index =>
      (endpoints[index]?).map fun endpoint => (index, endpoint) with
  | none => .error (invalidInput "Endpoint is no longer part of the subscription")
  | some (index, endpoint) => do
      let (socks, http) ←
        selectGeneratedPorts profile.xraySocksPort profile.xrayHttpPort used available
      let config ← (crates.links.generate endpoint.url socks http).mapError fun _ =>
        invalidInput "Invalid or unsupported share link"
      pure { profile, index, endpoint, socks, http, config }

/-- The profile that `switch_endpoint_key` stores. -/
def switchedProfile (key : String) (endpoints : List SubscriptionEndpoint) (stage : SwitchStage)
    (configPath : String) : Profile :=
  let title := stage.profile.subscription.bind (·.providerTitle)
  { stage.profile.modifySubscription fun subscription =>
      { subscription with
        activeIndex := stage.index
        activeKey := some key
        endpointCount := endpoints.length } with
    configPath
    xraySocksPort := some stage.socks
    xrayHttpPort := some stage.http
    name := followedName stage.profile title title endpoints stage.endpoint.name }

/-! ### A fresh body -/

/-- `UNSUPPORTED_CLIENT_MESSAGE`. -/
def unsupportedClientMessage : String :=
  "The subscription server returned a placeholder instead of servers. " ++
    "It may not recognize this app or require an HWID."

def placeholderMarkers : List String :=
  ["not supported", "unsupported", "не поддерживается", "обновите приложение"]

/-- `is_unsupported_client_placeholder`. -/
def isUnsupportedClientPlaceholder (urls : List String) : Bool :=
  !urls.isEmpty &&
    urls.all fun url =>
      (crates.links.name url).any fun name =>
        placeholderMarkers.any fun marker => marker.toList <:+: (crates.lowercase name).toList

/-- The entries that a config can be generated for, each with its config, in order. `count` is the
number of those before. -/
def usableEndpoints (links : ShareLinks) (socks http : Nat) (count : Nat) :
    List String → List (SubscriptionEndpoint × Json)
  | [] => []
  | url :: rest =>
    match links.generate url socks http with
    | .ok config =>
      (⟨url, (links.name url).getD s!"Endpoint {count + 1}"⟩, config) ::
        usableEndpoints links socks http (count + 1) rest
    | .error _ => usableEndpoints links socks http count rest

/-- What `refresh_body` has found before it stores anything. -/
structure RefreshStage where
  profile : Profile
  socks : Nat
  http : Nat
  endpoints : List SubscriptionEndpoint
  activeIndex : Nat
  active : SubscriptionEndpoint
  config : Json
  skippedCount : Nat
  skippedProtocols : List String
  fallbackUsed : Bool

/-- The place of the selected endpoint, or the first one. -/
def selectedIndex (selected : Option String) (endpoints : List SubscriptionEndpoint) : Option Nat :=
  selected.bind (keyIndex keys endpoints)

/-- `refresh_body` between its reading of the previous endpoints and its config. -/
def refreshStage (ports : Nat × Nat) (body : String)
    (previous : List SubscriptionEndpoint) (profile : Profile) (oldIndex : Nat) :
    Except IoError RefreshStage :=
  let selected := (storedActiveKey profile).or
    ((previous[oldIndex]?).map fun endpoint => endpointKey crates.keys endpoint.url)
  let (urls, unsupported, skippedProtocols) := crates.parseBody body
  if isUnsupportedClientPlaceholder crates urls then
    .error (invalidInput unsupportedClientMessage)
  else
    let usable := usableEndpoints crates.links ports.1 ports.2 0 urls
    let endpoints := usable.map Prod.fst
    let skippedCount := unsupported + (urls.length - usable.length)
    let newIndex := selectedIndex crates.keys selected endpoints
    let activeIndex := newIndex.getD 0
    match usable[activeIndex]? with
    | none => .error (invalidInput
        s!"subscription refresh contained no valid share links ({skippedCount} skipped)")
    | some (active, config) =>
      .ok { profile, socks := ports.1, http := ports.2, endpoints, activeIndex, active, config,
            skippedCount, skippedProtocols, fallbackUsed := newIndex.isNone }

/-- What the response announces; a missing header keeps what is stored. -/
def announcedMeta (response : ResponseMeta) (subscription : SubscriptionMeta) : SubscriptionMeta :=
  { subscription with
    userInfo := response.userInfo.or subscription.userInfo
    providerTitle := response.providerTitle.or subscription.providerTitle
    announce := response.announce.or subscription.announce
    supportUrl := response.supportUrl.or subscription.supportUrl
    webPageUrl := response.webPageUrl.or subscription.webPageUrl
    updateIntervalHours := response.updateIntervalHours.or subscription.updateIntervalHours }

/-- The profile that `refresh_body` stores. -/
def refreshedProfile (response : ResponseMeta) (now : Nat)
    (previous : List SubscriptionEndpoint) (stage : RefreshStage) (newPath : String) : Profile :=
  let storedTitle := stage.profile.subscription.bind (·.providerTitle)
  let title := response.providerTitle.or storedTitle
  let changed := stage.profile.modifySubscription fun subscription =>
    { announcedMeta response subscription with
      endpointCount := stage.endpoints.length
      activeIndex := stage.activeIndex
      activeKey := some (endpointKey crates.keys stage.active.url)
      lastRefreshAtUnix := some now
      lastRefreshError := none
      skippedProtocols := stage.skippedProtocols }
  syncEndpointRefs crates.keys stage.endpoints
    { changed with
      configPath := newPath
      xraySocksPort := some stage.socks
      xrayHttpPort := some stage.http
      name := followedName stage.profile storedTitle title previous stage.active.name }

/-! ### The calls -/

/-- `REFRESH_INTERVALS`. -/
def refreshIntervals : List Nat := [15, 60, 360]

def checkInterval (minutes : Option Nat) : Except IoError Unit :=
  if minutes.any fun minutes => !refreshIntervals.contains minutes then
    .error (invalidInput "unsupported subscription refresh interval")
  else .ok ()

def checkBody (body : String) : Except IoError Unit :=
  if maxSubscriptionBodyBytes < body.utf8ByteSize then
    .error (invalidInput "Subscription response exceeds the 4 MiB limit")
  else .ok ()

def checkBackups (keys : List String) : Except IoError Unit :=
  if maxFailoverNodes ≤ keys.length then
    .error (invalidInput "At most seven backup endpoints can be selected")
  else .ok ()

def checkKey (key : String) : Except IoError Unit :=
  if validEndpointKey key then .ok () else .error (invalidInput "Invalid endpoint key")

/-- What a call meets besides the store: the vault's answers, the free ports and the clock. -/
structure Surroundings where
  configs : Configs
  endpoints : Except IoError (List SubscriptionEndpoint)
  storeEndpoints : List SubscriptionEndpoint → Except IoError Unit
  available : Nat → Bool
  now : Nat

inductive SubscriptionOp where
  | setBackupEndpoints (keys : List String)
  | setAutoReturnPrimary (enabled : Bool)
  | setPinnedRoutes (routes : List PinnedRoute)
  | setRefreshInterval (minutes : Option Nat)
  | recordRefreshFailure
  | refreshBody (body : String) (response : ResponseMeta)
  | switchEndpointKey (key : String)

/-- What is checked before the store is read. -/
def checkRequest : SubscriptionOp → Except IoError Unit
  | .setBackupEndpoints keys => checkBackups keys
  | .setRefreshInterval minutes => checkInterval minutes
  | .refreshBody body _ => checkBody body
  | .switchEndpointKey key => checkKey key
  | .setAutoReturnPrimary _ | .setPinnedRoutes _ | .recordRefreshFailure => .ok ()

/-- `switch_endpoint_key` between `load` and its config: the endpoints and the stage. -/
def switchPlan (id key : String)
    (document : ProfileDocument) : Except IoError (List SubscriptionEndpoint × SwitchStage) := do
  let (profile, _) ← storedSubscription id document
  let endpoints ← around.endpoints
  let used := profileListenerPorts around.configs document.profiles id
  let stage ← switchStage crates around.available used key endpoints profile
  pure (endpoints, stage)

/-- `switch_endpoint_key` between `load` and `upsert`. -/
def switchEndpointKey (id key : String) (document : ProfileDocument) : Except IoError Profile := do
  let (endpoints, stage) ← switchPlan crates around id key document
  let configPath ← around.configs.store id stage.config
  pure (switchedProfile key endpoints stage configPath)

/-- `refresh_body` between `load` and its config: the previous endpoints and the stage. -/
def refreshPlan (id body : String)
    (document : ProfileDocument) : Except IoError (List SubscriptionEndpoint × RefreshStage) := do
  let (profile, subscription) ← storedSubscription id document
  let used := profileListenerPorts around.configs document.profiles id
  let ports ←
    selectGeneratedPorts profile.xraySocksPort profile.xrayHttpPort used around.available
  let previous ← around.endpoints
  let stage ← refreshStage crates ports body previous profile subscription.activeIndex
  pure (previous, stage)

/-- `refresh_body` between `load` and `upsert`. -/
def refreshBody (id body : String)
    (response : ResponseMeta) (document : ProfileDocument) : Except IoError Profile := do
  let (previous, stage) ← refreshPlan crates around id body document
  let newPath ← around.configs.store id stage.config
  around.storeEndpoints stage.endpoints
  pure (refreshedProfile crates response around.now previous stage newPath)

/-- The profile that an operation hands to `upsert`. -/
def changedProfile (id : String)
    (document : ProfileDocument) : SubscriptionOp → Except IoError Profile
  | .setBackupEndpoints keys => do
      let profile ← subscriptionProfile id document
      let endpoints ← around.endpoints
      setBackupEndpoints crates keys endpoints profile
  | .setAutoReturnPrimary enabled => do
      let profile ← subscriptionProfile id document
      pure (setAutoReturnPrimary enabled profile)
  | .setPinnedRoutes routes => do
      let profile ← subscriptionProfile id document
      let endpoints ← around.endpoints
      setPinnedRoutes crates routes endpoints profile
  | .setRefreshInterval minutes => do
      let profile ← subscriptionProfile id document
      pure (setRefreshInterval minutes around.now profile)
  | .recordRefreshFailure => do
      let profile ← subscriptionProfile id document
      pure (recordRefreshFailure around.now profile)
  | .refreshBody body response => refreshBody crates around id body response document
  | .switchEndpointKey key => switchEndpointKey crates around id key document

/-- A call about a stored profile: an operation on a subscription, in two steps, or a change
through `update_profile`, in one. -/
inductive ProfileCall where
  | operation (op : SubscriptionOp)
  | edit (change : FieldEdit)

/-- The first step. `update_profile` takes nothing along from it. -/
def ProfileCall.read (checks : ProfileChecks) (file : Option ProfileDocument) :
    ProfileCall → Except IoError ProfileDocument
  | .operation op => do
      checkRequest op
      load checks file
  | .edit _ => .ok ⟨profileDocumentVersion, []⟩

/-- The step that stores the profile. -/
def ProfileCall.write (checks : ProfileChecks) (crates : SubscriptionCrates)
    (around : Surroundings) (id : String) (document : ProfileDocument)
    (file : Option ProfileDocument) : ProfileCall → Except IoError ProfileDocument
  | .operation op => do
      let profile ← changedProfile crates around id document op
      upsert checks profile file
  | .edit change => updateProfile checks id change.update file

/-- The calls about one profile over one store. A call that returns an error takes no further
step. -/
def profileCalls {ι : Type} (checks : ProfileChecks) (crates : SubscriptionCrates)
    (id : String) (around : ι → Surroundings) (calls : ι → ProfileCall) :
    Windows.Calls (Option ProfileDocument) ProfileDocument ι where
  read i file := ((calls i).read checks file).toOption
  write i document file :=
    ((calls i).write checks crates (around i) id document file).toOption.map some

/-! ### What the plans have found -/

section
variable {crates : SubscriptionCrates} {around : Surroundings} {id : String}
  {document : ProfileDocument} {profile : Profile} {endpoints : List SubscriptionEndpoint}

theorem storedSubscription_eq_ok {found : Profile × SubscriptionMeta}
    (h : storedSubscription id document = .ok found) :
    findProfile id document.profiles = some found.1 ∧ found.1.subscription = some found.2 := by
  unfold storedSubscription at h
  split at h
  · cases h
  · rename_i profile hprofile
    split at h
    · cases h
    · rename_i subscription hsubscription
      cases h
      exact ⟨hprofile, hsubscription⟩

/-- The endpoint at the place of a key has this key. -/
theorem endpointKey_of_keyIndex {keys : KeyCrates} {key : String} {index : Nat}
    {endpoint : SubscriptionEndpoint} (hindex : keyIndex keys endpoints key = some index)
    (hendpoint : endpoints[index]? = some endpoint) : endpointKey keys endpoint.url = key := by
  obtain ⟨hlt, hkey, -⟩ := List.findIdx?_eq_some_iff_getElem.mp hindex
  rw [List.getElem?_eq_getElem hlt] at hendpoint
  cases hendpoint
  exact eq_of_beq hkey

/-- What stands behind a plan to switch. -/
structure SwitchPlanned (crates : SubscriptionCrates) (around : Surroundings) (id key : String)
    (document : ProfileDocument) (endpoints : List SubscriptionEndpoint) (stage : SwitchStage) :
    Prop where
  found : findProfile id document.profiles = some stage.profile
  subscribed : ∃ subscription, stage.profile.subscription = some subscription
  read : around.endpoints = .ok endpoints
  listed : endpoints[stage.index]? = some stage.endpoint
  key_eq : endpointKey crates.keys stage.endpoint.url = key
  generated : crates.links.generate stage.endpoint.url stage.socks stage.http = .ok stage.config

theorem switchPlan_eq_ok {key : String} {stage : SwitchStage}
    (h : switchPlan crates around id key document = .ok (endpoints, stage)) :
    SwitchPlanned crates around id key document endpoints stage := by
  obtain ⟨⟨profile, subscription⟩, hprofile, hrest⟩ := bind_eq_ok.mp h
  obtain ⟨read, hread, hrest⟩ := bind_eq_ok.mp hrest
  obtain ⟨planned, hstage, hpair⟩ := bind_eq_ok.mp hrest
  cases hpair
  obtain ⟨hfound, hsubscription⟩ := storedSubscription_eq_ok hprofile
  unfold switchStage at hstage
  split at hstage
  · cases hstage
  · rename_i index endpoint hplace
    obtain ⟨place, hindex, hendpoint⟩ := Option.bind_eq_some_iff.mp hplace
    obtain ⟨listed, hlisted, hpair⟩ := Option.map_eq_some_iff.mp hendpoint
    cases hpair
    obtain ⟨⟨socks, http⟩, -, hrest⟩ := bind_eq_ok.mp hstage
    obtain ⟨config, hconfig, hstage⟩ := bind_eq_ok.mp hrest
    cases hstage
    exact ⟨hfound, ⟨subscription, hsubscription⟩, hread, hlisted,
      endpointKey_of_keyIndex hindex hlisted, mapError_eq_ok.mp hconfig⟩

/-- Each usable endpoint comes with a config of its own. -/
theorem generate_of_mem_usable {links : ShareLinks} {socks http count : Nat} {urls : List String}
    {entry : SubscriptionEndpoint × Json}
    (h : entry ∈ usableEndpoints links socks http count urls) :
    links.generate entry.1.url socks http = .ok entry.2 := by
  induction urls generalizing count with
  | nil => cases h
  | cons url rest ih =>
    simp only [usableEndpoints] at h
    split at h
    · rename_i config hconfig
      rcases List.mem_cons.mp h with rfl | hrest
      · exact hconfig
      · exact ih hrest
    · exact ih h

/-- What stands behind a plan to refresh. -/
structure RefreshPlanned (crates : SubscriptionCrates) (around : Surroundings) (id : String)
    (document : ProfileDocument) (previous : List SubscriptionEndpoint) (stage : RefreshStage) :
    Prop where
  found : findProfile id document.profiles = some stage.profile
  subscribed : ∃ subscription, stage.profile.subscription = some subscription
  read : around.endpoints = .ok previous
  listed : stage.endpoints[stage.activeIndex]? = some stage.active
  generated : crates.links.generate stage.active.url stage.socks stage.http = .ok stage.config

theorem refreshPlan_eq_ok {body : String} {stage : RefreshStage}
    (h : refreshPlan crates around id body document = .ok (endpoints, stage)) :
    RefreshPlanned crates around id document endpoints stage := by
  obtain ⟨⟨profile, subscription⟩, hprofile, hrest⟩ := bind_eq_ok.mp h
  obtain ⟨ports, -, hrest⟩ := bind_eq_ok.mp hrest
  obtain ⟨previous, hprevious, hrest⟩ := bind_eq_ok.mp hrest
  obtain ⟨planned, hstage, hpair⟩ := bind_eq_ok.mp hrest
  cases hpair
  obtain ⟨hfound, hsubscription⟩ := storedSubscription_eq_ok hprofile
  unfold refreshStage at hstage
  simp only at hstage
  split at hstage
  · cases hstage
  · split at hstage
    · cases hstage
    · rename_i active config hactive
      cases hstage
      exact ⟨hfound, ⟨subscription, hsubscription⟩, hprevious, by simp [hactive],
        generate_of_mem_usable (List.mem_of_getElem? hactive)⟩

end

end NetOrchestrator.Core.Profiles
