import NetOrchestrator.Core.Subscription

/-!
# `Proofs.LostUpdates`: edits of one profile that meet

An operation on a subscription loads the profile, changes it and stores it whole. The fields that
it does not mean to set go back as they were loaded. `changedProfile_eq_ok` says so: what an
operation hands to `upsert` is the loaded profile but for `editedFields`. A change through
`update_profile` starts from the profile that is stored.

So `no_update_lost` has no slack: every field of the stored profile is as it was last set, all
along a run, exactly when no call stores a field that it does not set and that somebody else has
changed since the call loaded the profile. `interval_drops_auto_return` has the smallest run in
which this fails.
-/

namespace NetOrchestrator.Core.Profiles

open Lib Lib.Windows Core.Errors List Option
open Lib.Checks (bind_eq_ok toOption_eq_some)

/-! ### What an operation sets -/

variable (around : Surroundings)

/-- The name follows the selection where it is a generated one. -/
def followedFields (id : String) (document : ProfileDocument) : List Field :=
  match findProfile id document.profiles, around.endpoints with
  | some profile, .ok endpoints =>
    if isGeneratedName profile.name (profile.subscription.bind (·.providerTitle)) endpoints
    then [.name] else []
  | _, _ => []

/-- What the response announces is set, the rest is kept. -/
def announcedFields (response : ResponseMeta) : List MetaField :=
  (if response.userInfo.isSome then [.userInfo] else []) ++
  (if response.providerTitle.isSome then [.providerTitle] else []) ++
  (if response.announce.isSome then [.announce] else []) ++
  (if response.supportUrl.isSome then [.supportUrl] else []) ++
  (if response.webPageUrl.isSome then [.webPageUrl] else []) ++
  (if response.updateIntervalHours.isSome then [.updateIntervalHours] else [])

/-- What a refresh sets in any case. -/
def refreshedFields : List MetaField :=
  [.endpointCount, .activeIndex, .activeKey, .lastRefreshAtUnix, .lastRefreshError,
    .skippedProtocols]

/-- The fields of another config. -/
def configFields : List Field := [.configPath, .xraySocksPort, .xrayHttpPort]

/-- The fields that `sync_endpoint_refs` sets. -/
def syncedFields : List Field :=
  [.subscription .backupNames, .subscription .poolNames, .pinnedMissing]

/-- The fields that an operation sets, once it has loaded the document. -/
def editedFields (id : String) (document : ProfileDocument) : SubscriptionOp → List Field
  | .setBackupEndpoints _ => [.subscription .backupKeys, .subscription .backupNames]
  | .setAutoReturnPrimary _ => [.subscription .autoReturnPrimary]
  | .setPinnedRoutes _ => [.pinnedPolicies, .pinnedMissing] ++ syncedFields
  | .setRefreshInterval _ =>
    [.subscription .refreshIntervalMinutes, .subscription .lastRefreshAtUnix]
  | .recordRefreshFailure =>
    [.subscription .lastRefreshAtUnix, .subscription .lastRefreshError]
  | .refreshBody _ response =>
    (announcedFields response ++ refreshedFields).map .subscription ++
      (configFields ++ followedFields around id document) ++ syncedFields
  | .switchEndpointKey _ =>
    [MetaField.activeIndex, .activeKey, .endpointCount].map .subscription ++
      (configFields ++ followedFields around id document)

/-- The fields that a call sets. -/
def callFields (id : String) (document : ProfileDocument) : ProfileCall → List Field
  | .operation op => editedFields around id document op
  | .edit change => change.fields

/-- The profile that an operation loads. -/
def loadedProfile (id : String) (document : ProfileDocument) : SubscriptionOp → Option Profile
  | .refreshBody _ _ | .switchEndpointKey _ => findProfile id document.profiles
  | _ => document.profiles.find? fun profile => profile.id == id && profile.subscription.isSome

/-- The profile that a call starts from. -/
def startingProfile (id : String) (document : ProfileDocument) (file : Option ProfileDocument) :
    ProfileCall → Option Profile
  | .operation op => loadedProfile id document op
  | .edit _ => findProfile id (storedProfiles file)

/-- A field of the stored profile. -/
def storedField (id : String) (field : Field) (file : Option ProfileDocument) :
    Option field.Value :=
  (findProfile id (storedProfiles file)).map fun profile => field.get profile

/-- A field of the profile that a call starts from. -/
def startingField (id : String) (call : ProfileCall) (document : ProfileDocument)
    (file : Option ProfileDocument) (field : Field) : Option field.Value :=
  (startingProfile id document file call).map fun profile => field.get profile

/-! ### The changes -/

section
variable {crates : SubscriptionCrates} {around : Surroundings} {id : String}
  {document : ProfileDocument} {profile new : Profile} {endpoints : List SubscriptionEndpoint}
  {keys : KeyCrates} {response : ResponseMeta}

theorem sameBut_modifySubscription {change : SubscriptionMeta → SubscriptionMeta}
    (fields : List MetaField)
    (h : ∀ subscription field, field ∉ fields → field.get (change subscription) =
      field.get subscription) :
    SameBut (fields.map .subscription) profile (profile.modifySubscription change) := by
  refine ⟨rfl, ?_⟩
  intro field hfield
  cases field with
  | subscribed =>
    show (profile.subscription.map change).isSome = profile.subscription.isSome
    exact isSome_map
  | subscription field =>
    have hkept : field ∉ fields := fun hmem => hfield (mem_map_of_mem hmem)
    show (profile.subscription.map change).map (fun subscription => field.get subscription) =
      profile.subscription.map fun subscription => field.get subscription
    rw [Option.map_map]
    exact map_congr fun subscription _ => h subscription field hkept
  | _ => rfl

theorem sameBut_setBackupEndpoints {keys : List String}
    (h : setBackupEndpoints crates keys endpoints profile = .ok new) :
    SameBut [.subscription .backupKeys, .subscription .backupNames] profile new := by
  obtain ⟨refs, -, hnew⟩ := bind_eq_ok.mp h
  cases hnew
  refine sameBut_modifySubscription [.backupKeys, .backupNames] ?_
  intro subscription field hfield
  cases field <;> first | rfl | simp at hfield

theorem sameBut_setAutoReturnPrimary {enabled : Bool} :
    SameBut [.subscription .autoReturnPrimary] profile (setAutoReturnPrimary enabled profile) := by
  refine sameBut_modifySubscription [.autoReturnPrimary] ?_
  intro subscription field hfield
  cases field <;> first | rfl | simp at hfield

variable {now : Nat} {op : SubscriptionOp}

theorem sameBut_setRefreshInterval {minutes : Option Nat} :
    SameBut [.subscription .refreshIntervalMinutes, .subscription .lastRefreshAtUnix] profile
      (setRefreshInterval minutes now profile) := by
  refine sameBut_modifySubscription [.refreshIntervalMinutes, .lastRefreshAtUnix] ?_
  intro subscription field hfield
  cases field <;> first | rfl | simp at hfield

theorem sameBut_recordRefreshFailure :
    SameBut [.subscription .lastRefreshAtUnix, .subscription .lastRefreshError] profile
      (recordRefreshFailure now profile) := by
  refine sameBut_modifySubscription [.lastRefreshAtUnix, .lastRefreshError] ?_
  intro subscription field hfield
  cases field <;> first | rfl | simp at hfield

/-- A reference that is renamed keeps its key. -/
theorem key_namedRef {reference : EndpointRef} :
    (namedRef keys endpoints reference).key = reference.key := by
  unfold namedRef
  split <;> rfl

theorem map_key_namedRef {refs : List EndpointRef} :
    (refs.map (namedRef keys endpoints)).map EndpointRef.key = refs.map EndpointRef.key := by
  rw [List.map_map]
  exact List.map_congr_left fun _ _ => key_namedRef

theorem sameBut_syncEndpointRefs :
    SameBut syncedFields profile (syncEndpointRefs keys endpoints profile) := by
  have hrefs : SameBut ([MetaField.backupNames, .poolNames].map .subscription) profile
      (profile.modifySubscription fun subscription =>
        { subscription with
          backupKeys := subscription.backupKeys.map (namedRef keys endpoints)
          poolKeys := subscription.poolKeys.map (namedRef keys endpoints) }) := by
    refine sameBut_modifySubscription _ ?_
    intro subscription field hfield
    cases field with
    | backupKeys => exact map_key_namedRef
    | poolKeys => exact map_key_namedRef
    | backupNames | poolNames => simp at hfield
    | _ => rfl
  have hpins : ∀ renamed : Profile, SameBut [.pinnedMissing] renamed
      { renamed with
        pinnedPolicies := renamed.pinnedPolicies.map fun pinned =>
          { pinned with missing := (keyIndex keys endpoints pinned.endpointKey).isNone } } := by
    refine fun renamed => ⟨rfl, ?_⟩
    intro field hfield
    cases field with
    | pinnedPolicies => exact map_map
    | pinnedMissing => simp at hfield
    | _ => rfl
  exact hrefs.trans (hpins _)

theorem sameBut_setPinnedRoutes {routes : List PinnedRoute}
    (h : setPinnedRoutes crates routes endpoints profile = .ok new) :
    SameBut ([.pinnedPolicies, .pinnedMissing] ++ syncedFields) profile new := by
  obtain ⟨-, -, hnew⟩ := bind_eq_ok.mp h
  cases hnew
  have hpins : SameBut [.pinnedPolicies, .pinnedMissing] profile
      { profile with pinnedPolicies := routes } := by
    refine ⟨rfl, ?_⟩
    intro field hfield
    cases field <;> first | rfl | simp at hfield
  exact hpins.trans sameBut_syncEndpointRefs

/-- Another config, and a name that may follow it. -/
theorem sameBut_config {configPath name : String} {socks http : Option Nat} {fields : List Field}
    (hname : .name ∉ fields → name = profile.name) : SameBut (configFields ++ fields) profile
      { profile with configPath, name, xraySocksPort := socks, xrayHttpPort := http } := by
  refine ⟨rfl, ?_⟩
  intro field hfield
  rw [mem_append, not_or] at hfield
  cases field with
  | name => exact hname hfield.2
  | configPath | xraySocksPort | xrayHttpPort => simp [configFields] at hfield
  | _ => rfl

/-- A name that is not among the fields is kept. -/
theorem followedName_eq (hfound : findProfile id document.profiles = some profile)
    (hendpoints : around.endpoints = .ok endpoints) {title : Option String} {selected : String}
    (h : .name ∉ followedFields around id document) :
    followedName profile (profile.subscription.bind (·.providerTitle)) title endpoints selected =
      profile.name := by
  rw [followedFields, hfound, hendpoints] at h
  rw [followedName, if_neg]
  intro hgenerated
  exact h (by simp [hgenerated])

theorem sameBut_switchEndpointKey {key : String}
    (h : switchEndpointKey crates around id key document = .ok new) :
    ∃ loaded, findProfile id document.profiles = some loaded ∧
      SameBut (editedFields around id document (.switchEndpointKey key)) loaded new := by
  obtain ⟨⟨endpoints, stage⟩, hplan, hrest⟩ := bind_eq_ok.mp h
  obtain ⟨configPath, -, hnew⟩ := bind_eq_ok.mp hrest
  cases hnew
  have hplanned := switchPlan_eq_ok hplan
  refine ⟨_, hplanned.found, ?_⟩
  have hmeta : SameBut ([MetaField.activeIndex, .activeKey, .endpointCount].map .subscription)
      stage.profile (stage.profile.modifySubscription fun subscription =>
        { subscription with
          activeIndex := stage.index
          activeKey := some key
          endpointCount := endpoints.length }) := by
    refine sameBut_modifySubscription _ ?_
    intro subscription field hfield
    cases field <;> first | rfl | simp at hfield
  exact hmeta.trans (sameBut_config fun hname =>
    followedName_eq hplanned.found hplanned.read hname)

/-- What is not announced stays as it was. -/
theorem get_announcedMeta {subscription : SubscriptionMeta} {field : MetaField}
    (hfield : field ∉ announcedFields response) :
    field.get (announcedMeta response subscription) = field.get subscription := by
  cases field with
  | userInfo | providerTitle | announce | supportUrl | webPageUrl | updateIntervalHours =>
    simp [announcedFields] at hfield
    simp [MetaField.get, announcedMeta, hfield]
    rfl
  | _ => rfl

theorem sameBut_refreshBody {body : String}
    (h : refreshBody crates around id body response document = .ok new) :
    ∃ loaded, findProfile id document.profiles = some loaded ∧
      SameBut (editedFields around id document (.refreshBody body response)) loaded new := by
  obtain ⟨⟨previous, stage⟩, hplan, hrest⟩ := bind_eq_ok.mp h
  obtain ⟨newPath, -, hrest⟩ := bind_eq_ok.mp hrest
  obtain ⟨-, -, hnew⟩ := bind_eq_ok.mp hrest
  cases hnew
  have hplanned := refreshPlan_eq_ok hplan
  refine ⟨_, hplanned.found, ?_⟩
  have hmeta : SameBut ((announcedFields response ++ refreshedFields).map .subscription)
      stage.profile (stage.profile.modifySubscription fun subscription =>
        { announcedMeta response subscription with
          endpointCount := stage.endpoints.length
          activeIndex := stage.activeIndex
          activeKey := some (endpointKey crates.keys stage.active.url)
          lastRefreshAtUnix := some around.now
          lastRefreshError := none
          skippedProtocols := stage.skippedProtocols }) := by
    refine sameBut_modifySubscription _ ?_
    intro subscription field hfield
    rw [mem_append, not_or] at hfield
    rw [← @get_announcedMeta _ subscription _ hfield.1]
    cases field <;> first | rfl | simp [refreshedFields] at hfield
  exact (hmeta.trans (sameBut_config fun hname =>
    followedName_eq hplanned.found hplanned.read hname)).trans sameBut_syncEndpointRefs

/-! ### One operation -/

theorem subscriptionProfile_eq_ok (h : subscriptionProfile id document = .ok profile) :
    (document.profiles.find? fun profile => profile.id == id && profile.subscription.isSome) =
      some profile := by
  unfold subscriptionProfile at h
  split at h
  · rename_i found hfound
    cases h
    exact hfound
  · cases h

/-- An operation hands to `upsert` what it has loaded, but for the fields that it sets. -/
theorem changedProfile_eq_ok (h : changedProfile crates around id document op = .ok new) :
    ∃ loaded, loadedProfile id document op = some loaded ∧
      SameBut (editedFields around id document op) loaded new := by
  cases op with
  | refreshBody body response => exact sameBut_refreshBody h
  | switchEndpointKey key => exact sameBut_switchEndpointKey h
  | setBackupEndpoints keys =>
    obtain ⟨loaded, hloaded, hrest⟩ := bind_eq_ok.mp h
    obtain ⟨endpoints, -, hnew⟩ := bind_eq_ok.mp hrest
    exact ⟨loaded, subscriptionProfile_eq_ok hloaded, sameBut_setBackupEndpoints hnew⟩
  | setPinnedRoutes routes =>
    obtain ⟨loaded, hloaded, hrest⟩ := bind_eq_ok.mp h
    obtain ⟨endpoints, -, hnew⟩ := bind_eq_ok.mp hrest
    exact ⟨loaded, subscriptionProfile_eq_ok hloaded, sameBut_setPinnedRoutes hnew⟩
  | setAutoReturnPrimary enabled =>
    obtain ⟨loaded, hloaded, hnew⟩ := bind_eq_ok.mp h
    cases hnew
    exact ⟨loaded, subscriptionProfile_eq_ok hloaded, sameBut_setAutoReturnPrimary⟩
  | setRefreshInterval minutes =>
    obtain ⟨loaded, hloaded, hnew⟩ := bind_eq_ok.mp h
    cases hnew
    exact ⟨loaded, subscriptionProfile_eq_ok hloaded, sameBut_setRefreshInterval⟩
  | recordRefreshFailure =>
    obtain ⟨loaded, hloaded, hnew⟩ := bind_eq_ok.mp h
    cases hnew
    exact ⟨loaded, subscriptionProfile_eq_ok hloaded, sameBut_recordRefreshFailure⟩

theorem id_of_loadedProfile (h : loadedProfile id document op = some profile) :
    profile.id = id := by
  cases op with
  | refreshBody _ _ | switchEndpointKey _ => exact id_of_findProfile h
  | _ =>
    have hfound := find?_some h
    rw [Bool.and_eq_true] at hfound
    exact eq_of_beq hfound.1

end

/-! ### All calls -/

section
variable {ι : Type} {checks : ProfileChecks} {crates : SubscriptionCrates} {id : String}
  {around : Surroundings} {call : ProfileCall} {document written : ProfileDocument}
  {file : Option ProfileDocument}

/-- Besides the fields that it sets, a call stores what it started from. -/
theorem storedField_write (h : call.write checks crates around id document file = .ok written)
    {field : Field} (hfield : field ∉ callFields around id document call) :
    storedField id field (some written) = startingField id call document file field := by
  cases call with
  | operation op =>
    obtain ⟨new, hnew, hstore⟩ := bind_eq_ok.mp h
    obtain ⟨loaded, hloaded, hsame⟩ := changedProfile_eq_ok hnew
    have hid : new.id = id := hsame.id_eq.trans (id_of_loadedProfile hloaded)
    have hstored : findProfile id (storedProfiles (some written)) = some new := by
      rw [storedProfiles, upsert_eq_ok hstore, ← hid]
      exact findProfile_putProfile
    rw [storedField, hstored, startingField, startingProfile, hloaded]
    exact congrArg some (hsame.get_eq hfield)
  | edit change =>
    obtain ⟨stored, updated, hfound, hupdated, hprofiles⟩ := updateProfile_eq_ok h
    have hsame := change.sameBut _ _ hupdated
    have hid : updated.id = id := hsame.id_eq.trans (id_of_findProfile hfound)
    have hstored : findProfile id (storedProfiles (some written)) = some updated := by
      rw [storedProfiles, hprofiles]
      exact findProfile_replaceProfile hid hfound
    rw [storedField, hstored, startingField, startingProfile, hfound]
    exact congrArg some (hsame.get_eq hfield)

variable (around : ι → Surroundings) (calls : ι → ProfileCall)

/-- All along a run every field of the stored profile is as it was last set, exactly when each call
that stores the profile finds the fields that it does not set as it started from them. -/
theorem no_update_lost [DecidableEq ι] (checks : ProfileChecks) (crates : SubscriptionCrates)
    (id : String) (start : Option ProfileDocument) (actions : List (Action ι)) :
    (∀ n t, runActions (profileCalls checks crates id around calls).step (Shared.start start)
          (actions.take n) = some t →
        Settled (storedField id) (fun i document => callFields (around i) id document (calls i))
          start t) ↔
      AllAdmitted (profileCalls checks crates id around calls).step
        (Writes (profileCalls checks crates id around calls) (Untouched (storedField id)
            (fun i document => callFields (around i) id document (calls i))
            (fun i => startingField id (calls i)))) (Shared.start start) actions := by
  refine settled_along_iff ?_ start actions
  intro i document file file' hwrite field hfield
  obtain ⟨written, hwritten, rfl⟩ := Option.map_eq_some_iff.mp hwrite
  exact storedField_write (toOption_eq_some.mp hwritten) hfield

end

/-! ### Two settings -/

section

/-- Parts that the two settings do not use. -/
def plainCrates : SubscriptionCrates where
  keys := ⟨id, some⟩
  links := ⟨fun _ _ _ => .ok (.object []), fun _ => none⟩
  text := ipnetText
  lowercase := id
  parseBody body := ([body], 0, [])

def permissiveChecks : ProfileChecks := ⟨fun _ => .ok (), fun _ => .ok ()⟩

def noonSurroundings : Surroundings where
  configs := ⟨fun _ => .ok [], fun _ _ => .ok (.object []), fun _ _ => .ok "", fun _ _ => true⟩
  endpoints := .ok []
  storeEndpoints _ := .ok ()
  available _ := true
  now := 720

/-- A subscription with these two settings. -/
def subscribedHome (autoReturn : Option Bool) (interval lastRefresh : Option Nat) :
    ProfileDocument :=
  ⟨1, [{ id := "home", name := "Home", backend := .xray, configPath := "/vault/home/rev-1/c.json",
         subscription := some
          { url := "https://panel.example", hwid := "h", endpointCount := 1, activeIndex := 0,
            refreshIntervalMinutes := interval, lastRefreshAtUnix := lastRefresh,
            autoReturnPrimary := autoReturn } }]⟩

/-- `set_auto_return_primary` and `set_refresh_interval`. -/
def twoSettings : Bool → ProfileCall
  | false => .operation (.setAutoReturnPrimary true)
  | true => .operation (.setRefreshInterval (some 60))

/-- Both calls load the profile before either stores it. -/
def overlappingSettings : List (Action Bool) := [.read false, .read true, .write false, .write true]

/-- Both settings go through, and the first is gone: the second stores the profile as it was. -/
theorem interval_drops_auto_return :
    ¬ ∀ (checks : ProfileChecks) (crates : SubscriptionCrates) (id : String)
      (around : Bool → Surroundings) (calls : Bool → ProfileCall)
      (start : Option ProfileDocument) (actions : List (Action Bool))
      (t : Shared (Option ProfileDocument) ProfileDocument Bool),
      runActions (profileCalls checks crates id around calls).step (Shared.start start) actions =
          some t →
        (∀ i, i ∈ t.written.map Written.call) →
          Settled (storedField id) (fun i document => callFields (around i) id document (calls i))
            start t := by
  intro hclaim
  have hend := hclaim permissiveChecks plainCrates "home" (fun _ => noonSurroundings) twoSettings
    (some (subscribedHome none none none)) overlappingSettings _ rfl (by decide)
  have hfield := hend (.subscription .autoReturnPrimary)
  have hreverted : (some (some none) : Option (Option (Option Bool))) = some (some (some true)) :=
    hfield
  cases hreverted

end

end NetOrchestrator.Core.Profiles
