import NetOrchestrator.Core.SubscriptionEdits

/-!
# `Proofs.SubscriptionEdits`: an edit happens or it does not

`Unchanged` is what an edit that failed should leave: the record, the endpoints and the live config
as they were. `Served` is what an edit that went through should leave: the record names the
endpoint that the live config was generated from.

Up to the `upsert` both hold: a chain that breaks leaves exactly what there was
(`storeSwitched_cases`, `storeRefreshed_cases`), and one that goes through has `Committed`.
What may go wrong is left for the end: switching reports an old revision that it cannot remove as an
error of the whole, and an import that fails takes the directory with it, with what was there
before. `all_or_nothing_iff` says that there is nothing else.
-/

namespace NetOrchestrator.Core.Profiles

open Lib Core.Errors
open Lib.Checks (bind_eq_ok)

/-! ### What an edit should leave -/

/-- The profile, its endpoints and its live config are as they were. -/
structure Unchanged (id : String) (before after : VaultState) : Prop where
  profile : after.profile id = before.profile id
  sidecar : after.sidecar = before.sidecar
  live : ∀ profile, before.profile id = some profile →
    configAt profile.configPath after = configAt profile.configPath before

/-- The record names an endpoint of the list by its place and by its key. -/
structure Named (crates : SubscriptionCrates) (state : VaultState) (profile : Profile)
    (endpoint : SubscriptionEndpoint) : Prop where
  listed : ∃ subscription endpoints, profile.subscription = some subscription ∧
    state.sidecar = some (.endpoints endpoints) ∧
      endpoints[subscription.activeIndex]? = some endpoint ∧
        subscription.activeKey = some (endpointKey crates.keys endpoint.url)

variable (crates : SubscriptionCrates)

/-- The config was generated from the endpoint, on the ports of the profile. -/
def GeneratedFrom (profile : Profile) (endpoint : SubscriptionEndpoint) (config : Json) : Prop :=
  ∃ socks http, profile.xraySocksPort = some socks ∧ profile.xrayHttpPort = some http ∧
    crates.links.generate endpoint.url socks http = .ok config

/-- The record names the endpoint that its live config is for. -/
structure Served (crates : SubscriptionCrates) (id : String) (state : VaultState) (profile : Profile)
    (endpoint : SubscriptionEndpoint) : Prop where
  stored : state.profile id = some profile
  named : Named crates state profile endpoint
  live : ∃ config, configAt profile.configPath state = some config ∧
    GeneratedFrom crates profile endpoint config

/-- A failed edit has changed nothing, and one that went through serves what it names. -/
def AllOrNothing (id : String) (before : VaultState) : Except IoError Unit × VaultState → Prop
  | (.error _, after) => Unchanged id before after
  | (.ok (), after) => ∃ profile endpoint, Served crates id after profile endpoint

/-! ### Up to the `upsert` -/

section
variable {setting : VaultSetting} {occasion : Occasion} {id : String} {state stored : VaultState}
  {profile : Profile} {fault : Option Fault} {document : ProfileDocument} {e : IoError}
  {endpoints : List SubscriptionEndpoint} {previous : List SubscriptionEndpoint}
  {response : ResponseMeta}

theorem unchanged_refl : Unchanged id state state := ⟨rfl, rfl, fun _ _ => rfl⟩

theorem upsertProfile_eq_error
    (h : upsertProfile setting.checks profile fault state = (.error e, stored)) :
    stored = state := by
  unfold upsertProfile at h
  split at h
  · cases h
    rfl
  · split at h
    · cases h
    · cases h
      rfl

theorem upsertProfile_eq_ok
    (h : upsertProfile setting.checks profile fault state = (.ok document, stored)) :
    stored = { state with store := some document } ∧
      stored.profile profile.id = some profile := by
  unfold upsertProfile at h
  split at h
  · cases h
  · split at h
    · rename_i written hwritten
      cases h
      refine ⟨rfl, ?_⟩
      show findProfile profile.id document.profiles = some profile
      rw [upsert_eq_ok hwritten]
      exact findProfile_putProfile
    · cases h

/-- What is on disk after the `upsert`: the new profile, on the config of the new revision. -/
structure Committed (setting : VaultSetting) (occasion : Occasion) (id : String)
    (before after : VaultState) (old new : Profile) (name : List Char)
    (endpoint : SubscriptionEndpoint) (config : Json) : Prop where
  name_eq : vaultName id = .ok name
  fresh : NewRevision setting.root name occasion.nanos before
  before_eq : before.profile id = some old
  after_eq : after.profile id = some new
  path_eq : new.configPath = pathAt (configPlace setting.root name occasion.nanos)
  configs_eq : after.configs =
    (configPlace setting.root name occasion.nanos, config) :: before.configs
  named : Named setting.crates after new endpoint
  generated : GeneratedFrom setting.crates new endpoint config

/-- The profile that a plan starts from is the one on disk. -/
theorem profile_of_load (hload : load setting.checks state.store = .ok document)
    (hfound : findProfile id document.profiles = some profile) :
    state.profile id = some profile := by
  rw [VaultState.profile, ← load_eq_ok hload]
  exact hfound

theorem sidecar_of_read (h : (occasion.surroundings state).endpoints = .ok endpoints) :
    state.sidecar = some (.endpoints endpoints) := by
  have hread : readEndpoints state = .ok endpoints := h
  unfold readEndpoints at hread
  split at hread
  · rename_i current hcurrent
    cases hread
    exact hcurrent
  · cases hread
  · cases hread

/-- A switch that breaks off leaves what there was, and one that goes through names the endpoint
with the key. -/
theorem storeSwitched_cases {key : String} {result : Except IoError (Profile × ProfileDocument)}
    (h : storeSwitched setting occasion id key state = (result, stored)) :
    (∃ e, result = .error e ∧ stored = state) ∨
      ∃ old document new name endpoint config, result = .ok (old, document) ∧
        Committed setting occasion id state stored old new name endpoint config := by
  unfold storeSwitched at h
  split at h
  · cases h
    exact .inl ⟨_, rfl, rfl⟩
  rename_i endpoints stage hplan
  obtain ⟨-, -, hplan⟩ := bind_eq_ok.mp hplan
  obtain ⟨read, hread, hplan⟩ := bind_eq_ok.mp hplan
  have hplanned := switchPlan_eq_ok hplan
  split at h
  · rename_i hconfig
    cases h
    exact .inl ⟨_, rfl, storeGeneratedXray_eq_error hconfig⟩
  rename_i configPath written hconfig
  obtain ⟨name, hname, hfresh, rfl, rfl⟩ := storeGeneratedXray_eq_ok hconfig
  split at h
  · rename_i hupsert
    cases h
    obtain rfl := upsertProfile_eq_error hupsert
    refine .inl ⟨_, rfl, ?_⟩
    rw [removeRevision_new hname hfresh rfl]
  · rename_i document _ hupsert
    cases h
    obtain ⟨rfl, hstored⟩ := upsertProfile_eq_ok hupsert
    have hid : stage.profile.id = id := id_of_findProfile hplanned.found
    obtain ⟨subscription, hsubscription⟩ := hplanned.subscribed
    refine .inr ⟨stage.profile, document, switchedProfile key endpoints stage
        (pathAt (configPlace setting.root name occasion.nanos)),
      name, stage.endpoint, stage.config, rfl, ?_⟩
    exact
      { name_eq := hname
        fresh := hfresh
        before_eq := profile_of_load hread hplanned.found
        after_eq := by rw [← hid]; exact hstored
        path_eq := rfl
        configs_eq := rfl
        named :=
          ⟨{ subscription with
              activeIndex := stage.index, activeKey := some key,
              endpointCount := endpoints.length }, endpoints,
            congrArg (Option.map _) hsubscription, sidecar_of_read hplanned.read,
            hplanned.listed, congrArg some hplanned.key_eq.symm⟩
        generated := ⟨stage.socks, stage.http, rfl, rfl, hplanned.generated⟩ }

/-! ### Refreshing -/

/-- Afterwards the endpoints are the previous ones again. -/
theorem restoreEndpoints_eq : restoreEndpoints previous state =
      (true, { state with sidecar := some (.endpoints previous) }) := by
  unfold restoreEndpoints
  split
  · rename_i current hcurrent
    split
    · rename_i hsame
      have hsidecar : state.sidecar = some (.endpoints current) := by
        unfold readEndpoints at hcurrent
        split at hcurrent
        · rename_i found hfound
          cases hcurrent
          exact hfound
        · cases hcurrent
        · cases hcurrent
      rw [← hsame, ← hsidecar]
    · rfl
  · rfl

/-- A refresh that is taken back leaves what there was. -/
theorem rollbackRefresh_eq {current : VaultState} {name : List Char} {config : Json}
    {message : String} (hname : vaultName id = .ok name)
    (hfresh : NewRevision setting.root name occasion.nanos state)
    (hsidecar : state.sidecar = some (.endpoints previous)) (hstore : current.store = state.store)
    (hconfigs : current.configs =
      (configPlace setting.root name occasion.nanos, config) :: state.configs) :
    rollbackRefresh setting previous (pathAt (configPlace setting.root name occasion.nanos)) message
      current = (.error (invalidInput message), state) := by
  have hrestored : { current with sidecar := some (.endpoints previous) } =
      { state with configs := current.configs } := by
    rw [← hsidecar, ← hstore]
  have hremoved : removeRevisionForConfig setting.root
      (pathAt (configPlace setting.root name occasion.nanos)) none
        { state with configs := current.configs } = (.ok (), state) :=
    removeRevision_new hname hfresh hconfigs
  rw [rollbackRefresh, restoreEndpoints_eq, hrestored]
  simp only
  rw [hremoved]
  rfl

theorem storeSubscriptionEndpoints_store {result : Except IoError Unit}
    (h : storeSubscriptionEndpoints endpoints fault state = (result, stored)) :
    stored.store = state.store ∧ stored.configs = state.configs ∧
      (result = .ok () → stored.sidecar = some (.endpoints endpoints)) := by
  unfold storeSubscriptionEndpoints at h
  simp only at h
  split at h
  · cases h
    split
    · exact ⟨rfl, rfl, fun _ => rfl⟩
    · exact ⟨rfl, rfl, fun h => nomatch h⟩
  · cases h
    exact ⟨rfl, rfl, fun _ => rfl⟩

/-- A refresh that breaks off leaves what there was, and one that goes through names the endpoint
that it has chosen. -/
theorem storeRefreshed_cases {body : String} {result : Except IoError RefreshStage}
    (h : storeRefreshed setting occasion id body response state = (result, stored)) :
    (∃ e, result = .error e ∧ stored = state) ∨
      ∃ stage new name endpoint config, result = .ok stage ∧
        Committed setting occasion id state stored stage.profile new name endpoint config := by
  unfold storeRefreshed at h
  split at h
  · cases h
    exact .inl ⟨_, rfl, rfl⟩
  rename_i previous stage hplan
  obtain ⟨-, -, hplan⟩ := bind_eq_ok.mp hplan
  obtain ⟨read, hread, hplan⟩ := bind_eq_ok.mp hplan
  have hplanned := refreshPlan_eq_ok hplan
  have hsidecar := sidecar_of_read hplanned.read
  split at h
  · rename_i hconfig
    cases h
    exact .inl ⟨_, rfl, storeGeneratedXray_eq_error hconfig⟩
  rename_i newPath written hconfig
  obtain ⟨name, hname, hfresh, rfl, rfl⟩ := storeGeneratedXray_eq_ok hconfig
  split at h
  · rename_i hendpoints
    obtain ⟨hstore, hconfigs, -⟩ := storeSubscriptionEndpoints_store hendpoints
    rw [rollbackRefresh_eq hname hfresh hsidecar hstore hconfigs] at h
    cases h
    exact .inl ⟨_, rfl, rfl⟩
  rename_i hendpoints
  obtain ⟨hstore, hconfigs, hnewSidecar⟩ := storeSubscriptionEndpoints_store hendpoints
  split at h
  · rename_i hupsert
    obtain rfl := upsertProfile_eq_error hupsert
    rw [rollbackRefresh_eq hname hfresh hsidecar hstore hconfigs] at h
    cases h
    exact .inl ⟨_, rfl, rfl⟩
  · rename_i hupsert
    cases h
    obtain ⟨rfl, hstored⟩ := upsertProfile_eq_ok hupsert
    have hid : stage.profile.id = id := id_of_findProfile hplanned.found
    obtain ⟨subscription, hsubscription⟩ := hplanned.subscribed
    refine .inr ⟨stage, refreshedProfile setting.crates response occasion.around.now previous stage
        (pathAt (configPlace setting.root name occasion.nanos)),
      name, stage.active, stage.config, rfl, ?_⟩
    have hsubscribed : ∃ refreshed,
        (refreshedProfile setting.crates response occasion.around.now previous stage
          (pathAt (configPlace setting.root name occasion.nanos))).subscription =
            some refreshed ∧ refreshed.activeIndex = stage.activeIndex ∧ refreshed.activeKey =
                some (endpointKey setting.crates.keys stage.active.url) := by
      simp [refreshedProfile, syncEndpointRefs, Profile.modifySubscription, hsubscription]
    obtain ⟨refreshed, hrefreshed, hindex, hkey⟩ := hsubscribed
    exact
      { name_eq := hname
        fresh := hfresh
        before_eq := profile_of_load hread hplanned.found
        after_eq := by rw [← hid]; exact hstored
        path_eq := rfl
        configs_eq := hconfigs
        named := ⟨refreshed, stage.endpoints, hrefreshed, hnewSidecar rfl,
          by rw [hindex]; exact hplanned.listed, hkey⟩
        generated := ⟨stage.socks, stage.http, rfl, rfl, hplanned.generated⟩ }

end

/-! ### The old revision -/

section
variable {setting : VaultSetting} {occasion : Occasion} {id oldPath : String}
  {state stored after : VaultState} {old new : Profile} {name : List Char} {config : Json}
  {endpoint : SubscriptionEndpoint} {result : Except IoError Unit} {e : IoError}

/-- The stored config is in a revision of the name that the clock gives now. -/
def ReusesRevision (setting : VaultSetting) (occasion : Occasion) (id oldPath : String) : Prop :=
  ∃ name, vaultName id = .ok name ∧
    managedRevision setting.root oldPath = some (name, revisionName occasion.nanos)

theorem isManagedProfilePath_of_reuses (h : ReusesRevision setting occasion id oldPath) :
    isManagedProfilePath setting.root id oldPath = true := by
  obtain ⟨name, hname, hmanaged⟩ := h
  simp [isManagedProfilePath, hmanaged, hname]

theorem removeOldRevision_keeps
    (h : removeOldRevision setting occasion id oldPath state = (result, after)) :
    after.store = state.store ∧ after.sidecar = state.sidecar := by
  unfold removeOldRevision at h
  split at h
  · obtain ⟨hstore, hsidecar, -⟩ := removeRevision_eq h
    exact ⟨hstore, hsidecar⟩
  · cases h
    exact ⟨rfl, rfl⟩

/-- Removing is refused where there is something to remove and the removal fails. -/
theorem removeOldRevision_eq_error
    (h : removeOldRevision setting occasion id oldPath state = (.error e, after)) :
    isManagedProfilePath setting.root id oldPath = true ∧
      occasion.fault = some .removeRevision ∧ after = state := by
  unfold removeOldRevision at h
  split at h
  · rename_i hmanaged
    refine ⟨hmanaged, ?_⟩
    unfold removeRevisionForConfig at h
    unfold isManagedProfilePath at hmanaged
    split at h
    · rename_i hnone
      rw [hnone] at hmanaged
      cases hmanaged
    · split at h
      · rename_i hfault
        cases h
        exact ⟨hfault, rfl⟩
      · cases h
  · cases h

theorem removeOldRevision_eq_ok
    (h : removeOldRevision setting occasion id oldPath state = (.ok (), after))
    (hmanaged : isManagedProfilePath setting.root id oldPath = true) :
    occasion.fault ≠ some .removeRevision := by
  intro hfault
  rw [removeOldRevision, if_pos hmanaged, removeRevisionForConfig] at h
  split at h
  · cases h
  · rw [if_pos hfault] at h
    cases h

variable (hcommitted : Committed setting occasion id state stored old new name endpoint config)
include hcommitted

theorem Committed.profile_after
    (h : removeOldRevision setting occasion id oldPath stored = (result, after)) :
    after.profile id = some new := by
  rw [VaultState.profile, (removeOldRevision_keeps h).1]
  exact hcommitted.after_eq

/-- The new config stays where it is, unless it is in the revision that goes. -/
theorem Committed.served
    (hkept : ReusesRevision setting occasion id oldPath → occasion.fault = some .removeRevision)
    (h : removeOldRevision setting occasion id oldPath stored = (result, after)) :
    Served setting.crates id after new endpoint := by
  have hlive : configAt new.configPath after = some config := by
    rw [hcommitted.path_eq]
    unfold removeOldRevision at h
    split at h
    · refine configAt_of_removed hcommitted.name_eq hcommitted.configs_eq ?_ h
      intro hmanaged
      exact hkept ⟨name, hcommitted.name_eq, hmanaged⟩
    · cases h
      exact configAt_of_cons hcommitted.name_eq hcommitted.configs_eq
  obtain ⟨subscription, endpoints, hsubscription, hsidecar, hlisted, hkey⟩ := hcommitted.named.listed
  exact
    { stored := hcommitted.profile_after h
      named := ⟨subscription, endpoints, hsubscription,
        (removeOldRevision_keeps h).2.trans hsidecar, hlisted, hkey⟩
      live := ⟨config, hlive, hcommitted.generated⟩ }

/-- A new config that is in the revision that goes is not served. -/
theorem Committed.not_served (hreuses : ReusesRevision setting occasion id oldPath)
    (hfault : occasion.fault ≠ some .removeRevision)
    (h : removeOldRevision setting occasion id oldPath stored = (result, after)) :
    ¬ ∃ profile endpoint, Served setting.crates id after profile endpoint := by
  rintro ⟨profile, endpoint, hserved⟩
  have hprofile : profile = new :=
    Option.some.inj (hserved.stored.symm.trans (hcommitted.profile_after h))
  obtain ⟨config, hlive, -⟩ := hserved.live
  rw [removeOldRevision, if_pos (isManagedProfilePath_of_reuses hreuses)] at h
  obtain ⟨other, hother, hmanaged⟩ := hreuses
  obtain rfl : other = name := Except.ok.inj (hother.symm.trans hcommitted.name_eq)
  rw [hprofile, hcommitted.path_eq, configAt_of_removed_new hother hmanaged hfault h] at hlive
  cases hlive

/-- After the `upsert` an error comes too late. -/
theorem Committed.not_unchanged
    (h : removeOldRevision setting occasion id oldPath stored = (.error e, after)) :
    ¬ Unchanged id state after := by
  intro hunchanged
  have hsame : some new = some old := by
    rw [← hcommitted.profile_after h, ← hcommitted.before_eq]
    exact hunchanged.profile
  obtain rfl : new = old := Option.some.inj hsame
  have hlive := hunchanged.live new hcommitted.before_eq
  obtain ⟨-, -, rfl⟩ := removeOldRevision_eq_error h
  rw [hcommitted.path_eq, configAt_of_cons hcommitted.name_eq hcommitted.configs_eq,
    configAt_of_new hcommitted.name_eq hcommitted.fresh] at hlive
  cases hlive

end

/-! ### Importing -/

section
variable {setting : VaultSetting} {occasion : Occasion} {request : SubscriptionImport}
  {body configPath : String} {response : ResponseMeta} {stage : ImportStage}
  {state stored after : VaultState} {document : ProfileDocument} {e : IoError}

/-- An import starts without a profile, and its config is for the first endpoint. -/
theorem importPlan_eq_ok
    (h : importPlan setting occasion.around request body state.store = .ok stage) :
    state.profile request.id = none ∧
      setting.crates.links.generate stage.first.url stage.socks stage.http = .ok stage.config := by
  obtain ⟨-, -, h⟩ := bind_eq_ok.mp h
  obtain ⟨-, -, h⟩ := bind_eq_ok.mp h
  obtain ⟨-, -, h⟩ := bind_eq_ok.mp h
  obtain ⟨-, -, h⟩ := bind_eq_ok.mp h
  obtain ⟨document, hdocument, h⟩ := bind_eq_ok.mp h
  simp only at h
  split at h
  · cases h
  rename_i hknown
  split at h
  · cases h
  split at h
  · cases h
  obtain ⟨⟨socks, http⟩, -, h⟩ := bind_eq_ok.mp h
  split at h
  · cases h
  · rename_i first config rest husable
    cases h
    have hmem : (first, config) ∈ usableEndpoints setting.crates.links socks http 0
        (setting.crates.parseBody body).1 := by
      rw [husable]
      exact List.mem_cons_self
    refine ⟨?_, generate_of_mem_usable hmem⟩
    rw [VaultState.profile, ← load_eq_ok hdocument]
    simpa using hknown

theorem storeSubscription_eq_error {endpoints : List SubscriptionEndpoint} {profile : Profile}
    {fault : Option Fault}
    (h : storeSubscription setting endpoints profile fault state = (.error e, stored)) :
    stored.store = state.store := by
  unfold storeSubscription at h
  split at h
  · rename_i hendpoints
    cases h
    exact (storeSubscriptionEndpoints_store hendpoints).1
  · rename_i hendpoints
    rw [upsertProfile_eq_error h]
    exact (storeSubscriptionEndpoints_store hendpoints).1

variable {name : List Char}

/-- An import that goes through is on the first endpoint. -/
theorem served_of_import (hname : vaultName request.id = .ok name)
    (hpath : configPath = pathAt (configPlace setting.root name occasion.nanos))
    (hconfigs : state.configs =
      (configPlace setting.root name occasion.nanos, stage.config) :: stored.configs)
    (hgenerated : setting.crates.links.generate stage.first.url stage.socks stage.http =
      .ok stage.config) (h : storeSubscription setting (stage.first :: stage.later)
      (importedSubscription setting occasion.around.now request response stage configPath)
        occasion.fault state = (.ok document, after)) :
    ∃ profile endpoint, Served setting.crates request.id after profile endpoint := by
  unfold storeSubscription at h
  split at h
  · cases h
  · rename_i written hendpoints
    obtain ⟨hstore, hkept, hsidecar⟩ := storeSubscriptionEndpoints_store hendpoints
    obtain ⟨rfl, hstored⟩ := upsertProfile_eq_ok h
    refine ⟨importedSubscription setting occasion.around.now request response stage configPath,
      stage.first, ?_⟩
    exact
      { stored := hstored
        named := ⟨_, stage.first :: stage.later, rfl, hsidecar rfl, rfl, rfl⟩
        live := by
          refine ⟨stage.config, ?_, stage.socks, stage.http, rfl, rfl, hgenerated⟩
          show configAt configPath _ = _
          rw [hpath]
          exact configAt_of_cons hname (hkept.trans hconfigs) }

/-- An import that fails leaves no endpoints, whoever they were from. -/
theorem unchanged_removed_iff {id : String} (hname : vaultName id = .ok name)
    (hnone : state.profile id = none) (hprofile : stored.profile id = state.profile id) :
    Unchanged id state (removeProfileDir setting.root id stored) ↔ state.sidecar = none := by
  have hremoved : removeProfileDir setting.root id stored =
      { stored with
        sidecar := none
        configs := stored.configs.filter fun file =>
          !(setting.root.parts ++ [name]).isPrefixOf file.1 } := by
    rw [removeProfileDir, hname]
  rw [hremoved]
  constructor
  · intro h
    exact h.sidecar.symm
  · intro hsidecar
    refine ⟨hprofile, hsidecar.symm, ?_⟩
    intro profile hstored
    rw [hnone] at hstored
    cases hstored

end

/-! ### The edits -/

section
variable {setting : VaultSetting} {occasion : Occasion} {state : VaultState}
  {response : ResponseMeta}

/-- What an edit needs, to happen or not to happen. An import that breaks off finds no endpoints of
an earlier profile in the directory. Where a switch has stored the profile, the old revision can be
removed. And the clock names a revision that the stored config is not in. -/
def EndsWell (setting : VaultSetting) (occasion : Occasion) (state : VaultState) :
    SubscriptionEdit → Prop
  | .importBody request body response => ∀ stage configPath stored,
      importPlan setting occasion.around request body state.store = .ok stage →
        storeGeneratedXray setting.root request.id occasion.nanos stage.config occasion.fault
            state = (.ok configPath, stored) →
          (storeSubscription setting (stage.first :: stage.later)
            (importedSubscription setting occasion.around.now request response stage configPath)
              occasion.fault stored).1.isOk = false →
            state.sidecar = none
  | .refreshBody id body response => ∀ stage stored,
      storeRefreshed setting occasion id body response state = (.ok stage, stored) →
        ReusesRevision setting occasion id stage.profile.configPath →
          occasion.fault = some .removeRevision
  | .switchEndpointKey id key => ∀ old document stored,
      storeSwitched setting occasion id key state = (.ok (old, document), stored) →
        (isManagedProfilePath setting.root id old.configPath = true →
          occasion.fault ≠ some .removeRevision) ∧
            ¬ ReusesRevision setting occasion id old.configPath

theorem switch_all_or_nothing_iff {id key : String} :
    AllOrNothing setting.crates id state (runEdit setting occasion state (.switchEndpointKey id key))
      ↔ EndsWell setting occasion state (.switchEndpointKey id key) := by
  cases hstore : storeSwitched setting occasion id key state with
  | mk committed stored =>
  rcases storeSwitched_cases hstore with
    ⟨e, rfl, rfl⟩ | ⟨old, document, new, name, endpoint, config, rfl, hcommitted⟩
  · simp only [runEdit, switchEndpoint, hstore, EndsWell]
    exact iff_of_true unchanged_refl fun _ _ _ h => by cases h
  cases hremove : removeOldRevision setting occasion id old.configPath stored with
  | mk removed after =>
    simp only [runEdit, switchEndpoint, hstore, hremove, EndsWell]
    cases removed with
    | error e =>
      obtain ⟨hmanaged, hfault, -⟩ := removeOldRevision_eq_error hremove
      refine iff_of_false (hcommitted.not_unchanged hremove) ?_
      intro h
      exact (h old document stored rfl).1 hmanaged hfault
    | ok done =>
      constructor
      · intro hserved old' document' stored' hsame
        cases hsame
        refine ⟨fun hmanaged => removeOldRevision_eq_ok hremove hmanaged, ?_⟩
        intro hreuses
        have hfault := removeOldRevision_eq_ok hremove (isManagedProfilePath_of_reuses hreuses)
        exact hcommitted.not_served hreuses hfault hremove hserved
      · intro h
        have hkept := (h old document stored rfl).2
        exact ⟨new, endpoint, hcommitted.served (fun hreuses => absurd hreuses hkept) hremove⟩

theorem refresh_all_or_nothing_iff {id body : String} : AllOrNothing setting.crates id state
        (runEdit setting occasion state (.refreshBody id body response)) ↔
      EndsWell setting occasion state (.refreshBody id body response) := by
  cases hstore : storeRefreshed setting occasion id body response state with
  | mk committed stored =>
  rcases storeRefreshed_cases hstore with
    ⟨e, rfl, rfl⟩ | ⟨stage, new, name, endpoint, config, rfl, hcommitted⟩
  · simp only [runEdit, refreshSubscription, hstore, EndsWell]
    exact iff_of_true unchanged_refl fun _ _ h => by cases h
  cases hremove : removeOldRevision setting occasion id stage.profile.configPath stored with
  | mk removed after =>
    simp only [runEdit, refreshSubscription, hstore, hremove, EndsWell]
    constructor
    · intro hserved stage' stored' hsame hreuses
      cases hsame
      by_contra hfault
      exact hcommitted.not_served hreuses hfault hremove hserved
    · intro h
      exact ⟨new, endpoint, hcommitted.served (h stage stored rfl) hremove⟩

theorem import_all_or_nothing_iff {request : SubscriptionImport} {body : String} :
    AllOrNothing setting.crates request.id state
        (runEdit setting occasion state (.importBody request body response)) ↔
      EndsWell setting occasion state (.importBody request body response) := by
  cases hplan : importPlan setting occasion.around request body state.store with
  | error e =>
    simp only [runEdit, importBody, hplan, EndsWell]
    exact iff_of_true unchanged_refl fun _ _ _ h => by cases h
  | ok stage =>
    obtain ⟨hnone, hgenerated⟩ := importPlan_eq_ok hplan
    cases hconfig : storeGeneratedXray setting.root request.id occasion.nanos stage.config
        occasion.fault state with
    | mk written configured =>
      cases written with
      | error e =>
        obtain rfl := storeGeneratedXray_eq_error hconfig
        simp only [runEdit, importBody, hplan, hconfig, EndsWell]
        refine iff_of_true unchanged_refl ?_
        intro stage' configPath stored hstage hpath
        cases hstage
        rw [hconfig] at hpath
        cases hpath
      | ok configPath =>
        obtain ⟨name, hname, -, hpath, hconfigured⟩ := storeGeneratedXray_eq_ok hconfig
        cases hstore : storeSubscription setting (stage.first :: stage.later)
            (importedSubscription setting occasion.around.now request response stage
              configPath) occasion.fault configured with
        | mk result stored =>
          simp only [runEdit, importBody, hplan, hconfig, hstore, EndsWell]
          cases result with
          | error e =>
            have hprofile : stored.profile request.id = state.profile request.id := by
              rw [VaultState.profile, storeSubscription_eq_error hstore, hconfigured]
              rfl
            refine (unchanged_removed_iff hname hnone hprofile).trans ?_
            constructor
            · intro hsidecar _ _ _ _ _ _
              exact hsidecar
            · intro h
              exact h stage configPath configured rfl hconfig (by rw [hstore]; rfl)
          | ok document =>
            refine iff_of_true
              (served_of_import hname hpath (by rw [hconfigured]) hgenerated hstore) ?_
            intro stage' configPath' stored' hstage hpath' hbroken
            cases hstage
            rw [hconfig] at hpath'
            cases hpath'
            rw [hstore] at hbroken
            cases hbroken

/-- An edit changes nothing where it fails and serves what it names where it goes through, exactly
when it ends well. -/
theorem all_or_nothing_iff (setting : VaultSetting) (occasion : Occasion) (state : VaultState)
    (edit : SubscriptionEdit) :
    AllOrNothing setting.crates edit.id state (runEdit setting occasion state edit) ↔
      EndsWell setting occasion state edit := by
  cases edit with
  | importBody request body response => exact import_all_or_nothing_iff
  | refreshBody id body response => exact refresh_all_or_nothing_iff
  | switchEndpointKey id key => exact switch_all_or_nothing_iff

end

/-! ### A revision that cannot be removed -/

section

/-- Two endpoints, each with a key of its own, and every check goes through. -/
def twoNodes : VaultSetting where
  checks := ⟨fun _ => .ok (), fun _ => .ok ()⟩
  crates :=
    { keys := ⟨fun text => if text == "vless|a.example:443|" then "aaaaaaaaaaaaaaaa"
        else "bbbbbbbbbbbbbbbb", some⟩
      links := ⟨fun url _ _ => .ok (.str url), fun _ => none⟩
      text := ipnetText
      lowercase := id
      parseBody := fun body => ([body], 0, []) }
  checkUrl _ := .ok ()
  platform := .socks
  root := ⟨["vault".toList], by simp [PlainPart]⟩

def nodeA : SubscriptionEndpoint := ⟨"vless://u@a.example:443", "A"⟩
def nodeB : SubscriptionEndpoint := ⟨"vless://u@b.example:443", "B"⟩

/-- The old revision cannot be removed. -/
def lockedRevision : Occasion where
  around :=
    { configs := ⟨fun _ => .ok [], fun _ _ => .ok (.object []), fun _ _ => .ok "", fun _ _ => true⟩
      endpoints := .ok []
      storeEndpoints := fun _ => .ok ()
      available := fun _ => true
      now := 720 }
  nanos := 2
  fault := some .removeRevision

def homeOnNodeA : Profile :=
  { id := "home", name := "Home", backend := .xray,
    configPath := "/vault/home/rev-1/config.json", xraySocksPort := some 10808,
    xrayHttpPort := some 10809,
    subscription := some
      { url := "https://panel.example", hwid := "h", endpointCount := 2, activeIndex := 0,
        activeKey := some "aaaaaaaaaaaaaaaa" } }

/-- A subscription on its first endpoint. -/
def onNodeA : VaultState where
  store := some ⟨1, [homeOnNodeA]⟩
  sidecar := some (.endpoints [nodeA, nodeB])
  configs := [(["vault", "home", "rev-1", "config.json"].map String.toList, .str nodeA.url)]

def configPathOf (state : VaultState) : Option String :=
  (state.profile "home").map Profile.configPath

theorem locked_switch :
    (runEdit twoNodes lockedRevision onNodeA (.switchEndpointKey "home" "bbbbbbbbbbbbbbbb")).1 =
        .error writeFailed ∧
      configPathOf (runEdit twoNodes lockedRevision onNodeA
        (.switchEndpointKey "home" "bbbbbbbbbbbbbbbb")).2 = some "/vault/home/rev-2/config.json" := by
  decide

/-- The switch is an error, and the record is on the new endpoint all the same. -/
theorem locked_switch_changes_record :
    ¬ ∀ (setting : VaultSetting) (occasion : Occasion) (state : VaultState)
      (edit : SubscriptionEdit),
      AllOrNothing setting.crates edit.id state (runEdit setting occasion state edit) := by
  intro hclaim
  have hedit := hclaim twoNodes lockedRevision onNodeA (.switchEndpointKey "home" "bbbbbbbbbbbbbbbb")
  obtain ⟨herror, hpath⟩ := locked_switch
  generalize runEdit twoNodes lockedRevision onNodeA
    (.switchEndpointKey "home" "bbbbbbbbbbbbbbbb") = result at hedit herror hpath
  obtain ⟨outcome, after⟩ := result
  obtain rfl : outcome = .error writeFailed := herror
  have hprofile : after.profile "home" = onNodeA.profile "home" := hedit.profile
  have hsame : configPathOf after = some "/vault/home/rev-1/config.json" := by
    rw [configPathOf, hprofile]
    rfl
  rw [hpath] at hsame
  exact absurd hsame (by decide)

end

end NetOrchestrator.Core.Profiles
