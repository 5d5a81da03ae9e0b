import NetOrchestrator.Core.Errors
import NetOrchestrator.Core.StaticRoutes
import NetOrchestrator.Daemon.ProxyExits

/-!
# `Core.Profiles`: the stored profiles

All profiles are in one document. `upsert` writes a whole profile that the caller has made,
`updateProfile` changes the stored one; both read the document and replace it under a lock, so each
is one step for whoever else works on the store. What a caller read before it called `upsert` is
its own business.

A `Profile` has the fields that the import, the subscription and the node pool work with. The
others are in `others` by their names, each as it is stored. `ProfileChecks` are the checks of
these.
-/

namespace NetOrchestrator.Core.Profiles

open Lib Core.Errors List
open Lib.Checks (bind_eq_ok)
open Daemon (NamedProxyExit trim)

/-! ### Profiles -/

structure EndpointRef where
  key : String
  name : String
  deriving DecidableEq

structure PinnedRoute where
  selectors : List String
  endpointKey : String
  missing : Bool
  deriving DecidableEq

structure NodePoolFilter where
  nameContains : List String
  exitCountry : Option String
  deriving DecidableEq

structure NodePoolSettings where
  filters : List NodePoolFilter
  verifyExitCountry : Bool
  deriving DecidableEq

structure SubscriptionUserInfo where
  uploadBytes : Nat
  downloadBytes : Nat
  totalBytes : Option Nat
  expiresAtUnix : Option Nat
  deriving DecidableEq

structure SubscriptionMeta where
  url : String
  hwid : String
  endpointCount : Nat
  activeIndex : Nat
  refreshIntervalMinutes : Option Nat := none
  lastRefreshAtUnix : Option Nat := none
  lastRefreshError : Option String := none
  userInfo : Option SubscriptionUserInfo := none
  providerTitle : Option String := none
  announce : Option String := none
  supportUrl : Option String := none
  webPageUrl : Option String := none
  updateIntervalHours : Option Nat := none
  skippedProtocols : List String := []
  activeKey : Option String := none
  backupKeys : List EndpointRef := []
  autoReturnPrimary : Option Bool := none
  probeUrl : Option String := none
  nodePool : Option NodePoolSettings := none
  poolKeys : List EndpointRef := []
  deriving DecidableEq

inductive XrayMode where
  | socks
  | tun
  deriving DecidableEq

/-- The default of a field is the source's. A field missing in `others` has its own default. -/
structure Profile where
  id : String := ""
  name : String := ""
  backend : TunnelBackend := .none
  configPath : String := ""
  pinnedPolicies : List PinnedRoute := []
  xrayProxyExits : List NamedProxyExit := []
  xraySocksPort : Option Nat := none
  xrayHttpPort : Option Nat := none
  useSystemProxy : Bool := false
  proxyBypass : List String := []
  subscription : Option SubscriptionMeta := none
  xrayMode : XrayMode := .socks
  xrayDns : XrayDnsConfig := {}
  others : String → Option Json := fun _ => none

structure ProfileDocument where
  version : Nat
  profiles : List Profile

/-! ### Checks -/

/-- Checks of fields that no function here looks into: the rest of `validate_profile`, in its
place between the config path and the ports, and the checks of every stored profile. -/
structure ProfileChecks where
  otherFields : Profile → Except IoError Unit
  stored : Profile → Except IoError Unit

/-- `trim().is_empty()`. -/
def isBlank (text : String) : Bool := trim text == ""

/-- `Path::file_name`, or nothing. -/
def fileName (path : String) : List Char :=
  let parts := (path.toList.splitOn '/').filter fun part => part != [] && part != ['.']
  match parts.getLast? with
  | some name => if name == "..".toList then [] else name
  | none => []

/-- The extensions a config of this backend may have. -/
def configExtensions : TunnelBackend → List String
  | .none => [""]
  | .wireGuard => [".conf", ".conf.dpapi"]
  | .openVpn => [".ovpn", ".conf"]
  | .xray => [".json", ".json.dpapi"]

def backendLabel : TunnelBackend → String
  | .none => "None"
  | .wireGuard => "WireGuard"
  | .openVpn => "OpenVpn"
  | .xray => "Xray"

/-- What `validate_profile` says about the listener ports of an Xray profile. -/
def validateListenerPorts (profile : Profile) : Except IoError Unit := do
  if profile.xraySocksPort = some 0 then
    throw (invalidData "xray socks port must be nonzero")
  if profile.xrayHttpPort = some 0 then
    throw (invalidData "xray http port must be nonzero")
  if profile.xraySocksPort.isSome && profile.xraySocksPort == profile.xrayHttpPort then
    throw (invalidData "xray socks and http ports must be different")

/-- What `validate_profile` says about the system proxy. -/
def validateSystemProxy (profile : Profile) : Except IoError Unit := do
  if profile.useSystemProxy then
    if profile.backend ≠ .xray then
      throw (invalidData "system proxy is only supported for Xray profiles")
    if !profile.xraySocksPort.any (· != 0) then
      throw (invalidData "system proxy requires a nonzero xray socks port")
  for entry in profile.proxyBypass do
    if isBlank entry then
      throw (invalidData "proxy bypass entries must not be blank")
    if entry.toList.contains ';' then
      throw (invalidData "proxy bypass entries must not contain ';'")

/-- `validate_profile`. -/
def validateProfile (checks : ProfileChecks) (profile : Profile) : Except IoError Unit := do
  if isBlank profile.id then
    throw (invalidData "profile id must not be blank")
  if isBlank profile.name then
    throw (invalidData "profile name must not be blank")
  if profile.backend ≠ .none && isBlank profile.configPath then
    throw (invalidData "profile config path must not be blank")
  checks.otherFields profile
  if profile.backend = .xray then
    validateListenerPorts profile
  validateSystemProxy profile
  let name := (fileName profile.configPath).map Char.toLower
  if !(configExtensions profile.backend).any (fun extension => extension.toList.isSuffixOf name) then
    throw (invalidData (s!"config path '{profile.configPath}' has an unsupported extension for " ++
      backendLabel profile.backend))

/-! ### The store -/

/-- `PROFILE_DOCUMENT_VERSION`. -/
def profileDocumentVersion : Nat := 1

/-- `ProfileStore::load`. No file is an empty document. -/
def load (checks : ProfileChecks) : Option ProfileDocument → Except IoError ProfileDocument
  | none => .ok ⟨profileDocumentVersion, []⟩
  | some document => do
      if document.version ≠ profileDocumentVersion then
        throw (invalidData s!"unsupported profile document version {document.version}")
      document.profiles.forM checks.stored
      pure document

/-- `save_locked`: the document that is written. -/
def saveLocked (checks : ProfileChecks) (document : ProfileDocument) :
    Except IoError ProfileDocument := do
  document.profiles.forM checks.stored
  pure document

/-- Write over the first profile with the id, or behind all of them. -/
def putProfile (profile : Profile) : List Profile → List Profile
  | [] => [profile]
  | stored :: rest =>
    if stored.id = profile.id then profile :: rest else stored :: putProfile profile rest

/-- Write over the first profile with the id. -/
def replaceProfile (id : String) (profile : Profile) : List Profile → List Profile
  | [] => []
  | stored :: rest =>
    if stored.id = id then profile :: rest else stored :: replaceProfile id profile rest

def findProfile (id : String) (profiles : List Profile) : Option Profile :=
  profiles.find? fun profile => profile.id == id

/-- `ProfileStore::upsert`: the document that is written and returned. -/
def upsert (checks : ProfileChecks) (profile : Profile) (file : Option ProfileDocument) :
    Except IoError ProfileDocument := do
  validateProfile checks profile
  let document ← load checks file
  saveLocked checks { document with profiles := putProfile profile document.profiles }

/-- `ProfileStore::update_profile`: the document that is written and returned. -/
def updateProfile (checks : ProfileChecks) (id : String)
    (update : Profile → Except IoError Profile) (file : Option ProfileDocument) :
    Except IoError ProfileDocument := do
  let document ← load checks file
  match findProfile id document.profiles with
  | none => throw ⟨.notFound, "profile not found"⟩
  | some profile => do
      let updated ← update profile
      validateProfile checks updated
      saveLocked checks
        { document with profiles := replaceProfile id updated document.profiles }

/-! ### What the store's steps do -/

section
variable {checks : ProfileChecks} {file : Option ProfileDocument}
  {document written : ProfileDocument} {profile : Profile} {id : String}
  {update : Profile → Except IoError Profile}

/-- The profiles on disk. -/
def storedProfiles : Option ProfileDocument → List Profile
  | none => []
  | some document => document.profiles

theorem load_eq_ok (h : load checks file = .ok document) :
    document.profiles = storedProfiles file := by
  cases file with
  | none =>
    cases h
    rfl
  | some stored =>
    simp only [load] at h
    split at h
    · cases h
    · obtain ⟨-, -, hdocument⟩ := bind_eq_ok.mp h
      cases hdocument
      rfl

theorem saveLocked_eq_ok (h : saveLocked checks document = .ok written) : written = document := by
  obtain ⟨-, -, hwritten⟩ := bind_eq_ok.mp h
  cases hwritten
  rfl

/-- An `upsert` that went through wrote the profile as it is. -/
theorem upsert_eq_ok (h : upsert checks profile file = .ok written) :
    written.profiles = putProfile profile (storedProfiles file) := by
  obtain ⟨-, -, hload⟩ := bind_eq_ok.mp h
  obtain ⟨document, hdocument, hsave⟩ := bind_eq_ok.mp hload
  rw [saveLocked_eq_ok hsave, load_eq_ok hdocument]

/-- An `updateProfile` that went through changed the profile that is stored. -/
theorem updateProfile_eq_ok (h : updateProfile checks id update file = .ok written) :
    ∃ stored updated, findProfile id (storedProfiles file) = some stored ∧
      update stored = .ok updated ∧
        written.profiles = replaceProfile id updated (storedProfiles file) := by
  obtain ⟨document, hdocument, hupdate⟩ := bind_eq_ok.mp h
  rw [← load_eq_ok hdocument]
  cases hfound : findProfile id document.profiles with
  | none =>
    rw [hfound] at hupdate
    cases hupdate
  | some stored =>
    rw [hfound] at hupdate
    obtain ⟨updated, hupdated, hrest⟩ := bind_eq_ok.mp hupdate
    obtain ⟨-, -, hsave⟩ := bind_eq_ok.mp hrest
    exact ⟨stored, updated, rfl, hupdated, by rw [saveLocked_eq_ok hsave]⟩

end

/-! ### Lists of profiles -/

section
variable {profile : Profile} {id : String} {profiles : List Profile} {R : Profile → Profile → Prop}
variable {stored : Profile}

/-- The profiles besides the first one with the id. -/
def otherProfiles (id : String) (profiles : List Profile) : List Profile :=
  profiles.eraseP fun profile => profile.id == id

theorem otherProfiles_cons_self (h : stored.id = id) :
    otherProfiles id (stored :: profiles) = profiles := by
  rw [otherProfiles, eraseP_cons_of_pos (by simp [h])]

theorem otherProfiles_cons_of_ne (h : stored.id ≠ id) :
    otherProfiles id (stored :: profiles) = stored :: otherProfiles id profiles := by
  rw [otherProfiles, eraseP_cons_of_neg (by simp [h]), otherProfiles]

theorem otherProfiles_sublist : (otherProfiles id profiles).Sublist profiles := eraseP_sublist

theorem findProfile_cons_self (h : stored.id = id) :
    findProfile id (stored :: profiles) = some stored := by
  rw [findProfile, find?_cons_of_pos (by simp [h])]

theorem findProfile_cons_of_ne (h : stored.id ≠ id) :
    findProfile id (stored :: profiles) = findProfile id profiles := by
  rw [findProfile, find?_cons_of_neg (by simp [h]), findProfile]

theorem id_of_findProfile (h : findProfile id profiles = some profile) : profile.id = id := by
  have hfound := find?_some h
  exact eq_of_beq hfound

theorem mem_putProfile (h : stored ∈ putProfile profile profiles) :
    stored = profile ∨ stored ∈ otherProfiles profile.id profiles := by
  induction profiles with
  | nil => exact .inl (mem_singleton.mp h)
  | cons first rest ih =>
    by_cases hid : first.id = profile.id
    · rw [putProfile, if_pos hid] at h
      rw [otherProfiles_cons_self hid]
      exact mem_cons.mp h
    · rw [putProfile, if_neg hid] at h
      rw [otherProfiles_cons_of_ne hid]
      rcases mem_cons.mp h with rfl | hrest
      · exact .inr (by simp)
      · exact (ih hrest).imp_right (mem_cons_of_mem _)

/-- What is written stands with the other profiles as they stood with each other. -/
theorem pairwise_putProfile (hsymm : ∀ p q, R p q → R q p) (h : profiles.Pairwise R)
    (hothers : ∀ other ∈ otherProfiles profile.id profiles, R profile other) :
    (putProfile profile profiles).Pairwise R := by
  induction profiles with
  | nil => simp [putProfile]
  | cons first rest ih =>
    have hfirst := pairwise_cons.mp h
    by_cases hid : first.id = profile.id
    · rw [otherProfiles_cons_self hid] at hothers
      rw [putProfile, if_pos hid]
      exact pairwise_cons.mpr ⟨hothers, hfirst.2⟩
    · rw [otherProfiles_cons_of_ne hid] at hothers
      rw [putProfile, if_neg hid]
      refine pairwise_cons.mpr ⟨?_, ih hfirst.2 fun other hother =>
        hothers other (mem_cons_of_mem _ hother)⟩
      intro stored hstored
      rcases mem_putProfile hstored with rfl | hother
      · exact hsymm _ _ (hothers first (by simp))
      · exact hfirst.1 stored (otherProfiles_sublist.subset hother)

/-- Writing over a profile that is there is what `upsert` does to it. -/
theorem replaceProfile_eq_putProfile (hid : profile.id = id)
    (h : findProfile id profiles = some stored) :
    replaceProfile id profile profiles = putProfile profile profiles := by
  subst hid
  induction profiles with
  | nil => cases h
  | cons first rest ih =>
    by_cases hfirst : first.id = profile.id
    · rw [replaceProfile, putProfile, if_pos hfirst, if_pos hfirst]
    · rw [findProfile_cons_of_ne hfirst] at h
      rw [replaceProfile, putProfile, if_neg hfirst, if_neg hfirst, ih h]

/-- The stored profile with the id stands with the others as the list says. -/
theorem pairwise_findProfile {other : Profile} (hsymm : ∀ p q, R p q → R q p)
    (h : profiles.Pairwise R) (hfound : findProfile id profiles = some stored)
    (hother : other ∈ otherProfiles id profiles) : R stored other := by
  induction profiles with
  | nil => cases hfound
  | cons first rest ih =>
    have hfirst := pairwise_cons.mp h
    by_cases hid : first.id = id
    · rw [findProfile_cons_self hid] at hfound
      rw [otherProfiles_cons_self hid] at hother
      cases hfound
      exact hfirst.1 other hother
    · rw [findProfile_cons_of_ne hid] at hfound
      rw [otherProfiles_cons_of_ne hid] at hother
      rcases mem_cons.mp hother with rfl | hother
      · exact hsymm _ _ (hfirst.1 stored (mem_of_find?_eq_some hfound))
      · exact ih hfirst.2 hfound hother

/-- What is written is what the id finds. -/
theorem findProfile_putProfile : findProfile profile.id (putProfile profile profiles) =
    some profile := by
  induction profiles with
  | nil => exact findProfile_cons_self rfl
  | cons first rest ih =>
    by_cases hid : first.id = profile.id
    · rw [putProfile, if_pos hid, findProfile_cons_self rfl]
    · rw [putProfile, if_neg hid, findProfile_cons_of_ne hid, ih]

theorem findProfile_replaceProfile (hid : profile.id = id)
    (h : findProfile id profiles = some stored) :
    findProfile id (replaceProfile id profile profiles) = some profile := by
  rw [replaceProfile_eq_putProfile hid h, ← hid]
  exact findProfile_putProfile

end

end NetOrchestrator.Core.Profiles
