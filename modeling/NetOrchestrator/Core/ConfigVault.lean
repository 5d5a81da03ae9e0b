import NetOrchestrator.Core.EndpointKey
import NetOrchestrator.Core.ProfileImport

/-!
# `Core.ConfigVault`: the configs of a profile on disk

The vault keeps a directory for each profile. A config that is stored gets a revision of its own in
there, named after the clock, and the endpoints of a subscription are in a file beside the
revisions. `VaultState` is what there is on disk: the profile document, the endpoints of the
profile at hand, and all config files with the places where they are.

One write may fail, which is what `Fault` says. A write that fails has left things as they were,
besides `store_subscription_endpoints`, which may have replaced the file by then.
-/

namespace NetOrchestrator.Core.Profiles

open Lib Core.Errors List
open Daemon (fnvStep hexPadded isAsciiAlphanumeric isAsciiAlphanumeric_hexPadded)

/-! ### Paths -/

/-- The names on the way from `/` to a file. -/
abbrev Place := List (List Char)

/-- A component of a path that is a name, or `..`. -/
def PlainPart (part : List Char) : Prop := part ≠ [] ∧ part ≠ ['.'] ∧ '/' ∉ part

/-- The components of an absolute path. -/
def placeOf (path : String) : Option Place :=
  match path.toList with
  | '/' :: rest => some ((rest.splitOn '/').filter fun part => part != [] && part != ['.'])
  | _ => none

/-- The path of a place. -/
def pathAt (place : Place) : String := String.ofList (place.flatMap ('/' :: ·))

/-- The root of the vault. -/
structure VaultRoot where
  parts : Place
  plain : ∀ part ∈ parts, PlainPart part

/-- `sanitize_profile_id`: the name of the profile's directory. -/
def vaultName (id : String) : Except IoError (List Char) :=
  let safe := id.toList.map fun c => if isAsciiAlphanumeric c || c == '-' || c == '_' then c else '_'
  if !isSafeId (String.ofList safe) then
    .error (invalidInput "profile id cannot be used to name a vault directory")
  else if safe = id.toList then .ok safe
  else
    let hash := id.toUTF8.toList.foldl fnvStep 0xcbf29ce484222325
    .ok (safe ++ '-' :: hexPadded hash.toNat 16)

/-- `CONFIG_NAMES`. -/
def configNames : List (List Char) :=
  ["tunnel.conf", "tunnel.conf.dpapi", "client.ovpn", "client.conf", "config.json",
    "config.json.dpapi"].map String.toList

/-- A name that a file of a revision may have. -/
def isRevisionFile (name : List Char) : Place → Bool
  | [first] =>
    configNames.contains first || first == name ++ ".conf".toList ||
      first == name ++ ".conf.dpapi".toList
  | [first, last] => first == "assets".toList && last != "..".toList
  | _ => false

/-- `rev-` and something behind it. -/
def isRevisionName (name : List Char) : Bool := "rev-".toList.isPrefixOf name && 4 < name.length

/-- Where a path below the root leads. -/
def belowRoot (root : VaultRoot) (path : String) : Option Place :=
  (placeOf path).bind (root.parts.isPrefixOf? ·)

/-- `is_managed_path`, with the profile directory and the revision that the path is in. -/
def managedRevision (root : VaultRoot) (path : String) : Option (List Char × List Char) :=
  match belowRoot root path with
  | some (name :: revision :: file) =>
    if isSafeId (String.ofList name) && isRevisionName revision && isRevisionFile name file then
      some (name, revision)
    else none
  | _ => none

/-- `is_managed_profile_path`. -/
def isManagedProfilePath (root : VaultRoot) (id path : String) : Bool :=
  match managedRevision root path, vaultName id with
  | some (name, _), .ok safe => name == safe
  | _, _ => false

/-! ### What is on disk -/

/-- The file with the endpoints of a subscription. -/
inductive Sidecar where
  | endpoints (endpoints : List SubscriptionEndpoint)
  | unreadable (text : String)
  deriving DecidableEq

structure VaultState where
  store : Option ProfileDocument
  sidecar : Option Sidecar
  configs : List (Place × Json)

/-- The write that fails. `replaced` is whether the endpoints are in place when it fails. -/
inductive Fault where
  | storeConfig
  | storeEndpoints (replaced : Bool)
  | upsert
  | removeRevision
  deriving DecidableEq

/-- What the system says about a write that fails. -/
def writeFailed : IoError := ⟨.permissionDenied, "Permission denied"⟩

/-- The config at a path. -/
def configAt (path : String) (state : VaultState) : Option Json :=
  (placeOf path).bind fun place => state.configs.lookup place

/-- The profile that is stored under the id. -/
def VaultState.profile (id : String) (state : VaultState) : Option Profile :=
  findProfile id (storedProfiles state.store)

/-- `read_subscription_endpoints`. -/
def readEndpoints (state : VaultState) : Except IoError (List SubscriptionEndpoint) :=
  match state.sidecar with
  | some (.endpoints endpoints) => .ok endpoints
  | some (.unreadable _) => .error (invalidData "invalid subscription endpoints")
  | none => .error ⟨.notFound, "No such file or directory"⟩

/-- The name of the revision that is made at this time. -/
def revisionName (nanos : Nat) : List Char := "rev-".toList ++ Nat.toDigits 10 nanos

/-- The place of the new revision. -/
def revisionPlace (root : VaultRoot) (name : List Char) (nanos : Nat) : Place :=
  root.parts ++ [name, revisionName nanos]

/-- `store_generated_xray`: the path of the config. A revision of that name must not be there. -/
def storeGeneratedXray (root : VaultRoot) (id : String) (nanos : Nat) (config : Json)
    (fault : Option Fault) (state : VaultState) : Except IoError String × VaultState :=
  match vaultName id with
  | .error e => (.error e, state)
  | .ok name =>
    let revision := revisionPlace root name nanos
    if fault = some .storeConfig then (.error writeFailed, state)
    else if state.configs.any fun file => revision.isPrefixOf file.1 then
      (.error ⟨.alreadyExists, "Directory not empty"⟩, state)
    else
      let place := revision ++ ["config.json".toList]
      (.ok (pathAt place), { state with configs := (place, config) :: state.configs })

/-- `store_subscription_endpoints`. -/
def storeSubscriptionEndpoints (endpoints : List SubscriptionEndpoint) (fault : Option Fault)
    (state : VaultState) : Except IoError Unit × VaultState :=
  let stored := { state with sidecar := some (.endpoints endpoints) }
  match fault with
  | some (.storeEndpoints replaced) => (.error writeFailed, if replaced then stored else state)
  | _ => (.ok (), stored)

/-- `ProfileStore::upsert`. -/
def upsertProfile (checks : ProfileChecks) (profile : Profile) (fault : Option Fault)
    (state : VaultState) : Except IoError ProfileDocument × VaultState :=
  if fault = some .upsert then (.error writeFailed, state)
  else
    match upsert checks profile state.store with
    | .ok document => (.ok document, { state with store := some document })
    | .error e => (.error e, state)

/-- `remove_revision_for_config`. Its refusals of a symbolic link, and a removal that stops halfway,
are the one fault `removeRevision`, behind which the revision stands: no link is part of the model,
and what a removal stopped halfway has left counts as the whole revision. -/
def removeRevisionForConfig (root : VaultRoot) (path : String) (fault : Option Fault)
    (state : VaultState) : Except IoError Unit × VaultState :=
  match managedRevision root path with
  | none => (.error (invalidInput "path is not a managed vault config revision"), state)
  | some (name, revision) =>
    if fault = some .removeRevision then (.error writeFailed, state)
    else
      (.ok (), { state with
        configs := state.configs.filter fun file =>
          !(root.parts ++ [name, revision]).isPrefixOf file.1 })

/-- `remove_profile`: the whole directory of the profile. -/
def removeProfileDir (root : VaultRoot) (id : String) (state : VaultState) : VaultState :=
  match vaultName id with
  | .error _ => state
  | .ok name =>
    { state with
      sidecar := none
      configs := state.configs.filter fun file => !(root.parts ++ [name]).isPrefixOf file.1 }

/-! ### Places -/

section
variable {root : VaultRoot} {id path : String} {name : List Char} {nanos : Nat} {place : Place}

/-- The place of the config in the new revision. -/
def configPlace (root : VaultRoot) (name : List Char) (nanos : Nat) : Place :=
  revisionPlace root name nanos ++ ["config.json".toList]

theorem intercalate_nil_cons (first : List Char) (rest : Place) :
    ['/'].intercalate (first :: rest) = first ++ rest.flatMap ('/' :: ·) := by
  induction rest generalizing first with
  | nil => simp
  | cons next rest ih => rw [intercalate_cons_cons, ih]; simp

/-- A place is read off its own path. -/
theorem placeOf_pathAt (h : ∀ part ∈ place, PlainPart part) (hne : place ≠ []) :
    placeOf (pathAt place) = some place := by
  cases place with
  | nil => exact absurd rfl hne
  | cons first rest =>
    have hsplit : (first ++ rest.flatMap ('/' :: ·)).splitOn '/' = first :: rest := by
      rw [← intercalate_nil_cons]
      exact splitOn_intercalate _ (fun part hpart => (h part hpart).2.2) (by simp)
    have hfilter : (first :: rest).filter (fun part => part != [] && part != ['.']) =
        first :: rest := by
      refine filter_eq_self.mpr ?_
      intro part hpart
      simp [(h part hpart).1, (h part hpart).2.1]
    simp only [placeOf, pathAt, flatMap_cons, cons_append, String.toList_ofList, hsplit, hfilter]

/-- A name that is safe for a directory. -/
theorem isSafeId_ofList_iff : isSafeId (String.ofList name) = true ↔
    name ≠ [] ∧ (∀ c ∈ name, isAsciiAlphanumeric c ∨ c = '-' ∨ c = '_') ∧ ∃ c ∈ name, c ≠ '_' := by
  have hempty : String.ofList name = "" ↔ name = [] := by
    rw [← String.ofList_nil, String.ofList_inj]
  simp [isSafeId, hempty, or_assoc, and_assoc]

theorem isSafeId_of_vaultName (h : vaultName id = .ok name) :
    isSafeId (String.ofList name) = true := by
  unfold vaultName at h
  simp only at h
  obtain ⟨hsafe, h⟩ := Checks.passed h
  simp only [Bool.not_eq_true, Bool.not_eq_false'] at hsafe
  split at h
  · cases h
    exact hsafe
  · cases h
    obtain ⟨hne, hall, -⟩ := isSafeId_ofList_iff.mp hsafe
    refine isSafeId_ofList_iff.mpr ⟨by simp, ?_, '-', by simp, by decide⟩
    intro c hc
    rcases mem_append.mp hc with hhead | htail
    · exact hall c hhead
    · rcases mem_cons.mp htail with rfl | hhash
      · exact .inr (.inl rfl)
      · exact .inl (isAsciiAlphanumeric_hexPadded hhash)

theorem plain_of_isSafeId (h : isSafeId (String.ofList name) = true) : PlainPart name := by
  obtain ⟨hne, hall, -⟩ := isSafeId_ofList_iff.mp h
  refine ⟨hne, ?_, ?_⟩
  · rintro rfl
    exact absurd (hall '.' (by simp)) (by decide)
  · intro hslash
    exact absurd (hall '/' hslash) (by decide)

theorem plain_revisionName : PlainPart (revisionName nanos) := by
  refine ⟨by simp [revisionName], by simp [revisionName], ?_⟩
  obtain ⟨ds, hds, hlt, -, -⟩ := Net.exists_digits (show 1 < 10 by omega) nanos
  have hdigits : ∀ d < 10, Nat.digitChar d ≠ '/' := by decide
  rw [revisionName, hds, mem_append, not_or]
  refine ⟨by decide, ?_⟩
  intro hslash
  obtain ⟨d, hd, hchar⟩ := mem_map.mp hslash
  exact hdigits d (hlt d hd) hchar

theorem placeOf_configPath (h : vaultName id = .ok name) :
    placeOf (pathAt (configPlace root name nanos)) = some (configPlace root name nanos) := by
  refine placeOf_pathAt ?_ (by simp [configPlace, revisionPlace])
  intro part hpart
  simp only [configPlace, revisionPlace, append_assoc, mem_append, mem_cons,
    not_mem_nil, or_false] at hpart
  rcases hpart with hroot | (rfl | rfl) | rfl
  · exact root.plain part hroot
  · exact plain_of_isSafeId (isSafeId_of_vaultName h)
  · exact plain_revisionName
  · exact ⟨by decide, by decide, by decide⟩

theorem isPrefixOf?_append {rest : Place} (front : Place) :
    front.isPrefixOf? (front ++ rest) = some rest := by
  induction front with
  | nil => rfl
  | cons part front ih => simp [List.isPrefixOf?, ih]

/-- The path of a new config is managed. -/
theorem managedRevision_configPath (h : vaultName id = .ok name) :
    managedRevision root (pathAt (configPlace root name nanos)) =
      some (name, revisionName nanos) := by
  have hbelow : belowRoot root (pathAt (configPlace root name nanos)) =
      some [name, revisionName nanos, "config.json".toList] := by
    rw [belowRoot, placeOf_configPath h, Option.bind_some, configPlace, revisionPlace, append_assoc]
    exact isPrefixOf?_append _
  have hrevision : isRevisionName (revisionName nanos) = true := by
    have hlength : 0 < (Nat.toDigits 10 nanos).length := Nat.length_toDigits_pos
    simp [isRevisionName, revisionName, hlength]
  rw [managedRevision, hbelow]
  simp [isSafeId_of_vaultName h, hrevision, isRevisionFile, configNames]

end

/-! ### Writes -/

section
variable {root : VaultRoot} {id path : String} {name : List Char} {nanos : Nat} {config : Json}
variable {current : VaultState} {result : Except IoError Unit}
  {fault : Option Fault} {state after : VaultState} {e : IoError}

/-- Nothing is in the revision that is to be made. -/
def NewRevision (root : VaultRoot) (name : List Char) (nanos : Nat) (state : VaultState) : Prop :=
  ∀ file ∈ state.configs, ¬ revisionPlace root name nanos <+: file.1

/-- A config that is not stored leaves everything as it was. -/
theorem storeGeneratedXray_eq_error
    (h : storeGeneratedXray root id nanos config fault state = (.error e, after)) :
    after = state := by
  unfold storeGeneratedXray at h
  split at h
  · cases h
    rfl
  · simp only at h
    split at h
    · cases h
      rfl
    · split at h
      · cases h
        rfl
      · cases h

/-- A config that is stored is alone in its revision. -/
theorem storeGeneratedXray_eq_ok
    (h : storeGeneratedXray root id nanos config fault state = (.ok path, after)) :
    ∃ name, vaultName id = .ok name ∧ NewRevision root name nanos state ∧
      path = pathAt (configPlace root name nanos) ∧
        after = { state with configs := (configPlace root name nanos, config) :: state.configs } := by
  unfold storeGeneratedXray at h
  split at h
  · cases h
  · rename_i name hname
    simp only at h
    split at h
    · cases h
    · split at h
      · cases h
      · rename_i hnew
        cases h
        refine ⟨name, hname, ?_, rfl, rfl⟩
        intro file hfile hprefix
        exact hnew (any_eq_true.mpr ⟨file, hfile, isPrefixOf_iff_prefix.mpr hprefix⟩)

section
variable (hname : vaultName id = .ok name)
include hname

theorem configAt_of_new (hnew : NewRevision root name nanos state) :
    configAt (pathAt (configPlace root name nanos)) state = none := by
  rw [configAt, placeOf_configPath hname, Option.bind_some]
  refine lookup_eq_none_iff.mpr ?_
  intro file hfile
  have hother : file.1 ≠ configPlace root name nanos := by
    intro hplace
    exact hnew file hfile (hplace ▸ prefix_append _ _)
  simpa using fun h => hother h.symm

theorem configAt_of_cons {configs : List (Place × Json)}
    (hconfigs : state.configs = (configPlace root name nanos, config) :: configs) :
    configAt (pathAt (configPlace root name nanos)) state = some config := by
  rw [configAt, placeOf_configPath hname, Option.bind_some, hconfigs, lookup_cons_self]

/-- Removing the new revision leaves the configs there were. -/
theorem removeRevision_new (hnew : NewRevision root name nanos state)
    (hconfigs : current.configs = (configPlace root name nanos, config) :: state.configs) :
    removeRevisionForConfig root (pathAt (configPlace root name nanos)) none current =
      (.ok (), { current with configs := state.configs }) := by
  have hkept : state.configs.filter (fun file =>
      !(root.parts ++ [name, revisionName nanos]).isPrefixOf file.1) = state.configs := by
    refine filter_eq_self.mpr ?_
    intro file hfile
    have hprefix := hnew file hfile
    rw [revisionPlace] at hprefix
    rw [Bool.not_eq_true', ← Bool.not_eq_true, isPrefixOf_iff_prefix]
    exact hprefix
  have hgone : (root.parts ++ [name, revisionName nanos]).isPrefixOf
      (configPlace root name nanos) = true :=
    isPrefixOf_iff_prefix.mpr (prefix_append _ _)
  simp [removeRevisionForConfig, managedRevision_configPath hname, hconfigs, hgone, hkept]

end

/-- What removing a revision may change. -/
theorem removeRevision_eq (h : removeRevisionForConfig root path fault state = (result, after)) :
    after.store = state.store ∧ after.sidecar = state.sidecar ∧
      (after = state ∨ result = .ok () ∧ fault ≠ some .removeRevision ∧
        ∃ name revision, managedRevision root path = some (name, revision) ∧
          after.configs = state.configs.filter fun file =>
            !(root.parts ++ [name, revision]).isPrefixOf file.1) := by
  unfold removeRevisionForConfig at h
  split at h
  · cases h
    exact ⟨rfl, rfl, .inl rfl⟩
  · rename_i name revision hmanaged
    split at h
    · cases h
      exact ⟨rfl, rfl, .inl rfl⟩
    · rename_i hfault
      cases h
      exact ⟨rfl, rfl, .inr ⟨rfl, hfault, name, revision, hmanaged, rfl⟩⟩

/-- Another revision of a vault is not on the way to the new config. -/
theorem prefix_configPlace_iff {other revision : List Char} :
    root.parts ++ [other, revision] <+: configPlace root name nanos ↔
      other = name ∧ revision = revisionName nanos := by
  rw [configPlace, revisionPlace, append_assoc, prefix_append_right_inj]
  simp [cons_prefix_cons]

/-- Removing another revision leaves the new config where it is. -/
theorem configAt_of_removed {configs : List (Place × Json)} (hname : vaultName id = .ok name)
    (hconfigs : current.configs = (configPlace root name nanos, config) :: configs)
    (hother : managedRevision root path = some (name, revisionName nanos) →
      fault = some .removeRevision)
    (h : removeRevisionForConfig root path fault current = (result, after)) :
    configAt (pathAt (configPlace root name nanos)) after = some config := by
  obtain ⟨-, -, rfl | ⟨-, hfault, other, revision, hmanaged, hfiltered⟩⟩ := removeRevision_eq h
  · exact configAt_of_cons hname hconfigs
  · have hkept : ¬ root.parts ++ [other, revision] <+: configPlace root name nanos := by
      rw [prefix_configPlace_iff]
      rintro ⟨rfl, rfl⟩
      exact hfault (hother hmanaged)
    rw [← isPrefixOf_iff_prefix, Bool.not_eq_true] at hkept
    rw [hconfigs, filter_cons_of_pos (by simp [hkept])] at hfiltered
    exact configAt_of_cons hname hfiltered

/-- Removing the new revision itself takes the new config away. -/
theorem configAt_of_removed_new (hname : vaultName id = .ok name)
    (hsame : managedRevision root path = some (name, revisionName nanos))
    (hfault : fault ≠ some .removeRevision)
    (h : removeRevisionForConfig root path fault current = (result, after)) :
    configAt (pathAt (configPlace root name nanos)) after = none := by
  unfold removeRevisionForConfig at h
  rw [hsame] at h
  simp only [if_neg hfault] at h
  cases h
  refine configAt_of_new hname ?_
  intro file hfile hprefix
  have hgone := (mem_filter.mp hfile).2
  rw [Bool.not_eq_true', ← Bool.not_eq_true, isPrefixOf_iff_prefix] at hgone
  exact hgone hprefix

end

end NetOrchestrator.Core.Profiles
