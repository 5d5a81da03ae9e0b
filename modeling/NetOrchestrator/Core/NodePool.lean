import NetOrchestrator.Core.EndpointKey
import Mathlib.Data.List.Infix

/-!
# `Core.NodePool`: failover nodes that are picked by name and country

A subscription may extend its failover list by endpoints whose names match a filter and whose exit
country has been seen. A rebuild reads the profile, probes the candidates side by side, and writes
the members into the profile that is stored by then.

The probes come in as `Probes`: what each of them reported, and the order in which they came back,
unless the deadline passed first.
-/

namespace NetOrchestrator.Core.Profiles

open Core.Errors
open Daemon (trim)

def maxPoolFilters : Nat := 8
def maxPoolNameTerms : Nat := 4
def maxPoolNameTermLen : Nat := 64
def maxPoolCandidates : Nat := 32

/-- `MAX_FAILOVER_NODES`. -/
def maxFailoverNodes : Nat := 8

structure ExitCountry where
  country : String
  ip : String
  deriving DecidableEq

inductive NodePoolVerdict where
  | member
  | explicit
  | unreachable
  | wrongCountry
  | skipped
  deriving DecidableEq

structure PoolProbeEntry where
  key : String
  name : String
  verdict : NodePoolVerdict
  exitCountry : Option String
  deriving DecidableEq

/-- What is not modelled here: endpoint keys, and `to_lowercase`. -/
structure PoolCrates where
  keys : KeyCrates
  lowercase : String → String

/-! ### Settings -/

/-- `normalize_country_code`. -/
def normalizeCountryCode (code : String) : Option String :=
  let code := trim code
  if code.utf8ByteSize == 2 && code.toList.all Char.isAlpha then
    some (String.ofList (code.toList.map Char.toUpper))
  else none

def validatePoolFilter (verify : Bool) (filter : NodePoolFilter) : Except IoError Unit := do
  if maxPoolNameTerms < filter.nameContains.length then
    throw (invalidInput "A pool filter takes at most 4 name terms")
  filter.nameContains.forM fun term =>
    if isBlank term ∨ maxPoolNameTermLen < term.length then
      throw (invalidInput "Pool name terms must be 1-64 characters")
    else pure ()
  if verify && (filter.exitCountry.bind normalizeCountryCode).isNone then
    throw (invalidInput
      "Each pool filter needs an exit country (e.g. CA, RU) while verification is on")
  if !verify && (filter.nameContains.isEmpty || filter.exitCountry.isSome) then
    throw (invalidInput "Unverified pool filters need names and cannot filter by exit country")

/-- `validate_pool_settings`. -/
def validatePoolSettings (settings : NodePoolSettings) : Except IoError Unit := do
  if settings.filters.isEmpty ∨ maxPoolFilters < settings.filters.length then
    throw (invalidInput "A node pool needs 1-8 filters")
  settings.filters.forM (validatePoolFilter settings.verifyExitCountry)

/-! ### Selection -/

variable (crates : PoolCrates)

/-- A filter without terms matches every name. -/
def matchesFilter (endpoint : SubscriptionEndpoint) (filter : NodePoolFilter) : Bool :=
  filter.nameContains.isEmpty ||
    filter.nameContains.any fun term =>
      (crates.lowercase term).toList <:+: (crates.lowercase endpoint.name).toList

/-- `matching_filters`. -/
def matchingFilters (endpoint : SubscriptionEndpoint)
    (settings : NodePoolSettings) : List NodePoolFilter :=
  settings.filters.filter (matchesFilter crates endpoint)

/-- `expected_countries`: each country once. -/
def expectedCountries (filters : List NodePoolFilter) : List String :=
  (filters.filterMap fun filter => filter.exitCountry.bind normalizeCountryCode).foldl
    (fun expected code => if expected.contains code then expected else expected ++ [code]) []

/-- The primary: the stored key, else the key of the active endpoint. -/
def primaryKey (crates : KeyCrates) (profile : Profile) (endpoints : List SubscriptionEndpoint) :
    Option String :=
  profile.subscription.bind fun subscription =>
    (subscription.activeKey.filter fun key => validEndpointKey key).or
      ((endpoints[subscription.activeIndex]?).map fun endpoint => endpointKey crates endpoint.url)

/-- `named_exit_keys`. -/
def namedExitKeys (profile : Profile) : List String :=
  profile.xrayProxyExits.flatMap fun named => named.target.endpointKeys

/-- `explicit_keys`. -/
def explicitKeys (crates : KeyCrates) (profile : Profile) (endpoints : List SubscriptionEndpoint) :
    List String :=
  profile.pinnedPolicies.map (·.endpointKey) ++ namedExitKeys profile ++
    profile.xrayDns.outboundKey.toList ++
      (profile.subscription.elim [] fun subscription => subscription.backupKeys.map (·.key)) ++
        (primaryKey crates profile endpoints).toList

/-- An endpoint that is worth a probe, and the countries it may report. -/
structure PoolCandidate where
  endpoint : SubscriptionEndpoint
  expected : List String
  deriving DecidableEq

/-- What the loop over the endpoints has found, and the keys that it has seen. -/
structure PoolSelection where
  entries : List PoolProbeEntry := []
  candidates : List PoolCandidate := []
  seenKeys : List String := []
  deriving DecidableEq

/-- One endpoint of the loop. -/
def selectEndpoint (settings : NodePoolSettings) (explicit : List String)
    (found : PoolSelection) (endpoint : SubscriptionEndpoint) : PoolSelection :=
  let key := endpointKey crates.keys endpoint.url
  if found.seenKeys.contains key then found
  else
    let found := { found with seenKeys := key :: found.seenKeys }
    let filters := matchingFilters crates endpoint settings
    if filters.isEmpty then found
    else if explicit.contains key then
      { found with entries := found.entries ++ [⟨key, endpoint.name, .explicit, none⟩] }
    else if maxPoolCandidates ≤ found.candidates.length then
      { found with entries := found.entries ++ [⟨key, endpoint.name, .skipped, none⟩] }
    else
      { found with candidates := found.candidates ++ [⟨endpoint, expectedCountries filters⟩] }

def selectEndpoints (settings : NodePoolSettings) (explicit : List String)
    (endpoints : List SubscriptionEndpoint) : PoolSelection :=
  endpoints.foldl (selectEndpoint crates settings explicit) {}

/-! ### Probes -/

/-- What the probe of each candidate reports, and the order in which so many probes come back, each
of them once. There is none where the deadline passes. -/
structure Probes where
  outcome : Nat → Except String ExitCountry
  completed : Option (∀ n, { order : List Nat // order.Perm (List.range n) })

/-- The verdict on one candidate. Without verification nothing is probed. -/
def probeVerdict (verify : Bool) (candidate : PoolCandidate)
    (outcome : Except String ExitCountry) : NodePoolVerdict × Option String :=
  if verify then
    match outcome with
    | .ok exit =>
      if candidate.expected.contains exit.country then (.member, some exit.country)
      else (.wrongCountry, some exit.country)
    | .error _ => (.unreachable, none)
  else (.member, none)

def probeEntry (verify : Bool) (candidate : PoolCandidate)
    (outcome : Except String ExitCountry) : PoolProbeEntry :=
  let result := probeVerdict verify candidate outcome
  ⟨endpointKey crates.keys candidate.endpoint.url, candidate.endpoint.name, result.1, result.2⟩

/-- The results as they came back, with their places. -/
def probeResults (verify : Bool) (candidates : List PoolCandidate)
    (outcome : Nat → Except String ExitCountry) (completed : List Nat) :
    List (Nat × PoolProbeEntry) :=
  completed.filterMap fun index =>
    candidates[index]?.map fun candidate =>
      (index, probeEntry crates verify candidate (outcome index))

/-! ### Members -/

/-- The members found so far, and the entries. -/
structure PoolMembers where
  members : List EndpointRef := []
  entries : List PoolProbeEntry := []
  deriving DecidableEq

/-- One result of the loop: a member beyond the capacity is skipped. -/
def admitResult (capacity : Nat) (found : PoolMembers) (result : Nat × PoolProbeEntry) :
    PoolMembers :=
  let entry := result.2
  if entry.verdict = .member then
    if capacity ≤ found.members.length then
      { found with entries := found.entries ++ [{ entry with verdict := .skipped }] }
    else
      { members := found.members ++ [⟨entry.key, entry.name⟩]
        entries := found.entries ++ [entry] }
  else { found with entries := found.entries ++ [entry] }

/-- The entries of the selection and the results, in the order of the endpoints. -/
def admitResults (capacity : Nat) (entries : List PoolProbeEntry)
    (results : List (Nat × PoolProbeEntry)) : PoolMembers :=
  (results.insertionSort fun a b => a.1 ≤ b.1).foldl (admitResult capacity) { entries }

/-- Whether a previous member may stay where no new one was found. -/
def mayRetain (settings : NodePoolSettings)
    (endpoints : List SubscriptionEndpoint) (entries : List PoolProbeEntry) (node : EndpointRef) :
    Bool :=
  !(entries.any fun entry => entry.key == node.key && entry.verdict == .wrongCountry) &&
    (endpoints.find? fun endpoint => endpointKey crates.keys endpoint.url == node.key).all
      fun endpoint => !(matchingFilters crates endpoint settings).isEmpty

/-- The previous members that may stay, each key once. A key counts as seen before the last two
tests are made. -/
def retainPrevious (crates : PoolCrates) (settings : NodePoolSettings) (explicit : List String)
    (endpoints : List SubscriptionEndpoint) (entries : List PoolProbeEntry) :
    List String → List EndpointRef → List EndpointRef
  | _, [] => []
  | retained, node :: rest =>
    if !validEndpointKey node.key || explicit.contains node.key || retained.contains node.key then
      retainPrevious crates settings explicit endpoints entries retained rest
    else
      let later :=
        retainPrevious crates settings explicit endpoints entries (node.key :: retained) rest
      if mayRetain crates settings endpoints entries node then node :: later else later

/-! ### The rebuild -/

structure NodePoolReport where
  probedAtUnix : Nat
  members : List EndpointRef
  entries : List PoolProbeEntry
  poolChanged : Bool
  keptPrevious : Bool
  deriving DecidableEq

/-- What a rebuild has read before its probes. -/
structure PoolInput where
  profile : Profile
  subscription : SubscriptionMeta
  settings : NodePoolSettings
  endpoints : List SubscriptionEndpoint

/-- `rebuild_node_pool_with` up to its probes. -/
def readPoolInput (checks : ProfileChecks) (id : String) (file : Option ProfileDocument)
    (endpoints : Except IoError (List SubscriptionEndpoint)) : Except IoError PoolInput := do
  let document ← load checks file
  match document.profiles.find? fun p => p.id == id && p.subscription.isSome with
  | none => throw (invalidInput "Profile is not a subscription")
  | some profile =>
    match profile.subscription with
    | none => throw (invalidInput "Profile is not a subscription")
    | some subscription =>
      match subscription.nodePool with
      | none => throw (invalidInput "Node pool is not enabled for this subscription")
      | some settings => do
          validatePoolSettings settings
          let endpoints ← endpoints
          pure { profile, subscription, settings, endpoints }

/-- The pool and the report of a rebuild, before it is written. -/
def rebuiltPool (now : Nat) (input : PoolInput) (probes : Probes) :
    Except IoError NodePoolReport := do
  let explicit := explicitKeys crates.keys input.profile input.endpoints
  let selection := selectEndpoints crates input.settings explicit input.endpoints
  match probes.completed with
  | none => throw (failure "node pool rebuild timed out; the previous pool is kept")
  | some completed => do
      let results := probeResults crates input.settings.verifyExitCountry selection.candidates
        probes.outcome (completed selection.candidates.length)
      let capacity := maxFailoverNodes - (1 + input.subscription.backupKeys.length)
      let found := admitResults capacity selection.entries results
      if found.members.isEmpty then
        let members := (retainPrevious crates input.settings explicit input.endpoints found.entries []
          input.subscription.poolKeys).take capacity
        pure ⟨now, members, found.entries, false, !members.isEmpty⟩
      else
        pure ⟨now, found.members, found.entries, false, false⟩

/-- Whether the selection of the stored profile is what the rebuild has read. -/
def sameSelection (input : PoolInput) (current : Profile) (subscription : SubscriptionMeta) : Bool :=
  subscription.nodePool == some input.settings &&
    subscription.url == input.subscription.url &&
    subscription.activeKey == input.subscription.activeKey &&
    subscription.activeIndex == input.subscription.activeIndex &&
    subscription.backupKeys == input.subscription.backupKeys &&
    current.pinnedPolicies == input.profile.pinnedPolicies &&
    current.xrayDns.outboundKey == input.profile.xrayDns.outboundKey &&
    current.xrayProxyExits == input.profile.xrayProxyExits

/-- The change of the stored profile. -/
def writePool (input : PoolInput) (members : List EndpointRef) (current : Profile) :
    Except IoError Profile :=
  match current.subscription with
  | none => .error (invalidInput "Profile is no longer a subscription")
  | some subscription =>
    if sameSelection input current subscription then
      .ok { current with subscription := some { subscription with poolKeys := members } }
    else
      .error (failure "Node selection changed during probing; rebuild the pool again")

/-- `rebuild_node_pool_with`: the report, and the document where one is written. `file` is the
store when the rebuild reads it, and `fileThen` when it writes. -/
def rebuildNodePoolWith (checks : ProfileChecks) (crates : PoolCrates) (now : Nat) (id : String)
    (file : Option ProfileDocument) (endpoints : Except IoError (List SubscriptionEndpoint))
    (probes : Probes) (fileThen : Option ProfileDocument) :
    Except IoError (NodePoolReport × Option ProfileDocument) := do
  let input ← readPoolInput checks id file endpoints
  let report ← rebuiltPool crates now input probes
  if report.members = input.subscription.poolKeys then
    pure (report, none)
  else do
    let written ← updateProfile checks id (writePool input report.members) fileThen
    pure ({ report with poolChanged := true }, some written)

end NetOrchestrator.Core.Profiles
