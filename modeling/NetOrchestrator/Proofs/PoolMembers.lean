import NetOrchestrator.Core.NodePool

/-!
# `Proofs.PoolMembers`: what a rebuild may write into the node pool

The rebuild decides about a profile that it has read some time ago. `PoolSafe` is about the profile
that is stored when the members are written. The two agree in everything that makes a node an
explicit choice (`explicitKeys_eq`), since the write compares just that.

The members are either new ones (`admitResults`) or previous ones (`retainPrevious`). The order in
which the probes come back plays no part: the results are permuted, and what is proved of the
members does not depend on their order.
-/

namespace NetOrchestrator.Core.Profiles

open Core.Errors List
open Lib.Checks (bind_eq_ok)

variable {crates : PoolCrates} {settings : NodePoolSettings} {explicit : List String}
  {endpoints : List SubscriptionEndpoint} {candidates : List PoolCandidate}
  {subscription : SubscriptionMeta}

def PoolCandidate.key (crates : PoolCrates) (candidate : PoolCandidate) : String :=
  endpointKey crates.keys candidate.endpoint.url

@[simp]
theorem key_probeEntry (crates : PoolCrates) (verify : Bool) (candidate : PoolCandidate)
    (outcome : Except String ExitCountry) :
    (probeEntry crates verify candidate outcome).key = candidate.key crates := by
  simp only [probeEntry, PoolCandidate.key]

/-! ### Candidates -/

variable {code : String} {input : PoolInput} {stored : Profile}

theorem mem_dedup_foldl (codes expected : List String) : code ∈ codes.foldl
        (fun expected code => if expected.contains code then expected else expected ++ [code])
        expected ↔ code ∈ expected ∨ code ∈ codes := by
  induction codes generalizing expected with
  | nil => simp
  | cons first rest ih =>
    rw [foldl_cons, ih]
    by_cases hknown : first ∈ expected
    · simp only [contains_eq_mem, hknown, decide_true, if_true, mem_cons]
      constructor
      · intro h
        exact h.imp_right .inr
      · rintro (h | rfl | h)
        · exact .inl h
        · exact .inl hknown
        · exact .inr h
    · simp [hknown, or_assoc]

/-- An expected country is that of some filter. -/
theorem mem_expectedCountries {filters : List NodePoolFilter} : code ∈ expectedCountries filters ↔
      ∃ filter ∈ filters, filter.exitCountry.bind normalizeCountryCode = some code := by
  rw [expectedCountries, mem_dedup_foldl]
  simp

/-- What the loop over the endpoints keeps. -/
structure Selected (crates : PoolCrates) (settings : NodePoolSettings) (explicit : List String)
    (endpoints : List SubscriptionEndpoint) (found : PoolSelection) : Prop where
  seen : ∀ candidate ∈ found.candidates, candidate.key crates ∈ found.seenKeys
  nodup : (found.candidates.map (·.key crates)).Nodup
  free : ∀ candidate ∈ found.candidates, candidate.key crates ∉ explicit
  listed : ∀ candidate ∈ found.candidates, candidate.endpoint ∈ endpoints
  expected : ∀ candidate ∈ found.candidates,
    candidate.expected = expectedCountries (matchingFilters crates candidate.endpoint settings)

section
variable {found : PoolSelection} (h : Selected crates settings explicit endpoints found)
include h

theorem Selected.step {endpoint : SubscriptionEndpoint} (hlisted : endpoint ∈ endpoints) :
    Selected crates settings explicit endpoints
      (selectEndpoint crates settings explicit found endpoint) := by
  unfold selectEndpoint
  simp only
  -- an endpoint that is passed over leaves the candidates as they are
  have hpassed : ∀ entries, Selected crates settings explicit endpoints
      { entries, candidates := found.candidates
        seenKeys := endpointKey crates.keys endpoint.url :: found.seenKeys } := fun entries =>
    { seen := fun candidate hc => mem_cons_of_mem _ (h.seen candidate hc)
      nodup := h.nodup
      free := h.free
      listed := h.listed
      expected := h.expected }
  split
  · exact h
  rename_i hnew
  split
  · exact hpassed _
  split
  · exact hpassed _
  rename_i hfree
  split
  · exact hpassed _
  rw [contains_eq_mem, decide_eq_true_eq] at hnew hfree
  constructor
  · intro candidate hc
    rcases mem_append.mp hc with hold | hlast
    · exact mem_cons_of_mem _ (h.seen candidate hold)
    · rw [mem_singleton.mp hlast]
      exact mem_cons_self
  · rw [map_append, nodup_append]
    refine ⟨h.nodup, nodup_singleton _, ?_⟩
    intro key hkey key' hkey'
    obtain ⟨candidate, hc, rfl⟩ := mem_map.mp hkey
    rw [map_singleton, mem_singleton] at hkey'
    rw [hkey']
    intro heq
    have hseen := h.seen candidate hc
    rw [heq] at hseen
    exact hnew hseen
  · intro candidate hc
    rcases mem_append.mp hc with hold | hlast
    · exact h.free candidate hold
    · rw [mem_singleton.mp hlast]
      exact hfree
  · intro candidate hc
    rcases mem_append.mp hc with hold | hlast
    · exact h.listed candidate hold
    · rw [mem_singleton.mp hlast]
      exact hlisted
  · intro candidate hc
    rcases mem_append.mp hc with hold | hlast
    · exact h.expected candidate hold
    · rw [mem_singleton.mp hlast]

/-- The loop over the endpoints, as far as it has come. -/
theorem selected_foldl {rest : List SubscriptionEndpoint} (hrest : rest ⊆ endpoints) :
    Selected crates settings explicit endpoints
      (rest.foldl (selectEndpoint crates settings explicit) found) := by
  induction rest generalizing found with
  | nil => exact h
  | cons endpoint rest ih =>
    rw [foldl_cons]
    exact ih (h.step (hrest mem_cons_self)) fun e he => hrest (mem_cons_of_mem _ he)

end

theorem selected_selectEndpoints (crates : PoolCrates) (settings : NodePoolSettings)
    (explicit : List String) (endpoints : List SubscriptionEndpoint) :
    Selected crates settings explicit endpoints
      (selectEndpoints crates settings explicit endpoints) := by
  refine selected_foldl ?_ fun _ h => h
  exact
    { seen := fun _ h => nomatch h
      nodup := nodup_nil
      free := fun _ h => nomatch h
      listed := fun _ h => nomatch h
      expected := fun _ h => nomatch h }

/-! ### Results -/

/-- Looking up every place gives the list. -/
theorem filterMap_getElem?_range {α : Type} (l : List α) :
    (List.range l.length).filterMap (fun i => l[i]?) = l := by
  induction l with
  | nil => rfl
  | cons a rest ih =>
    rw [length_cons, range_succ_eq_map, filterMap_cons, getElem?_cons_zero]
    simp only [filterMap_map, Function.comp_def, getElem?_cons_succ, ih]

section
variable {verify : Bool} {outcome : Nat → Except String ExitCountry} {completed : List Nat}
  {result : Nat × PoolProbeEntry}

/-- A result is the entry of a candidate in its place. -/
theorem mem_probeResults (h : result ∈ probeResults crates verify candidates outcome completed) :
    ∃ candidate, candidates[result.1]? = some candidate ∧
      result.2 = probeEntry crates verify candidate (outcome result.1) := by
  obtain ⟨index, -, hindex⟩ := mem_filterMap.mp h
  obtain ⟨candidate, hcandidate, rfl⟩ := Option.map_eq_some_iff.mp hindex
  exact ⟨candidate, hcandidate, rfl⟩

theorem mem_probeResults_of_candidate {index : Nat} {candidate : PoolCandidate}
    (hcompleted : index ∈ completed) (hcandidate : candidates[index]? = some candidate) :
    (index, probeEntry crates verify candidate (outcome index)) ∈
      probeResults crates verify candidates outcome completed := by
  refine mem_filterMap.mpr ⟨index, hcompleted, ?_⟩
  rw [hcandidate]
  rfl

/-- The keys of the results are those of the candidates, in some order. -/
theorem keys_probeResults (h : completed.Perm (List.range candidates.length)) :
    ((probeResults crates verify candidates outcome completed).map (·.2.key)).Perm
      (candidates.map (·.key crates)) := by
  have hkeys : (probeResults crates verify candidates outcome completed).map (·.2.key) =
      (completed.filterMap (candidates[·]?)).map (·.key crates) := by
    rw [probeResults, map_filterMap, map_filterMap]
    congr 1
    funext index
    cases candidates[index]? <;> simp
  rw [hkeys]
  have hplaces : (completed.filterMap (candidates[·]?)).Perm
      ((List.range candidates.length).filterMap (candidates[·]?)) := h.filterMap _
  rw [filterMap_getElem?_range] at hplaces
  exact hplaces.map _

/-! ### New members -/

variable {capacity : Nat} {entries : List PoolProbeEntry}
  {results : List (Nat × PoolProbeEntry)} {found : PoolMembers}

/-- The results that are members, in their order. -/
def memberRefs (results : List (Nat × PoolProbeEntry)) : List EndpointRef :=
  (results.filter fun result => result.2.verdict = .member).map fun result =>
    ⟨result.2.key, result.2.name⟩

section
variable (results : List (Nat × PoolProbeEntry)) (found : PoolMembers)

/-- The loop over the results takes members as long as there is room. -/
theorem members_foldl : (results.foldl (admitResult capacity) found).members =
      found.members ++ (memberRefs results).take (capacity - found.members.length) := by
  induction results generalizing found with
  | nil => simp [memberRefs]
  | cons result rest ih =>
    rw [foldl_cons, ih, admitResult]
    by_cases hmember : result.2.verdict = .member
    · have hrefs : memberRefs (result :: rest) =
          ⟨result.2.key, result.2.name⟩ :: memberRefs rest := by
        simp [memberRefs, hmember]
      rw [if_pos hmember, hrefs]
      split
      · rename_i hfull
        have hroom : capacity - found.members.length = 0 := by omega
        simp [hroom]
      · rename_i hroom
        have hleft : capacity - found.members.length =
            capacity - (found.members.length + 1) + 1 := by omega
        rw [hleft, take_succ_cons]
        simp
    · have hrefs : memberRefs (result :: rest) = memberRefs rest := by
        simp [memberRefs, hmember]
      rw [if_neg hmember, hrefs]

/-- An entry that is no member is reported as it is, and so are the earlier ones. -/
theorem mem_entries_foldl {entry : PoolProbeEntry}
    (h : entry ∈ found.entries ∨ entry.verdict ≠ .member ∧ ∃ result ∈ results, result.2 = entry) :
    entry ∈ (results.foldl (admitResult capacity) found).entries := by
  induction results generalizing found with
  | nil => simpa using h
  | cons result rest ih =>
    rw [foldl_cons]
    refine ih _ ?_
    have hkept : entry ∈ found.entries → entry ∈ (admitResult capacity found result).entries := by
      intro hentry
      unfold admitResult
      simp only
      split
      · split <;> exact mem_append_left _ hentry
      · exact mem_append_left _ hentry
    rcases h with hentry | ⟨hother, r, hr, rfl⟩
    · exact .inl (hkept hentry)
    · rcases mem_cons.mp hr with rfl | hrest
      · left
        unfold admitResult
        simp [hother]
      · exact .inr ⟨hother, r, hrest, rfl⟩

end

theorem members_admitResults : (admitResults capacity entries results).members =
      (memberRefs (results.insertionSort fun a b => a.1 ≤ b.1)).take capacity := by
  rw [admitResults, members_foldl]
  simp

/-- A member stands for a result that is one. -/
theorem mem_members_admitResults {node : EndpointRef}
    (h : node ∈ (admitResults capacity entries results).members) :
    ∃ result ∈ results, result.2.verdict = .member ∧ node = ⟨result.2.key, result.2.name⟩ := by
  rw [members_admitResults] at h
  obtain ⟨result, hresult, rfl⟩ := mem_map.mp (mem_of_mem_take h)
  obtain ⟨hsorted, hmember⟩ := mem_filter.mp hresult
  exact ⟨result, (perm_insertionSort _ _).subset hsorted, of_decide_eq_true hmember, rfl⟩

/-- Members with the keys of different results have different keys. -/
theorem nodup_members_admitResults (h : (results.map (·.2.key)).Nodup) :
    ((admitResults capacity entries results).members.map (·.key)).Nodup := by
  rw [members_admitResults]
  have hsorted : ((results.insertionSort fun a b => a.1 ≤ b.1).map (·.2.key)).Nodup :=
    ((perm_insertionSort _ results).map _).nodup_iff.mpr h
  refine hsorted.sublist ?_
  rw [map_take, memberRefs, map_map]
  exact (take_sublist _ _).trans (filter_sublist.map _)

theorem length_members_admitResults :
    (admitResults capacity entries results).members.length ≤ capacity := by
  rw [members_admitResults]
  exact length_take_le _ _

/-- A result that is no member is among the entries. -/
theorem mem_entries_admitResults (h : result ∈ results) (hother : result.2.verdict ≠ .member) :
    result.2 ∈ (admitResults capacity entries results).entries :=
  mem_entries_foldl _ _
    (.inr ⟨hother, result, (perm_insertionSort _ _).mem_iff.mpr h, rfl⟩)

end

/-! ### Previous members -/

section
variable {entries : List PoolProbeEntry}

theorem mem_retainPrevious {node : EndpointRef} {retained : List String}
    {previous : List EndpointRef}
    (h : node ∈ retainPrevious crates settings explicit endpoints entries retained previous) :
    node ∈ previous ∧ node.key ∉ explicit ∧ node.key ∉ retained ∧
      mayRetain crates settings endpoints entries node = true := by
  induction previous generalizing retained with
  | nil => cases h
  | cons first rest ih =>
    rw [retainPrevious] at h
    split at h
    · obtain ⟨hrest, hothers⟩ := ih h
      exact ⟨mem_cons_of_mem _ hrest, hothers⟩
    · rename_i hnew
      simp only [Bool.or_eq_true, contains_eq_mem, decide_eq_true_eq, not_or] at hnew
      have hlater : node ∈ retainPrevious crates settings explicit endpoints entries
          (first.key :: retained) rest → node ∈ first :: rest ∧ node.key ∉ explicit ∧
            node.key ∉ retained ∧ mayRetain crates settings endpoints entries node = true := by
        intro hnode
        obtain ⟨hrest, hexplicit, hretained, hmay⟩ := ih hnode
        exact ⟨mem_cons_of_mem _ hrest, hexplicit,
          fun hmem => hretained (mem_cons_of_mem _ hmem), hmay⟩
      simp only at h
      split at h
      · rename_i hmay
        rcases mem_cons.mp h with rfl | hnode
        · exact ⟨mem_cons_self, hnew.1.2, hnew.2, hmay⟩
        · exact hlater hnode
      · exact hlater h

/-- Each key stays once. -/
theorem nodup_retainPrevious (retained : List String) (previous : List EndpointRef) :
    ((retainPrevious crates settings explicit endpoints entries retained previous).map
      (·.key)).Nodup := by
  induction previous generalizing retained with
  | nil => exact nodup_nil
  | cons first rest ih =>
    rw [retainPrevious]
    split
    · exact ih retained
    · simp only
      split
      · rw [map_cons, nodup_cons]
        refine ⟨?_, ih _⟩
        intro hmem
        obtain ⟨node, hnode, hkey⟩ := mem_map.mp hmem
        have hnew := (mem_retainPrevious hnode).2.2.1
        exact hnew (hkey ▸ mem_cons_self)
      · exact ih _

end

/-! ### What the members owe -/

/-- A filter that the name of the endpoint matches accepts the country. -/
def Accepts (crates : PoolCrates) (settings : NodePoolSettings) (endpoint : SubscriptionEndpoint)
    (country : String) : Prop :=
  ∃ filter ∈ settings.filters, matchesFilter crates endpoint filter = true ∧
    filter.exitCountry.bind normalizeCountryCode = some country

/-- The endpoints that the run probes, in the order of their places. -/
def poolCandidates (crates : PoolCrates) (input : PoolInput) : List PoolCandidate :=
  (selectEndpoints crates input.settings
    (explicitKeys crates.keys input.profile input.endpoints) input.endpoints).candidates

/-- The probe of the node in this run reported a country that is accepted. -/
def Proved (crates : PoolCrates) (input : PoolInput) (probes : Probes) (node : EndpointRef) :
    Prop :=
  ∃ index candidate exit, (poolCandidates crates input)[index]? = some candidate ∧
    candidate.endpoint ∈ input.endpoints ∧ candidate.key crates = node.key ∧
      probes.outcome index = .ok exit ∧
        Accepts crates input.settings candidate.endpoint exit.country

/-- The probe of the node in this run, if there was one, reported no other country. -/
def NotDisproved (crates : PoolCrates) (input : PoolInput) (probes : Probes)
    (node : EndpointRef) : Prop :=
  ∀ index candidate exit, (poolCandidates crates input)[index]? = some candidate →
    candidate.key crates = node.key → probes.outcome index = .ok exit →
      Accepts crates input.settings candidate.endpoint exit.country

/-- The stored profile has the selection that the rebuild has read. -/
structure SameSelection (input : PoolInput) (stored : Profile) (subscription : SubscriptionMeta) :
    Prop where
  nodePool : subscription.nodePool = some input.settings
  url : subscription.url = input.subscription.url
  activeKey : subscription.activeKey = input.subscription.activeKey
  activeIndex : subscription.activeIndex = input.subscription.activeIndex
  backupKeys : subscription.backupKeys = input.subscription.backupKeys
  pinnedPolicies : stored.pinnedPolicies = input.profile.pinnedPolicies
  outboundKey : stored.xrayDns.outboundKey = input.profile.xrayDns.outboundKey
  xrayProxyExits : stored.xrayProxyExits = input.profile.xrayProxyExits

/-- The members beside the profile that is stored when they are written. -/
structure PoolSafe (crates : PoolCrates) (input : PoolInput) (probes : Probes) (stored : Profile)
    (subscription : SubscriptionMeta) (members : List EndpointRef) : Prop where
  nodup : (members.map (·.key)).Nodup
  free : ∀ node ∈ members, node.key ∉ explicitKeys crates.keys stored input.endpoints
  fits : 1 + subscription.backupKeys.length ≤ maxFailoverNodes →
    1 + subscription.backupKeys.length + members.length ≤ maxFailoverNodes
  verified : input.settings.verifyExitCountry = true → ∀ node ∈ members,
    Proved crates input probes node ∨
      node ∈ input.subscription.poolKeys ∧ NotDisproved crates input probes node

theorem sameSelection_iff :
    sameSelection input stored subscription = true ↔ SameSelection input stored subscription := by
  simp only [sameSelection, Bool.and_eq_true, beq_iff_eq]
  constructor
  · rintro ⟨⟨⟨⟨⟨⟨⟨hpool, hurl⟩, hkey⟩, hindex⟩, hbackups⟩, hpins⟩, hdns⟩, hexits⟩
    exact ⟨hpool, hurl, hkey, hindex, hbackups, hpins, hdns, hexits⟩
  · rintro ⟨hpool, hurl, hkey, hindex, hbackups, hpins, hdns, hexits⟩
    exact ⟨⟨⟨⟨⟨⟨⟨hpool, hurl⟩, hkey⟩, hindex⟩, hbackups⟩, hpins⟩, hdns⟩, hexits⟩

/-- With the same selection the same keys are explicit. -/
theorem explicitKeys_eq (hread : input.profile.subscription = some input.subscription)
    (hstored : stored.subscription = some subscription)
    (h : SameSelection input stored subscription) (endpoints : List SubscriptionEndpoint) :
    explicitKeys crates.keys stored endpoints =
      explicitKeys crates.keys input.profile endpoints := by
  simp only [explicitKeys, namedExitKeys, primaryKey, hread, hstored, h.pinnedPolicies,
    h.xrayProxyExits, h.outboundKey, h.backupKeys, h.activeKey, h.activeIndex, Option.bind_some,
    Option.elim_some]

/-! ### The rebuilt pool -/

section
variable {checks : ProfileChecks} {now : Nat} {id : String} {file : Option ProfileDocument}
  {read : Except IoError (List SubscriptionEndpoint)} {input : PoolInput} {probes : Probes}
  {report : NodePoolReport} {members : List EndpointRef}

theorem readPoolInput_eq_ok (h : readPoolInput checks id file read = .ok input) :
    input.profile.subscription = some input.subscription ∧ read = .ok input.endpoints := by
  obtain ⟨document, -, hfind⟩ := bind_eq_ok.mp h
  cases hprofile : document.profiles.find? fun p => p.id == id && p.subscription.isSome with
  | none =>
    rw [hprofile] at hfind
    cases hfind
  | some profile =>
    rw [hprofile] at hfind
    simp only at hfind
    cases hsubscription : profile.subscription with
    | none =>
      rw [hsubscription] at hfind
      cases hfind
    | some subscription =>
      rw [hsubscription] at hfind
      simp only at hfind
      cases hpool : subscription.nodePool with
      | none =>
        rw [hpool] at hfind
        cases hfind
      | some settings =>
        rw [hpool] at hfind
        obtain ⟨-, -, hrest⟩ := bind_eq_ok.mp hfind
        obtain ⟨listed, hlisted, hinput⟩ := bind_eq_ok.mp hrest
        cases hinput
        exact ⟨hsubscription, hlisted⟩

theorem selected_poolCandidates (input : PoolInput) :
    Selected crates input.settings (explicitKeys crates.keys input.profile input.endpoints)
      input.endpoints (selectEndpoints crates input.settings
        (explicitKeys crates.keys input.profile input.endpoints) input.endpoints) :=
  selected_selectEndpoints _ _ _ _

/-- The countries that a candidate may report are those that are accepted for it. -/
theorem mem_expected_iff {candidate : PoolCandidate} {country : String}
    (h : candidate ∈ poolCandidates crates input) :
    country ∈ candidate.expected ↔ Accepts crates input.settings candidate.endpoint country := by
  rw [(selected_poolCandidates input).expected candidate h, mem_expectedCountries]
  simp only [matchingFilters, mem_filter, Accepts, and_assoc]

/-- A new member was probed, and what it reported is accepted. -/
theorem proved_of_result {completed : List Nat} {result : Nat × PoolProbeEntry}
    (hresult : result ∈ probeResults crates true (poolCandidates crates input) probes.outcome
      completed) (hmember : result.2.verdict = .member) :
    Proved crates input probes ⟨result.2.key, result.2.name⟩ := by
  obtain ⟨candidate, hcandidate, hentry⟩ := mem_probeResults hresult
  have hmem : candidate ∈ poolCandidates crates input := mem_of_getElem? hcandidate
  rw [hentry] at hmember
  simp only [probeEntry, probeVerdict, if_true] at hmember
  cases houtcome : probes.outcome result.1 with
  | error e =>
    rw [houtcome] at hmember
    cases hmember
  | ok exit =>
    rw [houtcome] at hmember
    simp only [contains_eq_mem, decide_eq_true_eq] at hmember
    split at hmember
    · rename_i hexpected
      refine ⟨result.1, candidate, exit, hcandidate,
        (selected_poolCandidates input).listed candidate hmem, ?_, houtcome,
        (mem_expected_iff hmem).mp hexpected⟩
      rw [hentry, key_probeEntry]
    · cases hmember

/-- A probe that reported another country leaves an entry that says so. -/
theorem notDisproved_of_entries {completed : List Nat} {entries : List PoolProbeEntry}
    {node : EndpointRef}
    (hcompleted : ∀ index < (poolCandidates crates input).length, index ∈ completed)
    (hentries : ∀ result ∈ probeResults crates true (poolCandidates crates input) probes.outcome
      completed, result.2.verdict ≠ .member → result.2 ∈ entries)
    (hmay : mayRetain crates input.settings input.endpoints entries node = true) :
    NotDisproved crates input probes node := by
  intro index candidate exit hcandidate hkey houtcome
  have hmem : candidate ∈ poolCandidates crates input := mem_of_getElem? hcandidate
  obtain ⟨hindex, -⟩ := List.getElem?_eq_some_iff.mp hcandidate
  by_contra hother
  have hunexpected : exit.country ∉ candidate.expected := fun h =>
    hother ((mem_expected_iff hmem).mp h)
  have hentry : probeEntry crates true candidate (probes.outcome index) =
      ⟨candidate.key crates, candidate.endpoint.name, .wrongCountry, some exit.country⟩ := by
    simp [probeEntry, probeVerdict, houtcome, hunexpected, PoolCandidate.key]
  have hresult : (index, probeEntry crates true candidate (probes.outcome index)) ∈ _ :=
    mem_probeResults_of_candidate (hcompleted index hindex) hcandidate
  have hreported := hentries _ hresult (by rw [hentry]; simp)
  rw [hentry] at hreported
  rw [mayRetain, Bool.and_eq_true, Bool.not_eq_true', any_eq_false] at hmay
  exact hmay.1 _ hreported (by simp [hkey])

/-- What the loop over the results finds in this run. -/
def foundMembers (crates : PoolCrates) (input : PoolInput) (probes : Probes)
    (completed : List Nat) : PoolMembers :=
  admitResults (maxFailoverNodes - (1 + input.subscription.backupKeys.length))
    (selectEndpoints crates input.settings
      (explicitKeys crates.keys input.profile input.endpoints) input.endpoints).entries
    (probeResults crates input.settings.verifyExitCountry (poolCandidates crates input)
      probes.outcome completed)

/-- The members are the new ones, or the previous ones that may stay. -/
theorem rebuiltPool_eq_ok (h : rebuiltPool crates now input probes = .ok report) :
    ∃ completed : List Nat, completed.Perm (List.range (poolCandidates crates input).length) ∧
      (report.members = (foundMembers crates input probes completed).members ∨
        report.members = (retainPrevious crates input.settings
          (explicitKeys crates.keys input.profile input.endpoints) input.endpoints
          (foundMembers crates input probes completed).entries [] input.subscription.poolKeys).take
            (maxFailoverNodes - (1 + input.subscription.backupKeys.length))) := by
  unfold rebuiltPool at h
  simp only at h
  cases hdone : probes.completed with
  | none =>
    rw [hdone] at h
    cases h
  | some completed =>
    rw [hdone] at h
    simp only at h
    refine ⟨_, (completed (poolCandidates crates input).length).2, ?_⟩
    split at h
    · cases h
      exact .inr rfl
    · cases h
      exact .inl rfl

variable {completed : List Nat}

section
variable (hperm : completed.Perm (List.range (poolCandidates crates input).length))
include hperm

theorem safe_of_new : PoolSafe crates input probes input.profile input.subscription
      (foundMembers crates input probes completed).members where
  nodup := by
    have hkeys : ((probeResults crates input.settings.verifyExitCountry
        (poolCandidates crates input) probes.outcome completed).map (·.2.key)).Perm
          ((poolCandidates crates input).map (·.key crates)) := keys_probeResults hperm
    exact nodup_members_admitResults (hkeys.nodup_iff.mpr (selected_poolCandidates input).nodup)
  free node hnode := by
    obtain ⟨result, hresult, -, hnode⟩ := mem_members_admitResults hnode
    obtain ⟨candidate, hcandidate, hentry⟩ := mem_probeResults hresult
    have hkey : node.key = candidate.key crates := by
      rw [hnode, hentry, key_probeEntry]
    rw [hkey]
    exact (selected_poolCandidates input).free candidate (mem_of_getElem? hcandidate)
  fits hbackups := by
    have hlength : (foundMembers crates input probes completed).members.length ≤ _ :=
      length_members_admitResults
    omega
  verified hverify node hnode := by
    obtain ⟨result, hresult, hmember, rfl⟩ := mem_members_admitResults hnode
    rw [hverify] at hresult
    exact .inl (proved_of_result hresult hmember)

theorem safe_of_previous : PoolSafe crates input probes input.profile input.subscription
      ((retainPrevious crates input.settings
        (explicitKeys crates.keys input.profile input.endpoints) input.endpoints
        (foundMembers crates input probes completed).entries [] input.subscription.poolKeys).take
          (maxFailoverNodes - (1 + input.subscription.backupKeys.length))) where
  nodup := by
    rw [map_take]
    exact (nodup_retainPrevious _ _).sublist (take_sublist _ _)
  free node hnode := (mem_retainPrevious (mem_of_mem_take hnode)).2.1
  fits hbackups := by
    rw [length_take]
    omega
  verified hverify node hnode := by
    obtain ⟨hprevious, -, -, hmay⟩ := mem_retainPrevious (mem_of_mem_take hnode)
    have hcompleted : ∀ index < (poolCandidates crates input).length, index ∈ completed :=
      fun index hindex => hperm.mem_iff.mpr (mem_range.mpr hindex)
    refine .inr ⟨hprevious, notDisproved_of_entries hcompleted ?_ hmay⟩
    intro result hresult hother
    rw [← hverify] at hresult
    exact mem_entries_admitResults hresult hother

end

/-- What a rebuild hands to its write is safe beside the profile that it has read. -/
theorem safe_of_rebuiltPool (h : rebuiltPool crates now input probes = .ok report) :
    PoolSafe crates input probes input.profile input.subscription report.members := by
  obtain ⟨completed, hperm, hnew | hprevious⟩ := rebuiltPool_eq_ok h
  · rw [hnew]
    exact safe_of_new hperm
  · rw [hprevious]
    exact safe_of_previous hperm

/-- And beside any profile with the same selection. -/
theorem PoolSafe.of_sameSelection {stored : Profile} {subscription : SubscriptionMeta}
    (hread : input.profile.subscription = some input.subscription)
    (hstored : stored.subscription = some subscription)
    (hsame : SameSelection input stored subscription)
    (h : PoolSafe crates input probes input.profile input.subscription members) :
    PoolSafe crates input probes stored subscription members :=
  { h with
    free := by
      rw [explicitKeys_eq hread hstored hsame]
      exact h.free
    fits := by
      rw [hsame.backupKeys]
      exact h.fits }

theorem writePool_eq_ok {stored updated : Profile}
    (h : writePool input members stored = .ok updated) :
    ∃ subscription, stored.subscription = some subscription ∧
      SameSelection input stored subscription ∧
        updated = { stored with subscription := some { subscription with poolKeys := members } } := by
  unfold writePool at h
  cases hstored : stored.subscription with
  | none =>
    rw [hstored] at h
    cases h
  | some subscription =>
    rw [hstored] at h
    simp only at h
    split at h
    · rename_i hsame
      cases h
      exact ⟨subscription, rfl, sameSelection_iff.mp hsame, rfl⟩
    · cases h

/-- What a rebuild that writes leaves: the selection is as it was read, the stored profile has the
members and is otherwise as it was, and the members are safe beside it. -/
def WrittenSafely (crates : PoolCrates) (id : String) (input : PoolInput) (probes : Probes)
    (fileThen : Option ProfileDocument) (written : ProfileDocument)
    (members : List EndpointRef) : Prop :=
  ∃ stored subscription,
    findProfile id (storedProfiles fileThen) = some stored ∧
      stored.subscription = some subscription ∧
        SameSelection input stored subscription ∧
          findProfile id written.profiles = some { stored with
            subscription := some { subscription with poolKeys := members } } ∧
            PoolSafe crates input probes stored subscription members

theorem writtenSafely_of_rebuild {fileThen : Option ProfileDocument} {written : ProfileDocument}
    (h : rebuildNodePoolWith checks crates now id file read probes fileThen =
      .ok (report, some written)) : ∃ input, readPoolInput checks id file read = .ok input ∧
      WrittenSafely crates id input probes fileThen written report.members := by
  obtain ⟨input, hinput, hrest⟩ := bind_eq_ok.mp h
  obtain ⟨rebuilt, hrebuilt, hwrite⟩ := bind_eq_ok.mp hrest
  split at hwrite
  · cases hwrite
  obtain ⟨document, hupdate, hpair⟩ := bind_eq_ok.mp hwrite
  cases hpair
  obtain ⟨stored, updated, hstored, hupdated, hprofiles⟩ := updateProfile_eq_ok hupdate
  obtain ⟨subscription, hsubscription, hsame, rfl⟩ := writePool_eq_ok hupdated
  have hid : stored.id = id := id_of_findProfile hstored
  have hsafe := (safe_of_rebuiltPool hrebuilt).of_sameSelection (readPoolInput_eq_ok hinput).1
    hsubscription hsame
  refine ⟨input, hinput, stored, subscription, hstored, hsubscription, hsame, ?_, hsafe⟩
  rw [hprofiles]
  exact findProfile_replaceProfile hid hstored

/-- Whatever is written into the pool is safe beside the profile that is stored at that moment, in
whatever way it was edited since the rebuild read it and in whatever order the probes came back.
Where the edits touched the selection, nothing is written. -/
theorem rebuilt_pool_safe (checks : ProfileChecks) (crates : PoolCrates) (now : Nat) (id : String)
    (file fileThen : Option ProfileDocument) (probes : Probes)
    {endpoints : List SubscriptionEndpoint} {input : PoolInput}
    (hinput : readPoolInput checks id file (.ok endpoints) = .ok input) :
    (∀ report written,
      rebuildNodePoolWith checks crates now id file (.ok endpoints) probes fileThen =
        .ok (report, some written) →
      WrittenSafely crates id input probes fileThen written report.members) ∧
    ((∀ stored subscription, findProfile id (storedProfiles fileThen) = some stored →
        stored.subscription = some subscription → ¬ SameSelection input stored subscription) →
      ∀ report written,
        rebuildNodePoolWith checks crates now id file (.ok endpoints) probes fileThen ≠
          .ok (report, some written)) := by
  have hwritten : ∀ report written,
      rebuildNodePoolWith checks crates now id file (.ok endpoints) probes fileThen =
        .ok (report, some written) →
      WrittenSafely crates id input probes fileThen written report.members := by
    intro report written h
    obtain ⟨input', hinput', hsafe⟩ := writtenSafely_of_rebuild h
    obtain rfl : input = input' := Except.ok.inj (hinput.symm.trans hinput')
    exact hsafe
  refine ⟨hwritten, ?_⟩
  intro hchanged report written h
  obtain ⟨stored, subscription, hstored, hsubscription, hsame, -⟩ := hwritten report written h
  exact hchanged stored subscription hstored hsubscription hsame

end

/-! ### One rebuild -/

section

def poolFilter : NodePoolFilter := ⟨["nl"], some "nl"⟩

def poolSubscription : SubscriptionMeta :=
  { url := "https://panel.example/sub", hwid := "", endpointCount := 2, activeIndex := 0
    nodePool := some ⟨[poolFilter], true⟩ }

def poolProfile : Profile :=
  { id := "home", name := "Home", backend := .xray, configPath := "/vault/home/rev-1/config.json"
    xraySocksPort := some 10808, xrayHttpPort := some 10809
    subscription := some poolSubscription }

def poolEndpoints : List SubscriptionEndpoint :=
  [⟨"vless://11111111-1111-1111-1111-111111111111@a.example:443#DE", "DE"⟩,
    ⟨"vless://11111111-1111-1111-1111-111111111111@b.example:443#NL", "NL"⟩]

/-- The digests of the links. -/
def sampleCrates : PoolCrates where
  keys :=
    { digest := fun identity =>
        if identity = "vless|a.example:443|" then "1e9bcb2d9a5ba44a"
        else if identity = "vless|c.example:443|" then "4f1a90cc3be27d08"
        else "a2d0e3fc857e1d95"
      xrayJsonIdentity := fun _ => none }
  lowercase text := String.ofList (text.toList.map Char.toLower)

/-- Every probe reports the Netherlands, in the order of the candidates. -/
def sampleProbes : Probes where
  outcome _ := .ok ⟨"NL", "192.0.2.1"⟩
  completed := some fun n => ⟨List.range n, .refl _⟩

def sampleChecks : ProfileChecks := ⟨fun _ => .ok (), fun _ => .ok ()⟩

def poolFile : Option ProfileDocument := some ⟨1, [poolProfile]⟩

def poolInput : PoolInput := ⟨poolProfile, poolSubscription, ⟨[poolFilter], true⟩, poolEndpoints⟩

theorem poolInput_read :
    readPoolInput sampleChecks "home" poolFile (.ok poolEndpoints) = .ok poolInput := by
  have hsettings : validatePoolSettings ⟨[poolFilter], true⟩ = .ok () := by decide +kernel
  refine bind_eq_ok.mpr ⟨⟨1, [poolProfile]⟩, rfl, ?_⟩
  exact bind_eq_ok.mpr ⟨(), hsettings, rfl⟩

def poolMembers : List EndpointRef := [⟨"a2d0e3fc857e1d95", "NL"⟩]

def poolReport : NodePoolReport :=
  ⟨0, poolMembers, [⟨"a2d0e3fc857e1d95", "NL", .member, some "NL"⟩], false, false⟩

theorem pool_rebuilt : rebuiltPool sampleCrates 0 poolInput sampleProbes = .ok poolReport := by
  decide +kernel

/-- While the probes run, the profile is renamed. -/
def renamedFile : Option ProfileDocument := some ⟨1, [{ poolProfile with name := "Cabin" }]⟩

def renamedWritten : ProfileDocument :=
  ⟨1, [{ poolProfile with
    name := "Cabin"
    subscription := some { poolSubscription with poolKeys := poolMembers } }]⟩

theorem renamed_written : updateProfile sampleChecks "home" (writePool poolInput poolMembers)
    renamedFile = .ok renamedWritten := by
  rfl

theorem home_rebuilt :
    rebuildNodePoolWith sampleChecks sampleCrates 0 "home" poolFile (.ok poolEndpoints) sampleProbes
      renamedFile = .ok ({ poolReport with poolChanged := true }, some renamedWritten) := by
  refine bind_eq_ok.mpr ⟨poolInput, poolInput_read, ?_⟩
  refine bind_eq_ok.mpr ⟨poolReport, pool_rebuilt, ?_⟩
  rw [if_neg (by decide)]
  exact bind_eq_ok.mpr ⟨renamedWritten, renamed_written, rfl⟩

/-- While the probes run, the other endpoint becomes the primary. -/
def switchedFile : Option ProfileDocument :=
  some ⟨1, [{ poolProfile with subscription := some { poolSubscription with activeIndex := 1 } }]⟩

/-- The only endpoint that is no primary and named like the filter becomes the member of the
renamed profile. Where the primary is another one by then, nothing is written. -/
theorem home_pool_safe :
    WrittenSafely sampleCrates "home" poolInput sampleProbes renamedFile renamedWritten
        poolMembers ∧
      ∀ report written, rebuildNodePoolWith sampleChecks sampleCrates 0 "home" poolFile
        (.ok poolEndpoints) sampleProbes switchedFile ≠ .ok (report, some written) := by
  refine ⟨(rebuilt_pool_safe sampleChecks sampleCrates 0 "home" poolFile renamedFile sampleProbes
    poolInput_read).1 _ _ home_rebuilt, ?_⟩
  refine (rebuilt_pool_safe sampleChecks sampleCrates 0 "home" poolFile switchedFile sampleProbes
    poolInput_read).2 ?_
  intro stored subscription hstored hsubscription hsame
  cases hstored
  cases hsubscription
  have hindex := hsame.activeIndex
  revert hindex
  decide

end

end NetOrchestrator.Core.Profiles
