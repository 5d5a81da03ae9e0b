import Mathlib.Data.List.Dedup
import NetOrchestrator.Proofs.PoolMembers

/-!
# `Proofs.PoolReport`: the rows of a pool report and their order

A report has one row for each key whose endpoint is named by a filter. The loop over the endpoints
writes the rows of explicit choices and of what is too much to probe, and the rows of the probes
come behind all of them. So the rows are in the order of the subscription only where these two kinds
are not mixed, which is what `RowsInOrder` says.

`Split` is the invariant of the loop. The order in which the probes come back is undone by the sort
(`insertionSort_probeResults`), so members are always in order.
-/

namespace NetOrchestrator.Core.Profiles

open Core.Errors List Nat
open Lib.Checks (bind_eq_ok)

variable {crates : PoolCrates} {settings : NodePoolSettings} {explicit : List String}
variable {done : List SubscriptionEndpoint}
  {endpoints : List SubscriptionEndpoint} {endpoint : SubscriptionEndpoint}

/-! ### Places -/

/-- A filter names the endpoint. -/
def IsNamed (crates : PoolCrates) (settings : NodePoolSettings) (endpoint : SubscriptionEndpoint) :
    Prop :=
  matchingFilters crates endpoint settings ≠ []

instance : DecidablePred (IsNamed crates settings) := fun _ => inferInstanceAs (Decidable (_ ≠ _))

/-- The place of a key in the subscription: that of its first endpoint. -/
def place (crates : PoolCrates) (endpoints : List SubscriptionEndpoint) (key : String) : Nat :=
  endpoints.findIdx fun endpoint => endpointKey crates.keys endpoint.url == key

/-- The endpoint that stands for a key. -/
def firstOf (crates : PoolCrates) (endpoints : List SubscriptionEndpoint) (key : String) :
    Option SubscriptionEndpoint :=
  endpoints.find? fun endpoint => endpointKey crates.keys endpoint.url == key

/-- Each key that a filter names stands once, in the order of the subscription. -/
structure Listed (crates : PoolCrates) (settings : NodePoolSettings)
    (endpoints : List SubscriptionEndpoint) (keys : List String) : Prop where
  complete : ∀ key, key ∈ keys ↔
    ∃ endpoint ∈ endpoints, endpointKey crates.keys endpoint.url = key ∧
      IsNamed crates settings endpoint
  nodup : keys.Nodup
  ordered : keys.Pairwise fun a b => place crates endpoints a < place crates endpoints b

/-- The keys that a filter names and that are no explicit choice, each once. -/
def probedKeys (crates : PoolCrates) (settings : NodePoolSettings) (explicit : List String)
    (endpoints : List SubscriptionEndpoint) : List String :=
  ((endpoints.filter fun endpoint => IsNamed crates settings endpoint ∧
    endpointKey crates.keys endpoint.url ∉ explicit).map fun endpoint =>
      endpointKey crates.keys endpoint.url).dedup

/-- Where the rows come in the order of the subscription: no name of a key stays unseen behind
another endpoint of the key, there is room for all the probes, and the explicit choices come before
what is probed. -/
structure RowsInOrder (crates : PoolCrates) (settings : NodePoolSettings) (explicit : List String)
    (endpoints : List SubscriptionEndpoint) : Prop where
  seen : ∀ endpoint ∈ endpoints, IsNamed crates settings endpoint →
    ∀ first, firstOf crates endpoints (endpointKey crates.keys endpoint.url) = some first →
      IsNamed crates settings first
  room : (probedKeys crates settings explicit endpoints).length ≤ maxPoolCandidates
  apart : ∀ a ∈ endpoints, ∀ b ∈ endpoints, IsNamed crates settings a → IsNamed crates settings b →
    endpointKey crates.keys a.url ∈ explicit → endpointKey crates.keys b.url ∉ explicit →
      place crates endpoints (endpointKey crates.keys a.url) <
        place crates endpoints (endpointKey crates.keys b.url)

theorem place_of_new {rest : List SubscriptionEndpoint}
    (hnew : endpointKey crates.keys endpoint.url ∉
      done.map fun e => endpointKey crates.keys e.url) :
    place crates (done ++ endpoint :: rest) (endpointKey crates.keys endpoint.url) =
      done.length := by
  have hdone : ∀ e ∈ done,
      (endpointKey crates.keys e.url == endpointKey crates.keys endpoint.url) = false := by
    intro e he
    rw [beq_eq_false_iff_ne]
    intro heq
    exact hnew (mem_map.mpr ⟨e, he, heq⟩)
  rw [place, findIdx_append, findIdx_eq_length_of_false hdone]
  simp [findIdx_cons]

theorem firstOf_eq_some_iff {key : String} {first : SubscriptionEndpoint}
    (h : firstOf crates endpoints key = some first) :
    first ∈ endpoints ∧ endpointKey crates.keys first.url = key := by
  have hkey := find?_some h
  exact ⟨mem_of_find?_eq_some h, eq_of_beq hkey⟩

/-- An endpoint stands for its key where none before it does. -/
theorem firstOf_concat (key : String) :
    firstOf crates (done ++ [endpoint]) key = (firstOf crates done key).or
        (if endpointKey crates.keys endpoint.url = key then some endpoint else none) := by
  rw [firstOf, find?_append, firstOf, find?_cons, find?_nil]
  by_cases hkey : endpointKey crates.keys endpoint.url = key
  · rw [beq_iff_eq.mpr hkey, if_pos hkey]
  · rw [beq_eq_false_iff_ne.mpr hkey, if_neg hkey]

theorem firstOf_isSome_iff {key : String} : (firstOf crates done key).isSome = true ↔
      key ∈ done.map fun e => endpointKey crates.keys e.url := by
  rw [firstOf, find?_isSome]
  simp only [mem_map, beq_iff_eq]

/-! ### The loop over the endpoints -/

/-- What the loop has made of the endpoints that are done: the rows that it has written and the
candidates, both in order. A row of a key that is no explicit choice is there because the
candidates were full by then. -/
structure Split (crates : PoolCrates) (settings : NodePoolSettings) (explicit : List String)
    (endpoints done : List SubscriptionEndpoint) (found : PoolSelection) : Prop where
  seen : ∀ key, key ∈ found.seenKeys ↔ key ∈ done.map fun e => endpointKey crates.keys e.url
  complete : ∀ key, key ∈ found.entries.map (·.key) ∨ key ∈ found.candidates.map (·.key crates) ↔
    ∃ first, firstOf crates done key = some first ∧ IsNamed crates settings first
  early : ∀ key, key ∈ found.entries.map (·.key) ∨ key ∈ found.candidates.map (·.key crates) →
    place crates endpoints key < done.length
  rows : (found.entries.map (·.key)).Pairwise fun a b =>
    place crates endpoints a < place crates endpoints b
  probes : (found.candidates.map (·.key crates)).Pairwise fun a b =>
    place crates endpoints a < place crates endpoints b
  free : ∀ key ∈ found.candidates.map (·.key crates), key ∉ explicit
  full : ∀ key ∈ found.entries.map (·.key), key ∈ explicit ∨
    maxPoolCandidates ≤ found.candidates.length ∧
      ∀ probed ∈ found.candidates.map (·.key crates),
        place crates endpoints probed < place crates endpoints key
  room : found.candidates.length ≤ maxPoolCandidates

section
variable {done rest : List SubscriptionEndpoint} {endpoint : SubscriptionEndpoint}
  {found : PoolSelection}

theorem split_nil : Split crates settings explicit endpoints [] {} where
  seen key := by simp
  complete key := by simp [firstOf]
  early key h := by simp at h
  rows := List.Pairwise.nil
  probes := List.Pairwise.nil
  free key h := by simp at h
  full key h := by simp at h
  room := by simp

/-- The names of the endpoint change nothing where its key is known or no filter names it. -/
theorem named_concat_iff (key : String) (hpassed : endpointKey crates.keys endpoint.url ∈
        (done.map fun e => endpointKey crates.keys e.url) ∨ ¬IsNamed crates settings endpoint) :
    (∃ first, firstOf crates (done ++ [endpoint]) key = some first ∧
        IsNamed crates settings first) ↔
      ∃ first, firstOf crates done key = some first ∧ IsNamed crates settings first := by
  rw [firstOf_concat]
  cases hfirst : firstOf crates done key with
  | some first => simp
  | none =>
    by_cases hkey : endpointKey crates.keys endpoint.url = key
    · rcases hpassed with hknown | hunnamed
      · rw [hkey, ← firstOf_isSome_iff, hfirst] at hknown
        cases hknown
      · simp [hkey, hunnamed]
    · simp [hkey]

/-- The key of a new endpoint that a filter names is one more. -/
theorem named_concat_new_iff (key : String) (hnew : endpointKey crates.keys endpoint.url ∉
      done.map fun e => endpointKey crates.keys e.url) (hnamed : IsNamed crates settings endpoint) :
    (∃ first, firstOf crates (done ++ [endpoint]) key = some first ∧
        IsNamed crates settings first) ↔
      (∃ first, firstOf crates done key = some first ∧ IsNamed crates settings first) ∨
        key = endpointKey crates.keys endpoint.url := by
  rw [firstOf_concat]
  by_cases hkey : endpointKey crates.keys endpoint.url = key
  · have hnone : firstOf crates done key = none := by
      rw [← Option.not_isSome_iff_eq_none, firstOf_isSome_iff, ← hkey]
      exact hnew
    simp [hnone, hkey, hnamed]
  · have hother : ¬key = endpointKey crates.keys endpoint.url := fun heq => hkey heq.symm
    simp [hkey, hother]

/-- An endpoint that is passed over. -/
theorem Split.pass (h : Split crates settings explicit endpoints done found)
    (hpassed : endpointKey crates.keys endpoint.url ∈
        (done.map fun e => endpointKey crates.keys e.url) ∨ ¬IsNamed crates settings endpoint)
    {seenKeys : List String} (hseen : ∀ key, key ∈ seenKeys ↔
      key ∈ (done ++ [endpoint]).map fun e => endpointKey crates.keys e.url) :
    Split crates settings explicit endpoints (done ++ [endpoint]) { found with seenKeys } :=
  { h with
    seen := hseen
    complete key := by
      rw [named_concat_iff key hpassed]
      exact h.complete key
    early key hkey := by
      have := h.early key hkey
      rw [length_append]
      omega }

/-- What is appended in the place of the new endpoint comes last. -/
theorem pairwise_concat_place {keys : List String} {key : String}
    (hkeys : keys.Pairwise fun a b => place crates endpoints a < place crates endpoints b)
    (hearly : ∀ a ∈ keys, place crates endpoints a < place crates endpoints key) :
    (keys ++ [key]).Pairwise fun a b => place crates endpoints a < place crates endpoints b := by
  rw [pairwise_append]
  refine ⟨hkeys, pairwise_singleton _ _, ?_⟩
  intro a ha b hb
  rw [mem_singleton.mp hb]
  exact hearly a ha

section
variable (h : Split crates settings explicit (done ++ endpoint :: rest) done found)
  (hnew : endpointKey crates.keys endpoint.url ∉
    done.map fun e => endpointKey crates.keys e.url) (hnamed : IsNamed crates settings endpoint)
include h hnew hnamed

/-- A row for an explicit choice, or for what is too much to probe. -/
theorem Split.row (verdict : NodePoolVerdict)
    (hfull : endpointKey crates.keys endpoint.url ∈ explicit ∨
      maxPoolCandidates ≤ found.candidates.length) :
    Split crates settings explicit (done ++ endpoint :: rest) (done ++ [endpoint])
      { entries := found.entries ++
          [⟨endpointKey crates.keys endpoint.url, endpoint.name, verdict, none⟩]
        candidates := found.candidates
        seenKeys := endpointKey crates.keys endpoint.url :: found.seenKeys } where
  seen key := by simp [h.seen key, or_comm]
  complete key := by
    rw [named_concat_new_iff key hnew hnamed, ← h.complete key]
    simp only [map_append, map_cons, map_nil, mem_append, mem_singleton]
    exact or_right_comm
  early key hkey := by
    simp only [map_append, map_cons, map_nil, mem_append, mem_singleton] at hkey
    rw [length_append, length_singleton]
    rcases hkey with (hkey | rfl) | hkey
    · exact lt_succ_of_lt (h.early key (.inl hkey))
    · rw [place_of_new hnew]
      omega
    · exact lt_succ_of_lt (h.early key (.inr hkey))
  rows := by
    rw [map_append]
    refine pairwise_concat_place h.rows ?_
    intro key hkey
    rw [place_of_new hnew]
    exact h.early key (.inl hkey)
  probes := h.probes
  free := h.free
  full key hkey := by
    simp only [map_append, map_cons, map_nil, mem_append, mem_singleton] at hkey
    rcases hkey with hkey | rfl
    · exact h.full key hkey
    · refine hfull.imp_right fun hroom => ⟨hroom, ?_⟩
      intro probed hprobed
      rw [place_of_new hnew]
      exact h.early probed (.inr hprobed)
  room := h.room

/-- One more candidate. -/
theorem Split.probe (hfree : endpointKey crates.keys endpoint.url ∉ explicit)
    (hroom : found.candidates.length < maxPoolCandidates) (expected : List String) :
    Split crates settings explicit (done ++ endpoint :: rest) (done ++ [endpoint])
      { entries := found.entries
        candidates := found.candidates ++ [⟨endpoint, expected⟩]
        seenKeys := endpointKey crates.keys endpoint.url :: found.seenKeys } where
  seen key := by simp [h.seen key, or_comm]
  complete key := by
    rw [named_concat_new_iff key hnew hnamed, ← h.complete key]
    simp only [map_append, map_cons, map_nil, mem_append, mem_singleton, PoolCandidate.key]
    exact or_assoc.symm
  early key hkey := by
    simp only [map_append, map_cons, map_nil, mem_append, mem_singleton, PoolCandidate.key] at hkey
    rw [length_append, length_singleton]
    rcases hkey with hkey | hkey | rfl
    · exact lt_succ_of_lt (h.early key (.inl hkey))
    · exact lt_succ_of_lt (h.early key (.inr hkey))
    · rw [place_of_new hnew]
      omega
  rows := h.rows
  probes := by
    rw [map_append]
    refine pairwise_concat_place h.probes ?_
    intro key hkey
    show place crates (done ++ endpoint :: rest) key <
      place crates (done ++ endpoint :: rest) (endpointKey crates.keys endpoint.url)
    rw [place_of_new hnew]
    exact h.early key (.inr hkey)
  free key hkey := by
    simp only [map_append, map_cons, map_nil, mem_append, mem_singleton, PoolCandidate.key] at hkey
    rcases hkey with hkey | rfl
    · exact h.free key hkey
    · exact hfree
  full key hkey := by
    -- there was room until now, so the rows are those of explicit choices
    rcases h.full key hkey with hexplicit | ⟨hfull, -⟩
    · exact .inl hexplicit
    · omega
  room := by
    rw [length_append, length_singleton]
    omega

end

theorem Split.step (h : Split crates settings explicit (done ++ endpoint :: rest) done found) :
    Split crates settings explicit (done ++ endpoint :: rest) (done ++ [endpoint])
      (selectEndpoint crates settings explicit found endpoint) := by
  unfold selectEndpoint
  simp only
  split
  · rename_i hknown
    rw [contains_eq_mem, decide_eq_true_eq, h.seen] at hknown
    refine h.pass (.inl hknown) fun key => ?_
    rw [h.seen, map_append, mem_append]
    constructor
    · exact .inl
    · rintro (hkey | hkey)
      · exact hkey
      · rw [map_singleton, mem_singleton] at hkey
        rw [hkey]
        exact hknown
  rename_i hnew
  rw [contains_eq_mem, decide_eq_true_eq, h.seen] at hnew
  split
  · rename_i hunnamed
    rw [List.isEmpty_iff] at hunnamed
    refine h.pass (.inr fun hnamed => hnamed hunnamed) fun key => ?_
    simp [h.seen key, or_comm]
  rename_i hnamed
  rw [List.isEmpty_iff] at hnamed
  split
  · rename_i hexplicit
    rw [contains_eq_mem, decide_eq_true_eq] at hexplicit
    exact h.row hnew hnamed .explicit (.inl hexplicit)
  rename_i hfree
  rw [contains_eq_mem, decide_eq_true_eq] at hfree
  split
  · rename_i hfull
    exact h.row hnew hnamed .skipped (.inr hfull)
  · rename_i hroom
    exact h.probe hnew hnamed hfree (by omega) _

theorem split_foldl (h : Split crates settings explicit (done ++ rest) done found) :
    Split crates settings explicit (done ++ rest) (done ++ rest)
      (rest.foldl (selectEndpoint crates settings explicit) found) := by
  induction rest generalizing done found with
  | nil =>
    rw [append_nil] at h ⊢
    exact h
  | cons endpoint rest ih =>
    have hstep := h.step
    have hsplit : done ++ endpoint :: rest = (done ++ [endpoint]) ++ rest := by simp
    rw [hsplit] at hstep ⊢
    exact ih hstep

theorem split_selectEndpoints (crates : PoolCrates) (settings : NodePoolSettings)
    (explicit : List String) (endpoints : List SubscriptionEndpoint) :
    Split crates settings explicit endpoints endpoints
      (selectEndpoints crates settings explicit endpoints) :=
  @split_foldl crates settings explicit [] endpoints {} split_nil

end

/-! ### Probes in any order -/

section
variable {verify : Bool} {outcome : Nat → Except String ExitCountry} {completed : List Nat}
  {candidates : List PoolCandidate} {capacity : Nat}

/-- The places of the results are those that have come back. -/
theorem map_fst_probeResults (h : ∀ index ∈ completed, index < candidates.length) :
    (probeResults crates verify candidates outcome completed).map (·.1) = completed := by
  induction completed with
  | nil => rfl
  | cons index rest ih =>
    have hindex := h index mem_cons_self
    have hrest := ih fun i hi => h i (mem_cons_of_mem _ hi)
    rw [probeResults] at hrest ⊢
    rw [filterMap_cons_some (b := (index, probeEntry crates verify candidates[index]
      (outcome index))) (by rw [getElem?_eq_getElem hindex]; rfl), map_cons, hrest]

/-- Sorted by their places, the results are as if each had waited for the one before. -/
theorem insertionSort_probeResults (h : completed.Perm (List.range candidates.length)) :
    (probeResults crates verify candidates outcome completed).insertionSort (fun a b => a.1 ≤ b.1) =
      probeResults crates verify candidates outcome (List.range candidates.length) := by
  have hperm : ((probeResults crates verify candidates outcome completed).insertionSort
      fun a b => a.1 ≤ b.1).Perm
        (probeResults crates verify candidates outcome (List.range candidates.length)) :=
    (perm_insertionSort _ _).trans (h.filterMap _)
  have hplaces := @map_fst_probeResults crates verify outcome (List.range candidates.length)
    candidates fun index hindex => mem_range.mp hindex
  have hrange : (probeResults crates verify candidates outcome
      (List.range candidates.length)).Pairwise fun a b => a.1 ≤ b.1 := by
    rw [← pairwise_map (f := fun result : Nat × PoolProbeEntry => result.1), hplaces]
    exact pairwise_le_range
  have htotal : Std.Total fun a b : Nat × PoolProbeEntry => a.1 ≤ b.1 :=
    ⟨fun a b => le_total a.1 b.1⟩
  have htrans : IsTrans (Nat × PoolProbeEntry) fun a b => a.1 ≤ b.1 :=
    ⟨fun _ _ _ hab hbc => le_trans hab hbc⟩
  refine hperm.eq_of_pairwise ?_ (pairwise_insertionSort _ _) hrange
  -- two results in one place are the same
  intro a b ha hb hab hba
  have hplace : a.1 = b.1 := le_antisymm hab hba
  obtain ⟨candidate, hcandidate, hentry⟩ :=
    mem_probeResults ((perm_insertionSort _ _).mem_iff.mp ha)
  obtain ⟨candidate', hcandidate', hentry'⟩ := mem_probeResults hb
  rw [hplace, hcandidate'] at hcandidate
  cases hcandidate
  rw [hplace, ← hentry'] at hentry
  exact Prod.ext hplace hentry

/-- The keys of the results, in the order of the places, are those of the candidates. -/
theorem keys_probeResults_range :
    (probeResults crates verify candidates outcome (List.range candidates.length)).map
        (·.2.key) = candidates.map (·.key crates) := by
  have hkeys : (probeResults crates verify candidates outcome
      (List.range candidates.length)).map (·.2.key) =
      ((List.range candidates.length).filterMap (candidates[·]?)).map (·.key crates) := by
    rw [probeResults, map_filterMap, map_filterMap]
    congr 1
    funext index
    cases candidates[index]? <;> simp
  rw [hkeys, filterMap_getElem?_range]

/-- Each result gets its row, behind those that are there. -/
theorem keys_foldl_admitResult (results : List (Nat × PoolProbeEntry)) (found : PoolMembers) :
    (results.foldl (admitResult capacity) found).entries.map (·.key) =
      found.entries.map (·.key) ++ results.map (·.2.key) := by
  induction results generalizing found with
  | nil => simp
  | cons result rest ih =>
    have hrow : (admitResult capacity found result).entries.map (·.key) =
        found.entries.map (·.key) ++ [result.2.key] := by
      unfold admitResult
      simp only
      split
      · split <;> simp
      · simp
    rw [foldl_cons, ih, hrow, map_cons, append_assoc, singleton_append]

variable {entries : List PoolProbeEntry}

variable (h : completed.Perm (List.range candidates.length))
include h

theorem keys_admitResults : (admitResults capacity entries
      (probeResults crates verify candidates outcome completed)).entries.map (·.key) =
        entries.map (·.key) ++ candidates.map (·.key crates) := by
  rw [admitResults, insertionSort_probeResults h, keys_foldl_admitResult, keys_probeResults_range]

/-- Members stand in the order of the candidates. -/
theorem members_sublist : ((admitResults capacity entries
      (probeResults crates verify candidates outcome completed)).members.map (·.key)).Sublist
        (candidates.map (·.key crates)) := by
  rw [members_admitResults, insertionSort_probeResults h, ← @keys_probeResults_range crates verify
    outcome candidates, map_take, memberRefs, map_map]
  exact (take_sublist _ _).trans (filter_sublist.map _)

end

/-! ### Rows in order -/

section
variable {found : PoolSelection}
variable {key : String}

theorem mem_probedKeys : key ∈ probedKeys crates settings explicit endpoints ↔
      ∃ endpoint ∈ endpoints, endpointKey crates.keys endpoint.url = key ∧
        IsNamed crates settings endpoint ∧ key ∉ explicit := by
  simp only [probedKeys, mem_dedup, mem_map, mem_filter, decide_eq_true_eq]
  constructor
  · rintro ⟨endpoint, ⟨hmem, hnamed, hfree⟩, rfl⟩
    exact ⟨endpoint, hmem, rfl, hnamed, hfree⟩
  · rintro ⟨endpoint, hmem, rfl, hnamed, hfree⟩
    exact ⟨endpoint, ⟨hmem, hnamed, hfree⟩, rfl⟩

theorem ne_of_place_lt {a b : String} (h : place crates endpoints a < place crates endpoints b) :
    a ≠ b := by
  rintro rfl
  exact lt_irrefl _ h

variable (h : Split crates settings explicit endpoints endpoints found)
include h

/-- A key that the loop has taken is one that a filter names. -/
theorem Split.named
    (hkey : key ∈ found.entries.map (·.key) ∨ key ∈ found.candidates.map (·.key crates)) :
    ∃ endpoint ∈ endpoints, endpointKey crates.keys endpoint.url = key ∧
      IsNamed crates settings endpoint := by
  obtain ⟨first, hfirst, hnamed⟩ := (h.complete key).mp hkey
  obtain ⟨hmem, heq⟩ := firstOf_eq_some_iff hfirst
  exact ⟨first, hmem, heq, hnamed⟩

/-- The row of a key that is no explicit choice was written when the candidates were full, so it is
one key more than there is room for. -/
theorem Split.explicit_of_room
    (hroom : (probedKeys crates settings explicit endpoints).length ≤ maxPoolCandidates)
    (hrow : key ∈ found.entries.map (·.key)) : key ∈ explicit := by
  rcases h.full key hrow with hexplicit | ⟨hfull, hbefore⟩
  · exact hexplicit
  by_contra hfree
  have hnodup : (key :: found.candidates.map (·.key crates)).Nodup := by
    rw [nodup_cons]
    refine ⟨fun hmem => lt_irrefl _ (hbefore key hmem), ?_⟩
    exact h.probes.imp ne_of_place_lt
  have hsubset : key :: found.candidates.map (·.key crates) ⊆
      probedKeys crates settings explicit endpoints := by
    intro probed hprobed
    rw [mem_probedKeys]
    rcases mem_cons.mp hprobed with rfl | hcandidate
    · obtain ⟨endpoint, hmem, heq, hnamed⟩ := h.named (.inl hrow)
      exact ⟨endpoint, hmem, heq, hnamed, hfree⟩
    · obtain ⟨endpoint, hmem, heq, hnamed⟩ := h.named (.inr hcandidate)
      exact ⟨endpoint, hmem, heq, hnamed, h.free probed hcandidate⟩
  have hlength := (hnodup.subperm hsubset).length_le
  rw [length_cons, length_map] at hlength
  omega

/-- In rows that are in order, only explicit choices have one that the loop has written. -/
theorem Split.explicit_of_listed (hlisted : Listed crates settings endpoints
      (found.entries.map (·.key) ++ found.candidates.map (·.key crates)))
    (hrow : key ∈ found.entries.map (·.key)) : key ∈ explicit := by
  rcases h.full key hrow with hexplicit | ⟨hfull, hbefore⟩
  · exact hexplicit
  have hbehind := (pairwise_append.mp hlisted.ordered).2.2 key hrow
  cases hcandidates : found.candidates.map (·.key crates) with
  | nil =>
    rw [map_eq_nil_iff] at hcandidates
    rw [hcandidates] at hfull
    cases hfull
  | cons probed rest =>
    have hmem : probed ∈ found.candidates.map (·.key crates) := by
      rw [hcandidates]
      exact mem_cons_self
    have hbefore' := hbefore probed hmem
    have hbehind' := hbehind probed hmem
    omega

/-- The rows of the loop and those of the candidates behind them are in order exactly under
`RowsInOrder`. -/
theorem Split.listed_iff : Listed crates settings endpoints
        (found.entries.map (·.key) ++ found.candidates.map (·.key crates)) ↔
      RowsInOrder crates settings explicit endpoints := by
  constructor
  · intro hlisted
    have hprobed : ∀ endpoint ∈ endpoints, IsNamed crates settings endpoint →
        endpointKey crates.keys endpoint.url ∉ explicit →
          endpointKey crates.keys endpoint.url ∈ found.candidates.map (·.key crates) := by
      intro endpoint hmem hnamed hfree
      have hkey := (hlisted.complete _).mpr ⟨endpoint, hmem, rfl, hnamed⟩
      rcases mem_append.mp hkey with hrow | hcandidate
      · exact absurd (h.explicit_of_listed hlisted hrow) hfree
      · exact hcandidate
    constructor
    · intro endpoint hmem hnamed first hfirst
      have hkey := (hlisted.complete _).mpr ⟨endpoint, hmem, rfl, hnamed⟩
      obtain ⟨first', hfirst', hnamed'⟩ := (h.complete _).mp (mem_append.mp hkey)
      rw [hfirst] at hfirst'
      cases hfirst'
      exact hnamed'
    · have hsubset : probedKeys crates settings explicit endpoints ⊆
          found.candidates.map (·.key crates) := by
        intro key hkey
        obtain ⟨endpoint, hmem, rfl, hnamed, hfree⟩ := mem_probedKeys.mp hkey
        exact hprobed endpoint hmem hnamed hfree
      have hlength := ((nodup_dedup _).subperm hsubset).length_le
      rw [length_map] at hlength
      exact hlength.trans h.room
    · intro a ha b hb hnamedA hnamedB hexplicit hfree
      have hkey := (hlisted.complete _).mpr ⟨a, ha, rfl, hnamedA⟩
      rcases mem_append.mp hkey with hrow | hcandidate
      · exact (pairwise_append.mp hlisted.ordered).2.2 _ hrow _ (hprobed b hb hnamedB hfree)
      · exact absurd hexplicit (h.free _ hcandidate)
  · intro hinorder
    have hordered : (found.entries.map (·.key) ++ found.candidates.map (·.key crates)).Pairwise
        fun a b => place crates endpoints a < place crates endpoints b := by
      rw [pairwise_append]
      refine ⟨h.rows, h.probes, ?_⟩
      intro key hrow probed hcandidate
      obtain ⟨a, ha, rfl, hnamedA⟩ := h.named (.inl hrow)
      obtain ⟨b, hb, rfl, hnamedB⟩ := h.named (.inr hcandidate)
      exact hinorder.apart a ha b hb hnamedA hnamedB (h.explicit_of_room hinorder.room hrow)
        (h.free _ hcandidate)
    refine ⟨?_, hordered.imp ne_of_place_lt, hordered⟩
    intro key
    rw [mem_append, h.complete]
    constructor
    · rintro ⟨first, hfirst, hnamed⟩
      obtain ⟨hmem, heq⟩ := firstOf_eq_some_iff hfirst
      exact ⟨first, hmem, heq, hnamed⟩
    · rintro ⟨endpoint, hmem, rfl, hnamed⟩
      have hsome : (firstOf crates endpoints (endpointKey crates.keys endpoint.url)).isSome :=
        firstOf_isSome_iff.mpr (mem_map.mpr ⟨endpoint, hmem, rfl⟩)
      obtain ⟨first, hfirst⟩ := Option.isSome_iff_exists.mp hsome
      exact ⟨first, hfirst, hinorder.seen endpoint hmem hnamed first hfirst⟩

end

/-! ### The report -/

section
variable {checks : ProfileChecks} {now : Nat} {id : String} {file fileThen : Option ProfileDocument}
  {read : Except IoError (List SubscriptionEndpoint)} {input : PoolInput} {probes : Probes}
  {report : NodePoolReport} {written : Option ProfileDocument}

/-- The rows of a report are those of its run, and so are its members where none are kept. -/
theorem rows_rebuiltPool (h : rebuiltPool crates now input probes = .ok report) :
    ∃ completed : List Nat, completed.Perm (List.range (poolCandidates crates input).length) ∧
      report.entries = (foundMembers crates input probes completed).entries ∧
        (report.keptPrevious = false →
          report.members = (foundMembers crates input probes completed).members) := by
  unfold rebuiltPool at h
  simp only at h
  cases hdone : probes.completed with
  | none =>
    rw [hdone] at h
    cases h
  | some completed =>
    rw [hdone] at h
    simp only at h
    refine ⟨_, (completed (poolCandidates crates input).length).2, ?_⟩
    split at h
    · rename_i hnone
      cases h
      refine ⟨rfl, fun hkept => ?_⟩
      rw [Bool.not_eq_false', List.isEmpty_iff] at hkept
      exact hkept.trans (List.isEmpty_iff.mp hnone).symm
    · cases h
      exact ⟨rfl, fun _ => rfl⟩

/-- What a rebuild reports is what it has made of its input, but for the note that it has
written. -/
theorem rebuiltPool_of_rebuild (hinput : readPoolInput checks id file read = .ok input)
    (h : rebuildNodePoolWith checks crates now id file read probes fileThen =
      .ok (report, written)) : ∃ rebuilt, rebuiltPool crates now input probes = .ok rebuilt ∧
      report.entries = rebuilt.entries ∧ report.members = rebuilt.members ∧
        report.keptPrevious = rebuilt.keptPrevious := by
  obtain ⟨input', hinput', hrest⟩ := bind_eq_ok.mp h
  obtain rfl : input = input' := Except.ok.inj (hinput.symm.trans hinput')
  obtain ⟨rebuilt, hrebuilt, hwrite⟩ := bind_eq_ok.mp hrest
  refine ⟨rebuilt, hrebuilt, ?_⟩
  split at hwrite
  · cases hwrite
    exact ⟨rfl, rfl, rfl⟩
  · obtain ⟨document, -, hpair⟩ := bind_eq_ok.mp hwrite
    cases hpair
    exact ⟨rfl, rfl, rfl⟩

/-- A report lists the keys that a filter names, each once and in the order of the subscription, and
its new members in that order, exactly where the input keeps explicit choices and probes apart. The
order in which the probes come back plays no part. -/
theorem report_listed_iff (hinput : readPoolInput checks id file read = .ok input)
    (h : rebuildNodePoolWith checks crates now id file read probes fileThen =
      .ok (report, written)) :
    (Listed crates input.settings input.endpoints (report.entries.map (·.key)) ∧
      (report.keptPrevious = false → (report.members.map (·.key)).Pairwise fun a b =>
        place crates input.endpoints a < place crates input.endpoints b)) ↔
      RowsInOrder crates input.settings
        (explicitKeys crates.keys input.profile input.endpoints) input.endpoints := by
  obtain ⟨rebuilt, hrebuilt, hentries, hmembers, hkept⟩ := rebuiltPool_of_rebuild hinput h
  obtain ⟨completed, hperm, hrows, hfound⟩ := rows_rebuiltPool hrebuilt
  have hsplit := split_selectEndpoints crates input.settings
    (explicitKeys crates.keys input.profile input.endpoints) input.endpoints
  have hordered : report.keptPrevious = false →
      (report.members.map (·.key)).Pairwise fun a b =>
        place crates input.endpoints a < place crates input.endpoints b := by
    intro hnew
    rw [hmembers, hfound (hkept ▸ hnew)]
    exact hsplit.probes.sublist (members_sublist hperm)
  have hlisted := hsplit.listed_iff
  rw [hentries, hrows, foundMembers, keys_admitResults hperm]
  constructor
  · intro hreport
    exact hlisted.mp hreport.1
  · intro hinorder
    exact ⟨hlisted.mpr hinorder, hordered⟩

end

/-! ### Two reports -/

section

/-- A subscription, with its endpoints, under the place of its primary. -/
def homeInput (primary : Nat) (endpoints : List SubscriptionEndpoint) : PoolInput :=
  let subscription := { poolSubscription with activeIndex := primary }
  ⟨{ poolProfile with subscription := some subscription }, subscription, ⟨[poolFilter], true⟩,
    endpoints⟩

def homeFile (input : PoolInput) : Option ProfileDocument := some ⟨1, [input.profile]⟩

theorem homeInput_read (primary : Nat) (endpoints : List SubscriptionEndpoint) :
    readPoolInput sampleChecks "home" (homeFile (homeInput primary endpoints)) (.ok endpoints) =
      .ok (homeInput primary endpoints) := by
  have hsettings : validatePoolSettings ⟨[poolFilter], true⟩ = .ok () := by decide
  refine bind_eq_ok.mpr ⟨⟨1, [(homeInput primary endpoints).profile]⟩, rfl, ?_⟩
  exact bind_eq_ok.mpr ⟨(), hsettings, rfl⟩

/-- The store once the members are written. -/
def poolStored (input : PoolInput) (members : List EndpointRef) : ProfileDocument :=
  ⟨1, [{ input.profile with
    subscription := some { input.subscription with poolKeys := members } }]⟩

/-- A rebuild that finds members where there were none writes them. -/
theorem pool_stored {primary : Nat} {endpoints : List SubscriptionEndpoint} {probes : Probes}
    {report : NodePoolReport} {written : ProfileDocument} (hmembers : report.members ≠ [])
    (h : rebuiltPool sampleCrates 0 (homeInput primary endpoints) probes = .ok report)
    (hwrite : updateProfile sampleChecks "home"
      (writePool (homeInput primary endpoints) report.members)
        (homeFile (homeInput primary endpoints)) = .ok written) :
    rebuildNodePoolWith sampleChecks sampleCrates 0 "home"
      (homeFile (homeInput primary endpoints)) (.ok endpoints) probes
        (homeFile (homeInput primary endpoints)) =
          .ok ({ report with poolChanged := true }, some written) := by
  refine bind_eq_ok.mpr ⟨_, homeInput_read primary endpoints, ?_⟩
  refine bind_eq_ok.mpr ⟨report, h, ?_⟩
  rw [show (homeInput primary endpoints).subscription.poolKeys = [] from rfl, if_neg hmembers]
  exact bind_eq_ok.mpr ⟨_, hwrite, rfl⟩

/-- The primary and two more endpoints in the Netherlands. -/
def orderedEndpoints : List SubscriptionEndpoint :=
  [⟨"vless://11111111-1111-1111-1111-111111111111@a.example:443#NL-1", "NL-1"⟩,
    ⟨"vless://11111111-1111-1111-1111-111111111111@b.example:443#NL-2", "NL-2"⟩,
    ⟨"vless://11111111-1111-1111-1111-111111111111@c.example:443#NL-3", "NL-3"⟩]

/-- The last candidate is the first to come back. -/
def reversedProbes : Probes :=
  { sampleProbes with completed := some fun n => ⟨(range n).reverse, (range n).reverse_perm⟩ }

def orderedReport : NodePoolReport :=
  ⟨0, [⟨"a2d0e3fc857e1d95", "NL-2"⟩, ⟨"4f1a90cc3be27d08", "NL-3"⟩],
    [⟨"1e9bcb2d9a5ba44a", "NL-1", .explicit, none⟩,
      ⟨"a2d0e3fc857e1d95", "NL-2", .member, some "NL"⟩,
      ⟨"4f1a90cc3be27d08", "NL-3", .member, some "NL"⟩], false, false⟩

/-- The primary comes first in the subscription, so its row may, and the two probed rows are in
order though they come back in reverse. -/
theorem home_rows_in_order :
    Listed sampleCrates ⟨[poolFilter], true⟩ orderedEndpoints (orderedReport.entries.map (·.key)) ∧
      (orderedReport.members.map (·.key)).Pairwise fun a b =>
        place sampleCrates orderedEndpoints a < place sampleCrates orderedEndpoints b := by
  have hrebuilt : rebuiltPool sampleCrates 0 (homeInput 0 orderedEndpoints) reversedProbes =
      .ok orderedReport := by decide
  have hwrite : updateProfile sampleChecks "home"
      (writePool (homeInput 0 orderedEndpoints) orderedReport.members)
        (homeFile (homeInput 0 orderedEndpoints)) =
      .ok (poolStored (homeInput 0 orderedEndpoints) orderedReport.members) := rfl
  have hwritten := pool_stored (by decide) hrebuilt hwrite
  have hlisted := (report_listed_iff (homeInput_read 0 orderedEndpoints) hwritten).mpr ⟨?_, ?_, ?_⟩
  · exact ⟨hlisted.1, hlisted.2 rfl⟩
  · have hfirst : ∀ endpoint ∈ orderedEndpoints,
        firstOf sampleCrates orderedEndpoints (endpointKey sampleCrates.keys endpoint.url) =
          some endpoint := by decide
    intro endpoint hmem hnamed first hsome
    rw [show (homeInput 0 orderedEndpoints).endpoints = orderedEndpoints from rfl,
      hfirst endpoint hmem] at hsome
    cases hsome
    exact hnamed
  · decide
  · decide

/-- Two endpoints in the Netherlands, of which the second will be the primary. -/
def mixedEndpoints : List SubscriptionEndpoint := orderedEndpoints.take 2

def mixedReport : NodePoolReport :=
  ⟨0, [⟨"1e9bcb2d9a5ba44a", "NL-1"⟩],
    [⟨"a2d0e3fc857e1d95", "NL-2", .explicit, none⟩,
      ⟨"1e9bcb2d9a5ba44a", "NL-1", .member, some "NL"⟩], false, false⟩

/-- The row of the primary, which is the second endpoint, comes first. -/
theorem explicit_row_comes_first :
    ∃ written, rebuildNodePoolWith sampleChecks sampleCrates 0 "home"
      (homeFile (homeInput 1 mixedEndpoints)) (.ok mixedEndpoints) sampleProbes
        (homeFile (homeInput 1 mixedEndpoints)) =
          .ok ({ mixedReport with poolChanged := true }, some written) ∧
      ¬Listed sampleCrates ⟨[poolFilter], true⟩ mixedEndpoints (mixedReport.entries.map (·.key)) := by
  have hrebuilt : rebuiltPool sampleCrates 0 (homeInput 1 mixedEndpoints) sampleProbes =
      .ok mixedReport := by decide
  refine ⟨poolStored (homeInput 1 mixedEndpoints) mixedReport.members,
    pool_stored (by decide) hrebuilt rfl, fun hlisted => ?_⟩
  have hordered := hlisted.ordered
  revert hordered
  decide

end

end NetOrchestrator.Core.Profiles
