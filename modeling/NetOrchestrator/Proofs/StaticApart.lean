import NetOrchestrator.Core.StaticRoutes
import NetOrchestrator.Lib.Checks

/-!
# `Proofs.StaticApart`: which static-route profiles share an intent

The intents of a profile are recognised by their names alone. A name is `static-`, the slug of the
profile's id and a suffix, so two profiles can share one in two ways: their ids fold to one slug,
or one slug is the other one with a suffix behind it, as `office-bypass` is for `office`.
`kept_apart_iff` says that there is no third way. What keeps it from being longer is that no suffix
ends another one: only `-gw` has digits behind it, and each suffix has one `-`.
-/

namespace NetOrchestrator.Core

open Lib.Checks List Bool
open Net
open Daemon (NetIntentSetParams stripPrefix stripPrefix_append stripPrefix_eq_some)
open String (toList_inj toList_ofList)

/-! ### Suffixes -/

section
variable {s t u : List Char}

/-- The suffixes as lists of characters. -/
inductive Suffix : List Char → Prop where
  | none : Suffix []
  | bypass : Suffix "-bypass".toList
  | gateway (n : List Char) (hne : n ≠ []) (hdigits : ∀ c ∈ n, isAsciiDigit c = true) :
      Suffix ("-gw".toList ++ n)

theorem derivedSuffix_iff {rest : String} : derivedSuffix rest = true ↔ Suffix rest.toList := by
  constructor
  · intro h
    rw [derivedSuffix, or_eq_true, or_eq_true, beq_iff_eq, beq_iff_eq, Option.any_eq_true] at h
    rcases h with (rfl | rfl) | ⟨n, hstrip, hn⟩
    · exact .none
    · exact .bypass
    · rw [and_eq_true, bne_iff_ne, all_eq_true] at hn
      rw [stripPrefix_eq_some hstrip, String.toList_append]
      exact .gateway n.toList (fun hnil => hn.1 (String.toList_eq_nil_iff.mp hnil)) hn.2
  · intro h
    rw [derivedSuffix, or_eq_true, or_eq_true, beq_iff_eq, beq_iff_eq, Option.any_eq_true]
    generalize hchars : rest.toList = chars at h
    cases h with
    | none => exact .inl (.inl (String.toList_eq_nil_iff.mp hchars))
    | bypass => exact .inl (.inr (String.toList_inj.mp hchars))
    | gateway n hne hdigits =>
      refine .inr ⟨String.ofList n, ?_, ?_⟩
      · have hrest : rest = gatewaySuffix ++ String.ofList n := by
          rw [← toList_inj, String.toList_append, toList_ofList, hchars]
          rfl
        rw [hrest, stripPrefix_append]
      · rw [and_eq_true, bne_iff_ne, all_eq_true, toList_ofList]
        refine ⟨fun hempty => hne ?_, hdigits⟩
        rw [← toList_ofList (l := n), hempty]
        rfl

theorem count_dash_of_digits {n : List Char} (h : ∀ c ∈ n, isAsciiDigit c = true) :
    n.count '-' = 0 := by
  rw [count_eq_zero]
  intro hmem
  exact absurd (h _ hmem) (by decide)

/-- Every suffix but the empty one starts with the only `-` in it. -/
theorem Suffix.dash (h : Suffix s) : s = [] ∨ ∃ rest, s = '-' :: rest ∧ rest.count '-' = 0 := by
  cases h with
  | none => exact .inl rfl
  | bypass => exact .inr ⟨"bypass".toList, by decide, by decide⟩
  | gateway n hne hdigits =>
    refine .inr ⟨'g' :: 'w' :: n, rfl, ?_⟩
    simpa using count_dash_of_digits hdigits

/-- A suffix is not continued by another one: if both ends are suffixes, then the front is one. -/
theorem Suffix.front (h : Suffix (t ++ u)) (hu : Suffix u) : Suffix t := by
  -- Both the whole and its end start with their only `-`, so one of the two parts is empty.
  rcases hu.dash with rfl | ⟨rest, rfl, -⟩
  · rwa [append_nil] at h
  · rcases h.dash with hnil | ⟨whole, hwhole, hcount⟩
    · simp at hnil
    · cases t with
      | nil => exact .none
      | cons c t =>
        rw [cons_append, List.cons.injEq] at hwhole
        obtain ⟨-, hwhole⟩ := hwhole
        have hmem : '-' ∈ whole := by
          rw [← hwhole]
          simp
        exact absurd hmem (count_eq_zero.mp hcount)

end

/-! ### Names -/

/-- `t` is `s` with the suffix of one of its intents behind it, or `s` itself. -/
def Continues (s t : String) : Prop := ∃ suffix, derivedSuffix suffix = true ∧ t = s ++ suffix

theorem continues_iff {s t : String} :
    (stripPrefix s t).any derivedSuffix = true ↔ Continues s t := by
  rw [Option.any_eq_true]
  constructor
  · rintro ⟨suffix, hstrip, hsuffix⟩
    exact ⟨suffix, hsuffix, stripPrefix_eq_some hstrip⟩
  · rintro ⟨suffix, hsuffix, rfl⟩
    exact ⟨suffix, stripPrefix_append s suffix, hsuffix⟩

instance (s t : String) : Decidable (Continues s t) := decidable_of_iff _ continues_iff

section
variable {a b base id : String}

theorem staticIntentId_ok (h : staticIntentId a = .ok base) : base = staticPrefix ++ slug a := by
  rw [staticIntentId] at h
  split at h
  · cases h
  · cases h
    rfl

/-- The names that a profile's switch takes for its own. -/
theorem staticBelongs_iff (h : staticIntentId a = .ok base) :
    staticBelongs a id = true ↔ Continues base id := by
  rw [staticBelongs, h]
  exact continues_iff
/-- Neither slug continues the other one. -/
def SlugsApart (a b : String) : Prop :=
  ¬ Continues (slug a) (slug b) ∧ ¬ Continues (slug b) (slug a)

instance (a b : String) : Decidable (SlugsApart a b) := inferInstanceAs (Decidable (_ ∧ _))

variable {other : String} (ha : staticIntentId a = .ok base) (hb : staticIntentId b = .ok other)
include ha hb

/-- Two profiles that share a name have slugs that continue one another. -/
theorem continues_of_shared (hleft : staticBelongs a id = true)
    (hright : staticBelongs b id = true) :
    Continues (slug a) (slug b) ∨ Continues (slug b) (slug a) := by
  obtain ⟨s, hs, rfl⟩ := (staticBelongs_iff ha).mp hleft
  obtain ⟨t, ht, heq⟩ := (staticBelongs_iff hb).mp hright
  rw [staticIntentId_ok ha, staticIntentId_ok hb] at heq
  have hlists : (slug a).toList ++ s.toList = (slug b).toList ++ t.toList := by
    have hchars := congrArg String.toList heq
    simp only [String.toList_append, append_assoc] at hchars
    exact append_cancel_left hchars
  rw [derivedSuffix_iff] at hs ht
  -- One slug is the front of the other, and what is between is the front of a suffix.
  rcases append_eq_append_iff.mp hlists with
    ⟨between, hslug, hsuffix⟩ | ⟨between, hslug, hsuffix⟩
  · refine .inl ⟨String.ofList between, derivedSuffix_iff.mpr ?_, ?_⟩
    · rw [toList_ofList]
      exact Suffix.front (hsuffix ▸ hs) ht
    · rw [← toList_inj, String.toList_append, toList_ofList, hslug]
  · refine .inr ⟨String.ofList between, derivedSuffix_iff.mpr ?_, ?_⟩
    · rw [toList_ofList]
      exact Suffix.front (hsuffix ▸ ht) hs
    · rw [← toList_inj, String.toList_append, toList_ofList, hslug]

/-- A profile whose slug continues another one's has a base name that both claim. -/
theorem shared_of_continues (h : Continues (slug a) (slug b)) :
    staticBelongs a other = true ∧ staticBelongs b other = true := by
  obtain ⟨suffix, hsuffix, hslug⟩ := h
  constructor
  · refine (staticBelongs_iff ha).mpr ⟨suffix, hsuffix, ?_⟩
    rw [staticIntentId_ok ha, staticIntentId_ok hb, hslug, String.append_assoc]
  · exact (staticBelongs_iff hb).mpr ⟨"", rfl, String.append_empty.symm⟩

end

/-! ### What a profile's switch touches -/

theorem derivedSuffix_gateway (index : Nat) :
    derivedSuffix (gatewaySuffix ++ Nat.repr index) = true := by
  rw [derivedSuffix_iff, String.toList_append]
  refine .gateway _ ?_ ?_
  · rw [Nat.repr, toList_ofList]
    exact Nat.toDigits_ne_nil
  · intro c hc
    rw [Nat.repr, toList_ofList] at hc
    have hdigit : c.isDigit = true := Nat.isDigit_of_mem_toDigits (by decide) (by decide) hc
    exact hdigit

variable {profile : StaticProfile}

/-- A profile applies only intents that it takes for its own. -/
theorem belongs_of_mem_staticIntents {text : NetText}
    {bypass : List IpAddr} {intents : List NetIntentSetParams}
    (h : staticIntents text profile bypass = .ok intents) :
    ∀ intent ∈ intents, staticBelongs profile.id intent.id = true := by
  rw [staticIntents] at h
  split at h
  · cases h
  split at h
  · cases h
  obtain ⟨base, hbase, h⟩ := bind_eq_ok.mp h
  split at h
  · cases h
  split at h
  · cases h
  obtain ⟨bypassed, -, h⟩ := bind_eq_ok.mp h
  obtain ⟨groups, -, h⟩ := bind_eq_ok.mp h
  cases h
  have hclaim : ∀ suffix, derivedSuffix suffix = true →
      staticBelongs profile.id (base ++ suffix) = true := fun suffix hsuffix =>
    (staticBelongs_iff hbase).mpr ⟨suffix, hsuffix, rfl⟩
  intro intent hmem
  rw [mem_append, mem_append] at hmem
  rcases hmem with (hmem | hmem) | hmem
  · split at hmem
    · cases hmem
    · rw [mem_singleton.mp hmem]
      exact hclaim bypassSuffix rfl
  · split at hmem
    · cases hmem
    · rw [mem_singleton.mp hmem]
      have hself := hclaim "" rfl
      rwa [String.append_empty] at hself
  · obtain ⟨index, hindex, rfl⟩ := mem_mapIdx.mp hmem
    show staticBelongs profile.id (base ++ gatewaySuffix ++ Nat.repr (index + 1)) = true
    rw [String.append_assoc]
    exact hclaim _ (derivedSuffix_gateway (index + 1))

theorem belongs_of_mem_stopRequests {held : List String} {id : String}
    (h : id ∈ stopRequests held profile) : staticBelongs profile.id id = true := by
  rw [stopRequests, mem_append, mem_filter, mem_filter] at h
  rcases h with h | h <;> exact (mem_filter.mp h.1).2

/-- Whatever the profile `a` applies or removes is none of the intents of `b`. -/
structure LeavesAlone (a b : String) : Prop where
  unshared : ∀ id, staticBelongs a id = true → staticBelongs b id = false
  applied : ∀ text profile bypass intents, profile.id = a →
    staticIntents text profile bypass = .ok intents →
      ∀ intent ∈ intents, staticBelongs b intent.id = false
  removed : ∀ held profile, profile.id = a →
    ∀ id ∈ stopRequests held profile, staticBelongs b id = false

theorem leavesAlone_of_unshared {a b : String}
    (h : ∀ id, staticBelongs a id = true → staticBelongs b id = false) : LeavesAlone a b where
  unshared := h
  applied := by
    rintro text profile bypass intents rfl hintents intent hmem
    exact h intent.id (belongs_of_mem_staticIntents hintents intent hmem)
  removed := by
    rintro held profile rfl id hmem
    exact h id (belongs_of_mem_stopRequests hmem)

/-- Two profiles keep to their own intents exactly if neither slug continues the other. -/
theorem kept_apart_iff {a b base other : String} (ha : staticIntentId a = .ok base)
    (hb : staticIntentId b = .ok other) : LeavesAlone a b ∧ LeavesAlone b a ↔ SlugsApart a b := by
  constructor
  · rintro ⟨hab, hba⟩
    constructor
    · intro hcont
      obtain ⟨hleft, hright⟩ := shared_of_continues ha hb hcont
      rw [hab.unshared other hleft] at hright
      cases hright
    · intro hcont
      obtain ⟨hleft, hright⟩ := shared_of_continues hb ha hcont
      rw [hba.unshared base hleft] at hright
      cases hright
  · rintro ⟨hab, hba⟩
    have hnot : ∀ id, ¬ (staticBelongs a id = true ∧ staticBelongs b id = true) := by
      rintro id ⟨hleft, hright⟩
      exact (continues_of_shared ha hb hleft hright).elim hab hba
    constructor
    · refine leavesAlone_of_unshared fun id hleft => ?_
      rw [← Bool.not_eq_true]
      exact fun hright => hnot id ⟨hleft, hright⟩
    · refine leavesAlone_of_unshared fun id hright => ?_
      rw [← Bool.not_eq_true]
      exact fun hleft => hnot id ⟨hleft, hright⟩

theorem office_and_lab_kept_apart : LeavesAlone "office" "lab" ∧ LeavesAlone "lab" "office" := by
  have hoffice : staticIntentId "office" = .ok "static-office" := by decide
  have hlab : staticIntentId "lab" = .ok "static-lab" := by decide
  have happart : SlugsApart "office" "lab" := by decide
  exact (kept_apart_iff hoffice hlab).mpr happart

/-- The intent of `office` that bypasses its endpoint is the first intent of `office-bypass`. -/
theorem bypass_profile_shares :
    staticIntentId "office" = .ok "static-office" ∧
      staticIntentId "office-bypass" = .ok "static-office-bypass" ∧
      staticBelongs "office" "static-office-bypass" = true ∧
      staticBelongs "office-bypass" "static-office-bypass" = true := by
  decide

end NetOrchestrator.Core
