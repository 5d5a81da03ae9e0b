import NetOrchestrator.Proofs.XrayRules

/-!
# `Proofs.TagIntegrity`: rules that name an outbound

`TagIntegrity` says of a config that each rule in front of the base's carries the tag of just
one outbound, of the protocol that the rule is meant for. A padded tag that is reused breaks
it: the rule gets the trimmed tag, which no outbound has.
`tag_integrity_iff` says that nothing else does.
-/

namespace NetOrchestrator.Core

open Net Lib List
open Daemon (trim)

/-- The rule carries the tag of just one outbound, which its aim accepts. -/
def Serves (outbounds : List Json) (intended : Intended) (rule : Json) : Prop :=
  ∃ tag, rule = intended.rule tag ∧ tag ≠ "" ∧ Sole rawTag outbounds tag intended.aim.Accepts

/-- The rules in front of the base's are the intended ones, and each names the outbound it is
meant for. -/
def TagIntegrity (text : NetText) (base : Json) (policies : List DomainPolicy)
    (options : ProfileRoutingOptions) (config : Json) : Prop :=
  ∃ added, rulesOf config = added ++ rulesOf base ∧
    List.Forall₂ (Serves (outboundsOf config)) (intendedRules text policies options) added

/-- No rule is emitted for a destination whose first outbound has a padded tag. -/
def NoPaddedPick (text : NetText) (base : Json) (policies : List DomainPolicy)
    (options : ProfileRoutingOptions) : Prop :=
  ∀ x ∈ intendedRules text policies options, ∀ d, x.aim = .shared d →
    ¬PaddedPick d.serves (outboundsOf base)

theorem Intended.rule_injective (x : Intended) {tag tag' : String} (h : x.rule tag = x.rule tag') :
    tag = tag' := by
  have hread := congrArg (fun rule : Json => rule.text? "outboundTag") h
  simpa [Intended.rule] using hread

section
variable {text : NetText} {policies : List DomainPolicy} {options : ProfileRoutingOptions}
  {base : Json} {outbounds : List Json} {tags : RouteTags}

section
variable {x : Intended} (hnamed : TagsNamed (outboundsOf base) policies options outbounds tags)
include hnamed

/-- The tag of a rule names what the rule is meant for, unless the tag was padded. -/
theorem serves_tagged (hclean : NoPaddedPick text base policies options)
    (hx : x ∈ intendedRules text policies options) : Serves outbounds x (tagged tags x) := by
  have hasked := asked_of_mem hx
  refine ⟨tags.aimTag x.aim, rfl, ?_⟩
  cases haim : x.aim with
  | shared d =>
    rw [haim] at hasked
    have hsome : (tags.of d).isSome = true := (hnamed.needed d).trans hasked
    obtain ⟨r, hr⟩ := Option.isSome_iff_exists.mp hsome
    have htag : tags.aimTag (.shared d) = r := by
      show (tags.of d).getD "" = r
      rw [hr]
      rfl
    have hout := hnamed.shared d r hr
    rw [htag]
    exact ⟨hout.nonempty, hout.sole (hclean x hx d haim)⟩
  | interface identity =>
    rw [haim] at hasked
    obtain ⟨route, hroute, rfl⟩ := hasked
    obtain ⟨t, ht, hne, hsole⟩ := hnamed.bound route hroute
    have htag : tags.aimTag (.interface route.identity) = t := by
      show (tags.interfaces.lookup route.identity).getD "" = t
      rw [ht]
      rfl
    rw [htag]
    exact ⟨hne, hsole⟩

/-- A padded tag names nothing. -/
theorem not_serves_tagged {d : Destination} (haim : x.aim = .shared d)
    (hpadded : PaddedPick d.serves (outboundsOf base)) : ¬Serves outbounds x (tagged tags x) := by
  rintro ⟨tag, hrule, hne, hsole⟩
  have htag := x.rule_injective hrule
  subst htag
  have hlength := hsole.length
  cases hr : tags.of d with
  | none =>
    refine hne ?_
    rw [haim]
    show (tags.of d).getD "" = ""
    rw [hr]
    rfl
  | some r =>
    have hlost := (hnamed.shared d r hr).lost hpadded
    have htag : tags.aimTag x.aim = r := by
      rw [haim]
      show (tags.of d).getD "" = r
      rw [hr]
      rfl
    rw [htag, hlost] at hlength
    cases hlength

end

theorem rulesActive_of_isPlain (h : isPlain policies options = true) :
    rulesActive policies options = false := by
  simp only [isPlain, Bool.and_eq_true, Bool.not_eq_true'] at h
  exact h.1.1.1.1.1

section
variable {config : Json} (h : applyProfileRouting text base policies options = .ok config)
include h

theorem tagIntegrity_of_clean (hclean : NoPaddedPick text base policies options) :
    TagIntegrity text base policies options config := by
  rcases applyProfileRouting_ok h with ⟨hplain, rfl⟩ | ⟨-, outbounds, tags, merged, hrouted⟩
  · refine ⟨[], rfl, ?_⟩
    rw [intendedRules_of_inactive (rulesActive_of_isPlain hplain)]
    exact .nil
  · have hnamed := routedOutbounds_ok hrouted.routed
    refine ⟨merged, hrouted.rules_eq, ?_⟩
    rw [mergedRules_ok (hnamed.needed .dns) hrouted.merged_eq, hrouted.outbounds_eq,
      forall₂_map_right_iff, forall₂_same]
    exact fun x hx => serves_tagged hnamed hclean hx

theorem clean_of_tagIntegrity (hintegrity : TagIntegrity text base policies options config) :
    NoPaddedPick text base policies options := by
  intro x hx d haim hpadded
  rcases applyProfileRouting_ok h with ⟨hplain, rfl⟩ | ⟨-, outbounds, tags, merged, hrouted⟩
  · rw [intendedRules_of_inactive (rulesActive_of_isPlain hplain)] at hx
    cases hx
  · have hnamed := routedOutbounds_ok hrouted.routed
    obtain ⟨added, hadded, hserves⟩ := hintegrity
    -- the rules of the base say which rules were added
    have hsame : added = merged := append_cancel_right (hadded.symm.trans hrouted.rules_eq)
    rw [hsame, mergedRules_ok (hnamed.needed .dns) hrouted.merged_eq, hrouted.outbounds_eq,
      forall₂_map_right_iff, forall₂_same] at hserves
    exact not_serves_tagged hnamed haim hpadded (hserves x hx)

end

/-- The tags that the added rules carry name what they are meant for just where no rule is
emitted for a destination whose first outbound has a padded tag. -/
theorem tag_integrity_iff {config : Json}
    (h : applyProfileRouting text base policies options = .ok config) :
    TagIntegrity text base policies options config ↔ NoPaddedPick text base policies options :=
  ⟨clean_of_tagIntegrity h, tagIntegrity_of_clean h⟩

end

/-! ### A padded tag -/

instance (counts : List String) (o : Json) : Decidable (Padded counts o) :=
  decidable_of_iff ((rawTag o).any fun tag =>
    trim tag ≠ tag ∧ trim tag ≠ "" ∧ counts.count (trim tag) = 1) (by
      simp [Padded, Option.any_eq_true])

instance (p : Json → Bool) (base : List Json) : Decidable (PaddedPick p base) :=
  decidable_of_iff ((base.find? p).any fun o => Padded (countedTags base) o) (by
    simp [PaddedPick, Option.any_eq_true])

/-- An imported config with a proxy and a direct outbound. -/
def importedConfig (proxyTag : String) : Json :=
  .object [("outbounds", .arr [.object [("protocol", .str "vless"), ("tag", .str proxyTag)],
    .object [("protocol", .str "freedom"), ("tag", .str "direct")]])]

def examplePolicies : List DomainPolicy := [⟨["domain:example.com"], .proxy⟩]

theorem imported_tags_hold : ∃ config,
    applyProfileRouting ipnetText (importedConfig "proxy") examplePolicies {} = .ok config ∧
      TagIntegrity ipnetText (importedConfig "proxy") examplePolicies {} config := by
  have hok : (applyProfileRouting ipnetText (importedConfig "proxy") examplePolicies {}).isOk =
      true := by decide
  cases hconfig : applyProfileRouting ipnetText (importedConfig "proxy") examplePolicies {} with
  | error e =>
    rw [hconfig] at hok
    cases hok
  | ok config =>
    refine ⟨config, rfl, (tag_integrity_iff hconfig).mpr ?_⟩
    intro x _ d _
    cases d <;> decide

/-- The proxy's tag has a blank in front. The rule names `proxy`, and no outbound has this
tag. -/
theorem padded_tag_dangles : ∃ config,
    applyProfileRouting ipnetText (importedConfig " proxy") examplePolicies {} = .ok config ∧
      ¬TagIntegrity ipnetText (importedConfig " proxy") examplePolicies {} config := by
  have hok : (applyProfileRouting ipnetText (importedConfig " proxy") examplePolicies {}).isOk =
      true := by decide
  cases hconfig : applyProfileRouting ipnetText (importedConfig " proxy") examplePolicies {} with
  | error e =>
    rw [hconfig] at hok
    cases hok
  | ok config =>
    refine ⟨config, rfl, fun hintegrity => ?_⟩
    have hclean := clean_of_tagIntegrity hconfig hintegrity
    have hrule : ((intendedRules ipnetText examplePolicies {}).head?.map Intended.aim) =
        some (.shared .proxy) := by decide
    obtain ⟨x, hx, haim⟩ := Option.map_eq_some_iff.mp hrule
    exact hclean x (List.mem_of_head? hx) .proxy haim (by decide)

end NetOrchestrator.Core
