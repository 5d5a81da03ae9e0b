import NetOrchestrator.Proofs.ShareLink
import NetOrchestrator.Proofs.TagIntegrity
import NetOrchestrator.Lib.Decisions

/-!
# `Proofs.RuleChain`: the rules of a profile as a decision list

The rules are told apart into the tests that each makes: a group holds the selectors of a policy,
a pin or a built-in rule, and what it decides. `decideRules_intended` says that the first rule
that matches is the first group of which a test hits, behind the guards and the DNS capture.
`chosenTag_iff` reads the outbound off it, for the config of a share link.
-/

namespace NetOrchestrator.Core

open Net Lib List Option Checks

/-! ### Tests -/

/-- A selector and what it was classified as. -/
abbrev Test := SelectorKind × String

/-- A list of tests, and where it sends what one of them hits. -/
abbrev TestGroup := List Test × Aim

variable (view : View) (text : NetText) (options : ProfileRoutingOptions)

def View.hits : Test → Bool
  | (.domain, selector) => view.domain selector
  | (.ip, selector) => view.ip selector

/-- What a selector is emitted as, if at all. -/
def selectorTest (selector : String) : Option Test :=
  match classifyRoutingSelector text selector with
  | .ok found => found
  | .error _ => none

def selectorTests (selectors : List String) : List Test :=
  selectors.filterMap (selectorTest text)

def guardGroup (guard : XrayTrafficRule) : TestGroup :=
  (guard.ips.map fun ip => (.ip, ip), .shared guard.target.destination)

/-- The guards on a port and a network. -/
def guardGroups : List TestGroup :=
  (options.trafficRules.filter fun guard =>
    view.port (toString guard.port) && view.network guard.network).map guardGroup

def interfaceGroups : List TestGroup :=
  options.interfaceRoutes.map fun route =>
    (selectorTests text route.selectors, .interface route.identity)

def policyGroups (policies : List DomainPolicy) : List TestGroup :=
  policies.map fun policy =>
    (selectorTests text policy.domains, .shared policy.target.destination)

def pinGroup (server : XrayDnsServer) : Option TestGroup :=
  match server.route.target, dnsServerRouteTarget server.address with
  | some target, some destination => some ([destination], .shared target.destination)
  | _, _ => none

def pinGroups : List TestGroup :=
  options.dns.servers.filterMap pinGroup

/-- Whether the block of multicast addresses is emitted. -/
def multicastEmitted (policies : List DomainPolicy) (options : ProfileRoutingOptions) : Bool :=
  !(profileRules text policies options).isEmpty || options.privateLanDirect

def builtinGroups (policies : List DomainPolicy)
    (options : ProfileRoutingOptions) : List TestGroup :=
  (if multicastEmitted text policies options then
    [(multicastNets.map fun net => (.ip, net), .shared .block)]
  else []) ++
    if options.privateLanDirect then [(privateNets.map fun net => (.ip, net), .shared .direct)]
    else []

/-- What the first rule that matches decides. -/
def decideRules (rules : List Intended) : Option Aim :=
  (rules.find? fun x => ruleMatches view (.obj x.body)).map Intended.aim

section
variable {text : NetText} {view : View} {policies : List DomainPolicy}
variable {selectors domains ips : List String}
  {options : ProfileRoutingOptions}

theorem decideRules_append (rules rules' : List Intended) :
    decideRules view (rules ++ rules') = (decideRules view rules).or (decideRules view rules') := by
  rw [decideRules, find?_append, decideRules, decideRules]
  cases rules.find? fun x => ruleMatches view (.obj x.body) <;> rfl

theorem decideRules_cons (x : Intended) (rules : List Intended) : decideRules view (x :: rules) =
      if ruleMatches view (.obj x.body) then some x.aim else decideRules view rules := by
  rw [decideRules, find?_cons]
  cases ruleMatches view (.obj x.body) <;> rfl

theorem ruleMatches_domainBody (domains : List String) :
    ruleMatches view (.obj (domainBody domains)) = domains.any view.domain := by
  simp [ruleMatches, fieldHolds, domainBody, getField, Json.asTexts_texts]

theorem ruleMatches_ipBody (ips : List String) :
    ruleMatches view (.obj (ipBody ips)) = ips.any view.ip := by
  simp [ruleMatches, fieldHolds, ipBody, getField, Json.asTexts_texts]

theorem ruleMatches_guardBody (guard : XrayTrafficRule) :
    ruleMatches view (.obj (guardBody guard)) =
      (view.port (toString guard.port) && view.network guard.network && guard.ips.any view.ip) := by
  simp [ruleMatches, fieldHolds, guardBody, getField, Json.asTexts_texts]

/-- A rule that asks for a port only. -/
theorem ruleMatches_port (port : String) :
    ruleMatches view (.obj [("port", .str port), ("type", .str "field")]) = view.port port := by
  simp [ruleMatches, fieldHolds, getField]

theorem any_ip_hits (ips : List String) :
    (ips.map fun ip => ((.ip, ip) : Test)).any view.hits = ips.any view.ip := by
  rw [List.any_map]
  rfl

/-! ### Selector lists -/

theorem any_selectorTests (h : splitSelectors text selectors = .ok (domains, ips)) :
    (selectorTests text selectors).any view.hits = (domains.any view.domain || ips.any view.ip) := by
  induction selectors generalizing domains ips with
  | nil =>
    cases h
    rfl
  | cons selector rest ih =>
    unfold splitSelectors at h
    obtain ⟨found, hfound, h⟩ := bind_eq_ok.mp h
    obtain ⟨⟨others, addresses⟩, hrest, h⟩ := bind_eq_ok.mp h
    have hany := ih hrest
    rw [selectorTests] at hany
    rw [selectorTests, filterMap_cons, selectorTest, hfound]
    cases found with
    | none =>
      cases h
      exact hany
    | some test =>
      obtain ⟨kind, value⟩ := test
      cases kind with
      | domain =>
        cases h
        simp [hany, View.hits, Bool.or_assoc]
      | ip =>
        cases h
        simp [hany, View.hits, Bool.or_left_comm]

theorem selectorTests_eq_nil (h : splitSelectors text selectors = .ok (domains, ips)) :
    selectorTests text selectors = [] ↔ domains = [] ∧ ips = [] := by
  induction selectors generalizing domains ips with
  | nil =>
    cases h
    simp [selectorTests]
  | cons selector rest ih =>
    unfold splitSelectors at h
    obtain ⟨found, hfound, h⟩ := bind_eq_ok.mp h
    obtain ⟨⟨others, addresses⟩, hrest, h⟩ := bind_eq_ok.mp h
    rw [selectorTests, filterMap_cons, selectorTest, hfound]
    cases found with
    | none =>
      cases h
      exact ih hrest
    | some test =>
      obtain ⟨kind, value⟩ := test
      cases kind <;> cases h <;> simp

theorem decideRules_selectorBodies (aim : Aim)
    (h : splitSelectors text selectors = .ok (domains, ips)) :
    decideRules view ((selectorBodies text selectors).map (Intended.mk aim)) =
      if (selectorTests text selectors).any view.hits then some aim else none := by
  rw [any_selectorTests h, selectorBodies, h]
  simp only
  cases domains with
  | nil =>
    cases ips with
    | nil => simp [decideRules]
    | cons ip ips => simp [ruleMatches_ipBody, decideRules]
  | cons domain domains =>
    cases ips with
    | nil => simp [ruleMatches_domainBody, decideRules]
    | cons ip ips =>
      simp only [isEmpty_cons, map_cons, map_nil,
        Bool.false_eq_true, if_false, singleton_append, decideRules_cons,
        ruleMatches_domainBody, ruleMatches_ipBody]
      cases (domain :: domains).any view.domain <;> simp [decideRules]

/-- Each part of the rules decides as its group does. -/
theorem decideRules_flatMap {ρ : Type} {l : List ρ} {rules : ρ → List Intended}
    {group : ρ → TestGroup} (h : ∀ r ∈ l, decideRules view (rules r) =
      if (group r).1.any view.hits then some (group r).2 else none) :
    decideRules view (l.flatMap rules) = decideFirst view.hits (entries (l.map group)) := by
  induction l with
  | nil => rfl
  | cons r l ih =>
    rw [flatMap_cons, decideRules_append, h r (by simp),
      ih fun r hr => h r (mem_cons_of_mem _ hr), map_cons, decideFirst_entries,
      decideFirst_entries, find?_cons]
    cases (group r).1.any view.hits <;> rfl

theorem decideRules_guards : decideRules view (options.trafficRules.map fun guard =>
      ⟨.shared guard.target.destination, guardBody guard⟩) =
      decideFirst view.hits (entries (guardGroups view options)) := by
  rw [guardGroups]
  induction options.trafficRules with
  | nil => rfl
  | cons guard rest ih =>
    rw [map_cons, decideRules_cons, ih, ruleMatches_guardBody, filter_cons]
    cases view.port (toString guard.port) && view.network guard.network with
    | true =>
      rw [Bool.true_and, if_pos rfl, map_cons, decideFirst_entries, decideFirst_entries,
        find?_cons, guardGroup, any_ip_hits]
      cases guard.ips.any view.ip <;> rfl
    | false => simp

theorem decideRules_pins : decideRules view (options.dns.servers.filterMap pinIntended) =
      decideFirst view.hits (entries (pinGroups options)) := by
  rw [pinGroups]
  induction options.dns.servers with
  | nil => rfl
  | cons server rest ih =>
    rw [filterMap_cons, filterMap_cons, pinIntended, pinGroup]
    cases server.route.target with
    | none => exact ih
    | some target =>
      cases dnsServerRouteTarget server.address with
      | none => exact ih
      | some destination =>
        obtain ⟨kind, value⟩ := destination
        simp only
        cases kind with
        | ip =>
          simp only [decideRules_cons, ruleMatches_ipBody, ih, entries_cons,
            decideFirst_append, decideFirst_map, any_cons, any_nil, View.hits,
            Bool.or_false]
          cases view.ip value <;> simp
        | domain =>
          simp only [decideRules_cons, ruleMatches_domainBody, ih, entries_cons,
            decideFirst_append, decideFirst_map, any_cons, any_nil, View.hits,
            Bool.or_false]
          cases view.domain value <;> simp

/-- A rule for a fixed list of networks. -/
theorem decideRules_nets (view : View) (emitted : Bool) (nets : List String) (aim : Aim) :
    decideRules view (if emitted then [⟨aim, ipBody nets⟩] else []) = decideFirst view.hits
        (entries (if emitted then [(nets.map fun net => (.ip, net), aim)] else [])) := by
  cases emitted with
  | true =>
    rw [if_pos rfl, if_pos rfl, decideRules_cons, ruleMatches_ipBody, decideFirst_entries,
      find?_cons, any_ip_hits]
    cases nets.any view.ip <;> rfl
  | false => rfl

/-- What the rules are made of behind the capture. -/
def chainGroups (text : NetText) (policies : List DomainPolicy) (options : ProfileRoutingOptions) :
    List TestGroup :=
  interfaceGroups text options ++ policyGroups text policies ++ pinGroups options ++
    builtinGroups text policies options

/-- All selector lists can be split. -/
structure Splits (text : NetText) (policies : List DomainPolicy) (options : ProfileRoutingOptions) :
    Prop where
  policies : ∀ policy ∈ policies, ∃ parts, splitSelectors text policy.domains = .ok parts
  interfaces : ∀ route ∈ options.interfaceRoutes, ∃ parts,
    splitSelectors text route.selectors = .ok parts

theorem decideRules_profile (h : Splits text policies options) :
    decideRules view (profileRules text policies options) =
      ((decideFirst view.hits (entries (guardGroups view options))).or
        (if dnsActive options && view.port "53" then some (.shared .dns) else none)).or
          (decideFirst view.hits
            (entries (interfaceGroups text options ++ policyGroups text policies ++
              pinGroups options))) := by
  have hcapture : decideRules view (if dnsActive options then
      [⟨.shared .dns, [("port", .str "53"), ("type", .str "field")]⟩] else []) =
      if dnsActive options && view.port "53" then some (.shared .dns) else none := by
    cases dnsActive options <;> simp [ruleMatches_port, decideRules]
  have hinterfaces : decideRules view (options.interfaceRoutes.flatMap fun route =>
      (selectorBodies text route.selectors).map (⟨.interface route.identity, ·⟩)) =
      decideFirst view.hits (entries (interfaceGroups text options)) := by
    refine decideRules_flatMap fun route hroute => ?_
    obtain ⟨parts, hparts⟩ := h.interfaces route hroute
    exact decideRules_selectorBodies _ hparts
  have hpolicies : decideRules view (policies.flatMap fun policy =>
      (selectorBodies text policy.domains).map (⟨.shared policy.target.destination, ·⟩)) =
      decideFirst view.hits (entries (policyGroups text policies)) := by
    refine decideRules_flatMap fun policy hpolicy => ?_
    obtain ⟨parts, hparts⟩ := h.policies policy hpolicy
    exact decideRules_selectorBodies _ hparts
  simp only [profileRules, decideRules_append, decideRules_guards, hcapture, hinterfaces, hpolicies,
    decideRules_pins, entries_append, decideFirst_append, Option.or_assoc]

/-- The first rule that matches is the first group of which a test hits. -/
theorem decideRules_intended (h : Splits text policies options) :
    decideRules view (intendedRules text policies options) =
      ((decideFirst view.hits (entries (guardGroups view options))).or
        (if dnsActive options && view.port "53" then some (.shared .dns) else none)).or
          (decideFirst view.hits (entries (chainGroups text policies options))) := by
  have hmulticast := decideRules_nets view (multicastEmitted text policies options)
    multicastNets (.shared .block)
  rw [multicastEmitted] at hmulticast
  rw [intendedRules, decideRules_append, decideRules_append, decideRules_profile h, hmulticast,
    decideRules_nets]
  simp only [chainGroups, builtinGroups, multicastEmitted, entries_append, decideFirst_append,
    Option.or_assoc]
  rfl

end

/-! ### Tags -/

/-- The tag of a destination in the config of a share link. -/
def Destination.tag : Destination → String
  | .proxy => "proxy"
  | .direct => "direct"
  | .block => "network-orchestrator-block"
  | .dns => "dns-out"

theorem Destination.tag_injective : Function.Injective Destination.tag := by
  intro d e h
  cases d <;> cases e <;> first | rfl | simp [Destination.tag] at h

/-- The tag of the outbound that a connection leaves through. -/
def chosenTag (config : Json) : Option String :=
  (chosenOutbound view config).bind rawTag

section
variable {text : NetText} {policies : List DomainPolicy} {options : ProfileRoutingOptions}
variable {tags : RouteTags} {tag : String}
  {proxy config : Json} {socksPort : Nat} {view : View} {found : Option Intended}
variable {outbounds : List Json}

theorem ShareLinkRouted.of_eq
    (h : ShareLinkRouted policies options proxy outbounds tags) (d : Destination) :
    tags.of d = if needs policies options d then some d.tag else none := by
  cases d with
  | proxy => exact h.proxy_tag
  | direct => exact h.direct_tag
  | block => exact h.block_tag
  | dns => exact h.dns_tag

theorem splitSelectors_of_selectorRules {selectors : List String}
    {rules : List Json} (h : selectorRules text selectors tag = .ok rules) :
    ∃ parts, splitSelectors text selectors = .ok parts := by
  obtain ⟨parts, hparts, -⟩ := bind_eq_ok.mp h
  exact ⟨parts, hparts⟩

theorem splits_of_mergedRules {merged : List Json}
    (h : mergedRules text policies options tags = .ok merged) : Splits text policies options := by
  unfold mergedRules at h
  obtain ⟨interfaces, hinterfaces, h⟩ := bind_eq_ok.mp h
  obtain ⟨rules, hrules, -⟩ := bind_eq_ok.mp h
  constructor
  · intro policy hpolicy
    obtain ⟨emitted, -, hemitted⟩ := forall_of_mapM_eq_ok hrules hpolicy
    exact splitSelectors_of_selectorRules hemitted
  · intro route hroute
    obtain ⟨emitted, -, hemitted⟩ := forall_of_mapM_eq_ok hinterfaces hroute
    unfold interfaceRules at hemitted
    split at hemitted
    · exact splitSelectors_of_selectorRules hemitted
    · cases hemitted

theorem destination_tag_of_aim
    (h : ShareLinkRouted policies options proxy outbounds tags) {d : Destination}
    (hneeds : needs policies options d = true) : tags.aimTag (.shared d) = d.tag := by
  show (tags.of d).getD "" = d.tag
  rw [h.of_eq, if_pos hneeds]
  rfl

/-- The rules of a share link's config, and the tags that they carry. -/
structure ShareLinkChain (text : NetText) (policies : List DomainPolicy)
    (options : ProfileRoutingOptions) (config : Json) (tags : RouteTags) : Prop where
  splits : Splits text policies options
  rules : rulesOf config = (intendedRules text policies options).map (tagged tags)
  first : ∃ primary rest, outboundsOf config = primary :: rest ∧ rawTag primary = some "proxy"
  named : ∀ x ∈ intendedRules text policies options,
    ∃ o, outboundWithTag config (tags.aimTag x.aim) = some o
  shared : ∀ d, needs policies options d = true → tags.aimTag (.shared d) = d.tag
  /-- The tag of an interface is not one of a destination. -/
  interface : ∀ route ∈ options.interfaceRoutes, ∀ d : Destination,
    tags.aimTag (.interface route.identity) ≠ d.tag

theorem destination_tag_ne (h : InterfaceTag tag) (d : Destination) : tag ≠ d.tag := by
  obtain ⟨k, rfl⟩ := h
  intro heq
  have hlist := congrArg (fun tag : String => tag.toList.take 22) heq
  cases k with
  | zero => cases d <;> simp [tagCandidate, Destination.tag] at hlist
  | succ k =>
    rw [toList_tagCandidate_succ] at hlist
    cases d <;> simp [Destination.tag] at hlist

theorem outboundWithTag_of_sole {P : Json → Prop}
    (h : Sole rawTag (outboundsOf config) tag P) : ∃ o, outboundWithTag config tag = some o := by
  obtain ⟨o, ho, -⟩ := h
  have hmem : o ∈ named rawTag (outboundsOf config) tag := by
    rw [ho]
    exact mem_singleton_self o
  obtain ⟨hin, htag⟩ := mem_named.mp hmem
  rw [outboundWithTag, ← isSome_iff_exists, find?_isSome]
  exact ⟨o, hin, by simpa using htag⟩

theorem noPaddedPick_shareLink (h : ShareLink proxy) (d : Destination) :
    ¬PaddedPick d.serves (outboundsOf (configWithProxy proxy socksPort)) := by
  rw [outboundsOf_configWithProxy]
  rintro ⟨o, ho, tag, htag, htrim, -⟩
  have hmem := mem_of_find?_eq_some ho
  simp only [mem_cons, not_mem_nil, or_false] at hmem
  rcases hmem with rfl | rfl
  · rw [h.tag] at htag
    cases htag
    exact htrim (by decide)
  · have hdirect : rawTag directOutbound = some "direct" := by decide
    rw [hdirect] at htag
    cases htag
    exact htrim (by decide)

/-- A profile that asks for nothing adds nothing. -/
theorem nothing_of_isPlain (text : NetText) (h : isPlain policies options = true) :
    policies = [] ∧ options.interfaceRoutes = [] ∧ intendedRules text policies options = [] := by
  have hinactive := rulesActive_of_isPlain h
  have hrules : intendedRules text policies options = [] := intendedRules_of_inactive hinactive
  simp only [rulesActive, Bool.or_eq_false_iff, Bool.not_eq_false', List.isEmpty_iff] at hinactive
  obtain ⟨⟨⟨⟨hpolicies, -⟩, -⟩, -⟩, hinterfaces⟩ := hinactive
  exact ⟨hpolicies, hinterfaces, hrules⟩

/-- The rules that a profile adds to a share link's config each name an outbound of it. -/
theorem shareLinkChain_ok (hproxy : ShareLink proxy)
    (h : applyProfileRouting text (configWithProxy proxy socksPort) policies options = .ok config) :
    ∃ tags, ShareLinkChain text policies options config tags := by
  rcases applyProfileRouting_ok h with ⟨hplain, rfl⟩ | ⟨-, outbounds, tags, merged, hrouted⟩
  · obtain ⟨hpolicies, hinterfaces, hrules⟩ := nothing_of_isPlain text hplain
    refine ⟨⟨some "proxy", some "direct", some "network-orchestrator-block", some "dns-out", []⟩,
      ⟨by simp [hpolicies], by simp [hinterfaces]⟩, ?_, ?_, ?_, ?_, ?_⟩
    · rw [hrules, rulesOf_configWithProxy]
      rfl
    · exact ⟨proxy, [directOutbound], outboundsOf_configWithProxy _ _, hproxy.tag⟩
    · simp [hrules]
    · intro d _
      cases d <;> rfl
    · simp [hinterfaces]
  · have hnamed := routedOutbounds_ok hrouted.routed
    have hroutes := hrouted.routed
    rw [outboundsOf_configWithProxy] at hroutes
    have hlink := shareLink_routed hproxy hroutes
    have hmerged := mergedRules_ok (hnamed.needed .dns) hrouted.merged_eq
    refine ⟨tags, splits_of_mergedRules hrouted.merged_eq, ?_, ?_, ?_, ?_, ?_⟩
    · rw [hrouted.rules_eq, rulesOf_configWithProxy, List.append_nil, hmerged]
    · obtain ⟨interfaces, -, hfaces⟩ := hlink.faces
      simp only [List.cons_append] at hfaces
      obtain ⟨primary, rest, hprimary, -, hout⟩ := List.forall₂_cons_left_iff.mp hfaces
      exact ⟨primary, rest, by rw [hrouted.outbounds_eq, hout], hprimary.tag.trans hproxy.tag⟩
    · intro x hx
      have hclean : NoPaddedPick text (configWithProxy proxy socksPort) policies options :=
        fun _ _ d _ => noPaddedPick_shareLink hproxy d
      obtain ⟨tag, hrule, -, hsole⟩ := serves_tagged hnamed hclean hx
      obtain rfl := x.rule_injective hrule
      rw [← hrouted.outbounds_eq] at hsole
      exact outboundWithTag_of_sole hsole
    · exact fun d => destination_tag_of_aim hlink
    · intro route hroute d
      obtain ⟨tag, htag, -, -⟩ := hnamed.bound route hroute
      have haim : tags.aimTag (.interface route.identity) = tag := by
        show (tags.interfaces.lookup route.identity).getD "" = tag
        rw [htag]
        rfl
      rw [haim]
      exact destination_tag_ne (hlink.interface_tag _ _ htag) d

variable (h : ShareLinkChain text policies options config tags)
include h

/-- The intended rule that matches first. -/
theorem ShareLinkChain.firstRule_eq (view : View) : firstRule view config =
      ((intendedRules text policies options).find? fun x =>
        ruleMatches view (.obj x.body)).map (tagged tags) := by
  have hmatches : ∀ x : Intended, ruleMatches view (tagged tags x) =
      ruleMatches view (.obj x.body) := fun x => ruleMatches_tag x.body _
  rw [firstRule, h.rules, find?_map]
  simp only [Function.comp_def, hmatches]

/-- The outbound of a rule has the tag of its aim, and without a rule it is the proxy. -/
theorem ShareLinkChain.tag_outboundOfRule
    (hfound : ∀ x, found = some x → x ∈ intendedRules text policies options) :
    (outboundOfRule config (found.map (tagged tags))).bind rawTag =
      some ((found.map fun x => tags.aimTag x.aim).getD "proxy") := by
  cases found with
  | none =>
    obtain ⟨primary, rest, hout, htag⟩ := h.first
    simp [outboundOfRule, hout, htag]
  | some x =>
    obtain ⟨o, ho⟩ := h.named x (hfound x rfl)
    have htag : rawTag o = some (tags.aimTag x.aim) := by
      have hmatch := find?_some ho
      simpa using hmatch
    have hread : (tagged tags x).text? "outboundTag" = some (tags.aimTag x.aim) := by
      simp [tagged, Intended.rule]
    simp only [outboundOfRule, map_some, hread, bind_some, ho, htag, getD_some]

/-- The tag of a destination is chosen just where the rule found aims at it. -/
theorem ShareLinkChain.tag_iff
    (hfound : ∀ x, found = some x → x ∈ intendedRules text policies options) (d : Destination) :
    (outboundOfRule config (found.map (tagged tags))).bind rawTag = some d.tag ↔
      (found.map Intended.aim).getD (.shared .proxy) = .shared d := by
  rw [h.tag_outboundOfRule hfound, Option.some.injEq]
  cases found with
  | none =>
    show Destination.proxy.tag = d.tag ↔ Aim.shared .proxy = .shared d
    rw [Destination.tag_injective.eq_iff, Aim.shared.injEq]
  | some x =>
    have hasked := asked_of_mem (hfound x rfl)
    show tags.aimTag x.aim = d.tag ↔ x.aim = .shared d
    cases haim : x.aim with
    | shared e =>
      rw [haim] at hasked
      rw [h.shared e hasked, Destination.tag_injective.eq_iff, Aim.shared.injEq]
    | interface identity =>
      rw [haim] at hasked
      obtain ⟨route, hroute, rfl⟩ := hasked
      simp [h.interface route hroute d]

/-- The tag of a destination is chosen just where the rules decide for it. -/
theorem ShareLinkChain.chosenTag_iff (view : View) (d : Destination) :
    chosenTag view config = some d.tag ↔
      (decideRules view (intendedRules text policies options)).getD (.shared .proxy) =
        .shared d := by
  rw [chosenTag, chosenOutbound, h.firstRule_eq, decideRules]
  exact h.tag_iff (fun _ => mem_of_find?_eq_some) d

end

end NetOrchestrator.Core
