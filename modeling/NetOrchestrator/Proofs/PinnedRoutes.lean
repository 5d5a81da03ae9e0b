import NetOrchestrator.Proofs.ShareLink
import NetOrchestrator.Proofs.TagIntegrity
import NetOrchestrator.Core.Multinode

/-!
# `Proofs.PinnedRoutes`: pinned names cannot escape

A profile's rules are built first, and the pinned routes are spliced in afterwards, behind the
rules that ask for a port. Only guards and the DNS capture ask for one, and they stand in front
of all other rules (`portRules`, `otherRules`), so that on a port that none of them names the
first rule that matches a pinned name is its pin (`pinned_fail_closed`).

The other half is about tags. The outbound of a pin is named by its key alone, and no other
outbound of the config has a tag that starts like it.
-/

namespace NetOrchestrator.Core

open Net Lib Checks

/-! ### Rules that ask for a port come first -/

/-- The guards and the DNS capture. -/
def portRules (options : ProfileRoutingOptions) : List Intended :=
  options.trafficRules.map (fun guard => ⟨.shared guard.target.destination, guardBody guard⟩) ++
    if dnsActive options then [⟨.shared .dns, [("port", .str "53"), ("type", .str "field")]⟩] else []

/-- All other rules. -/
def otherRules (text : NetText) (policies : List DomainPolicy) (options : ProfileRoutingOptions) :
    List Intended :=
  options.interfaceRoutes.flatMap (fun route =>
      (selectorBodies text route.selectors).map (⟨.interface route.identity, ·⟩)) ++
    policies.flatMap (fun policy =>
      (selectorBodies text policy.domains).map (⟨.shared policy.target.destination, ·⟩)) ++
    options.dns.servers.filterMap pinIntended ++
    (if !(profileRules text policies options).isEmpty || options.privateLanDirect then
      [⟨.shared .block, ipBody multicastNets⟩]
    else []) ++
    if options.privateLanDirect then [⟨.shared .direct, ipBody privateNets⟩] else []

section
variable {text : NetText} {policies : List DomainPolicy} {options : ProfileRoutingOptions}

theorem intendedRules_eq (text : NetText) (policies : List DomainPolicy)
    (options : ProfileRoutingOptions) : intendedRules text policies options =
      portRules options ++ otherRules text policies options := by
  simp only [intendedRules, profileRules, portRules, otherRules, List.append_assoc]

theorem port_of_mem_portRules {x : Intended} (h : x ∈ portRules options) :
    (getField "port" x.body).isSome = true := by
  rcases List.mem_append.mp h with h | h
  · obtain ⟨guard, -, rfl⟩ := List.mem_map.mp h
    simp [guardBody, getField]
  · split at h
    · obtain rfl := List.mem_singleton.mp h
      simp [getField]
    · cases h

theorem port_of_mem_selectorBodies {selectors : List String} {body : List (String × Json)}
    (h : body ∈ selectorBodies text selectors) : getField "port" body = none := by
  unfold selectorBodies at h
  split at h
  · rename_i domains ips _
    cases hdomains : domains.isEmpty <;> cases hips : ips.isEmpty <;> simp [hdomains, hips] at h
    · rcases h with rfl | rfl <;> simp [domainBody, ipBody, getField]
    · simp [h, domainBody, getField]
    · simp [h, ipBody, getField]
  · cases h

theorem port_of_mem_otherRules {x : Intended} (h : x ∈ otherRules text policies options) :
    getField "port" x.body = none := by
  simp only [otherRules, List.mem_append, List.mem_flatMap, List.mem_map, List.mem_filterMap,
    or_assoc] at h
  rcases h with ⟨route, -, body, hbody, rfl⟩ | ⟨policy, -, body, hbody, rfl⟩ |
    ⟨server, -, hpin⟩ | h | h
  · exact port_of_mem_selectorBodies hbody
  · exact port_of_mem_selectorBodies hbody
  · unfold pinIntended at hpin
    split at hpin
    · cases hpin
      simp [ipBody, getField]
    · cases hpin
      simp [domainBody, getField]
    · cases hpin
  · split at h
    · obtain rfl := List.mem_singleton.mp h
      simp [ipBody, getField]
    · cases h
  · split at h
    · obtain rfl := List.mem_singleton.mp h
      simp [ipBody, getField]
    · cases h

end

/-! ### What the balancer rewrite leaves -/

section
variable {primaryTag : String} {rule : Json} {view : View}

theorem get?_toBalancer {key : String} (htag : key ≠ "outboundTag")
    (hbalancer : key ≠ "balancerTag") : (toBalancer primaryTag rule).get? key = rule.get? key := by
  unfold toBalancer
  split
  · cases rule with
    | obj fields =>
      show getField key _ = getField key fields
      rw [getField_insertField_of_ne hbalancer, getField_eraseField, if_neg htag]
    | _ => rfl
  · rfl

/-- The rewrite leaves what a rule matches. -/
theorem ruleMatches_toBalancer : ruleMatches view (toBalancer primaryTag rule) = ruleMatches view rule := by
  simp only [ruleMatches, fieldHolds]
  rw [get?_toBalancer (by decide) (by decide), get?_toBalancer (by decide) (by decide),
    get?_toBalancer (by decide) (by decide), get?_toBalancer (by decide) (by decide)]

/-- No rule names the primary's old tag afterwards. -/
theorem text?_toBalancer : (toBalancer primaryTag rule).text? "outboundTag" ≠ some primaryTag := by
  intro h
  unfold toBalancer at h
  split at h
  · rename_i htag
    obtain ⟨fields, rfl⟩ := Json.exists_fields_of_text? htag
    simp [getField_insertField, getField_eraseField] at h
  · rename_i htag
    exact htag h

end

/-! ### Splicing -/

variable {pinned : List PinnedOutbound} {o config : Json} {tag : String} {outbounds : List Json}
  {route : PinnedOutbound} {routing : List (String × Json)}

theorem takeWhile_append_of_split {α : Type} {p : α → Bool} {front back : List α}
    (hfront : ∀ a ∈ front, p a = true) (hback : ∀ a ∈ back, p a = false) :
    (front ++ back).takeWhile p = front := by
  rw [List.takeWhile_append_of_pos hfront]
  cases back with
  | nil => simp
  | cons a rest => simp [hback a (by simp)]

theorem splicePins_eq {front back pins : List Json}
    (hfront : ∀ rule ∈ front, (rule.get? "port").isSome = true)
    (hback : ∀ rule ∈ back, (rule.get? "port").isSome = false) :
    splicePins pins (front ++ back) = front ++ pins ++ back := by
  rw [splicePins, takeWhile_append_of_split hfront hback]
  simp

theorem pinRules_cons (route : PinnedOutbound) (rest : List PinnedOutbound) :
    pinRules (route :: rest) = if route.selectors.isEmpty then pinRules rest
      else domainRule route.selectors (pinTag route.key) :: pinRules rest := by
  rw [pinRules, List.filterMap_cons]
  cases route.selectors.isEmpty <;> rfl

/-- The first pin that matches is that of the first route that does. -/
theorem find?_pinRules {view : View}
    (h : pinned.find? (fun r => r.selectors.any view.domain) = some route) :
    (pinRules pinned).find? (ruleMatches view) =
      some (domainRule route.selectors (pinTag route.key)) := by
  induction pinned with
  | nil => cases h
  | cons first rest ih =>
    rw [List.find?_cons] at h
    rw [pinRules_cons]
    split
    · -- a route without selectors has no rule, and matches nothing
      rename_i hempty
      have hnone : first.selectors = [] := by simpa using hempty
      rw [hnone] at h
      exact ih h
    · rw [List.find?_cons, ruleMatches_domainRule]
      cases hany : first.selectors.any view.domain with
      | true =>
        rw [hany] at h
        cases h
        rfl
      | false =>
        rw [hany] at h
        exact ih h

/-! ### Tags of pins -/

theorem pinTag_injective {key key' : String} (h : pinTag key = pinTag key') : key = key' := by
  have hlist := congrArg String.toList h
  simp only [pinTag, toString, String.toList_append, List.append_cancel_left_eq] at hlist
  exact String.toList_inj.mp hlist

/-- A tag that is not a pin's. -/
def NotPin (o : Json) : Prop := ∀ key, rawTag o ≠ some (pinTag key)

theorem notPin_of_head (h : rawTag o = some tag)
    (hhead : tag.toList.head? ≠ some 'p') : NotPin o := by
  intro key hkey
  rw [h] at hkey
  cases hkey
  simp [pinTag, toString] at hhead

theorem named_of_notPin (h : ∀ o ∈ outbounds, NotPin o) (key : String) :
    named rawTag outbounds (pinTag key) = [] :=
  named_eq_nil.mpr fun o ho => h o ho key

variable {o' : Json} {primaryKey : String}

theorem retag_ok (h : retag o tag = .ok o') : rawTag o' = some tag := by
  unfold retag at h
  split at h
  · rename_i hput
    cases h
    exact rawTag_put hput
  · cases h

/-- The outbound of a pinned route: it has the route's tag, and without an endpoint it drops. -/
def PinOutbound (route : PinnedOutbound) (o : Json) : Prop :=
  route.outbound = none → protocolOf o = some "blackhole"

theorem pinOutbound_ok (h : pinOutbound route = .ok o) :
    rawTag o = some (pinTag route.key) ∧ PinOutbound route o := by
  unfold pinOutbound at h
  split at h
  · rename_i outbound houtbound
    refine ⟨retag_ok h, fun hnone => ?_⟩
    rw [houtbound] at hnone
    cases hnone
  · cases h
    refine ⟨?_, fun _ => ?_⟩
    · simp [rawTag, Json.object, getField_insertField]
    · simp [protocolOf, Json.object]

theorem lookup_concat {β : Type} (seen : List (String × β)) (key name : String) (value : β) :
    (seen ++ [(key, value)]).lookup name =
      (seen.lookup name).or (if name = key then some value else none) := by
  rw [List.lookup_append]
  by_cases hname : name = key
  · simp [hname]
  · have hbeq : (name == key) = false := by simpa using hname
    simp [List.lookup_cons, hname, hbeq]

/-- What the loop over the pinned routes adds: nothing for the keys it has seen, and one
outbound for each other key. -/
theorem pinOutbounds_ok {seen : List (String × Option Json)}
    (h : pinOutbounds pinned seen = .ok outbounds) :
    (∀ key, (seen.lookup key).isSome = true → named rawTag outbounds (pinTag key) = []) ∧
      ∀ route ∈ pinned, seen.lookup route.key = some route.outbound ∨
        Sole rawTag outbounds (pinTag route.key) (PinOutbound route) := by
  induction pinned generalizing seen outbounds with
  | nil =>
    cases h
    exact ⟨fun _ _ => rfl, by simp⟩
  | cons first rest ih =>
    unfold pinOutbounds at h
    cases hseen : seen.lookup first.key with
    | some previous =>
      rw [hseen] at h
      simp only at h
      split at h
      · rename_i hsame
        obtain ⟨hnone, hroutes⟩ := ih h
        refine ⟨hnone, ?_⟩
        intro route hroute
        rcases List.mem_cons.mp hroute with rfl | hroute
        · exact .inl (hsame ▸ hseen)
        · exact hroutes route hroute
      · cases h
    | none =>
      rw [hseen] at h
      obtain ⟨o, ho, h⟩ := bind_eq_ok.mp h
      obtain ⟨others, hothers, h⟩ := bind_eq_ok.mp h
      cases h
      obtain ⟨htag, hpin⟩ := pinOutbound_ok ho
      obtain ⟨hnone, hroutes⟩ := ih hothers
      have hfirst : (seen ++ [(first.key, first.outbound)]).lookup first.key =
          some first.outbound := by
        simp [lookup_concat, hseen]
      have hname : ∀ key, named rawTag (o :: others) (pinTag key) =
          if key = first.key then o :: named rawTag others (pinTag key)
          else named rawTag others (pinTag key) := by
        intro key
        by_cases hkey : key = first.key
        · simp [named, htag, hkey]
        · have hne : first.key ≠ key := Ne.symm hkey
          have htags : pinTag first.key ≠ pinTag key := fun heq => hne (pinTag_injective heq)
          simp [named, htag, hkey, htags]
      have hsole : Sole rawTag (o :: others) (pinTag first.key) (PinOutbound first) := by
        refine ⟨o, ?_, hpin⟩
        rw [hname, if_pos rfl, hnone first.key (by rw [hfirst]; rfl)]
      refine ⟨?_, ?_⟩
      · intro key hkey
        have hne : key ≠ first.key := by
          rintro rfl
          rw [hseen] at hkey
          cases hkey
        have hlookup : ((seen ++ [(first.key, first.outbound)]).lookup key).isSome = true := by
          obtain ⟨previous, hold⟩ := Option.isSome_iff_exists.mp hkey
          simp [lookup_concat, hold]
        rw [hname, if_neg hne]
        exact hnone key hlookup
      · intro route hroute
        rcases List.mem_cons.mp hroute with rfl | hroute
        · exact .inr hsole
        · by_cases hkey : route.key = first.key
          · -- a later route of the same key shares its outbound
            right
            rcases hroutes route hroute with hlookup | hother
            · rw [hkey, hfirst] at hlookup
              have hsame : first.outbound = route.outbound := Option.some.inj hlookup
              rw [hkey]
              exact hsole.imp fun x hx hnone => hx (hsame.trans hnone)
            · obtain ⟨x, hx, -⟩ := hother
              rw [hkey, hnone first.key (by rw [hfirst]; rfl)] at hx
              cases hx
          · rcases hroutes route hroute with hlookup | hother
            · left
              rwa [lookup_concat, if_neg hkey, Option.or_none] at hlookup
            · right
              obtain ⟨x, hx, hpinned⟩ := hother
              exact ⟨x, by rw [hname, if_neg hkey, hx], hpinned⟩

/-! ### What a call leaves -/

/-- The outbounds and the rules of a multinode config. -/
structure Multinode (config : Json) (primaryKey : String) (pinned : List PinnedOutbound)
    (result : Json) (primary : Json) (primaryTag : String) (rest others pins : List Json) : Prop where
  outbounds_config : outboundsOf config = primary :: rest
  primary_tag : rawTag primary = some primaryTag
  outbounds_eq : ∃ renamed, rawTag renamed = some (nodeTag primaryKey) ∧
    outboundsOf result = renamed :: rest ++ others ++ pins
  backups : ∀ o ∈ others, ∃ key, rawTag o = some (nodeTag key)
  pins_ok : pinOutbounds pinned [] = .ok pins
  rules_eq : rulesOf result =
    splicePins (pinRules pinned) ((rulesOf config).map (toBalancer primaryTag))
  strategy_eq : strategyOf result = strategyOf config

theorem multinodeOutbounds_ok (h : multinodeOutbounds config = .ok outbounds) :
    ∃ fields, config = .obj fields ∧ getField "outbounds" fields = some (.arr outbounds) := by
  cases config with
  | obj fields =>
    simp only [multinodeOutbounds] at h
    split at h
    · rename_i items hitems
      cases h
      obtain ⟨value, hvalue, harray⟩ := Option.bind_eq_some_iff.mp hitems
      obtain rfl := Json.asArray_eq_some.mp harray
      exact ⟨fields, rfl, hvalue⟩
    · cases h
  | _ => cases h

theorem retagPrimary_ok {nodes : List Json}
    (h : retagPrimary primaryKey outbounds = .ok (nodes, tag)) :
    ∃ primary rest renamed, outbounds = primary :: rest ∧ rawTag primary = some tag ∧
      nodes = renamed :: rest ∧ rawTag renamed = some (nodeTag primaryKey) := by
  cases outbounds with
  | nil => cases h
  | cons primary rest =>
    simp only [retagPrimary] at h
    split at h
    · cases h
    · rename_i found htag
      obtain ⟨renamed, hrenamed, h⟩ := bind_eq_ok.mp h
      cases h
      exact ⟨primary, rest, renamed, rfl, htag, rfl, retag_ok hrenamed⟩

theorem multinodeRouting_ok (h : multinodeRouting config = .ok routing) :
    config.get? "routing" = some (.obj routing) := by
  unfold multinodeRouting at h
  split at h
  · rename_i found hfound
    cases h
    obtain ⟨value, hvalue, hobject⟩ := Option.bind_eq_some_iff.mp hfound
    obtain rfl := Json.asObject_eq_some.mp hobject
    exact hvalue
  · cases h

theorem multinodeRules_ok {rules : List Json} (h : multinodeRules routing = .ok rules) :
    (((Json.obj routing).index "rules").asArray).getD [] = rules := by
  unfold multinodeRules at h
  split at h
  · rename_i items hitems
    cases h
    rw [Json.index_obj]
    cases hfield : getField "rules" routing with
    | none =>
      rw [hfield] at hitems
      cases hitems
      rfl
    | some value =>
      rw [hfield, Option.getD_some] at hitems
      rw [Option.getD_some, hitems, Option.getD_some]
  · cases h

theorem applyMultinodeConfig_ok {result : Json} {backups : List (String × Json)}
    (h : applyMultinodeConfig config primaryKey backups pinned = .ok result) :
    ∃ primary primaryTag rest others pins,
      Multinode config primaryKey pinned result primary primaryTag rest others pins := by
  unfold applyMultinodeConfig at h
  obtain ⟨outbounds, houtbounds, h⟩ := bind_eq_ok.mp h
  obtain ⟨⟨nodes, primaryTag⟩, hnodes, h⟩ := bind_eq_ok.mp h
  obtain ⟨others, hothers, h⟩ := bind_eq_ok.mp h
  obtain ⟨pins, hpins, h⟩ := bind_eq_ok.mp h
  obtain ⟨routing, hrouting, h⟩ := bind_eq_ok.mp h
  obtain ⟨rules, hrules, h⟩ := bind_eq_ok.mp h
  cases h
  obtain ⟨fields, rfl, hfield⟩ := multinodeOutbounds_ok houtbounds
  obtain ⟨primary, rest, renamed, rfl, htag, rfl, hrenamed⟩ := retagPrimary_ok hnodes
  have hsection := multinodeRouting_ok hrouting
  rw [Json.get?_obj] at hsection
  have hrulesOf : rulesOf (.obj fields) = rules := by
    rw [rulesOf, Json.index_obj, hsection, Option.getD_some]
    exact multinodeRules_ok hrules
  refine ⟨primary, primaryTag, rest, others, pins, ?_, htag, ⟨renamed, hrenamed, ?_⟩, ?_, hpins,
    ?_, ?_⟩
  · simp [outboundsOf, hfield]
  · simp [outboundsOf, getField_insertField]
  · intro o ho
    obtain ⟨backup, -, hbackup⟩ := mem_of_mapM_eq_ok hothers ho
    exact ⟨backup.1, retag_ok hbackup⟩
  · rw [hrulesOf]
    simp [rulesOf, getField_insertField]
  · simp [strategyOf, hsection, getField_insertField]

/-! ### Pinned names -/

/-- A domain destination on a port. No address selector matches it. -/
def domainView (port : Nat) (network domain : String → Bool) : View where
  port := fun named => named == toString port
  network := network
  domain := domain
  ip := fun _ => false

theorem get?_tagged (tags : RouteTags) (x : Intended) {key : String} (h : key ≠ "outboundTag") :
    (tagged tags x).get? key = getField key x.body := by
  rw [tagged, Intended.rule, Json.get?_obj, getField_insertField_of_ne h]

/-- On a port that no guard and no capture names, the rules that ask for a port are passed. -/
theorem not_matches_portRules {options : ProfileRoutingOptions} {port : Nat}
    {network domain : String → Bool} (hguards : ∀ guard ∈ options.trafficRules, guard.port ≠ port)
    (hcapture : dnsActive options = true → port ≠ 53) (tags : RouteTags) {x : Intended}
    (hx : x ∈ portRules options) :
    ruleMatches (domainView port network domain) (tagged tags x) = false := by
  have hport : ∀ n : Nat, n ≠ port → n.repr ≠ port.repr := fun n hn heq => hn (repr_injective heq)
  rw [tagged, Intended.rule, ruleMatches_tag]
  rcases List.mem_append.mp hx with hx | hx
  · obtain ⟨guard, hguard, rfl⟩ := List.mem_map.mp hx
    simp [ruleMatches, fieldHolds, guardBody, getField, domainView, hport _ (hguards guard hguard)]
  · split at hx
    · rename_i hactive
      obtain rfl := List.mem_singleton.mp hx
      have h53 : "53" ≠ port.repr := hport 53 (hcapture hactive).symm
      simp [ruleMatches, fieldHolds, getField, domainView, h53]
    · cases hx

/-- The outbounds behind the first one of a share link's config. None is named like a pin. -/
theorem notPin_of_sameFace (h : NotPin o) (hface : SameFace o o') : NotPin o' := by
  intro key hkey
  exact h key (hface.tag.symm.trans hkey)

theorem notPin_addedOutbound {protocol : String} (h : tag.toList.head? ≠ some 'p') :
    NotPin (addedOutbound protocol tag) :=
  notPin_of_head (by simp [rawTag, addedOutbound, getField]) h

theorem notPin_of_interfaceTagged (h : InterfaceTagged o) : NotPin o := by
  obtain ⟨tag, htag, k, rfl⟩ := h
  refine notPin_of_head htag ?_
  unfold tagCandidate
  split
  · decide
  · simp [toString]

section
variable {text : NetText} {policies : List DomainPolicy} {options : ProfileRoutingOptions}
  {proxy config : Json} {socksPort : Nat}

/-- What the routing of a profile leaves of a share link's config. -/
structure ShareLinkConfig (text : NetText) (policies : List DomainPolicy)
    (options : ProfileRoutingOptions) (config : Json) : Prop where
  outbounds : ∃ primary rest, outboundsOf config = primary :: rest ∧
    rawTag primary = some "proxy" ∧ ∀ o ∈ rest, NotPin o
  rules : ∃ tags, rulesOf config = (intendedRules text policies options).map (tagged tags)
  strategy : strategyOf config =
    some ((options.domainStrategy.map XrayDomainStrategy.asXrayStr).getD "AsIs")

theorem notPin_directOutbound : NotPin directOutbound :=
  notPin_of_head (show rawTag directOutbound = some "direct" by decide) (by decide)

theorem strategyOf_configWithProxy (proxy : Json) (socksPort : Nat) :
    strategyOf (configWithProxy proxy socksPort) = some "AsIs" := by
  simp [strategyOf, configWithProxy, Json.object, getField_insertField]

theorem shareLinkConfig_ok (hproxy : ShareLink proxy)
    (h : applyProfileRouting text (configWithProxy proxy socksPort) policies options =
      .ok config) : ShareLinkConfig text policies options config := by
  rcases applyProfileRouting_ok h with ⟨hplain, rfl⟩ | ⟨-, outbounds, tags, merged, hrouted⟩
  · refine ⟨⟨proxy, [directOutbound], outboundsOf_configWithProxy _ _, hproxy.tag, ?_⟩,
      ⟨⟨none, none, none, none, []⟩, ?_⟩, ?_⟩
    · intro o ho
      obtain rfl := List.mem_singleton.mp ho
      exact notPin_directOutbound
    · rw [intendedRules_of_inactive (rulesActive_of_isPlain hplain), rulesOf_configWithProxy]
      rfl
    · have hstrategy : options.domainStrategy = none := by
        simp only [isPlain, Bool.and_eq_true, Option.isNone_iff_eq_none] at hplain
        exact hplain.1.1.1.1.2
      rw [strategyOf_configWithProxy, hstrategy]
      rfl
  · have hnamed := routedOutbounds_ok hrouted.routed
    have hroutes := hrouted.routed
    rw [outboundsOf_configWithProxy] at hroutes
    obtain ⟨interfaces, htagged, hfaces⟩ := (shareLink_routed hproxy hroutes).faces
    refine ⟨?_, ⟨tags, ?_⟩, ?_⟩
    · rw [hrouted.outbounds_eq]
      simp only [List.cons_append, List.append_assoc, List.nil_append] at hfaces
      obtain ⟨primary, rest, hprimary, hrest, rfl⟩ := List.forall₂_cons_left_iff.mp hfaces
      refine ⟨primary, rest, rfl, hprimary.tag.trans hproxy.tag, ?_⟩
      refine forall_mem_of_forall₂ hrest (fun _ _ => notPin_of_sameFace) ?_
      intro o ho
      simp only [List.mem_cons, List.mem_append] at ho
      rcases ho with rfl | ho | ho | ho
      · exact notPin_directOutbound
      · split at ho
        · rw [List.mem_singleton.mp ho]
          exact notPin_addedOutbound (by decide)
        · cases ho
      · split at ho
        · rw [List.mem_singleton.mp ho]
          exact notPin_addedOutbound (by decide)
        · cases ho
      · exact notPin_of_interfaceTagged (htagged o ho)
    · rw [hrouted.rules_eq, rulesOf_configWithProxy, List.append_nil]
      exact mergedRules_ok (hnamed.needed .dns) hrouted.merged_eq
    · rw [hrouted.strategy_eq, strategyOf_configWithProxy]
      cases options.domainStrategy <;> rfl

end

/-- A pinned name leaves through its pin or not at all. -/
structure FailClosed (options : ProfileRoutingOptions) (pinned : List PinnedOutbound)
    (config result : Json) : Prop where
  strategy : strategyOf result = some "AsIs"
  /-- On a port that no guard and no DNS capture names, a name that is pinned is sent by the
  first pinned route that matches it. -/
  first : ∀ port network domain route, (∀ guard ∈ options.trafficRules, guard.port ≠ port) →
    (dnsActive options = true → port ≠ 53) →
      pinned.find? (fun r => r.selectors.any domain) = some route →
        firstRule (domainView port network domain) result =
          some (domainRule route.selectors (pinTag route.key))
  sole : ∀ route ∈ pinned,
    Sole rawTag (outboundsOf result) (pinTag route.key) (PinOutbound route)
  renamed : ∀ tag, (outboundsOf config).head?.bind rawTag = some tag →
    ∀ rule ∈ rulesOf result, rule.text? "outboundTag" ≠ some tag

theorem text?_of_mem_pinRules {rule : Json}
    (h : rule ∈ pinRules pinned) : ∃ key, rule.text? "outboundTag" = some (pinTag key) := by
  obtain ⟨route, -, hroute⟩ := List.mem_filterMap.mp h
  split at hroute
  · cases hroute
  · cases hroute
    exact ⟨route.key, by simp [domainRule, Json.object]⟩

section
variable {text : NetText} {policies : List DomainPolicy} {options : ProfileRoutingOptions}
variable {tags : RouteTags}
  {config result : Json} {primaryKey : String} {pinned : List PinnedOutbound} {primary : Json}
  {primaryTag : String} {rest others pins : List Json}
variable (h : Multinode config primaryKey pinned result primary primaryTag rest others pins)
  {route : PinnedOutbound}
include h

/-- The pins stand behind the guards and the DNS capture, and in front of all other rules. -/
theorem Multinode.rules_split
    (hrules : rulesOf config = (intendedRules text policies options).map (tagged tags)) :
    rulesOf result =
      ((portRules options).map (tagged tags)).map (toBalancer primaryTag) ++ pinRules pinned ++
        ((otherRules text policies options).map (tagged tags)).map (toBalancer primaryTag) := by
  rw [h.rules_eq, hrules, intendedRules_eq, List.map_append, List.map_append]
  refine splicePins_eq ?_ ?_
  · intro rule hrule
    simp only [List.mem_map] at hrule
    obtain ⟨-, ⟨x, hx, rfl⟩, rfl⟩ := hrule
    rw [get?_toBalancer (by decide) (by decide), get?_tagged _ _ (by decide)]
    exact port_of_mem_portRules hx
  · intro rule hrule
    simp only [List.mem_map] at hrule
    obtain ⟨-, ⟨x, hx, rfl⟩, rfl⟩ := hrule
    rw [get?_toBalancer (by decide) (by decide), get?_tagged _ _ (by decide),
      port_of_mem_otherRules hx]
    rfl

theorem Multinode.firstRule_eq
    (hrules : rulesOf config = (intendedRules text policies options).map (tagged tags))
    {port : Nat} {network domain : String → Bool}
    (hguards : ∀ guard ∈ options.trafficRules, guard.port ≠ port)
    (hcapture : dnsActive options = true → port ≠ 53)
    (hroute : pinned.find? (fun r => r.selectors.any domain) = some route) :
    firstRule (domainView port network domain) result =
      some (domainRule route.selectors (pinTag route.key)) := by
  have hfront : (((portRules options).map (tagged tags)).map (toBalancer primaryTag)).find?
      (ruleMatches (domainView port network domain)) = none := by
    rw [List.find?_eq_none]
    intro rule hrule
    simp only [List.mem_map] at hrule
    obtain ⟨-, ⟨x, hx, rfl⟩, rfl⟩ := hrule
    rw [ruleMatches_toBalancer, not_matches_portRules hguards hcapture tags hx]
    simp
  have hpins : (pinRules pinned).find? (ruleMatches (domainView port network domain)) =
      some (domainRule route.selectors (pinTag route.key)) := find?_pinRules hroute
  rw [firstRule, h.rules_split hrules, List.find?_append, List.find?_append, hfront, hpins]
  rfl

theorem Multinode.sole (hrest : ∀ o ∈ rest, NotPin o) (hroute : route ∈ pinned) :
    Sole rawTag (outboundsOf result) (pinTag route.key) (PinOutbound route) := by
  obtain ⟨renamed, htag, hout⟩ := h.outbounds_eq
  have hnode : ∀ key, (nodeTag key).toList.head? ≠ some 'p' := by
    intro key
    simp [nodeTag, toString]
  have hothers : ∀ o ∈ renamed :: rest ++ others, NotPin o := by
    intro o ho
    simp only [List.cons_append, List.mem_cons, List.mem_append] at ho
    rcases ho with rfl | ho | ho
    · exact notPin_of_head htag (hnode _)
    · exact hrest o ho
    · obtain ⟨key, hkey⟩ := h.backups o ho
      exact notPin_of_head hkey (hnode _)
  obtain ⟨x, hx, hpin⟩ : Sole rawTag pins (pinTag route.key) (PinOutbound route) := by
    rcases (pinOutbounds_ok h.pins_ok).2 route hroute with hseen | hsole
    · simp at hseen
    · exact hsole
  refine ⟨x, ?_, hpin⟩
  rw [hout, named_append, named_of_notPin hothers, hx, List.nil_append]

theorem Multinode.unnamed
    (hrules : rulesOf config = (intendedRules text policies options).map (tagged tags))
    (htag : primaryTag = "proxy") {rule : Json} (hrule : rule ∈ rulesOf result) :
    rule.text? "outboundTag" ≠ some primaryTag := by
  rw [h.rules_split hrules] at hrule
  simp only [List.mem_append, or_assoc] at hrule
  rcases hrule with hrule | hrule | hrule
  · obtain ⟨-, -, rfl⟩ := List.mem_map.mp hrule
    exact text?_toBalancer
  · obtain ⟨key, hkey⟩ := text?_of_mem_pinRules hrule
    rw [hkey, htag]
    intro heq
    have hlist := congrArg String.toList (Option.some.inj heq)
    simp [pinTag, toString] at hlist
  · obtain ⟨-, -, rfl⟩ := List.mem_map.mp hrule
    exact text?_toBalancer

end

/-- On a share link whose names are not resolved, pinned names cannot escape. -/
theorem pinned_fail_closed {text : NetText} {policies : List DomainPolicy}
    {options : ProfileRoutingOptions} {proxy config result : Json} {socksPort : Nat}
    {primaryKey : String} {backups : List (String × Json)} {pinned : List PinnedOutbound}
    (hproxy : ShareLink proxy)
    (hstrategy : options.domainStrategy = none ∨ options.domainStrategy = some .asIs)
    (hconfig : applyProfileRouting text (configWithProxy proxy socksPort) policies options =
      .ok config) (hresult : applyMultinodeConfig config primaryKey backups pinned = .ok result) :
    FailClosed options pinned config result := by
  obtain ⟨⟨primary, rest, houtbounds, htag, hrest⟩, ⟨tags, hrules⟩, hstrategyOf⟩ :=
    shareLinkConfig_ok hproxy hconfig
  obtain ⟨primary', primaryTag, rest', others, pins, hnode⟩ := applyMultinodeConfig_ok hresult
  obtain ⟨rfl, rfl⟩ := List.cons.inj (houtbounds.symm.trans hnode.outbounds_config)
  obtain rfl : "proxy" = primaryTag := Option.some.inj (htag.symm.trans hnode.primary_tag)
  refine ⟨?_, ?_, ?_, ?_⟩
  · rw [hnode.strategy_eq, hstrategyOf]
    rcases hstrategy with hstrategy | hstrategy <;> rw [hstrategy] <;> rfl
  · exact fun port network domain route => hnode.firstRule_eq hrules
  · exact fun route => hnode.sole hrest
  · intro tag hhead rule hrule
    rw [houtbounds, List.head?_cons, Option.bind_some, htag] at hhead
    cases hhead
    exact hnode.unnamed hrules rfl hrule

/-! ### A pinned name on a share link -/

/-- The outbound of a share link. -/
def exampleProxy : Json := .object [("protocol", .str "vless"), ("tag", .str "proxy")]

theorem exampleProxy_shareLink : ShareLink exampleProxy := ⟨by decide, by decide⟩

def exampleGuard : XrayTrafficRule := ⟨["192.0.2.1"], 443, "tcp", .block⟩

/-- Two pinned routes of one endpoint, which left the subscription. -/
def examplePins : List PinnedOutbound :=
  [⟨"00112233aabbccdd", none, ["domain:example.com"]⟩, ⟨"00112233aabbccdd", none, []⟩]

theorem example_pins_fail_closed : ∃ config result,
    applyProfileRouting ipnetText (configWithProxy exampleProxy 1080) examplePolicies
        { trafficRules := [exampleGuard] } = .ok config ∧
      applyMultinodeConfig config "ffeeddccbbaa9988" [("0000000000000000", exampleProxy)] examplePins =
        .ok result ∧
      FailClosed { trafficRules := [exampleGuard] } examplePins config result := by
  have hok : ((applyProfileRouting ipnetText (configWithProxy exampleProxy 1080) examplePolicies
      { trafficRules := [exampleGuard] }).bind fun config =>
        applyMultinodeConfig config "ffeeddccbbaa9988" [("0000000000000000", exampleProxy)]
          examplePins).isOk = true := by decide
  cases hconfig : applyProfileRouting ipnetText (configWithProxy exampleProxy 1080) examplePolicies
      { trafficRules := [exampleGuard] } with
  | error e =>
    rw [hconfig] at hok
    cases hok
  | ok config =>
    rw [hconfig] at hok
    simp only [Except.bind] at hok
    cases hresult : applyMultinodeConfig config "ffeeddccbbaa9988"
        [("0000000000000000", exampleProxy)] examplePins with
    | error e =>
      rw [hresult] at hok
      cases hok
    | ok result =>
      exact ⟨config, result, rfl, hresult,
        pinned_fail_closed exampleProxy_shareLink (.inl rfl) hconfig hresult⟩

end NetOrchestrator.Core
