import NetOrchestrator.Proofs.SimulatorAgrees

/-!
# `Proofs.GuardsReplayed`: guards and interface routes under the check

Guards come before all other rules and interface routes before the policies, and the check
replays neither. `guards_replayed_iff` says that a certain report holds against them just where
the first guard that takes the target sends it where the rules of the profile without guards and
interface routes do, and no interface route takes it behind the guards.

The rules block multicast addresses only next to some other rule. The check counts a policy of
nothing but comments as one, so there a guard has to block such an address itself.
-/

namespace NetOrchestrator.Core

open Net Lib List Option Bool

section
variable (text : NetText) (options : ProfileRoutingOptions)

/-- The number of the rules in front of those of the interfaces: the guards and the capture. -/
def interfaceStart : Nat := options.trafficRules.length + if dnsActive options then 1 else 0

/-- The number of the rules of the interfaces. -/
def interfaceCount : Nat :=
  (options.interfaceRoutes.flatMap fun route => selectorBodies text route.selectors).length

/-- The rule in a place is not a guard with another target, nor one of an interface. -/
structure Replayed (outbound : RouteCheckOutbound) (i : Nat) : Prop where
  guard : ∀ guard, options.trafficRules[i]? = some guard → guard.target.outbound = outbound
  interface : ¬(interfaceStart options ≤ i ∧ i < interfaceStart options + interfaceCount text options)

/-- The first rule that matches the target is not a guard or an interface rule that sends it
elsewhere. -/
def GuardsReplayed (geo : GeoDbs) (config : Json) (target : CheckTarget) (port : Option Nat)
    (outbound : RouteCheckOutbound) : Prop :=
  ∀ view : View, view.Reads text geo target.seen port →
    ∀ i, (rulesOf config).findIdx? (ruleMatches view) = some i → Replayed text options outbound i

/-- A guard takes the connections to its port over its network that one of its addresses matches. -/
def XrayTrafficRule.takes (view : View) (guard : XrayTrafficRule) : Bool :=
  view.port (toString guard.port) && view.network guard.network && guard.ips.any view.ip

/-- An interface route takes the connections that one of its selectors matches. -/
def XrayInterfaceRoute.takes (text : NetText) (view : View) (route : XrayInterfaceRoute) : Bool :=
  (selectorTests text route.selectors).any view.hits

/-- The profile without its guards and interface routes. -/
def ProfileRoutingOptions.unguarded (options : ProfileRoutingOptions) : ProfileRoutingOptions :=
  { options with trafficRules := [], interfaceRoutes := [] }

/-- Where the rules of the profile without guards and interface routes send a connection. -/
def unguardedAim (text : NetText) (policies : List DomainPolicy) (options : ProfileRoutingOptions)
    (view : View) : Aim :=
  (decideRules view (intendedRules text policies options.unguarded)).getD (.shared .proxy)

/-- The check blocks a multicast address for the sake of policies that are nothing but comments. -/
def CommentsBlock (text : NetText) (policies : List DomainPolicy) (options : ProfileRoutingOptions)
    (target : CheckTarget) : Prop :=
  OnlyComments text policies options ∧
    ∃ addr, target = .ip addr ∧ anyNetContains text multicastNets addr = true

/-- The first guard that takes a connection to the target sends it where the other rules do, and
behind the guards and the capture no interface route takes one. -/
structure GuardsFollow (text : NetText) (options : ProfileRoutingOptions) (geo : GeoDbs)
    (policies : List DomainPolicy) (target : CheckTarget) (port : Option Nat) : Prop where
  guard : ∀ view : View, view.Reads text geo target.seen port →
    ∀ guard, options.trafficRules.find? (·.takes view) = some guard →
      (CommentsBlock text policies options target → guard.target = .block) ∧
        (¬CommentsBlock text policies options target →
          .shared guard.target.destination = unguardedAim text policies options view)
  interface : ∀ view : View, view.Reads text geo target.seen port →
    options.trafficRules.find? (·.takes view) = none → captured options port = false →
      ∀ route ∈ options.interfaceRoutes, route.takes text view = false

end

section
variable {text : NetText} {geo : GeoDbs} {policies : List DomainPolicy}
  {options : ProfileRoutingOptions} {port : Option Nat} {view : View}

/-- The rules of the interfaces. -/
def interfaceIntended (text : NetText) (options : ProfileRoutingOptions) : List Intended :=
  options.interfaceRoutes.flatMap fun route =>
    (selectorBodies text route.selectors).map (Intended.mk (.interface route.identity))

theorem length_interfaceIntended :
    (interfaceIntended text options).length = interfaceCount text options := by
  simp [interfaceIntended, interfaceCount, length_flatMap]

def guardIntended (guard : XrayTrafficRule) : Intended :=
  ⟨.shared guard.target.destination, guardBody guard⟩

def captureIntended (options : ProfileRoutingOptions) : List Intended :=
  if dnsActive options then [⟨.shared .dns, [("port", .str "53"), ("type", .str "field")]⟩] else []

/-- The rules behind those of the interfaces. -/
def laterIntended (text : NetText) (policies : List DomainPolicy)
    (options : ProfileRoutingOptions) : List Intended :=
  policies.flatMap (fun policy =>
      (selectorBodies text policy.domains).map (Intended.mk (.shared policy.target.destination))) ++
    (options.dns.servers.filterMap pinIntended ++
      ((if !(profileRules text policies options).isEmpty || options.privateLanDirect then
        [⟨.shared .block, ipBody multicastNets⟩]
      else []) ++
        if options.privateLanDirect then [⟨.shared .direct, ipBody privateNets⟩] else []))

/-- The rules, with the guards, the capture and the interfaces told apart. -/
theorem intendedRules_split (text : NetText) (policies : List DomainPolicy)
    (options : ProfileRoutingOptions) : intendedRules text policies options =
      options.trafficRules.map guardIntended ++ (captureIntended options ++
          (interfaceIntended text options ++ laterIntended text policies options)) := by
  rw [intendedRules]
  simp only [profileRules, laterIntended, append_assoc]
  rfl

/-! ### The first match -/

/-- The rule matches a connection. -/
abbrev Intended.matched (view : View) (rule : Intended) : Bool := ruleMatches view (.obj rule.body)

variable (guard : XrayTrafficRule) (outbound : RouteCheckOutbound) {base config : Json}

theorem matched_guardIntended : (guardIntended guard).matched view = guard.takes view :=
  ruleMatches_guardBody guard

theorem find?_guards : (options.trafficRules.map guardIntended).find? (·.matched view) =
      (options.trafficRules.find? (·.takes view)).map guardIntended := by
  rw [List.find?_map]
  congr 2
  exact funext matched_guardIntended

theorem find?_capture : (captureIntended options).find? (·.matched view) = none ↔
      (dnsActive options && view.port "53") = false := by
  unfold captureIntended
  cases dnsActive options <;> simp [Intended.matched, ruleMatches_port]

theorem length_captureIntended :
    (captureIntended options).length = if dnsActive options then 1 else 0 := by
  unfold captureIntended
  split <;> rfl

/-- A rule of an interface route matches just where the route takes the connection. -/
theorem exists_matched_interface_iff (hsplits : Splits text policies options) :
    (∃ rule ∈ interfaceIntended text options, rule.matched view = true) ↔
      ∃ route ∈ options.interfaceRoutes, route.takes text view = true := by
  have hroute : ∀ route ∈ options.interfaceRoutes,
      (selectorBodies text route.selectors).any (fun body => ruleMatches view (.obj body)) =
        route.takes text view := by
    intro route hmem
    obtain ⟨⟨domains, ips⟩, hparts⟩ := hsplits.interfaces route hmem
    rw [XrayInterfaceRoute.takes, any_selectorTests hparts, selectorBodies, hparts]
    cases domains <;> cases ips <;> simp [ruleMatches_domainBody, ruleMatches_ipBody]
  constructor
  · rintro ⟨rule, hrule, hmatched⟩
    obtain ⟨route, hmem, hin⟩ := List.mem_flatMap.mp hrule
    obtain ⟨body, hbody, rfl⟩ := List.mem_map.mp hin
    exact ⟨route, hmem, hroute route hmem ▸ List.any_eq_true.mpr ⟨body, hbody, hmatched⟩⟩
  · rintro ⟨route, hmem, htakes⟩
    rw [← hroute route hmem] at htakes
    obtain ⟨body, hbody, hmatched⟩ := List.any_eq_true.mp htakes
    exact ⟨_, List.mem_flatMap.mpr ⟨route, hmem, List.mem_map_of_mem hbody⟩, hmatched⟩

theorem destination_inj {a b : RouteCheckOutbound} (h : a.destination = b.destination) : a = b := by
  cases a <;> cases b <;> first | rfl | cases h

theorem guard_aim_iff : (guardIntended guard).aim = .shared outbound.destination ↔
    guard.target.outbound = outbound := by
  rw [guardIntended, Aim.shared.injEq, ← destination_outbound]
  exact ⟨destination_inj, congrArg _⟩

/-- The first match is a guard just where a guard takes the connection. -/
theorem guard_first_iff :
    (∀ i, (intendedRules text policies options).findIdx? (·.matched view) = some i →
        ∀ guard, options.trafficRules[i]? = some guard → guard.target.outbound = outbound) ↔
      ∀ guard, options.trafficRules.find? (·.takes view) = some guard →
        guard.target.outbound = outbound := by
  have hplace : ∀ i, i < options.trafficRules.length →
      ((intendedRules text policies options).findIdx? (·.matched view) = some i ↔
        (options.trafficRules.findIdx? (·.takes view)) = some i) := by
    intro i hi
    rw [intendedRules_split, findIdx?_append_eq_some_iff (by simpa using hi), List.findIdx?_map]
    rw [show (Intended.matched view ∘ guardIntended) = XrayTrafficRule.takes view from
      funext matched_guardIntended]
  constructor
  · intro h guard hguard
    cases hi : options.trafficRules.findIdx? (·.takes view) with
    | none =>
      rw [findIdx?_eq_none_iff] at hi
      rw [List.find?_eq_none.mpr (by simpa using hi)] at hguard
      cases hguard
    | some i =>
      obtain ⟨hlt, -⟩ := findIdx?_eq_some_iff_getElem.mp hi
      exact h i ((hplace i hlt).mpr hi) guard ((getElem?_findIdx? hi).trans hguard)
  · intro h i hi guard hget
    obtain ⟨hlt, -⟩ := List.getElem?_eq_some_iff.mp hget
    exact h guard ((getElem?_findIdx? ((hplace i hlt).mp hi)).symm.trans hget)

/-- The first match is a rule of an interface just where, behind the guards and the capture, an
interface route takes the connection. -/
theorem interface_first_iff (hsplits : Splits text policies options) :
    (∀ i, (intendedRules text policies options).findIdx? (·.matched view) = some i →
        ¬(interfaceStart options ≤ i ∧ i < interfaceStart options + interfaceCount text options)) ↔
      (options.trafficRules.find? (·.takes view) = none →
        (dnsActive options && view.port "53") = false →
          ∀ route ∈ options.interfaceRoutes, route.takes text view = false) := by
  have hstart : (options.trafficRules.map guardIntended ++ captureIntended options).length =
      interfaceStart options := by
    rw [List.length_append, List.length_map, length_captureIntended, interfaceStart]
  have hfirst : (options.trafficRules.map guardIntended ++ captureIntended options).find?
      (·.matched view) = none ↔ options.trafficRules.find? (·.takes view) = none ∧
        (dnsActive options && view.port "53") = false := by
    rw [List.find?_append, Option.or_eq_none_iff, find?_guards, Option.map_eq_none_iff, find?_capture]
  have hmiddle := @findIdx?_middle_iff _ (·.matched view)
    (options.trafficRules.map guardIntended ++ captureIntended options)
    (interfaceIntended text options) (laterIntended text policies options)
  rw [hfirst, hstart, length_interfaceIntended, exists_matched_interface_iff hsplits,
    List.append_assoc, ← intendedRules_split] at hmiddle
  constructor
  · intro h hguards hcapture route hroute
    by_contra htakes
    obtain ⟨i, hi, hplace⟩ := hmiddle.mpr
      ⟨⟨hguards, hcapture⟩, route, hroute, (Bool.not_eq_false _).mp htakes⟩
    exact h i hi hplace
  · intro h i hi hplace
    obtain ⟨⟨hguards, hcapture⟩, route, hroute, htakes⟩ := hmiddle.mp ⟨i, hi, hplace⟩
    rw [h hguards hcapture route hroute] at htakes
    cases htakes

/-- The rules that a call adds stand in front of those of the base. -/
theorem rulesOf_routed (h : applyProfileRouting text base policies options = .ok config) :
    Splits text policies options ∧ ∃ tags, rulesOf config =
      (intendedRules text policies options).map (tagged tags) ++ rulesOf base := by
  rcases applyProfileRouting_ok h with ⟨hplain, rfl⟩ | ⟨-, outbounds, tags, merged, hrouted⟩
  · obtain ⟨hpolicies, hinterfaces, hrules⟩ := nothing_of_isPlain text hplain
    exact ⟨⟨by simp [hpolicies], by simp [hinterfaces]⟩, ⟨none, none, none, none, []⟩, by simp [hrules]⟩
  · have hnamed := routedOutbounds_ok hrouted.routed
    refine ⟨splits_of_mergedRules hrouted.merged_eq, tags, ?_⟩
    rw [hrouted.rules_eq, mergedRules_ok (hnamed.needed .dns) hrouted.merged_eq]

/-- The rules of the base are neither guards nor of an interface. -/
theorem replayed_of_le (policies : List DomainPolicy) {i : Nat}
    (h : (intendedRules text policies options).length ≤ i)
    (outbound : RouteCheckOutbound) : Replayed text options outbound i := by
  have hlength := congrArg List.length (intendedRules_split text policies options)
  simp only [length_append, length_map, length_captureIntended, length_interfaceIntended] at hlength
  constructor
  · intro guard hget
    obtain ⟨hlt, -⟩ := List.getElem?_eq_some_iff.mp hget
    omega
  · rw [interfaceStart]
    omega

/-- What the first match of a config has to be, for one view. -/
theorem replayed_iff {outbound : RouteCheckOutbound}
    (hconfig : applyProfileRouting text base policies options = .ok config) :
    (∀ i, (rulesOf config).findIdx? (ruleMatches view) = some i → Replayed text options outbound i) ↔
      (∀ guard, options.trafficRules.find? (·.takes view) = some guard →
        guard.target.outbound = outbound) ∧
      (options.trafficRules.find? (·.takes view) = none →
        (dnsActive options && view.port "53") = false →
          ∀ route ∈ options.interfaceRoutes, route.takes text view = false) := by
  obtain ⟨hsplits, tags, hrules⟩ := rulesOf_routed hconfig
  have hmatches : (ruleMatches view ∘ tagged tags) = Intended.matched view :=
    funext fun x => ruleMatches_tag x.body _
  have hown : (∀ i, (rulesOf config).findIdx? (ruleMatches view) = some i →
        Replayed text options outbound i) ↔
      ∀ i, (intendedRules text policies options).findIdx? (·.matched view) = some i →
        Replayed text options outbound i := by
    rw [hrules, List.findIdx?_append, List.findIdx?_map, hmatches]
    cases (intendedRules text policies options).findIdx? (·.matched view) with
    | some i => simp
    | none =>
      simp only [Option.none_or, Option.map_eq_some_iff, reduceCtorEq, false_implies, implies_true,
        iff_true]
      rintro i ⟨j, -, rfl⟩
      exact replayed_of_le policies (by simp) _
  rw [hown, ← guard_first_iff outbound, ← interface_first_iff hsplits, ← forall₂_and]
  exact forall₂_congr fun i _ => ⟨fun h => ⟨h.guard, h.interface⟩, fun h => ⟨h.1, h.2⟩⟩

/-! ### The chain without guards -/

/-- A guard asks for an address, so it takes no connection to a name. -/
theorem find?_guards_of_name {host : String}
    (hreads : view.Reads text geo (CheckTarget.domain host).seen port) :
    options.trafficRules.find? (·.takes view) = none := by
  rw [List.find?_eq_none]
  intro guard _
  have hips : guard.ips.any view.ip = false := by
    rw [List.any_eq_false]
    intro ip _
    exact Bool.not_eq_true _ ▸ hreads.selectors (.ip, ip) false rfl
  simp [XrayTrafficRule.takes, hips]

/-- The check follows the rules without guards, past the comments. -/
theorem unguardedAim_eq {addr : IpAddr} (hlawful : text.Lawful)
    (hpolicies : ∀ policy ∈ policies, ∃ parts, splitSelectors text policy.domains = .ok parts)
    (hresolves : resolves options = false)
    (htold : ToldApart text geo policies options (.ip addr) port)
    (hcomments : ¬CommentsBlock text policies options (.ip addr))
    (hreads : view.Reads text geo (CheckTarget.ip addr).seen port) :
    unguardedAim text policies options view =
      walkedAim text geo policies options (.ip addr) port := by
  have hsplits : Splits text policies options.unguarded := ⟨hpolicies, fun _ h => by cases h⟩
  have hplain : Plain options.unguarded := ⟨rfl, rfl⟩
  have hfollows : SimulatorFollows text geo policies options.unguarded port (.ip addr) :=
    fun hmulticast honly => hcomments ⟨honly, addr, rfl, hmulticast⟩
  have hagrees := (addr_agrees_iff hlawful hplain hsplits hresolves htold).mpr hfollows
  rw [unguardedAim, decideRules_plain hplain hsplits hreads]
  exact hagrees view.hits hreads.selectors

/-- Where the check blocks for the sake of comments, it blocks. -/
theorem walkedAim_of_commentsBlock {target : CheckTarget}
    (h : CommentsBlock text policies options target) :
    walkedAim text geo policies options target port = .shared .block := by
  obtain ⟨honly, addr, rfl, hmulticast⟩ := h
  obtain ⟨hpolicy, hpin⟩ := walks_of_onlyComments geo honly (.ip addr)
  obtain ⟨hne, -, -, hdns⟩ := honly
  have hemitted : rulesEmitted policies options = true := by simp [rulesEmitted, hne]
  simp [walkedAim, captured, hdns, hpolicy, hpin, builtinAim, hemitted, hmulticast]

/-- A certain report holds against the guards and the interface routes just where these follow
the rules of the profile without them, for every base config. -/
theorem guards_replayed_iff {base config : Json} {raw : String} {target : CheckTarget}
    {result : RouteCheckResult} (hlawful : text.Lawful)
    (hstrategy : options.domainStrategy = none ∨ options.domainStrategy = some .asIs)
    (hconfig : applyProfileRouting text base policies options = .ok config)
    (hparse : parseTarget raw = .ok (target, port))
    (hcheck : checkRoute text policies options raw geo = .ok result)
    (hcertain : result.certainty = .certain) :
    GuardsReplayed text options geo config target port result.outbound ↔
      GuardsFollow text options geo policies target port := by
  obtain ⟨hsplits, -⟩ := rulesOf_routed hconfig
  obtain ⟨target', port', hparse', haim, htold⟩ := checkRoute_ok hlawful hsplits.policies hcheck
  obtain ⟨rfl, rfl⟩ := Prod.mk.inj (Except.ok.inj (hparse.symm.trans hparse'))
  have hresolves : resolves options = false := by
    rcases hstrategy with h | h <;> simp [resolves, h]
  -- What the report asks of a guard that takes a connection.
  have hguard : ∀ view : View, view.Reads text geo target.seen port →
      ∀ guard, options.trafficRules.find? (·.takes view) = some guard →
        (guard.target.outbound = result.outbound ↔
          (CommentsBlock text policies options target → guard.target = .block) ∧
            (¬CommentsBlock text policies options target →
              .shared guard.target.destination = unguardedAim text policies options view)) := by
    intro view hreads guard hfind
    rw [← guard_aim_iff, haim]
    cases target with
    | domain host =>
      rw [find?_guards_of_name hreads] at hfind
      cases hfind
    | ip addr =>
      by_cases hcomments : CommentsBlock text policies options (.ip addr)
      · have hblock : guard.target.destination = .block ↔ guard.target = .block := by
          cases guard.target <;> simp [DomainRouteTarget.destination]
        rw [walkedAim_of_commentsBlock hcomments]
        simp [hcomments, guardIntended, hblock]
      · rw [← unguardedAim_eq hlawful hsplits.policies hresolves (htold.mp hcertain) hcomments hreads]
        simp [hcomments, guardIntended]
  constructor
  · intro h
    have hview := fun view hreads => (replayed_iff hconfig).mp (h view hreads)
    constructor
    · intro view hreads guard hfind
      exact (hguard view hreads guard hfind).mp ((hview view hreads).1 guard hfind)
    · intro view hreads hnone hfree
      exact (hview view hreads).2 hnone (by rwa [hreads.captured_eq])
  · intro h view hreads
    refine (replayed_iff hconfig).mpr ⟨fun guard hfind => ?_, fun hnone hfree => ?_⟩
    · exact (hguard view hreads guard hfind).mpr (h.guard view hreads guard hfind)
    · rw [hreads.captured_eq] at hfree
      exact h.interface view hreads hnone hfree

end

/-! ### A guard that the check passes over -/

/-- A guard for an address that the policies do not name. -/
def guardedOptions (target : DomainRouteTarget) : ProfileRoutingOptions :=
  { trafficRules := [⟨["1.2.3.4"], 443, "tcp", target⟩] }

theorem example_guard_replayed : ∃ config result,
    applyProfileRouting ipnetText (configWithProxy exampleProxy 1080) examplePolicies
        (guardedOptions .proxy) = .ok config ∧
      checkRoute ipnetText examplePolicies (guardedOptions .proxy) "1.2.3.4:443" {} = .ok result ∧
      result.certainty = .certain ∧ GuardsReplayed ipnetText (guardedOptions .proxy) {} config
        (.ip (.v4 0x01020304)) (some 443) result.outbound := by
  have hok : (applyProfileRouting ipnetText (configWithProxy exampleProxy 1080) examplePolicies
      (guardedOptions .proxy)).map (fun _ => ()) = .ok () := by decide
  obtain ⟨config, hconfig, -⟩ := exists_ok hok
  have hcheck : (checkRoute ipnetText examplePolicies (guardedOptions .proxy) "1.2.3.4:443" {}).map
      RouteCheckResult.certainty = .ok .certain := by decide
  obtain ⟨result, hresult, hcertain⟩ := exists_ok hcheck
  refine ⟨config, result, hconfig, hresult, hcertain, ?_⟩
  refine (guards_replayed_iff ipnetText_lawful (.inl rfl) hconfig (by decide) hresult
    hcertain).mpr ⟨fun view hreads guard hfind => ?_, fun _ _ _ _ route hroute => by cases hroute⟩
  obtain rfl := List.mem_singleton.mp (List.mem_of_find?_eq_some hfind)
  have hunicast : anyNetContains ipnetText multicastNets (.v4 0x01020304) = false := by decide
  have hcomments : ¬CommentsBlock ipnetText examplePolicies (guardedOptions .proxy)
      (.ip (.v4 0x01020304)) := by
    rintro ⟨-, addr, haddr, hmulticast⟩
    cases haddr
    rw [hunicast] at hmulticast
    cases hmulticast
  have hpolicies := (rulesOf_routed hconfig).1.policies
  obtain ⟨target, port, hparse, -, htold⟩ := checkRoute_ok ipnetText_lawful hpolicies hresult
  have htarget : parseTarget "1.2.3.4:443" = .ok (.ip (.v4 0x01020304), some 443) := by decide
  obtain ⟨rfl, rfl⟩ := Prod.mk.inj (Except.ok.inj (htarget.symm.trans hparse))
  refine ⟨fun h => absurd h hcomments, fun _ => ?_⟩
  rw [unguardedAim_eq ipnetText_lawful hpolicies rfl (htold.mp hcertain) hcomments hreads]
  decide

/-- The guard blocks the address, and the check reports the proxy. -/
theorem guard_passed_over : ∃ config result,
    applyProfileRouting ipnetText (configWithProxy exampleProxy 1080) examplePolicies
        (guardedOptions .block) = .ok config ∧
      checkRoute ipnetText examplePolicies (guardedOptions .block) "1.2.3.4:443" {} = .ok result ∧
      ¬(result.certainty = .certain → GuardsReplayed ipnetText (guardedOptions .block) {} config
        (.ip (.v4 0x01020304)) (some 443) result.outbound) := by
  have hleast := extends_least ((CheckTarget.ip (.v4 0x01020304)).seen.known ipnetText {})
  have hfirst : (applyProfileRouting ipnetText (configWithProxy exampleProxy 1080) examplePolicies
      (guardedOptions .block)).map (fun config => (rulesOf config).findIdx? (ruleMatches
        (viewWith (some 443) "tcp" fun test =>
          (CheckTarget.ip (.v4 0x01020304)).seen.known ipnetText {} test == some true))) =
      .ok (some 0) := by decide
  obtain ⟨config, hconfig, hguard⟩ := exists_ok hfirst
  have hcheck : (checkRoute ipnetText examplePolicies (guardedOptions .block) "1.2.3.4:443" {}).map
      (fun result => (result.outbound, result.certainty)) = .ok (.proxy, .certain) := by
    decide
  obtain ⟨result, hresult, hreport⟩ := exists_ok hcheck
  obtain ⟨hproxy, hcertain⟩ := Prod.mk.inj hreport
  refine ⟨config, result, hconfig, hresult, fun h => ?_⟩
  have hreplayed := h hcertain _ (viewWith_reads (some 443) List.mem_cons_self hleast) 0 hguard
  have hsame := hreplayed.guard _ rfl
  rw [hproxy] at hsame
  cases hsame

end NetOrchestrator.Core
