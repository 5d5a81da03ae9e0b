import NetOrchestrator.Proofs.XrayTags

/-!
# `Proofs.XrayRules`: the rules that a profile asks for

The rules of a profile, told apart from their tags. An `Intended` rule says what it matches and
where it sends it; `intendedRules` are all of them, in order. `mergedRules_ok` says that the
rules that are built are these, each with the tag of its aim, and `asked_of_mem` that a rule
only aims at what the outbounds were prepared for.
-/

namespace NetOrchestrator.Core

open Net Lib List Checks

/-! ### The rules that the options ask for -/

/-- Where a rule sends what it matches. -/
inductive Aim where
  | shared (destination : Destination)
  | interface (identity : InterfaceIdentity)
  deriving DecidableEq

/-- The outbounds that a rule with this aim may name. -/
def Aim.Accepts : Aim → Json → Prop
  | .shared d, o => d.serves o = true
  | .interface identity, o => BoundTo identity o

/-- A rule without its tag. -/
structure Intended where
  aim : Aim
  body : List (String × Json)

def Intended.rule (intended : Intended) (tag : String) : Json :=
  .obj (insertField "outboundTag" (.str tag) intended.body)

def DomainRouteTarget.destination : DomainRouteTarget → Destination
  | .proxy => .proxy
  | .direct => .direct
  | .block => .block

def domainBody (domains : List String) : List (String × Json) :=
  [("domain", .texts domains), ("type", .str "field")]

def ipBody (ips : List String) : List (String × Json) :=
  [("ip", .texts ips), ("type", .str "field")]

def guardBody (guard : XrayTrafficRule) : List (String × Json) :=
  [("ip", .texts guard.ips), ("network", .str guard.network),
    ("port", .str (toString guard.port)), ("type", .str "field")]

variable (text : NetText)

/-- The domain rule and the address rule of a selector list. -/
def selectorBodies (selectors : List String) : List (List (String × Json)) :=
  match splitSelectors text selectors with
  | .ok (domains, ips) =>
    (if domains.isEmpty then [] else [domainBody domains]) ++
      if ips.isEmpty then [] else [ipBody ips]
  | .error _ => []

def pinIntended (server : XrayDnsServer) : Option Intended :=
  match server.route.target, dnsServerRouteTarget server.address with
  | some target, some (.ip, value) => some ⟨.shared target.destination, ipBody [value]⟩
  | some target, some (.domain, value) => some ⟨.shared target.destination, domainBody [value]⟩
  | _, _ => none

/-- The rules in front of the built-in ones. -/
def profileRules (policies : List DomainPolicy) (options : ProfileRoutingOptions) : List Intended :=
  options.trafficRules.map (fun guard => ⟨.shared guard.target.destination, guardBody guard⟩) ++
    (if dnsActive options then
      [⟨.shared .dns, [("port", .str "53"), ("type", .str "field")]⟩]
    else []) ++
    options.interfaceRoutes.flatMap (fun route =>
      (selectorBodies text route.selectors).map (⟨.interface route.identity, ·⟩)) ++
    policies.flatMap (fun policy =>
      (selectorBodies text policy.domains).map (⟨.shared policy.target.destination, ·⟩)) ++
    options.dns.servers.filterMap pinIntended

/-- All the rules that the options ask for, in order. -/
def intendedRules (policies : List DomainPolicy)
    (options : ProfileRoutingOptions) : List Intended :=
  profileRules text policies options ++
    (if !(profileRules text policies options).isEmpty || options.privateLanDirect then
      [⟨.shared .block, ipBody multicastNets⟩]
    else []) ++
    if options.privateLanDirect then [⟨.shared .direct, ipBody privateNets⟩] else []

/-- The tag that a rule with this aim gets. -/
def RouteTags.aimTag (tags : RouteTags) : Aim → String
  | .shared d => (tags.of d).getD ""
  | .interface identity => (tags.interfaces.lookup identity).getD ""

def tagged (tags : RouteTags) (intended : Intended) : Json := intended.rule (tags.aimTag intended.aim)

theorem domainRule_eq (domains : List String) (tag : String) :
    domainRule domains tag = .obj (insertField "outboundTag" (.str tag) (domainBody domains)) := by
  have hdomain : insertField "domain" (.texts domains) [("type", .str "field")] =
      domainBody domains := insertField_before (by decide)
  simp only [domainRule, Json.object, foldl_cons, foldl_nil, insertField_nil, hdomain]

theorem ipRule_eq (ips : List String) (tag : String) :
    ipRule ips tag = .obj (insertField "outboundTag" (.str tag) (ipBody ips)) := by
  have hip : insertField "ip" (.texts ips) [("type", .str "field")] = ipBody ips :=
    insertField_before (by decide)
  simp only [ipRule, Json.object, foldl_cons, foldl_nil, insertField_nil, hip]

theorem portRule_eq (port tag : String) : portRule port tag =
      .obj (insertField "outboundTag" (.str tag) [("port", .str port), ("type", .str "field")]) := by
  have hport : insertField "port" (.str port) [("type", .str "field")] =
      [("port", Json.str port), ("type", .str "field")] := insertField_before (by decide)
  simp only [portRule, Json.object, foldl_cons, foldl_nil, insertField_nil, hport]

theorem guardRule_eq (guard : XrayTrafficRule) (tag : String) :
    guardRule guard tag = .obj (insertField "outboundTag" (.str tag) (guardBody guard)) := by
  have hip : insertField "ip" (.texts guard.ips) [("type", .str "field")] =
      [("ip", Json.texts guard.ips), ("type", .str "field")] := insertField_before (by decide)
  have hport : insertField "port" (.str (toString guard.port))
      [("ip", .texts guard.ips), ("type", .str "field")] =
        [("ip", Json.texts guard.ips), ("port", .str (toString guard.port)),
          ("type", .str "field")] := by
    rw [insertField_behind (by decide), insertField_before (by decide)]
  have hnetwork : insertField "network" (.str guard.network)
      [("ip", .texts guard.ips), ("port", .str (toString guard.port)), ("type", .str "field")] =
        guardBody guard := by
    rw [insertField_behind (by decide), insertField_before (by decide)]
    rfl
  simp only [guardRule, Json.object, foldl_cons, foldl_nil, insertField_nil, hip, hport, hnetwork]

theorem target_eq (tags : RouteTags) (target : DomainRouteTarget) :
    tags.target target = tags.aimTag (.shared target.destination) := by
  cases target <;> rfl

section
variable {text : NetText} {policies : List DomainPolicy} {options : ProfileRoutingOptions}
  {tags : RouteTags} {rules : List Json}

theorem selectorRules_ok {selectors : List String} {tag : String}
    (h : selectorRules text selectors tag = .ok rules) :
    rules = (selectorBodies text selectors).map fun body =>
      .obj (insertField "outboundTag" (.str tag) body) := by
  unfold selectorRules at h
  obtain ⟨⟨domains, ips⟩, hsplit, h⟩ := bind_eq_ok.mp h
  cases h
  rw [selectorBodies, hsplit]
  simp only
  cases domains.isEmpty <;> cases ips.isEmpty <;> simp [domainRule_eq, ipRule_eq]

theorem policyRules_ok {policy : DomainPolicy} (h : policyRules text tags policy = .ok rules) :
    rules = ((selectorBodies text policy.domains).map
      (Intended.mk (.shared policy.target.destination))).map (tagged tags) := by
  rw [selectorRules_ok h, target_eq, map_map]
  rfl

theorem interfaceRules_ok {route : XrayInterfaceRoute}
    (h : interfaceRules text tags route = .ok rules) :
    rules = ((selectorBodies text route.selectors).map
      (Intended.mk (.interface route.identity))).map (tagged tags) := by
  unfold interfaceRules at h
  split at h
  · rename_i tag htag
    have haim : tags.aimTag (.interface route.identity) = tag := by
      show (tags.interfaces.lookup route.identity).getD "" = tag
      rw [htag]
      rfl
    rw [selectorRules_ok h, map_map, ← haim]
    rfl
  · cases h

theorem pinRule_eq (tags : RouteTags) (server : XrayDnsServer) :
    pinRule tags server = (pinIntended server).map (tagged tags) := by
  unfold pinRule pinIntended
  cases server.route.target with
  | none => rfl
  | some target =>
    simp only
    cases dnsServerRouteTarget server.address with
    | none => rfl
    | some destination =>
      obtain ⟨kind, value⟩ := destination
      cases kind with
      | ip =>
        simp only [Option.map_some, ipRule_eq, target_eq]
        rfl
      | domain =>
        simp only [Option.map_some, domainRule_eq, target_eq]
        rfl

/-- The rules of the profile are the intended ones, each with the tag of its aim. -/
theorem mergedRules_ok {merged : List Json} (hdns : tags.dns.isSome = dnsActive options)
    (h : mergedRules text policies options tags = .ok merged) :
    merged = (intendedRules text policies options).map (tagged tags) := by
  unfold mergedRules at h
  obtain ⟨interfaces, hinterfaces, h⟩ := bind_eq_ok.mp h
  obtain ⟨rules, hrules, h⟩ := bind_eq_ok.mp h
  cases h
  have hguards : (options.trafficRules.map fun guard => guardRule guard (tags.target guard.target)) =
      (options.trafficRules.map fun guard =>
        Intended.mk (.shared guard.target.destination) (guardBody guard)).map (tagged tags) := by
    rw [map_map]
    refine map_congr_left fun guard _ => ?_
    rw [guardRule_eq, target_eq]
    rfl
  have hcapture : tags.dns.toList.map (portRule "53") = (if dnsActive options then
        [Intended.mk (.shared .dns) [("port", .str "53"), ("type", .str "field")]]
      else []).map (tagged tags) := by
    rw [← hdns]
    cases htag : tags.dns with
    | none => rfl
    | some tag =>
      have haim : tags.aimTag (.shared .dns) = tag := by
        show tags.dns.getD "" = tag
        rw [htag]
        rfl
      simp [tagged, haim, portRule_eq, Intended.rule]
  have hpins : options.dns.servers.filterMap (pinRule tags) =
      (options.dns.servers.filterMap pinIntended).map (tagged tags) := by
    rw [map_filterMap]
    exact filterMap_congr fun server _ => pinRule_eq tags server
  have hprofile : (options.trafficRules.map fun guard => guardRule guard (tags.target guard.target)) ++
      tags.dns.toList.map (portRule "53") ++ interfaces.flatten ++ rules.flatten ++
        options.dns.servers.filterMap (pinRule tags) =
      (profileRules text policies options).map (tagged tags) := by
    rw [hguards, hcapture, hpins, mapM_eq_map (fun _ _ => interfaceRules_ok) hinterfaces,
      mapM_eq_map (fun _ _ => policyRules_ok) hrules]
    simp only [profileRules, map_append, flatMap_def, map_flatten, map_map, Function.comp_def]
  have hempty : ((profileRules text policies options).map (tagged tags)).isEmpty =
      (profileRules text policies options).isEmpty := by
    rw [isEmpty_map]
  rw [hprofile, hempty, intendedRules]
  cases (profileRules text policies options).isEmpty <;> cases options.privateLanDirect <;>
    simp [ipRule_eq, tagged, Intended.rule, RouteTags.aimTag, RouteTags.of]

end

/-! ### Which destinations the rules name -/

section
variable {text : NetText} {policies : List DomainPolicy} {options : ProfileRoutingOptions}
  {server : XrayDnsServer} {x : Intended}

/-- A rule only names what the options ask for. -/
def Aim.Asked (policies : List DomainPolicy) (options : ProfileRoutingOptions) : Aim → Prop
  | .shared d => needs policies options d = true
  | .interface identity => ∃ route ∈ options.interfaceRoutes, route.identity = identity

theorem XrayDnsConfig.isEmpty_of_mem {dns : XrayDnsConfig} (h : server ∈ dns.servers) :
    dns.isEmpty = false := by
  cases hservers : dns.servers with
  | nil =>
    rw [hservers] at h
    cases h
  | cons first rest => simp [XrayDnsConfig.isEmpty, hservers]

theorem needs_target {target : DomainRouteTarget} (hactive : rulesActive policies options = true)
    (hproxy : target = .proxy → needsProxy policies options = true)
    (hdirect : target = .direct → needsDirect policies options = true) :
    needs policies options target.destination = true := by
  cases target with
  | proxy => exact hproxy rfl
  | direct => exact hdirect rfl
  | block => exact hactive

/-- A pinned resolver goes where its route says. -/
theorem target_of_pinIntended (h : pinIntended server = some x) :
    ∃ target, server.route.target = some target ∧ x.aim = .shared target.destination := by
  unfold pinIntended at h
  split at h
  · rename_i target value htarget _
    cases h
    exact ⟨target, htarget, rfl⟩
  · rename_i target value htarget _
    cases h
    exact ⟨target, htarget, rfl⟩
  · cases h

theorem asked_of_mem_profileRules (h : x ∈ profileRules text policies options) :
    x.aim.Asked policies options ∧ rulesActive policies options = true := by
  simp only [profileRules, mem_append, mem_map, mem_flatMap, mem_filterMap, or_assoc] at h
  rcases h with ⟨guard, hguard, rfl⟩ | hcapture | ⟨route, hroute, body, -, rfl⟩ |
    ⟨policy, hpolicy, body, -, rfl⟩ | ⟨server, hserver, hpin⟩
  · have hactive : rulesActive policies options = true := by
      simp [rulesActive, ne_nil_of_mem hguard]
    refine ⟨needs_target hactive (fun h => ?_) (fun h => ?_), hactive⟩
    · simp only [needsProxy, Bool.or_eq_true, any_eq_true, beq_iff_eq]
      exact .inr ⟨guard, hguard, h⟩
    · simp only [needsDirect, Bool.or_eq_true, any_eq_true, beq_iff_eq]
      exact .inr ⟨guard, hguard, h⟩
  · split at hcapture
    · rename_i hdns
      obtain rfl := mem_singleton.mp hcapture
      exact ⟨hdns, by simp [rulesActive, hdns]⟩
    · cases hcapture
  · exact ⟨⟨route, hroute, rfl⟩, by simp [rulesActive, ne_nil_of_mem hroute]⟩
  · have hactive : rulesActive policies options = true := by
      simp [rulesActive, ne_nil_of_mem hpolicy]
    refine ⟨needs_target hactive (fun h => ?_) (fun h => ?_), hactive⟩
    · simp only [needsProxy, Bool.or_eq_true, any_eq_true, beq_iff_eq]
      exact .inl (.inl ⟨policy, hpolicy, h⟩)
    · simp only [needsDirect, Bool.or_eq_true, any_eq_true, beq_iff_eq]
      exact .inl (.inl (.inr ⟨policy, hpolicy, h⟩))
  · have hactive : rulesActive policies options = true := by
      simp [rulesActive, dnsActive, XrayDnsConfig.isEmpty_of_mem hserver]
    -- a pinned resolver goes through the proxy or directly
    obtain ⟨target, htarget, haim⟩ := target_of_pinIntended hpin
    refine ⟨?_, hactive⟩
    rw [haim]
    refine needs_target hactive (fun h => ?_) (fun h => ?_)
    · simp only [needsProxy, Bool.or_eq_true, any_eq_true, beq_iff_eq]
      refine .inl (.inr ⟨server, hserver, ?_⟩)
      cases hroute : server.route <;> simp_all [XrayDnsRoute.target]
    · simp only [needsDirect, Bool.or_eq_true, any_eq_true, beq_iff_eq]
      refine .inl (.inr ⟨server, hserver, ?_⟩)
      cases hroute : server.route <;> simp_all [XrayDnsRoute.target]

theorem asked_of_mem (h : x ∈ intendedRules text policies options) :
    x.aim.Asked policies options := by
  simp only [intendedRules, mem_append] at h
  rcases h with (h | h) | h
  · exact (asked_of_mem_profileRules h).1
  · split at h
    · rename_i hemitted
      obtain rfl := mem_singleton.mp h
      show rulesActive policies options = true
      rcases Bool.or_eq_true_iff.mp hemitted with hprofile | hlan
      · have hne : profileRules text policies options ≠ [] := by simpa using hprofile
        obtain ⟨x, hx⟩ := exists_mem_of_ne_nil _ hne
        exact (asked_of_mem_profileRules hx).2
      · simp [rulesActive, hlan]
    · cases h
  · split at h
    · rename_i hlan
      obtain rfl := mem_singleton.mp h
      show needsDirect policies options = true
      simp [needsDirect, hlan]
    · cases h

/-- Where nothing is asked for, no rule is. -/
theorem intendedRules_of_inactive (h : rulesActive policies options = false) :
    intendedRules text policies options = [] := by
  have hprofile : profileRules text policies options = [] := by
    refine eq_nil_iff_forall_not_mem.mpr fun x hx => ?_
    rw [(asked_of_mem_profileRules hx).2] at h
    cases h
  have hlan : options.privateLanDirect = false := by
    simp only [rulesActive, Bool.or_eq_false_iff] at h
    exact h.1.1.1.2
  simp [intendedRules, hprofile, hlan]

end

end NetOrchestrator.Core
