import NetOrchestrator.Daemon.XrayPrepare

/-!
# `Proofs.XrayPrepared`: the sections of a prepared config

`generated_of_validate` says what an accepted config is made of: its outbounds have tags that no
other one has and that are not the daemon's own, and its rules name them.

`rewritten_of_rewriteConfig` says what is left of it in the config that runs. The inbounds are the
daemon's, the rules of the client stand between its control rules and the catch-all, the outbounds
are the client's and perhaps the blackhole, each with the mark, and the balancers of the pools
follow the declared one.
-/

namespace NetOrchestrator.Daemon

open Net Lib List Option
open NetOrchestrator.Core (outboundsOf rulesOf rawTag protocolOf)
open Checks (bind_eq_ok passed)

def inboundsOf (config : Json) : List Json := ((config.index "inbounds").asArray).getD []

def balancersOf (config : Json) : List Json :=
  (((config.index "routing").index "balancers").asArray).getD []

/-! ### Accepted configs -/

/-- What the rest of the program relies on in an accepted config. -/
structure Generated (config : Json) (root routing : List (String × Json))
    (outbounds rules : List Json) : Prop where
  config_eq : config = .obj root
  outbounds_eq : getField "outbounds" root = some (.arr outbounds)
  routing_eq : getField "routing" root = some (.obj routing)
  rules_eq : getField "rules" routing = some (.arr rules)
  tagged : ∀ outbound ∈ outbounds, ∃ tag, rawTag outbound = some tag ∧ validOutboundTag tag = true
  nodup : (outbounds.map rawTag).Nodup
  targets : ∀ rule ∈ rules, ruleTargetOk (outbounds.map rawTag) rule = true
  balancers : ∀ declared, getField "balancers" routing = some declared →
    ∃ balancer, declared = .arr [balancer] ∧ balancer.text? "tag" = some "failover" ∧
      balancer.index "selector" = .texts ["unavailable"]

theorem exists_fields_of_jsonObject {value : Json} {allowed : List String}
    (h : jsonObject value allowed = true) : ∃ fields, value = .obj fields := by
  obtain ⟨fields, hfields, -⟩ := (any_eq_true _ _).mp h
  exact ⟨fields, Json.asObject_eq_some.mp hfields⟩

theorem eq_singleton_of_jsonOne {value item : Json} (h : jsonOne value = some item) :
    value = .arr [item] := by
  unfold jsonOne at h
  split at h
  · rename_i first hitems
    cases h
    exact Json.asArray_eq_some.mp hitems
  · cases h

variable {parseNet : String → Option IpNet}

theorem tag_of_validateOutbound {outbound : Json} (h : validateOutbound parseNet outbound = true) :
    ∃ tag, rawTag outbound = some tag ∧ validOutboundTag tag = true := by
  simp only [validateOutbound, Bool.and_eq_true] at h
  exact (any_eq_true _ _).mp h.1.1.2

theorem balancer_of_validateBalancers {balancers : Json} (h : validateBalancers balancers = true) :
    ∃ balancer, balancers = .arr [balancer] ∧ balancer.text? "tag" = some "failover" ∧
      balancer.index "selector" = .texts ["unavailable"] := by
  obtain ⟨balancer, hone, h⟩ := (any_eq_true _ _).mp h
  simp only [Bool.and_eq_true, decide_eq_true_eq] at h
  obtain ⟨⟨-, htag⟩, hselector⟩ := h
  obtain ⟨selector, hselector, hsame⟩ := (any_eq_true _ _).mp hselector
  rw [decide_eq_true_eq] at hsame
  subst hsame
  exact ⟨balancer, eq_singleton_of_jsonOne hone, htag, eq_singleton_of_jsonOne hselector⟩

theorem generated_of_validate {config : Json} (h : validateGenerated parseNet config = true) :
    ∃ root routing outbounds rules, Generated config root routing outbounds rules := by
  simp only [validateGenerated, Bool.and_eq_true] at h
  obtain ⟨⟨⟨⟨⟨⟨hroot, -⟩, -⟩, -⟩, -⟩, -⟩, hsections⟩ := h
  obtain ⟨root, rfl⟩ := exists_fields_of_jsonObject hroot
  obtain ⟨outbounds, houtbounds, hsections⟩ := (Option.any_eq_true _ _).mp hsections
  simp only [Bool.and_eq_true, validateOutbounds, validateRouting, decide_eq_true_eq] at hsections
  obtain ⟨⟨⟨⟨⟨_, hall⟩, hnodup⟩, -⟩, -⟩, ⟨⟨⟨⟨hrouting, hbalancers⟩, -⟩, -⟩, hrules⟩⟩ := hsections
  obtain ⟨routing, hrouting⟩ := exists_fields_of_jsonObject hrouting
  obtain ⟨rules, hrules, hchecked⟩ := (Option.any_eq_true _ _).mp hrules
  simp only [Bool.and_eq_true, List.all_eq_true] at hchecked
  rw [Json.asArray_eq_some, hrouting] at hrules
  rw [Json.asArray_eq_some] at houtbounds
  refine ⟨root, routing, outbounds, rules, ?_⟩
  constructor
  case config_eq => rfl
  case outbounds_eq => exact Json.get?_of_index houtbounds (by simp)
  case routing_eq => exact Json.get?_of_index hrouting (by simp)
  case rules_eq => exact Json.get?_of_index hrules (by simp)
  case tagged => exact fun outbound hmem => tag_of_validateOutbound (List.all_eq_true.mp hall outbound hmem)
  case nodup => exact hnodup
  case targets =>
    intro rule hmem
    have hrule := hchecked.2 rule hmem
    simp only [validateRoutingRule, Bool.and_eq_true] at hrule
    exact hrule.1.1.1.1.2
  case balancers =>
    intro declared hdeclared
    rw [hrouting, optionally, Json.get?_obj, hdeclared] at hbalancers
    exact balancer_of_validateBalancers hbalancers

/-! ### The stages of the rewriting -/

/-- The sections of a config that the rewriting touches more than once. -/
structure Sections (root : List (String × Json)) (inbounds : List Json)
    (routing : List (String × Json)) (outbounds : List Json) : Prop where
  inbounds_eq : getField "inbounds" root = some (.arr inbounds)
  routing_eq : getField "routing" root = some (.obj routing)
  outbounds_eq : getField "outbounds" root = some (.arr outbounds)

section
variable {root root' routing : List (String × Json)} {inbounds outbounds rules declared : List Json}
  {mark : Nat} {outbound outbound' : Json}

section
variable (h : Sections root inbounds routing outbounds)
include h

theorem Sections.listen (inbounds' : List Json) :
    Sections (insertField "inbounds" (.arr inbounds') root) inbounds' routing outbounds :=
  ⟨by simp, by simp [getField_insertField, h.routing_eq],
    by simp [getField_insertField, h.outbounds_eq]⟩

theorem Sections.route (routing' : List (String × Json)) :
    Sections (insertField "routing" (.obj routing') root) inbounds routing' outbounds :=
  ⟨by simp [getField_insertField, h.inbounds_eq], by simp,
    by simp [getField_insertField, h.outbounds_eq]⟩

theorem Sections.leave (outbounds' : List Json) :
    Sections (insertField "outbounds" (.arr outbounds') root) inbounds routing outbounds' :=
  ⟨by simp [getField_insertField, h.inbounds_eq], by simp [getField_insertField, h.routing_eq],
    by simp⟩

theorem Sections.inboundsOf_eq : inboundsOf (.obj root) = inbounds := by
  simp [inboundsOf, h.inbounds_eq]

theorem Sections.outboundsOf_eq : outboundsOf (.obj root) = outbounds := by
  simp [outboundsOf, h.outbounds_eq]

theorem Sections.rulesOf_eq (hrules : getField "rules" routing = some (.arr rules)) :
    rulesOf (.obj root) = rules := by
  simp [rulesOf, h.routing_eq, hrules]

theorem Sections.balancersOf_eq
    (hdeclared : (getField "balancers" routing).getD (.arr []) = .arr declared) :
    balancersOf (.obj root) = declared := by
  rw [balancersOf, Json.index_obj, h.routing_eq, getD_some, Json.index_obj]
  cases hbalancers : getField "balancers" routing with
  | none =>
    rw [hbalancers] at hdeclared
    cases hdeclared
    rfl
  | some balancers =>
    rw [hbalancers, getD_some] at hdeclared
    rw [hdeclared]
    rfl

end

theorem sections_controlSections (inbounds : List Json) (routed : Bool)
    (hrouting : getField "routing" root = some (.obj routing))
    (houtbounds : getField "outbounds" root = some (.arr outbounds)) :
    Sections (controlSections inbounds routed root) inbounds routing outbounds := by
  constructor
  case inbounds_eq => simp [controlSections, getField_insertField]
  case routing_eq => simp [controlSections, getField_insertField, hrouting]
  case outbounds_eq => simp [controlSections, getField_insertField, houtbounds]

section
variable (hsections : Sections root inbounds routing outbounds)
include hsections

variable {failover : Bool}

/-- The control rules go in front, the catch-all behind. -/
theorem sections_routeControl {nodes pinned : List String}
    (hrules : getField "rules" routing = some (.arr rules))
    (h : routeControl nodes pinned failover root = .ok root') :
    Sections root' inbounds (insertField "rules"
        (.arr (controlRules nodes pinned ++ rules ++ if failover then [failoverRule] else []))
        routing) outbounds := by
  simp only [routeControl, objectField, arrayField, hsections.routing_eq, hrules, bind_some,
    Json.asObject_obj, Json.asArray_arr, bind, Except.bind] at h
  cases h
  exact hsections.route _

theorem sections_addUnavailable (h : addUnavailable failover root = .ok root') :
    Sections root' inbounds routing
      (outbounds ++ if failover then [unavailableOutbound] else []) := by
  cases failover with
  | false =>
    cases h
    simpa using hsections
  | true =>
    simp only [addUnavailable, arrayField, hsections.outbounds_eq, bind_some,
      Json.asArray_arr, bind, Except.bind, if_true] at h
    cases h
    exact hsections.leave _

/-- The balancers of the pools follow the declared one, and the blackhole is there for them. -/
theorem sections_injectBalancers {balancers : List Json}
    (hdeclared : (getField "balancers" routing).getD (.arr []) = .arr declared)
    (h : injectBalancers balancers root = .ok root') : ∃ routing', Sections root' inbounds routing'
        (if !balancers.isEmpty && !outbounds.any fun outbound => rawTag outbound = some unavailableTag
          then outbounds ++ [unavailableOutbound] else outbounds) ∧
      (getField "balancers" routing').getD (.arr []) = .arr (declared ++ balancers) ∧
      getField "rules" routing' = getField "rules" routing := by
  cases balancers with
  | nil =>
    cases h
    exact ⟨routing, hsections, by simpa using hdeclared, rfl⟩
  | cons first rest =>
    simp only [injectBalancers, isEmpty_cons, Bool.false_eq_true, if_false, objectField,
      arrayField, hsections.routing_eq, hdeclared, hsections.outbounds_eq, bind_some,
      Json.asObject_obj, Json.asArray_arr, bind, Except.bind] at h
    refine ⟨insertField "balancers" (.arr (declared ++ first :: rest)) routing, ?_, by simp,
      getField_insertField_of_ne (by decide) _ _⟩
    by_cases hany : (outbounds.any fun outbound => rawTag outbound = some unavailableTag) = true
    · have hthere := hany
      unfold rawTag at hthere
      rw [if_pos hthere] at h
      cases h
      simpa [hany] using hsections.route _
    · have hmissing := hany
      unfold rawTag at hmissing
      rw [if_neg hmissing] at h
      cases h
      rw [Bool.not_eq_true] at hany
      simpa [hany] using (hsections.route _).leave _

end

theorem isEmpty_filterMap_poolBalancer (exits : List ProxyExitBinding) :
    (exits.filterMap poolBalancer).isEmpty = !exits.any fun exit => exit.target.isPool := by
  induction exits with
  | nil => rfl
  | cons exit rest ih =>
    by_cases hpool : exit.target.isPool = true
    · simp [poolBalancer, hpool]
    · simp [poolBalancer, hpool, ih]

/-- The listeners of the exits follow the others, their rules come first. -/
theorem sections_injectExits {exits : List ProxyExitBinding}
    (hsections : Sections root inbounds routing outbounds)
    (hrules : getField "rules" routing = some (.arr rules))
    (hdeclared : (getField "balancers" routing).getD (.arr []) = .arr declared)
    (h : injectExits mark exits root = .ok root') :
    ∃ routing', Sections root' (inbounds ++ (exits.mapIdx (exitInbounds mark)).flatten) routing'
        (if (exits.any fun exit => exit.target.isPool) &&
            !outbounds.any fun outbound => rawTag outbound = some unavailableTag
          then outbounds ++ [unavailableOutbound] else outbounds) ∧
      (getField "balancers" routing').getD (.arr []) =
        .arr (declared ++ exits.filterMap poolBalancer) ∧
      getField "rules" routing' = some (.arr (exits.filterMap exitRule ++ rules)) := by
  cases exits with
  | nil =>
    cases h
    exact ⟨routing, by simpa using hsections, by simpa using hdeclared, hrules⟩
  | cons first rest =>
    simp only [injectExits, isEmpty_cons, Bool.false_eq_true, if_false, objectField,
      arrayField, hsections.inbounds_eq, getField_insertField_of_ne (show "routing" ≠ "inbounds" by
        decide), hsections.routing_eq, hrules, bind_some, Json.asObject_obj,
      Json.asArray_arr, bind, Except.bind] at h
    have hlistening := (hsections.listen
      (inbounds ++ ((first :: rest).mapIdx (exitInbounds mark)).flatten)).route
        (insertField "rules" (.arr ((first :: rest).filterMap exitRule ++ rules)) routing)
    have hkept : (getField "balancers" (insertField "rules"
        (.arr ((first :: rest).filterMap exitRule ++ rules)) routing)).getD (.arr []) =
          .arr declared := by
      rw [getField_insertField_of_ne (by decide), hdeclared]
    obtain ⟨routing', hsections', hbalancers, hsame⟩ := sections_injectBalancers hlistening hkept h
    rw [isEmpty_filterMap_poolBalancer, Bool.not_not] at hsections'
    exact ⟨routing', hsections', hbalancers, by rw [hsame, getField_insertField_self]⟩

/-- The mark is written, and nothing else changes. A blackhole sends nothing. -/
structure Marked (mark : Nat) (outbound outbound' : Json) : Prop where
  marked : protocolOf outbound' = some "blackhole" ∨
    ((outbound'.index "streamSettings").index "sockopt").index "mark" = .nat mark
  blackhole : protocolOf outbound = some "blackhole" → outbound' = outbound
  same : ∀ key, key ≠ "streamSettings" → outbound'.get? key = outbound.get? key

theorem marked_of_markOutbound (h : markOutbound mark outbound = .ok outbound') :
    Marked mark outbound outbound' := by
  unfold markOutbound at h
  split at h
  · rename_i hblackhole
    cases h
    exact ⟨.inl hblackhole, fun _ => rfl, fun _ _ => rfl⟩
  · rename_i hprotocol
    dsimp only at h
    split at h
    · split at h
      · cases h
        refine ⟨.inr ?_, fun hblackhole => absurd hblackhole hprotocol, fun key hkey => ?_⟩
        · simp
        · simp [getField_insertField_of_ne hkey]
      · cases h
    · cases h

theorem Marked.text_eq (h : Marked mark outbound outbound') {key : String}
    (hkey : key ≠ "streamSettings") : outbound'.text? key = outbound.text? key := by
  rw [Json.text?_eq_bind, Json.text?_eq_bind, h.same key hkey]

theorem sections_markOutbounds (hsections : Sections root inbounds routing outbounds)
    (h : markOutbounds mark root = .ok root') :
    ∃ outbounds', List.Forall₂ (Marked mark) outbounds outbounds' ∧
      Sections root' inbounds routing outbounds' := by
  unfold markOutbounds at h
  obtain ⟨items, hitems, h⟩ := bind_eq_ok.mp h
  simp only [arrayField, hsections.outbounds_eq, bind_some, Json.asArray_arr] at hitems
  obtain rfl := Except.ok.inj hitems
  obtain ⟨outbounds', hmarked, h⟩ := bind_eq_ok.mp h
  cases h
  exact ⟨outbounds', (Checks.mapM_eq_ok.mp hmarked).imp fun _ _ => marked_of_markOutbound,
    hsections.leave _⟩

end

/-! ### The rewritten config -/

/-- The sections of a config that was rewritten, over what was read of the client's. -/
structure RewrittenConfig (reading : XrayReading) (mark : Nat) (tun : Json) (outbounds rules : List Json)
    (declared : List Json) (config : Json) : Prop where
  inbounds : inboundsOf config = controlInbounds mark reading.nodes reading.pinnedKeys tun ++
    (reading.exits.mapIdx (exitInbounds mark)).flatten
  rules : rulesOf config = reading.exits.filterMap exitRule ++
    (controlRules reading.nodes reading.pinnedKeys ++ rules ++
      if reading.failover.isSome then [failoverRule] else [])
  balancers : balancersOf config = declared ++ reading.exits.filterMap poolBalancer
  outbounds : List.Forall₂ (Marked mark)
    (outbounds ++ if reading.failover.isSome || reading.hasPool then [unavailableOutbound] else [])
    (outboundsOf config)

section
variable {config : Json} {root routing root' : List (String × Json)} {outbounds rules : List Json}
  {reading : XrayReading} {mark mtu : Nat} {name : String}
variable (hgen : Generated config root routing outbounds rules)
include hgen

/-- The balancers that the client declared. -/
theorem Generated.declared_eq :
    (getField "balancers" routing).getD (.arr []) = .arr (balancersOf config) := by
  rw [balancersOf, hgen.config_eq, Json.index_obj, hgen.routing_eq, getD_some, Json.index_obj]
  cases hbalancers : getField "balancers" routing with
  | none => rfl
  | some declared =>
    obtain ⟨balancer, rfl, -⟩ := hgen.balancers declared hbalancers
    rfl

/-- No outbound of the client has the tag of the blackhole. -/
theorem Generated.tag_ne_unavailable {outbound : Json} (hmem : outbound ∈ outbounds) :
    rawTag outbound ≠ some unavailableTag := by
  obtain ⟨tag, htag, hvalid⟩ := hgen.tagged outbound hmem
  rw [htag]
  intro heq
  cases heq
  exact absurd hvalid (by decide)

/-- The blackhole is there once, whoever asks for it. -/
theorem Generated.withUnavailable (failover pool : Bool) :
    (let first := outbounds ++ if failover then [unavailableOutbound] else []
      if pool && !first.any fun outbound => rawTag outbound = some unavailableTag
        then first ++ [unavailableOutbound] else first) =
      outbounds ++ if failover || pool then [unavailableOutbound] else [] := by
  have hnone : (outbounds.any fun outbound => decide (rawTag outbound = some unavailableTag)) =
      false := by
    rw [List.any_eq_false]
    intro outbound hmem
    simpa using hgen.tag_ne_unavailable hmem
  have hown : decide (rawTag unavailableOutbound = some unavailableTag) = true := by decide
  cases failover <;> cases pool <;> simp [hnone, hown]

theorem rewritten_of_rewriteConfig (h : rewriteConfig reading mark mtu name root = .ok root') :
    RewrittenConfig reading mark (tunInbound name mtu (hasFakedns root)) outbounds rules
      (balancersOf config) (.obj root') := by
  unfold rewriteConfig at h
  obtain ⟨routed, hrouted, h⟩ := bind_eq_ok.mp h
  obtain ⟨guarded, hguarded, h⟩ := bind_eq_ok.mp h
  obtain ⟨injected, hinjected, h⟩ := bind_eq_ok.mp h
  have hrouted := sections_routeControl
    (sections_controlSections _ _ hgen.routing_eq hgen.outbounds_eq) hgen.rules_eq hrouted
  have hguarded := sections_addUnavailable hrouted hguarded
  have hdeclared := hgen.declared_eq
  rw [← getField_insertField_of_ne (show "balancers" ≠ "rules" by decide)] at hdeclared
  obtain ⟨routing', hinjected, hbalancers, hrules⟩ :=
    sections_injectExits hguarded (getField_insertField_self _ _ _) hdeclared hinjected
  obtain ⟨outbounds', hmarked, hsections⟩ := sections_markOutbounds hinjected h
  have hblackhole := hgen.withUnavailable reading.failover.isSome reading.hasPool
  constructor
  case inbounds => exact hsections.inboundsOf_eq
  case rules => exact hsections.rulesOf_eq hrules
  case balancers => exact hsections.balancersOf_eq hbalancers
  case outbounds =>
    rw [hsections.outboundsOf_eq, ← hblackhole]
    exact hmarked

end

/-! ### What was read of the request -/

section
variable {lib : XrayCrates} {params : XrayConnectParams} {config : Json} {outbounds : List Json}
  {reading : XrayReading} {exits : List NamedProxyExit}

/-- The names of checked exits differ from each other and from those before. -/
theorem names_of_validateExitList {names : List String}
    (h : validateExitList names exits = .ok ()) :
    (exits.map NamedProxyExit.name).Nodup ∧ ∀ exit ∈ exits, exit.name ∉ names := by
  induction exits generalizing names with
  | nil => simp
  | cons exit rest ih =>
    unfold validateExitList at h
    split at h
    · cases h
    obtain ⟨hnew, h⟩ := passed h
    obtain ⟨_, -, h⟩ := bind_eq_ok.mp h
    obtain ⟨_, -, h⟩ := bind_eq_ok.mp h
    obtain ⟨hnodup, hlater⟩ := ih h
    simp only [mem_cons, not_or] at hlater
    have hfirst : exit.name ∉ rest.map NamedProxyExit.name := by
      intro hmem
      obtain ⟨other, hother, hname⟩ := mem_map.mp hmem
      exact (hlater other hother).1 hname
    refine ⟨nodup_cons.mpr ⟨hfirst, hnodup⟩, ?_⟩
    simpa using ⟨by simpa using hnew, fun other hother => (hlater other hother).2⟩

theorem bindings_ok {bound : List ProxyExitBinding}
    (houtbounds : config.index "outbounds" = .arr outbounds)
    (h : bindings exits config = .ok bound) :
    bound = exits.map (fun exit => { name := exit.name, target := exit.target }) ∧
      exits.length ≤ maxProxyExits ∧ (exits.map NamedProxyExit.name).Nodup ∧
      ∀ exit ∈ exits, bindable outbounds exit.target = true := by
  unfold bindings at h
  obtain ⟨_, hvalid, h⟩ := bind_eq_ok.mp h
  unfold validateProxyExits at hvalid
  obtain ⟨hlen, hvalid⟩ := passed hvalid
  simp only [houtbounds, Json.asArray_arr] at h
  split at h
  · cases h
  obtain ⟨hbindable, h⟩ := passed h
  cases h
  refine ⟨rfl, by omega, (names_of_validateExitList hvalid).1, ?_⟩
  simpa using hbindable

/-- The nodes that a probe and the supervisor use. -/
structure FailoverChecked (failover : XrayFailoverRequest) (outbounds : List Json) : Prop where
  length : failover.nodes.length ≤ maxFailoverNodes
  nodup : failover.nodes.Nodup
  declared : nodesDeclared failover.nodes outbounds = true

theorem checked_of_validateFailover {failover checked : XrayFailoverRequest}
    (h : validateFailover lib failover outbounds = .ok checked) :
    checked.nodes = failover.nodes ∧ FailoverChecked failover outbounds := by
  unfold validateFailover at h
  dsimp only at h
  obtain ⟨hlen, h⟩ := passed h
  obtain ⟨hkeys, h⟩ := passed h
  split at h
  · cases h
  obtain ⟨hdeclared, h⟩ := passed h
  obtain ⟨_, -, h⟩ := bind_eq_ok.mp h
  obtain ⟨-, h⟩ := passed h
  cases h
  simp only [Bool.or_eq_true, not_or, Bool.not_eq_true, decide_eq_false_iff_not, Nat.not_lt] at hlen
  simp only [Bool.or_eq_true, not_or, Bool.not_eq_true, Bool.not_eq_false', decide_eq_true_eq]
    at hkeys
  exact ⟨rfl, hlen.2, hkeys.2, by simpa using hdeclared⟩

/-- What was read of a request that was accepted. -/
structure ReadFrom (params : XrayConnectParams) (outbounds : List Json) (reading : XrayReading) :
    Prop where
  exits : reading.exits = params.proxyExits.map
    (fun exit => { name := exit.name, target := exit.target })
  exits_length : params.proxyExits.length ≤ maxProxyExits
  exits_nodup : (params.proxyExits.map NamedProxyExit.name).Nodup
  exits_bindable : ∀ exit ∈ params.proxyExits, bindable outbounds exit.target = true
  failover_isSome : reading.failover.isSome = params.failover.isSome
  failover : ∀ failover, params.failover = some failover →
    reading.nodes = failover.nodes ∧ FailoverChecked failover outbounds
  no_nodes : params.failover = none → reading.nodes = []
  pinned : reading.pinnedKeys = pinnedKeysOf outbounds
  pinned_length : reading.pinnedKeys.length ≤ 33

theorem readFrom_of_readConfig (houtbounds : config.index "outbounds" = .arr outbounds)
    (h : readConfig lib params config outbounds = .ok reading) :
    ReadFrom params outbounds reading := by
  unfold readConfig at h
  obtain ⟨exits, hexits, h⟩ := bind_eq_ok.mp h
  obtain ⟨failover, hfailover, h⟩ := bind_eq_ok.mp h
  dsimp only at h
  split at h
  · cases h
  obtain ⟨probeUrl, -, h⟩ := bind_eq_ok.mp h
  split at h
  · cases h
  obtain ⟨hpinned, h⟩ := passed h
  cases h
  obtain ⟨hbound, hlen, hnodup, hbindable⟩ := bindings_ok houtbounds hexits
  have hfew : (pinnedKeysOf outbounds).length ≤ 33 := by omega
  unfold failoverOf at hfailover
  cases hparams : params.failover with
  | none =>
    rw [hparams] at hfailover
    cases hfailover
    have hnone : ∀ failover, params.failover = some failover → False := by simp [hparams]
    exact ⟨hbound, hlen, hnodup, hbindable, by rw [hparams],
      fun failover heq => (hnone failover heq).elim, fun _ => rfl, rfl, hfew⟩
  | some request =>
    rw [hparams] at hfailover
    obtain ⟨checked, hchecked, hfailover⟩ := bind_eq_ok.mp hfailover
    cases hfailover
    refine ⟨hbound, hlen, hnodup, hbindable, by rw [hparams]; rfl, fun _ heq => ?_,
      (by simp [hparams]), rfl, hfew⟩
    rw [hparams] at heq
    cases heq
    exact checked_of_validateFailover hchecked

end

/-! ### Prepared requests -/

/-- What lies behind a plan. -/
structure PreparedFrom (lib : XrayCrates) (params : XrayConnectParams) (mark : Nat)
    (plan : PreparedXray) (config : Json) (outbounds rules : List Json) (reading : XrayReading) :
    Prop where
  checked : checkRequest lib params mark = .ok ()
  parsed : lib.parseJson params.config = some config
  generated : ∃ root routing, Generated config root routing outbounds rules
  read : ReadFrom params outbounds reading
  rewritten : ∃ name mtu fakedns,
    RewrittenConfig reading mark (tunInbound name mtu fakedns) outbounds rules (balancersOf config)
      plan.config
  failover_eq : plan.failover = reading.failover
  pinned_eq : plan.pinnedKeys = reading.pinnedKeys
  exits_eq : plan.proxyExits = reading.exits
  routes_eq : plan.routes = params.routes
  fullIpv4_eq : plan.fullIpv4 = takesAll params.routes defaultIpv4 lowerIpv4 upperIpv4
  fullIpv6_eq : plan.fullIpv6 = takesAll params.routes defaultIpv6 lowerIpv6 upperIpv6

theorem preparedFrom_of_prepareXray {lib : XrayCrates} {uid mark : Nat} {params : XrayConnectParams}
    {plan : PreparedXray} (h : prepareXray lib uid params mark = .ok plan) :
    ∃ config outbounds rules reading,
      PreparedFrom lib params mark plan config outbounds rules reading := by
  unfold prepareXray at h
  obtain ⟨⟨⟩, hchecked, h⟩ := bind_eq_ok.mp h
  split at h
  · cases h
  rename_i config hparsed
  obtain ⟨hvalid, h⟩ := passed h
  rw [Bool.not_eq_true, Bool.not_eq_false'] at hvalid
  obtain ⟨root, routing, outbounds, rules, hgen⟩ := generated_of_validate hvalid
  have hroot : config.asObject.getD [] = root := by rw [hgen.config_eq]; rfl
  rw [hroot] at h
  obtain ⟨items, hitems, h⟩ := bind_eq_ok.mp h
  rw [arrayField, hgen.outbounds_eq] at hitems
  obtain rfl := Except.ok.inj hitems
  obtain ⟨reading, hread, h⟩ := bind_eq_ok.mp h
  obtain ⟨root', hrewritten, h⟩ := bind_eq_ok.mp h
  cases h
  have houtbounds : config.index "outbounds" = .arr outbounds := by
    rw [hgen.config_eq, Json.index_obj, hgen.outbounds_eq, getD_some]
  refine ⟨config, outbounds, rules, reading, ?_⟩
  constructor
  case checked => exact hchecked
  case parsed => exact hparsed
  case generated => exact ⟨root, routing, hgen⟩
  case read => exact readFrom_of_readConfig houtbounds hread
  case rewritten => exact ⟨_, _, _, rewritten_of_rewriteConfig hgen hrewritten⟩
  all_goals rfl

section
variable {lib : XrayCrates} {params : XrayConnectParams} {mark : Nat} {plan : PreparedXray}
  {config : Json} {outbounds rules : List Json} {reading : XrayReading}

theorem Marked.blackhole_eq {outbound : Json} (h : Marked mark unavailableOutbound outbound) :
    outbound = unavailableOutbound :=
  h.blackhole (by decide)

/-- The outbounds that run: the client's with the mark, and the blackhole where it is needed. -/
theorem PreparedFrom.outbounds_eq
    (h : PreparedFrom lib params mark plan config outbounds rules reading) :
    ∃ marked, List.Forall₂ (Marked mark) outbounds marked ∧
      outboundsOf plan.config = marked ++
        if reading.failover.isSome || reading.hasPool then [unavailableOutbound] else [] := by
  obtain ⟨name, mtu, fakedns, hrewritten⟩ := h.rewritten
  have hall := hrewritten.outbounds.flip
  have hclient := (forall₂_take_append _ _ _ hall).flip
  have hadded := (forall₂_drop_append _ _ _ hall).flip
  refine ⟨_, hclient, ?_⟩
  have hrest : (outboundsOf plan.config).drop outbounds.length =
      if reading.failover.isSome || reading.hasPool then [unavailableOutbound] else [] := by
    revert hadded
    generalize (outboundsOf plan.config).drop outbounds.length = added
    generalize (reading.failover.isSome || reading.hasPool) = needed
    intro hadded
    cases needed with
    | true =>
      cases hadded with
      | cons hfirst hnone =>
        cases hnone
        rw [hfirst.blackhole_eq]
        rfl
    | false =>
      cases hadded
      rfl
  rw [← hrest, take_append_drop]

end

/-! ### A small request -/

/-- A server of the ferry, and how its outbound is sent. -/
def ferryServer (tag address : String) : Json × String :=
  (.object [("tag", .str tag), ("protocol", .str "hysteria"),
      ("settings", .object [("version", .nat 2), ("address", .str address), ("port", .nat 443)]),
      ("streamSettings", .object [("network", .str "hysteria"), ("security", .str "tls"),
        ("tlsSettings", .object []),
        ("hysteriaSettings", .object [("version", .nat 2), ("auth", .str "harbor")])])],
    "\x7b\"tag\":\"" ++ tag ++ "\",\"protocol\":\"hysteria\",\"settings\":\x7b\"version\":2," ++
      "\"address\":\"" ++ address ++ "\",\"port\":443\x7d,\"streamSettings\":\x7b" ++
      "\"network\":\"hysteria\",\"security\":\"tls\",\"tlsSettings\":\x7b\x7d," ++
      "\"hysteriaSettings\":\x7b\"version\":2,\"auth\":\"harbor\"\x7d\x7d\x7d,")

def ferryNode : Json × String := ferryServer "node-00000000000000aa" "192.0.2.7"

def ferryPin : Json × String := ferryServer "pin-00000000000000bb" "192.0.2.8"

/-- A config with one node and one pin, and with the balancer that a failover needs or without
it. -/
def ferryConfig (declared : Bool) : Json :=
  .object [
    ("inbounds", .arr [.object [("tag", .str "socks-in"), ("listen", .str "127.0.0.1"),
      ("port", .nat 10808), ("protocol", .str "socks")]]),
    ("outbounds", .arr [ferryNode.1, ferryPin.1,
      .object [("tag", .str "direct"), ("protocol", .str "freedom")]]),
    ("routing", .object (("rules", .arr []) ::
      if declared then
        [("balancers", .arr [.object [("tag", .str "failover"),
          ("selector", .texts ["unavailable"])]])]
      else []))]

/-- The config as it is sent. -/
def ferryText (declared : Bool) : String :=
  "\x7b\"inbounds\":[\x7b\"tag\":\"socks-in\",\"listen\":\"127.0.0.1\",\"port\":10808," ++
    "\"protocol\":\"socks\"\x7d],\"outbounds\":[" ++ ferryNode.2 ++ ferryPin.2 ++
    "\x7b\"tag\":\"direct\",\"protocol\":\"freedom\"\x7d],\"routing\":\x7b\"rules\":[]" ++
    (if declared then
      ",\"balancers\":[\x7b\"tag\":\"failover\",\"selector\":[\"unavailable\"]\x7d]" else "") ++
    "\x7d\x7d"

/-- The crates on the config and on a probe's URL. -/
def ferryCrates (declared : Bool) : XrayCrates where
  parseNet _ := none
  showNet := renderNet
  aggregate := id
  decodeBase64 _ := none
  parseJson _ := some (ferryConfig declared)
  parseUrl _ := some
    { scheme := "https", username := "", password := none, host := some "ferry.test"
      port := some 443, fragment := none, text := "https://ferry.test/" }

def ferryRequest (declared : Bool) : XrayConnectParams :=
  { profileId := "ferry"
    config := ferryText declared
    failover := some
      { primaryKey := "00000000000000aa", nodes := ["00000000000000aa"], autoReturnPrimary := true
        probeUrl := "https://ferry.test/", intervalSecs := 10 }
    proxyExits := [{ name := "nl", target := .direct, noProxy := [] },
      { name := "isles", target := .pool ["00000000000000bb"], noProxy := [] }] }

theorem ferry_prepared (declared : Bool) :
    ∃ plan, prepareXray (ferryCrates declared) 1000 (ferryRequest declared) 51820 = .ok plan := by
  have haccepted : (prepareXray (ferryCrates declared) 1000 (ferryRequest declared) 51820).isOk =
      true := by
    cases declared <;> decide +kernel
  cases hprepared : prepareXray (ferryCrates declared) 1000 (ferryRequest declared) 51820 with
  | error e =>
    rw [hprepared] at haccepted
    cases haccepted
  | ok plan => exact ⟨plan, rfl⟩

end NetOrchestrator.Daemon
