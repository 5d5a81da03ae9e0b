import NetOrchestrator.Proofs.XrayPrepared

/-!
# `Proofs.XrayBalancers`: what the rules of a prepared config name

The outbounds that rules name are always there. A balancer is another matter: the catch-all of a
failover, and any rule of the client, may name the balancer `failover`, and nothing asks whether
the client declared it. Nor is the blackhole there for a declared balancer without failover, or
the only tag with its start, and a `node-` tag may belong to any outbound.

`failClosed_iff` says which requests are accepted and closed all the same.
-/

namespace NetOrchestrator.Daemon

open Net Lib List Option Checks
open NetOrchestrator.Core (outboundsOf rulesOf rawTag protocolOf nodeTag pinTag failoverBalancer)

/-! ### Closed configs -/

/-- An outbound whose tag starts with a text. -/
def tagStarts (start : String) (outbound : Json) : Bool :=
  (rawTag outbound).any fun tag => (stripPrefix start tag).isSome

/-- The outbounds that a balancer selects: those whose tag starts with one of its selectors. -/
def selected (balancer : Json) (outbounds : List Json) : List Json :=
  outbounds.filter fun outbound =>
    ((balancer.index "selector").asTexts.getD []).any fun start => tagStarts start outbound

/-- Rules name what is there, balancers start on the blackhole, and nodes are proxies. -/
structure PreparedXray.FailClosed (plan : PreparedXray) : Prop where
  outboundTags : ∀ rule ∈ rulesOf plan.config, ∀ tag, rule.get? "outboundTag" = some tag →
    tag = .str "api" ∨ ∃ outbound ∈ outboundsOf plan.config, outbound.get? "tag" = some tag
  balancerTags : ∀ rule ∈ rulesOf plan.config, ∀ tag, rule.get? "balancerTag" = some tag →
    ∃ balancer ∈ balancersOf plan.config, balancer.get? "tag" = some tag
  selectors : ∀ balancer ∈ balancersOf plan.config,
    selected balancer (outboundsOf plan.config) = [unavailableOutbound]
  nodes : ∀ failover, plan.failover = some failover → ∀ key ∈ failover.nodes,
    ∀ outbound ∈ outboundsOf plan.config, rawTag outbound = some (nodeTag key) →
      isProxyProtocol (protocolOf outbound) = true

/-- The client declares a balancer. -/
def DeclaresBalancer (config : Json) : Prop := ((config.index "routing").get? "balancers").isSome

def XrayConnectParams.hasPool (params : XrayConnectParams) : Bool :=
  params.proxyExits.any fun exit => exit.target.isPool

/-- What a request must have for its config to be closed. -/
structure ClosedRequest (params : XrayConnectParams) (config : Json) : Prop where
  /-- A balancer is declared for those that name it. -/
  declared : (params.failover.isSome ∨ ∃ rule ∈ rulesOf config, (rule.get? "balancerTag").isSome) →
    DeclaresBalancer config
  /-- Where there is a balancer, the blackhole is there and alone with its name. -/
  blackhole : (DeclaresBalancer config ∨ params.hasPool = true) →
    (params.failover.isSome ∨ params.hasPool = true) ∧
      ∀ outbound ∈ outboundsOf config, tagStarts unavailableTag outbound = false
  nodes : params.failover.isSome → ∀ outbound ∈ outboundsOf config,
    tagStarts "node-" outbound = true → isProxyProtocol (protocolOf outbound) = true

section
variable {lib : XrayCrates} {params : XrayConnectParams} {mark : Nat} {plan : PreparedXray}
variable {key : String} {rule : Json} {exit : ProxyExitBinding}
  {config : Json} {outbounds rules : List Json} {reading : XrayReading}
  {root routing : List (String × Json)}

/-! ### The outbounds that rules name -/

/-- The tags that run are those of the client. -/
theorem PreparedFrom.get?_tag
    (h : PreparedFrom lib params mark plan config outbounds rules reading) {outbound : Json}
    (hmem : outbound ∈ outbounds) :
    ∃ outbound' ∈ outboundsOf plan.config, outbound'.get? "tag" = outbound.get? "tag" ∧
      protocolOf outbound' = protocolOf outbound := by
  obtain ⟨marked, hmarked, hout⟩ := h.outbounds_eq
  obtain ⟨outbound', hmem', hsame⟩ := exists_right_of_forall₂ hmarked hmem
  refine ⟨outbound', ?_, hsame.same _ (by decide), hsame.text_eq (by decide)⟩
  rw [hout]
  exact mem_append_left _ hmem'

variable {s : String} {tag : String} (inbounds : List String) (target : String)

theorem get?_of_text? {j : Json} (h : j.text? key = some s) : j.get? key = some (.str s) := by
  rw [Json.text?_eq_bind] at h
  obtain ⟨value, hvalue, htext⟩ := bind_eq_some_iff.mp h
  rw [hvalue, Json.asStr_eq_some.mp htext]

/-- A tag of the client is there at the end. -/
theorem PreparedFrom.named (h : PreparedFrom lib params mark plan config outbounds rules reading)
    (htag : some tag ∈ outbounds.map rawTag) :
    ∃ outbound ∈ outboundsOf plan.config, outbound.get? "tag" = some (.str tag) := by
  obtain ⟨outbound, hmem, hraw⟩ := mem_map.mp htag
  obtain ⟨outbound', hmem', hsame, -⟩ := h.get?_tag hmem
  exact ⟨outbound', hmem', hsame.trans (get?_of_text? hraw)⟩

theorem mem_tags_of_taggedOutbound (h : (taggedOutbound outbounds tag).isSome) :
    some tag ∈ outbounds.map rawTag := by
  obtain ⟨outbound, hmem, hraw⟩ := find?_isSome.mp h
  exact mem_map.mpr ⟨outbound, hmem, of_decide_eq_true hraw⟩

/-- A rule names one outbound and no balancer. -/
structure NamesOutbound (rule : Json) (tag : String) : Prop where
  outbound : rule.get? "outboundTag" = some (.str tag)
  balancer : rule.get? "balancerTag" = none

structure NamesBalancer (rule : Json) (tag : String) : Prop where
  outbound : rule.get? "outboundTag" = none
  balancer : rule.get? "balancerTag" = some (.str tag)

theorem names_forcedOutbound : NamesOutbound (forcedRule inbounds "outboundTag" target) target := by
  constructor <;> simp [forcedRule, Json.object, getField_insertField, getField]

theorem names_forcedBalancer : NamesBalancer (forcedRule inbounds "balancerTag" target) target := by
  constructor <;> simp [forcedRule, Json.object, getField_insertField, getField]

theorem names_failoverRule : NamesBalancer failoverRule failoverBalancer := by
  constructor <;> simp [failoverRule, Json.object, getField_insertField, getField]

theorem jsonString_eq_some {value : Json} (h : jsonString value = some s) : value = .str s := by
  unfold jsonString at h
  exact Json.asStr_eq_some.mp (filter_eq_some_iff.mp h).1

theorem names_of_ruleTargetOk {tags : List (Option String)} (h : ruleTargetOk tags rule = true) :
    (∃ tag, NamesOutbound rule tag ∧ some tag ∈ tags) ∨ NamesBalancer rule failoverBalancer := by
  unfold ruleTargetOk at h
  split at h
  · rename_i value houtbound hbalancer
    obtain ⟨tag, htag, hmem⟩ := (any_eq_true _ _).mp h
    rw [jsonString_eq_some htag] at houtbound
    exact .inl ⟨tag, ⟨houtbound, hbalancer⟩, by simpa using hmem⟩
  · rename_i value houtbound hbalancer
    rw [decide_eq_true_eq] at h
    rw [jsonString_eq_some h] at hbalancer
    exact .inr ⟨houtbound, hbalancer⟩
  · cases h

/-- The rule of an exit names an outbound that is there, or the balancer of its pool. -/
theorem names_exitRule
    (hbindable : bindable outbounds exit.target = true) (hrule : exitRule exit = some rule) :
    (∃ tag, NamesOutbound rule tag ∧ some tag ∈ outbounds.map rawTag) ∨
      exit.target.isPool = true ∧ NamesBalancer rule (balancerTag exit.name) := by
  unfold bindable at hbindable
  rw [Bool.and_eq_true] at hbindable
  obtain ⟨hkeys, hdirect⟩ := hbindable
  unfold exitRule at hrule
  cases htarget : exit.target with
  | rules =>
    rw [htarget] at hrule
    cases hrule
  | node key =>
    rw [htarget] at hrule hkeys
    cases hrule
    simp only [ProxyTarget.endpointKeys, all_cons, all_nil, Bool.and_true] at hkeys
    refine .inl ⟨pinTag key, names_forcedOutbound _ _, mem_tags_of_taggedOutbound ?_⟩
    exact isSome_of_any hkeys
  | pool keys =>
    rw [htarget] at hrule
    cases hrule
    exact .inr ⟨rfl, names_forcedBalancer _ _⟩
  | direct =>
    rw [htarget] at hrule hdirect
    cases hrule
    have hthere : ((taggedOutbound outbounds "direct").any fun direct =>
        direct.text? "protocol" = some "freedom" && dialsItself direct) = true := by
      simpa using hdirect
    refine .inl ⟨"direct", names_forcedOutbound _ _, mem_tags_of_taggedOutbound ?_⟩
    exact isSome_of_any hthere

theorem mem_tags_of_pinnedKeysOf (h : key ∈ pinnedKeysOf outbounds) :
    some (pinTag key) ∈ outbounds.map rawTag := by
  obtain ⟨outbound, hmem, htag⟩ := mem_filterMap.mp h
  obtain ⟨tag, hraw, hstrip⟩ := bind_eq_some_iff.mp htag
  refine mem_map.mpr ⟨outbound, (mem_filter.mp hmem).1, ?_⟩
  rw [rawTag, hraw, stripPrefix_eq_some hstrip]
  rfl

section
variable (h : PreparedFrom lib params mark plan config outbounds rules reading)
include h

theorem PreparedFrom.mem_tags_of_node (hkey : key ∈ reading.nodes) :
    some (nodeTag key) ∈ outbounds.map rawTag := by
  cases hfailover : params.failover with
  | none =>
    rw [h.read.no_nodes hfailover] at hkey
    cases hkey
  | some failover =>
    obtain ⟨hnodes, hchecked⟩ := h.read.failover failover hfailover
    have hdeclared := hchecked.declared
    unfold nodesDeclared at hdeclared
    rw [Bool.and_eq_true, List.all_eq_true] at hdeclared
    rw [hnodes] at hkey
    exact mem_tags_of_taggedOutbound (hdeclared.1 key hkey)

/-- What the rules that run can name. -/
theorem PreparedFrom.names (hmem : rule ∈ rulesOf plan.config) :
    (∃ tag, NamesOutbound rule tag ∧ (tag = "api" ∨ some tag ∈ outbounds.map rawTag)) ∨
      NamesBalancer rule failoverBalancer ∧ (params.failover.isSome ∨ rule ∈ rules) ∨
      ∃ exit ∈ reading.exits, exit.target.isPool = true ∧
        NamesBalancer rule (balancerTag exit.name) := by
  obtain ⟨root, routing, hgen⟩ := h.generated
  obtain ⟨name, mtu, fakedns, hrewritten⟩ := h.rewritten
  rw [hrewritten.rules] at hmem
  simp only [controlRules, mem_append, mem_filterMap, mem_cons, List.mem_map] at hmem
  rcases hmem with
    ⟨exit, hexit, hrule⟩ | ((((rfl | ⟨key, hkey, rfl⟩) | ⟨key, hkey, rfl⟩) | hclient) | hlast)
  · have hbindable : bindable outbounds exit.target = true := by
      rw [h.read.exits] at hexit
      obtain ⟨named, hnamed, rfl⟩ := mem_map.mp hexit
      exact h.read.exits_bindable named hnamed
    rcases names_exitRule hbindable hrule with ⟨tag, hnames, hthere⟩ | ⟨hpool, hnames⟩
    · exact .inl ⟨tag, hnames, .inr hthere⟩
    · exact .inr (.inr ⟨exit, hexit, hpool, hnames⟩)
  · exact .inl ⟨"api", names_forcedOutbound _ _, .inl rfl⟩
  · exact .inl ⟨_, names_forcedOutbound _ _, .inr (h.mem_tags_of_node hkey)⟩
  · rw [h.read.pinned] at hkey
    exact .inl ⟨_, names_forcedOutbound _ _, .inr (mem_tags_of_pinnedKeysOf hkey)⟩
  · rcases names_of_ruleTargetOk (hgen.targets rule hclient) with ⟨tag, hnames, hthere⟩ | hnames
    · exact .inl ⟨tag, hnames, .inr hthere⟩
    · exact .inr (.inl ⟨hnames, .inr hclient⟩)
  · split at hlast
    · rename_i hfailover
      rw [mem_singleton] at hlast
      rw [h.read.failover_isSome] at hfailover
      rw [hlast]
      exact .inr (.inl ⟨names_failoverRule, .inl hfailover⟩)
    · cases hlast

/-- Every outbound that a rule names is there. -/
theorem PreparedFrom.outboundTags :
    ∀ rule ∈ rulesOf plan.config, ∀ tag, rule.get? "outboundTag" = some tag →
      tag = .str "api" ∨ ∃ outbound ∈ outboundsOf plan.config, outbound.get? "tag" = some tag := by
  intro rule hmem tag htag
  rcases h.names hmem with ⟨named, hnames, hthere⟩ | ⟨hnames, -⟩ | ⟨exit, -, -, hnames⟩
  · rw [hnames.outbound] at htag
    cases htag
    rcases hthere with rfl | hthere
    · exact .inl rfl
    · exact .inr (h.named hthere)
  · rw [hnames.outbound] at htag
    cases htag
  · rw [hnames.outbound] at htag
    cases htag

end

/-! ### The balancers -/

section
variable (hgen : Generated config root routing outbounds rules)
include hgen

theorem Generated.outboundsOf_eq : outboundsOf config = outbounds := by
  rw [outboundsOf, hgen.config_eq, Json.index_obj, hgen.outbounds_eq]
  rfl

theorem Generated.rulesOf_eq : rulesOf config = rules := by
  rw [rulesOf, hgen.config_eq, Json.index_obj, hgen.routing_eq, getD_some, Json.index_obj,
    hgen.rules_eq]
  rfl

/-- A client declares no balancer, or the one that is accepted. -/
theorem Generated.balancersOf_cases : (¬DeclaresBalancer config ∧ balancersOf config = []) ∨
      DeclaresBalancer config ∧ ∃ balancer, balancersOf config = [balancer] ∧
        balancer.text? "tag" = some failoverBalancer ∧
        balancer.index "selector" = .texts [unavailableTag] := by
  have hdeclared := hgen.declared_eq
  have hget : (config.index "routing").get? "balancers" = getField "balancers" routing := by
    rw [hgen.config_eq, Json.index_obj, hgen.routing_eq]
    rfl
  unfold DeclaresBalancer
  rw [hget]
  cases hbalancers : getField "balancers" routing with
  | none =>
    rw [hbalancers] at hdeclared
    exact .inl ⟨by simp, (Json.arr.inj hdeclared).symm⟩
  | some declared =>
    obtain ⟨balancer, rfl, htag, hselector⟩ := hgen.balancers declared hbalancers
    rw [hbalancers] at hdeclared
    exact .inr ⟨rfl, balancer, (Json.arr.inj hdeclared).symm, htag, hselector⟩

end

/-- The balancer of a pool. -/
theorem poolBalancer_eq_some {balancer : Json} (h : poolBalancer exit = some balancer) :
    exit.target.isPool = true ∧ balancer.text? "tag" = some (balancerTag exit.name) ∧
      balancer.index "selector" = .texts [unavailableTag] := by
  unfold poolBalancer at h
  split at h
  · rename_i hpool
    cases h
    exact ⟨hpool, by simp [Json.object, getField_insertField], by simp [Json.object]⟩
  · cases h

theorem exists_poolBalancer (hpool : exit.target.isPool = true) :
    ∃ balancer, poolBalancer exit = some balancer := by
  rw [poolBalancer, if_pos hpool]
  exact ⟨_, rfl⟩

theorem PreparedFrom.hasPool_eq
    (h : PreparedFrom lib params mark plan config outbounds rules reading) :
    reading.hasPool = params.hasPool := by
  rw [XrayReading.hasPool, h.read.exits, List.any_map]
  rfl

/-- The tag of a pool is not that of the failover. -/
theorem balancerTag_ne_failover (name : String) : balancerTag name ≠ failoverBalancer := by
  intro heq
  have hhead := congrArg (fun s : String => s.toList.head?) heq
  simp [balancerTag, failoverBalancer] at hhead

section
variable (h : PreparedFrom lib params mark plan config outbounds rules reading)

include h

theorem PreparedFrom.balancersOf_eq :
    balancersOf plan.config = balancersOf config ++ reading.exits.filterMap poolBalancer := by
  obtain ⟨name, mtu, fakedns, hrewritten⟩ := h.rewritten
  exact hrewritten.balancers

/-- The balancer of the failover is there where the client declares it. -/
theorem PreparedFrom.failover_there_iff : (∃ balancer ∈ balancersOf plan.config,
        balancer.get? "tag" = some (.str failoverBalancer)) ↔ DeclaresBalancer config := by
  obtain ⟨root, routing, hgen⟩ := h.generated
  rw [h.balancersOf_eq]
  constructor
  · intro hthere
    obtain ⟨balancer, hmem, htag⟩ := hthere
    rcases mem_append.mp hmem with hmem | hmem
    · rcases hgen.balancersOf_cases with ⟨-, hnone⟩ | ⟨hdeclared, -⟩
      · rw [hnone] at hmem
        cases hmem
      · exact hdeclared
    · obtain ⟨exit, -, hexit⟩ := mem_filterMap.mp hmem
      rw [get?_of_text? (poolBalancer_eq_some hexit).2.1] at htag
      exact absurd (Json.str.inj (Option.some.inj htag)) (balancerTag_ne_failover exit.name)
  · intro hdeclared
    rcases hgen.balancersOf_cases with ⟨hnot, -⟩ | ⟨-, balancer, heq, htag, -⟩
    · exact absurd hdeclared hnot
    · exact ⟨balancer, by simp [heq], get?_of_text? htag⟩

/-- Rules name balancers that are there, if the failover's is declared for those that name it. -/
theorem PreparedFrom.balancerTags_iff :
    (∀ rule ∈ rulesOf plan.config, ∀ tag, rule.get? "balancerTag" = some tag →
        ∃ balancer ∈ balancersOf plan.config, balancer.get? "tag" = some tag) ↔
      ((params.failover.isSome ∨ ∃ rule ∈ rulesOf config, (rule.get? "balancerTag").isSome) →
        DeclaresBalancer config) := by
  obtain ⟨root, routing, hgen⟩ := h.generated
  obtain ⟨name, mtu, fakedns, hrewritten⟩ := h.rewritten
  rw [hgen.rulesOf_eq]
  constructor
  · intro hclosed hneeded
    rw [← h.failover_there_iff]
    rcases hneeded with hfailover | ⟨rule, hmem, hnamed⟩
    · have hlast : failoverRule ∈ rulesOf plan.config := by
        rw [hrewritten.rules, h.read.failover_isSome, hfailover]
        simp
      exact hclosed failoverRule hlast _ names_failoverRule.balancer
    · have hthere : rule ∈ rulesOf plan.config := by
        rw [hrewritten.rules]
        simp [hmem]
      rcases names_of_ruleTargetOk (hgen.targets rule hmem) with ⟨tag, hnames, -⟩ | hnames
      · rw [hnames.balancer] at hnamed
        cases hnamed
      · exact hclosed rule hthere _ hnames.balancer
  · intro hdeclared rule hmem tag htag
    rcases h.names hmem with ⟨named, hnames, -⟩ | ⟨hnames, hneeded⟩ | ⟨exit, hexit, hpool, hnames⟩
    · rw [hnames.balancer] at htag
      cases htag
    · rw [hnames.balancer] at htag
      cases htag
      rw [h.failover_there_iff]
      refine hdeclared (hneeded.imp id fun hclient => ⟨rule, hclient, ?_⟩)
      rw [hnames.balancer]
      rfl
    · rw [hnames.balancer] at htag
      cases htag
      obtain ⟨balancer, hbalancer⟩ := exists_poolBalancer hpool
      refine ⟨balancer, ?_, get?_of_text? (poolBalancer_eq_some hbalancer).2.1⟩
      rw [h.balancersOf_eq]
      exact mem_append_right _ (mem_filterMap.mpr ⟨exit, hexit, hbalancer⟩)

/-- Every balancer selects by the name of the blackhole. -/
theorem PreparedFrom.selected_eq {balancer : Json} (hmem : balancer ∈ balancersOf plan.config) :
    selected balancer (outboundsOf plan.config) =
      (outboundsOf plan.config).filter (tagStarts unavailableTag) := by
  have hselector : balancer.index "selector" = .texts [unavailableTag] := by
    obtain ⟨root, routing, hgen⟩ := h.generated
    rw [h.balancersOf_eq] at hmem
    rcases mem_append.mp hmem with hmem | hmem
    · rcases hgen.balancersOf_cases with ⟨-, hnone⟩ | ⟨-, declared, heq, -, hselector⟩
      · rw [hnone] at hmem
        cases hmem
      · rw [heq, mem_singleton] at hmem
        rw [hmem]
        exact hselector
    · obtain ⟨exit, -, hexit⟩ := mem_filterMap.mp hmem
      exact (poolBalancer_eq_some hexit).2.2
  rw [selected, hselector, Json.asTexts_texts]
  simp

/-- The blackhole is selected alone where it is there and no client tag starts with its name. -/
theorem PreparedFrom.filter_unavailable_iff :
    (outboundsOf plan.config).filter (tagStarts unavailableTag) = [unavailableOutbound] ↔
      (params.failover.isSome ∨ params.hasPool = true) ∧
        ∀ outbound ∈ outboundsOf config, tagStarts unavailableTag outbound = false := by
  obtain ⟨root, routing, hgen⟩ := h.generated
  obtain ⟨marked, hmarked, hout⟩ := h.outbounds_eq
  have hstart : ∀ {outbound outbound'}, Marked mark outbound outbound' →
      tagStarts unavailableTag outbound' = tagStarts unavailableTag outbound := by
    intro outbound outbound' hsame
    rw [tagStarts, tagStarts, rawTag, rawTag, hsame.text_eq (by decide)]
  have hnone : marked.filter (tagStarts unavailableTag) = [] ↔
      ∀ outbound ∈ outbounds, tagStarts unavailableTag outbound = false := by
    rw [filter_eq_nil_iff]
    constructor
    · intro hall outbound hmem
      obtain ⟨outbound', hmem', hsame⟩ := exists_right_of_forall₂ hmarked hmem
      rw [← hstart hsame]
      simpa using hall outbound' hmem'
    · intro hall outbound' hmem'
      obtain ⟨outbound, hmem, hsame⟩ := exists_left_of_forall₂ hmarked hmem'
      rw [hstart hsame, hall outbound hmem]
      simp
  have hneeded : (reading.failover.isSome || reading.hasPool) = true ↔
      params.failover.isSome ∨ params.hasPool = true := by
    rw [h.read.failover_isSome, h.hasPool_eq, Bool.or_eq_true]
  have hown : tagStarts unavailableTag unavailableOutbound = true := by decide
  rw [hgen.outboundsOf_eq, hout, filter_append, ← hneeded, ← hnone]
  by_cases hthere : (reading.failover.isSome || reading.hasPool) = true
  · rw [if_pos hthere]
    simp [hown, hthere]
  · rw [if_neg hthere]
    simp only [filter_nil, append_nil, hthere, Bool.false_eq_true, false_and, iff_false]
    -- the client has no outbound of that name
    intro hsingle
    have hmem : unavailableOutbound ∈ marked := by
      have hmem := mem_singleton_self unavailableOutbound
      rw [← hsingle] at hmem
      exact (mem_filter.mp hmem).1
    obtain ⟨outbound, hclient, hsame⟩ := exists_left_of_forall₂ hmarked hmem
    have htag := hgen.tag_ne_unavailable hclient
    rw [rawTag, ← hsame.text_eq (by decide)] at htag
    exact htag (by decide)

theorem PreparedFrom.selectors_iff : (∀ balancer ∈ balancersOf plan.config,
        selected balancer (outboundsOf plan.config) = [unavailableOutbound]) ↔
      ((DeclaresBalancer config ∨ params.hasPool = true) →
        (params.failover.isSome ∨ params.hasPool = true) ∧
          ∀ outbound ∈ outboundsOf config, tagStarts unavailableTag outbound = false) := by
  obtain ⟨root, routing, hgen⟩ := h.generated
  rw [← h.filter_unavailable_iff]
  have hsome : (∃ balancer, balancer ∈ balancersOf plan.config) ↔
      DeclaresBalancer config ∨ params.hasPool = true := by
    rw [h.balancersOf_eq, ← h.hasPool_eq]
    simp only [mem_append, exists_or]
    refine or_congr ?_ ?_
    · rcases hgen.balancersOf_cases with ⟨hnot, hnone⟩ | ⟨hdeclared, balancer, heq, -⟩
      · simp [hnone, hnot]
      · simp [heq, hdeclared]
    · rw [XrayReading.hasPool, List.any_eq_true]
      constructor
      · intro hthere
        obtain ⟨balancer, hmem⟩ := hthere
        obtain ⟨exit, hexit, hbalancer⟩ := mem_filterMap.mp hmem
        exact ⟨exit, hexit, (poolBalancer_eq_some hbalancer).1⟩
      · intro hthere
        obtain ⟨exit, hexit, hpool⟩ := hthere
        obtain ⟨balancer, hbalancer⟩ := exists_poolBalancer hpool
        exact ⟨balancer, mem_filterMap.mpr ⟨exit, hexit, hbalancer⟩⟩
  rw [← hsome]
  constructor
  · intro hall hthere
    obtain ⟨balancer, hmem⟩ := hthere
    rw [← h.selected_eq hmem]
    exact hall balancer hmem
  · intro hall balancer hmem
    rw [h.selected_eq hmem]
    exact hall ⟨balancer, hmem⟩

/-- The nodes are proxies where each client outbound with a node's tag is one. -/
theorem PreparedFrom.nodes_iff :
    (∀ failover, plan.failover = some failover → ∀ key ∈ failover.nodes,
        ∀ outbound ∈ outboundsOf plan.config, rawTag outbound = some (nodeTag key) →
          isProxyProtocol (protocolOf outbound) = true) ↔
      (params.failover.isSome → ∀ outbound ∈ outboundsOf config,
        tagStarts "node-" outbound = true → isProxyProtocol (protocolOf outbound) = true) := by
  obtain ⟨root, routing, hgen⟩ := h.generated
  obtain ⟨marked, hmarked, hout⟩ := h.outbounds_eq
  have hisSome : plan.failover.isSome = params.failover.isSome := by
    rw [h.failover_eq, h.read.failover_isSome]
  rw [hgen.outboundsOf_eq]
  constructor
  · intro hproxies hfailover outbound hmem hstart
    obtain ⟨tag, htag, hstrip⟩ := (any_eq_true _ _).mp hstart
    obtain ⟨key, hkey⟩ := isSome_iff_exists.mp hstrip
    obtain ⟨request, hrequest⟩ := isSome_iff_exists.mp hfailover
    obtain ⟨failover, hplan⟩ := isSome_iff_exists.mp (hisSome.trans hfailover)
    obtain ⟨hnodes, hchecked⟩ := h.read.failover request hrequest
    -- a node's tag is only there with a declared key
    have hdeclared := hchecked.declared
    unfold nodesDeclared at hdeclared
    rw [Bool.and_eq_true, List.all_eq_true, List.all_eq_true] at hdeclared
    have hnode : key ∈ request.nodes := by
      have hcontains := hdeclared.2 outbound hmem
      unfold rawTag at htag
      rw [htag, bind_some, hkey, all_some] at hcontains
      simpa using hcontains
    have hsame : failover.nodes = reading.nodes := by
      rw [XrayReading.nodes, ← h.failover_eq, hplan]
      rfl
    obtain ⟨outbound', hmem', hrelated⟩ := exists_right_of_forall₂ hmarked hmem
    have hthere : outbound' ∈ outboundsOf plan.config := by
      rw [hout]
      exact mem_append_left _ hmem'
    have htag' : rawTag outbound' = some (nodeTag key) := by
      rw [rawTag, hrelated.text_eq (by decide), ← rawTag, htag, stripPrefix_eq_some hkey]
      rfl
    have hproxy := hproxies failover hplan key (by rw [hsame, hnodes]; exact hnode) outbound' hthere
      htag'
    rwa [protocolOf, hrelated.text_eq (by decide)] at hproxy
  · intro hproxies failover hplan key hkey outbound' hmem' htag'
    have hfailover : params.failover.isSome = true := by
      rw [← hisSome, hplan]
      rfl
    rw [hout] at hmem'
    rcases mem_append.mp hmem' with hmem' | hmem'
    · obtain ⟨outbound, hmem, hrelated⟩ := exists_left_of_forall₂ hmarked hmem'
      rw [protocolOf, hrelated.text_eq (by decide)]
      rw [rawTag, hrelated.text_eq (by decide)] at htag'
      refine hproxies hfailover outbound hmem ?_
      have hstrip : stripPrefix "node-" (nodeTag key) = some key := stripPrefix_append "node-" key
      rw [tagStarts, rawTag, htag', any_some, hstrip]
      rfl
    · split at hmem'
      · rw [mem_singleton] at hmem'
        -- the blackhole is no node
        have hblackhole : rawTag unavailableOutbound = some unavailableTag := by decide
        have hnone : stripPrefix "node-" unavailableTag = none := by decide
        have hstrip : stripPrefix "node-" (nodeTag key) = some key := stripPrefix_append "node-" key
        rw [hmem', hblackhole] at htag'
        rw [← Option.some.inj htag', hnone] at hstrip
        cases hstrip
      · cases hmem'

end

/-- A prepared config is closed exactly where the client declares the balancer that rules name,
the blackhole is there for the balancers and alone with its name, and the nodes are proxies. -/
theorem failClosed_iff {uid : Nat} (h : prepareXray lib uid params mark = .ok plan)
    (hconfig : lib.parseJson params.config = some config) :
    plan.FailClosed ↔ ClosedRequest params config := by
  obtain ⟨parsed, outbounds, rules, reading, hfrom⟩ := preparedFrom_of_prepareXray h
  have hsame : parsed = config := Option.some.inj (hfrom.parsed.symm.trans hconfig)
  subst hsame
  constructor
  · intro hclosed
    exact ⟨hfrom.balancerTags_iff.mp hclosed.balancerTags, hfrom.selectors_iff.mp hclosed.selectors,
      hfrom.nodes_iff.mp hclosed.nodes⟩
  · intro hready
    exact ⟨hfrom.outboundTags, hfrom.balancerTags_iff.mpr hready.declared,
      hfrom.selectors_iff.mpr hready.blackhole, hfrom.nodes_iff.mpr hready.nodes⟩

theorem ferry_failClosed :
    ∃ plan, prepareXray (ferryCrates true) 1000 (ferryRequest true) 51820 = .ok plan ∧
      plan.FailClosed := by
  obtain ⟨plan, hplan⟩ := ferry_prepared true
  have hready : ClosedRequest (ferryRequest true) (ferryConfig true) := by
    constructor
    case declared => exact fun _ => rfl
    case blackhole => exact fun _ => ⟨.inl rfl, by decide⟩
    case nodes => exact fun _ => by decide
  exact ⟨plan, hplan, (failClosed_iff hplan rfl).mpr hready⟩

/-- A failover without a declared balancer is accepted, and its catch-all names nothing. -/
theorem undeclared_failover :
    ∃ plan, prepareXray (ferryCrates false) 1000 (ferryRequest false) 51820 = .ok plan ∧
      ¬plan.FailClosed := by
  obtain ⟨plan, hplan⟩ := ferry_prepared false
  refine ⟨plan, hplan, fun hclosed => ?_⟩
  obtain ⟨config, outbounds, rules, reading, hfrom⟩ := preparedFrom_of_prepareXray hplan
  have hconfig : config = ferryConfig false := (Option.some.inj hfrom.parsed).symm
  have hdeclared := hfrom.balancerTags_iff.mp hclosed.balancerTags (.inl rfl)
  rw [hconfig] at hdeclared
  exact absurd hdeclared (by unfold DeclaresBalancer; decide)

end

end NetOrchestrator.Daemon
