import NetOrchestrator.Proofs.RouteCheck
import NetOrchestrator.Proofs.PinnedRoutes

/-!
# `Proofs.SimulatorAgrees`: the route check and the generated rules

The check and the rule generator walk the same policies and pins. They part in two places. The
check takes the multicast rule to be emitted where there are policies, and the generator leaves
it out where these hold nothing but comments. And a resolver whose host starts like a selector
(`[domain:example.com]`) is a selector in its rule, and a plain name to the check.

`simulator_agrees_iff` says that a certain report names the outbound that the rules choose except there.
-/

namespace NetOrchestrator.Core

open Net Lib List Option Checks
open Daemon (asciiLower stripPrefix)

/-! ### Views of a target -/

/-- The view of a connection to a target. Selectors that cannot be told may read either way. -/
structure View.Reads (text : NetText) (geo : GeoDbs) (seen : Seen) (port : Option Nat)
    (view : View) : Prop where
  port : ∀ named, view.port named = port.any fun p => named == toString p
  network : ∃ network ∈ ["tcp", "udp"], ∀ named,
    view.network named = (named == network || named == "tcp,udp")
  selectors : Extends (seen.known text geo) view.hits

/-- A view that reads selectors in a given way. -/
def viewWith (port : Option Nat) (network : String) (hits : Test → Bool) : View where
  port := fun named => port.any fun p => named == toString p
  network := fun named => named == network || named == "tcp,udp"
  domain := fun selector => hits (.domain, selector)
  ip := fun selector => hits (.ip, selector)

theorem hits_viewWith (port : Option Nat) (network : String) (hits : Test → Bool) :
    (viewWith port network hits).hits = hits := by
  funext test
  obtain ⟨kind, selector⟩ := test
  cases kind <;> rfl

section
variable {text : NetText} {geo : GeoDbs} {seen : Seen} {port : Option Nat} {view : View}

theorem viewWith_reads (port : Option Nat) {network : String} {hits : Test → Bool}
    (hnetwork : network ∈ ["tcp", "udp"]) (h : Extends (seen.known text geo) hits) :
    (viewWith port network hits).Reads text geo seen port :=
  ⟨fun _ => rfl, ⟨network, hnetwork, fun _ => rfl⟩, by rwa [hits_viewWith]⟩

theorem View.Reads.port_eq (h : view.Reads text geo seen port) (n : Nat) :
    view.port (toString n) = (port == some n) := by
  rw [h.port]
  cases port with
  | none => rfl
  | some p =>
    have heq : (toString n == toString p) = (p == n) := by
      by_cases hp : p = n
      · simp [hp]
      · have hne : ¬toString n = toString p := fun heq => hp (repr_injective heq).symm
        rw [beq_eq_false_iff_ne.mpr hne, beq_eq_false_iff_ne.mpr hp]
    simpa using heq

/-- The capture takes the port just where the check says so. -/
theorem View.Reads.captured_eq (h : view.Reads text geo seen port) (options : ProfileRoutingOptions) :
    (dnsActive options && view.port "53") = captured options port := by
  have hport := h.port_eq 53
  rw [captured, ← hport]
  rfl

end

/-! ### Resolver pins -/

theorem all_targetChar_of_host {cs : List Char} {host : String}
    (h : targetOfHost cs = .ok (.domain host)) : host.toList.all targetChar = true := by
  unfold targetOfHost at h
  simp only at h
  split at h
  · cases h
  · split at h
    · cases h
    · split at h
      · cases h
      · rename_i hchars
        obtain rfl := CheckTarget.domain.inj (Except.ok.inj h)
        simp only [Bool.or_eq_true, not_or] at hchars
        simpa using hchars.2

theorem colon_not_mem_of_parseTarget {raw host : String} {port : Option Nat}
    (h : parseTarget raw = .ok (.domain host, port)) : ':' ∉ host.toList := by
  unfold parseTarget at h
  split at h
  · cases h
  · split at h
    · cases h
    · obtain ⟨⟨name, p⟩, -, h⟩ := bind_eq_ok.mp h
      obtain ⟨target, htarget, h⟩ := bind_eq_ok.mp h
      cases h
      intro hcolon
      have hchar := all_eq_true.mp (all_targetChar_of_host htarget) _ hcolon
      exact absurd hchar (by decide)

theorem mem_host_of_suffixMatch {host pattern : String} {c : Char}
    (h : domainSuffixMatch host pattern = true) (hc : c ∈ pattern.toList) : c ∈ host.toList := by
  rcases Bool.or_eq_true_iff.mp h with heq | hsuffix
  · rw [beq_iff_eq] at heq
    rwa [heq]
  · unfold stripSuffix at hsuffix
    split at hsuffix
    · rename_i hpattern
      exact (isSuffixOf_iff_suffix.mp hpattern).subset hc
    · cases hsuffix

/-- A pin that matches as a name is read as a name. -/
theorem evalDomainSelector_of_suffixMatch {host value : String} (hcolon : ':' ∉ host.toList)
    (geo : GeoDbs) (h : domainSuffixMatch host (asciiLower value) = true) :
    evalDomainSelector value host geo = .matched := by
  have hvalue : ':' ∉ value.toList := by
    intro hmem
    refine hcolon (mem_host_of_suffixMatch h ?_)
    have hlower : (':' : Char).toLower = ':' := by decide
    rw [asciiLower, String.toList_ofList, ← hlower]
    exact mem_map_of_mem hmem
  have hprefix : ∀ start : String, ':' ∈ start.toList → stripPrefix start value = none := by
    intro start hstart
    cases hstrip : stripPrefix start value with
    | none => rfl
    | some rest =>
      have heq := Daemon.stripPrefix_eq_some hstrip
      refine absurd ?_ hvalue
      rw [heq]
      simp [hstart]
  rw [evalDomainSelector, hprefix "domain:" (by decide), hprefix "full:" (by decide),
    hprefix "keyword:" (by decide), hprefix "regexp:" (by decide), hprefix "geosite:" (by decide), h]
  rfl

section
variable {text : NetText} {geo : GeoDbs}

/-- Where the check finds a pin to match a name, its rule does. -/
theorem known_of_pinKnown {host : String} {resolves : Bool} (hcolon : ':' ∉ host.toList)
    {destination : Test} (h : pinKnown text geo resolves (.domain host) destination = some true) :
    (CheckTarget.domain host).seen.known text geo destination = some true := by
  obtain ⟨kind, value⟩ := destination
  cases kind with
  | domain =>
    have hmatch : domainSuffixMatch host (asciiLower value) = true := by
      simpa [pinKnown, pinOutcome] using h
    show (evalDomainSelector value host geo).known = some true
    rw [evalDomainSelector_of_suffixMatch hcolon geo hmatch]
    rfl
  | ip => cases resolves <;> cases h

/-- Addresses are matched alike by the check and by the pins' rules. -/
theorem pinKnown_ip (resolves : Bool) (addr : IpAddr) :
    pinKnown text geo resolves (.ip addr) = (CheckTarget.ip addr).seen.known text geo := by
  funext destination
  obtain ⟨kind, value⟩ := destination
  cases kind <;> rfl

end

/-! ### When the multicast rule is emitted -/

variable (text : NetText) (geo : GeoDbs)

/-- There are policies, but nothing that a rule is made of. -/
def OnlyComments (policies : List DomainPolicy) (options : ProfileRoutingOptions) : Prop :=
  policies ≠ [] ∧ (∀ policy ∈ policies, selectorTests text policy.domains = []) ∧
    options.privateLanDirect = false ∧ dnsActive options = false

section
variable {text : NetText} {policies : List DomainPolicy} {options : ProfileRoutingOptions}

/-- The options that the check looks at: no guards and no interface routes. -/
structure Plain (options : ProfileRoutingOptions) : Prop where
  guards : options.trafficRules = []
  interfaces : options.interfaceRoutes = []

theorem selectorBodies_eq_nil {selectors : List String} {parts : List String × List String}
    (h : splitSelectors text selectors = .ok parts) :
    selectorBodies text selectors = [] ↔ selectorTests text selectors = [] := by
  obtain ⟨domains, ips⟩ := parts
  rw [selectorTests_eq_nil h, selectorBodies, h]
  cases domains <;> cases ips <;> simp

theorem pinIntended_nil_of_inactive (h : dnsActive options = false) :
    options.dns.servers.filterMap pinIntended = [] := by
  simp only [dnsActive, XrayDnsConfig.isEmpty, Bool.not_eq_false', Bool.and_eq_true,
    List.isEmpty_iff] at h
  rw [h.1.1.1.1.1.1]
  rfl

section
variable (hplain : Plain options) (hsplits : Splits text policies options)
include hplain hsplits

/-- Whether the rules block multicast addresses, for the options that the check looks at. -/
theorem multicastEmitted_iff : multicastEmitted text policies options = false ↔
      (∀ policy ∈ policies, selectorTests text policy.domains = []) ∧
        options.privateLanDirect = false ∧ dnsActive options = false := by
  have hpolicies : (policies.flatMap fun policy =>
      (selectorBodies text policy.domains).map (Intended.mk (.shared policy.target.destination))) =
        [] ↔ ∀ policy ∈ policies, selectorTests text policy.domains = [] := by
    rw [List.flatMap_eq_nil_iff]
    refine forall₂_congr fun policy hpolicy => ?_
    obtain ⟨parts, hparts⟩ := hsplits.policies policy hpolicy
    rw [List.map_eq_nil_iff, selectorBodies_eq_nil hparts]
  rw [multicastEmitted, Bool.or_eq_false_iff, Bool.not_eq_false', List.isEmpty_iff, profileRules,
    hplain.guards, hplain.interfaces]
  cases hdns : dnsActive options with
  | true => simp
  | false =>
    rw [pinIntended_nil_of_inactive hdns]
    simp only [List.map_nil, List.flatMap_nil, List.nil_append, List.append_nil, hpolicies,
      Bool.false_eq_true, if_false, and_true]

theorem onlyComments_iff : OnlyComments text policies options ↔
      rulesEmitted policies options = true ∧ multicastEmitted text policies options = false := by
  rw [multicastEmitted_iff hplain hsplits]
  constructor
  · intro ⟨hne, htests, hlan, hdns⟩
    exact ⟨by simp [rulesEmitted, hne], htests, hlan, hdns⟩
  · intro ⟨hemitted, htests, hlan, hdns⟩
    refine ⟨?_, htests, hlan, hdns⟩
    simpa [rulesEmitted, hlan, hdns] using hemitted

theorem rulesEmitted_of_multicastEmitted (h : multicastEmitted text policies options = true) :
    rulesEmitted policies options = true := by
  by_contra hnot
  have hfalse : multicastEmitted text policies options = false := by
    rw [multicastEmitted_iff hplain hsplits]
    simp only [rulesEmitted, Bool.or_eq_true, Bool.not_eq_true', not_or, Bool.not_eq_true,
      Bool.not_eq_false, List.isEmpty_iff] at hnot
    obtain ⟨⟨hpolicies, hlan⟩, hdns⟩ := hnot
    exact ⟨by simp [hpolicies], hlan, hdns⟩
  rw [h] at hfalse
  cases hfalse

end

/-- The networks of the built-in rules are prefixes as the crate writes them. -/
theorem exists_render_of_mem {selector : String} (h : selector ∈ multicastNets ++ privateNets) :
    ∃ net, renderNet net = selector := by
  have hall : ∀ s ∈ multicastNets ++ privateNets,
      ((parseNet s).any fun net => renderNet net == s) = true := by decide
  obtain ⟨net, -, hnet⟩ := (any_eq_true _ _).mp (hall selector h)
  exact ⟨net, by simpa using hnet⟩

theorem any_nets_hits (nets : List String) (hlawful : text.Lawful) {geo : GeoDbs} {seen : Seen}
    {addr : IpAddr} {hits : Test → Bool} (hseen : seen.addr = some addr) (h : Extends (seen.known text geo) hits)
    (hnets : ∀ s ∈ nets, s ∈ multicastNets ++ privateNets) :
    (nets.map fun net => ((.ip, net) : Test)).any hits = anyNetContains text nets addr := by
  induction nets with
  | nil => rfl
  | cons s rest ih =>
    obtain ⟨net, rfl⟩ := exists_render_of_mem (hnets s (by simp))
    have hparse := hlawful.parse_render net
    have heval := evalIpSelector_render geo hlawful net addr
    rw [hlawful.render_eq] at hparse heval
    have hknown : seen.known text geo (.ip, renderNet net) = some (net.containsAddr addr) := by
      simp [Seen.known, hseen, heval]
    have hrest := ih fun s hs => hnets s (by simp [hs])
    rw [map_cons, any_cons, hrest, h _ _ hknown, anyNetContains, anyNetContains,
      filterMap_cons, hparse]
    rfl

end

/-! ### The rules of a plain profile -/

/-- What the built-in rules decide for an address. -/
def emittedAim (text : NetText) (policies : List DomainPolicy) (options : ProfileRoutingOptions)
    (addr : IpAddr) : Option Aim :=
  if multicastEmitted text policies options && anyNetContains text multicastNets addr then
    some (.shared .block)
  else if options.privateLanDirect && anyNetContains text privateNets addr then
    some (.shared .direct) else none

/-- What the rules of a plain profile decide where these tests hit. -/
def decidedAim (text : NetText) (policies : List DomainPolicy) (options : ProfileRoutingOptions)
    (port : Option Nat) (hits : Test → Bool) : Option Aim :=
  if captured options port then some (.shared .dns)
  else
    ((decideFirst hits (entries (policyGroups text policies))).or
      (decideFirst hits (entries (pinGroups options)))).or
        (decideFirst hits (entries (builtinGroups text policies options)))

section
variable {text : NetText} {geo : GeoDbs} {policies : List DomainPolicy}
  {options : ProfileRoutingOptions} {seen : Seen} {port : Option Nat} {view : View}

theorem decideRules_plain (hplain : Plain options) (hsplits : Splits text policies options)
    (hreads : view.Reads text geo seen port) :
    decideRules view (intendedRules text policies options) =
      decidedAim text policies options port view.hits := by
  rw [decidedAim, decideRules_intended hsplits, hreads.captured_eq, chainGroups, interfaceGroups,
    guardGroups, hplain.guards, hplain.interfaces]
  simp only [filter_nil, map_nil, entries_nil, decideFirst_nil, none_or,
    nil_append, entries_append, decideFirst_append]
  cases captured options port <;> simp

variable {hits : Test → Bool}

/-- Names pass the built-in rules. -/
theorem decideFirst_builtins_of_name (hseen : seen.addr = none)
    (h : Extends (seen.known text geo) hits) :
    decideFirst hits (entries (builtinGroups text policies options)) = none := by
  rw [decideFirst_eq_none]
  intro e he
  obtain ⟨group, hgroup, htest⟩ := mem_flatMap.mp he
  obtain ⟨test, hmem, rfl⟩ := mem_map.mp htest
  have hkind : ∃ net, test = (.ip, net) := by
    rcases mem_append.mp hgroup with hgroup | hgroup
    · split at hgroup
      · obtain rfl := mem_singleton.mp hgroup
        obtain ⟨net, -, rfl⟩ := mem_map.mp hmem
        exact ⟨net, rfl⟩
      · cases hgroup
    · split at hgroup
      · obtain rfl := mem_singleton.mp hgroup
        obtain ⟨net, -, rfl⟩ := mem_map.mp hmem
        exact ⟨net, rfl⟩
      · cases hgroup
  obtain ⟨net, rfl⟩ := hkind
  exact h _ _ (by simp [Seen.known, hseen])

theorem decideFirst_builtins_of_addr (hlawful : text.Lawful) {addr : IpAddr}
    (hseen : seen.addr = some addr) (h : Extends (seen.known text geo) hits) :
    decideFirst hits (entries (builtinGroups text policies options)) =
      emittedAim text policies options addr := by
  have hmulticast := any_nets_hits multicastNets hlawful hseen h fun _ => mem_append_left _
  have hprivate := any_nets_hits privateNets hlawful hseen h fun _ => mem_append_right _
  rw [decideFirst_entries, builtinGroups, emittedAim]
  cases multicastEmitted text policies options <;> cases options.privateLanDirect <;>
    cases hm : anyNetContains text multicastNets addr <;>
      cases hp : anyNetContains text privateNets addr <;> simp [hmulticast, hprivate, hm, hp]

end

/-! ### Agreement -/

/-- Every connection to the target leaves through the reported outbound. -/
def Agrees (config : Json) (target : CheckTarget)
    (port : Option Nat) (outbound : RouteCheckOutbound) : Prop :=
  ∀ view : View, view.Reads text geo target.seen port →
    chosenTag view config = some outbound.destination.tag

/-- Every pin whose rule can be the first to match a name goes where the check expects: where the
first pin goes that is the name or its parent, or through the proxy. -/
def PinsFollow (options : ProfileRoutingOptions) (target : CheckTarget) : Prop :=
  Uniform (target.seen.known text geo) (entries (pinGroups options))
    ((pinWalk text geo options target).1.getD (.shared .proxy))

/-- Where the check follows the rules. -/
def SimulatorFollows (policies : List DomainPolicy)
    (options : ProfileRoutingOptions) (port : Option Nat) : CheckTarget → Prop
  | .domain host =>
    captured options port = true ∨
      (policyWalk text geo policies options (.domain host)).1.isSome = true ∨
        PinsFollow text geo options (.domain host)
  | .ip addr =>
    anyNetContains text multicastNets addr = true → ¬OnlyComments text policies options

section
variable {text : NetText} {geo : GeoDbs} {policies : List DomainPolicy}
  {options : ProfileRoutingOptions} {port : Option Nat} {addr : IpAddr}
variable {target : CheckTarget} {raw host : String}

theorem agrees_iff_decide {config : Json} {tags : RouteTags}
    (h : ShareLinkChain text policies options config tags) (hplain : Plain options)
    (outbound : RouteCheckOutbound) : Agrees text geo config target port outbound ↔
      ∀ view : View, view.Reads text geo target.seen port →
        (decidedAim text policies options port view.hits).getD (.shared .proxy) =
          .shared outbound.destination := by
  refine forall₂_congr fun view hreads => ?_
  rw [h.chosenTag_iff, decideRules_plain hplain h.splits hreads]

/-- All views of a target are all extensions of what is known of it. -/
theorem forall_views_iff {P : (Test → Bool) → Prop} :
    (∀ view : View, view.Reads text geo target.seen port → P view.hits) ↔
      ∀ hits, Extends (target.seen.known text geo) hits → P hits := by
  constructor
  · intro h hits hextends
    have hview := h (viewWith port "tcp" hits) (viewWith_reads port (mem_cons_self) hextends)
    rwa [hits_viewWith] at hview
  · intro h view hreads
    exact h view.hits hreads.selectors

/-- What is expected of the pins, as a fact about all ways to read them. -/
theorem pinsFollow_iff (hparse : parseTarget raw = .ok (.domain host, port)) :
    (∀ hits, Extends ((CheckTarget.domain host).seen.known text geo) hits →
      (decideFirst hits (entries (pinGroups options))).getD (.shared .proxy) =
        (pinWalk text geo options (.domain host)).1.getD (.shared .proxy)) ↔
      PinsFollow text geo options (.domain host) := by
  rw [forall_decideFirst_iff]
  refine and_iff_left ?_
  -- where a pin is expected to match, its rule does
  intro hpassable
  cases hwalk : (pinWalk text geo options (.domain host)).1 with
  | none => rfl
  | some aim =>
    obtain ⟨e, he, hknown⟩ := exists_of_walk hwalk
    exact absurd (known_of_pinKnown (colon_not_mem_of_parseTarget hparse) hknown) (hpassable e he)

/-- What the policies and the pins decide for an address, for the rules as for the check. -/
theorem addr_walks (hresolves : resolves options = false)
    (htold : ToldApart text geo policies options (.ip addr) port)
    (hfree : captured options port = false) {hits : Test → Bool}
    (hextends : Extends ((CheckTarget.ip addr).seen.known text geo) hits) :
    (decideFirst hits (entries (policyGroups text policies))).or
        (decideFirst hits (entries (pinGroups options))) =
      (policyWalk text geo policies options (.ip addr)).1.or
        (pinWalk text geo options (.ip addr)).1 := by
  rcases htold with hcaptured | ⟨hpolicies, hpins⟩
  · rw [hfree] at hcaptured
    cases hcaptured
  have hpolicy : decideFirst hits (entries (policyGroups text policies)) =
      (policyWalk text geo policies options (.ip addr)).1 := by
    refine decideFirst_of_walk ?_ hpolicies
    rw [hresolves, checkKnown_false]
    exact hextends
  rw [hpolicy]
  rcases hpins with hsome | hpins
  · obtain ⟨aim, haim⟩ := isSome_iff_exists.mp hsome
    rw [haim]
    rfl
  · have hpin : decideFirst hits (entries (pinGroups options)) =
        (pinWalk text geo options (.ip addr)).1 := by
      refine decideFirst_of_walk ?_ hpins
      rw [pinKnown_ip]
      exact hextends
    rw [hpin]

theorem pinGroups_of_inactive (h : dnsActive options = false) : pinGroups options = [] := by
  simp only [dnsActive, XrayDnsConfig.isEmpty, Bool.not_eq_false', Bool.and_eq_true,
    List.isEmpty_iff] at h
  rw [pinGroups, h.1.1.1.1.1.1]
  rfl

/-- Comments decide nothing. -/
theorem walks_of_onlyComments (geo : GeoDbs) (h : OnlyComments text policies options)
    (target : CheckTarget) : (policyWalk text geo policies options target).1 = none ∧
      (pinWalk text geo options target).1 = none := by
  obtain ⟨-, htests, -, hdns⟩ := h
  constructor
  · rw [eq_none_iff_forall_not_mem]
    intro aim haim
    obtain ⟨e, he, -⟩ := exists_of_walk haim
    obtain ⟨group, hgroup, htest⟩ := mem_flatMap.mp he
    obtain ⟨policy, hpolicy, rfl⟩ := mem_map.mp hgroup
    simp [htests policy hpolicy] at htest
  · rw [pinWalk, pinGroups_of_inactive hdns]
    rfl

theorem addr_builtins_iff (hplain : Plain options) (hsplits : Splits text policies options) :
    (((policyWalk text geo policies options (.ip addr)).1.or
        (pinWalk text geo options (.ip addr)).1).or
          (emittedAim text policies options addr)).getD (.shared .proxy) =
      (((policyWalk text geo policies options (.ip addr)).1.or
        (pinWalk text geo options (.ip addr)).1).or
          (builtinAim text policies options (.ip addr))).getD (.shared .proxy) ↔
      (anyNetContains text multicastNets addr = true → ¬OnlyComments text policies options) := by
  have hcomments := onlyComments_iff hplain hsplits
  rw [emittedAim, builtinAim]
  by_cases h : OnlyComments text policies options
  · obtain ⟨hemitted, hnot⟩ := hcomments.mp h
    obtain ⟨hpolicy, hpin⟩ := walks_of_onlyComments geo h (.ip addr)
    rw [hpolicy, hpin, hemitted, hnot, h.2.2.1]
    cases anyNetContains text multicastNets addr <;> simp [h]
  · have hsame : multicastEmitted text policies options = rulesEmitted policies options := by
      cases hm : multicastEmitted text policies options with
      | true => exact (rulesEmitted_of_multicastEmitted hplain hsplits hm).symm
      | false =>
        cases hr : rulesEmitted policies options with
        | true => exact absurd (hcomments.mpr ⟨hr, hm⟩) h
        | false => rfl
    rw [hsame]
    simp [h]

/-- A certain report on an address. -/
theorem addr_agrees_iff (hlawful : text.Lawful) (hplain : Plain options)
    (hsplits : Splits text policies options) (hresolves : resolves options = false)
    (htold : ToldApart text geo policies options (.ip addr) port) :
    (∀ hits, Extends ((CheckTarget.ip addr).seen.known text geo) hits →
      (decidedAim text policies options port hits).getD (.shared .proxy) =
        walkedAim text geo policies options (.ip addr) port) ↔
      SimulatorFollows text geo policies options port (.ip addr) := by
  unfold decidedAim
  rw [walkedAim, SimulatorFollows]
  cases hcaptured : captured options port with
  | true =>
    have hdns : dnsActive options = true := (Bool.and_eq_true_iff.mp hcaptured).1
    have hnot : ¬OnlyComments text policies options := by
      intro hcomments
      rw [hcomments.2.2.2] at hdns
      cases hdns
    simp [hnot]
  | false =>
    simp only [Bool.false_eq_true, if_false]
    rw [← addr_builtins_iff hplain hsplits]
    constructor
    · intro h
      have hleast := extends_least ((CheckTarget.ip addr).seen.known text geo)
      have hdecided := h _ hleast
      rwa [addr_walks hresolves htold hcaptured hleast,
        decideFirst_builtins_of_addr hlawful rfl hleast] at hdecided
    · intro h hits hextends
      rwa [addr_walks hresolves htold hcaptured hextends,
        decideFirst_builtins_of_addr hlawful rfl hextends]

/-- A certain report on a name. -/
theorem name_agrees_iff (hparse : parseTarget raw = .ok (.domain host, port))
    (hresolves : resolves options = false)
    (htold : ToldApart text geo policies options (.domain host) port) :
    (∀ hits, Extends ((CheckTarget.domain host).seen.known text geo) hits →
      (decidedAim text policies options port hits).getD (.shared .proxy) =
        walkedAim text geo policies options (.domain host) port) ↔
      SimulatorFollows text geo policies options port (.domain host) := by
  unfold decidedAim
  rw [walkedAim, SimulatorFollows]
  cases hcaptured : captured options port with
  | true => simp
  | false =>
    obtain ⟨hpolicies, -⟩ := htold.resolve_left (by simp [hcaptured])
    have hpolicy : ∀ hits, Extends ((CheckTarget.domain host).seen.known text geo) hits →
        decideFirst hits (entries (policyGroups text policies)) =
          (policyWalk text geo policies options (.domain host)).1 := by
      intro hits hextends
      refine decideFirst_of_walk ?_ hpolicies
      rw [hresolves, checkKnown_false]
      exact hextends
    simp only [Bool.false_eq_true, if_false, false_or]
    rw [forall₂_congr fun hits hextends => by
      rw [hpolicy hits hextends, decideFirst_builtins_of_name rfl hextends, or_none]]
    cases hwalk : (policyWalk text geo policies options (.domain host)).1 with
    | some aim => simp
    | none =>
      simp only [none_or, isSome_none, Bool.false_eq_true, false_or, builtinAim, or_none]
      exact pinsFollow_iff hparse

/-- A certain report names the outbound that the generated rules choose just where the check
follows the rules. -/
theorem simulator_agrees_iff {proxy config : Json} {socksPort : Nat} {raw : String}
    {target : CheckTarget} {result : RouteCheckResult} (hlawful : text.Lawful)
    (hproxy : ShareLink proxy) (hplain : Plain options)
    (hstrategy : options.domainStrategy = none ∨ options.domainStrategy = some .asIs)
    (hconfig : applyProfileRouting text (configWithProxy proxy socksPort) policies options =
      .ok config) (hparse : parseTarget raw = .ok (target, port))
    (hcheck : checkRoute text policies options raw geo = .ok result)
    (hcertain : result.certainty = .certain) :
    Agrees text geo config target port result.outbound ↔
      SimulatorFollows text geo policies options port target := by
  obtain ⟨tags, hchain⟩ := shareLinkChain_ok hproxy hconfig
  obtain ⟨target', port', hparse', haim, htold⟩ := checkRoute_ok hlawful hchain.splits.policies hcheck
  obtain ⟨rfl, rfl⟩ := Prod.mk.inj (Except.ok.inj (hparse.symm.trans hparse'))
  have hresolves : resolves options = false := by
    rcases hstrategy with h | h <;> simp [resolves, h]
  rw [agrees_iff_decide hchain hplain, haim]
  rw [forall_views_iff (P := fun hits => (decidedAim text policies options port hits).getD
    (.shared .proxy) = walkedAim text geo policies options target port)]
  cases target with
  | domain host => exact name_agrees_iff hparse hresolves (htold.mp hcertain)
  | ip addr => exact addr_agrees_iff hlawful hplain hchain.splits hresolves (htold.mp hcertain)

end

/-! ### A policy, and a comment -/

/-- A result of which a function is known. -/
theorem exists_ok {ε α β : Type} {x : Except ε α} {f : α → β} {b : β} (h : x.map f = .ok b) :
    ∃ a, x = .ok a ∧ f a = b := by
  cases x with
  | error e => cases h
  | ok a => exact ⟨a, rfl, Except.ok.inj h⟩

def checkedOptions : ProfileRoutingOptions :=
  { privateLanDirect := true, dns := { servers := [{ address := "1.1.1.1", route := .proxy }] } }

theorem example_policy_agrees : ∃ config result,
    applyProfileRouting ipnetText (configWithProxy exampleProxy 1080) examplePolicies checkedOptions =
        .ok config ∧
      checkRoute ipnetText examplePolicies checkedOptions "www.example.com:443" {} = .ok result ∧
      Agrees ipnetText {} config (.domain "www.example.com") (some 443) result.outbound := by
  have hok : (applyProfileRouting ipnetText (configWithProxy exampleProxy 1080) examplePolicies
      checkedOptions).map (fun _ => ()) = .ok () := by decide
  obtain ⟨config, hconfig, -⟩ := exists_ok hok
  have hcheck : (checkRoute ipnetText examplePolicies checkedOptions "www.example.com:443" {}).map
      RouteCheckResult.certainty = .ok .certain := by decide
  obtain ⟨result, hresult, hcertain⟩ := exists_ok hcheck
  refine ⟨config, result, hconfig, hresult, ?_⟩
  exact (simulator_agrees_iff ipnetText_lawful exampleProxy_shareLink ⟨rfl, rfl⟩ (.inl rfl) hconfig
    (by decide) hresult hcertain).mpr (.inr (.inl (by decide)))

def commentPolicies : List DomainPolicy := [⟨["# streaming"], .direct⟩]

/-- With a comment as the only policy, the check blocks a multicast address that the rules send
through the proxy. -/
theorem comment_parts_simulator : ∃ config result,
    applyProfileRouting ipnetText (configWithProxy exampleProxy 1080) commentPolicies {} =
        .ok config ∧
      checkRoute ipnetText commentPolicies {} "224.0.0.251" {} = .ok result ∧
      result.certainty = .certain ∧
      ¬Agrees ipnetText {} config (.ip (.v4 0xe00000fb)) none result.outbound := by
  have hleast := extends_least ((CheckTarget.ip (.v4 0xe00000fb)).seen.known ipnetText {})
  have hchosen : (applyProfileRouting ipnetText (configWithProxy exampleProxy 1080) commentPolicies
      {}).map (chosenTag (viewWith none "tcp" fun test =>
        (CheckTarget.ip (.v4 0xe00000fb)).seen.known ipnetText {} test == some true)) =
          .ok (some "proxy") := by decide
  obtain ⟨config, hconfig, hproxy⟩ := exists_ok hchosen
  have hcheck : (checkRoute ipnetText commentPolicies {} "224.0.0.251" {}).map
      (fun result => (result.outbound, result.certainty)) = .ok (.block, .certain) := by
    decide
  obtain ⟨result, hresult, hreport⟩ := exists_ok hcheck
  obtain ⟨hblock, hcertain⟩ := Prod.mk.inj hreport
  refine ⟨config, result, hconfig, hresult, hcertain, fun hagrees => ?_⟩
  have hsame := hagrees _ (viewWith_reads none List.mem_cons_self hleast)
  rw [hblock, hproxy] at hsame
  simp [RouteCheckOutbound.destination, Destination.tag] at hsame

end NetOrchestrator.Core
