import NetOrchestrator.Proofs.SimulatorAgrees

/-!
# `Proofs.ResolvedNames`: names under a resolving strategy

Under `IPIfNonMatch` and `IPOnDemand` address rules see what a name resolves to. The check takes
the selectors of policies and the pins for unknown then, but not the two built-in rules: a name
that comes to them may resolve to an address that they take. `resolved_agrees_iff` says that a
certain report holds for every address just where the name is decided before, or where no
built-in rule is emitted.
-/

namespace NetOrchestrator.Core

open Net Lib List Option

/-! ### Names and their addresses -/

/-- A name that resolves to an address. -/
def resolvedSeen (host : String) (addr : IpAddr) : Seen := ⟨some host, some addr⟩

section
variable {text : NetText} {geo : GeoDbs} {host : String} {addr : IpAddr} {hits : Test → Bool}
  {options : ProfileRoutingOptions} {policies : List DomainPolicy}

/-- The tests of a name before it is resolved. -/
def nameHits (hits : Test → Bool) : Test → Bool
  | (.domain, selector) => hits (.domain, selector)
  | (.ip, _) => false

theorem hits_unresolved (view : View) : view.unresolved.hits = nameHits view.hits := by
  funext test
  obtain ⟨kind, selector⟩ := test
  cases kind <;> rfl

theorem extends_nameHits (h : Extends ((resolvedSeen host addr).known text geo) hits) :
    Extends ((CheckTarget.domain host).seen.known text geo) (nameHits hits) := by
  intro test b hknown
  obtain ⟨kind, selector⟩ := test
  cases kind with
  | domain => exact h (.domain, selector) b hknown
  | ip =>
    cases hknown
    rfl

/-- The tests of a name, with its address read as far as it is known. -/
def addHits (text : NetText) (geo : GeoDbs) (host : String) (addr : IpAddr) (hits : Test → Bool) :
    Test → Bool
  | (.domain, selector) => hits (.domain, selector)
  | (.ip, selector) => (resolvedSeen host addr).known text geo (.ip, selector) == some true

section
variable (h : Extends ((CheckTarget.domain host).seen.known text geo) hits)
include h

theorem extends_addHits :
    Extends ((resolvedSeen host addr).known text geo) (addHits text geo host addr hits) := by
  intro test b hknown
  obtain ⟨kind, selector⟩ := test
  cases kind with
  | domain => exact h (.domain, selector) b hknown
  | ip => exact extends_least _ _ _ hknown

theorem nameHits_addHits : nameHits (addHits text geo host addr hits) = hits := by
  funext test
  obtain ⟨kind, selector⟩ := test
  cases kind with
  | domain => rfl
  | ip => exact (h (.ip, selector) false rfl).symm

end

/-- What the check knows where names are resolved holds before and after. -/
theorem extends_checkKnown (hdomain : ∀ selector b,
      (evalDomainSelector selector host geo).known = some b → hits (.domain, selector) = b) :
    Extends (checkKnown text geo true (.domain host)) hits := by
  intro test b hknown
  obtain ⟨kind, selector⟩ := test
  cases kind with
  | domain => exact hdomain selector b hknown
  | ip => cases hknown

/-- The pins that the check walks over are names. They read alike before and after. -/
theorem decideFirst_pins_nameHits (hcolon : ':' ∉ host.toList)
    (h : Extends ((resolvedSeen host addr).known text geo) hits) {servers : List XrayDnsServer}
    (hwalk : (walk (pinKnown text geo true (.domain host)) (servers.filterMap pinGroup)).2 = false) :
    decideFirst hits (entries (servers.filterMap pinGroup)) =
      decideFirst (nameHits hits) (entries (servers.filterMap pinGroup)) := by
  induction servers with
  | nil => rfl
  | cons server rest ih =>
    rw [filterMap_cons] at hwalk ⊢
    cases hgroup : pinGroup server with
    | none =>
      rw [hgroup] at hwalk
      exact ih hwalk
    | some group =>
      rw [hgroup] at hwalk
      have hsingle : ∃ destination aim, group = ([destination], aim) := by
        unfold pinGroup at hgroup
        split at hgroup
        · cases hgroup
          exact ⟨_, _, rfl⟩
        · cases hgroup
      obtain ⟨⟨kind, value⟩, aim, rfl⟩ := hsingle
      cases kind with
      | ip =>
        -- an address is unknown to the check
        simp [walk, pinKnown, pinOutcome, nameUnderIpRule, SelectorEval.known] at hwalk
      | domain =>
        simp only [entries_cons, map_cons, map_nil, singleton_append, decideFirst_cons]
        show (if hits (.domain, value) then _ else _) = if hits (.domain, value) then _ else _
        cases hhit : hits (.domain, value) with
        | true => rfl
        | false =>
          simp only [Bool.false_eq_true, if_false]
          rw [walk] at hwalk
          split at hwalk
          · rename_i hany
            have hknown : pinKnown text geo true (.domain host) (.domain, value) = some true := by
              simpa using hany
            have htrue := h (.domain, value) true (known_of_pinKnown hcolon hknown)
            rw [hhit] at htrue
            cases htrue
          · exact ih (Bool.or_eq_false_iff.mp hwalk).2

end

/-! ### The two strategies -/

variable (text : NetText) (geo : GeoDbs)

/-- What a strategy decides, from the view of a name with its address. -/
def resolvedAim (policies : List DomainPolicy) (options : ProfileRoutingOptions)
    (strategy : XrayDomainStrategy) (view : View) : Option Aim :=
  match strategy with
  | .asIs => decideRules view.unresolved (intendedRules text policies options)
  | .ipIfNonMatch =>
    (decideRules view.unresolved (intendedRules text policies options)).or
      (decideRules view (intendedRules text policies options))
  | .ipOnDemand => decideRules view (intendedRules text policies options)

/-- Every connection to the name, whatever it resolves to, leaves through the reported
outbound. -/
def AgreesResolved (config : Json) (strategy : XrayDomainStrategy)
    (host : String) (port : Option Nat) (outbound : RouteCheckOutbound) : Prop :=
  ∀ addr (view : View), view.Reads text geo (resolvedSeen host addr) port →
    (chosenResolved strategy view config).bind rawTag = some outbound.destination.tag

/-- The name is decided before the built-in rules, or none is emitted. -/
def DecidedByName (policies : List DomainPolicy)
    (options : ProfileRoutingOptions) (port : Option Nat) (host : String) : Prop :=
  captured options port = true ∨
    (policyWalk text geo policies options (.domain host)).1.isSome = true ∨
      PinsFollow text geo options (.domain host) ∧
        ((∃ e ∈ entries (pinGroups options),
            (CheckTarget.domain host).seen.known text geo e.1 = some true) ∨
          multicastEmitted text policies options = false)

section
variable {text : NetText} {geo : GeoDbs} {policies : List DomainPolicy}
  {options : ProfileRoutingOptions} {port : Option Nat} {host : String} {addr : IpAddr}

theorem ShareLinkChain.chosenResolved_iff {config : Json} {tags : RouteTags}
    (h : ShareLinkChain text policies options config tags) (strategy : XrayDomainStrategy)
    (view : View) (d : Destination) :
    (chosenResolved strategy view config).bind rawTag = some d.tag ↔
      (resolvedAim text policies options strategy view).getD (.shared .proxy) = .shared d := by
  rw [chosenResolved]
  cases strategy with
  | asIs =>
    simp only [resolvedRule, resolvedAim, h.firstRule_eq, decideRules]
    exact h.tag_iff (fun _ => mem_of_find?_eq_some) d
  | ipOnDemand =>
    simp only [resolvedRule, resolvedAim, h.firstRule_eq, decideRules]
    exact h.tag_iff (fun _ => mem_of_find?_eq_some) d
  | ipIfNonMatch =>
    simp only [resolvedRule, resolvedAim, h.firstRule_eq, decideRules]
    rw [← map_or, ← map_or]
    refine h.tag_iff (fun x hx => ?_) d
    rcases or_eq_some_iff.mp hx with hx | ⟨-, hx⟩
    · exact mem_of_find?_eq_some hx
    · exact mem_of_find?_eq_some hx

theorem View.Reads.unresolved {view : View}
    (h : view.Reads text geo (resolvedSeen host addr) port) :
    view.unresolved.Reads text geo (CheckTarget.domain host).seen port :=
  ⟨h.port, h.network, by
    rw [hits_unresolved]
    exact extends_nameHits h.selectors⟩

section
variable (hlawful : text.Lawful)
include hlawful

/-- What is left to decide for a name behind the policies: the pins as a name, and then the
built-in rules with the address. -/
theorem resolvedAim_eq (hcolon : ':' ∉ host.toList) (hplain : Plain options)
    (hsplits : Splits text policies options) {strategy : XrayDomainStrategy}
    (hne : strategy ≠ .asIs) (hresolves : resolves options = true)
    (htold : ToldApart text geo policies options (.domain host) port) {view : View}
    (hreads : view.Reads text geo (resolvedSeen host addr) port) :
    resolvedAim text policies options strategy view =
      if captured options port then some (.shared .dns) else
        ((policyWalk text geo policies options (.domain host)).1.or
          (decideFirst (nameHits view.hits) (entries (pinGroups options)))).or
            (emittedAim text policies options addr) := by
  have hnamed := decideRules_plain hplain hsplits hreads.unresolved
  have haddr := decideRules_plain hplain hsplits hreads
  rw [hits_unresolved] at hnamed
  unfold decidedAim at hnamed haddr
  cases hcaptured : captured options port with
  | true =>
    rw [hcaptured, if_pos rfl] at hnamed haddr
    cases strategy with
    | asIs => exact absurd rfl hne
    | ipIfNonMatch => simp [resolvedAim, hnamed]
    | ipOnDemand => simp [resolvedAim, haddr]
  | false =>
    simp only [hcaptured, Bool.false_eq_true, if_false] at hnamed haddr ⊢
    obtain ⟨hpolicies, hpins⟩ := htold.resolve_left (by simp [hcaptured])
    have hselectors := hreads.selectors
    have hcheck : ∀ hits, (∀ selector b, (evalDomainSelector selector host geo).known = some b →
        hits (.domain, selector) = b) →
        decideFirst hits (entries (policyGroups text policies)) =
          (policyWalk text geo policies options (.domain host)).1 := by
      intro hits hdomain
      refine decideFirst_of_walk ?_ hpolicies
      rw [hresolves]
      exact extends_checkKnown hdomain
    have hpolicy := hcheck view.hits fun selector b h => hselectors (.domain, selector) b h
    have hpolicy' := hcheck (nameHits view.hits) fun selector b h =>
      hselectors (.domain, selector) b h
    rw [hpolicy, decideFirst_builtins_of_addr hlawful rfl hselectors] at haddr
    rw [hpolicy', decideFirst_builtins_of_name rfl (extends_nameHits hselectors), or_none]
      at hnamed
    -- the pins read alike, where they are asked
    have hsame : (policyWalk text geo policies options (.domain host)).1.or
        (decideFirst view.hits (entries (pinGroups options))) =
        (policyWalk text geo policies options (.domain host)).1.or
          (decideFirst (nameHits view.hits) (entries (pinGroups options))) := by
      rcases hpins with hsome | hpins
      · obtain ⟨aim, haim⟩ := isSome_iff_exists.mp hsome
        rw [haim]
        rfl
      · rw [pinWalk, hresolves] at hpins
        exact congrArg _ (decideFirst_pins_nameHits hcolon hselectors hpins)
    rw [hsame] at haddr
    cases strategy with
    | asIs => exact absurd rfl hne
    | ipOnDemand => exact haddr
    | ipIfNonMatch =>
      show (decideRules view.unresolved _).or (decideRules view _) = _
      rw [hnamed, haddr, ← Option.or_assoc, Option.or_self]

/-- The networks of the built-in rules are read as the crate reads them. -/
theorem anyNetContains_eq {nets : List String}
    (hnets : ∀ s ∈ nets, s ∈ multicastNets ++ privateNets) (addr : IpAddr) :
    anyNetContains text nets addr = anyNetContains ipnetText nets addr := by
  have hparse : ∀ s ∈ nets, text.parse s = ipnetText.parse s := by
    intro s hs
    obtain ⟨net, rfl⟩ := exists_render_of_mem (hnets s hs)
    have hread := hlawful.parse_render net
    rw [hlawful.render_eq] at hread
    rw [hread]
    exact (ipnetText_lawful.parse_render net).symm
  rw [anyNetContains, anyNetContains, filterMap_congr hparse]

/-- No built-in rule takes `1.1.1.1`. -/
theorem emittedAim_public : emittedAim text policies options (.v4 0x01010101) = none := by
  have hmulticast : anyNetContains text multicastNets (.v4 0x01010101) = false := by
    rw [anyNetContains_eq hlawful fun _ => mem_append_left _]
    decide
  have hprivate : anyNetContains text privateNets (.v4 0x01010101) = false := by
    rw [anyNetContains_eq hlawful fun _ => mem_append_right _]
    decide
  rw [emittedAim, hmulticast, hprivate, Bool.and_false, Bool.and_false]
  rfl

theorem emittedAim_multicast (hemitted : multicastEmitted text policies options = true) :
    emittedAim text policies options (.v4 0xe0000001) = some (.shared .block) := by
  have hmulticast : anyNetContains text multicastNets (.v4 0xe0000001) = true := by
    rw [anyNetContains_eq hlawful fun _ => mem_append_left _]
    decide
  rw [emittedAim, hemitted, hmulticast]
  rfl

/-- Where no policy decides, the pins and the built-in rules follow the check for every address of
the name just where the name is decided before an address counts. -/
theorem unnamed_agrees_iff (hparse : parseTarget raw = .ok (.domain host, port)) :
    (∀ addr (view : View), view.Reads text geo (resolvedSeen host addr) port →
      ((decideFirst (nameHits view.hits) (entries (pinGroups options))).or
        (emittedAim text policies options addr)).getD (.shared .proxy) =
          (pinWalk text geo options (.domain host)).1.getD (.shared .proxy)) ↔
      PinsFollow text geo options (.domain host) ∧
        ((∃ e ∈ entries (pinGroups options),
            (CheckTarget.domain host).seen.known text geo e.1 = some true) ∨
          multicastEmitted text policies options = false) := by
  rw [← pinsFollow_iff hparse]
  constructor
  · intro h
    refine ⟨fun hits hextends => ?_, ?_⟩
    · -- an address that no built-in rule takes leaves the name to the pins
      have hview := h (.v4 0x01010101)
        (viewWith port "tcp" (addHits text geo host (.v4 0x01010101) hits))
        (viewWith_reads port List.mem_cons_self (extends_addHits hextends))
      rwa [hits_viewWith, nameHits_addHits hextends, emittedAim_public hlawful, Option.or_none]
        at hview
    · by_contra hnot
      obtain ⟨hpassable, hemitted⟩ := not_or.mp hnot
      have hleast := extends_least ((CheckTarget.domain host).seen.known text geo)
      have hview := h (.v4 0xe0000001)
        (viewWith port "tcp" (addHits text geo host (.v4 0xe0000001) _))
        (viewWith_reads port List.mem_cons_self (extends_addHits hleast))
      have hpins : decideFirst (fun test =>
          (CheckTarget.domain host).seen.known text geo test == some true)
          (entries (pinGroups options)) = none := by
        refine decideFirst_eq_none.mpr fun e he => ?_
        have hmaybe : (CheckTarget.domain host).seen.known text geo e.1 ≠ some true :=
          fun hknown => hpassable ⟨e, he, hknown⟩
        simpa using hmaybe
      rw [hits_viewWith, nameHits_addHits hleast, hpins,
        emittedAim_multicast hlawful (by simpa using hemitted)] at hview
      -- the check reports a pin or the proxy, and the rules block
      cases hpin : (pinWalk text geo options (.domain host)).1 with
      | none =>
        rw [hpin] at hview
        cases hview
      | some aim =>
        obtain ⟨e, he, hknown⟩ := exists_of_walk hpin
        exact hpassable ⟨e, he, known_of_pinKnown (colon_not_mem_of_parseTarget hparse) hknown⟩
  · rintro ⟨hpins, hdecided⟩ addr view hreads
    have hname := extends_nameHits hreads.selectors
    have hfollow := hpins _ hname
    rcases hdecided with ⟨e, he, hknown⟩ | hemitted
    · cases hfirst : decideFirst (nameHits view.hits) (entries (pinGroups options)) with
      | none =>
        have hmiss := decideFirst_eq_none.mp hfirst e he
        rw [hname _ _ hknown] at hmiss
        cases hmiss
      | some aim =>
        rw [hfirst] at hfollow
        exact hfollow
    · have hlan : options.privateLanDirect = false := by
        rw [multicastEmitted, Bool.or_eq_false_iff] at hemitted
        exact hemitted.2
      have hnone : emittedAim text policies options addr = none := by
        simp [emittedAim, hemitted, hlan]
      rwa [hnone, Option.or_none]

end

/-- A certain report on a name that is resolved names the outbound that the rules choose,
whatever address the name has, just where the name is decided before the built-in rules. -/
theorem resolved_agrees_iff {proxy config : Json} {socksPort : Nat} {raw : String}
    {strategy : XrayDomainStrategy} {result : RouteCheckResult} (hlawful : text.Lawful)
    (hproxy : ShareLink proxy) (hplain : Plain options)
    (hstrategy : options.domainStrategy = some strategy) (hne : strategy ≠ .asIs)
    (hconfig : applyProfileRouting text (configWithProxy proxy socksPort) policies options =
      .ok config) (hparse : parseTarget raw = .ok (.domain host, port))
    (hcheck : checkRoute text policies options raw geo = .ok result)
    (hcertain : result.certainty = .certain) :
    AgreesResolved text geo config strategy host port result.outbound ↔
      DecidedByName text geo policies options port host := by
  obtain ⟨tags, hchain⟩ := shareLinkChain_ok hproxy hconfig
  obtain ⟨target, port', hparse', haim, htold⟩ := checkRoute_ok hlawful hchain.splits.policies hcheck
  obtain ⟨rfl, rfl⟩ := Prod.mk.inj (Except.ok.inj (hparse.symm.trans hparse'))
  have hresolves : resolves options = true := by
    cases strategy with
    | asIs => exact absurd rfl hne
    | ipIfNonMatch => simp [resolves, hstrategy]
    | ipOnDemand => simp [resolves, hstrategy]
  have hcolon := colon_not_mem_of_parseTarget hparse
  have hdecide : ∀ addr (view : View), view.Reads text geo (resolvedSeen host addr) port →
      ((chosenResolved strategy view config).bind rawTag = some result.outbound.destination.tag ↔
        _) := fun addr view hreads => by
    rw [hchain.chosenResolved_iff, resolvedAim_eq hlawful hcolon hplain hchain.splits hne hresolves
      (htold.mp hcertain) hreads, haim]
  rw [AgreesResolved, forall₂_congr fun addr view => forall_congr' (hdecide addr view)]
  rw [walkedAim, DecidedByName]
  cases hcaptured : captured options port with
  | true => simp
  | false =>
    simp only [Bool.false_eq_true, if_false, false_or]
    cases hwalk : (policyWalk text geo policies options (.domain host)).1 with
    | some aim => simp
    | none =>
      simp only [Option.none_or, Option.isSome_none, Bool.false_eq_true, false_or, builtinAim,
        Option.or_none]
      exact unnamed_agrees_iff hlawful hparse

end

/-! ### A name that a policy decides, and one on the private LAN -/

def resolvingOptions : ProfileRoutingOptions :=
  { privateLanDirect := true, domainStrategy := some .ipIfNonMatch }

theorem example_resolved_agrees : ∃ config result,
    applyProfileRouting ipnetText (configWithProxy exampleProxy 1080) examplePolicies
        resolvingOptions = .ok config ∧
      checkRoute ipnetText examplePolicies resolvingOptions "www.example.com" {} = .ok result ∧
      AgreesResolved ipnetText {} config .ipIfNonMatch "www.example.com" none result.outbound := by
  have hok : (applyProfileRouting ipnetText (configWithProxy exampleProxy 1080) examplePolicies
      resolvingOptions).map (fun _ => ()) = .ok () := by decide
  obtain ⟨config, hconfig, -⟩ := exists_ok hok
  have hcheck : (checkRoute ipnetText examplePolicies resolvingOptions "www.example.com" {}).map
      RouteCheckResult.certainty = .ok .certain := by decide
  obtain ⟨result, hresult, hcertain⟩ := exists_ok hcheck
  refine ⟨config, result, hconfig, hresult, ?_⟩
  exact (resolved_agrees_iff ipnetText_lawful exampleProxy_shareLink ⟨rfl, rfl⟩ rfl (by decide) hconfig
    (by decide) hresult hcertain).mpr (.inr (.inl (by decide)))

/-- A name that no policy decides is reported to leave through the proxy. Where it resolves to
`192.168.1.20`, the rules send it out directly. -/
theorem private_name_parts_simulator : ∃ config result,
    applyProfileRouting ipnetText (configWithProxy exampleProxy 1080) examplePolicies
        resolvingOptions = .ok config ∧
      checkRoute ipnetText examplePolicies resolvingOptions "printer.lan" {} = .ok result ∧
      result.certainty = .certain ∧
      ¬AgreesResolved ipnetText {} config .ipIfNonMatch "printer.lan" none result.outbound := by
  have hleast := extends_least ((resolvedSeen "printer.lan" (.v4 0xc0a80114)).known ipnetText {})
  have hchosen : (applyProfileRouting ipnetText (configWithProxy exampleProxy 1080) examplePolicies
      resolvingOptions).map (fun config => (chosenResolved .ipIfNonMatch (viewWith none "tcp" fun test =>
        (resolvedSeen "printer.lan" (.v4 0xc0a80114)).known ipnetText {} test == some true)
          config).bind rawTag) = .ok (some "direct") := by decide
  obtain ⟨config, hconfig, hdirect⟩ := exists_ok hchosen
  have hcheck : (checkRoute ipnetText examplePolicies resolvingOptions "printer.lan" {}).map
      (fun result => (result.outbound, result.certainty)) = .ok (.proxy, .certain) := by
    decide
  obtain ⟨result, hresult, hreport⟩ := exists_ok hcheck
  obtain ⟨hproxy, hcertain⟩ := Prod.mk.inj hreport
  refine ⟨config, result, hconfig, hresult, hcertain, fun hagrees => ?_⟩
  have hsame := hagrees _ _ (viewWith_reads none List.mem_cons_self hleast)
  rw [hproxy, hdirect] at hsame
  simp [RouteCheckOutbound.destination, Destination.tag] at hsame

end NetOrchestrator.Core
