import NetOrchestrator.Core.RouteCheck
import NetOrchestrator.Proofs.RuleChain

/-!
# `Proofs.RouteCheck`: what the route check reports

The check walks over the same groups of tests as the rules of a profile, but it evaluates them
itself. `checkRoute_ok` gives the outbound that it reports as two walks, over the policies and
over the pins, and says when the report is certain.
-/

namespace NetOrchestrator.Core

open Net Lib Checks
open Daemon (trim trim_trim stripPrefix)

/-! ### What is known of a test -/

def SelectorEval.known : SelectorEval → Option Bool
  | .matched => some true
  | .miss => some false
  | .unknown _ => none

@[simp]
theorem known_ofBool (b : Bool) : (SelectorEval.ofBool b).known = some b := by
  cases b <;> rfl

/-- What rules see of a connection. -/
structure Seen where
  host : Option String
  addr : Option IpAddr

def CheckTarget.seen : CheckTarget → Seen
  | .domain host => ⟨some host, none⟩
  | .ip addr => ⟨none, some addr⟩

/-- How a selector reads for what is seen. -/
def Seen.known (text : NetText) (geo : GeoDbs) (seen : Seen) : Test → Option Bool
  | (.domain, selector) =>
    match seen.host with
    | some host => (evalDomainSelector selector host geo).known
    | none => some false
  | (.ip, selector) =>
    match seen.addr with
    | some addr => (evalIpSelector text selector addr geo).known
    | none => some false

variable (text : NetText) (geo : GeoDbs) (options : ProfileRoutingOptions)

/-- How the check reads a selector. -/
def checkKnown (resolves : Bool) (target : CheckTarget) : Test → Option Bool
  | (kind, selector) =>
    match target, kind with
    | .domain host, .domain => (evalDomainSelector selector host geo).known
    | .domain _, .ip => (nameUnderIpRule resolves).known
    | .ip addr, .ip => (evalIpSelector text selector addr geo).known
    | .ip _, .domain => some false

/-- How the check reads a resolver's destination. -/
def pinKnown (resolves : Bool) (target : CheckTarget) (destination : Test) : Option Bool :=
  (pinOutcome text geo resolves target destination).known

/-- Where names are not resolved, the check reads what the rules see. -/
theorem checkKnown_false (target : CheckTarget) :
    checkKnown text geo false target = target.seen.known text geo := by
  funext test
  obtain ⟨kind, selector⟩ := test
  cases target <;> cases kind <;> rfl

/-! ### Selectors -/

section
variable {text : NetText} {geo : GeoDbs} {resolves : Bool} {target : CheckTarget}
  {selector : String} {test : Test} {selectors : List String}

theorem stripPrefix_geoip_renderIp (addr : IpAddr) : stripPrefix "geoip:" (renderIp addr) = none := by
  cases hstrip : stripPrefix "geoip:" (renderIp addr) with
  | none => rfl
  | some rest =>
    have heq := Daemon.stripPrefix_eq_some hstrip
    refine absurd ?_ (not_mem_renderIp foreign_g addr)
    rw [heq]
    simp

theorem stripPrefix_geoip_renderNet (net : IpNet) : stripPrefix "geoip:" (renderNet net) = none := by
  cases hstrip : stripPrefix "geoip:" (renderNet net) with
  | none => rfl
  | some rest =>
    have heq := Daemon.stripPrefix_eq_some hstrip
    refine absurd ?_ (not_mem_renderNet foreign_g (by decide) net)
    rw [heq]
    simp

theorem evalIpSelector_renderIp (literal ip : IpAddr) :
    evalIpSelector text (renderIp literal) ip geo = .ofBool (literal == ip) := by
  rw [evalIpSelector, stripPrefix_geoip_renderIp]
  simp only [parseIpAddr_renderIp]

theorem evalIpSelector_render (geo : GeoDbs) (hlawful : text.Lawful) (net : IpNet) (ip : IpAddr) :
    evalIpSelector text (text.render net) ip geo = .ofBool (net.containsAddr ip) := by
  have hparse := hlawful.parse_render net
  rw [hlawful.render_eq] at hparse ⊢
  rw [evalIpSelector, stripPrefix_geoip_renderNet]
  simp only [parseIpAddr_renderNet, hparse]

theorem classify_trim (text : NetText) (selector : String) :
    classifyRoutingSelector text (trim selector) = classifyRoutingSelector text selector := by
  simp only [classifyRoutingSelector, trim_trim]

/-- What a selector is classified as, and what it is emitted as. -/
theorem classify_ok (geo : GeoDbs) (hlawful : text.Lawful)
    (h : classifyRoutingSelector text selector = .ok (some test)) :
    isComment (trim selector) = false ∧
      (test = (.domain, trim selector) ∨ ∃ value, test = (.ip, value) ∧
        ∀ ip, evalIpSelector text (trim selector) ip geo = evalIpSelector text value ip geo) := by
  unfold classifyRoutingSelector at h
  simp only at h
  split at h
  · cases h
  rename_i hcomment
  refine ⟨by simpa using hcomment, ?_⟩
  split at h
  · split at h <;> cases h
    exact .inl rfl
  · split at h
    · split at h <;> cases h
      exact .inr ⟨_, rfl, fun _ => rfl⟩
    · rename_i hgeoip
      split at h
      · rename_i literal hliteral
        cases h
        refine .inr ⟨_, rfl, fun ip => ?_⟩
        rw [evalIpSelector_renderIp, evalIpSelector, hgeoip]
        simp only [hliteral]
      · rename_i hliteral
        split at h
        · rename_i net hnet
          cases h
          refine .inr ⟨_, rfl, fun ip => ?_⟩
          rw [evalIpSelector_render geo hlawful, evalIpSelector, hgeoip]
          simp only [hliteral, hnet]
        · cases h
          exact .inl rfl

/-- The check reads a selector as what it is emitted as. -/
theorem selectorOutcome_known (geo : GeoDbs) (resolves : Bool) (target : CheckTarget)
    (hlawful : text.Lawful) (h : classifyRoutingSelector text selector = .ok (some test)) :
    (selectorOutcome text geo resolves target (trim selector)).known =
      checkKnown text geo resolves target test := by
  obtain ⟨-, hdomain | ⟨value, hip, heval⟩⟩ := classify_ok geo hlawful h
  · have hkind : isIpSelector text (trim selector) = false := by
      rw [isIpSelector, classify_trim, h, hdomain]
    rw [hdomain]
    cases target <;> simp only [selectorOutcome, hkind] <;> rfl
  · have hkind : isIpSelector text (trim selector) = true := by
      rw [isIpSelector, classify_trim, h, hip]
    rw [hip]
    cases target with
    | domain host =>
      simp only [selectorOutcome, hkind]
      rfl
    | ip addr =>
      simp only [selectorOutcome, hkind, heval]
      rfl

theorem isComment_of_none (h : classifyRoutingSelector text selector = .ok none) :
    isComment (trim selector) = true := by
  unfold classifyRoutingSelector at h
  simp only at h
  split at h
  · assumption
  · split at h
    · split at h <;> cases h
    · split at h
      · split at h <;> cases h
      · split at h
        · cases h
        · split at h <;> cases h

/-! ### Policies -/

theorem classify_of_split {parts : List String × List String}
    (h : splitSelectors text selectors = .ok parts) :
    ∀ s ∈ selectors, ∃ found, classifyRoutingSelector text s = .ok found := by
  induction selectors generalizing parts with
  | nil => simp
  | cons first rest ih =>
    unfold splitSelectors at h
    obtain ⟨found, hfound, h⟩ := bind_eq_ok.mp h
    obtain ⟨others, hrest, -⟩ := bind_eq_ok.mp h
    intro s hs
    rcases List.mem_cons.mp hs with rfl | hs
    · exact ⟨found, hfound⟩
    · exact ih hrest s hs

/-- A policy is scanned as the group of its tests is walked. -/
theorem scanPolicy_known (geo : GeoDbs) (resolves : Bool) (target : CheckTarget)
    (hlawful : text.Lawful)
    (h : ∀ s ∈ selectors, ∃ found, classifyRoutingSelector text s = .ok found) :
    let tests := selectorTests text selectors
    let known := checkKnown text geo resolves target
    (scanPolicy text geo resolves target selectors).1.isSome = tests.any (fun t => known t == some true) ∧
      ((scanPolicy text geo resolves target selectors).1 = none →
        (scanPolicy text geo resolves target selectors).2.isEmpty =
          !tests.any fun t => known t == none) := by
  induction selectors with
  | nil => simp [scanPolicy, selectorTests]
  | cons s rest ih =>
    obtain ⟨found, hfound⟩ := h s (by simp)
    obtain ⟨hhit, hunknown⟩ := ih fun s hs => h s (by simp [hs])
    simp only [selectorTests] at hhit hunknown ⊢
    rw [List.filterMap_cons, selectorTest, hfound]
    cases found with
    | none =>
      rw [scanPolicy, if_pos (isComment_of_none hfound)]
      exact ⟨hhit, hunknown⟩
    | some test =>
      have hcomment := (classify_ok geo hlawful hfound).1
      have hknown := selectorOutcome_known geo resolves target hlawful hfound
      rw [scanPolicy, if_neg (by simp [hcomment])]
      cases houtcome : selectorOutcome text geo resolves target (trim s) with
      | matched =>
        rw [houtcome] at hknown
        simp [← hknown, SelectorEval.known]
      | miss =>
        rw [houtcome] at hknown
        simp [← hknown, SelectorEval.known, hhit]
        simpa using hunknown
      | unknown reason =>
        rw [houtcome] at hknown
        simp [← hknown, SelectorEval.known, hhit]

end

/-! ### Walks -/

/-- Where a reported outbound is. -/
def RouteCheckOutbound.destination : RouteCheckOutbound → Destination
  | .proxy => .proxy
  | .direct => .direct
  | .block => .block
  | .dns => .dns

def Verdict.aim (verdict : Verdict) : Aim := .shared verdict.outbound.destination

/-- What a stage decides, and whether it passed a test that it could not tell. -/
def Stage.walked (stage : Stage) : Option Aim × Bool := (stage.verdict.map Verdict.aim, stage.sawUnknown)

theorem destination_outbound (target : DomainRouteTarget) :
    target.outbound.destination = target.destination := by
  cases target <;> rfl

section
variable {text : NetText} {geo : GeoDbs} {resolves : Bool} {target : CheckTarget}

theorem walked_orElse (a b : Stage) : (a.orElse b).walked =
      if a.walked.1.isSome then a.walked else (b.walked.1, a.walked.2 || b.walked.2) := by
  unfold Stage.orElse Stage.walked
  cases hverdict : a.verdict <;> simp [hverdict]

theorem walk_cons {known : Test → Option Bool} {tests : List Test} {aim : Aim}
    {groups : List TestGroup} {stage : Stage}
    (hhit : stage.walked.1 = if tests.any (fun t => known t == some true) then some aim else none)
    (hunknown : stage.walked.2 =
      (!tests.any (fun t => known t == some true) && tests.any fun t => known t == none)) :
    walk known ((tests, aim) :: groups) = if stage.walked.1.isSome then stage.walked
      else ((walk known groups).1, stage.walked.2 || (walk known groups).2) := by
  rw [walk]
  have hwalked : stage.walked = (stage.walked.1, stage.walked.2) := rfl
  rw [hwalked, hhit, hunknown]
  cases tests.any fun t => known t == some true <;> simp

theorem policyStages_walked (hlawful : text.Lawful) {policies : List DomainPolicy}
    (h : ∀ policy ∈ policies, ∃ parts, splitSelectors text policy.domains = .ok parts) (i : Nat) :
    (policyStages text geo resolves target i policies).walked =
      walk (checkKnown text geo resolves target) (policyGroups text policies) := by
  induction policies generalizing i with
  | nil => rfl
  | cons policy rest ih =>
    obtain ⟨parts, hparts⟩ := h policy (by simp)
    have hrest := ih (fun p hp => h p (by simp [hp])) (i + 1)
    obtain ⟨hhit, hunknown⟩ := scanPolicy_known geo resolves target hlawful
      (classify_of_split hparts)
    rw [policyStages, walked_orElse, hrest, eq_comm]
    show walk _ ((selectorTests text policy.domains, .shared policy.target.destination) ::
      policyGroups text rest) = _
    refine walk_cons ?_ ?_
    · rw [← hhit, policyStage]
      cases hscan : scanPolicy text geo resolves target policy.domains with
      | mk hit reasons => cases hit <;> simp [Stage.walked, Verdict.aim, destination_outbound]
    · rw [← hhit, policyStage]
      cases hscan : scanPolicy text geo resolves target policy.domains with
      | mk hit reasons =>
        rw [hscan] at hunknown
        cases hit with
        | none => simp [Stage.walked, hunknown rfl]
        | some selector => simp [Stage.walked]

theorem pinStages_walked (servers : List XrayDnsServer) :
    (pinStages text geo resolves target servers).walked =
      walk (pinKnown text geo resolves target) (servers.filterMap pinGroup) := by
  induction servers with
  | nil => rfl
  | cons server rest ih =>
    rw [pinStages, walked_orElse, ih, List.filterMap_cons, pinGroup, pinStage]
    cases server.route.target with
    | none => simp [Stage.walked]
    | some route =>
      cases dnsServerRouteTarget server.address with
      | none => simp [Stage.walked]
      | some destination =>
        simp only
        rw [eq_comm]
        refine walk_cons ?_ ?_
        · cases houtcome : pinOutcome text geo resolves target destination <;>
            simp [Stage.walked, pinKnown, houtcome, SelectorEval.known, Verdict.aim,
              destination_outbound]
        · cases houtcome : pinOutcome text geo resolves target destination <;>
            simp [Stage.walked, pinKnown, houtcome, SelectorEval.known, SelectorEval.reasons]

end

/-! ### The report -/

/-- The port is the one that the DNS capture takes. -/
def captured (port : Option Nat) : Bool :=
  dnsActive options && port == some 53

/-- What the built-in rules of the check decide. -/
def builtinAim (policies : List DomainPolicy) (options : ProfileRoutingOptions) :
    CheckTarget → Option Aim
  | .domain _ => none
  | .ip addr =>
    if rulesEmitted policies options && anyNetContains text multicastNets addr then
      some (.shared .block)
    else if options.privateLanDirect && anyNetContains text privateNets addr then
      some (.shared .direct)
    else none

def policyWalk (policies : List DomainPolicy)
    (options : ProfileRoutingOptions) (target : CheckTarget) : Option Aim × Bool :=
  walk (checkKnown text geo (resolves options) target) (policyGroups text policies)

def pinWalk (target : CheckTarget) : Option Aim × Bool :=
  walk (pinKnown text geo (resolves options) target) (pinGroups options)

/-- What the policies, the pins and the built-in rules decide, with the selectors read as the
check reads them. -/
def walkedAim (policies : List DomainPolicy)
    (options : ProfileRoutingOptions) (target : CheckTarget) (port : Option Nat) : Aim :=
  if captured options port then .shared .dns
  else
    (((policyWalk text geo policies options target).1.or
      (pinWalk text geo options target).1).or
        (builtinAim text policies options target)).getD (.shared .proxy)

/-- No test was passed that the check could not tell. -/
def ToldApart (policies : List DomainPolicy)
    (options : ProfileRoutingOptions) (target : CheckTarget) (port : Option Nat) : Prop :=
  captured options port = true ∨
    (policyWalk text geo policies options target).2 = false ∧
      ((policyWalk text geo policies options target).1.isSome = true ∨
        (pinWalk text geo options target).2 = false)

section
variable {text : NetText} {geo : GeoDbs} {policies : List DomainPolicy}
  {options : ProfileRoutingOptions}

theorem walked_captureStage (port : Option Nat) : (captureStage options port).walked =
      (if captured options port then some (.shared .dns) else none, false) := by
  unfold captureStage captured Stage.walked
  cases dnsActive options with
  | false => simp
  | true => by_cases hport : port = some 53 <;> simp [hport, Verdict.aim, RouteCheckOutbound.destination]

theorem walked_builtinStage (emitted : Bool) (nets : List String) (verdict : Verdict)
    (step : RouteCheckStep) (addr : IpAddr) :
    (builtinStage text emitted nets verdict step (.ip addr)).walked =
      (if emitted && anyNetContains text nets addr then some verdict.aim else none, false) := by
  rw [builtinStage]
  split <;> rfl

theorem walked_builtins (target : CheckTarget) :
    ((multicastStage text policies options target).orElse
      (privateLanStage text options target)).walked = (builtinAim text policies options target, false) := by
  rw [walked_orElse]
  cases target with
  | domain host => rfl
  | ip addr =>
    rw [multicastStage, privateLanStage, walked_builtinStage, walked_builtinStage, builtinAim]
    cases rulesEmitted policies options && anyNetContains text multicastNets addr <;> rfl

/-- What the stages decide, and whether a test was passed that could not be told. -/
theorem walked_checkStages (geo : GeoDbs) (options : ProfileRoutingOptions) (hlawful : text.Lawful)
    (h : ∀ policy ∈ policies, ∃ parts, splitSelectors text policy.domains = .ok parts)
    (target : CheckTarget) (port : Option Nat) :
    let stages := (checkStages text policies options geo target port).walked
    stages.1.getD (.shared .proxy) = walkedAim text geo policies options target port ∧
      (stages.2 = false ↔ ToldApart text geo policies options target port) := by
  simp only [checkStages, walked_orElse _ (Stage.orElse _ _), walked_captureStage,
    policyStages_walked hlawful h, pinStages_walked, walked_builtins, walkedAim, ToldApart,
    policyWalk, pinWalk]
  cases captured options port with
  | true => simp
  | false =>
    simp only [Bool.false_eq_true, if_false, Option.isSome_none, Bool.false_or, false_or]
    cases hpolicies : walk (checkKnown text geo (resolves options) target)
        (policyGroups text policies) with
    | mk decided unknown =>
      cases decided with
      | some aim => simp
      | none =>
        rw [show pinGroups options = options.dns.servers.filterMap pinGroup from rfl]
        cases hpins : walk (pinKnown text geo (resolves options) target)
            (options.dns.servers.filterMap pinGroup) with
        | mk pinned unknown' => cases pinned <;> cases unknown <;> cases unknown' <;> simp

/-- The outbound that is reported, and when the report is certain. -/
theorem checkRoute_ok (hlawful : text.Lawful)
    (h : ∀ policy ∈ policies, ∃ parts, splitSelectors text policy.domains = .ok parts)
    {raw : String} {result : RouteCheckResult}
    (hcheck : checkRoute text policies options raw geo = .ok result) :
    ∃ target port, parseTarget raw = .ok (target, port) ∧
      .shared result.outbound.destination = walkedAim text geo policies options target port ∧
        (result.certainty = .certain ↔ ToldApart text geo policies options target port) := by
  unfold checkRoute at hcheck
  obtain ⟨⟨target, port⟩, hparse, hcheck⟩ := bind_eq_ok.mp hcheck
  cases hcheck
  obtain ⟨haim, htold⟩ := walked_checkStages geo options hlawful h target port
  refine ⟨target, port, hparse, ?_, ?_⟩
  · rw [← haim]
    simp only [Stage.walked]
    cases (checkStages text policies options geo target port).verdict <;> rfl
  · rw [← htold]
    simp only [Stage.walked]
    cases (checkStages text policies options geo target port).sawUnknown <;> simp

end

end NetOrchestrator.Core
