import Mathlib.Data.List.Infix
import NetOrchestrator.Core.XrayRouting

/-!
# `Core.RouteCheck`: the offline route check

`check_route` replays the rules of a profile for one target and reports which of them decides,
without asking Xray. It reads the geo databases that the caller could load; a selector that
cannot be told without them is unknown, and the result is then only probable.

The check goes through stages, of which each adds its steps and may decide: the DNS capture, the
policies, the resolver pins, the two built-in rules and the default.
-/

namespace NetOrchestrator.Core

open Net Lib
open Daemon (trim asciiLower stripPrefix splitChars splitOnce parseUnsigned
  isAsciiAlphanumeric)

/-! ### Targets -/

inductive RouteCheckTargetKind where
  | domain
  | ip
  deriving DecidableEq

/-- The `RouteTarget` of the check. -/
inductive CheckTarget where
  | domain (host : String)
  | ip (addr : IpAddr)
  deriving DecidableEq

def CheckTarget.kind : CheckTarget → RouteCheckTargetKind
  | .domain _ => .domain
  | .ip _ => .ip

def CheckTarget.label : CheckTarget → String
  | .domain host => host
  | .ip addr => renderIp addr

/-- What stands before the port and the port. -/
def splitAuthority (authority : List Char) : Except XrayError (List Char × Option Nat) :=
  let parsePort (port : List Char) : Except XrayError Nat :=
    match parseUnsigned (2 ^ 16) (trim (String.ofList port)) with
    | some port => .ok port
    | none => .error (.invalidInput "route check target has an invalid port")
  match authority with
  | '[' :: inner =>
    match splitOnce ']' inner with
    | none => .error (.invalidInput "route check target has a malformed bracket")
    | some (host, ':' :: port) => (parsePort port).map fun port => (host, some port)
    | some (host, _) => .ok (host, none)
  | authority =>
    if authority.count ':' = 1 then
      match splitOnce ':' authority with
      | some (host, port) =>
        (parsePort port).map fun port => ((trim (String.ofList host)).toList, some port)
      | none => .ok (authority, none)
    else .ok (authority, none)

def targetChar (c : Char) : Bool := isAsciiAlphanumeric c || ['.', '-', '_', '*'].contains c

/-- The target that a host names, with its final dots taken off. -/
def targetOfHost (host : List Char) : Except XrayError CheckTarget :=
  let host := String.ofList (host.reverse.dropWhile (· == '.')).reverse
  if host = "" then .error (.invalidInput "route check target has no host")
  else
    match parseIpAddr host with
    | some addr => .ok (.ip addr)
    | none =>
      if 253 < (asciiLower host).utf8ByteSize || !(asciiLower host).toList.all targetChar then
        .error (.invalidInput "route check target is not a valid hostname")
      else .ok (.domain (asciiLower host))

/-- The authority: without a scheme, what follows it, and the user. -/
def targetAuthority (input : String) : String :=
  let rest :=
    match splitScheme input.toList with
    | some (_, rest) => rest
    | none => input.toList
  trim (String.ofList (afterAt (trim (String.ofList (beforePath rest))).toList))

/-- `host`, `host:port`, `scheme://host/path` or an address. -/
def parseTarget (raw : String) : Except XrayError (CheckTarget × Option Nat) :=
  if trim raw = "" then .error (.invalidInput "route check target is empty")
  else if targetAuthority (trim raw) = "" then
    .error (.invalidInput "route check target has no host")
  else do
    let (host, port) ← splitAuthority (targetAuthority (trim raw)).toList
    let target ← targetOfHost host
    .ok (target, port)

example : parseTarget "https://User@Example.COM:8443/some/path" =
    .ok (.domain "example.com", some 8443) := by decide

/-! ### Geo databases -/

/-- Why a selector could not be evaluated. -/
inductive UnknownReason where
  | geoAssetMissing
  | geoCategoryMissing
  | geoRegexRecords
  | regexpUnsupported
  | resolvedIpRecheck
  deriving DecidableEq

def UnknownReason.text : UnknownReason → String
  | .geoAssetMissing => "geoip/geosite selectors could not be evaluated: no geo assets on disk"
  | .geoCategoryMissing => "a geo category is absent from the loaded geo assets"
  | .geoRegexRecords => "a geo category contains regex records that were not evaluated"
  | .regexpUnsupported => "regexp: selectors are not evaluated locally"
  | .resolvedIpRecheck =>
    "domainStrategy resolves unmatched names, so IP rules may still decide this target"

inductive SelectorEval where
  | matched
  | miss
  | unknown (reason : UnknownReason)
  deriving DecidableEq

def SelectorEval.ofBool (hit : Bool) : SelectorEval := if hit then .matched else .miss

/-- A domain record. Its `kind` is 0 for a part of the name, 1 for a regular expression, 2 for a
name with its subdomains and 3 for a full name. -/
structure GeoDomain where
  kind : Nat
  value : String
  attrs : List String
  deriving DecidableEq

structure GeoSiteEntry where
  category : String
  domains : List GeoDomain
  deriving DecidableEq

structure GeoSiteDb where
  entries : List GeoSiteEntry
  deriving DecidableEq

structure GeoIpDb where
  entries : List (String × List IpNet)
  deriving DecidableEq

/-- The databases that could be loaded. -/
structure GeoDbs where
  geoSite : Option GeoSiteDb := none
  geoIp : Option GeoIpDb := none
  deriving DecidableEq

/-- What follows the first place where a part is found. -/
def afterFirst (part : List Char) : List Char → Option (List Char)
  | [] => if part.isEmpty then some [] else none
  | c :: cs =>
    if part.isPrefixOf (c :: cs) then some ((c :: cs).drop part.length) else afterFirst part cs

/-- Find the parts of a pattern in turn. The first may have to stand at the front. -/
def globParts : List (List Char) → Bool → List Char → Option (List Char)
  | [], _, rest => some rest
  | part :: parts, true, rest =>
    if part.isPrefixOf rest then globParts parts false (rest.drop part.length) else none
  | part :: parts, false, rest => (afterFirst part rest).bind (globParts parts false)

def globMatch (pattern value : String) : Bool :=
  if !pattern.toList.contains '*' then pattern == value
  else
    let parts := (splitChars '*' pattern.toList).filter fun part => !part.isEmpty
    match globParts parts (pattern.toList.head? != some '*') value.toList with
    | none => false
    | some rest =>
      let last := (pattern.toList.reverse.takeWhile (· != '*')).reverse
      pattern.toList.getLast? == some '*' || rest.isEmpty ||
        !last.isEmpty && last.isSuffixOf value.toList

def attrGlob (pattern : String) (attrs : List String) : Bool :=
  attrs.any (globMatch (asciiLower pattern))

/-- `strip_suffix`. -/
def stripSuffix (tail s : String) : Option (List Char) :=
  if tail.toList.isSuffixOf s.toList then
    some (s.toList.take (s.toList.length - tail.toList.length))
  else none

/-- The host is the pattern or lies under it. -/
def domainSuffixMatch (host pattern : String) : Bool :=
  host == pattern || (stripSuffix pattern host).any fun rest => rest.getLast? == some '.'

def containsText (host part : String) : Bool := decide (part.toList <:+: host.toList)

def GeoDomain.hits (host : String) (record : GeoDomain) : Bool :=
  match record.kind with
  | 0 => containsText host record.value
  | 2 => domainSuffixMatch host record.value
  | 3 => host == record.value
  | _ => false

/-- Regular expressions are not evaluated. They leave the lookup unknown where nothing else
hits. -/
def GeoSiteDb.lookup (db : GeoSiteDb) (category : String) (attr : Option String) (host : String) :
    SelectorEval :=
  match db.entries.find? fun entry => entry.category == asciiLower category with
  | none => .unknown .geoCategoryMissing
  | some entry =>
    let records := entry.domains.filter fun record => attr.all (attrGlob · record.attrs)
    if records.any (·.hits host) then .matched
    else if records.any (·.kind == 1) then .unknown .geoRegexRecords
    else .miss

def GeoIpDb.lookup (db : GeoIpDb) (code : String) (ip : IpAddr) : SelectorEval :=
  match db.entries.find? fun entry => entry.1 == asciiLower code with
  | none => .unknown .geoCategoryMissing
  | some entry => .ofBool (entry.2.any (·.containsAddr ip))

/-! ### Selectors -/

def evalDomainSelector (selector host : String) (geo : GeoDbs) : SelectorEval :=
  match stripPrefix "domain:" selector with
  | some value => .ofBool (domainSuffixMatch host (asciiLower value))
  | none =>
    match stripPrefix "full:" selector with
    | some value => .ofBool (host == asciiLower value)
    | none =>
      match stripPrefix "keyword:" selector with
      | some value => .ofBool (containsText host (asciiLower value))
      | none =>
        if (stripPrefix "regexp:" selector).isSome then .unknown .regexpUnsupported
        else
          match stripPrefix "geosite:" selector with
          | some category =>
            match geo.geoSite with
            | some db => db.lookup (splitAttr category).1 (splitAttr category).2 host
            | none => .unknown .geoAssetMissing
          | none => .ofBool (domainSuffixMatch host (asciiLower selector))

variable (text : NetText) (options : ProfileRoutingOptions) (geo : GeoDbs)

def evalIpSelector (selector : String) (ip : IpAddr) (geo : GeoDbs) : SelectorEval :=
  match stripPrefix "geoip:" selector with
  | some code =>
    match geo.geoIp with
    | some db => db.lookup code ip
    | none => .unknown .geoAssetMissing
  | none =>
    match parseIpAddr selector with
    | some literal => .ofBool (literal == ip)
    | none =>
      match text.parse selector with
      | some net => .ofBool (net.containsAddr ip)
      | none => .miss

def anyNetContains (nets : List String) (ip : IpAddr) : Bool :=
  (nets.filterMap text.parse).any (·.containsAddr ip)

/-! ### Results -/

inductive RouteCheckOutbound where
  | proxy
  | direct
  | block
  | dns
  deriving DecidableEq

inductive RouteCheckSource where
  | dnsCapture
  | policy
  | resolverPin
  | multicast
  | privateLan
  | default
  deriving DecidableEq

inductive RouteCheckCertainty where
  | certain
  | probable
  deriving DecidableEq

inductive RouteCheckStepOutcome where
  | matched
  | miss
  | unknown
  | skipped
  deriving DecidableEq

structure RouteCheckStep where
  label : String
  selector : Option String
  outcome : RouteCheckStepOutcome
  deriving DecidableEq

structure RouteCheckResult where
  target : String
  port : Option Nat
  targetKind : RouteCheckTargetKind
  outbound : RouteCheckOutbound
  source : RouteCheckSource
  policyIndex : Option Nat
  matchedSelector : Option String
  certainty : RouteCheckCertainty
  steps : List RouteCheckStep
  notes : List String
  deriving DecidableEq

structure Verdict where
  outbound : RouteCheckOutbound
  source : RouteCheckSource
  policyIndex : Option Nat := none
  matchedSelector : Option String := none
  deriving DecidableEq

/-! ### Stages -/

/-- What a stage of the check adds. -/
structure Stage where
  verdict : Option Verdict := none
  sawUnknown : Bool := false
  reasons : List UnknownReason := []
  steps : List RouteCheckStep := []

/-- The next stage, for as long as nothing is decided. -/
def Stage.orElse (a b : Stage) : Stage :=
  if a.verdict.isSome then a
  else ⟨b.verdict, a.sawUnknown || b.sawUnknown, a.reasons ++ b.reasons, a.steps ++ b.steps⟩

def DomainRouteTarget.outbound : DomainRouteTarget → RouteCheckOutbound
  | .proxy => .proxy
  | .direct => .direct
  | .block => .block

def DomainRouteTarget.label : DomainRouteTarget → String
  | .proxy => "proxy"
  | .direct => "direct"
  | .block => "block"

def captureStage (port : Option Nat) : Stage :=
  if !dnsActive options then {}
  else if port = some 53 then
    { verdict := some ⟨.dns, .dnsCapture, none, some "port:53"⟩
      steps := [⟨"dns capture (port 53)", some "port:53", .matched⟩] }
  else { steps := [⟨"dns capture (port 53)", some "port:53", .miss⟩] }

/-- Whether names are resolved before address rules. -/
def resolves : Bool :=
  options.domainStrategy == some .ipIfNonMatch || options.domainStrategy == some .ipOnDemand

/-- An address rule does not see a name, unless names are resolved. -/
def nameUnderIpRule (resolves : Bool) : SelectorEval :=
  if resolves then .unknown .resolvedIpRecheck else .miss

def isIpSelector (selector : String) : Bool :=
  match classifyRoutingSelector text selector with
  | .ok (some (.ip, _)) => true
  | _ => false

def selectorOutcome (resolves : Bool) (target : CheckTarget) (selector : String) : SelectorEval :=
  match target, isIpSelector text selector with
  | .domain host, false => evalDomainSelector selector host geo
  | .domain _, true => nameUnderIpRule resolves
  | .ip ip, true => evalIpSelector text selector ip geo
  | .ip _, false => .miss

/-- The selector of a policy that matches, and why others in front of it could not be told. -/
def scanPolicy (text : NetText) (geo : GeoDbs) (resolves : Bool) (target : CheckTarget) :
    List String → Option String × List UnknownReason
  | [] => (none, [])
  | selector :: rest =>
    if isComment (trim selector) then scanPolicy text geo resolves target rest
    else
      match selectorOutcome text geo resolves target (trim selector) with
      | .matched => (some (trim selector), [])
      | .unknown reason =>
        ((scanPolicy text geo resolves target rest).1,
          reason :: (scanPolicy text geo resolves target rest).2)
      | .miss => scanPolicy text geo resolves target rest

def policyStage (resolves : Bool) (target : CheckTarget)
    (index : Nat) (policy : DomainPolicy) : Stage :=
  let label := s!"{policy.target.label} rules #{index + 1}"
  match scanPolicy text geo resolves target policy.domains with
  | (some selector, reasons) =>
    { verdict := some ⟨policy.target.outbound, .policy, some index, some selector⟩
      reasons := reasons
      steps := [⟨label, some selector, .matched⟩] }
  | (none, reasons) =>
    { sawUnknown := !reasons.isEmpty
      reasons := reasons
      steps := [⟨label, none, if reasons.isEmpty then .miss else .unknown⟩] }

def policyStages (text : NetText) (geo : GeoDbs) (resolves : Bool) (target : CheckTarget) :
    Nat → List DomainPolicy → Stage
  | _, [] => {}
  | index, policy :: rest =>
    (policyStage text geo resolves target index policy).orElse
      (policyStages text geo resolves target (index + 1) rest)

def pinOutcome (resolves : Bool) (target : CheckTarget)
    (destination : SelectorKind × String) : SelectorEval :=
  match target, destination with
  | .domain host, (.domain, value) => .ofBool (domainSuffixMatch host (asciiLower value))
  | .ip ip, (.ip, value) => evalIpSelector text value ip geo
  | .domain _, (.ip, _) => nameUnderIpRule resolves
  | .ip _, (.domain, _) => .miss

def SelectorEval.reasons : SelectorEval → List UnknownReason
  | .unknown reason => [reason]
  | _ => []

def SelectorEval.outcome : SelectorEval → RouteCheckStepOutcome
  | .matched => .matched
  | .miss => .miss
  | .unknown _ => .unknown

/-- A resolver with a route of its own, at a destination of its own. -/
def pinStage (resolves : Bool) (target : CheckTarget) (server : XrayDnsServer) : Stage :=
  match server.route.target, dnsServerRouteTarget server.address with
  | some route, some destination =>
    let outcome := pinOutcome text geo resolves target destination
    { verdict :=
        if outcome = .matched then
          some ⟨route.outbound, .resolverPin, none, some (trim server.address)⟩
        else none
      sawUnknown := !outcome.reasons.isEmpty
      reasons := outcome.reasons
      steps := [⟨s!"resolver pin {trim server.address}", some destination.2, outcome.outcome⟩] }
  | _, _ => {}

def pinStages (text : NetText) (geo : GeoDbs) (resolves : Bool) (target : CheckTarget) :
    List XrayDnsServer → Stage
  | [] => {}
  | server :: rest =>
    (pinStage text geo resolves target server).orElse (pinStages text geo resolves target rest)

def rulesEmitted (policies : List DomainPolicy) (options : ProfileRoutingOptions) : Bool :=
  !policies.isEmpty || options.privateLanDirect || dnsActive options

/-- One of the two built-in rules for addresses. -/
def builtinStage (emitted : Bool) (nets : List String) (verdict : Verdict)
    (step : RouteCheckStep) : CheckTarget → Stage
  | .ip ip =>
    if emitted && anyNetContains text nets ip then { verdict := some verdict, steps := [step] }
    else {}
  | .domain _ => {}

def multicastStage (policies : List DomainPolicy)
    (options : ProfileRoutingOptions) (target : CheckTarget) : Stage :=
  builtinStage text (rulesEmitted policies options) multicastNets
    ⟨.block, .multicast, none, some "multicast"⟩
    ⟨"multicast", some "224.0.0.0/4, ff00::/8", .matched⟩ target

def privateLanStage (target : CheckTarget) : Stage :=
  builtinStage text options.privateLanDirect privateNets
    ⟨.direct, .privateLan, none, some "privateLanDirect"⟩
    ⟨"private LAN", some "private ranges", .matched⟩ target

/-- The stages that may decide, in order. -/
def checkStages (policies : List DomainPolicy) (options : ProfileRoutingOptions)
    (geo : GeoDbs) (target : CheckTarget) (port : Option Nat) : Stage :=
  (captureStage options port).orElse <|
    (policyStages text geo (resolves options) target 0 policies).orElse <|
      (pinStages text geo (resolves options) target options.dns.servers).orElse <|
        (multicastStage text policies options target).orElse <|
          privateLanStage text options target

def defaultVerdict : Verdict := ⟨.proxy, .default, none, none⟩

/-- `note`: each text once. -/
def addNote (notes : List String) (text : String) : List String :=
  if notes.contains text then notes else notes ++ [text]

def recheckReasons : CheckTarget → List UnknownReason
  | .domain _ => if resolves options then [.resolvedIpRecheck] else []
  | .ip _ => []

/-- Static hosts that rewrite how the target is resolved. -/
def hostNotes (dns : XrayDnsConfig) : CheckTarget → List String
  | .domain host =>
    (dns.hosts.filter fun entry => domainSuffixMatch host (asciiLower entry.1)).map fun entry =>
      s!"dns hosts entry `{entry.1}` rewrites resolution of this target"
  | .ip _ => []

def checkRoute (policies : List DomainPolicy) (options : ProfileRoutingOptions)
    (target : String) (geo : GeoDbs) : Except XrayError RouteCheckResult := do
  let (target, port) ← parseTarget target
  let found := checkStages text policies options geo target port
  let steps :=
    if found.verdict.isSome then found.steps else found.steps ++ [⟨"default", none, .matched⟩]
  let verdict := found.verdict.getD defaultVerdict
  let notes := ((found.reasons ++ recheckReasons options target).map UnknownReason.text).foldl addNote []
  .ok
    { target := target.label
      port := port
      targetKind := target.kind
      outbound := verdict.outbound
      source := verdict.source
      policyIndex := verdict.policyIndex
      matchedSelector := verdict.matchedSelector
      certainty := if found.sawUnknown then .probable else .certain
      steps := steps
      notes := notes ++ hostNotes options.dns target }

end NetOrchestrator.Core
