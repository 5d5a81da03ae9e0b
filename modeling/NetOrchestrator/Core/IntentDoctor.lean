import NetOrchestrator.Core.Policy
import NetOrchestrator.Core.XrayOptions
import NetOrchestrator.Lib.Names
import Mathlib.Data.List.Sort

/-!
# `Core.IntentDoctor`: fixes for broken routing intents

The doctor looks at the stored intents, the system's routes and interfaces and the servers of
the user's connections. It proposes intents that pin servers to the uplink: one for each tunnel
that a server's traffic goes into now, and one for the servers that an intent for all traffic is
going to take. A conflict is reported without a fix.

`storeFixes` is not the doctor's: it says what becomes of the stored intents when the fixes are
handed to `net.intent.set`, one after another.
-/

namespace NetOrchestrator.Core.IntentDoctor

open Net Lib
open Daemon (NetIntentPath NetIntentSetParams isAsciiAlphanumeric trim asciiLower)

/-- `BYPASS_METRIC`. -/
def bypassMetric : Nat := 50

/-! ### What the doctor reads -/

inductive ExplainStatus where
  | effective
  | deferred
  | conflicted
  | missing
  | active
  | disabled
  deriving DecidableEq

/-- What the doctor reads of a `NetIntentView`. -/
structure NetIntentView where
  id : String
  destinations : List String
  path : NetIntentPath
  enabled : Bool
  status : ExplainStatus
  deriving DecidableEq

structure RouteEntry where
  destination : IpAddr
  prefixLen : Nat
  gateway : Option IpAddr
  interfaceIndex : Nat
  interfaceName : String
  metric : Nat
  deriving DecidableEq

structure KnownEndpoint where
  ip : IpAddr
  profile : String
  deriving DecidableEq

inductive SuggestionKind where
  | endpointViaTunnel
  | uncoveredEndpoints
  | conflict
  deriving DecidableEq

structure IntentSuggestion where
  key : String
  kind : SuggestionKind
  viaInterface : Option String
  intentId : Option String
  destination : Option String
  endpoints : List String
  foreignRoute : Option RouteEntry
  fixes : List NetIntentSetParams
  deriving DecidableEq

/-! ### Which servers are in danger -/

section
variable (text : NetText)

/-- Whether a network, or a bare address, contains `ip`. -/
def cidrCovers (cidr : String) (ip : IpAddr) : Bool :=
  let cidr := trim cidr
  ((text.parse cidr).or ((parseIpAddr cidr).map IpAddr.toNet)).any fun net => net.containsAddr ip

/-- An interface of the inventory is judged by its category, any other by its name. -/
def tunnelish (name : String) (interfaces : List NetworkInterface) : Bool :=
  match interfaces.find? fun iface => iface.name == name with
  | some known => known.category == .vpn || known.category == .tunnel
  | none =>
    ["tun", "wg", "utun", "vpn", "ppp", "tailscale"].any fun start =>
      start.toList.isPrefixOf (asciiLower name).toList

/-- The addresses in order, each once. -/
def uniqueEndpoints (endpoints : List KnownEndpoint) : List IpAddr :=
  endpoints.foldl (fun seen e => if seen.contains e.ip then seen else seen ++ [e.ip]) []

/-- An enabled `direct` intent pins `ip` to the uplink. -/
def coveredByDirect (ip : IpAddr) (intents : List NetIntentView) : Bool :=
  intents.any fun intent =>
    intent.enabled && intent.path.kind == "direct" &&
      intent.destinations.any fun dest => cidrCovers text dest ip

/-- The network of a route. The route table may hold a length that the family does not have. -/
def RouteEntry.net (route : RouteEntry) : Option IpNet := netOf route.destination route.prefixLen

/-- `route` is looked at before `best`: a longer prefix, then a lower metric. -/
def RouteEntry.beats (route best : RouteEntry) : Bool :=
  best.prefixLen < route.prefixLen ||
    (route.prefixLen == best.prefixLen && route.metric < best.metric)

/-- `explorer::longest_prefix_match`: the first of the best. -/
def longestPrefixMatch (dest : IpAddr) (routes : List RouteEntry) : Option RouteEntry :=
  match routes.filter fun route => route.net.any fun net => net.containsAddr dest with
  | [] => none
  | first :: rest =>
    some (rest.foldl (fun best route => if route.beats best then route else best) first)

/-! ### Fixes -/

/-- One character of a slug. A run of other characters makes one dash. -/
def slugStep (state : List Char × Bool) (c : Char) : List Char × Bool :=
  if isAsciiAlphanumeric c || c == '_' || c == '-' then (state.1 ++ [c], false)
  else if !state.2 then (state.1 ++ ['-'], true)
  else state

/-- `trim_matches('-')`. -/
def trimDashes (cs : List Char) : List Char :=
  ((cs.dropWhile (· == '-')).reverse.dropWhile (· == '-')).reverse

def bypassSlug (base : String) : String :=
  let slug := trimDashes ((asciiLower base).toList.foldl slugStep ([], false)).1
  if slug.isEmpty then "uplink" else String.ofList slug

/-- A free `bypass-…` id. -/
def bypassId (base : String) (intents : List NetIntentView) (takenExtra : List String) : String :=
  let taken := intents.map NetIntentView.id ++ takenExtra
  firstFree (numbered ("bypass-" ++ bypassSlug base)) taken 0 taken.length

def bypassIntent (id : String) (ips : List String) : NetIntentSetParams :=
  { id
    destinations := (ips.insertionSort (· ≤ ·)).map fun ip =>
      let host := if ip.toList.contains ':' then 128 else 32
      s!"{ip}/{host}"
    path := ⟨"direct", none, none⟩
    metric := some bypassMetric
    enabled := none }

def uncoveredEndpointIntents (endpoints : List KnownEndpoint) (intents : List NetIntentView)
    (via : String) (takenExtra : List String) : List NetIntentSetParams :=
  let ips := (((uniqueEndpoints endpoints).filter fun ip => !coveredByDirect text ip intents).map
    renderIp).insertionSort (· ≤ ·)
  if ips.isEmpty then [] else [bypassIntent (bypassId via intents takenExtra) ips]

/-! ### The analysis -/

/-- `entry(via).or_default().push(ip)` of a `BTreeMap`. -/
def pushEntry (via ip : String) (swallowed : List (String × List String)) :
    List (String × List String) :=
  insertField via ((getField via swallowed).getD [] ++ [ip]) swallowed

structure Swallowed where
  swallowed : List (String × List String)
  claimed : List IpAddr
  deriving DecidableEq

/-- One turn of the loop over the endpoints. -/
def swallowStep (intents : List NetIntentView) (routes : List RouteEntry)
    (interfaces : List NetworkInterface) (state : Swallowed) (ip : IpAddr) : Swallowed :=
  if coveredByDirect text ip intents then state
  else
    match longestPrefixMatch ip routes with
    | none => state
    | some route =>
      if !tunnelish route.interfaceName interfaces then state
      else
        { swallowed := pushEntry route.interfaceName (renderIp ip) state.swallowed
          claimed := ip :: state.claimed }

/-- 1. An endpoint's traffic goes into a tunnel now. -/
def endpointSuggestion (intents : List NetIntentView) (group : String × List String) :
    IntentSuggestion :=
  let via := group.1
  let ips := group.2.insertionSort (· ≤ ·)
  { key := s!"endpoint-via-tunnel:{via}:" ++ ",".intercalate ips
    kind := .endpointViaTunnel
    viaInterface := some via
    intentId := none
    destination := none
    endpoints := ips
    foreignRoute := none
    fixes := [bypassIntent (bypassId via intents []) ips] }

/-- An enabled intent that takes half of all traffic or more through an interface. -/
def isBroad (intent : NetIntentView) : Bool :=
  intent.enabled && intent.path.kind == "interface" &&
    intent.destinations.any fun dest => (text.parse dest).any fun net => net.len ≤ 1

/-- 2. An endpoint that a broad intent is going to take. -/
def uncoveredSuggestions (intents : List NetIntentView) (endpointIps claimed : List IpAddr) :
    List IntentSuggestion :=
  match intents.find? (isBroad text) with
  | none => []
  | some broad =>
    let uncovered := ((endpointIps.filter fun ip =>
      !claimed.contains ip && !coveredByDirect text ip intents).map renderIp).insertionSort
        (· ≤ ·)
    if uncovered.isEmpty then []
    else
      let via := broad.path.interface.getD "?"
      [{ key := s!"uncovered-endpoints:{via}:" ++ ",".intercalate uncovered
         kind := .uncoveredEndpoints
         viaInterface := some via
         intentId := none
         destination := none
         endpoints := uncovered
         foreignRoute := none
         fixes := [bypassIntent (bypassId via intents []) uncovered] }]

/-- 3. The first destination of a conflicted intent that another route holds. -/
def conflictSuggestion (routes : List RouteEntry) (intent : NetIntentView) :
    Option IntentSuggestion :=
  intent.destinations.findSome? fun destination => do
    let wanted ← (text.parse destination).map IpNet.trunc
    let foreign ← routes.find? fun route => route.net.map IpNet.trunc == some wanted
    some
      { key := s!"conflict:{intent.id}:{destination}"
        kind := .conflict
        viaInterface := none
        intentId := some intent.id
        destination := some destination
        endpoints := []
        foreignRoute := some foreign
        fixes := [] }

def analyze (intents : List NetIntentView) (routes : List RouteEntry)
    (interfaces : List NetworkInterface) (endpoints : List KnownEndpoint) : List IntentSuggestion :=
  let endpointIps := uniqueEndpoints endpoints
  let found := endpointIps.foldl (swallowStep text intents routes interfaces) ⟨[], []⟩
  found.swallowed.map (endpointSuggestion intents) ++
    uncoveredSuggestions text intents endpointIps found.claimed ++
    (intents.filter fun intent => intent.status == .conflicted).filterMap
      (conflictSuggestion text routes)

/-! ### Storing the fixes -/

/-- What a stored intent is listed as. -/
def viewOf (status : String → ExplainStatus) (path : NetIntentPath) (intent : Intent) :
    NetIntentView :=
  { id := intent.id
    destinations := intent.destinations.map text.render
    path
    enabled := intent.enabled
    status := status intent.id }

/-- `net.intent.set`, as the list of the stored intents shows it. -/
def storeFix (status : String → ExplainStatus) (intents : List NetIntentView)
    (fix : NetIntentSetParams) : List NetIntentView :=
  match normalize text fix with
  | .error _ => intents
  | .ok intent =>
    match intents.findIdx? fun stored => stored.id == intent.id with
    | some index => intents.set index (viewOf text status fix.path intent)
    | none => intents ++ [viewOf text status fix.path intent]

def storeFixes (status : String → ExplainStatus) (intents : List NetIntentView)
    (fixes : List NetIntentSetParams) : List NetIntentView :=
  fixes.foldl (storeFix text status) intents

end

end NetOrchestrator.Core.IntentDoctor
