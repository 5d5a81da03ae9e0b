import NetOrchestrator.Daemon.Reconcile
import NetOrchestrator.Lib.Sorted

/-!
# `Daemon.CondRules`: routes that depend on where the machine is

A conditional rule installs its routes while some physical link has an address in the rule's
prefix. `reconcileConditional` evaluates all stored rules against a snapshot of the addresses
and of the daemon's routes in the kernel: it withdraws the entries whose rule is gone, then
takes the rules one after another and installs, replaces or withdraws the entry of each.

`CondRulesDocument` is the stored form, one document for each user.
-/

namespace NetOrchestrator.Daemon

open Net Lib

/-! ### Rules -/

inductive RouteCondition where
  | interfaceAddressIn (net : IpNet)
  deriving DecidableEq

structure ConditionalRouteRule where
  id : String
  name : String
  enabled : Bool
  condition : RouteCondition
  routes : List PolicyRoute
  deriving DecidableEq

def maxRuleRoutes : Nat := 256
def maxRuleIdBytes : Nat := 48
def maxRuleNameBytes : Nat := 128

/-- The errors of `validate_rule`, with the values that their texts print. -/
inductive RuleRefusal where
  | id
  | name
  | prefixHostBits (net : IpNet)
  | routeCount (count : Nat)
  | hostBits (destination : IpNet)
  | gatewayFamily (via : IpAddr) (destination : IpNet)
  | gatewayNotUnicast (via : IpAddr)
  | duplicate (destination : IpNet) (metric : Nat)
  deriving DecidableEq

def validatePolicyRoute (route : PolicyRoute) : Except RuleRefusal Unit :=
  if route.destination.trunc ≠ route.destination then .error (.hostBits route.destination)
  else
    match route.via with
    | none => .ok ()
    | some via =>
      if via.isIpv4 != route.destination.isIpv4 then
        .error (.gatewayFamily via route.destination)
      else if via.isUnspecified || via.isMulticast then .error (.gatewayNotUnicast via)
      else .ok ()

/-- The loop over the routes. `seen` are the destinations and metrics before. -/
def validateRuleRoutes (seen : List (IpNet × Nat)) : List PolicyRoute → Except RuleRefusal Unit
  | [] => .ok ()
  | route :: rest => do
      validatePolicyRoute route
      if seen.contains (route.destination, route.metric) then
        .error (.duplicate route.destination route.metric)
      else validateRuleRoutes ((route.destination, route.metric) :: seen) rest

def validateRule (rule : ConditionalRouteRule) : Except RuleRefusal Unit :=
  if rule.id = "" ∨ maxRuleIdBytes < rule.id.utf8ByteSize ∨
      !rule.id.toList.head?.any isAsciiAlphanumeric ∨
      !rule.id.toList.all (fun c => isAsciiAlphanumeric c || ['.', '_', '-'].contains c) then
    .error .id
  else if rule.name = "" ∨ maxRuleNameBytes < rule.name.utf8ByteSize ∨
      rule.name.toList.any isControl then
    .error .name
  else
    match rule.condition with
    | .interfaceAddressIn net =>
      if net.trunc ≠ net then .error (.prefixHostBits net)
      else if rule.routes.isEmpty || maxRuleRoutes < rule.routes.length then
        .error (.routeCount rule.routes.length)
      else validateRuleRoutes [] rule.routes

/-! ### What a rule wants -/

/-- An address on a link. Only scope zero, which is global, counts. -/
structure IfaceAddr where
  ifindex : Nat
  name : String
  address : IpNet
  scope : Nat
  deriving DecidableEq

def nonUplinkPrefixes : List String :=
  [ "lo", "wg", "xray", "ovpn", "tun", "tap", "tailscale", "happ", "docker", "veth", "br-",
    "virbr", "vnet", "podman", "cni", "flannel", "lxc", "ppp", "gre", "gretap", "erspan", "ipip",
    "sit", "ip6tnl", "vti", "ifb", "dummy", "vcan", "vxcan", "nlmon", "zt" ]

def nonUplinkName (name : String) : Bool :=
  nonUplinkPrefixes.any fun start => start.toList.isPrefixOf name.toList

/-- The first address with the lowest index. -/
def minByIndex : List IfaceAddr → Option IfaceAddr
  | [] => none
  | first :: rest =>
    some (rest.foldl (fun best addr => if addr.ifindex < best.ifindex then addr else best) first)

/-- `match_interface`. -/
def matchInterface (addrs : List IfaceAddr) (net : IpNet) (owned : List Nat) :
    Option (Nat × String) :=
  let matching := addrs.filter fun addr =>
    addr.scope == 0 && addr.ifindex != 0 && !owned.contains addr.ifindex &&
      !nonUplinkName addr.name && net.containsAddr addr.address.addr
  (minByIndex matching).map fun addr => (addr.ifindex, addr.name)

/-- `plan_routes`. -/
def planRoutes (rule : ConditionalRouteRule) (ifindex : Nat) : List AppliedRoute :=
  rule.routes.map fun route =>
    { destination := route.destination
      interfaceIndex := ifindex
      metric := route.metric
      gateway := route.via
      table := none }

/-- The link that the rule matches, if it is enabled. -/
def ConditionalRouteRule.matched (rule : ConditionalRouteRule) (addrs : List IfaceAddr)
    (owned : List Nat) : Option (Nat × String) :=
  if rule.enabled then
    match rule.condition with
    | .interfaceAddressIn net => matchInterface addrs net owned
  else none

/-- The routes that the rule derives. -/
def ConditionalRouteRule.desired (rule : ConditionalRouteRule) (addrs : List IfaceAddr)
    (owned : List Nat) : Option (List AppliedRoute) :=
  (rule.matched addrs owned).map fun link => planRoutes rule link.1

/-- A stored rule and its user. -/
abbrev UserRule := Nat × ConditionalRouteRule

/-- The owner of the rule's entry, `cond:<id>`. -/
def UserRule.key (rule : UserRule) : OwnerKey := (rule.1, .cond rule.2.id)

/-! ### Evaluating -/

/-- `owned_ifindices`: links that the daemon made itself. -/
def ownedIfindices (journal : Journal) : List Nat :=
  (journal.flatMap fun entry => entry.resources.filterMap fun
    | .wireGuardLink link => some link.index
    | .xrayProcess process => some process.index
    | .address address => some address.interfaceIndex
    | _ => none).filter fun index => index != 0

structure CondRuleEval where
  matchedInterface : Option String
  error : Option IoError
  deriving DecidableEq

/-- What a pass did: the owners that changed and the outcome for each rule. -/
structure CondPass where
  changed : List OwnerKey
  evals : List (OwnerKey × CondRuleEval)
  deriving DecidableEq

/-- Whether this is the entry of a rule that is gone. -/
def condOrphan (rules : List UserRule) (entry : JournalEntry) : Bool :=
  match entry.owner with
  | .cond _ => !(rules.map UserRule.key).contains (entry.uid, entry.owner)
  | _ => false

/-- The loop over the orphans, the newest entry first. A failed removal is logged. -/
def removeOrphans (rules : List UserRule) : Nat → List OwnerKey → Prog (List OwnerKey)
  | 0, changed => pure changed
  | index + 1, changed => do
      let entry ← entryAt index
      if condOrphan rules entry then do
        let _ ← Call.attempt (removeOwnerInner entry.uid entry.owner)
        removeOrphans rules index (changed ++ [(entry.uid, entry.owner)])
      else removeOrphans rules index changed

/-- Whether an entry is what the rule derives, in the journal and in the kernel. -/
def JournalEntry.inSync (entry : JournalEntry) (routes observed : List AppliedRoute) : Bool :=
  let journaled := ownedRoutes entry.resources
  entry.state == .applied && journaled.length == routes.length &&
    routes.all (fun route => journaled.contains route) && routes.all (hasRoute observed)

/-- One rule: whether its owner changed. -/
def evaluateRule (observed : List AppliedRoute) (rule : UserRule)
    (desired : Option (List AppliedRoute)) : Prog Bool := do
  match ← position rule.1 rule.key.2, desired with
  | none, none => pure false
  | some _, none => do
      let _ ← removeOwnerInner rule.1 rule.key.2
      pure true
  | none, some routes => do
      let _ ← applyRoutesInner rule.1 rule.key.2 routes none
      pure true
  | some index, some routes => do
      let entry ← entryAt index
      if entry.inSync routes observed then pure false
      else do
        let _ ← removeOwnerInner rule.1 rule.key.2
        let _ ← applyRoutesInner rule.1 rule.key.2 routes none
        pure true

def CondPass.record (pass : CondPass) (rule : UserRule) (matchedInterface : Option String) :
    Except IoError Bool → CondPass
  | .ok touched =>
    { changed := if touched then pass.changed ++ [rule.key] else pass.changed
      evals := pass.evals ++ [(rule.key, ⟨matchedInterface, none⟩)] }
  | .error e => { pass with evals := pass.evals ++ [(rule.key, ⟨matchedInterface, some e⟩)] }

/-- The loop over the rules. -/
def evaluateRules (addrs : List IfaceAddr) (observed : List AppliedRoute) (owned : List Nat) :
    List UserRule → CondPass → Prog CondPass
  | [], pass => pure pass
  | rule :: rest, pass => do
      let result ← Call.attempt (evaluateRule observed rule (rule.2.desired addrs owned))
      evaluateRules addrs observed owned rest
        (pass.record rule ((rule.2.matched addrs owned).map Prod.snd) result)

/-- `reconcile_conditional`. -/
def reconcileConditional (addrs : List IfaceAddr) (observed : List AppliedRoute)
    (rules : List UserRule) : Prog CondPass := do
  let count ← Call.gets fun core => core.journal.length
  let changed ← removeOrphans rules count []
  let owned ← Call.gets fun core => ownedIfindices core.journal
  evaluateRules addrs observed owned rules ⟨changed, []⟩

/-! ### Observing -/

/-- `owned_route_snapshot`: a row of the dump, if it is a route of the daemon on one link. -/
def KernelRoute.ownedSnapshot (row : KernelRoute) : Option AppliedRoute :=
  if row.route.protocol = rtprotNetworkOrchestrator ∧ row.route.kind = .unicast then
    row.route.interfaceIndex.map fun index =>
      { destination := row.route.destination.trunc
        interfaceIndex := index
        metric := row.route.metric.getD 0
        gateway := row.route.gateway
        table := if row.route.table = rtTableMain then none else some row.route.table }
  else none

/-- `owned_routes_snapshot`. -/
def Kernel.ownedRoutesSnapshot (k : Kernel) : List AppliedRoute :=
  k.routes.rows.filterMap KernelRoute.ownedSnapshot

/-! ### The documents -/

/-- `invalid_data`. -/
def condRulesInvalid : IoError := ⟨.invalidData, .text "conditional rules are not safe to load"⟩

def maxRules : Nat := 32

structure CondRulesDocument where
  rules : List ConditionalRouteRule
  deriving DecidableEq

namespace CondRulesDocument

def blank : CondRulesDocument := ⟨[]⟩

/-- `upsert`: the document with the rule in it, and whether that is a change. -/
def upsert (rule : ConditionalRouteRule) (document : CondRulesDocument) :
    Except IoError (Bool × CondRulesDocument) :=
  match document.rules.find? fun item => item.id == rule.id with
  | some existing =>
    if existing = rule then .ok (false, document)
    else
      let index := document.rules.findIdx fun item => item.id == rule.id
      .ok (true, ⟨document.rules.set index rule⟩)
  | none =>
    if maxRules ≤ document.rules.length then .error condRulesInvalid
    else .ok (true, ⟨document.rules ++ [rule]⟩)

/-- `remove`. -/
def remove (ruleId : String) (document : CondRulesDocument) : Bool × CondRulesDocument :=
  let kept := document.rules.filter fun rule => rule.id != ruleId
  if kept.length = document.rules.length then (false, document) else (true, ⟨kept⟩)

end CondRulesDocument

/-- One document for each user, in the order of the uids. -/
abbrev CondRuleStore := Sorted CondRulesDocument

namespace CondRuleStore

/-- `load_uid`. -/
def loadUid (store : CondRuleStore) (uid : Nat) : CondRulesDocument := (store.get? uid).getD .blank

/-- `load_all_rules`: an unreadable document is skipped. -/
def loadAllRules (root : Bool) (readable : Nat → Bool) (store : CondRuleStore) :
    Except IoError (List UserRule) :=
  if root then
    .ok (store.rows.flatMap fun row =>
      if readable row.1 then row.2.rules.map fun rule => (row.1, rule) else [])
  else .error condRulesInvalid

end CondRuleStore

end NetOrchestrator.Daemon
