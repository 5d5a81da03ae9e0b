import NetOrchestrator.Lib.Keyed
import NetOrchestrator.Daemon.Protocol

/-!
# `Daemon.Kernel`: the kernel's tables behind the executors

The daemon changes the kernel through netlink. This module is the kernel on the other side:
its routes, policy rules, links and addresses, and what each netlink request does to them.
A table keeps one route for each family, table, destination, metric and next hop, and one
rule for each set of selectors; a request for a taken key is refused with `AlreadyExists`
and a request to delete what is not there with `NotFound`.

Rows are kept in the form the kernel dumps them: an IPv6 metric of zero is stored as 1024,
a mark without a mask gets the full mask, host bits are cleared. `KernelRoute` and
`KernelRule` carry the proof that their row is in that form.

`Origin` is a ghost. No function of the daemon reads it; it records who put an object into
the kernel, so that ownership can be stated.
-/

namespace NetOrchestrator.Daemon

open Net Lib

/-- Who put an object into the kernel: somebody else, or the daemon for one owner. -/
inductive Origin where
  | foreign
  | daemon (uid : Nat) (owner : Owner)
  deriving DecidableEq

/-! ### Routes -/

/-- The metric under which the kernel files a route. -/
def kernelMetric (family : IpFamily) (metric : Nat) : Nat :=
  if family = .ipv6 ∧ metric = 0 then 1024 else metric

/-- What makes two routes the same object for the kernel. -/
structure RouteKey where
  family : IpFamily
  destination : IpNet
  table : Nat
  metric : Nat
  interfaceIndex : Option Nat
  gateway : Option IpAddr
  nexthops : List (Nat × Option IpAddr)
  deriving DecidableEq

def SystemRoute.key (r : SystemRoute) : RouteKey :=
  { family := r.family
    destination := r.destination.trunc
    table := r.table
    metric := kernelMetric r.family (r.metric.getD 0)
    interfaceIndex := r.interfaceIndex
    gateway := r.gateway
    nexthops := r.nexthops.map fun hop => (hop.interfaceIndex, hop.gateway) }

/-- What a request with `NLM_F_EXCL` competes for: a table has one place for each family,
destination and metric, whatever the next hop. -/
def RouteKey.slot (key : RouteKey) : IpFamily × IpNet × Nat × Nat :=
  (key.family, key.destination, key.table, key.metric)

/-- A metric as a dump reports it: the kernel leaves a zero out. -/
def dumpedMetric (metric : Nat) : Option Nat := if metric = 0 then none else some metric

def SystemNexthop.anonymous (hop : SystemNexthop) : SystemNexthop :=
  { hop with interfaceName := none }

/-- The route as the kernel stores it. Interface names are not part of a route; the dump
looks them up. -/
def SystemRoute.stored (r : SystemRoute) : SystemRoute :=
  { r with
    destination := r.destination.trunc
    metric := dumpedMetric (kernelMetric r.family (r.metric.getD 0))
    managed := r.protocol == rtprotNetworkOrchestrator
    interfaceName := none
    nexthops := r.nexthops.map SystemNexthop.anonymous }

@[simp]
theorem getD_dumpedMetric (m : Nat) : (dumpedMetric m).getD 0 = m := by
  unfold dumpedMetric
  split
  · simp [*]
  · rfl

@[simp]
theorem kernelMetric_kernelMetric (f : IpFamily) (m : Nat) :
    kernelMetric f (kernelMetric f m) = kernelMetric f m := by
  unfold kernelMetric
  split <;> simp_all

variable (r : SystemRoute)

theorem SystemRoute.stored_stored : r.stored.stored = r.stored := by
  simp [SystemRoute.stored, IpNet.trunc_trunc, Function.comp_def, SystemNexthop.anonymous]

@[simp]
theorem SystemRoute.key_stored : r.stored.key = r.key := by
  simp [SystemRoute.key, SystemRoute.stored, IpNet.trunc_trunc, SystemNexthop.anonymous]

/-- A route in the kernel, in stored form. -/
structure KernelRoute where
  route : SystemRoute
  origin : Origin
  normal : route.stored = route
  deriving DecidableEq

def KernelRoute.key (row : KernelRoute) : RouteKey := row.route.key

/-- The row that a request to install `r` leaves behind. -/
def SystemRoute.install (r : SystemRoute) (origin : Origin) : KernelRoute :=
  { route := r.stored, origin, normal := r.stored_stored }

section
variable (r : SystemRoute) (o : Origin)

@[simp]
theorem SystemRoute.key_install : (r.install o).key = r.key := r.key_stored

end

/-- Whether a route leaves through the link. -/
def KernelRoute.rides (row : KernelRoute) (index : Nat) : Bool :=
  row.route.interfaceIndex == some index ||
    row.route.nexthops.any (fun hop => hop.interfaceIndex == index)

/-- `route_request`: the row that an `AppliedRoute` asks for. -/
def AppliedRoute.system (r : AppliedRoute) : SystemRoute :=
  { family := r.destination.family
    destination := r.destination
    table := r.table.getD rtTableMain
    kind := .unicast
    scope := if r.destination.isIpv4 && r.gateway.isNone then .link else .universe
    protocol := rtprotNetworkOrchestrator
    managed := true
    gateway := r.gateway
    interfaceIndex := some r.interfaceIndex
    interfaceName := none
    metric := some r.metric
    prefSource := none
    nexthops := [] }

def AppliedRoute.key (r : AppliedRoute) : RouteKey := r.system.key

/-! ### Rules -/

def fullMask : Nat := 0xffffffff

/-- The rule as the kernel stores it: a mark without a mask is compared in all its bits. -/
def SystemRule.stored (r : SystemRule) : SystemRule :=
  { r with
    fwmask := if r.fwmark.isSome then some (r.fwmask.getD fullMask) else r.fwmask
    managed := r.protocol == rtprotNetworkOrchestrator }

theorem SystemRule.stored_stored (r : SystemRule) : r.stored.stored = r.stored := by
  unfold SystemRule.stored
  by_cases h : r.fwmark.isSome <;> simp [h]

/-- What makes two rules the same object for the kernel: everything but who installed
them. -/
def SystemRule.key (r : SystemRule) : SystemRule :=
  { r.stored with protocol := 0, managed := false }

@[simp]
theorem SystemRule.key_stored (r : SystemRule) : r.stored.key = r.key := by
  simp [SystemRule.key, SystemRule.stored_stored]

/-- A rule in the kernel, in stored form. -/
structure KernelRule where
  rule : SystemRule
  origin : Origin
  normal : rule.stored = rule
  deriving DecidableEq

def KernelRule.key (row : KernelRule) : SystemRule := row.rule.key

def SystemRule.install (r : SystemRule) (origin : Origin) : KernelRule :=
  { rule := r.stored, origin, normal := r.stored_stored }

section
variable (r : SystemRule) (o : Origin)

@[simp]
theorem SystemRule.key_install : (r.install o).key = r.key := r.key_stored

end

/-- `rule_request`: the rule that a full tunnel asks for. -/
def OwnedRuleResource.system (r : OwnedRuleResource) : SystemRule :=
  { family := r.family
    priority := r.priority
    action := .lookup
    table := r.table
    goto := none
    src := none
    dst := none
    fwmark := r.fwmark
    fwmask := r.fwmark.map fun _ => fullMask
    iifname := none
    oifname := none
    uidRange := none
    sourcePortRange := none
    destinationPortRange := none
    ipProtocol := none
    suppressPrefixLength := r.suppressPrefixLength
    suppressIfGroup := none
    tunId := none
    tos := 0
    invert := r.invert
    protocol := rtprotNetworkOrchestrator
    managed := true }

/-- `rule_snapshot`. -/
def SystemRule.snapshot (r : SystemRule) : OwnedRuleResource :=
  { family := r.family
    priority := r.priority
    table := r.table
    fwmark := r.fwmark
    invert := r.invert
    suppressPrefixLength := r.suppressPrefixLength }

/-! ### Links -/

inductive LinkKind where
  | wireguard
  | tun
  | other
  deriving DecidableEq

structure KernelLink where
  name : String
  index : Nat
  kind : LinkKind
  ifAlias : String
  origin : Origin
  deriving DecidableEq

structure Kernel where
  routes : Table KernelRoute.key
  rules : Table KernelRule.key
  links : Table KernelLink.name
  addresses : List (Nat × IpNet)
  deriving DecidableEq

/-- What a netlink request answers, and the kernel after it. -/
abbrev Reply (α : Type) := Except IoError α × Kernel

def notFound : IoError := ⟨.notFound, .executor⟩
def alreadyExists : IoError := ⟨.alreadyExists, .executor⟩

namespace Kernel

def empty : Kernel :=
  { routes := Table.empty, rules := Table.empty, links := Table.empty, addresses := [] }

variable (k : Kernel)

/-- An exclusive add. -/
def addRouteRow (row : KernelRoute) : Reply Unit :=
  if k.routes.has row.key then (.error alreadyExists, k)
  else (.ok (), { k with routes := k.routes.insert row })

/-- Remove the routes that a request selects. -/
def removeRouteRows (selects : KernelRoute → Bool) : Reply Unit :=
  if k.routes.rows.any selects then (.ok (), { k with routes := k.routes.drop selects })
  else (.error notFound, k)

/-- The add of an attach entry. It tells routes with different next hops apart, as the table does;
a request with `NLM_F_EXCL` is refused for a route with another next hop in its slot too. Attach
entries treat that refusal as they treat every failure of the request, and any step may fail. -/
def addRoute (origin : Origin) (r : AppliedRoute) : Reply Unit :=
  k.addRouteRow (r.system.install origin)

def slotTaken (route : AppliedRoute) : Bool :=
  k.routes.rows.any fun row => row.key.slot == route.key.slot

/-- The add of a tunnel or a migration, which tell a taken slot from a failure. -/
def addRouteExclusive (origin : Origin) (route : AppliedRoute) : Reply Unit :=
  if k.slotTaken route then (.error alreadyExists, k) else k.addRoute origin route

/-- A delete names the daemon's protocol number, so it selects no route of another
program. -/
def removeRoute (r : AppliedRoute) : Reply Unit :=
  k.removeRouteRows fun row =>
    row.key == r.key && row.route.protocol == rtprotNetworkOrchestrator

def addSystemRoute (origin : Origin) (r : SystemRoute) : Reply Unit :=
  k.addRouteRow (r.install origin)

/-- The protocol number of the request selects too, and zero selects any. -/
def removeSystemRoute (r : SystemRoute) : Reply Unit :=
  k.removeRouteRows fun row =>
    row.key == r.key && (r.protocol == 0 || row.route.protocol == r.protocol)

def addRuleRow (row : KernelRule) : Reply Unit :=
  if k.rules.has row.key then (.error alreadyExists, k)
  else (.ok (), { k with rules := k.rules.insert row })

def addSystemRule (origin : Origin) (r : SystemRule) : Reply Unit :=
  k.addRuleRow (r.install origin)

def removeRuleRows (selects : KernelRule → Bool) : Reply Unit :=
  if k.rules.rows.any selects then (.ok (), { k with rules := k.rules.drop selects })
  else (.error notFound, k)

def removeSystemRule (r : SystemRule) : Reply Unit :=
  k.removeRuleRows fun row =>
    row.key == r.key && (r.protocol == 0 || row.rule.protocol == r.protocol)

/-- A rule of the family with this priority. -/
def priorityOccupied (r : OwnedRuleResource) : Bool :=
  k.rules.rows.any fun row => row.rule.family == r.family && row.rule.priority == r.priority

/-- `is_owned_rule`: exactly the rule that `rule_request` installs. -/
def rulePresent (r : OwnedRuleResource) : Bool :=
  k.rules.rows.any fun row => row.rule == r.system.stored

/-- The executor refuses an occupied priority before it asks the kernel. -/
def addRule (origin : Origin) (r : OwnedRuleResource) : Reply Unit :=
  if k.priorityOccupied r then (.error alreadyExists, k)
  else k.addRuleRow (r.system.install origin)

/-- Another rule at the same priority is an error, not an absence. -/
def removeRule (r : OwnedRuleResource) : Reply Unit :=
  if k.rulePresent r then
    (.ok (), { k with rules := k.rules.drop fun row => row.rule == r.system.stored })
  else if k.priorityOccupied r then
    (.error ⟨.other, .text "policy rule identity is unverified"⟩, k)
  else (.error ⟨.notFound, .text "owned policy rule not found"⟩, k)

def rulesSnapshot : List OwnedRuleResource :=
  k.rules.rows.map fun row => row.rule.snapshot

def tableInUse (table : Nat) : Bool :=
  k.rules.rows.any (fun row => row.rule.table == table) ||
    k.routes.rows.any (fun row => row.route.table == table)

/-- `get_link`: by index, or by name while the index is not known. -/
def getLink (name : String) (index : Nat) : Option KernelLink :=
  if index = 0 then k.links.rows.find? fun link => link.name == name
  else k.links.rows.find? fun link => link.index == index

def isWireguardLink (link : KernelLink) (name : String) (index : Nat) : Bool :=
  (index == 0 || link.index == index) && link.name == name && link.kind == .wireguard

def linkOwned (name : String) (index : Nat) (marker : String) : Bool :=
  (k.getLink name index).any fun link => isWireguardLink link name index && link.ifAlias == marker

def linkPresent (name : String) (index : Nat) : Bool :=
  (k.getLink name index).any fun link => isWireguardLink link name index

/-- `link_index` of a process runner. -/
def linkIndex (name : String) : Option Nat :=
  (k.links.rows.find? fun link => link.name == name).map KernelLink.index

def nextIndex : Nat := k.links.rows.foldl (fun acc link => max acc link.index) 0 + 1

def createLink (origin : Origin) (kind : LinkKind) (name marker : String) : Reply Nat :=
  if k.links.has name then (.error alreadyExists, k)
  else
    let link : KernelLink := { name, index := k.nextIndex, kind, ifAlias := marker, origin }
    (.ok link.index, { k with links := k.links.insert link })

/-- A link that goes away takes its addresses and the routes through it along. -/
def dropLinks (selects : KernelLink → Bool) : Kernel :=
  let gone := (k.links.rows.filter selects).map KernelLink.index
  { k with
    links := k.links.drop selects
    routes := k.routes.drop fun row => gone.any row.rides
    addresses := k.addresses.filter fun address => !gone.contains address.1 }

/-- `WgDelete`: a link that is gone counts as deleted, one of another owner is refused. -/
def deleteLink (name : String) (index : Nat) (marker : String) : Reply Unit :=
  match k.getLink name index with
  | none => (.ok (), k)
  | some link =>
    if isWireguardLink link name index && link.ifAlias == marker then
      (.ok (), k.dropLinks fun other => other.index == link.index)
    else
      (.error ⟨.permissionDenied, .text "interface identity does not match owner"⟩, k)

def addAddress (index : Nat) (address : IpNet) : Reply Unit :=
  if k.addresses.contains (index, address) then (.error alreadyExists, k)
  else (.ok (), { k with addresses := k.addresses ++ [(index, address)] })

def removeAddress (index : Nat) (address : IpNet) : Reply Unit :=
  if k.addresses.contains (index, address) then
    (.ok (), { k with addresses := k.addresses.filter fun seen => seen != (index, address) })
  else (.error notFound, k)

/-! ### The dump -/

def linkName (index : Nat) : Option String :=
  (k.links.rows.find? fun link => link.index == index).map KernelLink.name

/-- `system_route`: a stored row with the interface names filled in. -/
def dumpRoute (row : KernelRoute) : SystemRoute :=
  { row.route with
    interfaceName := row.route.interfaceIndex.bind k.linkName
    nexthops := row.route.nexthops.map fun hop =>
      { hop with interfaceName := k.linkName hop.interfaceIndex } }

def netTables : NetTablesResult :=
  { routes := k.routes.rows.map k.dumpRoute
    rules := k.rules.rows.map KernelRule.rule }

end Kernel

end NetOrchestrator.Daemon
