import NetOrchestrator.Daemon.Attach

/-!
# `Daemon.Manual`: manual edits of routes and rules

`net.route.add`, `net.route.del`, `net.rule.add` and `net.rule.del`. What a user adds by
hand is journaled under that user's `manual` owner; a foreign object that a user deletes is
journaled as suppressed, so that a teardown puts it back.

The four requests share one shape once their arguments are checked: find or create the
manual entry, record the resource, save, ask the kernel, and take the record back when the
kernel refused. `recordEdit` is that shape.
-/

namespace NetOrchestrator.Daemon

open Net Lib

/-! ### Matching dumped rows with journaled objects -/

/-- `same_route`. -/
def sameRoute (system : SystemRoute) (applied : AppliedRoute) : Bool :=
  let applied := applied.kernelRoute
  system.kind == .unicast && system.destination == applied.destination &&
    system.interfaceIndex == some applied.interfaceIndex &&
    system.metric.getD 0 == applied.metric && system.gateway == applied.gateway &&
    system.table == applied.table.getD rtTableMain

/-- `same_system_route`: the key fields only. -/
def sameSystemRoute (a b : SystemRoute) : Bool :=
  a.family == b.family && a.destination == b.destination && a.table == b.table &&
    a.interfaceIndex == b.interfaceIndex && a.gateway == b.gateway &&
    a.metric.getD 0 == b.metric.getD 0 && a.nexthops.length == b.nexthops.length &&
    (a.nexthops.zip b.nexthops).all fun pair =>
      pair.1.interfaceIndex == pair.2.interfaceIndex && pair.1.gateway == pair.2.gateway

/-- `same_rule`. -/
def sameRule (system : SystemRule) (owned : OwnedRuleResource) : Bool :=
  system.family == owned.family && system.priority == owned.priority &&
    system.table == owned.table && system.fwmark == owned.fwmark &&
    system.invert == owned.invert && system.suppressPrefixLength == owned.suppressPrefixLength

/-! ### The shared shape -/

/-- `manual_entry`: the user's manual entry, created and saved when there is none. -/
def manualEntry (uid : Nat) : Prog Nat := do
  match ← position uid .manual with
  | some index => pure index
  | none => do
      pushEntry { uid, owner := .manual, state := .applying, resources := [] }
      save
      pure ((← Call.gets fun core => core.journal.length) - 1)

/-- Take the record of a refused edit back. An entry that holds nothing else goes too. -/
def dropRecord (index : Nat) : Prog Unit := do
  updateEntry index JournalEntry.pop
  let entry ← entryAt index
  if entry.resources.isEmpty then removeEntry index else pure ()

/-- Record an edit in the entry ahead of the kernel request. `state` is what the entry says
meanwhile, `finish` the bookkeeping after success. -/
def recordAt {α : Type} (index : Nat) (resource : OwnedResource) (state : OwnedState)
    (request : Prog Unit) (finish : Nat → Prog α) : Prog α := do
  updateEntry index fun entry => (entry.push resource).setState state
  save
  match ← Call.attempt request with
  | .ok () => finish index
  | .error e => do
      dropRecord index
      persist
      Call.throw e

def recordEdit {α : Type} (uid : Nat) (resource : OwnedResource) (state : OwnedState)
    (request : Prog Unit) (finish : Nat → Prog α) : Prog α := do
  let index ← manualEntry uid
  recordAt index resource state request finish

/-- An added object: the entry is `applied` once the kernel took it. -/
def finishAdd (index : Nat) : Prog Unit := do
  updateEntry index (·.setState .applied)
  persist

def finishSuppress (_ : Nat) : Prog NetEditOutcome := do
  persist
  pure .suppressed

/-- Remove the records that `selects` picks from the user's manual entry. -/
def forgetManual (uid : Nat) (selects : OwnedResource → Bool) : Prog Unit := do
  match ← position uid .manual with
  | none => pure ()
  | some index => do
      updateEntry index fun entry =>
        entry.setResources (entry.resources.filter fun resource => !selects resource)
      let entry ← entryAt index
      if entry.resources.isEmpty then removeEntry index else pure ()

/-- The owner of the first entry of the user that lists a selected object. -/
def ownerListing (journal : Journal) (uid : Nat) (selects : OwnedResource → Bool) : Option Owner :=
  ((journal.filter fun entry => entry.uid == uid).find? fun entry =>
    entry.resources.any selects).map JournalEntry.owner

/-! ### Routes -/

def uneditableRouteTable : IoError :=
  invalidInput (.text "routes in the unspec/local tables are not editable")

def isUneditableTable (table : Nat) : Bool := table == rtTableUnspec || table == rtTableLocal

/-- The link of a new route: by index or by name, not both. -/
def routeLink (view : View) (params : NetRouteAddParams) : Except IoError Nat :=
  match params.interfaceIndex, params.interfaceName with
  | some index, none => .ok index
  | none, some name =>
    match validateIfaceName name with
    | .error message => .error (invalidInput message)
    | .ok () =>
      match view.linkIndex name with
      | .error e => .error e
      | .ok (some index) => .ok index
      | .ok none => .error ⟨.notFound, .text "interface not found"⟩
  | _, _ =>
    .error (invalidInput (.text "provide exactly one of interfaceName or interfaceIndex"))

/-- Gateway and preferred source are in the destination's family. -/
def addressesMatch (params : NetRouteAddParams) : Bool :=
  (params.gateway.toList ++ params.prefSource.toList).all fun address =>
    address.isIpv4 == params.destination.isIpv4

/-- The route that `net_route_add` installs. -/
def manualRoute (params : NetRouteAddParams) (index : Nat) : SystemRoute :=
  { family := if params.destination.isIpv4 then .ipv4 else .ipv6
    destination := params.destination.trunc
    table := params.table.getD rtTableMain
    kind := .unicast
    scope := if params.gateway.isSome then .universe else .link
    protocol := rtprotNetworkOrchestrator
    managed := true
    gateway := params.gateway
    interfaceIndex := some index
    interfaceName := params.interfaceName
    metric := some (params.metric.getD 0)
    prefSource := params.prefSource
    nexthops := [] }

/-- The checks of `net_route_add`, and the route it will install. -/
def prepareRoute (view : View) (params : NetRouteAddParams) : Except IoError SystemRoute :=
  if isUneditableTable (params.table.getD rtTableMain) then .error uneditableRouteTable
  else
    match routeLink view params with
    | .error e => .error e
    | .ok index =>
      if addressesMatch params then .ok (manualRoute params index)
      else .error (invalidInput (.text "address family mismatch"))

def netRouteAdd (uid : Nat) (params : NetRouteAddParams) : Prog Unit := do
  let view ← Call.gets DaemonCore.view
  let route ← Call.ofExcept (prepareRoute view params)
  recordEdit uid (.netRoute route) .applying
    (addSystemRoute (.daemon uid .manual) route) finishAdd

/-- Whether a journaled resource is the route that a dumped row shows. -/
def listsRoute (route : SystemRoute) : OwnedResource → Bool
  | .route applied => sameRoute route applied
  | .netRoute installed => sameSystemRoute installed route
  | _ => false

/-- The manual records that a deletion of `route` drops. -/
def recordsRoute (route : SystemRoute) : OwnedResource → Bool
  | .netRoute installed => sameSystemRoute installed route
  | _ => false

/-- `net_route_del_manual`: kernel first, then the record. -/
def netRouteDelManual (uid : Nat) (route : SystemRoute) : Prog NetEditOutcome := do
  removeSystemRoute route
  forgetManual uid (recordsRoute route)
  persist
  pure .deleted

/-- `net_route_del_owned`. -/
def netRouteDelOwned (uid : Nat) (route : SystemRoute) : Prog NetEditOutcome := do
  match ← Call.gets fun core => ownerListing core.journal uid (listsRoute route) with
  | some .manual => netRouteDelManual uid route
  | some owner => Call.throw (invalidInput (.routeManagedBy owner))
  | none => do
      removeSystemRoute route
      pure .deleted

def netRouteDel (uid : Nat) (route : SystemRoute) : Prog NetEditOutcome := do
  if isUneditableTable route.table then Call.throw uneditableRouteTable
  else if route.kind ≠ .unicast then
    Call.throw (invalidInput (.text "only unicast routes are editable"))
  else if route.managed then netRouteDelOwned uid route
  else
    recordEdit uid (.suppressedRoute route) .applied (removeSystemRoute route) finishSuppress

/-! ### Rules -/

/-- The rule that `net_rule_add` installs. -/
def manualRule (params : NetRuleAddParams) : SystemRule :=
  { family := params.family
    priority := params.priority
    action := .lookup
    table := params.table
    goto := none
    src := params.src.map IpNet.trunc
    dst := params.dst.map IpNet.trunc
    fwmark := params.fwmark
    fwmask := params.fwmask
    iifname := params.iifname
    oifname := params.oifname
    uidRange := none
    sourcePortRange := none
    destinationPortRange := none
    ipProtocol := none
    suppressPrefixLength := none
    suppressIfGroup := none
    tunId := none
    tos := 0
    invert := params.invert
    protocol := rtprotNetworkOrchestrator
    managed := true }

/-- The checks of `net_rule_add`. -/
def validateRuleAdd (params : NetRuleAddParams) : Except Message Unit :=
  if params.priority = 0 then refuse (.text "priority 0 is reserved by the kernel local rule")
  else if isUneditableTable params.table then
    refuse (.text "rules into unspec/local tables are not editable")
  else if !(params.src.toList ++ params.dst.toList).all
      (fun net => net.isIpv4 == (params.family == .ipv4)) then
    refuse (.text "selector family mismatch")
  else firstRefusal validateIfaceName (params.iifname.toList ++ params.oifname.toList)

def netRuleAdd (uid : Nat) (params : NetRuleAddParams) : Prog Unit := do
  demand (validateRuleAdd params)
  recordEdit uid (.netRule (manualRule params)) .applying
    (addSystemRule (.daemon uid .manual) (manualRule params)) finishAdd

def isEditableAction : RuleAction → Bool
  | .lookup | .goto | .nop | .blackhole | .unreachable | .prohibit => true
  | _ => false

/-- Whether a journaled resource is the rule that a dumped row shows. -/
def listsRule (rule : SystemRule) : OwnedResource → Bool
  | .rule owned => sameRule rule owned
  | .netRule installed => installed == rule
  | _ => false

def recordsRule (rule : SystemRule) : OwnedResource → Bool
  | .netRule installed => installed == rule
  | _ => false

/-- `net_rule_del_owned`. Unlike for a route, the orphan case saves the journal too. -/
def netRuleDelOwned (uid : Nat) (rule : SystemRule) : Prog NetEditOutcome := do
  match ← Call.gets fun core => ownerListing core.journal uid (listsRule rule) with
  | some .manual => do
      removeSystemRule rule
      forgetManual uid (recordsRule rule)
      persist
      pure .deleted
  | some owner => Call.throw (invalidInput (.ruleManagedBy owner))
  | none => do
      removeSystemRule rule
      persist
      pure .deleted

def netRuleDel (uid : Nat) (rule : SystemRule) : Prog NetEditOutcome := do
  if rule.priority = 0 then
    Call.throw (invalidInput (.text "priority 0 is the kernel local rule"))
  else if !isEditableAction rule.action then Call.throw (invalidInput (.ruleAction rule.action))
  else if rule.managed then netRuleDelOwned uid rule
  else recordEdit uid (.suppressedRule rule) .applied (removeSystemRule rule) finishSuppress

end NetOrchestrator.Daemon
