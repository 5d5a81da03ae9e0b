import Mathlib.Data.Finset.Basic
import NetOrchestrator.Lib.Schedules
import NetOrchestrator.Daemon.Protocol

/-!
# `Core.Policy`: the policy manager of the desktop client

The client installs the routes of a profile through a `RouteExecutor` and keeps in `applied`
what it installed for which profile. The executor is a trait object in the source, so the two
loops over it are generic in its state here. `RouteTable` is the executor as a set of
installed routes: an add is refused when the route is there, a removal succeeds when it is
not, and either may be refused for any other reason.

`RouteTable.added` and `RouteTable.attempted` are ghosts. They record what was ever added and
which removals were asked for, and no function reads them.
-/

namespace NetOrchestrator.Core

open Net Lib
open Daemon (AppliedRoute PolicyRoute ErrorKind endpointBypassMetric)

/-! ### The executor -/

/-- A refusal of the executor, with its own words. -/
structure ExecError where
  kind : ErrorKind
  text : String
  deriving DecidableEq

/-- The part of `RouteExecutor` that changes routes. -/
structure RouteExecutor (σ φ : Type) where
  addRoute : AppliedRoute → Call σ φ ExecError Unit
  removeRoute : AppliedRoute → Call σ φ ExecError Unit

structure RouteTable where
  installed : Finset AppliedRoute
  added : List AppliedRoute
  attempted : List AppliedRoute
  deriving DecidableEq

def RouteTable.add (route : AppliedRoute) (t : RouteTable) : RouteTable :=
  { t with installed := insert route t.installed, added := t.added ++ [route] }

def RouteTable.remove (route : AppliedRoute) (t : RouteTable) : RouteTable :=
  { t with installed := t.installed.erase route }

def RouteTable.attempt (route : AppliedRoute) (t : RouteTable) : RouteTable :=
  { t with attempted := t.attempted ++ [route] }

/-- The executor as a set of routes. Any call may be refused with any error. -/
def tableExecutor : RouteExecutor RouteTable ExecError where
  addRoute route :=
    Call.step id fun t =>
      if route ∈ t.installed then (.error ⟨.alreadyExists, "File exists"⟩, t)
      else (.ok (), t.add route)
  removeRoute route := do
    Call.modify (RouteTable.attempt route)
    Call.step id fun t => (.ok (), t.remove route)

/-! ### Errors -/

inductive PolicyMessage where
  /-- The first refused add, then each refused removal of the rollback. -/
  | applyFailed (cause : String) (rollbacks : List (IpNet × String))
  /-- The refused removals. -/
  | removeFailed (failures : List (IpNet × String))
  | alreadyApplied (profile : String)
  | nothingApplied (profile : String)
  | interfaceNotFound (name : String)
  | ambiguousInterface (name : String)
  deriving DecidableEq

structure PolicyError where
  kind : ErrorKind
  message : PolicyMessage
  deriving DecidableEq

/-! ### Transactions -/

section
variable {σ φ : Type} (executor : RouteExecutor σ φ)

/-- Try to remove each route and return the refused removals, in order. -/
def removeEach : List AppliedRoute → Call σ φ ExecError (List (AppliedRoute × ExecError))
  | [] => pure []
  | route :: rest => do
      match ← Call.attempt (executor.removeRoute route) with
      | .ok () => removeEach rest
      | .error e => do
          let more ← removeEach rest
          pure ((route, e) :: more)

/-- The refusals as they appear in a message. -/
def refusals (failed : List (AppliedRoute × ExecError)) : List (IpNet × String) :=
  failed.map fun failure => (failure.1.destination, failure.2.text)

/-- The loop of `apply_routes_transactional`. `done` is what it has added, newest first. -/
def applyFrom (done : List AppliedRoute) :
    List AppliedRoute → Call σ φ ExecError (Except (PolicyError × List AppliedRoute) Unit)
  | [] => pure (.ok ())
  | route :: rest => do
      match ← Call.attempt (executor.addRoute route) with
      | .ok () => applyFrom (route :: done) rest
      | .error e => do
          let failed ← removeEach executor done
          pure (.error (⟨e.kind, .applyFailed e.text (refusals failed)⟩, failed.map Prod.fst))

/-- `apply_routes_transactional`. -/
def applyRoutesTransactional (routes : List AppliedRoute) :
    Call σ φ ExecError (Except (PolicyError × List AppliedRoute) Unit) :=
  applyFrom executor [] routes

/-- `remove_routes_best_effort`. -/
def removeRoutesBestEffort (routes : List AppliedRoute) :
    Call σ φ ExecError (Except (List AppliedRoute × PolicyMessage) Unit) := do
  let failed ← removeEach executor routes.reverse
  if failed.isEmpty then pure (.ok ())
  else pure (.error (failed.map Prod.fst, .removeFailed (refusals failed)))

end

/-! ### Planning -/

inductive InterfaceCategory where
  | physical
  | vpn
  | virtual
  | system
  | tunnel
  | filter
  deriving DecidableEq

/-- What the planner reads of a `NetworkInterface`. -/
structure NetworkInterface where
  name : String
  friendlyName : String
  ifIndex : Nat
  gateway : Option IpAddr
  ipv6Gateway : Option IpAddr
  category : InterfaceCategory
  deriving DecidableEq

/-- What the planner reads of a `Profile`. -/
structure Profile where
  id : String
  interfaceName : String
  routes : List PolicyRoute
  waitForInterface : Bool
  endpointBypasses : List String
  deriving DecidableEq

structure RoutePlan where
  routes : List AppliedRoute
  deferred : List PolicyRoute
  bypasses : List AppliedRoute
  pendingBypasses : List String
  deriving DecidableEq

def ambiguousInterface (name : String) : PolicyError := ⟨.invalidInput, .ambiguousInterface name⟩

/-- `resolve_interface`: a unique friendly name, else a unique name. -/
def resolveInterface (profile : Profile) (interfaces : List NetworkInterface) :
    Except PolicyError NetworkInterface :=
  match interfaces.filter fun iface => iface.friendlyName == profile.interfaceName with
  | [iface] => .ok iface
  | _ :: _ :: _ => .error (ambiguousInterface profile.interfaceName)
  | [] =>
    match interfaces.filter fun iface => iface.name == profile.interfaceName with
    | [iface] => .ok iface
    | [] => .error ⟨.notFound, .interfaceNotFound profile.interfaceName⟩
    | _ :: _ :: _ => .error (ambiguousInterface profile.interfaceName)

/-- `interface_gateway_for`. -/
def interfaceGatewayFor (iface : NetworkInterface) (destination : IpNet) : Option IpAddr :=
  if iface.category ≠ .physical then none
  else iface.gateway.filter fun gateway => gateway.isIpv4 == destination.isIpv4

/-- `plan_routes_on`. -/
def planRoutesOn (profile : Profile) (iface : NetworkInterface) : List AppliedRoute :=
  profile.routes.map fun route =>
    let destination := route.destination.trunc
    { destination
      interfaceIndex := iface.ifIndex
      metric := route.metric
      gateway := route.via.orElse fun _ => interfaceGatewayFor iface destination
      table := none }

/-- `min_by_key`: the first of the smallest. -/
def minByKey {α : Type} (key : α → Nat) : List α → Option α
  | [] => none
  | a :: rest => some (rest.foldl (fun best b => if key b < key best then b else best) a)

/-- `uplink_route`. -/
def uplinkRoute (host : IpAddr) (interfaces : List NetworkInterface) : Option AppliedRoute :=
  let physical := interfaces.filter fun iface => iface.category == .physical
  let uplinks := physical.filterMap fun iface =>
    let gateway := if host.isIpv4 then iface.gateway else iface.ipv6Gateway
    (gateway.filter fun g => g.isIpv4 == host.isIpv4).map fun g => (iface, g)
  (minByKey (fun uplink => uplink.1.ifIndex) uplinks).map fun uplink =>
    { destination := host.toNet
      interfaceIndex := uplink.1.ifIndex
      metric := endpointBypassMetric
      gateway := some uplink.2
      table := none }

/-- One step of `plan_endpoint_bypasses`. -/
def planBypass (interfaces : List NetworkInterface) (plan : RoutePlan) (entry : String) :
    RoutePlan :=
  match (parseIpAddr entry).bind fun ip => uplinkRoute ip interfaces with
  | some route =>
    if plan.bypasses.any fun seen => seen.destination == route.destination then plan
    else { plan with bypasses := plan.bypasses ++ [route] }
  | none =>
    if plan.pendingBypasses.contains entry then plan
    else { plan with pendingBypasses := plan.pendingBypasses ++ [entry] }

/-- The routes of a plan and the declared routes that wait for their interface. -/
def planDeclared (profile : Profile) (interfaces : List NetworkInterface) :
    Except PolicyError (List AppliedRoute × List PolicyRoute) :=
  if profile.routes.isEmpty then .ok ([], [])
  else
    match resolveInterface profile interfaces with
    | .ok iface => .ok (planRoutesOn profile iface, [])
    | .error e =>
      if profile.waitForInterface && profile.interfaceName != "" && e.kind == .notFound then
        .ok ([], profile.routes)
      else .error e

/-- `plan_profile`. -/
def planProfile (profile : Profile) (interfaces : List NetworkInterface) :
    Except PolicyError RoutePlan := do
  let (routes, deferred) ← planDeclared profile interfaces
  let plan : RoutePlan := { routes, deferred, bypasses := [], pendingBypasses := [] }
  pure (profile.endpointBypasses.foldl (planBypass interfaces) plan)

/-- `plan_profile_routes`. -/
def planProfileRoutes (profile : Profile) (interfaces : List NetworkInterface) :
    Except PolicyError (List AppliedRoute) :=
  (planProfile profile interfaces).map RoutePlan.routes

/-! ### The manager -/

/-- `AppliedProfileRoutes`. -/
structure AppliedProfileRoutes where
  profileId : String
  routes : List AppliedRoute
  deriving DecidableEq

structure PolicyManager (σ : Type) where
  executor : σ
  applied : List AppliedProfileRoutes

namespace PolicyManager

variable {σ φ : Type}

def withExecutor (executor : σ) : PolicyManager σ := ⟨executor, []⟩

/-- `HashMap::insert`. -/
def insert (profileId : String) (routes : List AppliedRoute) (m : PolicyManager σ) :
    PolicyManager σ :=
  { m with
    applied := m.applied.filter (fun entry => entry.profileId != profileId) ++
      [⟨profileId, routes⟩] }

/-- `HashMap::remove`. -/
def forget (profileId : String) (m : PolicyManager σ) : PolicyManager σ :=
  { m with applied := m.applied.filter fun entry => entry.profileId != profileId }

def find (profileId : String) (m : PolicyManager σ) : Option AppliedProfileRoutes :=
  m.applied.find? fun entry => entry.profileId == profileId

/-- A loop over the executor, run by the manager. The loops return their errors as values. -/
def onExecutor {α : Type} (m : Call σ φ ExecError α) : Call (PolicyManager σ) φ PolicyError α :=
  Call.within PolicyManager.executor (fun executor s => { s with executor })
    (fun e => ⟨e.kind, .applyFailed e.text []⟩) m

/-- `apply_profile`. The routes that a failed rollback left are dropped with the error. -/
def applyProfile (executor : RouteExecutor σ φ) (profile : Profile)
    (interfaces : List NetworkInterface) :
    Call (PolicyManager σ) φ PolicyError (List AppliedRoute) := do
  if (← Call.gets (find profile.id)).isSome then
    Call.throw ⟨.alreadyExists, .alreadyApplied profile.id⟩
  else do
    let routes ← Call.ofExcept (planProfileRoutes profile interfaces)
    match ← onExecutor (applyRoutesTransactional executor routes) with
    | .error (e, _) => Call.throw e
    | .ok () => do
        Call.modify (insert profile.id routes)
        pure routes

/-- `remove_profile`. -/
def removeProfile (executor : RouteExecutor σ φ) (profileId : String) :
    Call (PolicyManager σ) φ PolicyError Unit := do
  match ← Call.gets (find profileId) with
  | none => Call.throw ⟨.notFound, .nothingApplied profileId⟩
  | some entry => do
      Call.modify (forget profileId)
      match ← onExecutor (removeRoutesBestEffort executor entry.routes) with
      | .ok () => pure ()
      | .error (failed, message) => do
          Call.modify (insert profileId failed)
          Call.throw ⟨.other, message⟩

/-- `snapshot`, in the order of the ids. -/
def snapshot (m : PolicyManager σ) : List AppliedProfileRoutes :=
  m.applied.mergeSort fun a b => a.profileId ≤ b.profileId

end PolicyManager

end NetOrchestrator.Core
