import NetOrchestrator.Daemon.Teardown

/-!
# `Daemon.Attach`: route owners and attach specs

A client applies a list of routes under an owner name. With an attach spec the routes are
derived again on every reconcile, from the live index of the named link and the current
physical uplink (`attachDesired`). Everything a derivation reads is in the `View`, so the
derivation itself is a function.
-/

namespace NetOrchestrator.Daemon

open Net Lib

/-! ### Deriving routes -/

/-- `kernel_route`: the kernel stores an IPv6 route requested with metric 0 as metric 1024. -/
def AppliedRoute.kernelRoute (r : AppliedRoute) : AppliedRoute :=
  if r.destination.isIpv4 = false ∧ r.metric = 0 then { r with metric := 1024 } else r

/-- An executor's answer, or nothing when it failed. -/
def orDefault {ε α : Type} : Except ε (List α) → List α
  | .ok l => l
  | .error _ => []

variable (view : View)

/-- Whether a subnet connected to the link contains the destination. -/
def View.onLink (index : Nat) (destination : IpNet) : Bool :=
  (orDefault view.onLinkNetworks).any fun seen =>
    seen.1 == index && seen.2.containsNet destination

/-- `uplink_next_hop`: gateway and interface of the current physical uplink. No gateway
when the destination is connected there. -/
def View.uplinkNextHop (destination : IpNet) : Option (Option IpAddr × Nat) :=
  match view.defaultGateways with
  | .error _ => none
  | .ok gateways =>
    (gateways.find? fun hop => hop.1.isIpv4 == destination.isIpv4).map fun hop =>
      (if view.onLink hop.2 destination then none else some hop.1, hop.2)

def View.uplinkHostRoute (host : IpAddr) (metric : Nat) : Option AppliedRoute :=
  (view.uplinkNextHop host.toNet).map fun hop =>
    { destination := host.toNet, interfaceIndex := hop.2, metric, gateway := hop.1,
      table := none }

def View.uplinkBypassRoute (host : IpAddr) : Option AppliedRoute :=
  view.uplinkHostRoute host endpointBypassMetric

/-- The order of addresses: IPv4 before IPv6, then by value. -/
def ipLe : IpAddr → IpAddr → Bool
  | .v4 a, .v4 b => a.toNat ≤ b.toNat
  | .v4 _, .v6 _ => true
  | .v6 _, .v4 _ => false
  | .v6 a, .v6 b => a.toNat ≤ b.toNat

/-- `resolve_endpoint_ips`. -/
def View.resolveEndpointIps (host : String) : List IpAddr :=
  match parseIpAddr host with
  | some ip => [ip]
  | none => ((view.resolve host).mergeSort ipLe).eraseDups

/-- A declared route through the uplink. -/
def View.uplinkRoute (route : PolicyRoute) : Option AppliedRoute :=
  let destination := route.destination.trunc
  (view.uplinkNextHop destination).map fun hop =>
    { destination, interfaceIndex := hop.2, metric := route.metric, gateway := hop.1,
      table := none }

/-- A declared route on a named link. A tunnel link takes it directly, a physical one
through its default gateway unless the destination is connected. -/
def View.linkRoute (physical : Bool) (index : Nat) (route : PolicyRoute) : AppliedRoute :=
  let destination := route.destination.trunc
  let viaGateway := (orDefault view.defaultGateways).find? fun hop =>
    hop.2 == index && hop.1.isIpv4 == destination.isIpv4
  let gateway := route.via.orElse fun _ =>
    if physical && !view.onLink index destination then viaGateway.map Prod.fst else none
  { destination, interfaceIndex := index, metric := route.metric, gateway, table := none }

/-- The routes of the spec's own destinations. -/
def View.declaredRoutes (spec : AttachSpecParams) : List AppliedRoute :=
  if spec.uplink then spec.routes.filterMap view.uplinkRoute
  else if spec.interfaceName ≠ "" then
    match view.linkIndex spec.interfaceName with
    | .ok (some index) =>
      let physical :=
        match view.linkKind spec.interfaceName with
        | .ok .other => true
        | _ => false
      spec.routes.map (view.linkRoute physical index)
    | _ => []
  else []

/-- Add a bypass route unless its destination is there already. -/
def addBypass (desired : List AppliedRoute) (route : AppliedRoute) : List AppliedRoute :=
  if desired.any fun seen => seen.destination == route.destination then desired
  else desired ++ [route]

/-- `attach_desired`: the routes that the spec wants right now. -/
def attachDesired (spec : AttachSpecParams) : List AppliedRoute :=
  let bypasses := spec.endpointBypasses.flatMap fun host =>
    (view.resolveEndpointIps host).filterMap view.uplinkBypassRoute
  bypasses.foldl addBypass (view.declaredRoutes spec)

/-! ### Applying and removing -/

/-- Undo the adds, newest first. Returns the routes that could not be removed. -/
def rollbackRoutes : List AppliedRoute → Prog (List AppliedRoute)
  | [] => pure []
  | route :: rest => do
      let removed ← Call.attempt (removeRoute route)
      let left ← rollbackRoutes rest
      match removed with
      | .ok () => pure left
      | .error _ => pure (route :: left)

def rollbackError (e : IoError) (left : List AppliedRoute) : IoError :=
  if left.isEmpty then e
  else { e with message := .rollbackFailed e.message (left.map AppliedRoute.destination) }

/-- `apply_routes_transactional`. `added` is what this call has installed, newest first. -/
def applyRoutesTransactional (origin : Origin) :
    List AppliedRoute → List AppliedRoute → Prog (Except (IoError × List AppliedRoute) Unit)
  | _, [] => pure (.ok ())
  | added, route :: rest => do
      match ← Call.attempt (addRoute origin route) with
      | .ok () => applyRoutesTransactional origin (route :: added) rest
      | .error e => do
          let left ← rollbackRoutes added
          pure (.error (rollbackError e left, left))

/-- The resources of a route owner: its spec, if any, then its routes. -/
def attachResources (attach : Option AttachSpecParams) (routes : List AppliedRoute) :
    List OwnedResource :=
  attach.toList.map .attachSpec ++ routes.map .route

/-- What a failed transaction leaves in the journal: the routes that its rollback left
behind stay owned, and a failed attach keeps its spec. -/
def retainFailed (index : Nat) (attach : Option AttachSpecParams) (left : List AppliedRoute) :
    Prog Unit :=
  if left.isEmpty && attach.isNone then removeEntry index
  else
    updateEntry index fun entry =>
      (entry.setState .stale).setResources (attachResources attach left)

/-- The bookkeeping after the transaction. -/
def finishApply (index : Nat) (attach : Option AttachSpecParams) (count : Nat) :
    Except (IoError × List AppliedRoute) Unit → Prog Nat
  | .ok () => do
      updateEntry index (·.setState .applied)
      persist
      pure count
  | .error (e, left) => do
      retainFailed index attach left
      persist
      Call.throw e

/-- `apply_routes_inner`. The entry is saved as `applying` before the first kernel
change. -/
def applyRoutesInner (uid : Nat) (owner : Owner) (routes : List AppliedRoute)
    (attach : Option AttachSpecParams) : Prog Nat := do
  demand (validateApply routes)
  if (← position uid owner).isSome then
    Call.throw
      ⟨.alreadyExists, .text "owner already has routes applied; remove them first"⟩
  else do
    pushEntry { uid, owner, state := .applying, resources := attachResources attach routes }
    let index := (← Call.gets fun core => core.journal.length) - 1
    match ← Call.attempt save with
    | .error e => do
        setJournal List.dropLast
        Call.throw e
    | .ok () => do
        let result ← applyRoutesTransactional (.daemon uid owner) [] routes
        finishApply index attach routes.length result

def checkClientOwner (owner : String) : Prog Unit := do
  demand (validateOwner owner)
  match Owner.parse owner with
  | .client _ => pure ()
  | _ => Call.throw (invalidInput (.text "reserved owner prefix"))

def applyRoutes (uid : Nat) (owner : String) (routes : List AppliedRoute) : Prog Nat := do
  checkClientOwner owner
  applyRoutesInner uid (Owner.parse owner) routes none

def applyAttach (uid : Nat) (owner : String) (spec : AttachSpecParams)
    (routes : List AppliedRoute) : Prog Nat := do
  checkClientOwner owner
  demand (validateAttach spec)
  applyRoutesInner uid (Owner.parse owner) routes (some spec)

def nothingApplied : IoError := ⟨.notFound, .text "owner has nothing applied"⟩

/-- Tear the entry down, save, and report how many resources it had. -/
def removeEntryAt (index : Nat) : Prog Nat := do
  let entry ← entryAt index
  let result ← Call.attempt (teardownEntry index)
  persist
  Call.ofExcept (result.map fun () => entry.resources.length)

/-- `remove_owner_inner`. -/
def removeOwnerInner (uid : Nat) (owner : Owner) : Prog Nat := do
  match ← position uid owner with
  | none => Call.throw nothingApplied
  | some index => removeEntryAt index

/-- `remove_owner`. -/
def removeOwner (uid : Nat) (owner : String) : Prog Nat := do
  demand (validateOwner owner)
  match ← position uid (Owner.parse owner) with
  | none => Call.throw nothingApplied
  | some index =>
    match Owner.parse owner with
    | .wg _ | .ovpn _ =>
      Call.throw
        (invalidInput (.text "use the tunnel disconnect method for tunnel owners"))
    | .cond _ =>
      Call.throw
        (invalidInput (.text "conditional owners are managed by rule evaluation"))
    | _ => removeEntryAt index

end NetOrchestrator.Daemon
