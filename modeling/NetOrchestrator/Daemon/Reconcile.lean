import NetOrchestrator.Daemon.Intents
import NetOrchestrator.Daemon.Manual
import NetOrchestrator.Daemon.Xray

/-!
# `Daemon.Reconcile`: the network reconcile pass

`reconcileNetwork` visits the applied entries, newest first. An entry with an attach spec
is converged with what the spec derives now, the manual entry is checked against a fresh
dump, and a tunnel gets its missing routes and rules back, or is taken down when its
transport is gone.
-/

namespace NetOrchestrator.Daemon

open Net Lib

def succeeded {ε α : Type} : Except ε α → Bool
  | .ok _ => true
  | .error _ => false

/-! ### Attach entries -/

/-- Whether a list of routes has this one, up to the kernel's metric. -/
def hasRoute (routes : List AppliedRoute) (route : AppliedRoute) : Bool :=
  routes.any fun seen => seen.kernelRoute == route.kernelRoute

/-- Add the routes, past those that cannot be added. Returns whether any was. -/
def installRoutes (origin : Origin) : List AppliedRoute → Prog Bool
  | [] => pure false
  | route :: rest => do
      let added ← Call.attempt (addRoute origin route)
      let more ← installRoutes origin rest
      pure (succeeded added || more)

def persistIf (changed : Bool) : Prog Unit := if changed then persist else pure ()

/-- `reconcile_attach`: withdraw what the spec no longer wants, install what is missing,
and rewrite the entry to the derivation. -/
def reconcileAttach (index : Nat) (spec : AttachSpecParams) (observed : List AppliedRoute) :
    Prog Bool := do
  let desired ← Call.gets fun core => attachDesired core.view spec
  let entry ← entryAt index
  let outdated := (ownedRoutes entry.resources).filter fun route => !hasRoute desired route
  let retained ← Call.sweep (fun _ route => goneAfter (removeRoute route)) [] outdated
  let installed ← installRoutes entry.origin (desired.filter fun route => !hasRoute observed route)
  let resources := .attachSpec spec :: desired.map OwnedResource.route ++ retained.map .route
  let entry ← entryAt index
  let rewritten := entry.resources != resources
  updateEntry index (·.setResources resources)
  let changed := retained.length < outdated.length || installed || rewritten
  persistIf changed
  pure changed

/-! ### The manual entry -/

/-- One resource of the manual entry against a dump. Returns whether the kernel changed;
a failure is retried on the next pass. -/
def reconcileManualResource (origin : Origin) (tables : NetTablesResult) : OwnedResource → Prog Bool
  | .netRoute route => do
      if tables.routes.any fun seen => sameSystemRoute seen route then pure false
      else do
        let result ← Call.attempt (addSystemRoute origin route)
        pure (succeeded result)
  | .netRule rule => do
      if tables.rules.contains rule then pure false
      else do
        let result ← Call.attempt (addSystemRule origin rule)
        pure (succeeded result)
  | .suppressedRoute route => do
      if tables.routes.any fun seen => sameSystemRoute seen route then do
        let result ← Call.attempt (removeSystemRoute route)
        pure (succeeded result)
      else pure false
  | .suppressedRule rule => do
      if tables.rules.contains rule then do
        let result ← Call.attempt (removeSystemRule rule)
        pure (succeeded result)
      else pure false
  | _ => pure false

def reconcileManualResources (origin : Origin) (tables : NetTablesResult) :
    List OwnedResource → Prog Bool
  | [] => pure false
  | resource :: rest => do
      let changed ← reconcileManualResource origin tables resource
      let more ← reconcileManualResources origin tables rest
      pure (changed || more)

/-- `reconcile_manual`. An unreachable kernel view defers the pass. -/
def reconcileManual (index : Nat) : Prog Bool := do
  match ← Call.attempt netTables with
  | .error _ => pure false
  | .ok tables => do
      let entry ← entryAt index
      reconcileManualResources entry.origin tables entry.resources

/-! ### Tunnels -/

/-- What one resource says about its tunnel; `none` leaves it to the next resource. -/
def resourceAlive (entry : JournalEntry) : OwnedResource → Prog (Option Bool)
  | .wireGuardLink link => do
      if ← Call.gets fun core => core.executors.wg then
        match ← Call.attempt (linkOwned link) with
        | .ok owned => pure (some owned)
        | .error _ => pure none
      else pure none
  | .xrayProcess process => do
      if process.index = 0 then pure none
      else if ← Call.gets fun core => core.executors.xray then
        match ← Call.attempt (query fun core => .ok (core.view.xrayHealth process.name)) with
        | .ok true =>
          match ← Call.attempt (runnerLinkIndex process.name) with
          | .ok link => pure (some (link == some process.index))
          | .error _ => pure none
        | _ => pure (some false)
      else pure none
  | .openVpnProcess process => do
      if ← Call.gets fun core => core.executors.openvpn then
        match ← Call.attempt (runnerLinkIndex process.name) with
        | .ok (some link) => do
            let runtime ← Call.gets fun core => core.runtime? (entry.uid, entry.owner)
            let connected := runtime.any fun runtime => runtime.snapshot.state == some .connected
            let sameLink := (ownedRoutes entry.resources).all fun route =>
              route.interfaceIndex == link
            pure (if connected && sameLink then some true else none)
        | _ => pure none
      else pure none
  | _ => pure none

/-- `find_map` over the entry's resources. -/
def firstAlive (entry : JournalEntry) : List OwnedResource → Prog (Option Bool)
  | [] => pure none
  | resource :: rest => do
      match ← resourceAlive entry resource with
      | some alive => pure (some alive)
      | none => firstAlive entry rest

/-- `tunnel_alive`. -/
def tunnelAlive (index : Nat) : Prog (Option Bool) := do
  let entry ← entryAt index
  firstAlive entry entry.resources

def maxXrayRespawns : Nat := 3

def DaemonCore.restarts (core : DaemonCore) (key : OwnerKey) : Nat :=
  (core.xrayRestarts.find? fun x => x.1 == key).elim 0 Prod.snd

/-- Spend one respawn, unless the watchdog asked for it. -/
def spendRespawn (key : OwnerKey) (intentional : Bool) : Prog Unit :=
  if intentional then pure ()
  else
    Call.modify fun core =>
      { core with
        xrayRestarts :=
          core.xrayRestarts.filter (fun x => x.1 != key) ++ [(key, core.restarts key + 1)] }

/-- `heal_xray`: respawn the child and re-point the entry at its new link. False once the
budget is spent. -/
def healXray (index : Nat) (intentional : Bool) : Prog Bool := do
  let entry ← entryAt index
  let key := (entry.uid, entry.owner)
  match findXrayProcess entry.resources with
  | none => Call.throw ⟨.invalidData, .text "missing Xray process marker"⟩
  | some process => do
      let attempts ← Call.gets fun core => core.restarts key
      if !intentional && maxXrayRespawns ≤ attempts then pure false
      else do
        spendRespawn key intentional
        if ← Call.gets fun core => core.executors.xray then do
          xrayRestart entry.origin entry.uid process.name
          match ← runnerLinkIndex process.name with
          | none => Call.throw tunLinkUnavailable
          | some link => do
              rebindXrayLink index process.index link
              pure true
        else Call.throw xrayUnavailable

/-- `fresh_bypass_route`. -/
def View.freshBypassRoute (view : View) (route : AppliedRoute) : Option AppliedRoute :=
  (view.uplinkNextHop route.destination).map fun hop =>
    { route with interfaceIndex := hop.2, gateway := hop.1 }

/-- Destination, metric and table agree. -/
def sameSlot (a b : AppliedRoute) : Bool :=
  a.destination == b.destination && a.metric == b.metric &&
    a.table.getD rtTableMain == b.table.getD rtTableMain

/-- A dumped row in the slot of a route. -/
def SystemRoute.collides (row : SystemRoute) (route : AppliedRoute) : Bool :=
  row.destination == route.destination && row.table == route.table.getD rtTableMain &&
    row.metric.getD 0 == route.metric

/-- An exclusive add that was refused acquired nothing: a record made for it goes again. -/
def dropDesired (index : Nat) (journaled : Bool) (desired : AppliedRoute) (e : IoError) :
    Prog Unit := do
  if isAlreadyExists e && !journaled then do
    updateEntry index fun entry =>
      entry.setResources (entry.resources.filter fun resource => resource != .route desired)
    save
  else pure ()

/-- Put the desired route in place. When the old route holds its key, delete that first, and
put it back if the second try fails too. Returns whether the old route was removed. -/
def placeDesired (index : Nat) (origin : Origin) (journaled oldPresent : Bool)
    (old desired : AppliedRoute) : Prog Bool := do
  match ← Call.attempt (addRouteExclusive origin desired) with
  | .ok () => pure false
  | .error e =>
    if isAlreadyExists e && oldPresent && sameSlot old desired then do
      Call.tolerate isNotFound (removeRoute old)
      match ← Call.attempt (addRouteExclusive origin desired) with
      | .ok () => pure true
      | .error e => do
          let _ ← Call.attempt (addRouteExclusive origin old)
          dropDesired index journaled desired e
          Call.throw e
    else do
      dropDesired index journaled desired e
      Call.throw e

/-- Journal the desired route ahead of the kernel. -/
def noteDesired (index : Nat) (journaled : Bool) (desired : AppliedRoute) : Prog Unit := do
  if journaled then pure ()
  else do
    updateEntry index (·.push (.route desired))
    save

/-- Remove the old route unless `placeDesired` did. Returns whether the kernel changed. -/
def withdrawOld (removedOld : Bool) (old : AppliedRoute) : Prog Bool := do
  if removedOld then pure false
  else
    match ← Call.attempt (removeRoute old) with
    | .ok () => pure true
    | .error e => if isNotFound e then pure false else Call.throw e

/-- `migrate_owned_bypass`. -/
def migrateOwnedBypass (index : Nat) (old desired : AppliedRoute) : Prog Bool := do
  let entry ← entryAt index
  let journaled := entry.resources.contains (.route desired)
  let others ← Call.gets fun core => core.journal.eraseIdx index
  if others.any fun other => (ownedRoutes other.resources).any fun route =>
      sameSlot route desired then
    Call.throw ⟨.alreadyExists, .text "bypass route belongs to another owner"⟩
  else do
    let tables ← netTables
    let present := fun route => tables.routes.any fun row => row.managed && sameRoute row route
    let ours := fun row : SystemRoute =>
      row.managed && (sameRoute row old || (journaled && sameRoute row desired))
    if tables.routes.any fun row => row.collides desired && !ours row then
      Call.throw ⟨.alreadyExists, .text "bypass route collides with a foreign route"⟩
    else do
      noteDesired index journaled desired
      let desiredPresent := journaled && present desired
      let removedOld ←
        if desiredPresent then pure false
        else placeDesired index entry.origin journaled (present old) old desired
      let withdrawn ← withdrawOld removedOld old
      updateEntry index fun entry =>
        entry.setResources (entry.resources.filter fun resource => resource != .route old)
      save
      pure (!desiredPresent || withdrawn)

/-- The indices of the entry's own TUN links. -/
def tunIndices (resources : List OwnedResource) : List Nat :=
  resources.filterMap fun
    | .xrayProcess process => if process.index = 0 then none else some process.index
    | _ => none

/-- A missing route is added again. A bypass route that cannot be is left for later. -/
def readdRoute (origin : Origin) (isBypass : Bool) (route : AppliedRoute) : Prog Bool := do
  match ← Call.attempt (addRouteExclusive origin route) with
  | .ok () => pure true
  | .error e => if isAlreadyExists e || isBypass then pure false else Call.throw e

/-- One route of `restore_owned_network`. -/
def restoreRoute (index : Nat) (tuns : List Nat) (observed : List AppliedRoute)
    (route : AppliedRoute) : Prog Bool := do
  let entry ← entryAt index
  -- An earlier migration of this pass may have removed the route from the entry.
  if !entry.resources.contains (.route route) then pure false
  else do
    let isBypass := route.gateway.isSome ||
      (!tuns.isEmpty && !tuns.contains route.interfaceIndex)
    let fresh := (← Call.gets DaemonCore.view).freshBypassRoute route
    if isBypass && fresh.isNone then pure false
    else if isBypass && fresh != some route then do
      match ← Call.attempt (migrateOwnedBypass index route (fresh.getD route)) with
      | .ok changed => pure changed
      | .error _ => pure false
    else if hasRoute observed route then pure false
    else readdRoute entry.origin isBypass route

def restoreRoutes (index : Nat) (tuns : List Nat) (observed : List AppliedRoute) :
    List AppliedRoute → Prog Bool
  | [] => pure false
  | route :: rest => do
      let restored ← restoreRoute index tuns observed route
      let more ← restoreRoutes index tuns observed rest
      pure (restored || more)

def ownedRules (resources : List OwnedResource) : List OwnedRuleResource :=
  resources.filterMap fun
    | .rule rule => some rule
    | _ => none

def restoreRules (origin : Origin) : List OwnedRuleResource → Prog Bool
  | [] => pure false
  | rule :: rest => do
      let restored ← withPolicy (restoreRule rule)
      let more ← restoreRules origin rest
      pure (restored || more)
where
  restoreRule (rule : OwnedRuleResource) : Prog Bool := do
    if ← Daemon.rulePresent rule then pure false
    else do
      addRule origin rule
      pure true

/-- `restore_owned_network`. -/
def restoreOwnedNetwork (index : Nat) (observed : List AppliedRoute) : Prog Bool := do
  let entry ← entryAt index
  let routes ← restoreRoutes index (tunIndices entry.resources) observed
    (ownedRoutes entry.resources)
  let rules ← restoreRules entry.origin (ownedRules entry.resources)
  pure (routes || rules)

def transportGone : IoError := ⟨.other, .text "tunnel transport is gone"⟩

/-- What a visit to one entry came to. -/
inductive Visit where
  | skipped
  | unchanged
  | changed
  deriving DecidableEq

def Visit.ofBool (changed : Bool) : Visit := if changed then .changed else .unchanged

/-- A dead tunnel: an Xray child gets a respawn while the network is up, anything else is
given up. -/
def reviveTunnel (index : Nat) (key : OwnerKey) (observed : List AppliedRoute) : Prog Visit := do
  match key.2 with
  | .xray _ => do
      let view ← Call.gets DaemonCore.view
      if view.watchdogNetwork && !view.watchdogOnline key then pure .skipped
      else
        match ← Call.attempt (healXray index false) with
        | .ok true => do
            let changed ← restoreOwnedNetwork index observed
            pure (Visit.ofBool changed)
        | _ => Call.throw transportGone
  | _ => Call.throw transportGone

def markTunnelFailed (key : OwnerKey) : Prog Unit :=
  Call.modify fun core =>
    { core with tunnelFailed := core.tunnelFailed.filter (fun seen => seen != key) ++ [key] }

/-- Give a tunnel up: tear it down and report it failed. -/
def giveUp (index : Nat) (key : OwnerKey) : Prog Unit := do
  let _ ← Call.attempt (teardownEntry index)
  persist
  markTunnelFailed key

/-- A live tunnel. A restart that the watchdog asked for comes first. -/
def tendTunnel (index : Nat) (key : OwnerKey) (observed : List AppliedRoute) : Prog Visit := do
  let view ← Call.gets DaemonCore.view
  if view.watchdogRequest key then
    match ← Call.attempt (healXray index true) with
    | .ok true => tend
    | _ => do
        giveUp index key
        pure .changed
  else tend
where
  tend : Prog Visit := do
    ensureXrayQuic index
    let changed ← restoreOwnedNetwork index observed
    pure (Visit.ofBool changed)

/-- An entry that is neither attached nor manual. -/
def visitTunnel (index : Nat) (key : OwnerKey) (observed : List AppliedRoute) : Prog Visit := do
  match ← tunnelAlive index with
  | none => pure .skipped
  | some false => reviveTunnel index key observed
  | some true => tendTunnel index key observed

/-- The body of the loop, up to the handling of its error. -/
def visitEntry (index : Nat) (entry : JournalEntry) (observed : List AppliedRoute) :
    Prog Visit := do
  match findAttachSpec entry.resources with
  | some spec => do
      let changed ← reconcileAttach index spec observed
      pure (Visit.ofBool changed)
  | none =>
    match entry.owner with
    | .manual => do
        let changed ← reconcileManual index
        pure (Visit.ofBool changed)
    | _ => visitTunnel index (entry.uid, entry.owner) observed

/-- An owner that could not be restored is taken down. -/
def failOwner (index : Nat) (key : OwnerKey) : Prog Unit := do
  match key.2 with
  | .ovpn _ => do
      let _ ← Call.attempt (failOpenvpn key.1 key.2)
      pure ()
  | _ => giveUp index key

/-- One round of the loop. Returns whether the owner changed. -/
def reconcileEntry (index : Nat) (observed : List AppliedRoute) : Prog Bool := do
  let entry ← entryAt index
  if entry.state ≠ .applied then pure false
  else
    match ← Call.attempt (visitEntry index entry observed) with
    | .ok visit => pure (visit == .changed)
    | .error _ => do
        failOwner index (entry.uid, entry.owner)
        pure true

/-- The loop of `reconcile_network`, newest entry first. -/
def reconcileLoop (observed : List AppliedRoute) : Nat → List OwnerKey → Prog (List OwnerKey)
  | 0, changed => pure changed
  | index + 1, changed => do
      let entry ← entryAt index
      let touched ← reconcileEntry index observed
      reconcileLoop observed index
        (if touched then changed ++ [(entry.uid, entry.owner)] else changed)

/-- `reconcile_network`. -/
def reconcileNetwork (observed : List AppliedRoute) : Prog (List OwnerKey) := do
  let count ← Call.gets fun core => core.journal.length
  reconcileLoop observed count []

end NetOrchestrator.Daemon
