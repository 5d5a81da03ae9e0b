import NetOrchestrator.Net.Ip

/-!
# `Core.RoutePlan`: planned routes

The plan lists its routes by network, a shorter prefix before a longer one. `parentPrefix` scans
backwards for the prefix that a route lies under.
-/

namespace NetOrchestrator.Core.RoutePlan

open Net

/-- What the plan is sorted by. -/
structure PlannedRoute where
  destination : IpNet
  ownerProfileId : String
  deriving DecidableEq

/-- `family_rank`. -/
def familyRank : IpNet → Nat
  | .v4 _ _ => 0
  | .v6 _ _ => 1

/-- `a.network().cmp(&b.network())`. -/
def compareNetworks (a b : IpNet) : Ordering :=
  match a.trunc, b.trunc with
  | .v4 x _, .v4 y _ => compare x.toNat y.toNat
  | .v4 _ _, .v6 _ _ => .lt
  | .v6 _ _, .v4 _ _ => .gt
  | .v6 x _, .v6 y _ => compare x.toNat y.toNat

/-- `compare_nets`. -/
def compareNets (a b : IpNet) : Ordering :=
  ((compare (familyRank a) (familyRank b)).then (compareNetworks a b)).then
    (compare a.len b.len)

/-- The order of `build_route_map`. -/
def compareRoutes (a b : PlannedRoute) : Ordering :=
  (compareNets a.destination b.destination).then (compare a.ownerProfileId b.ownerProfileId)

/-- The condition of the scan. -/
def above (target candidate : PlannedRoute) : Bool :=
  candidate.destination.len < target.destination.len &&
    candidate.destination.containsAddr target.destination.trunc.addr

/-- `parent_prefix`. -/
def parentPrefix (index : Nat) (routes : List PlannedRoute) : Option Nat := do
  let target ← routes[index]?
  (List.range index).reverse.find? fun i => routes[i]?.any (above target)

/-- The routes of a plan, in its order. -/
structure Plan where
  routes : List PlannedRoute
  truncated : ∀ route ∈ routes, route.destination.trunc = route.destination
  sorted : routes.Pairwise fun a b => compareRoutes a b ≠ .gt

end NetOrchestrator.Core.RoutePlan
