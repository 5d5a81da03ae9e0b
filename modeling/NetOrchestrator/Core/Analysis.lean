import NetOrchestrator.Core.Profiles

/-!
# `Core.Analysis`: conflicts between two analyzed configs

An analysis says which routes a config installs and where it listens. `conflictsBetween` compares a
candidate with another config, either to refuse a connection (`blocking`) or to inform.
`unknownRouteConflicts` is about analyses that do not know all of the routes.

The two loops go over the same set of messages: a message that is there is not reported twice.
-/

namespace NetOrchestrator.Core.Analysis

open Net
open Daemon (trim)

structure AnalyzedRoute where
  destination : IpNet
  metric : Option Nat
  source : String
  deriving DecidableEq

inductive ConflictKind where
  | routeOverlap
  | listenerCollision
  deriving DecidableEq

structure ProfileConflict where
  kind : ConflictKind
  message : String
  otherProfileId : Option String
  blocking : Bool
  deriving DecidableEq

/-! ### Comparisons -/

/-- `prefixes_overlap`: one network has the first address of the other. -/
def prefixesOverlap (a b : IpNet) : Bool :=
  a.containsAddr b.trunc.addr || b.containsAddr a.trunc.addr

def wireGuardSource : String := "WireGuard AllowedIPs"

/-- A default route that WireGuard may turn into a kill-switch. -/
def killSwitchRoute (route : AnalyzedRoute) : Bool :=
  route.destination.len == 0 && route.source == wireGuardSource

/-! ### Messages -/

/-- `seen.insert`: a message is reported once. -/
def announce (kind : ConflictKind) (otherId : String) (blocking : Bool)
    (conflicts : List ProfileConflict) (message : String) : List ProfileConflict :=
  if conflicts.any fun conflict => conflict.message == message then conflicts
  else conflicts ++ [⟨kind, message, some otherId, blocking⟩]

end NetOrchestrator.Core.Analysis
