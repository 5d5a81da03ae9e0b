import NetOrchestrator.Core.RouteIntents

/-!
# `Proofs.UplinkProtection`: which routes can pull the gateway off the uplink

A route whose destination holds the uplink's gateway takes the tunnels' own packets with it. The
derivations hold such a destination back where they see that the route leaves the uplink. They
do not always look at the right address: an intent with a gateway path protects that gateway and
not the uplink's, and a rule whose interface is the uplink protects nothing, whatever the gateway
of a single route.

`uplink_protected_iff` says for which intents and rules this makes no difference.
-/

namespace NetOrchestrator.Core

open Net List
open Daemon (ConditionalRouteRule)

/-- Another interface, or a gateway that no network of the uplink's interface holds. -/
def RouteTarget.LeavesUplink (network : NetworkView) (interface : String) : RouteTarget → Prop
  | .interface name => name ≠ interface
  | .gateway address =>
    ∀ known ∈ network.addresses, known.address.containsAddr address = true →
      known.interface ≠ interface

/-- The destinations that are held back. -/
def Derivation.held : Derivation → List IpNet
  | .routes _ skipped => skipped.map Prod.fst
  | _ => []

/-- No route of the derivation takes `gateway` off the uplink. A route among `asked` that would
is held back. -/
structure Derivation.Protects (network : NetworkView) (interface : String) (gateway : IpAddr)
    (asked : List WantedRoute) (derivation : Derivation) : Prop where
  wanted : ∀ route ∈ derivation.wanted, route.destination.containsAddr gateway = true →
    ¬route.target.LeavesUplink network interface
  held : ∀ routes skipped, derivation = .routes routes skipped → ∀ route ∈ asked,
    route.destination.containsAddr gateway = true →
      route.target.LeavesUplink network interface → route.destination ∈ derivation.held

/-- The target of an intent's routes. -/
def IntentPath.target (network : NetworkView) : IntentPath → Option RouteTarget
  | .direct => network.uplink.map fun uplink =>
    (uplink.gateway.map RouteTarget.gateway).getD (.interface uplink.interface)
  | .interface name => some (.interface name)
  | .gateway address => some (.gateway address)

/-- The routes that an intent asks for, held back or not. -/
def Intent.asked (intent : Intent) (network : NetworkView) : List WantedRoute :=
  (intent.path.target network).toList.flatMap fun target =>
    intent.destinations.map fun destination => ⟨destination, target⟩

/-- The routes that a rule asks for where its condition holds. -/
def askedByRule (rule : ConditionalRouteRule) (network : NetworkView) : List WantedRoute :=
  (conditionMatch rule network).toList.flatMap fun matched => rule.routes.map (ruleRoute matched)

/-- With a gateway path off the uplink, every destination that holds the uplink's gateway holds
the path's gateway as well. -/
def Intent.Safe (network : NetworkView) (interface : String) (gateway : IpAddr)
    (intent : Intent) : Prop :=
  ∀ address, intent.path = .gateway address → intent.enabled = true →
    (∃ known ∈ network.addresses, known.address.containsAddr address = true) →
    (RouteTarget.gateway address).LeavesUplink network interface →
    ∀ destination ∈ intent.destinations, destination.containsAddr gateway = true →
      destination.containsAddr address = true

/-- Where the condition holds on the uplink, no route that holds its gateway goes through a
gateway off the uplink. -/
def RuleSafe (network : NetworkView) (interface : String) (gateway : IpAddr)
    (rule : ConditionalRouteRule) : Prop :=
  rule.enabled = true → conditionMatch rule network = some interface →
    ∀ route ∈ rule.routes, ∀ address, route.via = some address →
      route.destination.containsAddr gateway = true →
      ¬(RouteTarget.gateway address).LeavesUplink network interface

section
variable {network : NetworkView} {interface : String} {gateway : IpAddr}
variable {protect : Option IpAddr} {routes : List WantedRoute} {uplink : Uplink}
  {asked : List WantedRoute}
variable {route : WantedRoute}

theorem mem_wanted_derivation : route ∈ (derivation protect routes).wanted ↔
      route ∈ routes ∧ ∀ kept, protect = some kept → route.destination.containsAddr kept = false := by
  show route ∈ routes.filter _ ↔ _
  cases protect with
  | none => simp [containsProtected]
  | some kept => simp [containsProtected, Option.filter]

theorem mem_held_derivation {kept : IpAddr} (hroute : route ∈ routes)
    (hprotect : protect = some kept) (hkept : route.destination.containsAddr kept = true) :
    route.destination ∈ (derivation protect routes).held := by
  subst hprotect
  show route.destination ∈ (routes.filterMap _).map Prod.fst
  rw [mem_map]
  refine ⟨(route.destination, kept), ?_, rfl⟩
  rw [mem_filterMap]
  exact ⟨route, hroute, by simp [containsProtected, Option.filter, hkept]⟩

theorem protects_disabled : Derivation.Protects network interface gateway asked .disabled :=
  ⟨fun _ hroute => (not_mem_nil hroute).elim, fun _ _ h => nomatch h⟩

theorem protects_deferred {reason : Deferral} :
    Derivation.Protects network interface gateway asked (.deferred reason) :=
  ⟨fun _ hroute => (not_mem_nil hroute).elim, fun _ _ h => nomatch h⟩

/-- The loop protects the gateway exactly when every route that would take it off the uplink
also holds the address that the loop looks at. -/
theorem protects_derivation_iff :
    Derivation.Protects network interface gateway routes (derivation protect routes) ↔
      ∀ route ∈ routes, route.destination.containsAddr gateway = true →
        route.target.LeavesUplink network interface →
        ∃ kept, protect = some kept ∧ route.destination.containsAddr kept = true := by
  constructor
  · intro h route hroute hgateway hleaves
    by_contra hnone
    push Not at hnone
    refine h.wanted route (mem_wanted_derivation.mpr ⟨hroute, ?_⟩) hgateway hleaves
    intro kept hkept
    simpa using hnone kept hkept
  · intro h
    refine ⟨?_, ?_⟩
    · intro route hroute hgateway hleaves
      obtain ⟨hmem, hclear⟩ := mem_wanted_derivation.mp hroute
      obtain ⟨kept, hprotect, hkept⟩ := h route hmem hgateway hleaves
      rw [hclear kept hprotect] at hkept
      cases hkept
    · intro _ _ _ route hroute hgateway hleaves
      obtain ⟨kept, hprotect, hkept⟩ := h route hroute hgateway hleaves
      exact mem_held_derivation hroute hprotect hkept

theorem not_leavesUplink_self : ¬(RouteTarget.interface interface).LeavesUplink network interface :=
  fun h => h rfl

/-! ### Intents and rules -/

variable (hup : network.uplink = some uplink) (hgateway : uplink.gateway = some gateway)
include hup hgateway

/-- The address that a derivation through `name` looks at. -/
theorem protected_of_uplink (name : String) :
    (network.uplink.filter fun uplink => uplink.interface != name).bind Uplink.gateway =
      if uplink.interface = name then none else some gateway := by
  rw [hup, Option.filter]
  by_cases hname : uplink.interface = name
  · simp [hname]
  · simp [hname, hgateway]

theorem derive_protects_iff {intent : Intent} (hpath : intent.path ≠ .direct) :
    (derive intent network).Protects network uplink.interface gateway (intent.asked network) ↔
      intent.Safe network uplink.interface gateway := by
  obtain ⟨id, destinations, path, metric, enabled⟩ := intent
  cases enabled with
  | false => exact ⟨fun _ _ _ hon => (nomatch hon), fun _ => protects_disabled⟩
  | true =>
    cases path with
    | direct => exact absurd rfl hpath
    | interface name =>
      have hsafe : (Intent.mk id destinations (.interface name) metric true).Safe network
          uplink.interface gateway := fun _ h => nomatch h
      refine iff_of_true ?_ hsafe
      by_cases habsent : !network.interfaces.contains name
      · simp only [derive, habsent, Bool.not_true, Bool.false_eq_true, if_false, if_true]
        exact protects_deferred
      · simp only [derive, habsent, Bool.not_true, Bool.false_eq_true, if_false]
        simp only [Intent.asked, IntentPath.target, Option.toList_some, flatMap_singleton]
        rw [protects_derivation_iff, protected_of_uplink hup hgateway]
        intro route hroute hholds hleaves
        obtain ⟨destination, _, rfl⟩ := mem_map.mp hroute
        by_cases hname : uplink.interface = name
        · subst hname
          exact absurd hleaves not_leavesUplink_self
        · exact ⟨gateway, if_neg hname, hholds⟩
    | gateway address =>
      by_cases hconnected : network.addresses.any fun known => known.address.containsAddr address
      · have hknown := any_eq_true.mp hconnected
        simp only [derive, hconnected, Bool.not_true, Bool.false_eq_true, if_false]
        simp only [Intent.asked, IntentPath.target, Option.toList_some, flatMap_singleton]
        rw [protects_derivation_iff]
        constructor
        · intro h other hother _ _ hleaves destination hdestination hholds
          cases hother
          obtain ⟨kept, hkept, hin⟩ :=
            h ⟨destination, .gateway address⟩ (mem_map_of_mem hdestination) hholds hleaves
          cases hkept
          exact hin
        · intro h route hroute hholds hleaves
          obtain ⟨destination, hdestination, rfl⟩ := mem_map.mp hroute
          exact ⟨address, rfl, h address rfl rfl hknown hleaves destination hdestination hholds⟩
      · simp only [derive, hconnected, Bool.not_true, Bool.false_eq_true, if_false,
          Bool.not_false, if_true]
        refine iff_of_true protects_deferred ?_
        intro other hother _ hknown
        cases hother
        exact absurd (any_eq_true.mpr hknown) hconnected

theorem deriveRule_protects_iff {rule : ConditionalRouteRule} :
    (deriveRule rule network).Protects network uplink.interface gateway (askedByRule rule network) ↔
      RuleSafe network uplink.interface gateway rule := by
  cases hon : rule.enabled with
  | false =>
    simp only [deriveRule, hon, Bool.not_false, if_true]
    refine iff_of_true protects_disabled ?_
    intro h
    rw [hon] at h
    cases h
  | true =>
    simp only [deriveRule, hon, Bool.not_true, Bool.false_eq_true, if_false, askedByRule]
    cases hmatched : conditionMatch rule network with
    | none =>
      refine iff_of_true protects_deferred ?_
      intro _ h
      rw [hmatched] at h
      cases h
    | some matched =>
      simp only [Option.toList_some, flatMap_singleton]
      rw [protects_derivation_iff, protected_of_uplink hup hgateway]
      by_cases hsame : uplink.interface = matched
      · subst hsame
        rw [if_pos rfl]
        constructor
        · intro h _ _ route hroute address hvia hholds hleaves
          have hasked := h (ruleRoute uplink.interface route) (mem_map_of_mem hroute) hholds
            (by simpa only [ruleRoute, hvia] using hleaves)
          obtain ⟨_, hkept, _⟩ := hasked
          cases hkept
        · intro h route hroute hholds hleaves
          obtain ⟨entry, hentry, rfl⟩ := mem_map.mp hroute
          cases hvia : entry.via with
          | none =>
            simp only [ruleRoute, hvia] at hleaves
            exact absurd hleaves not_leavesUplink_self
          | some address =>
            simp only [ruleRoute, hvia] at hleaves
            exact absurd hleaves (h hon hmatched entry hentry address hvia hholds)
      · rw [if_neg hsame]
        constructor
        · intro _ _ h
          rw [hmatched] at h
          exact absurd (Option.some.inj h).symm hsame
        · intro _ route _ hholds _
          exact ⟨gateway, rfl, hholds⟩

end

/-- On a network whose uplink has a gateway, exactly the safe intents and the safe rules keep it
on the uplink. An intent through an interface is always safe. -/
theorem uplink_protected_iff {network : NetworkView} {uplink : Uplink} {gateway : IpAddr}
    (hup : network.uplink = some uplink) (hgateway : uplink.gateway = some gateway) :
    (∀ intent : Intent, intent.path ≠ .direct →
      ((derive intent network).Protects network uplink.interface gateway (intent.asked network) ↔
        intent.Safe network uplink.interface gateway)) ∧
    ∀ rule : ConditionalRouteRule,
      ((deriveRule rule network).Protects network uplink.interface gateway
          (askedByRule rule network) ↔
        RuleSafe network uplink.interface gateway rule) :=
  ⟨fun _ hpath => derive_protects_iff hup hgateway hpath,
    fun _ => deriveRule_protects_iff hup hgateway⟩

/-! ### A second network card -/

/-- The uplink is Wi-Fi with gateway 192.168.1.1. A wired card is in 10.0.0.0/24. -/
def deskView : NetworkView where
  uplink := some ⟨"en0", some (.v4 0xc0a80101)⟩
  interfaces := ["en0", "en1"]
  addresses := [⟨4, "en0", .v4 0xc0a80105 24⟩, ⟨5, "en1", .v4 0x0a000005 24⟩]

/-- 192.168.0.0/16 through 10.0.0.1. -/
def deskIntent : Intent where
  id := "desk"
  destinations := [.v4 0xc0a80000 16]
  path := .gateway (.v4 0x0a000001)
  metric := 100
  enabled := true

/-- The same network while Wi-Fi has an address in 192.168.1.0/24. -/
def deskRule : ConditionalRouteRule where
  id := "desk"
  name := "desk"
  enabled := true
  condition := .interfaceAddressIn (.v4 0xc0a80100 24)
  routes := [⟨.v4 0xc0a80000 16, 100, some (.v4 0x0a000001)⟩]

theorem desk_leaves_uplink :
    (RouteTarget.gateway (.v4 0x0a000001)).LeavesUplink deskView "en0" := by
  unfold RouteTarget.LeavesUplink
  decide

/-- Both send the uplink's gateway to the wired card. -/
theorem desk_takes_the_gateway :
    ¬(derive deskIntent deskView).Protects deskView "en0" (.v4 0xc0a80101)
        (deskIntent.asked deskView) ∧
    ¬(deriveRule deskRule deskView).Protects deskView "en0" (.v4 0xc0a80101)
        (askedByRule deskRule deskView) := by
  constructor
  · intro h
    exact h.wanted ⟨.v4 0xc0a80000 16, .gateway (.v4 0x0a000001)⟩ (by decide) (by decide)
      desk_leaves_uplink
  · intro h
    exact h.wanted ⟨.v4 0xc0a80000 16, .gateway (.v4 0x0a000001)⟩ (by decide) (by decide)
      desk_leaves_uplink

/-- Through the wired interface itself, the gateway stays. -/
theorem desk_interface_keeps_the_gateway :
    (derive { deskIntent with path := .interface "en1" } deskView).Protects deskView "en0"
      (.v4 0xc0a80101) (Intent.asked { deskIntent with path := .interface "en1" } deskView) :=
  ((uplink_protected_iff (show deskView.uplink = some _ from rfl) rfl).1 _ (by decide)).mpr
    fun _ h => nomatch h

end NetOrchestrator.Core
