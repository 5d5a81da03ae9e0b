import NetOrchestrator.Daemon.OpenVpnPrepare
import NetOrchestrator.Net.Cover
import NetOrchestrator.Proofs.AlwaysOnPlans
import NetOrchestrator.Proofs.XrayConnect
import NetOrchestrator.Proofs.XrayPrepared

/-!
# `Proofs.FullCoverage`: tunnels that carry a whole family

Whether a tunnel carries everything is decided from its routes, by aggregation
(`fullCoverage_eq`) or by a look for the default route and its halves.

A secondary OpenVPN tunnel is refused only what is as short as a half. Its server cannot add to it
(`fromRuntime_secondary`), but its own routes may still cover a family in smaller pieces, which an
aggregation would have shown (`secondary_kept_iff`).

WireGuard and Xray plans are refused where they cover a family without its default route or its
halves. A primary OpenVPN plan is not: only the look decides it (`covers_recognised_iff`).
-/

namespace NetOrchestrator.Daemon

open Net Lib
open NetOrchestrator.Core
open Checks (bind_eq_ok mapError_eq_ok toOption_eq_some)

/-! ### The aggregated test -/

/-- The test by aggregation finds the covered families, for an aggregation that returns a minimal
cover and prefixes that are written as usual. -/
theorem fullCoverage_eq {lib : WireGuardCrates} {nets : List IpNet}
    (hshow : ∀ net, lib.showNet net = renderNet net)
    (haggregate : MinimalCover nets (lib.aggregate nets)) :
    ((fullCoverage lib nets).1 = true ↔ CoversFamily .ipv4 nets) ∧
      ((fullCoverage lib nets).2 = true ↔ CoversFamily .ipv6 nets) := by
  have hany : ∀ (text : String) (family : IpFamily), renderNet family.whole = text →
      (((lib.aggregate nets).any fun net => lib.showNet net == text) = true ↔
        CoversFamily family nets) := by
    intro text family htext
    rw [← haggregate.whole_mem_iff, List.any_eq_true]
    constructor
    · rintro ⟨net, hnet, hsame⟩
      rw [beq_iff_eq, hshow, ← htext] at hsame
      have hparsed := congrArg parseNet hsame
      rw [parseNet_renderNet, parseNet_renderNet] at hparsed
      rw [← Option.some.inj hparsed]
      exact hnet
    · intro hmem
      exact ⟨family.whole, hmem, by rw [beq_iff_eq, hshow, htext]⟩
  exact ⟨hany _ .ipv4 (by decide), hany _ .ipv6 (by decide)⟩

/-! ### Secondary OpenVPN tunnels -/

/-- The session of a prepared request after some management events. -/
def PreparedOpenVpn.runtime (prepared : PreparedOpenVpn) (events : List ManagementEvent) :
    OpenVpnRuntime :=
  { explicitRoutes := prepared.routes, role := prepared.role, dnsDomains := prepared.dnsDomains
    snapshot := events.foldl ManagementSnapshot.apply .initial }

/-- The plan keeps to what the profile asks for. Domains that are listed twice count once. -/
structure OpenVpnNetworkPlan.Kept (plan : OpenVpnNetworkPlan) (params : OpenVpnConnectParams) :
    Prop where
  routes : plan.routes = params.routes
  notFullIpv4 : plan.fullIpv4 = false
  notFullIpv6 : plan.fullIpv6 = false
  domains : plan.dnsDomains = [] ∨ plan.dnsDomains.Nodup ∧
    ∀ domain, domain ∈ plan.dnsDomains ↔ domain ∈ params.dnsDomains

section
variable {runtime : OpenVpnRuntime} {plan : OpenVpnNetworkPlan} {root : String}
  {decodeBase64 : String → Option (List UInt8)} {uid : Nat} {params : OpenVpnConnectParams}
  {credentials : Option OpenVpnCredentials} {prepared : PreparedOpenVpn}

theorem mem_extendNew {α : Type} [DecidableEq α] {into l : List α} {a : α} :
    a ∈ extendNew into l ↔ a ∈ into ∨ a ∈ l := by
  induction l generalizing into with
  | nil => simp [extendNew]
  | cons b rest ih =>
    have hstep : extendNew into (b :: rest) =
        extendNew (if b ∈ into then into else into ++ [b]) rest := rfl
    rw [hstep, ih, List.mem_cons]
    split
    · rename_i hmem
      constructor
      · rintro (h | h)
        · exact .inl h
        · exact .inr (.inr h)
      · rintro (h | rfl | h)
        · exact .inl h
        · exact .inl hmem
        · exact .inr h
    · rw [List.mem_append, List.mem_singleton, or_assoc]

/-- What the plan of a secondary session depends on. The events decide only whether the domains
are there. -/
theorem fromRuntime_secondary (hrole : runtime.role = .secondary)
    (h : OpenVpnNetworkPlan.fromRuntime runtime = .ok plan) : plan.routes = runtime.explicitRoutes ∧
      plan.fullIpv4 = takesAll runtime.explicitRoutes defaultIpv4 lowerIpv4 upperIpv4 ∧
      plan.fullIpv6 = takesAll runtime.explicitRoutes defaultIpv6 lowerIpv6 upperIpv6 ∧
      (plan.dnsDomains = [] ∨ plan.dnsDomains = extendNew [] runtime.dnsDomains) := by
  have hsecondary : (runtime.role == .secondary) = true := by rw [hrole]; rfl
  have hidle : (true && ([] : List IpAddr).isEmpty) = true := rfl
  rw [OpenVpnNetworkPlan.fromRuntime] at h
  cases hpush : runtime.snapshot.activePush with
  | none =>
    simp only [hsecondary, hpush, Option.any_none, Bool.false_or, hidle, if_true] at h
    split at h
    · cases h
    · split at h
      · cases h
      · cases h
        exact ⟨rfl, rfl, rfl, .inl rfl⟩
  | some push =>
    simp only [hsecondary, hpush, Option.any_some, Bool.not_true, Bool.and_false, Bool.false_or,
      if_true, Bool.true_and] at h
    generalize hservers : extendNew [] (push.legacyDnsServers ++
      push.dnsServers.flatMap PushedDnsServer.addresses) = servers at h
    generalize hnames : (if servers.isEmpty = true then [] else extendNew [] runtime.dnsDomains) =
      names at h
    split at h
    · cases h
    · split at h
      · cases h
      · cases h
        refine ⟨rfl, rfl, rfl, ?_⟩
        show names = [] ∨ names = extendNew [] runtime.dnsDomains
        rw [← hnames]
        cases servers.isEmpty with
        | true => exact .inl rfl
        | false => exact .inr rfl

section
variable (h : prepareOpenvpn root decodeBase64 uid params credentials = .ok prepared)
include h

/-- What is checked of an accepted request. -/
theorem of_prepareOpenvpn : (prepared.routes = params.routes ∧ prepared.role = params.role ∧
        prepared.dnsDomains = params.dnsDomains) ∧
      validateSecondary params.role params.routes params.dnsDomains = .ok () := by
  rw [prepareOpenvpn, bind_eq_ok] at h
  obtain ⟨_, -, h⟩ := h
  split at h
  · cases h
  split at h
  · cases h
  obtain ⟨seen, -, h⟩ := bind_eq_ok.mp h
  split at h
  · cases h
  obtain ⟨⟨⟩, hrole, h⟩ := bind_eq_ok.mp h
  rw [mapError_eq_ok] at hrole
  dsimp only at h
  split at h
  · cases h
  split at h
  · cases h
  obtain ⟨config, -, h⟩ := bind_eq_ok.mp h
  split at h
  · cases h
  · cases h
    exact ⟨⟨rfl, rfl, rfl⟩, hrole⟩

/-- No push reply changes what a secondary tunnel carries. -/
theorem kept_of_prepared (hrole : params.role = .secondary) (events : List ManagementEvent)
    (hplan : OpenVpnNetworkPlan.fromRuntime (prepared.runtime events) = .ok plan) :
    plan.Kept params := by
  obtain ⟨⟨hroutes, hsame, hdomains⟩, hvalid⟩ := of_prepareOpenvpn h
  rw [hrole] at hvalid
  have hsecondary : (prepared.runtime events).role = .secondary := hsame.trans hrole
  obtain ⟨hplanned, hfour, hsix, hnames⟩ := fromRuntime_secondary hsecondary hplan
  have hexplicit : (prepared.runtime events).explicitRoutes = params.routes := hroutes
  have hown : (prepared.runtime events).dnsDomains = params.dnsDomains := hdomains
  have hlen := (routes_of_validateSecondary hvalid).2
  rw [hexplicit] at hplanned hfour hsix
  rw [hown] at hnames
  constructor
  case routes => exact hplanned
  case notFullIpv4 => rw [hfour, takesAll_eq_false hlen rfl rfl]
  case notFullIpv6 => rw [hsix, takesAll_eq_false hlen rfl rfl]
  case domains =>
    rcases hnames with hnone | hnames
    · exact .inl hnone
    · rw [hnames]
      exact .inr ⟨nodup_extendNew List.nodup_nil, fun domain => by simp [mem_extendNew]⟩

end

/-- A secondary request is kept to its own networks, and these leave a part of each family to the
primary, exactly where an aggregation of its routes shows no default route. -/
theorem secondary_kept_iff (lib : WireGuardCrates) (hshow : ∀ net, lib.showNet net = renderNet net)
    (haggregate : MinimalCover (params.routes.map PolicyRoute.destination)
      (lib.aggregate (params.routes.map PolicyRoute.destination)))
    (h : prepareOpenvpn root decodeBase64 uid params credentials = .ok prepared)
    (hrole : params.role = .secondary) :
    (∀ (events events' : List ManagementEvent) (plan plan' : OpenVpnNetworkPlan),
        OpenVpnNetworkPlan.fromRuntime (prepared.runtime events) = .ok plan →
        OpenVpnNetworkPlan.fromRuntime (prepared.runtime events') = .ok plan' →
        plan.Kept params ∧ plan'.Kept params) ∧
      (∀ family, ¬CoversFamily family (params.routes.map PolicyRoute.destination)) ↔
    fullCoverage lib (params.routes.map PolicyRoute.destination) = (false, false) := by
  obtain ⟨hfour, hsix⟩ := fullCoverage_eq hshow haggregate
  constructor
  · rintro ⟨-, hleft⟩
    exact Prod.ext (Bool.eq_false_iff.mpr (mt hfour.mp (hleft .ipv4)))
      (Bool.eq_false_iff.mpr (mt hsix.mp (hleft .ipv6)))
  · intro hcoverage
    constructor
    · intro events events' plan plan' hplan hplan'
      exact ⟨kept_of_prepared h hrole events hplan, kept_of_prepared h hrole events' hplan'⟩
    · intro family hcovers
      cases family with
      | ipv4 =>
        have hfull := hfour.mpr hcovers
        rw [hcoverage] at hfull
        cases hfull
      | ipv6 =>
        have hfull := hsix.mpr hcovers
        rw [hcoverage] at hfull
        cases hfull

/-- A secondary request with the routes. -/
def annexRequest (destinations : List IpNet) : OpenVpnConnectParams :=
  { profileId := "branch", config := "client\nremote harbor\n", assets := ⟨[], by decide⟩
    routes := destinations.map fun destination => { destination, metric := 5, via := none }
    interfaceName := none, role := .secondary, dnsDomains := [] }

/-- The crates on one prefix, which is aggregated already. -/
def annexCrates : WireGuardCrates where
  parseNet := parseNet
  showNet := renderNet
  aggregate := id
  decodeBase64 _ := none

def annexNet : IpNet := .v4 0x0a000000 8

theorem secondary_annex_kept :
    ∃ prepared, prepareOpenvpn "/run/network-orchestrator" (fun _ => none) 1000
        (annexRequest [annexNet]) none = .ok prepared ∧
      ∀ (events events' : List ManagementEvent) (plan plan' : OpenVpnNetworkPlan),
        OpenVpnNetworkPlan.fromRuntime (prepared.runtime events) = .ok plan →
        OpenVpnNetworkPlan.fromRuntime (prepared.runtime events') = .ok plan' →
        plan.Kept (annexRequest [annexNet]) ∧ plan'.Kept (annexRequest [annexNet]) := by
  have haccepted : (prepareOpenvpn "/run/network-orchestrator" (fun _ => none) 1000
      (annexRequest [annexNet]) none).isOk = true := by
    decide +kernel
  have hcover : MinimalCover ((annexRequest [annexNet]).routes.map PolicyRoute.destination)
      (annexCrates.aggregate
        ((annexRequest [annexNet]).routes.map PolicyRoute.destination)) := by
    constructor
    case same => exact fun ip => Iff.rfl
    case truncated => decide
    case least =>
      intro other hsame
      obtain ⟨net, hnet, -⟩ := (hsame (.v4 0x0a000001)).mpr ⟨annexNet, by decide, by decide⟩
      exact List.length_pos_of_mem hnet
  cases hprepared : prepareOpenvpn "/run/network-orchestrator" (fun _ => none) 1000
      (annexRequest [annexNet]) none with
  | error e =>
    rw [hprepared] at haccepted
    cases haccepted
  | ok prepared =>
    have hkept := secondary_kept_iff annexCrates (fun _ => rfl) hcover hprepared rfl
    exact ⟨prepared, rfl, (hkept.mpr (by decide)).1⟩

/-- A quarter of the IPv4 addresses. -/
def quarter (index : Nat) : IpNet := .v4 (BitVec.ofNat 32 (index * 2 ^ 30)) 2

theorem covers_quarters : CoversFamily .ipv4 ((List.range 4).map quarter) := by
  intro ip hip
  cases ip with
  | v6 bits => cases hip
  | v4 bits =>
    -- The first two bits say which quarter the address is in.
    have hlt : bits.toNat / 2 ^ 30 < 4 := by
      have hbits := bits.isLt
      omega
    have hshift : bits >>> 30 = BitVec.ofNat 32 (bits.toNat / 2 ^ 30) := by
      apply BitVec.eq_of_toNat_eq
      rw [BitVec.toNat_ushiftRight, Nat.shiftRight_eq_div_pow, BitVec.toNat_ofNat]
      omega
    have hmask : bits &&& IpNet.mask 32 2 = bits >>> 30 <<< 30 := BitVec.shiftLeft_ushiftRight.symm
    have hquarters : ∀ index < 4, BitVec.ofNat 32 index <<< 30 =
        BitVec.ofNat 32 (index * 2 ^ 30) &&& IpNet.mask 32 2 := by
      decide
    refine ⟨quarter (bits.toNat / 2 ^ 30), ?_, ?_⟩
    · exact List.mem_map.mpr ⟨bits.toNat / 2 ^ 30, List.mem_range.mpr hlt, rfl⟩
    · show (decide (2 ≤ 32) && bits &&& IpNet.mask 32 2 ==
        BitVec.ofNat 32 (bits.toNat / 2 ^ 30 * 2 ^ 30) &&& IpNet.mask 32 2) = true
      rw [← hquarters _ hlt, hmask, hshift]
      simp

/-- Four quarters are accepted as a secondary and cover IPv4. -/
theorem secondary_quarters :
    (prepareOpenvpn "/run/network-orchestrator" (fun _ => none) 1000
        (annexRequest ((List.range 4).map quarter)) none).isOk = true ∧
      (annexRequest ((List.range 4).map quarter)).role = .secondary ∧
      CoversFamily .ipv4 ((annexRequest ((List.range 4).map quarter)).routes.map
        PolicyRoute.destination) := by
  refine ⟨by decide +kernel, rfl, ?_⟩
  rw [annexRequest, List.map_map]
  exact (List.map_id _).symm ▸ covers_quarters

end

/-! ### The three kinds of tunnels -/

/-- What a tunnel is planned from. An OpenVPN tunnel is a primary one. -/
inductive TunnelInput where
  | wireguard (source : String) (policyRoutes : List PolicyRoute)
  | xray (uid : Nat) (params : XrayConnectParams) (mark : Nat)
  | openvpn (runtime : OpenVpnRuntime) (hprimary : runtime.role = .primary)

/-- The routes of a plan, and the families that it is said to take. -/
structure PlannedRoutes where
  routes : List PolicyRoute
  fullIpv4 : Bool
  fullIpv6 : Bool

def PlannedRoutes.destinations (planned : PlannedRoutes) : List IpNet :=
  planned.routes.map PolicyRoute.destination

def PlannedRoutes.full (planned : PlannedRoutes) : IpFamily → Bool
  | .ipv4 => planned.fullIpv4
  | .ipv6 => planned.fullIpv6

/-- The plan of an input that is accepted. -/
def TunnelInput.planned (lib : XrayCrates) : TunnelInput → Option PlannedRoutes
  | .wireguard source policyRoutes =>
    (parseWireguardConfig lib.toWireGuardCrates source policyRoutes).toOption.map fun plan =>
      ⟨plan.routes, plan.fullIpv4, plan.fullIpv6⟩
  | .xray uid params mark =>
    (prepareXray lib uid params mark).toOption.map fun plan =>
      ⟨plan.routes, plan.fullIpv4, plan.fullIpv6⟩
  | .openvpn runtime _ =>
    (OpenVpnNetworkPlan.fromRuntime runtime).toOption.map fun plan =>
      ⟨plan.routes, plan.fullIpv4, plan.fullIpv6⟩

/-- The destinations of the profile and of the server. -/
def OpenVpnRuntime.destinations (runtime : OpenVpnRuntime) : List IpNet :=
  runtime.explicitRoutes.map PolicyRoute.destination ++
    (runtime.snapshot.activePush.map PushedNetworkConfig.routes).getD []

def OpenVpnRuntime.redirected (runtime : OpenVpnRuntime) : Bool :=
  runtime.snapshot.activePush.any PushedNetworkConfig.redirectGatewayDef1

/-- A family that OpenVPN routes cover is covered by a default route or its halves already, or
IPv4 is redirected. -/
def TunnelInput.ShortCover : TunnelInput → Prop
  | .wireguard _ _ | .xray _ _ _ => True
  | .openvpn runtime _ => ∀ family, CoversFamily family runtime.destinations →
      (family = .ipv4 ∧ runtime.redirected = true) ∨
        CoversFamily family (shortest runtime.destinations)

section
variable {family : IpFamily} {nets nets' : List IpNet} {routes : List PolicyRoute}

theorem covers_congr (h : ∀ net, net ∈ nets ↔ net ∈ nets') :
    CoversFamily family nets ↔ CoversFamily family nets' := by
  simp only [CoversFamily, Covered, h]

theorem covers_shortest_congr (h : ∀ net, net ∈ nets ↔ net ∈ nets') :
    CoversFamily family (shortest nets) ↔ CoversFamily family (shortest nets') := by
  rw [covers_shortest_iff, covers_shortest_iff, h, h, h]

/-- The look for the default route and its halves. -/
theorem takesAll_iff : takesAll routes family.whole family.lowerHalf family.upperHalf = true ↔
      CoversFamily family (shortest (routes.map PolicyRoute.destination)) := by
  have hmem : ∀ net, (routes.any fun route => route.destination == net) = true ↔
      net ∈ routes.map PolicyRoute.destination := by
    intro net
    simp
  rw [covers_shortest_iff, takesAll, Bool.or_eq_true, Bool.and_eq_true, hmem, hmem, hmem]

theorem mem_destinations_pushedRoutes {destinations : List IpNet} {net : IpNet} :
    net ∈ (pushedRoutes routes destinations).map PolicyRoute.destination ↔
      net ∈ routes.map PolicyRoute.destination ∨ net ∈ destinations := by
  induction destinations generalizing routes with
  | nil => simp [pushedRoutes]
  | cons first rest ih =>
    have hstep : pushedRoutes routes (first :: rest) =
        pushedRoutes (if routes.any fun route => route.destination == first then routes
          else routes ++ [{ destination := first, metric := 5, via := none }]) rest := rfl
    rw [hstep, ih, List.mem_cons]
    split
    · rename_i hthere
      have hfirst : first ∈ routes.map PolicyRoute.destination := by simpa using hthere
      constructor
      · intro h
        exact h.imp id .inr
      · intro h
        rcases h with h | rfl | h
        · exact .inl h
        · exact .inl hfirst
        · exact .inr h
    · rw [List.map_append, List.mem_append, List.map_singleton, List.mem_singleton, or_assoc]

variable {lib : WireGuardCrates}

/-- A plan that the aggregated test lets through takes what it covers. -/
theorem full_of_covers (hshow : ∀ net, lib.showNet net = renderNet net)
    (haggregate : MinimalCover (routes.map PolicyRoute.destination)
      (lib.aggregate (routes.map PolicyRoute.destination))) {fullIpv4 fullIpv6 : Bool}
    (hfour : (fullCoverage lib (routes.map PolicyRoute.destination)).1 = true → fullIpv4 = true)
    (hsix : (fullCoverage lib (routes.map PolicyRoute.destination)).2 = true → fullIpv6 = true)
    (hcovers : CoversFamily family (routes.map PolicyRoute.destination)) :
    (PlannedRoutes.mk routes fullIpv4 fullIpv6).full family = true := by
  obtain ⟨hcoversFour, hcoversSix⟩ := fullCoverage_eq hshow haggregate
  cases family with
  | ipv4 => exact hfour (hcoversFour.mpr hcovers)
  | ipv6 => exact hsix (hcoversSix.mpr hcovers)

/-- An accepted WireGuard plan takes what an aggregation of its routes shows. -/
theorem covered_of_parse {source : String} {policyRoutes : List PolicyRoute}
    {plan : WireGuardPlan} (h : parseWireguardConfig lib source policyRoutes = .ok plan) :
    ((fullCoverage lib (plan.routes.map PolicyRoute.destination)).1 = true → plan.fullIpv4 = true) ∧
      ((fullCoverage lib (plan.routes.map PolicyRoute.destination)).2 = true →
        plan.fullIpv6 = true) := by
  unfold parseWireguardConfig at h
  split at h
  · cases h
  split at h
  · cases h
  obtain ⟨st, -, h⟩ := bind_eq_ok.mp h
  obtain ⟨_, -, h⟩ := bind_eq_ok.mp h
  obtain ⟨_, -, h⟩ := bind_eq_ok.mp h
  obtain ⟨⟨planned, setconf⟩, -, h⟩ := bind_eq_ok.mp h
  rw [finishPlan_eq h]
  unfold finishPlan at h
  dsimp only at h
  split at h
  · cases h
  rename_i hcovered
  simp only [Bool.or_eq_true, Bool.and_eq_true, Bool.not_eq_true', not_or, not_and,
    Bool.not_eq_false] at hcovered
  exact hcovered

/-- So does an accepted Xray plan. -/
theorem covered_of_prepareXray {lib : XrayCrates} {uid mark : Nat} {params : XrayConnectParams}
    {plan : PreparedXray} (h : prepareXray lib uid params mark = .ok plan) :
    ((fullCoverage lib.toWireGuardCrates (plan.routes.map PolicyRoute.destination)).1 = true →
        plan.fullIpv4 = true) ∧
      ((fullCoverage lib.toWireGuardCrates (plan.routes.map PolicyRoute.destination)).2 = true →
        plan.fullIpv6 = true) := by
  obtain ⟨config, outbounds, rules, reading, hfrom⟩ := preparedFrom_of_prepareXray h
  have hchecked := hfrom.checked
  unfold checkRequest at hchecked
  obtain ⟨_, -, hchecked⟩ := bind_eq_ok.mp hchecked
  dsimp only at hchecked
  split at hchecked
  · cases hchecked
  obtain ⟨_, -, hchecked⟩ := bind_eq_ok.mp hchecked
  split at hchecked
  · cases hchecked
  rename_i haccepted
  simp only [Bool.or_eq_true, Bool.not_eq_true', not_or, Bool.not_eq_false] at haccepted
  have hcoverage := haccepted.1.2
  unfold coverageAccepted at hcoverage
  simp only [Bool.and_eq_true, Bool.or_eq_true, Bool.not_eq_true'] at hcoverage
  rw [hfrom.routes_eq, hfrom.fullIpv4_eq, hfrom.fullIpv6_eq]
  constructor
  · intro hcovers
    rcases hcoverage.1 with hnone | htakes
    · rw [hnone] at hcovers
      cases hcovers
    · exact htakes
  · intro hcovers
    rcases hcoverage.2 with hnone | htakes
    · rw [hnone] at hcovers
      cases hcovers
    · exact htakes

/-- The plan of a primary session. -/
theorem fromRuntime_primary {runtime : OpenVpnRuntime} {plan : OpenVpnNetworkPlan}
    (hprimary : runtime.role = .primary) (h : OpenVpnNetworkPlan.fromRuntime runtime = .ok plan) :
    (∀ net, net ∈ plan.routes.map PolicyRoute.destination ↔ net ∈ runtime.destinations) ∧
      plan.fullIpv4 = (runtime.redirected || takesAll plan.routes defaultIpv4 lowerIpv4 upperIpv4) ∧
      plan.fullIpv6 = takesAll plan.routes defaultIpv6 lowerIpv6 upperIpv6 := by
  have hrole : (runtime.role == .secondary) = false := by rw [hprimary]; rfl
  rw [OpenVpnNetworkPlan.fromRuntime] at h
  unfold OpenVpnRuntime.destinations OpenVpnRuntime.redirected
  cases hpush : runtime.snapshot.activePush with
  | none =>
    simp only [hrole, hpush, Bool.false_and, Bool.false_eq_true, if_false, Option.any_none,
      Bool.false_or] at h
    split at h
    · cases h
    split at h
    · cases h
    · cases h
      exact ⟨fun net => by simp, by simp [takesAll], by simp [takesAll]⟩
  | some push =>
    simp only [hrole, hpush, Bool.not_false, Bool.and_true, Bool.false_eq_true, if_false,
      Bool.false_and, Option.any_some] at h
    split at h
    · cases h
    split at h
    · cases h
    · cases h
      refine ⟨fun net => ?_, by simp [takesAll, Bool.or_assoc], by simp [takesAll]⟩
      rw [mem_destinations_pushedRoutes, List.mem_append]
      rfl

/-- A tunnel that covers a family is planned as a full one, exactly where OpenVPN routes need no
aggregation to show it. -/
theorem covers_recognised_iff {lib : XrayCrates} {input : TunnelInput} {planned : PlannedRoutes}
    (hshow : ∀ net, lib.showNet net = renderNet net)
    (haggregate : MinimalCover planned.destinations (lib.aggregate planned.destinations))
    (h : input.planned lib = some planned) :
    (∀ family, CoversFamily family planned.destinations → planned.full family = true) ↔
      input.ShortCover := by
  cases input with
  | wireguard source policyRoutes =>
    obtain ⟨plan, hplan, rfl⟩ := Option.map_eq_some_iff.mp h
    obtain ⟨hfour, hsix⟩ := covered_of_parse (toOption_eq_some.mp hplan)
    constructor
    · exact fun _ => trivial
    · exact fun _ family hcovers => full_of_covers hshow haggregate hfour hsix hcovers
  | xray uid params mark =>
    obtain ⟨plan, hplan, rfl⟩ := Option.map_eq_some_iff.mp h
    obtain ⟨hfour, hsix⟩ := covered_of_prepareXray (toOption_eq_some.mp hplan)
    constructor
    · exact fun _ => trivial
    · exact fun _ family hcovers => full_of_covers hshow haggregate hfour hsix hcovers
  | openvpn runtime hprimary =>
    obtain ⟨plan, hplan, rfl⟩ := Option.map_eq_some_iff.mp h
    obtain ⟨hmem, hfour, hsix⟩ := fromRuntime_primary hprimary (toOption_eq_some.mp hplan)
    -- the flag of a family, in terms of what the session was given
    have hflag : ∀ family, (PlannedRoutes.mk plan.routes plan.fullIpv4 plan.fullIpv6).full family =
        true ↔ (family = .ipv4 ∧ runtime.redirected = true) ∨
          CoversFamily family (shortest runtime.destinations) := by
      intro family
      rw [← covers_shortest_congr hmem, ← takesAll_iff]
      cases family with
      | ipv4 =>
        show plan.fullIpv4 = true ↔ _
        rw [hfour, Bool.or_eq_true]
        simp only [true_and]
        rfl
      | ipv6 =>
        show plan.fullIpv6 = true ↔ _
        rw [hsix]
        simp only [reduceCtorEq, false_and, false_or]
        rfl
    refine forall_congr' fun family => ?_
    rw [hflag family]
    exact imp_congr (covers_congr hmem) Iff.rfl

/-- A primary session whose server pushes the routes. -/
def pushingRuntime (routes : List IpNet) : OpenVpnRuntime :=
  { explicitRoutes := [], role := .primary, dnsDomains := []
    snapshot :=
      { ManagementSnapshot.initial with
        activePush := some
          { routes, redirectGatewayDef1 := false, legacyDnsServers := [], searchDomains := []
            dnsServers := [], moreFollows := false } } }

theorem pushed_default_recognised :
    ∃ planned, (TunnelInput.openvpn (pushingRuntime [defaultIpv4]) rfl).planned (ferryCrates true) =
        some planned ∧
      ∀ family, CoversFamily family planned.destinations → planned.full family = true := by
  have hcover : MinimalCover [defaultIpv4] [defaultIpv4] := by
    constructor
    case same => exact fun ip => Iff.rfl
    case truncated => decide
    case least =>
      intro other hsame
      obtain ⟨net, hnet, -⟩ := (hsame (.v4 0)).mpr ⟨defaultIpv4, by decide, by decide⟩
      exact List.length_pos_of_mem hnet
  have hshort : (TunnelInput.openvpn (pushingRuntime [defaultIpv4]) rfl).ShortCover := by
    intro family hcovers
    right
    cases family with
    | ipv4 => exact covers_shortest_iff.mpr (.inl (by decide))
    | ipv6 =>
      obtain ⟨net, hnet, hcontains⟩ := hcovers (.v6 0) rfl
      rw [List.mem_singleton.mp hnet] at hcontains
      cases hcontains
  have hplanned :
      (TunnelInput.openvpn (pushingRuntime [defaultIpv4]) rfl).planned (ferryCrates true) =
        some ⟨[{ destination := defaultIpv4, metric := 5, via := none }], true, false⟩ := rfl
  have hshow : ∀ net, (ferryCrates true).showNet net = renderNet net := fun _ => rfl
  have hready := (covers_recognised_iff hshow ?_ hplanned).mpr hshort
  · exact ⟨_, hplanned, hready⟩
  · exact hcover

/-- Four pushed quarters cover IPv4, and the plan is not a full one. -/
theorem pushed_quarters :
    ∃ planned, (TunnelInput.openvpn (pushingRuntime ((List.range 4).map quarter)) rfl).planned
        (ferryCrates true) = some planned ∧
      CoversFamily .ipv4 planned.destinations ∧ planned.full .ipv4 = false :=
  ⟨_, rfl, covers_quarters, by decide⟩

end

end NetOrchestrator.Daemon
