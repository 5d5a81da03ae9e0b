import NetOrchestrator.Macos.Ipv6Warning
import NetOrchestrator.Net.Cover

/-!
# `Proofs.Ipv6Coverage`: when the warning about IPv6 is right

The routes into the tunnel cover what the networks cover (`covered_interfaceRoutes`), so the warning
is about the networks. WireGuard is right where a family is captured by a default route if at all,
and OpenVPN where it is captured exactly if a prefix of one bit at most is there; both only as far
as the other family leaves it open (`DefaultsListed`, `HalvesListed`).
-/

namespace NetOrchestrator.Macos

open Net Lib List
open Daemon (PushedNetworkConfig)

/-! ### Routes of networks -/

section
variable {tun : String} {net : IpNet} {ip : IpAddr}
variable {destination : IpNet} {networks : List IpNet}

theorem len_trunc (net : IpNet) : net.trunc.len = net.len := by
  cases net <;> rfl

/-- A prefix without a fixed bit is its family. -/
theorem containsAddr_of_len (hlen : net.len = 0) :
    net.containsAddr ip = true ↔ ip.family = net.family := by
  constructor
  · exact IpNet.family_of_containsAddr
  · intro hfamily
    cases net with
    | v4 addr len =>
      obtain rfl : len = 0 := Fin.ext hlen
      cases ip with
      | v4 bits => simp [IpNet.containsAddr, IpNet.containsNet, IpAddr.toNet, IpNet.mask_zero]
      | v6 bits => cases hfamily
    | v6 addr len =>
      obtain rfl : len = 0 := Fin.ext hlen
      cases ip with
      | v4 bits => cases hfamily
      | v6 bits => simp [IpNet.containsAddr, IpNet.containsNet, IpAddr.toNet, IpNet.mask_zero]

/-- The two halves are the family. -/
theorem covered_halves (family : IpFamily) :
    Covered [family.lowerHalf, family.upperHalf] ip ↔ ip.family = family := by
  constructor
  · rintro ⟨half, hhalf, hcontains⟩
    rw [IpNet.family_of_containsAddr hcontains]
    simp only [mem_cons, not_mem_nil, or_false] at hhalf
    rcases hhalf with rfl | rfl
    · cases family <;> rfl
    · cases family <;> rfl
  · rintro rfl
    rcases IpNet.containsAddr_halves ip with hlower | hupper
    · exact ⟨_, mem_cons_self, hlower⟩
    · exact ⟨_, mem_cons_of_mem _ mem_cons_self, hupper⟩

/-- One network is one route, and a whole family is two. -/
theorem mem_interfaceOps {op : RouteOp} : op ∈ interfaceOps tun net ↔
      net.len = 0 ∧ (op = ⟨net.family.lowerHalf, .interface tun, false⟩ ∨
          op = ⟨net.family.upperHalf, .interface tun, false⟩) ∨
        net.len ≠ 0 ∧ op = ⟨net.trunc, .interface tun, 1 < net.len⟩ := by
  cases net with
  | v4 addr len =>
    by_cases hlen : len = 0
    · have hzero : (IpNet.v4 addr len).len = 0 := congrArg Fin.val hlen
      rw [interfaceOps, if_pos hlen]
      simp [hzero, IpNet.family, IpFamily.lowerHalf, IpFamily.upperHalf]
    · have hzero : (IpNet.v4 addr len).len ≠ 0 := fun h => hlen (Fin.ext h)
      rw [interfaceOps, if_neg hlen]
      simp only [mem_singleton, ne_eq, hzero, false_and, false_or, not_false_eq_true, true_and]
      exact Iff.rfl
  | v6 addr len =>
    by_cases hlen : len = 0
    · have hzero : (IpNet.v6 addr len).len = 0 := congrArg Fin.val hlen
      rw [interfaceOps, if_pos hlen]
      simp [hzero, IpNet.family, IpFamily.lowerHalf, IpFamily.upperHalf]
    · have hzero : (IpNet.v6 addr len).len ≠ 0 := fun h => hlen (Fin.ext h)
      rw [interfaceOps, if_neg hlen]
      simp only [mem_singleton, ne_eq, hzero, false_and, false_or, not_false_eq_true, true_and]
      exact Iff.rfl

theorem destinations_interfaceOps : destination ∈ (interfaceOps tun net).map RouteOp.destination ↔
      net.len = 0 ∧ destination ∈ [net.family.lowerHalf, net.family.upperHalf] ∨
        net.len ≠ 0 ∧ destination = net.trunc := by
  simp only [mem_map, mem_interfaceOps, mem_cons, not_mem_nil, or_false]
  constructor
  · rintro ⟨op, ⟨hlen, rfl | rfl⟩ | ⟨hlen, rfl⟩, rfl⟩
    · exact .inl ⟨hlen, .inl rfl⟩
    · exact .inl ⟨hlen, .inr rfl⟩
    · exact .inr ⟨hlen, rfl⟩
  · rintro (⟨hlen, rfl | rfl⟩ | ⟨hlen, rfl⟩)
    · exact ⟨_, .inl ⟨hlen, .inl rfl⟩, rfl⟩
    · exact ⟨_, .inl ⟨hlen, .inr rfl⟩, rfl⟩
    · exact ⟨_, .inr ⟨hlen, rfl⟩, rfl⟩

/-- The routes of one network cover it. -/
theorem covered_interfaceOps : Covered ((interfaceOps tun net).map RouteOp.destination) ip ↔
      net.containsAddr ip = true := by
  by_cases hlen : net.len = 0
  · rw [containsAddr_of_len hlen, ← covered_halves]
    simp only [Covered, destinations_interfaceOps, hlen, true_and, ne_eq, not_true_eq_false,
      false_and, or_false]
  · rw [← IpNet.containsAddr_trunc]
    simp [Covered, destinations_interfaceOps, hlen]

/-- A destination that is there already is not planned again. -/
theorem destinations_foldl_pushOp (ops planned : List RouteOp) :
    destination ∈ (ops.foldl pushOp planned).map RouteOp.destination ↔
      destination ∈ planned.map RouteOp.destination ∨
        destination ∈ ops.map RouteOp.destination := by
  induction ops generalizing planned with
  | nil => simp
  | cons op rest ih =>
    rw [foldl_cons, ih, map_cons, mem_cons, ← or_assoc]
    refine or_congr_left ?_
    unfold pushOp
    split
    · rename_i hknown
      obtain ⟨known, hmem, hsame⟩ := any_eq_true.mp hknown
      have hdestination : op.destination ∈ planned.map RouteOp.destination := by
        rw [← eq_of_beq hsame]
        exact mem_map_of_mem hmem
      constructor
      · exact .inl
      · rintro (h | rfl)
        · exact h
        · exact hdestination
    · rw [map_append, mem_append, map_singleton, mem_singleton]

theorem destinations_interfaceRoutes :
    destination ∈ (interfaceRoutes tun networks).map RouteOp.destination ↔
      ∃ net ∈ networks, destination ∈ (interfaceOps tun net).map RouteOp.destination := by
  rw [interfaceRoutes, destinations_foldl_pushOp]
  simp [map_flatMap]

/-- The routes into the tunnel go to the networks, no more and no less. -/
theorem covered_interfaceRoutes (tun : String) (networks : List IpNet) (ip : IpAddr) :
    Covered ((interfaceRoutes tun networks).map RouteOp.destination) ip ↔
      Covered networks ip := by
  constructor
  · rintro ⟨destination, hdestination, hcontains⟩
    obtain ⟨net, hnet, hops⟩ := destinations_interfaceRoutes.mp hdestination
    exact ⟨net, hnet, covered_interfaceOps.mp ⟨destination, hops, hcontains⟩⟩
  · rintro ⟨net, hnet, hcontains⟩
    obtain ⟨destination, hops, hcovers⟩ := covered_interfaceOps.mpr hcontains
    exact ⟨destination, destinations_interfaceRoutes.mpr ⟨net, hnet, hops⟩, hcovers⟩

/-- Every route of a plan for an interface goes into the interface. -/
theorem target_foldl_pushOp {ops planned : List RouteOp}
    (hplanned : ∀ op ∈ planned, op.target = .interface tun)
    (hops : ∀ op ∈ ops, op.target = .interface tun) :
    ∀ op ∈ ops.foldl pushOp planned, op.target = .interface tun := by
  induction ops generalizing planned with
  | nil => exact hplanned
  | cons op rest ih =>
    rw [foldl_cons]
    refine ih ?_ fun o ho => hops o (mem_cons_of_mem _ ho)
    unfold pushOp
    split
    · exact hplanned
    · intro o ho
      rcases mem_append.mp ho with hold | hlast
      · exact hplanned o hold
      · rw [mem_singleton.mp hlast]
        exact hops op mem_cons_self

theorem target_interfaceRoutes {op : RouteOp}
    (h : op ∈ interfaceRoutes tun networks) : op.target = .interface tun := by
  refine target_foldl_pushOp (by simp) ?_ op h
  intro o ho
  obtain ⟨net, -, hmem⟩ := mem_flatMap.mp ho
  rcases mem_interfaceOps.mp hmem with ⟨-, rfl | rfl⟩ | ⟨-, rfl⟩
  · rfl
  · rfl
  · rfl

/-- Half a family or a whole one among the networks is a half among the routes. -/
theorem half_interfaceRoutes {family : IpFamily} :
    (∃ destination ∈ (interfaceRoutes tun networks).map RouteOp.destination,
        destination.len = 1 ∧ destination.family = family) ↔
      ∃ net ∈ networks, net.len ≤ 1 ∧ net.family = family := by
  have hhalves : ∀ family : IpFamily, family.lowerHalf.len = 1 ∧ family.upperHalf.len = 1 ∧
      family.lowerHalf.family = family ∧ family.upperHalf.family = family := by
    intro family
    cases family <;> decide
  constructor
  · rintro ⟨destination, hdestination, hlen, hfamily⟩
    obtain ⟨net, hnet, hops⟩ := destinations_interfaceRoutes.mp hdestination
    refine ⟨net, hnet, ?_⟩
    obtain ⟨-, -, hlower, hupper⟩ := hhalves net.family
    rcases destinations_interfaceOps.mp hops with ⟨hzero, hhalf⟩ | ⟨-, rfl⟩
    · refine ⟨by omega, ?_⟩
      simp only [mem_cons, not_mem_nil, or_false] at hhalf
      rcases hhalf with rfl | rfl
      · exact hlower.symm.trans hfamily
      · exact hupper.symm.trans hfamily
    · rw [IpNet.family_trunc] at hfamily
      rw [len_trunc] at hlen
      exact ⟨by omega, hfamily⟩
  · rintro ⟨net, hnet, hlen, hfamily⟩
    by_cases hzero : net.len = 0
    · obtain ⟨hone, -, hlower, -⟩ := hhalves net.family
      refine ⟨net.family.lowerHalf, destinations_interfaceRoutes.mpr ⟨net, hnet, ?_⟩, hone,
        hlower.trans hfamily⟩
      exact destinations_interfaceOps.mpr (.inl ⟨hzero, mem_cons_self⟩)
    · refine ⟨net.trunc, destinations_interfaceRoutes.mpr ⟨net, hnet, ?_⟩, ?_, ?_⟩
      · exact destinations_interfaceOps.mpr (.inr ⟨hzero, rfl⟩)
      · rw [len_trunc]
        omega
      · rw [IpNet.family_trunc, hfamily]

end

/-! ### Routes that are installed -/

section
variable {who : Component} {tun : String} {networks : List IpNet} {installed : List RouteOp}
  {vs vs' : List (Verdict Fault)}
variable {w w' : Machine} {net : IpNet} {uplink : Uplink} {remotes : List IpAddr}

/-- The loop installs nothing that it was not asked for. -/
theorem mem_of_applyLoop {ops result : List RouteOp}
    (h : applyLoop who installed ops w vs = (.ok result, w', vs')) :
    ∀ op ∈ result, op ∈ installed ∨ op ∈ ops := by
  induction ops generalizing installed w vs with
  | nil =>
    cases h
    exact fun op hop => .inl hop
  | cons op rest ih =>
    rw [applyLoop, Call.bind_apply, Call.attempt_apply] at h
    generalize addRoute who op w vs = added at h
    obtain ⟨answer, w₁, vs₁⟩ := added
    cases answer with
    | ok _ =>
      intro o ho
      rcases ih h o ho with hold | hrest
      · rcases mem_append.mp hold with hmem | hlast
        · exact .inl hmem
        · rw [mem_singleton.mp hlast]
          exact .inr mem_cons_self
      · exact .inr (mem_cons_of_mem _ hrest)
    | err e =>
      simp only at h
      split at h
      · intro o ho
        exact (ih h o ho).imp_right (mem_cons_of_mem _)
      · rw [Call.bind_apply] at h
        generalize removeRoutes who installed w₁ vs₁ = removed at h
        obtain ⟨answer, w₂, vs₂⟩ := removed
        cases answer <;> cases h
    | crash => cases h

/-- All routes of the plan are in place. -/
def AllInstalled (ops installed : List RouteOp) : Prop := ∀ op, op ∈ installed ↔ op ∈ ops

/-- Where each addition of the plan has gone through, all routes are in place. -/
theorem allInstalled_of_apply {ops : List RouteOp}
    (h : applyRoutes who ops w vs = (.ok installed, w', vs'))
    (hadded : ∀ op ∈ ops, op ∈ installed) : AllInstalled ops installed := by
  intro op
  constructor
  · intro hop
    rcases mem_of_applyLoop h op hop with hnone | hmem
    · cases hnone
    · exact hmem
  · exact hadded op

theorem mem_appliedNets : net ∈ appliedNets installed ↔
      ∃ op ∈ installed, (∃ name, op.target = .interface name) ∧ op.destination = net := by
  rw [appliedNets, mem_filterMap]
  constructor
  · rintro ⟨op, hop, hnet⟩
    cases htarget : op.target with
    | gateway address =>
      rw [htarget] at hnet
      cases hnet
    | interface name =>
      rw [htarget] at hnet
      exact ⟨op, hop, ⟨name, htarget⟩, Option.some.inj hnet⟩
  · rintro ⟨op, hop, ⟨name, htarget⟩, rfl⟩
    exact ⟨op, hop, by rw [htarget]⟩

theorem target_bypassOps {op : RouteOp}
    (h : op ∈ bypassOps uplink remotes) : ∃ address, op.target = .gateway address := by
  unfold bypassOps at h
  split at h
  · cases h
  · obtain ⟨remote, -, hop⟩ := mem_filterMap.mp h
    split at hop
    · split at hop
      · cases hop
      · cases hop
        exact ⟨_, rfl⟩
    · cases hop

/-- The routes into the tunnel are those of the networks; the bypasses are not among them. -/
theorem mem_appliedNets_of_plan
    (h : AllInstalled (bypassOps uplink remotes ++ interfaceRoutes tun networks) installed) :
    net ∈ appliedNets installed ↔
      net ∈ (interfaceRoutes tun networks).map RouteOp.destination := by
  rw [mem_appliedNets, mem_map]
  constructor
  · rintro ⟨op, hop, ⟨name, htarget⟩, hnet⟩
    rcases mem_append.mp ((h op).mp hop) with hbypass | hroute
    · obtain ⟨address, hgateway⟩ := target_bypassOps hbypass
      rw [hgateway] at htarget
      cases htarget
    · exact ⟨op, hroute, hnet⟩
  · rintro ⟨op, hop, hnet⟩
    exact ⟨op, (h op).mpr (mem_append_right _ hop), ⟨tun, target_interfaceRoutes hop⟩, hnet⟩

end

/-! ### The warnings -/

section
variable {nets networks : List IpNet} {family : IpFamily} {installed : List RouteOp}

/-- A default route of the family. -/
def HasDefault (family : IpFamily) (nets : List IpNet) : Prop :=
  ∃ net ∈ nets, net.len = 0 ∧ net.family = family

/-- A prefix that fixes one bit at most. -/
def HasShort (family : IpFamily) (nets : List IpNet) : Prop :=
  ∃ net ∈ nets, net.len ≤ 1 ∧ net.family = family

/-- IPv4 has its default route if it is captured alone, and IPv6 has its own if both are captured. -/
structure DefaultsListed (nets : List IpNet) : Prop where
  ipv4 : CoversFamily .ipv4 nets → ¬CoversFamily .ipv6 nets → HasDefault .ipv4 nets
  ipv6 : HasDefault .ipv4 nets → CoversFamily .ipv6 nets → HasDefault .ipv6 nets

/-- No half stands alone and no family is captured in smaller pieces, as far as it matters. -/
structure HalvesListed (nets : List IpNet) : Prop where
  wholeIpv4 : HasShort .ipv4 nets → ¬HasShort .ipv6 nets → CoversFamily .ipv4 nets
  noPiecesIpv6 : HasShort .ipv4 nets → ¬HasShort .ipv6 nets → ¬CoversFamily .ipv6 nets
  noPiecesIpv4 : CoversFamily .ipv4 nets → ¬CoversFamily .ipv6 nets → HasShort .ipv4 nets
  wholeIpv6 : CoversFamily .ipv4 nets → ¬CoversFamily .ipv6 nets → ¬HasShort .ipv6 nets

theorem HasDefault.covers (h : HasDefault family nets) : CoversFamily family nets := by
  obtain ⟨net, hnet, hlen, rfl⟩ := h
  intro ip hip
  exact ⟨net, hnet, (containsAddr_of_len hlen).mpr hip⟩

theorem isIpv4_iff (net : IpNet) : net.isIpv4 = true ↔ net.family = .ipv4 := by
  cases net <;> simp [IpNet.isIpv4, IpNet.addr, IpAddr.isIpv4, IpNet.family]

theorem covers_iff (nets : List IpNet) : (covers nets false = true ↔ HasDefault .ipv4 nets) ∧
      (covers nets true = true ↔ HasDefault .ipv6 nets) := by
  simp only [covers, any_eq_true, Bool.and_eq_true, beq_iff_eq, HasDefault]
  constructor
  · simp only [Bool.not_eq_false', isIpv4_iff]
  · simp only [Bool.not_eq_true', IpNet.isIpv4_eq_false_iff]

theorem hasHalf_iff (nets : List IpNet) :
    (hasHalf nets true = true ↔ ∃ net ∈ nets, net.len = 1 ∧ net.family = .ipv4) ∧
      (hasHalf nets false = true ↔ ∃ net ∈ nets, net.len = 1 ∧ net.family = .ipv6) := by
  simp only [hasHalf, any_eq_true, Bool.and_eq_true, beq_iff_eq]
  constructor
  · simp only [isIpv4_iff]
  · simp only [IpNet.isIpv4_eq_false_iff]

/-- A warning about IPv6 is exact on the routes that are installed. -/
def ExactOn (warned : Bool) (installed : List RouteOp) : Prop :=
  warned = true ↔
    CoversFamily .ipv4 (appliedNets installed) ∧ ¬CoversFamily .ipv6 (appliedNets installed)

section
variable {uplink : Uplink} {remotes : List IpAddr} {tun : String} {installed : List RouteOp}
variable (h : AllInstalled (bypassOps uplink remotes ++ interfaceRoutes tun networks) installed)
include h

/-- The installed routes capture a family where the networks do. -/
theorem covers_appliedNets :
    CoversFamily family (appliedNets installed) ↔ CoversFamily family networks := by
  have hcovered : ∀ ip, Covered (appliedNets installed) ip ↔ Covered networks ip := by
    intro ip
    rw [← covered_interfaceRoutes tun networks ip]
    simp only [Covered, mem_appliedNets_of_plan h]
  simp only [CoversFamily, hcovered]

theorem half_appliedNets : (∃ net ∈ appliedNets installed, net.len = 1 ∧ net.family = family) ↔
      HasShort family networks := by
  rw [HasShort, ← @half_interfaceRoutes tun]
  simp only [mem_appliedNets_of_plan h]

end

/-- What WireGuard says is right exactly where defaults capture what is captured. -/
theorem wg_exact_iff {env : WgSurroundings} {request : WgRequest} {config : WgConfig}
    (hrole : request.role = .primary) (htable : config.tableOff = false)
    (h : AllInstalled (wgPlan env request config networks) installed) :
    ExactOn (wgIpv6NotCovered request config) installed ↔ DefaultsListed config.allAllowed := by
  have hplan : wgPlan env request config networks =
      bypassOps ⟨"", none⟩ [] ++ interfaceRoutes env.tun config.allAllowed := by
    rw [wgPlan, hrole, htable]
    rfl
  rw [hplan] at h
  have hwarned : wgIpv6NotCovered request config = true ↔
      HasDefault .ipv4 config.allAllowed ∧ ¬HasDefault .ipv6 config.allAllowed := by
    obtain ⟨hipv4, hipv6⟩ := covers_iff config.allAllowed
    rw [wgIpv6NotCovered, hrole, htable, Bool.and_eq_true, Bool.and_eq_true, hipv4,
      Bool.not_eq_true', ← Bool.not_eq_true, hipv6]
    simp
  rw [ExactOn, hwarned, covers_appliedNets h, covers_appliedNets h]
  constructor
  · intro hexact
    constructor
    · intro hipv4 hipv6
      exact (hexact.mpr ⟨hipv4, hipv6⟩).1
    · intro hdefault hipv6
      by_contra hnone
      exact (hexact.mp ⟨hdefault, hnone⟩).2 hipv6
  · intro hlisted
    constructor
    · rintro ⟨hdefault, hnone⟩
      exact ⟨hdefault.covers, fun hipv6 => hnone (hlisted.ipv6 hdefault hipv6)⟩
    · rintro ⟨hipv4, hipv6⟩
      exact ⟨hlisted.ipv4 hipv4 hipv6, fun hdefault => hipv6 hdefault.covers⟩

/-- What OpenVPN says is right exactly where short prefixes capture what is captured. -/
theorem ovpn_exact_iff {uplink : Uplink} {remotes : List IpAddr} {tun : String}
    (h : AllInstalled (bypassOps uplink remotes ++ interfaceRoutes tun networks) installed) :
    ExactOn (ovpnIpv6NotCovered .primary (appliedNets installed)) installed ↔
      HalvesListed networks := by
  have hwarned : ovpnIpv6NotCovered .primary (appliedNets installed) = true ↔
      HasShort .ipv4 networks ∧ ¬HasShort .ipv6 networks := by
    obtain ⟨hipv4, hipv6⟩ := hasHalf_iff (appliedNets installed)
    rw [ovpnIpv6NotCovered, Bool.and_eq_true, Bool.and_eq_true, hipv4, Bool.not_eq_true',
      ← Bool.not_eq_true, hipv6, half_appliedNets h, half_appliedNets h]
    simp
  rw [ExactOn, hwarned, covers_appliedNets h, covers_appliedNets h]
  constructor
  · intro hexact
    exact
      { wholeIpv4 := fun hshort hnone => (hexact.mp ⟨hshort, hnone⟩).1
        noPiecesIpv6 := fun hshort hnone => (hexact.mp ⟨hshort, hnone⟩).2
        noPiecesIpv4 := fun hipv4 hipv6 => (hexact.mpr ⟨hipv4, hipv6⟩).1
        wholeIpv6 := fun hipv4 hipv6 => (hexact.mpr ⟨hipv4, hipv6⟩).2 }
  · intro hlisted
    constructor
    · rintro ⟨hshort, hnone⟩
      exact ⟨hlisted.wholeIpv4 hshort hnone, hlisted.noPiecesIpv6 hshort hnone⟩
    · rintro ⟨hipv4, hipv6⟩
      exact ⟨hlisted.noPiecesIpv4 hipv4 hipv6, hlisted.wholeIpv6 hipv4 hipv6⟩

/-- Where every addition of a plan goes through, the warning about IPv6 is exact under these
conditions and no others. The routes of a plan cover the networks that they are for. -/
theorem ipv6_warning_exact_iff (w w' : Machine) (vs vs' : List (Verdict Fault))
    (installed : List RouteOp) :
    (∀ (env : WgSurroundings) (request : WgRequest) (config : WgConfig) (networks : List IpNet),
      request.role = .primary → config.tableOff = false →
      applyRoutes wgTunnel (wgPlan env request config networks) w vs = (.ok installed, w', vs') →
      (∀ op ∈ wgPlan env request config networks, op ∈ installed) →
      (ExactOn (wgIpv6NotCovered request config) installed ↔
        DefaultsListed config.allAllowed)) ∧
    (∀ (active : OpenVpnActive) (push : PushedNetworkConfig), active.role = .primary →
      applyRoutes ovpnTunnel (bypassOps active.uplink active.remotes ++
        interfaceRoutes active.tun (active.networks push)) w vs = (.ok installed, w', vs') →
      (∀ op ∈ bypassOps active.uplink active.remotes ++
        interfaceRoutes active.tun (active.networks push), op ∈ installed) →
      (ExactOn (ovpnIpv6NotCovered active.role (appliedNets installed)) installed ↔
        HalvesListed (active.networks push))) ∧
    (∀ (tun : String) (networks : List IpNet) (ip : IpAddr),
      Covered ((interfaceRoutes tun networks).map RouteOp.destination) ip ↔
        Covered networks ip) := by
  refine ⟨?_, ?_, covered_interfaceRoutes⟩
  · intro env request config networks hrole htable hrun hadded
    exact wg_exact_iff hrole htable (allInstalled_of_apply hrun hadded)
  · intro active push hrole hrun hadded
    rw [hrole]
    exact ovpn_exact_iff (allInstalled_of_apply hrun hadded)

/-! ### Two configurations -/

def halvesConfig : WgConfig :=
  { addresses := [.v4 0x0a080002 32], dnsServers := []
    peers := [⟨some "198.51.100.1:51820", [.v4 0 1, .v4 0x80000000 1]⟩], tableOff := false }

def defaultConfig : WgConfig :=
  { halvesConfig with peers := [⟨some "198.51.100.1:51820", [.v4 0 0]⟩] }

def primaryRequest (config : WgConfig) : WgRequest :=
  { uid := 501, profileId := "office", role := .primary, config := .ok config, routes := []
    dnsDomains := [] }

def uplinkSurroundings : WgSurroundings :=
  { uplink := some ⟨"en0", some 0xc0a80001⟩, service := true, resolves := fun _ => true
    tun := "utun4", helperPid := 77 }

/-- Nothing covers IPv6 where every prefix is of IPv4. -/
theorem not_coversFamily_ipv6 (h : ∀ net ∈ nets, net.family = .ipv4) :
    ¬CoversFamily .ipv6 nets := by
  intro hcovers
  obtain ⟨net, hnet, hcontains⟩ := hcovers (.v6 0) rfl
  have hfamily := IpNet.family_of_containsAddr hcontains
  rw [h net hnet] at hfamily
  cases hfamily

/-- A default route without IPv6 is warned about, rightly. -/
theorem default_warning_exact :
    ∃ w' vs' installed,
      applyRoutes wgTunnel (wgPlan uplinkSurroundings (primaryRequest defaultConfig) defaultConfig
        []) (.initial .empty []) [] = (.ok installed, w', vs') ∧
      ExactOn (wgIpv6NotCovered (primaryRequest defaultConfig) defaultConfig) installed := by
  refine ⟨_, _, _, rfl, ?_⟩
  refine ((ipv6_warning_exact_iff (.initial .empty []) _ [] _ _).1 uplinkSurroundings
    (primaryRequest defaultConfig) defaultConfig [] rfl rfl rfl (by decide)).mpr ?_
  exact
    { ipv4 := fun _ _ => ⟨.v4 0 0, List.mem_singleton_self _, rfl, rfl⟩
      ipv6 := fun _ hcovers => absurd hcovers (not_coversFamily_ipv6 (by decide)) }

/-- Two halves capture IPv4 as well, and nothing is said. -/
theorem halves_not_warned :
    ∃ w' vs' installed,
      applyRoutes wgTunnel (wgPlan uplinkSurroundings (primaryRequest halvesConfig) halvesConfig
        []) (.initial .empty []) [] = (.ok installed, w', vs') ∧
      installed = wgPlan uplinkSurroundings (primaryRequest halvesConfig) halvesConfig [] ∧
      ¬ExactOn (wgIpv6NotCovered (primaryRequest halvesConfig) halvesConfig) installed := by
  refine ⟨_, _, _, rfl, rfl, ?_⟩
  intro hexact
  have hcovers : CoversFamily .ipv4 [.v4 0 1, .v4 0x80000000 1] := by
    intro ip hip
    exact (covered_halves .ipv4).mpr hip
  have hwarned := hexact.mpr ⟨hcovers, not_coversFamily_ipv6 (by decide)⟩
  revert hwarned
  decide

end

end NetOrchestrator.Macos
