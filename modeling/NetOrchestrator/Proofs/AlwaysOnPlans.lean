import NetOrchestrator.Daemon.AlwaysOn
import NetOrchestrator.Lib.Checks

/-!
# `Proofs.AlwaysOnPlans`: one profile, two plans

An interactive connect and an always-on definition take the same parameters. The handler of
the connect looks at the role of the profile: it refuses a secondary profile that is not
well formed, and it scopes the DNS of a well-formed one to the profile's own domains.
`validateDefinition` and `applyDefinition` do not look at the role.

`definition_plan_agrees_iff` says when the two still agree. A secondary profile that passes
the handler's check is never a full tunnel (`Parsed.not_full`), so the role shows only in the
check itself and in the DNS domains.
-/

namespace NetOrchestrator.Daemon

open Net Lib.Checks

/-- What every plan of the parser satisfies. -/
structure Parsed (routes : List PolicyRoute) (plan : WireGuardPlan) : Prop where
  domains : plan.dnsServers = [] → plan.dnsDomains = []
  declared : routes ≠ [] → plan.routes = routes
  fullIpv4 : plan.fullIpv4 = takesAll plan.routes defaultIpv4 lowerIpv4 upperIpv4
  fullIpv6 : plan.fullIpv6 = takesAll plan.routes defaultIpv6 lowerIpv6 upperIpv6

section
variable {lib : WireGuardCrates} {source : String} {routes planned : List PolicyRoute}
  {plan : WireGuardPlan} {st : ConfigState} {setconf : String}

theorem servers_of_checkConfig (h : checkConfig st = .ok ()) (hservers : st.dnsServers = []) :
    st.dnsDomains = [] := by
  unfold checkConfig at h
  split at h
  · cases h
  split at h
  · cases h
  split at h
  · cases h
  split at h
  · cases h
  rename_i hdns
  simpa [hservers] using hdns

theorem planConfigRoutes_declared (hroutes : routes ≠ [])
    (h : planConfigRoutes lib st routes = .ok (planned, setconf)) : planned = routes := by
  have hempty : routes.isEmpty = false := by simpa using hroutes
  unfold planConfigRoutes at h
  rw [hempty, if_pos (by decide), bind_eq_ok] at h
  obtain ⟨⟨peers, expanded⟩, -, hpair⟩ := h
  cases hpair
  rfl

theorem finishPlan_eq (h : finishPlan lib st planned setconf = .ok plan) :
    plan = { setconf, addresses := st.addresses, dnsServers := st.dnsServers
             dnsDomains := st.dnsDomains, mtu := st.mtu, routes := planned
             fullIpv4 := takesAll planned defaultIpv4 lowerIpv4 upperIpv4
             fullIpv6 := takesAll planned defaultIpv6 lowerIpv6 upperIpv6
             warnings := st.warnings, interfaceName := none } := by
  unfold finishPlan at h
  dsimp only at h
  split at h
  · cases h
  split at h
  · cases h
  exact (Except.ok.inj h).symm

theorem parsed_of_ok (h : parseWireguardConfig lib source routes = .ok plan) :
    Parsed routes plan := by
  unfold parseWireguardConfig at h
  split at h
  · cases h
  split at h
  · cases h
  rw [bind_eq_ok] at h
  obtain ⟨st, -, h⟩ := h
  rw [bind_eq_ok] at h
  obtain ⟨_, hcheck, h⟩ := h
  rw [bind_eq_ok] at h
  obtain ⟨_, -, h⟩ := h
  rw [bind_eq_ok] at h
  obtain ⟨⟨planned, setconf⟩, hplanned, h⟩ := h
  rw [finishPlan_eq h]
  exact ⟨servers_of_checkConfig hcheck, fun hroutes => planConfigRoutes_declared hroutes hplanned,
    rfl, rfl⟩

theorem takesAll_eq_false {whole lower upper : IpNet} (h : ∀ r ∈ planned, 2 ≤ r.destination.len)
    (hwhole : whole.len = 0) (hlower : lower.len = 1) :
    takesAll planned whole lower upper = false := by
  -- A route to any of the three prefixes would be shorter than two bits.
  have hnone : ∀ net : IpNet, net.len ≤ 1 →
      (planned.any fun route => route.destination == net) = false := by
    intro net hnet
    rw [List.any_eq_false]
    intro r hr heq
    have hlen := h r hr
    rw [beq_iff_eq.mp heq] at hlen
    omega
  show ((planned.any fun route => route.destination == whole) ||
    (planned.any fun route => route.destination == lower) &&
      planned.any fun route => route.destination == upper) = false
  rw [hnone whole (by omega), hnone lower (by omega)]
  rfl

end

section
variable {routes : List PolicyRoute} {domains : List String} {plan : WireGuardPlan}

/-- The routes of a secondary profile that passes the check are there, and none of them is a
default route or one of its halves. -/
theorem routes_of_validateSecondary (h : validateSecondary .secondary routes domains = .ok ()) :
    routes ≠ [] ∧ ∀ r ∈ routes, 2 ≤ r.destination.len := by
  unfold validateSecondary at h
  rw [if_neg (by simp), bind_eq_ok] at h
  obtain ⟨networks, hnetworks, -⟩ := h
  unfold secondaryNetworks at hnetworks
  split at hnetworks
  · cases hnetworks
  rename_i hroutes
  split at hnetworks
  · cases hnetworks
  refine ⟨by simpa using hroutes, forall_of_foldlM ?_ hnetworks⟩
  intro seen route seen' hstep
  dsimp only at hstep
  split at hstep
  · cases hstep
  rename_i hlen
  have hsame : route.destination.trunc.len = route.destination.len := by
    cases route.destination <;> rfl
  omega

/-- A secondary profile is never a full tunnel. -/
theorem Parsed.not_full (h : Parsed routes plan)
    (hsecondary : validateSecondary .secondary routes domains = .ok ()) :
    plan.fullIpv4 = false ∧ plan.fullIpv6 = false := by
  obtain ⟨hroutes, hlen⟩ := routes_of_validateSecondary hsecondary
  rw [h.fullIpv4, h.fullIpv6, h.declared hroutes]
  exact ⟨takesAll_eq_false hlen rfl rfl, takesAll_eq_false hlen rfl rfl⟩

end

/-! ### Both paths -/

variable (lib : WireGuardCrates)

/-- An accepted definition passes this plan to `connect_wireguard`. -/
def AlwaysOnPlan (params : WireGuardConnectParams) (plan : WireGuardPlan) : Prop :=
  validateDefinition lib (.wireGuard params) = .ok () ∧ definitionPlan lib params = .ok plan

/-- The role of the profile does not show: it is primary, or it passes the check of a secondary
profile and the configuration has no DNS server or the profile's own domains. -/
def RoleIndifferent (params : WireGuardConnectParams) : Prop :=
  params.role = .primary ∨
    validateSecondary .secondary params.routes params.dnsDomains = .ok () ∧
      ∀ plan, parseWireguardConfig lib params.config params.routes = .ok plan →
        plan.dnsServers = [] ∨ plan.dnsDomains = params.dnsDomains

section
variable {lib : WireGuardCrates} {params : WireGuardConnectParams} {plan : WireGuardPlan}

theorem validateOwner_empty : validateOwner "" ≠ .ok () := by
  intro h
  cases h

/-- The prefix of the owner is ASCII, so the rest of the check is that of the profile id. -/
theorem validateOwner_of_wg {id : String} (hid : id ≠ "")
    (h : validateOwner ("wg:" ++ id) = .ok ()) : validateOwner id = .ok () := by
  unfold validateOwner at h ⊢
  split at h
  · cases h
  rename_i hlength
  split at h
  · cases h
  rename_i hcontrol
  rw [not_or] at hlength
  have hbytes : ("wg:" ++ id).utf8ByteSize = 3 + id.utf8ByteSize := by
    rw [String.utf8ByteSize_append]
    rfl
  rw [if_neg, if_neg]
  · intro hany
    apply hcontrol
    rw [String.toList_append, List.any_append, hany, Bool.or_true]
  · rw [not_or]
    refine ⟨hid, ?_⟩
    omega

theorem alwaysOnPlan_iff : AlwaysOnPlan lib params plan ↔
    validateOwner ("wg:" ++ params.profileId) = .ok () ∧
      ∃ parsed, parseWireguardConfig lib params.config params.routes = .ok parsed ∧
        plan = { parsed with interfaceName := params.interfaceName } := by
  unfold AlwaysOnPlan validateDefinition definitionPlan orUnsafe AlwaysOnDefinition.owner
  simp only [bind_eq_ok, mapError_eq_ok]
  constructor
  · rintro ⟨⟨u, howner, -⟩, parsed, hparsed, hplan⟩
    exact ⟨howner, parsed, hparsed, (Except.ok.inj hplan).symm⟩
  · rintro ⟨howner, parsed, hparsed, rfl⟩
    exact ⟨⟨(), howner, parsed, hparsed, rfl⟩, parsed, hparsed, rfl⟩

/-- The plan of the handler, from the plan of the parser. -/
theorem wireguardConnectPlan_of_parsed
    (hparsed : parseWireguardConfig lib params.config params.routes = .ok plan)
    (howner : validateOwner params.profileId = .ok ()) : wireguardConnectPlan lib params = (do
      (validateSecondary params.role params.routes params.dnsDomains).mapError Message.text
      if params.role = .secondary then
        if plan.fullIpv4 || plan.fullIpv6 then
          .error (.text "A secondary connection cannot take all traffic")
        else
          .ok { plan with
            interfaceName := params.interfaceName
            dnsDomains := if plan.dnsServers.isEmpty then [] else params.dnsDomains }
      else .ok { plan with interfaceName := params.interfaceName }) := by
  unfold wireguardConnectPlan
  rw [howner, hparsed]
  rfl

end

/-- An accepted definition carries parameters that the handler accepts with the same plan,
exactly when the profile has an id and its role does not show. -/
theorem definition_plan_agrees_iff (lib : WireGuardCrates) (params : WireGuardConnectParams) :
    (∀ plan, AlwaysOnPlan lib params plan → wireguardConnectPlan lib params = .ok plan) ↔
      (validateDefinition lib (.wireGuard params) = .ok () →
        params.profileId ≠ "" ∧ RoleIndifferent lib params) := by
  constructor
  · intro hagree hval
    have hval' := hval
    unfold validateDefinition orUnsafe AlwaysOnDefinition.owner at hval'
    simp only [bind_eq_ok, mapError_eq_ok] at hval'
    obtain ⟨_, howner, parsed, hparsed, -⟩ := hval'
    have hplan := hagree _ (alwaysOnPlan_iff.mpr ⟨howner, parsed, hparsed, rfl⟩)
    have hid : validateOwner params.profileId = .ok () := by
      unfold wireguardConnectPlan at hplan
      rw [bind_eq_ok] at hplan
      obtain ⟨_, hid, -⟩ := hplan
      exact hid
    refine ⟨fun hempty => validateOwner_empty (hempty ▸ hid), ?_⟩
    rw [wireguardConnectPlan_of_parsed hparsed hid, bind_eq_ok] at hplan
    obtain ⟨_, hcheck, hplan⟩ := hplan
    rw [mapError_eq_ok] at hcheck
    cases hrole : params.role with
    | primary => exact .inl hrole
    | secondary =>
      rw [hrole] at hcheck
      refine .inr ⟨hcheck, fun plan hparse => ?_⟩
      obtain rfl : plan = parsed := Except.ok.inj (hparse.symm.trans hparsed)
      rw [if_pos hrole] at hplan
      split at hplan
      · cases hplan
      -- The two plans can differ only in their domains.
      have hdomains := congrArg WireGuardPlan.dnsDomains (Except.ok.inj hplan)
      by_cases hservers : plan.dnsServers = []
      · exact .inl hservers
      · right
        have hempty : plan.dnsServers.isEmpty = false := by simpa using hservers
        simpa [hempty] using hdomains.symm
  · intro hcond plan hplan
    obtain ⟨hid, hrole⟩ := hcond hplan.1
    obtain ⟨howner, parsed, hparsed, rfl⟩ := alwaysOnPlan_iff.mp hplan
    rw [wireguardConnectPlan_of_parsed hparsed (validateOwner_of_wg hid howner)]
    rcases hrole with hprimary | ⟨hcheck, hdomains⟩
    · rw [hprimary]
      rfl
    cases hrole : params.role with
    | primary => rfl
    | secondary =>
      have hfacts := parsed_of_ok hparsed
      obtain ⟨hipv4, hipv6⟩ := hfacts.not_full hcheck
      have hfull : (parsed.fullIpv4 || parsed.fullIpv6) ≠ true := by
        rw [hipv4, hipv6]
        decide
      have hsame : (if parsed.dnsServers.isEmpty then [] else params.dnsDomains) =
          parsed.dnsDomains := by
        split
        · rename_i hempty
          exact (hfacts.domains (by simpa using hempty)).symm
        · rename_i hempty
          have hservers : parsed.dnsServers ≠ [] := by simpa using hempty
          exact ((hdomains parsed hparsed).resolve_left hservers).symm
      rw [hcheck, if_pos rfl, if_neg hfull, hsame]
      rfl

/-! ### A secondary profile that becomes a full tunnel -/

def officeKey : String := "AAAAAAAAAAAAAAAAAAAAAAAAAAAAAAAAAAAAAAAAAAA="

/-- The crates, on the values of this section: prefixes that are written in full, one key, and
lists of one prefix, which are aggregated already. -/
def officeCrates : WireGuardCrates where
  parseNet text :=
    match splitOnce '/' text.toList with
    | some (host, len) =>
      match parseIpAddr (String.ofList host), parseUnsigned 33 (String.ofList len) with
      | some (.v4 bits), some len => some (.v4 bits (Fin.ofNat 33 len))
      | _, _ => none
    | none => none
  showNet net := if net = defaultIpv4 then "0.0.0.0/0" else "10.2.0.0/16"
  aggregate := id
  decodeBase64 text := if text = officeKey then some (List.replicate 32 0) else none

/-- The usual configuration of a provider: all traffic goes through the tunnel. -/
def officeConfig : String :=
  "[Interface]\nPrivateKey = " ++ officeKey ++
    "\nAddress = 10.77.0.2/32\n[Peer]\nPublicKey = " ++ officeKey ++
    "\nEndpoint = vpn.example.org:51820\nAllowedIPs = 0.0.0.0/0\n"

def officeSecondary : WireGuardConnectParams :=
  { profileId := "office", config := officeConfig, routes := [], interfaceName := none,
    role := .secondary, dnsDomains := [] }

def officePlan : WireGuardPlan :=
  { setconf := "[Interface]\nPrivateKey = " ++ officeKey ++ "\n\n[Peer]\nPublicKey = " ++
      officeKey ++ "\nEndpoint = vpn.example.org:51820\nAllowedIPs = 0.0.0.0/0\n"
    addresses := [.v4 0x0a4d0002 32], dnsServers := [], dnsDomains := [], mtu := none
    routes := [⟨.v4 0 0, 5, none⟩], fullIpv4 := true, fullIpv6 := false, warnings := []
    interfaceName := none }

/-- The handler refuses the parameters. As an always-on definition they are accepted and start
a full tunnel. -/
theorem secondary_becomes_full :
    ∃ plan, AlwaysOnPlan officeCrates officeSecondary plan ∧ plan.fullIpv4 = true ∧
      wireguardConnectPlan officeCrates officeSecondary =
        .error (.text "Add at least one network to this secondary connection") := by
  have hparsed : parseWireguardConfig officeCrates officeSecondary.config officeSecondary.routes =
      .ok officePlan := by
    decide +kernel
  have halways : AlwaysOnPlan officeCrates officeSecondary officePlan :=
    alwaysOnPlan_iff.mpr ⟨by decide, officePlan, hparsed, rfl⟩
  refine ⟨officePlan, halways, rfl, ?_⟩
  rw [wireguardConnectPlan_of_parsed hparsed (by decide)]
  rfl

end NetOrchestrator.Daemon
