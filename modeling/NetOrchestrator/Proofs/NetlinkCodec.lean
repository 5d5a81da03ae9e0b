import NetOrchestrator.Daemon.Netlink
import NetOrchestrator.Proofs.GeoData

/-!
# `Proofs.NetlinkCodec`: messages and what is made of them

What the daemon reports of a route or a rule it can turn into a message again, and the message is
reported the same way. Codes go through their names: `routeKindValue_routeKindName` and its like
read every name back, also those of codes that have only a number.

`Reported` says what a route that was read off some message looks like, and that is all the round
trip needs. The one thing lost on the way is the address of a default route: the message leaves it
out, and the family of the header stands in for it.
-/

namespace NetOrchestrator.Daemon.Netlink

open Net Lib.Attributes List Option

/-! ### Numbers and names -/

variable {d : Nat} (n : Nat) (protocol : IpProtocol)

theorem isDigit_digitChar (h : d < 10) : (Nat.digitChar d).isDigit = true := by
  have hall : ∀ d < 10, (Nat.digitChar d).isDigit = true := by decide
  exact hall d h

theorem toNat_digitChar (h : d < 10) : (Nat.digitChar d).toNat - '0'.toNat = d := by
  have hall : ∀ d < 10, (Nat.digitChar d).toNat - '0'.toNat = d := by decide
  exact hall d h

/-- The value of the characters is the value of the digits. -/
theorem foldl_digitChar {ds : List Nat} (hlt : ∀ d ∈ ds, d < 10) (acc : Nat) :
    (ds.map Nat.digitChar).foldl (fun acc c => acc * 10 + (c.toNat - '0'.toNat)) acc =
      ds.foldl (fun acc d => acc * 10 + d) acc := by
  induction ds generalizing acc with
  | nil => rfl
  | cons d rest ih =>
    rw [map_cons, foldl_cons, foldl_cons, toNat_digitChar (hlt d (by simp))]
    exact ih (fun e he => hlt e (mem_cons_of_mem _ he)) _

theorem toList_toString : (toString n).toList = Nat.toDigits 10 n := String.toList_ofList

/-- A rendered number starts with a digit. -/
theorem head?_toString_ne {c : Char} (hc : c.isDigit = false) :
    (toString n).toList.head? ≠ some c := by
  obtain ⟨ds, hds, hlt, -, -⟩ := exists_digits (show 1 < 10 by omega) n
  rw [toList_toString, hds, head?_map]
  intro hhead
  obtain ⟨d, hd, rfl⟩ := map_eq_some_iff.mp hhead
  rw [isDigit_digitChar (hlt d (mem_of_head? hd))] at hc
  cases hc

/-- A rendered number is read back. -/
theorem parseUnsigned_toString {bound n : Nat} (h : n < bound) :
    parseUnsigned bound (toString n) = some n := by
  obtain ⟨ds, hds, hlt, hvalue, -⟩ := exists_digits (show 1 < 10 by omega) n
  have htext : (toString n).toList = ds.map Nat.digitChar := by rw [toList_toString, hds]
  have hdigits : (ds.map Nat.digitChar).all Char.isDigit = true := by
    rw [List.all_map, List.all_eq_true]
    exact fun d hd => isDigit_digitChar (hlt d hd)
  have hnonempty : (ds.map Nat.digitChar).isEmpty = false := by
    rw [← hds]
    exact isEmpty_eq_false_iff.mpr Nat.toDigits_ne_nil
  -- no digit is a plus sign, so the sign is not cut off
  have hplus : ∀ rest, ds.map Nat.digitChar ≠ '+' :: rest := by
    intro rest heq
    rw [heq] at hdigits
    simp at hdigits
  rw [parseUnsigned, htext]
  simp only [hnonempty, hdigits, foldl_digitChar hlt, hvalue, Bool.not_true, Bool.or_false,
    Bool.false_eq_true, if_false, if_pos h]

/-- What one reader takes and no text of a table passes is not in the table. -/
theorem lookup_eq_none {β γ : Type} {table : List (String × β)} {name : String}
    (read : String → Option γ) (htable : ∀ entry ∈ table, read entry.1 = none)
    (hname : (read name).isSome = true) : table.lookup name = none := by
  refine lookup_eq_none_iff.mpr ?_
  intro entry hentry
  rw [bne_iff_ne]
  intro heq
  rw [heq, htable entry hentry] at hname
  cases hname

theorem parseU8_toString (code : Fin 256) : parseU8 (toString code.val) = some code := by
  rw [parseU8, parseUnsigned_toString code.isLt, bind_some, dif_pos code.isLt]

/-- Every kind is read back from its name. -/
theorem routeKindValue_routeKindName (kind : RouteType) :
    routeKindValue (routeKindName kind) = kind := by
  cases kind with
  | other code =>
    have hlookup : routeKinds.lookup ("type " ++ toString code.val) = none :=
      lookup_eq_none (stripPrefix "type ") (by decide) (by simp)
    rw [routeKindName, routeKindValue, hlookup]
    simp only [stripPrefix_append, bind_some, parseU8_toString, map_some, getD_some]
  | _ => decide

theorem routeScopeValue_routeScopeName (scope : RouteScope) :
    routeScopeValue (routeScopeName scope) = scope := by
  cases scope with
  | other code =>
    have hlookup : routeScopes.lookup ("scope " ++ toString code.val) = none :=
      lookup_eq_none (stripPrefix "scope ") (by decide) (by simp)
    rw [routeScopeName, routeScopeValue, hlookup]
    simp only [stripPrefix_append, bind_some, parseU8_toString, map_some, getD_some]
  | _ => decide

theorem ruleActionValue_ruleActionName (action : RuleAction) :
    ruleActionValue (ruleActionName action) = action := by
  cases action with
  | other code =>
    have hlookup : ruleActions.lookup ("type " ++ toString code.val) = none :=
      lookup_eq_none (stripPrefix "type ") (by decide) (by simp)
    rw [ruleActionName, ruleActionValue, hlookup]
    simp only [stripPrefix_append, bind_some, parseU8_toString, map_some, getD_some]
  | _ => decide

/-- A rendered protocol number is read back. -/
theorem parseI32_renderInt : parseI32 (renderInt protocol.val) = some protocol := by
  obtain ⟨code, hlow, hhigh⟩ := protocol
  by_cases hneg : code < 0
  · have hparse : parseUnsigned (2 ^ 31 + 1) (toString code.natAbs) = some code.natAbs :=
      parseUnsigned_toString (by omega)
    have hvalue : -(code.natAbs : Int) = code := by omega
    have hplus : (toString code.natAbs).toList.head? ≠ some '+' :=
      head?_toString_ne code.natAbs (by decide)
    simp only [renderInt, if_pos hneg, parseI32, stripPrefix_append, if_neg hplus, hparse, map_some,
      bind_some, hvalue, dif_pos (And.intro hlow hhigh)]
  · have hparse : parseUnsigned (2 ^ 31) (toString code.natAbs) = some code.natAbs :=
      parseUnsigned_toString (by omega)
    have hvalue : Int.ofNat code.natAbs = code := by
      show (code.natAbs : Int) = code
      omega
    have hminus : stripPrefix "-" (toString code.natAbs) = none := by
      rw [stripPrefix, if_neg]
      intro hstart
      refine head?_toString_ne code.natAbs (c := '-') (by decide) ?_
      cases hchars : (toString code.natAbs).toList with
      | nil =>
        rw [hchars] at hstart
        cases hstart
      | cons c rest =>
        rw [hchars] at hstart
        simp at hstart
        rw [hstart]
        rfl
    simp only [renderInt, if_neg hneg, parseI32, hminus, hparse, map_some,
      bind_some, hvalue, dif_pos (And.intro hlow hhigh)]

theorem ipProtocolValue_ipProtocolName :
    ipProtocolValue (ipProtocolName protocol) = some protocol := by
  unfold ipProtocolName
  split
  · rename_i known hknown
    have hmem := mem_of_find?_eq_some hknown
    have hfound := find?_some hknown
    have hprotocol : known.2 = protocol := eq_of_beq hfound
    have hall : ∀ known ∈ ipProtocols, ipProtocolValue known.1 = some known.2 := by decide
    rw [hall known hmem, hprotocol]
  · have hlookup : ipProtocols.lookup (renderInt protocol.val) = none :=
      lookup_eq_none parseI32 (by decide) (by rw [parseI32_renderInt]; rfl)
    rw [ipProtocolValue, hlookup]
    exact parseI32_renderInt protocol

/-! ### Addresses -/

@[simp]
theorem ip_routeAddress (address : IpAddr) : (routeAddress address).ip = some address := by
  cases address <;> rfl

theorem ipFamily_addressFamily (family : IpFamily) :
    (addressFamily family).ipFamily = some family := by
  cases family <;> rfl

/-- A prefix that fixes nothing and has no host bits is the default one of its family. -/
theorem newNet_unspecified {net : IpNet} (hlen : net.len = 0) (htrunc : net.trunc = net) :
    (addressFamily net.family).unspecified.bind
      (fun address => (newNet address net.len).map IpNet.trunc) = some net := by
  cases net with
  | v4 address len =>
    obtain rfl : len = 0 := Fin.ext hlen
    rw [← htrunc]
    simp [IpNet.family, addressFamily, AddressFamily.unspecified, IpNet.len, newNet, IpNet.trunc,
      IpNet.mask]
  | v6 address len =>
    obtain rfl : len = 0 := Fin.ext hlen
    rw [← htrunc]
    simp [IpNet.family, addressFamily, AddressFamily.unspecified, IpNet.len, newNet, IpNet.trunc,
      IpNet.mask]

/-! ### Routes -/

section
variable {message : RouteMessage} {names : Nat → Option String} {route : SystemRoute}

/-- What a route looks like that was read off a message. -/
structure Reported (route : SystemRoute) : Prop where
  kind : ∃ kind, route.kind = routeKindName kind
  scope : ∃ scope, route.scope = routeScopeName scope
  destination : route.destination.trunc = route.destination
  managed : route.managed = (route.protocol == rtprotNetworkOrchestrator)

/-- The default route of the family that it is reported under. -/
def KeepsDestination (route : SystemRoute) : Prop :=
  route.destination.len = 0 → route.destination.family = route.family

/-- The route with the interface names of another dump. -/
def SystemRoute.named (names : Nat → Option String) (route : SystemRoute) : SystemRoute :=
  { route with
    interfaceName := route.interfaceIndex.bind names
    nexthops := route.nexthops.map fun hop =>
      { hop with interfaceName := names hop.interfaceIndex } }

theorem trunc_of_destination {net : IpNet} (h : message.destination = some net) :
    net.trunc = net := by
  obtain ⟨address, -, hnet⟩ := bind_eq_some_iff.mp h
  obtain ⟨built, -, rfl⟩ := map_eq_some_iff.mp hnet
  exact IpNet.trunc_trunc built

theorem reported_of_systemRoute (h : systemRoute message names = some route) : Reported route := by
  obtain ⟨family, -, hroute⟩ := bind_eq_some_iff.mp h
  obtain ⟨destination, hdestination, rfl⟩ := map_eq_some_iff.mp hroute
  exact
    { kind := ⟨_, rfl⟩
      scope := ⟨_, rfl⟩
      destination := trunc_of_destination hdestination
      managed := rfl }

theorem systemNexthop_routeNextHop (hop : SystemNexthop) : systemNexthop names (routeNextHop hop) =
      { hop with interfaceName := names hop.interfaceIndex } := by
  have hback : ∀ address, RouteAttribute.gateway? (.gateway (routeAddress address)) =
      some address := ip_routeAddress
  simp only [systemNexthop, routeNextHop, findSome?_present_self hback]

/-- The destination is written where it fixes a bit. -/
theorem destinationAttribute_systemRouteMessage (route : SystemRoute) :
    (systemRouteMessage route).attributes.findSome? RouteAttribute.destination? =
      if route.destination.len ≠ 0 then some route.destination.addr else none := by
  simp only [systemRouteMessage, findSome?_append, findSome?_present]
  by_cases hlen : route.destination.len = 0
  · simp [hlen, RouteAttribute.destination?]
  · simp [hlen, RouteAttribute.destination?]

/-- What the message of a default route leaves out is read as the default of its family. -/
theorem destination_of_default (hlen : route.destination.len = 0) :
    (systemRouteMessage route).destination =
      (addressFamily route.family).unspecified.bind fun address =>
        (newNet address 0).map IpNet.trunc := by
  simp only [RouteMessage.destination, destinationAttribute_systemRouteMessage]
  simp [systemRouteMessage, hlen]

theorem destination_systemRouteMessage (htrunc : route.destination.trunc = route.destination)
    (hkeeps : KeepsDestination route) :
    (systemRouteMessage route).destination = some route.destination := by
  by_cases hlen : route.destination.len = 0
  · have hdefault := newNet_unspecified hlen htrunc
    rw [hkeeps hlen, hlen] at hdefault
    rw [destination_of_default hlen, hdefault]
  · simp only [RouteMessage.destination, destinationAttribute_systemRouteMessage]
    simp [systemRouteMessage, hlen, htrunc]

theorem table_written {table rest : Nat} :
    (if table ≤ 255 then none else some table).getD (if table ≤ 255 then table % 256 else rest) =
      table := by
  split
  · show table % 256 = table
    omega
  · rfl

theorem nexthops_written (hops : List SystemNexthop) :
    ((if hops = [] then none else some (hops.map routeNextHop)).getD []).map (systemNexthop names) =
      hops.map fun hop => { hop with interfaceName := names hop.interfaceIndex } := by
  have hmap : (hops.map routeNextHop).map (systemNexthop names) =
      hops.map fun hop => { hop with interfaceName := names hop.interfaceIndex } := by
    rw [List.map_map]
    exact map_congr_left fun hop _ => systemNexthop_routeNextHop hop
  split
  · rename_i hnil
    rw [hnil]
    rfl
  · exact hmap

/-- A reported route is reported the same way again, with the names of the new dump. -/
theorem systemRoute_systemRouteMessage (h : Reported route) (hkeeps : KeepsDestination route) :
    systemRoute (systemRouteMessage route) names = some (route.named names) := by
  obtain ⟨⟨kind, hkind⟩, ⟨scope, hscope⟩, hdestination, hmanaged⟩ := h
  have hfamily : (systemRouteMessage route).header.addressFamily.ipFamily = some route.family :=
    ipFamily_addressFamily route.family
  rw [systemRoute, hfamily, destination_systemRouteMessage hdestination hkeeps]
  simp only [routeTable, systemRouteMessage, findSome?_append, findSome?_present]
  simp [RouteAttribute.table?, RouteAttribute.oif?, RouteAttribute.gateway?,
    RouteAttribute.prefSource?, RouteAttribute.priority?, RouteAttribute.multiPath?,
    table_written, nexthops_written, hkind, hscope, routeKindValue_routeKindName,
    routeScopeValue_routeScopeName, SystemRoute.named, hmanaged]

theorem family_of_default {net : IpNet} (hlen : route.destination.len = 0)
    (h : (systemRouteMessage route).destination = some net) : net.family = route.family := by
  rw [destination_of_default hlen] at h
  cases hfamily : route.family with
  | ipv4 =>
    rw [hfamily] at h
    rw [← Option.some.inj h]
    rfl
  | ipv6 =>
    rw [hfamily] at h
    rw [← Option.some.inj h]
    rfl

/-- The address of a default route is all that can get lost. -/
theorem systemRoute_systemRouteMessage_iff (h : Reported route) :
    systemRoute (systemRouteMessage route) names = some (route.named names) ↔
      KeepsDestination route := by
  constructor
  · intro hread hlen
    obtain ⟨family, -, hroute⟩ := bind_eq_some_iff.mp hread
    obtain ⟨destination, hdestination, heq⟩ := map_eq_some_iff.mp hroute
    have hsame : destination = route.destination := congrArg SystemRoute.destination heq
    rw [hsame] at hdestination
    exact family_of_default hlen hdestination
  · exact systemRoute_systemRouteMessage h

end

/-! ### Rules -/

section
variable {rule : SystemRule} {family : AddressFamily}

/-- What a rule looks like that was read off a message. -/
structure ReportedRule (rule : SystemRule) : Prop where
  action : ∃ action, rule.action = ruleActionName action
  ipProtocol : ∃ protocol : Option IpProtocol, rule.ipProtocol = protocol.map ipProtocolName
  src : ∀ net, rule.src = some net → net.trunc = net
  dst : ∀ net, rule.dst = some net → net.trunc = net
  suppressPrefixLength : ∀ length, rule.suppressPrefixLength = some length → length ≠ unlimited
  suppressIfGroup : ∀ group, rule.suppressIfGroup = some group → group ≠ unlimited
  managed : rule.managed = (rule.protocol == rtprotNetworkOrchestrator)

variable {length : Nat} {message : RuleMessage}

theorem trunc_of_ruleSelector {address : Option IpAddr} {net : IpNet}
    (h : ruleSelector family address length = some net) : net.trunc = net := by
  obtain ⟨found, -, hnet⟩ := bind_eq_some_iff.mp h
  obtain ⟨built, -, rfl⟩ := map_eq_some_iff.mp hnet
  exact IpNet.trunc_trunc built

/-- A suppressor that is reported is a limit. -/
theorem suppressPrefixLen_ne
    (h : message.attributes.findSome? RuleAttribute.suppressPrefixLen? = some length) :
    length ≠ unlimited := by
  obtain ⟨found, -, hfound⟩ := exists_of_findSome?_eq_some h
  cases found with
  | suppressPrefixLen value =>
    simp only [RuleAttribute.suppressPrefixLen?, ite_none_right_eq_some] at hfound
    rw [← Option.some.inj hfound.2]
    exact hfound.1
  | _ => cases hfound

theorem suppressIfGroup_ne {group : Nat}
    (h : message.attributes.findSome? RuleAttribute.suppressIfGroup? = some group) :
    group ≠ unlimited := by
  obtain ⟨found, -, hfound⟩ := exists_of_findSome?_eq_some h
  cases found with
  | suppressIfGroup value =>
    simp only [RuleAttribute.suppressIfGroup?, ite_none_right_eq_some] at hfound
    rw [← Option.some.inj hfound.2]
    exact hfound.1
  | _ => cases hfound

theorem reportedRule_systemRule (message : RuleMessage) : ReportedRule (systemRule message) where
  action := ⟨_, rfl⟩
  ipProtocol := ⟨_, rfl⟩
  src _ h := trunc_of_ruleSelector h
  dst _ h := trunc_of_ruleSelector h
  suppressPrefixLength _ h := suppressPrefixLen_ne h
  suppressIfGroup _ h := suppressIfGroup_ne h
  managed := rfl

/-- A selector goes through its address and its length. -/
theorem ruleSelector_written {selector : Option IpNet}
    (h : ∀ net, selector = some net → net.trunc = net) :
    ruleSelector family (selector.bind fun net => some net.addr)
      ((selector.map IpNet.len).getD 0) = selector := by
  cases selector with
  | none => rfl
  | some net => simp [ruleSelector, h net rfl]

/-- The suppressors are always written, no limit as the largest number, and are read back. -/
theorem suppressors_written {length group : Option Nat}
    (hlength : ∀ value, length = some value → value ≠ unlimited)
    (hgroup : ∀ value, group = some value → value ≠ unlimited) :
    [RuleAttribute.suppressPrefixLen (length.getD unlimited),
      .suppressIfGroup (group.getD unlimited)].findSome? RuleAttribute.suppressPrefixLen? = length ∧
    [RuleAttribute.suppressPrefixLen (length.getD unlimited),
      .suppressIfGroup (group.getD unlimited)].findSome? RuleAttribute.suppressIfGroup? =
        group := by
  constructor
  · cases length with
    | none => simp [RuleAttribute.suppressPrefixLen?]
    | some value => simp [RuleAttribute.suppressPrefixLen?, hlength value rfl]
  · cases group with
    | none => simp [RuleAttribute.suppressIfGroup?]
    | some value => simp [findSome?_cons, RuleAttribute.suppressIfGroup?, hgroup value rfl]

/-- A value that is left out where it is zero. -/
theorem nonzero_written {value : Nat} :
    (if value = 0 then none else some value).getD 0 = value := by
  split
  · rename_i hzero
    exact hzero.symm
  · rfl

theorem ipProtocolAttribute_systemRuleMessage (rule : SystemRule) :
    (systemRuleMessage rule).attributes.findSome? RuleAttribute.ipProtocol? =
      rule.ipProtocol.bind ipProtocolValue := by
  simp only [systemRuleMessage, findSome?_append, findSome?_present]
  simp [findSome?_cons, RuleAttribute.ipProtocol?]

/-- A protocol goes through its name. -/
theorem ipProtocol_written {protocol : Option IpProtocol}
    (h : rule.ipProtocol = protocol.map ipProtocolName) :
    ((systemRuleMessage rule).attributes.findSome? RuleAttribute.ipProtocol?).map
      ipProtocolName = rule.ipProtocol := by
  rw [ipProtocolAttribute_systemRuleMessage, h]
  cases protocol with
  | none => rfl
  | some protocol => simp [ipProtocolValue_ipProtocolName]

theorem family_written (rule : SystemRule) :
    (if (systemRuleMessage rule).header.family = .inet6 then IpFamily.ipv6 else .ipv4) =
      rule.family := by
  show (if addressFamily rule.family = .inet6 then IpFamily.ipv6 else .ipv4) = rule.family
  cases rule.family <;> rfl

/-- A reported rule is reported the same way again. -/
theorem systemRule_systemRuleMessage (h : ReportedRule rule) :
    systemRule (systemRuleMessage rule) = rule := by
  obtain ⟨⟨action, haction⟩, ⟨protocol, hprotocol⟩, hsrc, hdst, hlength, hgroup, hmanaged⟩ := h
  obtain ⟨hlimit, hlimitGroup⟩ := suppressors_written hlength hgroup
  have hkind : ruleActionName (ruleActionValue rule.action) = rule.action := by
    rw [haction, ruleActionValue_ruleActionName]
  simp only [systemRule, family_written, ipProtocol_written hprotocol]
  simp only [systemRuleMessage, findSome?_append, findSome?_present, hlimit,
    hlimitGroup, findSome?_cons, findSome?_nil]
  simp [RuleAttribute.table?, RuleAttribute.oifname?, RuleAttribute.iifname?,
    RuleAttribute.goto?, RuleAttribute.priority?, RuleAttribute.fwMark?, RuleAttribute.fwMask?,
    RuleAttribute.tunId?, RuleAttribute.suppressIfGroup?, RuleAttribute.suppressPrefixLen?,
    RuleAttribute.uidRange?, RuleAttribute.protocol?, RuleAttribute.sourcePortRange?,
    RuleAttribute.destinationPortRange?, RuleAttribute.source?, RuleAttribute.destination?,
    nonzero_written, table_written, ruleSelector_written hsrc,
    ruleSelector_written hdst, hkind, ← hmanaged]

end

/-! ### The daemon's own routes -/

section
variable {route : AppliedRoute}
variable (op : RouteOp)

/-- A request names the destination by its address and its length. -/
theorem destination_routeRequest (htrunc : route.destination.trunc = route.destination) :
    (routeRequest route op).destination = some route.destination := by
  simp only [RouteMessage.destination, routeRequest, findSome?_append]
  simp [RouteAttribute.destination?, htrunc]

/-- The attribute carries the table that the header is too narrow for. -/
theorem tableAttribute_routeRequest :
    (routeRequest route op).attributes.findSome? RouteAttribute.table? =
      route.table.filter fun table => 255 < table := by
  simp only [routeRequest, findSome?_append, findSome?_present]
  simp [findSome?_cons, RouteAttribute.table?]

/-- Either way the table is found again, but for the main one, which stands for none. -/
theorem table_routeRequest (htable : route.table ≠ some rtTableMain) :
    ((route.table.filter fun table => 255 < table).or
      (if (routeRequest route op).header.table ≠ rtTableMain then
        some (routeRequest route op).header.table else none)).filter
        (fun table => table ≠ rtTableMain) = route.table := by
  obtain ⟨destination, interfaceIndex, metric, gateway, table⟩ := route
  cases table with
  | none => simp [routeRequest]
  | some table =>
    have hmain : table ≠ rtTableMain := fun heq => htable (congrArg some heq)
    by_cases hsmall : table ≤ 255
    · have hmod : table % 256 = table := by omega
      have hfits : ¬255 < table := by omega
      simp [routeRequest, hsmall, hmod, hfits, hmain, Option.filter]
    · have hlarge : 255 < table := by omega
      simp [hlarge, hmain, Option.filter]

/-- A route that the daemon adds is recognised as it was asked for. -/
theorem ownedRouteSnapshot_routeRequest (htrunc : route.destination.trunc = route.destination)
    (htable : route.table ≠ some rtTableMain) :
    ownedRouteSnapshot (routeRequest route op) = some route := by
  have howned : ¬((routeRequest route op).header.protocol ≠ rtprotNetworkOrchestrator ∨
      (routeRequest route op).header.kind ≠ .unicast) := by
    simp [routeRequest]
  rw [ownedRouteSnapshot, if_neg howned, destination_routeRequest op htrunc,
    tableAttribute_routeRequest op, table_routeRequest op htable]
  simp only [routeRequest, findSome?_append, findSome?_present]
  simp [findSome?_cons, RouteAttribute.oif?, RouteAttribute.priority?, RouteAttribute.gateway?]

end

/-! ### All three -/

/-- What is reported or asked for comes back from its message. A reported route comes back with
the interface names of the dump, and exactly where, if it is a default route, it is one of the
family it is reported under. -/
theorem codecs_round_trip :
    (∀ message names route, systemRoute message names = some route → ∀ names',
      systemRoute (systemRouteMessage route) names' = some (route.named names') ↔
        KeepsDestination route) ∧
    (∀ message, systemRule (systemRuleMessage (systemRule message)) = systemRule message) ∧
    (∀ route : AppliedRoute, route.destination.trunc = route.destination →
      route.table ≠ some rtTableMain →
      ownedRouteSnapshot (routeRequest route .add) = some route) := by
  refine ⟨?_, ?_, ?_⟩
  · intro message names route h names'
    exact systemRoute_systemRouteMessage_iff (reported_of_systemRoute h)
  · intro message
    exact systemRule_systemRuleMessage (reportedRule_systemRule message)
  · intro route htrunc htable
    exact ownedRouteSnapshot_routeRequest .add htrunc htable

/-- A default route without an address, in a table that the header is too narrow for. -/
def defaultMessage : RouteMessage where
  header := { addressFamily := .inet6, scope := .other 7, kind := .other 30 }
  attributes := [.oif 2, .table 51820]

theorem codecs_round_trip_default :
    ∃ route, systemRoute defaultMessage (fun _ => none) = some route ∧
      systemRoute (systemRouteMessage route) (fun _ => some "tun0") =
        some (route.named fun _ => some "tun0") ∧
      ownedRouteSnapshot (routeRequest
        { destination := .v4 0x0a000000 8, interfaceIndex := 2, metric := 5, gateway := none,
          table := some 51820 } .add) =
        some { destination := .v4 0x0a000000 8, interfaceIndex := 2, metric := 5, gateway := none,
               table := some 51820 } := by
  refine ⟨_, rfl, ?_, ?_⟩
  · exact (codecs_round_trip.1 defaultMessage _ _ rfl _).mpr fun _ => rfl
  · exact codecs_round_trip.2.2 _ (by decide) (by decide)

/-- The default route of the other family: what is reported as `::/0` is read as `0.0.0.0/0`. -/
def mixedMessage : RouteMessage where
  header := { addressFamily := .inet, kind := .unicast }
  attributes := [.destination (.inet6 0), .oif 2]

theorem mixed_default_changes :
    ∃ route, systemRoute mixedMessage (fun _ => none) = some route ∧
      ∀ names, systemRoute (systemRouteMessage route) names ≠ some (route.named names) := by
  refine ⟨_, rfl, ?_⟩
  intro names h
  obtain ⟨family, -, hroute⟩ := Option.bind_eq_some_iff.mp h
  obtain ⟨destination, hdestination, heq⟩ := Option.map_eq_some_iff.mp hroute
  have hread : destination = .v4 0 0 := (Option.some.inj hdestination).symm
  have hsame : destination = .v6 0 0 := congrArg SystemRoute.destination heq
  rw [hread] at hsame
  cases hsame

end NetOrchestrator.Daemon.Netlink
