import NetOrchestrator.Lib.Schedules
import NetOrchestrator.Net.Cover
import NetOrchestrator.Proofs.GuardRoutes

/-!
# `Proofs.TailscaleConverges`: when one call of the Tailscale guard is enough

After a call that nothing disturbs, what the call wants is in the table or somebody else has its
destination, nothing else of the guard is there, and the next call takes its three steps without
a route command (`GuardConverged`). That is so exactly from the machines of `Converging`: the guard
goes by its memory where a route of it has been removed, it tries again at each call to add a route
whose destination is taken, and it deletes by destination alone, which may be a route of
Tailscale's.
-/

namespace NetOrchestrator.Macos

open Net Lib Lib.Call List Verdict Table Nat

/-! ### Lookups -/

section
variable {ω : Type} {table table' : RouteTable ω} {probe : IpAddr} {row : RouteRow ω}

/-- A row that contains the address, and no row that does is longer. -/
theorem rowFor_eq_some :
    rowFor table probe = some row ↔ row ∈ table ∧ row.net.containsAddr probe = true ∧
      ∀ other ∈ table, other.net.containsAddr probe = true → other.net.len ≤ row.net.len := by
  have hlongest : ∀ {row}, rowFor table probe = some row →
      (row ∈ table ∧ row.net.containsAddr probe = true) ∧
        ∀ other ∈ table, other.net.containsAddr probe = true → other.net.len ≤ row.net.len := by
    intro row h
    obtain ⟨before, after, hsplit, hbefore, hafter⟩ := lastMax_eq_some.mp h
    have hmem : row ∈ table.rows.filter fun row => row.net.containsAddr probe := by
      rw [hsplit]
      simp
    refine ⟨mem_filter.mp hmem, fun other hother hcontains => ?_⟩
    have hin : other ∈ table.rows.filter fun row => row.net.containsAddr probe :=
      mem_filter.mpr ⟨hother, hcontains⟩
    rw [hsplit, mem_append, mem_cons] at hin
    rcases hin with hfront | rfl | hback
    · exact hbefore other hfront
    · exact le_refl _
    · exact le_of_lt (hafter other hback)
  constructor
  · intro h
    obtain ⟨⟨hmem, hcontains⟩, hle⟩ := hlongest h
    exact ⟨hmem, hcontains, hle⟩
  · rintro ⟨hmem, hcontains, hle⟩
    cases hfound : rowFor table probe with
    | none =>
      have hnone := lastMax_eq_none.mp hfound
      exact absurd (mem_filter.mpr ⟨hmem, hcontains⟩) (hnone ▸ not_mem_nil)
    | some found =>
      obtain ⟨⟨hmem', hcontains'⟩, hle'⟩ := hlongest hfound
      have hlen := le_antisymm (hle found hmem' hcontains') (hle' row hmem hcontains)
      have hnet := IpNet.eq_of_containsAddr (IpNet.trunc_trunc _) (IpNet.trunc_trunc _) hlen
        hcontains' hcontains
      rw [eq_of_key_eq hmem' hmem hnet]

/-- A lookup depends on the rows that contain the address, and on nothing else. -/
theorem rowFor_congr
    (h : ∀ row : RouteRow ω, row.net.containsAddr probe = true → (row ∈ table ↔ row ∈ table')) :
    rowFor table probe = rowFor table' probe := by
  apply Option.ext
  intro row
  rw [rowFor_eq_some, rowFor_eq_some]
  constructor
  · rintro ⟨hmem, hcontains, hle⟩
    exact ⟨(h row hcontains).mp hmem, hcontains, fun other hother hin =>
      hle other ((h other hin).mpr hother) hin⟩
  · rintro ⟨hmem, hcontains, hle⟩
    exact ⟨(h row hcontains).mpr hmem, hcontains, fun other hother hin =>
      hle other ((h other hin).mp hother) hin⟩

theorem winning_congr {call : ProtectCall} {table table' : RouteTable Component} {net : IpNet}
    (h : ∀ row : RouteRow Component, row.net.containsAddr (probeOf net) = true →
      (row ∈ table ↔ row ∈ table')) : call.winning table net = call.winning table' net := by
  unfold ProtectCall.winning winningIn routeLookup
  rw [rowFor_congr h]

/-- Only the pin of a prefix is a route of the guard to the address behind it. -/
theorem GuardRoute.net_of_contains {op : RouteOp} {net : IpNet} (h : GuardRoute op)
    (hnet : net = tailnetV4 ∨ net = tailnetV6)
    (hcontains : op.net.containsAddr (probeOf net) = true) : op.net = net := by
  cases h with
  | pin name hpin =>
    show IpNet.trunc _ = _
    rw [trunc_tailnet hpin]
    change (IpNet.trunc _).containsAddr _ = true at hcontains
    rw [trunc_tailnet hpin] at hcontains
    rcases hpin with rfl | rfl
    · rcases hnet with rfl | rfl
      · rfl
      · cases hcontains
    · rcases hnet with rfl | rfl
      · cases hcontains
      · rfl
  | @bypass gateway host hhost =>
    rw [net_bypassOp] at hcontains
    rcases hnet with rfl | rfl
    · -- The address is one of the tailnet, which no bypass is for.
      have hbits : IpAddr.v4 host = .v4 0x64400001 := IpNet.eq_of_containsAddr_toNet hcontains
      rw [IpAddr.v4.inj hbits] at hhost
      exact absurd hhost (by decide)
    · cases hcontains

end

/-! ### The route commands of a call -/

section
variable {who : Component} {call : ProtectCall}

theorem takes_deleteEach (who : Component) (ops : List RouteOp) (w : Machine) :
    ∃ w', Takes ops.length (forEach (deleteRoute who) ops) w () w' := by
  induction ops generalizing w with
  | nil => exact ⟨w, .pure ()⟩
  | cons op rest ih =>
    obtain ⟨w', hrest⟩ := ih (w.routeDeleted who op)
    have hone : Takes 1 (deleteRoute who op) w () (w.routeDeleted who op) := fun _ => rfl
    refine ⟨w', ?_⟩
    rw [length_cons, add_comm]
    exact hone.bind hrest

/-- An addition that the table refuses is a command, too. -/
theorem takes_applyLoop {ops : List RouteOp} (installed : List RouteOp)
    (hoptional : ∀ op ∈ ops, op.optional) (w : Machine) :
    ∃ got w', Takes ops.length (applyLoop who installed ops) w got w' := by
  induction ops generalizing installed w with
  | nil => exact ⟨installed, w, .pure installed⟩
  | cons op rest ih =>
    have hrest : ∀ o ∈ rest, o.optional := fun o ho => hoptional o (mem_cons_of_mem _ ho)
    rw [length_cons, add_comm]
    by_cases htaken : w.table.has op.net = true
    · obtain ⟨got, w', hgo⟩ := ih installed hrest w
      have hone : Takes 1 (attempt (addRoute who op)) w (.error (.io .other)) w := by
        intro later
        rw [attempt_apply, addRoute, command, replicate_one, singleton_append, step_of_proceed rfl]
        simp [htaken]
      refine ⟨got, w', hone.bind ?_⟩
      show Takes _ (if _ then _ else _) _ _ _
      rw [if_pos (hoptional op mem_cons_self)]
      exact hgo
    · obtain ⟨got, w', hgo⟩ := ih (installed ++ [op]) hrest (w.routeAdded who op)
      have hone : Takes 1 (attempt (addRoute who op)) w (.ok ()) (w.routeAdded who op) :=
        (Takes.step (by simp [htaken])).attempt
      exact ⟨got, w', hone.bind hgo⟩

theorem takes_guardSave (interface : String) (installed : List RouteOp) (w : Machine) :
    ∃ w', Takes 1 (guardSave interface installed) w () w' := by
  unfold guardSave orElse
  split
  · exact ⟨_, fun _ => rfl⟩
  · exact ⟨_, fun _ => rfl⟩

theorem takes_readUplink (call : ProtectCall) (w : Machine) :
    Takes 1 (readUplink call.uplink) w call.usableUplink w := by
  intro later
  unfold ProtectCall.usableUplink
  cases call.uplink with
  | none => rfl
  | some uplink =>
    have hdetect : detectUplink (some uplink) "" w (List.replicate 1 .proceed ++ later) =
        if uplink.interface.startsWith "utun" = true then
          (.err (.conflict "another VPN already owns the default route"), w, later)
        else (.ok uplink, w, later) := by
      show (if _ then _ else _ : HelperProg Uplink) w later = _
      split
      · rfl
      · rfl
    rw [readUplink, bind_apply, attempt_apply, hdetect]
    by_cases htunnel : uplink.interface.startsWith "utun" = true
    · rw [if_pos htunnel, Option.filter, if_neg (by rw [htunnel]; simp)]
      rfl
    · rw [if_neg htunnel]
      rw [Bool.not_eq_true] at htunnel
      rw [Option.filter, if_pos (by rw [htunnel]; rfl)]
      rfl

theorem takes_validateProtect (hvalid : call.Valid) (w : Machine) :
    Takes 0 (validateProtect call.params) w () w := by
  have hfine : (call.params.selfIps.isEmpty || maxSelfIps < call.params.selfIps.length ||
      !call.params.selfIps.all (fun ip => tailnetV4.containsAddr ip || tailnetV6.containsAddr ip)) =
      false := by
    have hips := hvalid.selfIps
    have hfew := hvalid.fewIps
    have hown := hvalid.ownIps
    simpa [not_lt] using ⟨⟨hips, hfew⟩, hown⟩
  unfold validateProtect
  rw [hfine, if_neg (by simp), if_neg (not_lt.mpr hvalid.fewEndpoints)]
  exact .pure ()

/-- A valid call looks at the interfaces, at the uplink and at its journal. Every other step of it
is one of the route commands. -/
theorem takes_protect (hvalid : call.Valid) (w : Machine) :
    ∃ w', Takes (3 + (call.commands w).length) call.protect w () w' := by
  obtain ⟨w₁, hremoved⟩ := takes_deleteEach .tailscale
    (staleRoutes w.guarded (call.desired w)).reverse w
  have hoptional : ∀ op ∈ freshRoutes w.guarded (call.desired w), op.optional :=
    fun op hop => (guardRoute_of_desired (mem_filter.mp hop).1).optional
  obtain ⟨got, w₂, happlied⟩ := takes_applyLoop [] hoptional w₁
  let now := keptRoutes w.guarded (call.desired w) ++ got
  obtain ⟨w₃, hsaved⟩ := takes_guardSave (call.interface.getD "") now { w₂ with guarded := now }
  have happly : Takes _ (guardApply (call.interface.getD "") (call.desired w)) w () w₃ :=
    (Takes.gets _).bind (hremoved.bind (happlied.attempt.bind ((Takes.modify _).bind hsaved)))
  have hlisted : Takes _ (orElse (.unavailable "The network interfaces could not be read")
      (reading fun _ => .ok ())) w () w :=
    ((Takes.step rfl).attempt).bind (.pure ())
  have hguard : Takes _ (guardProtect (call.surroundings w) call.params) w () w₃ :=
    (takes_validateProtect hvalid w).bind
      (hlisted.bind (.bind (.gets Machine.guarded) ((takes_readUplink call w).bind happly)))
  have hcall : Takes _ call.protect w () w₃ := .bind (.gets call.surroundings) hguard
  refine ⟨w₃, ?_⟩
  have hcount : 3 + (call.commands w).length =
      0 + (0 + (1 + 0 + (0 + (1 + (0 + ((staleRoutes w.guarded (call.desired w)).reverse.length +
        ((freshRoutes w.guarded (call.desired w)).length + (0 + 1)))))))) := by
    simp only [ProtectCall.commands, length_append, length_map, length_reverse]
    omega
  rw [hcount]
  exact hcall

/-- A valid call that has no route command is one that takes three steps. -/
theorem takes_three_iff (hvalid : call.Valid) {w : Machine} :
    (∃ w', Takes 3 call.protect w () w') ↔ call.commands w = [] := by
  obtain ⟨w₁, htakes⟩ := takes_protect hvalid w
  constructor
  · rintro ⟨w', hthree⟩
    have hcount := htakes.steps_eq hthree
    exact length_eq_zero_iff.mp (by omega)
  · intro hnone
    rw [hnone] at htakes
    exact ⟨w₁, htakes⟩

end

/-! ### What a call achieves, and from where -/

/-- After a call: what is wanted is there or somebody else has its destination, of the guard's there
is nothing else, and the same call again takes three steps, none of which is a route command. -/
structure GuardConverged (call : ProtectCall) (w w' : Machine) : Prop where
  placed : ∀ op ∈ call.desired w, ∃ row ∈ w'.table, row.net = op.net ∧
    (op.target.matches row.entry = true ∨ row.owner ≠ some .tailscale)
  swept : ∀ row ∈ w'.table, row.owner = some .tailscale →
    ∃ op ∈ call.desired w, op.net = row.net ∧ op.target.matches row.entry = true
  silent : ∃ w'', Takes 3 call.protect w' () w''

/-- A route of the guard at the destination is on record. -/
def Machine.holds (w : Machine) (net : IpNet) : Prop := ∃ op ∈ w.guarded, op.net = net

/-- The machines from which one call is enough. -/
structure Converging (call : ProtectCall) (w : Machine) : Prop where
  /-- No route that is still wanted was removed without replacement. -/
  kept : ∀ op ∈ call.wanted, op ∈ w.guarded → w.table.has op.net = true
  /-- A destination that is needed is free, or an old route of the guard has it. -/
  freeBypass : ∀ op ∈ call.bypasses, op ∉ w.guarded → w.table.has op.net = true → w.holds op.net
  freePin : ∀ op ∈ call.pins, op ∉ w.guarded → call.winning w.table op.destination = false →
    w.table.has op.net = true → w.holds op.net
  /-- Tailscale does not win by the row that goes with the pin of an earlier interface. -/
  spared : ∀ op ∈ call.pins, op ∉ w.guarded → call.winning w.table op.destination = true →
    w.holds op.net → call.winning (w.table.erase op.net) op.destination = true
  /-- No earlier deletion failed: the memory has the guard's rows. -/
  owned : ∀ row ∈ w.table, row.owner = some .tailscale → w.holds row.net

section
variable {call : ProtectCall} {w w' : Machine} {gone added : List RouteOp} {op : RouteOp}

/-- A pin is desired where it is on record or something else wins. -/
theorem pin_desired_iff (hrecorded : Recorded w) (hop : op ∈ call.pins) :
    op ∈ call.desired w ↔ op ∈ w.guarded ∨ call.winning w.table op.destination = false := by
  rw [mem_desired, any_sameRoute hrecorded.routes (guardRoute_of_pin hop)]
  constructor
  · rintro (⟨-, hneeded⟩ | hbypass)
    · exact hneeded
    · obtain ⟨interface, -, net, hnet, rfl⟩ := mem_pins.mp hop
      exact absurd rfl (trunc_ne_net_bypass hnet hbypass)
  · exact fun hneeded => .inl ⟨hop, hneeded⟩

theorem bypass_desired (h : op ∈ call.bypasses) : op ∈ call.desired w := mem_desired.mpr (.inr h)

/-- The next call has nothing to do where all that it wants is on record. -/
theorem silent_iff (hrecorded : Recorded w') (hdesired : ∀ op ∈ w'.guarded, op ∈ call.wanted) :
    call.commands w' = [] ↔ (∀ op ∈ call.bypasses, op ∈ w'.guarded) ∧
      ∀ op ∈ call.pins, call.winning w'.table op.destination = false → op ∈ w'.guarded := by
  have hroutes : ∀ op ∈ call.desired w', GuardRoute op := fun _ => guardRoute_of_desired
  -- Nothing on record is stale.
  have hstale : staleRoutes w'.guarded (call.desired w') = [] := by
    rw [eq_nil_iff_forall_not_mem]
    intro op hop
    obtain ⟨hmem, hnot⟩ := (mem_staleRoutes hrecorded.routes hroutes).mp hop
    rcases mem_append.mp (hdesired op hmem) with hpin | hbypass
    · exact hnot ((pin_desired_iff hrecorded hpin).mpr (.inl hmem))
    · exact hnot (bypass_desired hbypass)
  have hfresh : freshRoutes w'.guarded (call.desired w') = [] ↔
      ∀ op ∈ call.desired w', op ∈ w'.guarded := by
    rw [eq_nil_iff_forall_not_mem]
    constructor
    · intro hnone op hop
      by_contra hnot
      exact hnone op ((mem_freshRoutes hrecorded.routes hroutes).mpr ⟨hop, hnot⟩)
    · intro hall op hop
      obtain ⟨hmem, hnot⟩ := (mem_freshRoutes hrecorded.routes hroutes).mp hop
      exact hnot (hall op hmem)
  have hcommands : call.commands w' = [] ↔ freshRoutes w'.guarded (call.desired w') = [] := by
    simp [ProtectCall.commands, hstale]
  rw [hcommands, hfresh]
  constructor
  · intro hall
    exact ⟨fun op hop => hall op (bypass_desired hop), fun op hop hlost =>
      hall op ((pin_desired_iff hrecorded hop).mpr (.inr hlost))⟩
  · rintro ⟨hbypasses, hpins⟩ op hop
    rcases mem_append.mp (wanted_of_desired hop) with hpin | hbypass
    · rcases (pin_desired_iff hrecorded hpin).mp hop with hmem | hlost
      · exact hmem
      · exact hpins op hpin hlost
    · exact hbypasses op hbypass

section
variable (hrecorded : Recorded w) (hrec : Reconciled (call.desired w) w w' gone added)
  (hfull : Reconciled.Full (call.desired w) w gone added)
include hrecorded hrec hfull

theorem mem_gone : op ∈ gone ↔ op ∈ w.guarded ∧ op ∉ call.desired w := by
  have hroutes : ∀ op ∈ call.desired w, GuardRoute op := fun _ => guardRoute_of_desired
  rw [← mem_staleRoutes hrecorded.routes hroutes]
  exact ⟨fun hop => hrec.stale hop, fun hop => hfull.stale hop⟩

/-- The destination of a desired route that is not on record is freed if the guard holds it. -/
theorem freed_iff {net : IpNet} (hnet : ∀ op ∈ call.desired w, op.net = net → op ∉ w.guarded) :
    (∃ old ∈ gone, old.net = net) ↔ w.holds net := by
  constructor
  · rintro ⟨old, hold, hsame⟩
    exact ⟨old, ((mem_gone hrecorded hrec hfull).mp hold).1, hsame⟩
  · rintro ⟨old, hold, hsame⟩
    exact ⟨old, (mem_gone hrecorded hrec hfull).mpr
      ⟨hold, fun hdesired => hnet old hdesired hsame hold⟩, hsame⟩

theorem mem_added (hop : op ∈ call.desired w) (hnew : op ∉ w.guarded) :
    op ∈ added ↔ (w.table.has op.net = true → w.holds op.net) := by
  have hroutes : ∀ op ∈ call.desired w, GuardRoute op := fun _ => guardRoute_of_desired
  have hnet : ∀ o ∈ call.desired w, o.net = op.net → o ∉ w.guarded := by
    intro o ho hsame
    rw [eq_of_desired ho hop hsame]
    exact hnew
  rw [← freed_iff hrecorded hrec hfull hnet, has_iff]
  constructor
  · rintro hmem ⟨row, hrow, hsame⟩
    exact hrec.free op hmem row hrow hsame
  · intro hfree
    apply hfull.fresh op ((mem_freshRoutes hrecorded.routes hroutes).mpr ⟨hop, hnew⟩)
    exact fun row hrow hsame => hfree ⟨row, hrow, hsame⟩

omit hfull in
theorem desired_of_added (hop : op ∈ added) : op ∈ call.desired w ∧ op ∉ w.guarded :=
  (mem_freshRoutes hrecorded.routes fun _ => guardRoute_of_desired).mp (hrec.fresh.subset hop)

/-- What is on record after the call. -/
theorem mem_guarded_iff : op ∈ w'.guarded ↔ op ∈ call.desired w ∧
      (op ∈ w.guarded ∨ (w.table.has op.net = true → w.holds op.net)) := by
  have hroutes : ∀ op ∈ call.desired w, GuardRoute op := fun _ => guardRoute_of_desired
  rw [hrec.guarded, mem_append, mem_keptRoutes hrecorded.routes hroutes]
  constructor
  · rintro (⟨hmem, hdesired⟩ | hnew)
    · exact ⟨hdesired, .inl hmem⟩
    · obtain ⟨hdesired, hnot⟩ := desired_of_added hrecorded hrec hnew
      exact ⟨hdesired, .inr ((mem_added hrecorded hrec hfull hdesired hnot).mp hnew)⟩
  · rintro ⟨hdesired, hkept⟩
    by_cases hmem : op ∈ w.guarded
    · exact .inl ⟨hmem, hdesired⟩
    · exact .inr ((mem_added hrecorded hrec hfull hdesired hmem).mpr (hkept.resolve_left hmem))

/-- A lookup for a pin that has not been added misses the rows that were deleted for it. -/
theorem winning_after (hop : op ∈ call.pins) (hnot : op ∉ added)
    (hnew : op ∉ w.guarded) (table : RouteTable Component)
    (htable : ∀ row, row ∈ table ↔ row ∈ w.table ∧ (w.holds op.net → row.net ≠ op.net)) :
    call.winning w'.table op.destination = call.winning table op.destination := by
  apply winning_congr
  intro row hcontains
  obtain ⟨interface, -, net, hnet, rfl⟩ := mem_pins.mp hop
  have htailnet := tailnet_of_mem hnet
  have hpinNet : (⟨net, .interface interface, true⟩ : RouteOp).net = net := trunc_tailnet htailnet
  have hwanted : ∀ o ∈ call.desired w, o.net = net → o = ⟨net, .interface interface, true⟩ :=
    fun o ho hsame => eq_of_wanted (wanted_of_desired ho) (mem_append_left _ hop)
      (hsame.trans hpinNet.symm)
  have hfreed := freed_iff hrecorded hrec hfull
    (fun o ho hsame => by rw [hwanted o ho hsame]; exact hnew)
  rw [hrec.rows, htable, hpinNet]
  constructor
  · rintro (⟨hmem, hstays⟩ | ⟨o, ho, rfl⟩)
    · refine ⟨hmem, fun hholds hsame => ?_⟩
      obtain ⟨old, hold, hnet'⟩ := hfreed.mpr hholds
      exact hstays old hold (hsame.trans hnet'.symm)
    · -- An added route to this address would be the pin.
      obtain ⟨hdesired, -⟩ := desired_of_added hrecorded hrec ho
      rw [net_row] at hcontains
      have hsame := (guardRoute_of_desired hdesired).net_of_contains htailnet hcontains
      exact absurd (hwanted o hdesired hsame ▸ ho) hnot
  · rintro ⟨hmem, hmissed⟩
    refine .inl ⟨hmem, fun old hold hsame => ?_⟩
    have hroute := hrecorded.routes old ((mem_gone hrecorded hrec hfull).mp hold).1
    rw [hsame] at hcontains
    have hnet' := hroute.net_of_contains htailnet hcontains
    exact hmissed (hfreed.mp ⟨old, hold, hnet'⟩) (hsame.trans hnet')

/-- The next call has nothing to do exactly where the needed destinations were free and Tailscale
keeps what it wins. -/
theorem silent_after : call.commands w' = [] ↔
      (∀ op ∈ call.bypasses, op ∉ w.guarded → w.table.has op.net = true → w.holds op.net) ∧
      ∀ op ∈ call.pins, op ∉ w.guarded →
        (call.winning w.table op.destination = false → w.table.has op.net = true →
          w.holds op.net) ∧
        (call.winning w.table op.destination = true → w.holds op.net →
          call.winning (w.table.erase op.net) op.destination = true) := by
  have hguarded : ∀ {op}, op ∈ w'.guarded ↔ op ∈ call.desired w ∧
      (op ∈ w.guarded ∨ (w.table.has op.net = true → w.holds op.net)) :=
    mem_guarded_iff hrecorded hrec hfull
  have hrecorded' : Recorded w' :=
    AppliedFor.recorded ⟨gone, added, hrec, fun _ => hfull⟩ (V := Quiet) hrecorded
  rw [silent_iff hrecorded' fun op hop => wanted_of_desired (hguarded.mp hop).1]
  refine and_congr ?_ ?_
  · refine forall₂_congr fun op hop => ?_
    rw [hguarded]
    constructor
    · intro hmem hnew
      exact hmem.2.resolve_left hnew
    · intro hfree
      exact ⟨bypass_desired hop, (em (op ∈ w.guarded)).imp_right hfree⟩
  · refine forall₂_congr fun op hop => ?_
    by_cases hmem : op ∈ w.guarded
    · -- A pin on record stays on record.
      have hkept : op ∈ w'.guarded :=
        hguarded.mpr ⟨(pin_desired_iff hrecorded hop).mpr (.inl hmem), .inl hmem⟩
      simp [hmem, hkept]
    · cases hwinning : call.winning w.table op.destination with
      | false =>
        have hdesired := (pin_desired_iff hrecorded hop).mpr (.inr hwinning)
        simp only [hmem, not_false_eq_true, forall_const, Bool.false_eq_true, false_imp_iff,
          and_true]
        constructor
        · intro hnext
          by_contra hblocked
          have hnot := fun hin => hblocked ((mem_added hrecorded hrec hfull hdesired hmem).mp hin)
          -- It is still not Tailscale that wins, so the pin would be tried again.
          have hsame := winning_after hrecorded hrec hfull hop hnot hmem w.table
            fun row => ⟨fun hrow => ⟨hrow, fun hholds => absurd (fun _ => hholds) hblocked⟩,
              And.left⟩
          rcases (hguarded.mp (hnext (hsame.trans hwinning))).2 with hold | hfree
          · exact hmem hold
          · exact hblocked hfree
        · exact fun hfree _ => hguarded.mpr ⟨hdesired, .inr hfree⟩
      | true =>
        have hundesired : op ∉ call.desired w := by
          rw [pin_desired_iff hrecorded hop, hwinning]
          simp [hmem]
        have hnot : op ∉ added := fun hin =>
          hundesired (desired_of_added hrecorded hrec hin).1
        have hunlisted : op ∉ w'.guarded := fun hin => hundesired (hguarded.mp hin).1
        simp only [hmem, not_false_eq_true, forall_const, Bool.true_eq_false, false_imp_iff,
          true_and, hunlisted, imp_false, Bool.not_eq_false]
        by_cases hholds : w.holds op.net
        · have hsame := winning_after hrecorded hrec hfull hop hnot hmem
            (w.table.erase op.net) fun row => by
              rw [mem_erase]
              exact and_congr_right fun _ => ⟨fun hne _ => hne, fun hne => hne hholds⟩
          rw [hsame]
          simp [hholds]
        · have hsame := winning_after hrecorded hrec hfull hop hnot hmem w.table
            fun row => ⟨fun hrow => ⟨hrow, fun h => absurd h hholds⟩, And.left⟩
          rw [hsame]
          simp [hholds, hwinning]

section
variable
  (hfree : ∀ op ∈ call.desired w, op ∉ w.guarded → w.table.has op.net = true → w.holds op.net)
include hfree

/-- Where the next call has nothing to do, the wanted routes are placed if none was removed. -/
theorem placed_iff : (∀ op ∈ call.desired w, ∃ row ∈ w'.table, row.net = op.net ∧
      (op.target.matches row.entry = true ∨ row.owner ≠ some .tailscale)) ↔
      ∀ op ∈ call.wanted, op ∈ w.guarded → w.table.has op.net = true := by
  constructor
  · intro hplaced op hop hmem
    have hdesired : op ∈ call.desired w := by
      rcases mem_append.mp hop with hpin | hbypass
      · exact (pin_desired_iff hrecorded hpin).mpr (.inl hmem)
      · exact bypass_desired hbypass
    obtain ⟨row, hrow, hnet, -⟩ := hplaced op hdesired
    rcases (hrec.rows row).mp hrow with ⟨hold, -⟩ | ⟨new, hnew, rfl⟩
    · exact has_iff.mpr ⟨row, hold, hnet⟩
    · -- The route is on record, so it has not been added.
      obtain ⟨hdesired', hnot⟩ := desired_of_added hrecorded hrec hnew
      rw [net_row] at hnet
      exact absurd (eq_of_desired hdesired' hdesired hnet ▸ hmem) hnot
  · intro hkept op hop
    by_cases hmem : op ∈ w.guarded
    · obtain ⟨row, hrow, hnet⟩ := has_iff.mp (hkept op (wanted_of_desired hop) hmem)
      have hstays : ∀ old ∈ gone, row.net ≠ old.net := by
        intro old hold hsame
        obtain ⟨hmem', hundesired⟩ := (mem_gone hrecorded hrec hfull).mp hold
        have heq := inj_on_of_nodup_map hrecorded.nets hmem' hmem (hsame.symm.trans hnet)
        exact hundesired (heq ▸ hop)
      refine ⟨row, (hrec.rows row).mpr (.inl ⟨hrow, hstays⟩), hnet, ?_⟩
      by_cases howner : row.owner = some .tailscale
      · exact .inl (hrecorded.rows op hmem row hrow howner hnet)
      · exact .inr howner
    · have hadded := (mem_added hrecorded hrec hfull hop hmem).mpr (hfree op hop hmem)
      exact ⟨_, (hrec.rows _).mpr (.inr ⟨op, hadded, rfl⟩), net_row op _ _,
        .inl (matches_entry op _)⟩

/-- Where the next call has nothing to do, only wanted rows are left if the memory was complete. -/
theorem swept_iff : (∀ row ∈ w'.table, row.owner = some .tailscale →
      ∃ op ∈ call.desired w, op.net = row.net ∧ op.target.matches row.entry = true) ↔
      ∀ row ∈ w.table, row.owner = some .tailscale → w.holds row.net := by
  constructor
  · intro hswept row hrow howner
    by_contra hnone
    have hstays : ∀ old ∈ gone, row.net ≠ old.net := fun old hold hsame =>
      hnone ⟨old, ((mem_gone hrecorded hrec hfull).mp hold).1, hsame.symm⟩
    obtain ⟨op, hop, hnet, -⟩ := hswept row ((hrec.rows row).mpr (.inl ⟨hrow, hstays⟩)) howner
    have hnew : op ∉ w.guarded := fun hmem => hnone ⟨op, hmem, hnet⟩
    exact hnone (hnet ▸ hfree op hop hnew (has_iff.mpr ⟨row, hrow, hnet.symm⟩))
  · intro howned row hrow howner
    rcases (hrec.rows row).mp hrow with ⟨hold, hstays⟩ | ⟨op, hop, rfl⟩
    · obtain ⟨op, hmem, hnet⟩ := howned row hold howner
      refine ⟨op, ?_, hnet, hrecorded.rows op hmem row hold howner hnet.symm⟩
      by_contra hundesired
      exact hstays op ((mem_gone hrecorded hrec hfull).mpr ⟨hmem, hundesired⟩) hnet.symm
    · exact ⟨op, (desired_of_added hrecorded hrec hop).1, (net_row op _ _).symm, matches_entry op _⟩

end

theorem converged_iff (hvalid : call.Valid) : GuardConverged call w w' ↔ Converging call w := by
  have hsilent := (takes_three_iff hvalid).trans (silent_after hrecorded hrec hfull)
  -- Either side says that the needed destinations were free.
  have hfree : (∀ op ∈ call.bypasses, op ∉ w.guarded → w.table.has op.net = true → w.holds op.net) →
      (∀ op ∈ call.pins, op ∉ w.guarded → call.winning w.table op.destination = false →
        w.table.has op.net = true → w.holds op.net) →
      ∀ op ∈ call.desired w, op ∉ w.guarded → w.table.has op.net = true → w.holds op.net := by
    intro hbypasses hpins op hop hnew
    rcases mem_append.mp (wanted_of_desired hop) with hpin | hbypass
    · have hlost := ((pin_desired_iff hrecorded hpin).mp hop).resolve_left hnew
      exact hpins op hpin hnew hlost
    · exact hbypasses op hbypass hnew
  constructor
  · intro h
    obtain ⟨hbypasses, hpins⟩ := hsilent.mp h.silent
    have hpinsFree := fun op hop hnew => (hpins op hop hnew).1
    have hall := hfree hbypasses hpinsFree
    exact
      { kept := (placed_iff hrecorded hrec hfull hall).mp h.placed
        freeBypass := hbypasses
        freePin := hpinsFree
        spared := fun op hop hnew => (hpins op hop hnew).2
        owned := (swept_iff hrecorded hrec hfull hall).mp h.swept }
  · intro h
    have hall := hfree h.freeBypass h.freePin
    exact
      { placed := (placed_iff hrecorded hrec hfull hall).mpr h.kept
        swept := (swept_iff hrecorded hrec hfull hall).mpr h.owned
        silent := hsilent.mpr ⟨h.freeBypass, fun op hop hnew =>
          ⟨h.freePin op hop hnew, h.spared op hop hnew⟩⟩ }

end

/-- Undisturbed, a valid call does all that there is to do. -/
theorem succeeds_protect (hvalid : call.Valid) : Succeeds call.protect (fun _ w' => ∃ gone added,
      Reconciled (call.desired w) w w' gone added ∧ Reconciled.Full (call.desired w) w gone added)
      w := by
  have hquiet : ¬Refusing Quiet := by
    rintro ⟨fault, hfault⟩
    cases hfault
  refine wp_mono (wp_protect call) ?_ ?_ (fun _ hc => by cases hc)
  · rintro _ w' ⟨call', hcall, gone, added, hrec, hfull⟩
    obtain rfl := hcall hquiet
    exact ⟨gone, added, hrec, hfull hquiet⟩
  · rintro _ w' ⟨hrefused | hinvalid, -⟩
    · exact hquiet hrefused
    · exact hinvalid hvalid

theorem succeeds_converged_iff (hrecorded : Recorded w) (hvalid : call.Valid) :
    Succeeds call.protect (fun _ w' => GuardConverged call w w') w ↔ Converging call w := by
  constructor
  · intro h
    obtain ⟨a, w', vs, hrun, hconverged⟩ := run_of_succeeds h
    obtain ⟨a', w'', vs', hrun', gone, added, hrec, hfull⟩ :=
      run_of_succeeds (succeeds_protect (w := w) hvalid)
    rw [hrun] at hrun'
    cases hrun'
    exact (converged_iff hrecorded hrec hfull hvalid).mp hconverged
  · intro h
    refine wp_post (succeeds_protect hvalid) ?_
    rintro _ w' ⟨gone, added, hrec, hfull⟩
    exact (converged_iff hrecorded hrec hfull hvalid).mpr h

/-- From every machine that earlier calls and everybody else can lead to, a valid call that nothing
disturbs converges exactly where it is `Converging`. -/
theorem protect_converges_iff {call : ProtectCall} {w : Machine} (hreached : Reached w)
    (hvalid : call.Valid) :
    Succeeds call.protect (fun _ w' => GuardConverged call w w') w ↔ Converging call w :=
  succeeds_converged_iff hreached.recorded hvalid

end

/-! ### A bypass that somebody removed -/

/-- Tailscale's own route, and the default route. -/
def homeTable : RouteTable Component :=
  { rows := [⟨⟨.v4 0 0, some (.v4 0x0ae42801), "en0"⟩, none⟩, ⟨⟨tailnetV4, none, "utun12"⟩, none⟩]
    nodup := by decide }

def homeMachine : Machine := .initial homeTable []

/-- One relay, at 192.200.0.101. -/
def homeCall : ProtectCall :=
  { interface := some "utun12"
    uplink := some ⟨"en0", some 0x0ae42801⟩
    params := ⟨[.v4 0x64732746], [.v4 0xc0c80065]⟩ }

theorem homeCall_valid : homeCall.Valid where
  selfIps := by decide
  fewIps := by decide
  ownIps := by decide
  fewEndpoints := by decide

/-- After a call the table is what it was before: the bypass has been removed. -/
def flushedMachine : Machine :=
  { (Call.restarting (Machine.restarted fun _ => false) (runGuard (.protect homeCall)) homeMachine
      []).2.1 with table := homeTable }

theorem flushedMachine_reached : Reached flushedMachine :=
  .others (.request (.start (w := homeMachine) rfl) (.protect homeCall) (fun _ => false) []) rfl
    (by decide)

/-- A first call converges. -/
theorem home_converges :
    Succeeds homeCall.protect (fun _ w' => GuardConverged homeCall homeMachine w') homeMachine :=
  (protect_converges_iff (.start rfl) homeCall_valid).mpr
    { kept := fun op _ hop => absurd hop List.not_mem_nil
      freeBypass := by
        intro op hop _ htaken
        have hfree : ∀ op ∈ homeCall.bypasses, homeMachine.table.has op.net = false := by decide
        rw [hfree op hop] at htaken
        cases htaken
      freePin := by
        intro op hop _ hlost
        have hwins : ∀ op ∈ homeCall.pins,
            homeCall.winning homeMachine.table op.destination = true := by decide
        rw [hwins op hop] at hlost
        cases hlost
      spared := by
        rintro op - - - ⟨old, hold, -⟩
        cases hold
      owned := by
        intro row hrow howner
        have hnone : ∀ row ∈ homeTable.rows, row.owner = none := by decide
        rw [hnone row hrow] at howner
        cases howner }

/-- The bypass stays away: the guard remembers it, and does not look. -/
theorem flushed_not_converged :
    Reached flushedMachine ∧ homeCall.Valid ∧
      ¬Succeeds homeCall.protect (fun _ w' => GuardConverged homeCall flushedMachine w')
        flushedMachine := by
  refine ⟨flushedMachine_reached, homeCall_valid, ?_⟩
  rw [succeeds_converged_iff flushedMachine_reached.recorded homeCall_valid]
  intro h
  have hkept := h.kept (bypassOp 0x0ae42801 0xc0c80065) (by decide) (by decide)
  revert hkept
  decide

end NetOrchestrator.Macos
