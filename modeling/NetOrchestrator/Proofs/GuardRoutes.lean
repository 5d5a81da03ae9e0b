import Mathlib.Data.List.Dedup
import NetOrchestrator.Macos.TailscaleTable
import NetOrchestrator.Proofs.MachineFrames

/-!
# `Proofs.GuardRoutes`: what a call of the Tailscale guard does to the table

A call deletes some of the stale routes, and adds some of the fresh ones where their destinations
are free (`Reconciled`). If nothing is refused it is all of them (`Reconciled.Full`). The rules are
stated for the verdicts of a set `V`: what is refused in a run shows only in whether `V` has
refusals.

`Recorded` is what the memory of the guard has in every machine that is reached.
-/

namespace NetOrchestrator.Macos

open Net Lib Lib.Call List Verdict Table

/-- Steps may be refused. -/
def Refusing (V : Verdict Fault → Prop) : Prop := ∃ fault, V (.fail fault)

/-! ### Deleting and adding -/

section
variable {V : Verdict Fault → Prop} {who : Component} {w : Machine}

/-- The rows at the destinations of `gone` are gone. -/
structure Cleared (gone : List RouteOp) (w w' : Machine) : Prop where
  rows : ∀ row, row ∈ w'.table ↔ row ∈ w.table ∧ ∀ op ∈ gone, row.net ≠ op.net
  guarded : w'.guarded = w.guarded
  deviceOf : w'.deviceOf = w.deviceOf

theorem Cleared.refl (w : Machine) : Cleared [] w w where
  rows := by simp
  guarded := rfl
  deviceOf := rfl

variable {w₁ w₂ : Machine} (op : RouteOp) (ops : List RouteOp) {added : List RouteOp}

theorem Cleared.trans {first second : List RouteOp} (h : Cleared first w w₁)
    (h' : Cleared second w₁ w₂) : Cleared (first ++ second) w w₂ where
  rows row := by
    rw [h'.rows, h.rows]
    simp only [mem_append, or_imp, forall_and, and_assoc]
  guarded := h'.guarded.trans h.guarded
  deviceOf := h'.deviceOf.trans h.deviceOf

theorem cleared_routeDeleted : Cleared [op] w (w.routeDeleted who op) where
  rows row := by
    show row ∈ w.table.erase op.net ↔ _
    rw [mem_erase]
    simp
  guarded := rfl
  deviceOf := rfl

/-- A deletion goes through, or changes nothing. -/
theorem wp_deleteRoute_cleared : wp V (deleteRoute who op)
      (fun _ w' => ∃ gone, gone ⊆ [op] ∧ (¬Refusing V → [op] ⊆ gone) ∧ Cleared gone w w')
      (fun _ _ => False) (fun _ => V .crash) w := by
  apply wp_tried
  apply wp_step
  · exact id
  · intro fault hfault
    apply wp_modify
    exact ⟨[], nil_subset _, fun hnone => absurd ⟨fault, hfault⟩ hnone,
      (Cleared.refl w).rows, rfl, rfl⟩
  · intro _ w' hact
    cases hact
    apply wp_pure
    exact ⟨[op], List.Subset.refl _, fun _ => List.Subset.refl _, cleared_routeDeleted op⟩
  · intro e w' hact
    cases hact

theorem wp_deleteEach_cleared : wp V (forEach (deleteRoute who) ops)
      (fun _ w' => ∃ gone, gone ⊆ ops ∧ (¬Refusing V → ops ⊆ gone) ∧ Cleared gone w w')
      (fun _ _ => False) (fun _ => V .crash) w := by
  induction ops generalizing w with
  | nil => exact wp_pure ⟨[], List.Subset.refl _, fun _ => List.Subset.refl _, Cleared.refl w⟩
  | cons op rest ih =>
    apply wp_then (wp_deleteRoute_cleared op)
    rintro _ w₁ ⟨first, hfirst, hall, hcleared⟩
    refine wp_post ih ?_
    rintro _ w₂ ⟨second, hsecond, hall', hcleared'⟩
    refine ⟨first ++ second, ?_, ?_, hcleared.trans hcleared'⟩
    · intro o ho
      rcases mem_append.mp ho with hin | hin
      · exact mem_cons.mpr (.inl (mem_singleton.mp (hfirst hin)))
      · exact mem_cons_of_mem op (hsecond hin)
    · intro hnone o ho
      rcases mem_cons.mp ho with rfl | hin
      · exact mem_append_left second (hall hnone (mem_singleton_self _))
      · exact mem_append_right first (hall' hnone hin)

theorem wp_removeRoutes_cleared : wp V (removeRoutes who ops)
      (fun _ w' => ∃ gone, gone ⊆ ops ∧ (¬Refusing V → ops ⊆ gone) ∧ Cleared gone w w')
      (fun _ _ => False) (fun _ => V .crash) w := by
  refine wp_post (wp_deleteEach_cleared ops.reverse) ?_
  rintro _ w' ⟨gone, hgone, hall, hcleared⟩
  refine ⟨gone, fun op hop => mem_reverse.mp (hgone hop), fun hnone op hop => ?_, hcleared⟩
  exact hall hnone (mem_reverse.mpr hop)

/-- The routes `added` are in the table, at destinations that were free. -/
structure Placed (who : Component) (added : List RouteOp) (w w' : Machine) : Prop where
  free : ∀ op ∈ added, w.table.has op.net = false
  rows : ∀ row, row ∈ w'.table ↔
    row ∈ w.table ∨ ∃ op ∈ added, row = ⟨op.entry w.deviceOf, some who⟩
  guarded : w'.guarded = w.guarded
  deviceOf : w'.deviceOf = w.deviceOf

theorem Placed.refl (who : Component) (w : Machine) : Placed who [] w w where
  free := by simp
  rows := by simp
  guarded := rfl
  deviceOf := rfl

@[simp]
theorem net_row (deviceOf : IpAddr → String) (owner : Option Component) :
    (⟨op.entry deviceOf, owner⟩ : RouteRow Component).net = op.net :=
  net_entry op deviceOf

theorem placed_routeAdded {op : RouteOp} (h : w.table.has op.net = false) :
    Placed who [op] w (w.routeAdded who op) where
  free := by simpa using h
  rows row := by
    show row ∈ w.table.insert _ ↔ _
    rw [mem_insert (by rwa [net_row])]
    simp
  guarded := rfl
  deviceOf := rfl

theorem has_of_placed {w' : Machine} (h : Placed who added w w') (net : IpNet) :
    w'.table.has net = true ↔ w.table.has net = true ∨ ∃ op ∈ added, op.net = net := by
  rw [has_iff, has_iff]
  constructor
  · rintro ⟨row, hrow, rfl⟩
    rcases (h.rows row).mp hrow with hold | ⟨op, hop, rfl⟩
    · exact .inl ⟨row, hold, rfl⟩
    · exact .inr ⟨op, hop, (net_row op _ _).symm⟩
  · rintro (⟨row, hrow, rfl⟩ | ⟨op, hop, rfl⟩)
    · exact ⟨row, (h.rows row).mpr (.inl hrow), rfl⟩
    · exact ⟨_, (h.rows _).mpr (.inr ⟨op, hop, rfl⟩), net_row op _ _⟩

/-- One addition after the others. -/
theorem Placed.cons {op : RouteOp}
    (h : Placed who [op] w w₁) (h' : Placed who added w₁ w₂) : Placed who (op :: added) w w₂ where
  free := by
    intro op' hop'
    rcases mem_cons.mp hop' with rfl | hin
    · exact h.free _ (mem_singleton_self _)
    · have hfree := h'.free op' hin
      by_contra htaken
      rw [Bool.not_eq_false] at htaken
      rw [(has_of_placed h op'.net).mpr (.inl htaken)] at hfree
      cases hfree
  rows row := by
    rw [h'.rows, h.rows, h.deviceOf]
    simp only [mem_cons, not_mem_nil, or_false, exists_eq_left, exists_eq_or_imp, or_assoc]
  guarded := h'.guarded.trans h.guarded
  deviceOf := h'.deviceOf.trans h.deviceOf

/-- Optional routes with different destinations are added where they can be. -/
theorem wp_applyLoop_placed {ops installed : List RouteOp} (hoptional : ∀ op ∈ ops, op.optional)
    (hnets : (ops.map RouteOp.net).Nodup) : wp V (applyLoop who installed ops)
      (fun got w' => ∃ added, got = installed ++ added ∧ added.Sublist ops ∧
        (¬Refusing V → ∀ op ∈ ops, w.table.has op.net = false → op ∈ added) ∧
        Placed who added w w') (fun _ _ => False) (fun _ => V .crash) w := by
  induction ops generalizing installed w with
  | nil =>
    apply wp_pure
    exact ⟨[], (append_nil _).symm, .slnil, by simp, .refl who w⟩
  | cons op rest ih =>
    rw [map_cons, nodup_cons] at hnets
    have hrest : ∀ op ∈ rest, op.optional := fun o ho => hoptional o (mem_cons_of_mem _ ho)
    -- The loop goes on without the route.
    have hskip : (¬Refusing V → w.table.has op.net = true) →
        wp V (if op.optional then applyLoop who installed rest
          else do
            removeRoutes who installed
            Call.throw (.noRoute op))
        (fun got w' => ∃ added, got = installed ++ added ∧ added.Sublist (op :: rest) ∧
          (¬Refusing V → ∀ o ∈ op :: rest, w.table.has o.net = false → o ∈ added) ∧
          Placed who added w w')
        (fun _ _ => False) (fun _ => V .crash) w := by
      intro htaken
      rw [if_pos (hoptional op mem_cons_self)]
      refine wp_post (ih hrest hnets.2) ?_
      rintro got w' ⟨added, hgot, hsub, hall, hplaced⟩
      refine ⟨added, hgot, .cons _ hsub, ?_, hplaced⟩
      intro hnone o ho hfree
      rcases mem_cons.mp ho with rfl | hin
      · rw [htaken hnone] at hfree
        cases hfree
      · exact hall hnone o hin hfree
    apply wp_tried
    apply wp_step
    · exact id
    · intro fault hfault
      exact hskip fun hnone => absurd ⟨fault, hfault⟩ hnone
    · intro _ w₁ hact
      split at hact
      · cases hact
      · rename_i hfree
        rw [Bool.not_eq_true] at hfree
        cases hact
        have hplaced : Placed who [op] w (w.routeAdded who op) := placed_routeAdded hfree
        refine wp_post (ih hrest hnets.2) ?_
        rintro got w₂ ⟨added, hgot, hsub, hall, hplaced'⟩
        refine ⟨op :: added, by rw [hgot]; simp, hsub.cons_cons op, ?_, hplaced.cons hplaced'⟩
        intro hnone o ho hfree'
        rcases mem_cons.mp ho with rfl | hin
        · exact mem_cons_self
        · apply mem_cons_of_mem
          apply hall hnone o hin
          -- The destination of `o` is not that of `op`.
          by_contra htaken
          rw [Bool.not_eq_false, has_of_placed hplaced] at htaken
          rcases htaken with hold | ⟨op', hop', hnet⟩
          · rw [hold] at hfree'
            cases hfree'
          · rw [mem_singleton.mp hop'] at hnet
            exact hnets.1 (hnet ▸ mem_map_of_mem hin)
    · intro e w₁ hact
      split at hact
      · rename_i htaken
        cases hact
        exact hskip fun _ => htaken
      · cases hact

end

/-! ### The routes that a call is for -/

/-- A route of the guard: a pin of a tailnet prefix, or a bypass of a public host. -/
inductive GuardRoute : RouteOp → Prop where
  | pin {net : IpNet} (name : String) (h : net = tailnetV4 ∨ net = tailnetV6) :
      GuardRoute ⟨net, .interface name, true⟩
  | bypass (gateway : BitVec 32) {host : BitVec 32} (h : bypassable (.v4 host) = some host) :
      GuardRoute (bypassOp gateway host)

section
variable {call : ProtectCall} {w : Machine} {op : RouteOp} {net : IpNet}

theorem GuardRoute.optional (h : GuardRoute op) : op.optional = true := by
  cases h <;> rfl

@[simp]
theorem net_bypassOp (gateway host : BitVec 32) : (bypassOp gateway host).net = .v4 host 32 :=
  IpAddr.trunc_toNet (.v4 host)

theorem trunc_tailnet (h : net = tailnetV4 ∨ net = tailnetV6) : net.trunc = net := by
  rcases h with rfl | rfl
  · decide
  · decide

theorem bypassable_eq {ip : IpAddr} {host : BitVec 32} (h : bypassable ip = some host) :
    ip = .v4 host := by
  cases ip with
  | v6 bits => cases h
  | v4 bits =>
    simp only [bypassable] at h
    split at h
    · cases h
    · rw [Option.some.inj h]

/-- A prefix that is pinned if it has to be. -/
def ProtectCall.tailnets (call : ProtectCall) : List IpNet :=
  tailnetV4 :: (if call.params.selfIps.any (!·.isIpv4) then [tailnetV6] else [])

theorem mem_pinOps {env : TailscaleSurroundings} {installed : List RouteOp} :
    op ∈ pinOps env call.params installed ↔
      ∃ interface, env.interface = some interface ∧
        (∃ net ∈ call.tailnets, op = ⟨net, .interface interface, true⟩) ∧
        (installed.any (sameRoute op) = true ∨ env.winning op.destination = false) := by
  unfold pinOps
  cases env.interface with
  | none => simp
  | some interface =>
    simp only [mem_filter, mem_map, Option.some.injEq, exists_eq_left', Bool.or_eq_true,
      Bool.not_eq_true', ProtectCall.tailnets]
    constructor
    · rintro ⟨⟨net, hnet, rfl⟩, hneeded⟩
      exact ⟨⟨net, hnet, rfl⟩, hneeded⟩
    · rintro ⟨⟨net, hnet, rfl⟩, hneeded⟩
      exact ⟨⟨net, hnet, rfl⟩, hneeded⟩

theorem mem_pins : op ∈ call.pins ↔ ∃ interface, call.interface = some interface ∧
      ∃ net ∈ call.tailnets, op = ⟨net, .interface interface, true⟩ := by
  unfold ProtectCall.pins
  rw [mem_pinOps]
  simp

theorem tailnet_of_mem (h : net ∈ call.tailnets) : net = tailnetV4 ∨ net = tailnetV6 := by
  unfold ProtectCall.tailnets at h
  rcases mem_cons.mp h with rfl | h
  · exact .inl rfl
  · split at h
    · exact .inr (mem_singleton.mp h)
    · cases h

theorem guardRoute_of_pin (h : op ∈ call.pins) : GuardRoute op := by
  obtain ⟨interface, -, net, hnet, rfl⟩ := mem_pins.mp h
  exact .pin interface (tailnet_of_mem hnet)

theorem mem_bypasses (h : op ∈ call.bypasses) :
    ∃ gateway host, bypassable (.v4 host) = some host ∧ op = bypassOp gateway host := by
  unfold ProtectCall.bypasses guardBypasses at h
  split at h
  · cases h
  · rename_i gateway _
    obtain ⟨host, hhost, rfl⟩ := mem_map.mp h
    have hmem := mem_dedup.mp (mem_filter.mp hhost).1
    obtain ⟨ip, -, hip⟩ := mem_filterMap.mp (mem_insertionSort _ |>.mp hmem)
    obtain rfl := bypassable_eq hip
    exact ⟨gateway, host, hip, rfl⟩

theorem guardRoute_of_bypass (h : op ∈ call.bypasses) : GuardRoute op := by
  obtain ⟨gateway, host, hhost, rfl⟩ := mem_bypasses h
  exact .bypass gateway hhost

/-- A pin is desired where it is on record or something else wins. -/
theorem mem_desired : op ∈ call.desired w ↔
      (op ∈ call.pins ∧ (w.guarded.any (sameRoute op) = true ∨
        (call.surroundings w).winning op.destination = false)) ∨ op ∈ call.bypasses := by
  unfold ProtectCall.desired
  rw [mem_append, mem_pinOps, mem_pins]
  constructor
  · rintro (⟨interface, hinterface, hnet, hneeded⟩ | hbypass)
    · exact .inl ⟨⟨interface, hinterface, hnet⟩, hneeded⟩
    · exact .inr hbypass
  · rintro (⟨⟨interface, hinterface, hnet⟩, hneeded⟩ | hbypass)
    · exact .inl ⟨interface, hinterface, hnet, hneeded⟩
    · exact .inr hbypass

theorem guardRoute_of_desired (h : op ∈ call.desired w) : GuardRoute op := by
  rcases mem_desired.mp h with ⟨hpin, -⟩ | hbypass
  · exact guardRoute_of_pin hpin
  · exact guardRoute_of_bypass hbypass

theorem nodup_tailnets (call : ProtectCall) : call.tailnets.Nodup := by
  unfold ProtectCall.tailnets
  split <;> decide

variable (env : TailscaleSurroundings) (installed : List RouteOp) {op' : RouteOp}

/-- No two pins of a call have one destination. -/
theorem nodup_pinOps : ((pinOps env call.params installed).map RouteOp.net).Nodup := by
  unfold pinOps
  cases env.interface with
  | none => exact nodup_nil
  | some interface =>
    refine List.Nodup.sublist (filter_sublist.map _) ?_
    have hmap : (call.tailnets.map fun net => (⟨net, .interface interface, true⟩ : RouteOp)).map
        RouteOp.net = call.tailnets := by
      rw [map_map]
      refine (map_congr_left fun net hnet => ?_).trans (map_id _)
      exact trunc_tailnet (tailnet_of_mem hnet)
    exact hmap ▸ nodup_tailnets call

theorem nodup_bypasses (call : ProtectCall) : (call.bypasses.map RouteOp.net).Nodup := by
  unfold ProtectCall.bypasses guardBypasses
  split
  · exact nodup_nil
  · rename_i gateway _
    rw [map_map]
    refine List.Nodup.map ?_ ((nodup_dedup _).filter _)
    intro host host' hsame
    simp only [Function.comp_apply, net_bypassOp, IpNet.v4.injEq, and_true] at hsame
    exact hsame

/-- A pin is shorter than a host route. -/
theorem trunc_ne_net_bypass (hnet : net ∈ call.tailnets) (h : op ∈ call.bypasses) :
    net.trunc ≠ op.net := by
  obtain ⟨gateway, host, -, rfl⟩ := mem_bypasses h
  rw [net_bypassOp, trunc_tailnet (tailnet_of_mem hnet)]
  rcases tailnet_of_mem hnet with rfl | rfl
  · exact fun hsame => absurd (IpNet.v4.inj hsame).2 (by decide)
  · exact fun hsame => by cases hsame

theorem nodup_routes :
    ((pinOps env call.params installed ++ call.bypasses).map RouteOp.net).Nodup := by
  rw [map_append, nodup_append]
  refine ⟨nodup_pinOps _ _, nodup_bypasses call, ?_⟩
  intro net hnet net' hnet'
  obtain ⟨pin, hpin, rfl⟩ := mem_map.mp hnet
  obtain ⟨bypass, hbypass, rfl⟩ := mem_map.mp hnet'
  obtain ⟨interface, -, ⟨tailnet, htailnet, rfl⟩, -⟩ := mem_pinOps.mp hpin
  exact trunc_ne_net_bypass htailnet hbypass

theorem nodup_desired (call : ProtectCall) (w : Machine) :
    ((call.desired w).map RouteOp.net).Nodup :=
  nodup_routes _ _

theorem wanted_of_desired (h : op ∈ call.desired w) : op ∈ call.wanted := by
  apply mem_append.mpr
  exact (mem_desired.mp h).imp_left And.left

/-- The destination tells the route. -/
theorem eq_of_wanted (h : op ∈ call.wanted) (h' : op' ∈ call.wanted)
    (hnet : op.net = op'.net) : op = op' :=
  inj_on_of_nodup_map (nodup_routes _ _) h h' hnet

theorem eq_of_desired (h : op ∈ call.desired w) (h' : op' ∈ call.desired w)
    (hnet : op.net = op'.net) : op = op' :=
  eq_of_wanted (wanted_of_desired h) (wanted_of_desired h') hnet

end

/-! ### One call -/

/-- What the memory of the guard has. A row of the guard at the destination of a route on record
is that route. -/
structure Recorded (w : Machine) : Prop where
  routes : ∀ op ∈ w.guarded, GuardRoute op
  nets : (w.guarded.map RouteOp.net).Nodup
  rows : ∀ op ∈ w.guarded, ∀ row ∈ w.table, row.owner = some .tailscale → row.net = op.net →
    op.target.matches row.entry = true

/-- A call for `desired` deletes the routes `gone` and adds the routes `added`. -/
structure Reconciled (desired : List RouteOp) (w w' : Machine) (gone added : List RouteOp) :
    Prop where
  guarded : w'.guarded = keptRoutes w.guarded desired ++ added
  stale : gone ⊆ staleRoutes w.guarded desired
  fresh : added.Sublist (freshRoutes w.guarded desired)
  free : ∀ op ∈ added, ∀ row ∈ w.table, row.net = op.net → ∃ old ∈ gone, old.net = op.net
  rows : ∀ row, row ∈ w'.table ↔
    (row ∈ w.table ∧ ∀ op ∈ gone, row.net ≠ op.net) ∨
      ∃ op ∈ added, row = ⟨op.entry w.deviceOf, some .tailscale⟩

/-- All that is stale is gone, and what could be added is. -/
structure Reconciled.Full (desired : List RouteOp) (w : Machine) (gone added : List RouteOp) :
    Prop where
  stale : staleRoutes w.guarded desired ⊆ gone
  fresh : ∀ op ∈ freshRoutes w.guarded desired,
    (∀ row ∈ w.table, row.net = op.net → ∃ old ∈ gone, old.net = op.net) → op ∈ added

section
variable {V : Verdict Fault → Prop} {desired : List RouteOp} {w w' : Machine} {op : RouteOp}

theorem any_sameRoute {l : List RouteOp} (hl : ∀ o ∈ l, GuardRoute o) (hop : GuardRoute op) :
    l.any (sameRoute op) = true ↔ op ∈ l := by
  rw [any_eq_true]
  constructor
  · rintro ⟨o, ho, hsame⟩
    simp only [sameRoute, Bool.and_eq_true, beq_iff_eq] at hsame
    have heq : op = o := by
      cases op
      cases o
      simp only [RouteOp.mk.injEq]
      exact ⟨hsame.1, hsame.2, hop.optional.trans (hl _ ho).optional.symm⟩
    exact heq ▸ ho
  · intro hmem
    exact ⟨op, hmem, by simp [sameRoute]⟩

section
variable {installed : List RouteOp} (hinstalled : ∀ o ∈ installed, GuardRoute o)
  (hdesired : ∀ o ∈ desired, GuardRoute o)
include hinstalled hdesired

theorem mem_keptRoutes : op ∈ keptRoutes installed desired ↔ op ∈ installed ∧ op ∈ desired := by
  unfold keptRoutes
  rw [mem_filter]
  exact and_congr_right fun hop => any_sameRoute hdesired (hinstalled op hop)

theorem mem_staleRoutes : op ∈ staleRoutes installed desired ↔ op ∈ installed ∧ op ∉ desired := by
  unfold staleRoutes
  rw [mem_filter, Bool.not_eq_true', ← Bool.not_eq_true]
  exact and_congr_right fun hop => not_congr (any_sameRoute hdesired (hinstalled op hop))

theorem mem_freshRoutes : op ∈ freshRoutes installed desired ↔ op ∈ desired ∧ op ∉ installed := by
  unfold freshRoutes
  rw [mem_filter, Bool.not_eq_true', ← Bool.not_eq_true]
  refine and_congr_right fun hop => not_congr ?_
  have hkept : ∀ o ∈ keptRoutes installed desired, GuardRoute o :=
    fun o ho => hinstalled o (mem_filter.mp ho).1
  have hflip : (fun have_ => sameRoute have_ op) = sameRoute op := by
    funext have_
    simp only [sameRoute, Bool.beq_comm]
  rw [hflip, any_sameRoute hkept (hdesired op hop), mem_keptRoutes hinstalled hdesired]
  exact and_iff_left hop

end

/-- A save or a clearing of the journal leaves the table and the memory alone. -/
theorem wp_guardSave {P : Machine → Prop} (hP : ∀ w w' : Machine, w'.table = w.table →
    w'.guarded = w.guarded → P w → P w') {interface : String} {installed : List RouteOp} (h : P w) :
    wp V (guardSave interface installed) (fun _ => P) (fun _ w' => Refusing V ∧ P w')
      (fun _ => V .crash) w := by
  apply wp_tried
  apply wp_mono (Q := fun _ => P) (E := fun _ w' => Refusing V ∧ P w') (C := fun _ => V .crash)
  rotate_left
  · exact fun _ _ hp => wp_pure hp
  · exact fun _ _ he => wp_throw he
  · exact fun _ hc => hc
  split
  · apply wp_tried
    apply wp_step
    · exact id
    · exact fun fault hfault => wp_write (wp_throw ⟨⟨fault, hfault⟩, hP w _ rfl rfl h⟩)
    · intro _ w' hact
      cases hact
      exact wp_pure (hP w _ rfl rfl h)
    · intro e w' hact
      cases hact
  · apply wp_tried
    apply wp_step
    · exact id
    · exact fun fault hfault => wp_write (wp_throw ⟨⟨fault, hfault⟩, hP w _ rfl rfl h⟩)
    · intro _ w' hact
      cases hact
      exact wp_pure (hP w _ rfl rfl h)
    · intro e w' hact
      cases hact

/-- The memory after a call for `desired`. -/
def AppliedFor (V : Verdict Fault → Prop) (desired : List RouteOp) (w w' : Machine) : Prop :=
  ∃ gone added, Reconciled desired w w' gone added ∧
    (¬Refusing V → Reconciled.Full desired w gone added)

theorem wp_guardApply (interface : String) (hdesired : ∀ op ∈ desired, GuardRoute op)
    (hnodup : (desired.map RouteOp.net).Nodup) :
    wp V (guardApply interface desired) (fun _ => AppliedFor V desired w)
      (fun _ w' => Refusing V ∧ AppliedFor V desired w w') (fun _ => V .crash) w := by
  apply wp_read
  apply wp_after (wp_removeRoutes_cleared (staleRoutes w.guarded desired))
  rintro _ w₁ ⟨gone, hgone, hall, hcleared⟩
  apply wp_tried
  have hoptional : ∀ op ∈ freshRoutes w.guarded desired, op.optional :=
    fun op hop => (hdesired op (mem_filter.mp hop).1).optional
  have hnets : ((freshRoutes w.guarded desired).map RouteOp.net).Nodup :=
    hnodup.sublist (filter_sublist.map _)
  refine wp_sure (wp_applyLoop_placed hoptional hnets) ?_
  rintro got w₂ ⟨added, hgot, hsub, hadded, hplaced⟩
  rw [nil_append] at hgot
  subst hgot
  apply wp_write
  apply wp_guardSave (P := AppliedFor V desired w)
  · rintro v v' htable hguarded ⟨gone, added, hrec, hfull⟩
    refine ⟨gone, added, ⟨?_, hrec.stale, hrec.fresh, hrec.free, ?_⟩, hfull⟩
    · rw [hguarded, hrec.guarded]
    · intro row
      rw [htable]
      exact hrec.rows row
  · refine ⟨gone, got, ⟨rfl, hgone, hsub, ?_, ?_⟩, fun hnone => ⟨hall hnone, ?_⟩⟩
    · -- A destination that is free after the deletions was free, or was made free.
      intro op hop row hrow hnet
      by_contra hkept
      have hmem : row ∈ w₁.table := by
        rw [hcleared.rows]
        exact ⟨hrow, fun old hold hsame => hkept ⟨old, hold, hsame.symm.trans hnet⟩⟩
      exact has_eq_false_iff.mp (hplaced.free op hop) row hmem hnet
    · intro row
      show row ∈ w₂.table ↔ _
      rw [hplaced.rows, hcleared.rows, hcleared.deviceOf]
    · intro op hop hfree
      apply hadded hnone op hop
      rw [has_eq_false_iff]
      intro row hrow hnet
      obtain ⟨hmem, hgone⟩ := (hcleared.rows row).mp hrow
      obtain ⟨old, hold, hsame⟩ := hfree row hmem hnet
      exact hgone old hold (hnet.trans hsame.symm)

end

/-! ### The requests of the guard -/

section
variable {V : Verdict Fault → Prop} {w w' : Machine}

/-- A step that looks is refused, or answers. -/
theorem wp_look {α : Type} {answer : α} {Q : α → Machine → Prop}
    {E : TunnelError → Machine → Prop} {C : Machine → Prop} (hcrash : V .crash → C w)
    (hfail : ∀ fault, V (.fail fault) → E (.io fault) w) (hok : Q answer w) :
    wp V (reading fun _ => .ok answer) Q E C w := by
  unfold reading command
  apply wp_step
  · exact hcrash
  · exact hfail
  · intro a w' hact
    cases hact
    exact hok
  · intro e w' hact
    cases hact

variable (call : ProtectCall)

/-- The uplink that a call works with is the usable one, or none. -/
theorem wp_readUplink :
    wp V (readUplink call.uplink) (fun got v => v = w ∧ (¬Refusing V → got = call.usableUplink) ∧
        (got = call.usableUplink ∨ got = none)) (fun _ _ => False) (fun _ => V .crash) w := by
  apply wp_tried
  apply wp_tried
  apply wp_look
  · exact id
  · intro fault hfault
    exact wp_throw (wp_pure ⟨rfl, fun hnone => absurd ⟨fault, hfault⟩ hnone, .inr rfl⟩)
  · unfold ProtectCall.usableUplink
    cases huplink : call.uplink with
    | none => exact wp_throw (wp_pure ⟨rfl, fun _ => rfl, .inl rfl⟩)
    | some uplink =>
      show wp V (if _ then _ else _) _ _ _ w
      split
      · rename_i htunnel
        have hfilter : (some uplink).filter (fun u => !u.interface.startsWith "utun") = none := by
          simp [Option.filter, htunnel]
        rw [hfilter]
        exact wp_throw (wp_pure ⟨rfl, fun _ => rfl, .inl rfl⟩)
      · rename_i htunnel
        have hfilter : (some uplink).filter (fun u => !u.interface.startsWith "utun") =
            some uplink := by
          simp [Option.filter, htunnel]
        rw [hfilter]
        exact wp_pure (wp_pure ⟨rfl, fun _ => rfl, .inl rfl⟩)

theorem wp_validateProtect {call : ProtectCall} :
    wp V (validateProtect call.params) (fun _ v => v = w) (fun _ v => ¬call.Valid ∧ v = w)
      (fun _ => V .crash) w := by
  unfold validateProtect
  split
  · rename_i hbad
    refine wp_throw ⟨fun hvalid => ?_, rfl⟩
    simp only [Bool.or_eq_true, List.isEmpty_iff, decide_eq_true_eq, Bool.not_eq_true',
      List.all_eq_false, not_or, Bool.not_eq_true] at hbad
    rcases hbad with (hempty | hmany) | ⟨ip, hip, hforeign⟩
    · exact hvalid.selfIps hempty
    · exact absurd hvalid.fewIps (Nat.not_le_of_lt hmany)
    · rcases hvalid.ownIps ip hip with hv4 | hv6
      · rw [hv4] at hforeign
        cases hforeign.1
      · rw [hv6] at hforeign
        cases hforeign.2
  · split
    · rename_i hmany
      exact wp_throw ⟨fun hvalid => absurd hvalid.fewEndpoints (Nat.not_le_of_lt hmany), rfl⟩
    · exact wp_pure rfl

/-- A call brings the routes in line with what it desires, perhaps without an uplink. -/
theorem wp_protect :
    wp V call.protect (fun _ w' => ∃ call' : ProtectCall, (¬Refusing V → call' = call) ∧
        AppliedFor V (call'.desired w) w w') (fun _ w' => (Refusing V ∨ ¬call.Valid) ∧
        (w' = w ∨ ∃ call' : ProtectCall, AppliedFor V (call'.desired w) w w'))
      (fun _ => V .crash) w := by
  apply wp_read
  apply wp_bind
  refine wp_ends wp_validateProtect ?_ (fun _ _ he => ⟨.inr he.1, .inl he.2⟩)
  intro _ v hv
  rw [hv]
  apply wp_bind
  apply wp_tried
  apply wp_look
  · exact id
  · exact fun fault hfault => wp_throw ⟨.inl ⟨fault, hfault⟩, .inl rfl⟩
  · apply wp_pure
    apply wp_read
    apply wp_after (wp_readUplink call)
    rintro got v ⟨hv, hquiet, hgot⟩
    rw [hv]
    -- What is desired is what a call with this uplink desires.
    obtain ⟨call', hcall, hdesired⟩ : ∃ call' : ProtectCall, (¬Refusing V → call' = call) ∧
        pinOps (call.surroundings w) call.params w.guarded ++
          guardBypasses got call.params.endpoints = call'.desired w := by
      by_cases husable : got = call.usableUplink
      · exact ⟨call, fun _ => rfl, by rw [husable]; rfl⟩
      · obtain rfl := hgot.resolve_left husable
        exact ⟨{ call with uplink := none }, fun hnone => absurd (hquiet hnone) husable, rfl⟩
    rw [hdesired]
    refine wp_ends (wp_guardApply _ (fun _ => guardRoute_of_desired) (nodup_desired call' w)) ?_ ?_
    · exact fun _ _ happlied => ⟨call', hcall, happlied⟩
    · exact fun _ _ he => ⟨.inl he.1, .inr ⟨call', he.2⟩⟩

/-- The routes on record after a call: kept ones, and those that have been added. -/
theorem AppliedFor.recorded {call : ProtectCall} (h : AppliedFor V (call.desired w) w w')
    (hrecorded : Recorded w) : Recorded w' := by
  obtain ⟨gone, added, hrec, -⟩ := h
  have hdesired : ∀ op ∈ call.desired w, GuardRoute op := fun _ => guardRoute_of_desired
  have hkept : ∀ op ∈ keptRoutes w.guarded (call.desired w),
      op ∈ w.guarded ∧ op ∈ call.desired w :=
    fun op hop => (mem_keptRoutes hrecorded.routes hdesired).mp hop
  have hfresh : ∀ op ∈ added, op ∈ call.desired w ∧ op ∉ w.guarded :=
    fun op hop => (mem_freshRoutes hrecorded.routes hdesired).mp (hrec.fresh.subset hop)
  have hmem : ∀ op ∈ w'.guarded, op ∈ call.desired w := by
    intro op hop
    rw [hrec.guarded] at hop
    rcases mem_append.mp hop with hold | hnew
    · exact (hkept op hold).2
    · exact (hfresh op hnew).1
  refine ⟨fun op hop => guardRoute_of_desired (hmem op hop), ?_, ?_⟩
  · rw [hrec.guarded, map_append, nodup_append]
    refine ⟨hrecorded.nets.sublist (filter_sublist.map _),
      (nodup_desired call w).sublist ((hrec.fresh.trans filter_sublist).map _), ?_⟩
    intro net hold net' hnew hsame
    obtain ⟨op, hop, rfl⟩ := mem_map.mp hold
    obtain ⟨op', hop', rfl⟩ := mem_map.mp hnew
    have heq := eq_of_desired (hkept op hop).2 (hfresh op' hop').1 hsame
    exact (hfresh op' hop').2 (heq ▸ (hkept op hop).1)
  · intro op hop row hrow howner hnet
    rcases (hrec.rows row).mp hrow with ⟨hold, hstays⟩ | ⟨op', hop', rfl⟩
    · -- The row was there: `op` has not been added just now.
      have hguarded : op ∈ w.guarded := by
        rw [hrec.guarded] at hop
        rcases mem_append.mp hop with hkeep | hnew
        · exact (hkept op hkeep).1
        · obtain ⟨old, hgone, hsame⟩ := hrec.free op hnew row hold hnet
          exact absurd (hnet.trans hsame.symm) (hstays old hgone)
      exact hrecorded.rows op hguarded row hold howner hnet
    · rw [net_row] at hnet
      rw [← eq_of_desired (hfresh op' hop').1 (hmem op hop) hnet]
      exact matches_entry op' _

/-- Nothing on record. -/
theorem recorded_of_nil (h : w.guarded = []) : Recorded w := by
  constructor <;> simp [h]

/-- A machine that has lost rows, or has got rows that are not the guard's. -/
theorem Recorded.of_rows (h : Recorded w) (hguarded : w'.guarded = w.guarded)
    (hrows : ∀ row ∈ w'.table, row.owner = some .tailscale → row ∈ w.table) : Recorded w' where
  routes := hguarded ▸ h.routes
  nets := hguarded ▸ h.nets
  rows op hop row hrow howner hnet :=
    h.rows op (hguarded ▸ hop) row (hrows row hrow howner) howner hnet

theorem recorded_cleared {gone : List RouteOp} (h : Recorded w) (hcleared : Cleared gone w w') :
    Recorded w' :=
  h.of_rows hcleared.guarded fun row hrow _ => ((hcleared.rows row).mp hrow).1

/-- Each request of the guard keeps its memory right, whatever is refused in it. -/
theorem wp_runGuard (request : GuardRequest) (h : Recorded w) :
    wp Any (runGuard request) (fun _ => Recorded) (fun _ => Recorded) (fun _ => True)
      w := by
  have hsame : ∀ w w' : Machine, w'.table = w.table → w'.guarded = w.guarded →
      Recorded w → Recorded w' := by
    intro w w' htable hguarded hrec
    exact hrec.of_rows hguarded fun row hrow _ => htable ▸ hrow
  cases request with
  | protect call =>
    refine wp_mono (wp_protect call) ?_ ?_ (fun _ _ => trivial)
    · rintro _ w' ⟨call', -, happlied⟩
      exact happlied.recorded h
    · rintro _ w' ⟨-, rfl | ⟨call', happlied⟩⟩
      · exact h
      · exact happlied.recorded h
  | release =>
    apply wp_read
    apply wp_bind
    refine wp_mono (wp_removeRoutes_cleared w.guarded) ?_ (fun _ _ hf => hf.elim)
      (fun _ _ => trivial)
    rintro _ w₁ ⟨gone, -, -, hcleared⟩
    apply wp_write
    exact wp_mono (wp_guardSave hsame (recorded_of_nil rfl)) (fun _ _ hr => hr)
      (fun _ _ he => he.2) (fun _ _ => trivial)
  | recover =>
    apply wp_bind
    apply wp_reading
    · exact trivial
    · exact fun _ => h
    · intro found hfound
      cases hfound
      cases w.journal .tailscale with
      | none => exact wp_pure h
      | some record =>
        apply wp_bind
        refine wp_mono (wp_removeRoutes_cleared record.routes) ?_ (fun _ _ hf => hf.elim)
          (fun _ _ => trivial)
        rintro _ w₁ ⟨gone, -, -, hcleared⟩
        have hrecorded := recorded_cleared h hcleared
        apply wp_tried
        apply wp_command trivial
        · exact fun _ => wp_write (wp_throw (hsame w₁ _ rfl rfl hrecorded))
        · exact wp_pure (hsame w₁ _ rfl rfl hrecorded)
    · intro e he
      cases he

/-- The memory of the guard is right in every machine that is reached. -/
theorem Reached.recorded (h : Reached w) : Recorded w := by
  induction h with
  | start h => exact recorded_of_nil h
  | @request w h request gone vs ih =>
    have hrun : wp Any (Call.restarting (Machine.restarted gone) (runGuard request))
        (fun _ => Recorded) (fun _ => Recorded) (fun _ => False) w :=
      wp_restarting (wp_mono (wp_runGuard request ih) (fun _ _ hr => hr) (fun _ _ hr => hr)
        fun v _ => recorded_of_nil rfl)
    have hend := hrun vs fun _ _ => trivial
    generalize Call.restarting (Machine.restarted gone) (runGuard request) w vs = r at hend
    obtain ⟨outcome, w', vs'⟩ := r
    cases outcome with
    | ok _ => exact hend.2
    | err e => exact hend.2
    | crash => exact hend.elim
  | others h hguarded hrows ih => exact ih.of_rows hguarded hrows

end

end NetOrchestrator.Macos
