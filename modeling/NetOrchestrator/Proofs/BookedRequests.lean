import NetOrchestrator.Proofs.Bookkeeping

/-!
# `Proofs.BookedRequests`: the books over a whole request

Each program of the three executors, from its teardown to its connect, for any `Bookkeeping`. A
failing connect ends with nothing in hand, a successful one with a session whose record is what it
has in hand. The one exception is an OpenVPN connect that gives up without cleaning up, which
`supervised` is about.
-/

namespace NetOrchestrator.Macos

open Net Lib Lib.Call List Verdict

/-- However `m` ends, the books are in order. -/
def Booked {α : Type} (idle cut : Machine → Prop) (m : HelperProg α) (w : Machine) : Prop :=
  wp Verdict.Any m (fun _ => idle) (fun _ => idle) cut w

theorem handed_put {σ : Type} (seat : Seat σ) (w : Machine) (s : Option σ) :
    Handed (.tunnel seat.kind) w (seat.put w s) := by
  refine ⟨?_, ?_, ?_, seat.others w s, ?_, ?_, ?_, ?_, ?_, ?_, ?_⟩
  all_goals rw [seat.frame]

/-- An engine that stops leaves its session's record as it is. -/
theorem booksSame_endEngine (w : Machine) : BooksSame w w.endEngine := by
  refine ⟨⟨fun _ => false, w.table.drop_none.symm⟩, rfl, rfl, ?_, rfl, rfl, rfl, id, id, rfl, rfl⟩
  funext who
  cases who with
  | tailscale => rfl
  | tunnel kind =>
    cases kind with
    | xray => rfl
    | openVpn => rfl
    | wireGuard =>
      show Option.map _ (Option.map _ w.wireGuard) = Option.map _ w.wireGuard
      cases w.wireGuard <;> rfl

/-- An OpenVPN session is in hand. -/
abbrev Held (hand : Holding) (active : OpenVpnActive) (w : Machine) : Prop :=
  hand ovpnTunnel active.record.routes active.record.routes active.record.resolverDomains [] w

namespace Bookkeeping
variable {idle cut : Machine → Prop} {hand : Holding} (b : Bookkeeping idle cut hand)
  {own cover : List RouteOp} {filed : List String} {w : Machine}

include b

section
variable {α β : Type} {m : HelperProg α} {f : α → HelperProg β} (hm : Preserves BooksSame m)
include hm

/-- A step that leaves the books alone, with nothing in hand. -/
theorem booked_bind_idle (hw : idle w) (hf : ∀ a v, idle v → Booked idle cut (f a) v) :
    Booked idle cut (m >>= f) w := by
  apply wp_bind
  exact hm.wp b.idle_same hw hf (fun _ _ hi => hi) (fun _ hi => b.idle_cut hi)

/-- The same with routes that may be deleted but need not be. -/
theorem booked_bind_free {kind : Kind} (hw : hand (.tunnel kind) own [] [] filed w)
    (hf : ∀ a v, hand (.tunnel kind) own [] [] filed v → Booked idle cut (f a) v) :
    Booked idle cut (m >>= f) w := by
  apply wp_bind
  exact wp_ends (b.free hm w hw) hf (fun _ _ hh => b.done hh)

end

/-- The same for a step that reports no error, whatever is in hand. -/
theorem booked_bind_quiet {α β : Type} {who : Component} {domains : List String}
    {m : HelperProg α} {f : α → HelperProg β} (hm : Quietly BooksSame m)
    (hw : hand who own cover domains filed w)
    (hf : ∀ a v, hand who own cover domains filed v → Booked idle cut (f a) v) :
    Booked idle cut (m >>= f) w := by
  apply wp_bind
  exact wp_sure (b.quiet hm hw) hf

theorem wp_take {σ : Type} (seat : Seat σ) (expected : Machine → σ → Bool) (h : idle w) :
    wp Any (seat.take expected)
      (fun taken w' => taken = (seat.get w).filter (expected w) ∧ match taken with
        | none => idle w'
        | some active => hand (.tunnel seat.kind) (seat.record active).routes
            (seat.record active).routes (seat.record active).resolverDomains [] w')
      (fun _ _ => False) cut w := by
  apply Seat.wp_take
  · exact fun hnone => ⟨hnone.symm, h⟩
  · intro active htaken hsession
    refine ⟨htaken.symm, b.take h hsession (handed_put seat w none) ?_⟩
    rw [seat.recorded, seat.get_put]
    rfl

/-- What goes on with the session that was taken. -/
theorem booked_taken {σ α : Type} (seat : Seat σ) {expected : Machine → σ → Bool}
    {next : Option σ → HelperProg α} (hnone : ∀ v, idle v → Booked idle cut (next none) v)
    (hsome : ∀ active v, hand (.tunnel seat.kind) (seat.record active).routes
        (seat.record active).routes (seat.record active).resolverDomains [] v →
      Booked idle cut (next (some active)) v) (h : idle w) :
    Booked idle cut (seat.take expected >>= next) w := by
  apply wp_after (b.wp_take seat expected h)
  rintro taken v ⟨_, hv⟩
  cases taken with
  | none => exact hnone v hv
  | some active => exact hsome active v hv

/-! ### The Xray executor -/

section
variable {record : Record} {pid : Nat} {env : XraySurroundings} {request : XrayRequest}
    {planned : List RouteOp}

theorem wp_xrayTeardown {active : XrayActive} {domains : List String}
    (h : hand xrayTunnel active.record.routes active.record.routes domains filed w) :
    wp Any (xrayTeardown active) (fun _ => hand xrayTunnel active.record.routes [] [] [])
      (fun _ => hand xrayTunnel active.record.routes [] [] []) cut w := by
  apply wp_after (b.quiet (trimmed_stopChild active.pid) h)
  intro _ v hv
  apply b.wp_undoRecord ?_ hv
  intro u hu
  exact b.quiet ((trimmed_closeDevice active.tun).bind fun _ => aside_clearAssets) (b.noFiles hu)

theorem booked_xrayEnd {expected : Machine → XrayActive → Bool} (h : idle w) :
    Booked idle cut (xrayTake expected >>= xrayEnd) w := by
  refine b.booked_taken xraySeat (fun _ hv => wp_pure hv) ?_ h
  intro _ _ hv
  apply wp_discard
  apply wp_attempt
  exact wp_ends (b.wp_xrayTeardown hv) (fun _ _ hh => b.done hh) (fun _ _ hh => b.done hh)

theorem booked_xrayDisconnect (uid : Nat) (profileId : String) (h : idle w) :
    Booked idle cut (xrayDisconnect uid profileId) w := by
  refine b.booked_taken xraySeat (fun _ hv => wp_pure hv) ?_ h
  intro _ _ hv
  apply wp_bind
  apply wp_orElse
  exact wp_ends (b.wp_xrayTeardown hv) (fun _ _ hh => wp_pure (b.done hh)) (fun _ _ hh => b.done hh)

theorem wp_xrayRecoverLocked (h : idle w) (hidle : w.sessionRecord xrayTunnel = none) :
    wp Any xrayRecoverLocked (fun _ => hand xrayTunnel [] [] [] []) (fun _ => idle) cut w :=
  b.wp_recoverLocked (trimmed_killLeftover .xray) (fun _ _ hv => wp_pure (b.noFiles hv)) h hidle

theorem booked_xrayRecover (h : idle w) : Booked idle cut xrayRecover w := by
  apply wp_read
  cases hactive : w.xray with
  | some active => exact wp_pure h
  | none =>
    exact wp_post (b.wp_xrayRecoverLocked h (by simp [Machine.sessionRecord, hactive]))
      (fun _ _ hh => b.done hh)

section
variable (h : hand xrayTunnel own cover [] filed w) (hroutes : record.routes ⊆ own)
  (hcover : cover ⊆ record.routes)
include h hroutes hcover

variable {dnsTouched : Bool}

theorem wp_xrayRollback :
    wp Any (xrayRollback record dnsTouched) (fun _ => hand xrayTunnel own [] [] [])
      (fun _ _ => False) cut w := by
  have hend : ∀ v, hand xrayTunnel own [] [] filed v →
      wp Any (do clearAssets; tryClear xrayTunnel) (fun _ => hand xrayTunnel own [] [] [])
        (fun _ _ => False) cut v := by
    intro v hv
    apply wp_bind
    exact wp_sure (b.quiet aside_clearAssets hv) (fun _ u hu => b.wp_tryClear hu)
  apply wp_after (b.wp_removeOwn h hroutes hcover)
  intro _ v hv
  split
  · apply wp_bind
    exact wp_sure (b.quiet (moved_tryRestore _) hv) (fun _ u hu => hend u hu)
  · exact hend v hv

theorem booked_xrayFail {tun : String} {error : TunnelError} :
    Booked idle cut (xrayFail pid tun record dnsTouched error) w := by
  apply b.booked_bind_quiet (trimmed_stopChild pid) h
  intro _ v hv
  apply wp_after (b.wp_xrayRollback hv hroutes hcover)
  intro _ u hu
  apply b.booked_bind_quiet (trimmed_closeDevice tun) hu
  exact fun _ _ hx => wp_throw (b.done hx)

theorem booked_xrayStart : Booked idle cut (xrayStart env request record pid) w :=
  wp_modify (b.start h hroutes hcover (nil_subset _) (handed_put xraySeat w _) rfl)

theorem booked_xrayDns : Booked idle cut (xrayDns env request record pid) w := by
  unfold xrayDns
  split
  · exact b.booked_xrayStart h hroutes hcover
  · refine wp_either (b.free (moved_setDns _) w h) ?_ ?_
    · exact fun _ _ hv => b.booked_xrayStart hv hroutes hcover
    · exact fun _ _ hv => b.booked_xrayFail hv hroutes hcover

end

section
variable (h : hand xrayTunnel own [] [] filed w)
include h

theorem booked_xrayRoutes : Booked idle cut (xrayRoutes env request planned record pid) w := by
  refine wp_either (b.wp_applyRoutes h) ?_ ?_
  · intro installed v hv
    show Booked idle cut (if _ then _ else _) v
    split
    · rename_i hnone
      rw [hnone.2] at hv
      exact b.booked_xrayFail hv (nil_subset _) (List.Subset.refl _)
    · have hroutes : installed ⊆ own ++ installed := subset_append_right _ _
      refine wp_either (b.wp_saveJournal hv hroutes (List.Subset.refl _) (nil_subset _)) ?_ ?_
      · exact fun _ _ hu => b.booked_xrayDns hu hroutes (List.Subset.refl _)
      · exact fun _ _ hu => b.booked_xrayFail hu hroutes (List.Subset.refl _)
  · intro e v hv
    exact b.booked_xrayFail hv (nil_subset _) (List.Subset.refl _)

theorem booked_xrayCutOver (hroutes : record.routes ⊆ own) :
    Booked idle cut (xrayCutOver env request planned record pid) w := by
  refine wp_either (b.wp_saveJournal h hroutes (nil_subset _) (nil_subset _)) ?_
    (fun _ _ hv => b.booked_xrayFail hv hroutes (nil_subset _))
  intro _ v hv
  apply b.booked_bind_free (trimmed_settle _ _).preserves hv
  intro _ u hu
  apply b.booked_bind_free (.gets _) hu
  intro alive x hx
  show Booked idle cut (if _ then _ else _) x
  split
  · exact b.booked_xrayFail hx hroutes (nil_subset _)
  · exact b.booked_xrayRoutes hx

theorem booked_xrayLaunch {snapshot : Option (List IpAddr)} (hroutes : record.routes ⊆ own) :
    Booked idle cut (xrayLaunch env request planned snapshot record) w := by
  apply b.booked_bind_free (aside_spawnChild _ _).attempt h
  intro answer v hv
  cases answer with
  | ok pid => exact b.booked_xrayCutOver hv hroutes
  | error _ =>
    apply wp_after (b.wp_xrayRollback hv hroutes (nil_subset _))
    intro _ u hu
    apply b.booked_bind_quiet (trimmed_closeDevice env.tun) hu
    exact fun _ _ hx => wp_throw (b.done hx)

end

/-- A rollback before there are any routes. -/
theorem wp_freshRollback (profileId interface : String) (h : hand xrayTunnel [] [] [] filed w) :
    wp Any (xrayRollback (Record.fresh profileId interface) false)
      (fun _ => hand xrayTunnel [] [] [] []) (fun _ _ => False) cut w :=
  b.wp_xrayRollback h (List.Subset.refl _) (List.Subset.refl _)

theorem wp_xrayAssets (env : XraySurroundings) (request : XrayRequest)
    (profileId interface : String) (h : hand xrayTunnel [] [] [] filed w) :
    wp Any (xrayAssets env request (Record.fresh profileId interface))
      (fun _ => hand xrayTunnel [] [] [] []) (fun _ => idle) cut w := by
  unfold xrayAssets
  split
  · exact wp_pure (b.unfile h)
  · split
    · apply wp_bind
      exact wp_sure (b.wp_freshRollback profileId interface h) (fun _ _ hh => wp_throw (b.done hh))
    · apply wp_orUndo
      refine wp_ends (b.free (aside_stageGeo _) w h)
        (fun _ _ hh => b.unfile hh) ?_
      exact fun _ _ hv => wp_sure (b.wp_freshRollback profileId interface hv)
        (fun _ _ hh => b.done hh)

variable {networks : List IpNet}

theorem booked_xrayBringUp {uplink : Uplink} {snapshot : Option (List IpAddr)}
    (h : hand xrayTunnel [] [] [] filed w) :
    Booked idle cut (xrayBringUp env request uplink networks snapshot) w := by
  apply wp_then (b.wp_xrayAssets env request _ _ h)
  intro _ v hv
  apply wp_bind
  apply wp_orUndo
  refine wp_ends (b.free (aside_openDevice _ _) v hv) ?_ ?_
  · intro _ u hu
    apply b.booked_bind_free (aside_reachGateway _) hu
    intro _ x hx
    apply wp_write
    exact b.booked_xrayLaunch (b.plan _ hx) (subset_append_right _ _)
  · intro _ u hu
    exact wp_sure (b.wp_freshRollback _ _ hu) (fun _ _ hh => b.done hh)

theorem booked_xrayProceed (h : idle w) (hidle : w.sessionRecord xrayTunnel = none) :
    Booked idle cut (xrayProceed env request networks) w := by
  apply wp_bind
  apply wp_orElse
  refine wp_post (b.wp_xrayRecoverLocked h hidle) ?_
  intro _ v hv
  apply b.booked_bind_free (aside_reading _) hv
  intro _ u hu
  apply b.booked_bind_free (aside_detectUplink _ _) hu
  intro uplink x hx
  apply b.booked_bind_free (moved_xraySnapshot _ _).preserves hx
  intro taken y hy
  show Booked idle cut (if _ then _ else _) y
  split
  · exact wp_throw (b.done hy)
  · apply wp_bind
    apply wp_orElse
    refine wp_ends (b.wp_saveJournal hy (nil_subset _) (List.Subset.refl _)
      (nil_subset _)) ?_ (fun _ _ hh => b.done hh)
    exact fun _ _ hz => b.booked_xrayBringUp hz

theorem booked_xrayConnect (env : XraySurroundings) (request : XrayRequest) (h : idle w) :
    Booked idle cut (xrayConnect env request) w := by
  apply b.booked_bind_idle (aside_xrayCheck request) h
  intro networks v hv
  apply wp_then (b.booked_xrayEnd hv)
  intro _ u hu
  apply wp_read
  cases hactive : u.xray with
  | some active => exact wp_throw hu
  | none => exact b.booked_xrayProceed hu (by simp [Machine.sessionRecord, hactive])

end

/-! ### The WireGuard executor -/

section
variable {record : Record} {env : WgSurroundings} {request : WgRequest} {config : WgConfig}
    {networks : List IpNet} {planned : List RouteOp}

theorem wp_wgTeardown {active : WireGuardActive}
    (h : hand wgTunnel active.record.routes active.record.routes active.record.resolverDomains
      filed w) : wp Any (wgTeardown active) (fun _ => hand wgTunnel active.record.routes [] [] [])
      (fun _ => hand wgTunnel active.record.routes [] [] []) cut w := by
  apply b.wp_undoRecord ?_ h
  intro u hu
  apply wp_then (b.wp_resolverRemove [] hu fun _ hd => .inl hd)
  exact fun _ _ hx => b.quiet (trimmed_closeDevice active.tun) hx

theorem booked_wgEnd {expected : WireGuardActive → Bool} (h : idle w) :
    Booked idle cut (wgTake expected >>= wgEnd) w := by
  refine b.booked_taken wgSeat (fun _ hv => wp_pure hv) ?_ h
  intro _ _ hv
  apply wp_discard
  apply wp_attempt
  exact wp_ends (b.wp_wgTeardown hv) (fun _ _ hh => b.done hh) (fun _ _ hh => b.done hh)

theorem booked_wgDisconnect (uid : Nat) (profileId : String) (h : idle w) :
    Booked idle cut (wgDisconnect uid profileId) w := by
  refine b.booked_taken wgSeat (fun _ hv => wp_pure hv) ?_ h
  intro _ _ hv
  apply wp_bind
  apply wp_orElse
  exact wp_ends (b.wp_wgTeardown hv) (fun _ _ hh => wp_pure (b.done hh)) (fun _ _ hh => b.done hh)

theorem wp_wgRecoverLocked (h : idle w) (hidle : w.sessionRecord wgTunnel = none) :
    wp Any wgRecoverLocked (fun _ => hand wgTunnel [] [] [] []) (fun _ => idle) cut w :=
  b.wp_recoverLocked (fun _ => .pure ())
    (fun _ _ hv => b.wp_resolverRemove [] hv fun _ hd => .inl hd) h hidle

theorem booked_wgRecover (h : idle w) : Booked idle cut wgRecover w := by
  apply wp_read
  cases hactive : w.wireGuard with
  | some active => exact wp_pure h
  | none =>
    exact wp_post (b.wp_wgRecoverLocked h (by simp [Machine.sessionRecord, hactive]))
      (fun _ _ hh => b.done hh)

section
variable (h : hand wgTunnel own cover [] filed w) (hroutes : record.routes ⊆ own)
  (hcover : cover ⊆ record.routes)
include h hroutes hcover

theorem wp_wgRollback :
    wp Any (wgRollback record) (fun _ => hand wgTunnel own [] [] []) (fun _ _ => False)
      cut w := by
  apply wp_bind
  exact wp_sure (b.wp_removeOwn h hroutes hcover) (fun _ v hv => b.wp_tryClear hv)

theorem booked_wgFail {tun : String} {error : TunnelError} :
    Booked idle cut (wgFail tun record error) w := by
  apply wp_after (b.wp_wgRollback h hroutes hcover)
  intro _ u hu
  apply b.booked_bind_quiet (trimmed_closeDevice tun) hu
  exact fun _ _ hx => wp_throw (b.done hx)

end

theorem booked_wgStart {domains : List String} (h : hand wgTunnel own cover domains filed w)
    (hroutes : record.routes ⊆ own) (hcover : cover ⊆ record.routes)
    (hdomains : domains ⊆ record.resolverDomains) :
    Booked idle cut (wgStart env request record) w :=
  wp_modify (b.start h hroutes hcover hdomains (handed_put wgSeat w _) rfl)

section
variable (h : hand wgTunnel own cover [] record.resolverDomains w) (hroutes : record.routes ⊆ own)
  (hcover : cover ⊆ record.routes)
  (hlower : ∀ name ∈ record.resolverDomains, name.toLower ∈ record.resolverDomains)
include h hroutes hcover hlower

/-- The files are on record before they are written. -/
theorem booked_wgResolvers : Booked idle cut (wgResolvers env request config record) w := by
  unfold wgResolvers
  split
  · exact b.booked_wgStart h hroutes hcover (nil_subset _)
  · have hfiles := b.adjust (List.Subset.refl own) (List.Subset.refl cover)
      (nil_subset record.resolverDomains) (List.Subset.refl _) h
    have hstart : ∀ v, hand wgTunnel own cover record.resolverDomains record.resolverDomains v →
        Booked idle cut (do trySave wgTunnel record; wgStart env request record) v := by
      intro v hv
      apply wp_bind
      exact wp_sure (b.wp_trySave hv hroutes hcover (List.Subset.refl _))
        (fun _ _ hu => b.booked_wgStart hu hroutes hcover (List.Subset.refl _))
    exact wp_either (b.keeps_resolverApply (by decide) hlower (List.Subset.refl _) w hfiles)
      (fun _ v hv => hstart v hv) (fun _ v hv => hstart v hv)

theorem booked_wgDns : Booked idle cut (wgDns env request config record) w := by
  unfold wgDns
  split
  · exact b.booked_wgResolvers h hroutes hcover hlower
  · refine wp_either (b.free (moved_setDns _) w h) ?_ ?_
    · exact fun _ _ hv => b.booked_wgResolvers hv hroutes hcover hlower
    · intro _ v hv
      apply b.booked_bind_quiet (moved_tryRestore _) hv
      intro _ u hu
      apply wp_bind
      exact wp_sure (b.wp_trySave hu hroutes hcover (nil_subset _))
        (fun _ _ hx => b.booked_wgResolvers hx hroutes hcover hlower)

end

theorem booked_wgRoutes (h : hand wgTunnel own [] [] record.resolverDomains w)
    (hlower : ∀ name ∈ record.resolverDomains, name.toLower ∈ record.resolverDomains) :
    Booked idle cut (wgRoutes env request config planned record) w := by
  refine wp_either (b.wp_applyRoutes h) ?_ ?_
  · intro installed v hv
    show Booked idle cut (if _ then _ else _) v
    split
    · rename_i hnone
      rw [hnone.2] at hv
      exact b.booked_wgFail hv (nil_subset _) (List.Subset.refl _)
    · have hroutes : installed ⊆ own ++ installed := subset_append_right _ _
      apply wp_bind
      exact wp_sure (b.wp_trySave hv hroutes (List.Subset.refl _) (nil_subset _))
        (fun _ _ hu => b.booked_wgDns hu hroutes (List.Subset.refl _) hlower)
  · intro e v hv
    exact b.booked_wgFail hv (nil_subset _) (List.Subset.refl _)

theorem booked_wgEngine (h : hand wgTunnel own [] [] filed w) (hroutes : record.routes ⊆ own)
    (hlower : ∀ name ∈ record.resolverDomains, name.toLower ∈ record.resolverDomains) :
    Booked idle cut (wgEngine env request config planned record) w := by
  refine wp_either (b.wp_saveJournal h hroutes (nil_subset _) (nil_subset _)) ?_
    (fun _ _ hv => b.booked_wgFail hv hroutes (nil_subset _))
  intro _ v hv
  exact wp_either (b.free (aside_reading _) v hv)
    (fun _ _ hu => b.booked_wgRoutes hu hlower)
    (fun _ _ hu => b.booked_wgFail hu hroutes (nil_subset _))

theorem booked_wgBringUp (h : hand wgTunnel [] [] [] filed w) :
    Booked idle cut (wgBringUp env request config networks) w := by
  apply wp_write
  apply b.booked_bind_free (moved_wgSnapshot _ _ _).preserves (b.plan _ h)
  intro taken v hv
  exact b.booked_wgEngine hv (subset_append_right _ _) (toLower_mem_wgDomains request config)

theorem booked_wgDevice (h : hand wgTunnel [] [] [] filed w) :
    Booked idle cut (wgDevice env request config networks) w := by
  apply wp_bind
  apply wp_orUndo
  refine wp_ends (b.free (aside_openDevice _ _) w h) ?_ ?_
  · intro _ v hv
    apply b.booked_bind_free (aside_setAddresses _).attempt hv
    intro answer u hu
    cases answer with
    | error _ => exact b.booked_wgFail hu (nil_subset _) (List.Subset.refl _)
    | ok _ => exact b.booked_wgBringUp hu
  · intro _ v hv
    exact wp_sure (b.wp_wgRollback hv (nil_subset _) (List.Subset.refl _))
      (fun _ _ hh => b.done hh)

theorem booked_wgProceed (h : idle w) (hidle : w.sessionRecord wgTunnel = none) :
    Booked idle cut (wgProceed env request config networks) w := by
  apply wp_bind
  apply wp_orElse
  refine wp_post (b.wp_wgRecoverLocked h hidle) ?_
  intro _ v hv
  apply b.booked_bind_free (aside_detectUplink _ _) hv
  intro _ u hu
  apply b.booked_bind_free (aside_resolvePeers _ _) hu
  intro _ x hx
  apply wp_bind
  apply wp_orElse
  refine wp_ends (b.wp_saveJournal hx (nil_subset _) (List.Subset.refl _)
    (nil_subset _)) ?_ (fun _ _ hh => b.done hh)
  exact fun _ _ hy => b.booked_wgDevice hy

theorem booked_wgConnect (env : WgSurroundings) (request : WgRequest) (h : idle w) :
    Booked idle cut (wgConnect env request) w := by
  apply b.booked_bind_idle (aside_wgCheck request) h
  rintro ⟨config, networks⟩ v hv
  apply wp_then (b.booked_wgEnd hv)
  intro _ u hu
  apply wp_read
  cases hactive : u.wireGuard with
  | some active => exact wp_throw hu
  | none => exact b.booked_wgProceed hu (by simp [Machine.sessionRecord, hactive])

end

/-! ### The OpenVPN executor -/

section
variable {active : OpenVpnActive} {service : Bool} {servers : List IpAddr} {networks : List IpNet}
    {routes : List RouteOp} {env : OpenVpnSurroundings} {pid : Nat} {request : OpenVpnRequest}
    {uplink : Uplink} {record : Record}

theorem wp_ovpnTeardown (h : Held hand active w) :
    wp Any (ovpnTeardown active) (fun _ => hand ovpnTunnel active.record.routes [] [] [])
      (fun _ _ => False) cut w := by
  apply wp_after (b.quiet (trimmed_stopChild active.pid) h)
  intro _ v hv
  apply wp_discard
  apply wp_attempt
  apply b.wp_undoRecord ?_ hv
  intro u hu
  apply wp_then (b.wp_resolverRemove [] hu fun _ hd => .inl hd)
  exact fun _ _ hx => b.quiet (aside_removeStage active.stage) hx

theorem booked_ovpnEnd {expected : Machine → OpenVpnActive → Bool} (h : idle w) :
    Booked idle cut (ovpnTake expected >>= ovpnEnd) w := by
  refine b.booked_taken ovpnSeat (fun _ hv => wp_pure hv) ?_ h
  exact fun _ _ hv => wp_sure (b.wp_ovpnTeardown hv) (fun _ _ hh => b.done hh)

theorem booked_ovpnDisconnect (uid : Nat) (profileId : String) (h : idle w) :
    Booked idle cut (ovpnDisconnect uid profileId) w := by
  refine b.booked_taken ovpnSeat (fun _ hv => wp_bind (wp_pure (wp_pure hv))) ?_ h
  exact fun _ _ hv => wp_after (b.wp_ovpnTeardown hv) (fun _ _ hh => wp_pure (b.done hh))

theorem wp_ovpnRecoverLocked (h : idle w) (hidle : w.sessionRecord ovpnTunnel = none) :
    wp Any ovpnRecoverLocked (fun _ => hand ovpnTunnel [] [] [] []) (fun _ => idle) cut
      w := by
  apply b.wp_recoverLocked (trimmed_killLeftover .openVpn) ?_ h hidle
  intro record v hv
  apply wp_then (b.wp_resolverRemove [] hv fun _ hd => .inl hd)
  exact fun _ _ hx => b.quiet aside_removeStages hx

theorem booked_ovpnRecover (h : idle w) : Booked idle cut ovpnRecover w := by
  apply wp_read
  cases hactive : w.openVpn with
  | some active => exact wp_pure h
  | none =>
    exact wp_post (b.wp_ovpnRecoverLocked h (by simp [Machine.sessionRecord, hactive]))
      (fun _ _ hh => b.done hh)

/-- The DNS of a primary. The record that is saved has the same routes and files. -/
theorem wp_ovpnSystemDns (h : Held hand active w) : wp Any (ovpnSystemDns active service servers)
      (fun after => Held hand after) (fun _ _ => False) cut w := by
  apply wp_after (b.quiet (moved_ovpnSnapshot active service) h)
  intro taken v hv
  cases taken with
  | none => exact wp_pure hv
  | some snapshot =>
    have hsave : wp Any (saveSnapshot (active.setDns (some snapshot)).record)
        (fun _ => Held hand active) (fun _ _ => False) cut v := by
      refine wp_either (b.wp_saveJournal hv (List.Subset.refl _) (List.Subset.refl _)
        (List.Subset.refl _)) (fun _ _ hh => wp_pure (b.unfile hh)) ?_
      exact fun _ u hu => wp_modify (b.hand_same u _ (Coarser.le (dnsMoved u _ _ _ id)) (b.unfile hu))
    apply wp_after hsave
    intro _ u hu
    refine wp_either (b.free (moved_setDns servers) u hu) (fun _ _ hh => wp_pure hh) ?_
    intro _ x hx
    apply wp_bind
    exact wp_sure (b.quiet (moved_tryRestore snapshot) hx) (fun _ _ hh => wp_pure hh)

/-- Split DNS: the old files go, and the new ones are on record before they are written. -/
theorem wp_ovpnSplitDns (h : Held hand active w) : wp Any (ovpnSplitDns active servers)
      (fun after => Held hand after) (fun _ _ => False) cut w := by
  apply wp_after (b.wp_resolverRemove [] h fun _ hd => .inl hd)
  intro _ v hv
  refine wp_after (b.wp_trySave hv (List.Subset.refl _) (List.Subset.refl _) (nil_subset _)) ?_
  intro _ u hu
  have hfiles := b.adjust (List.Subset.refl _) (List.Subset.refl _)
    (nil_subset (splitDomains active.dnsDomains)) (List.Subset.refl _) hu
  exact wp_either (b.keeps_resolverApply (by decide) (toLower_mem_splitDomains _)
    (List.Subset.refl _) u hfiles)
    (fun _ _ hh => wp_pure (b.unfile hh)) (fun _ _ hh => wp_pure (b.unfile hh))

theorem wp_ovpnDns (h : Held hand active w) : wp Any (ovpnDns active service servers)
      (fun after => Held hand after) (fun _ _ => False) cut w := by
  unfold ovpnDns
  cases active.role with
  | secondary => exact b.wp_ovpnSplitDns h
  | primary =>
    show wp Any (if _ then _ else _) _ _ _ w
    split
    · exact wp_pure h
    · exact b.wp_ovpnSystemDns h

theorem wp_ovpnInstall (h : Held hand active w) :
    wp Any (ovpnInstall active service networks servers)
      (fun after => Held hand after.1) (fun _ _ => False) cut w := by
  apply wp_after (b.wp_removeOwn h (List.Subset.refl _) (List.Subset.refl _))
  intro _ v hv
  apply wp_write
  have hplanned := b.plan (bypassOps active.uplink active.remotes ++
    interfaceRoutes active.tun networks) hv
  refine wp_after (b.wp_trySave hplanned (subset_append_right _ _) (nil_subset _)
    (List.Subset.refl _)) ?_
  intro _ u hu
  refine wp_either (b.wp_applyRoutes hu) ?_ ?_
  · intro installed x hx
    have hnow := b.adjust (subset_append_right _ _) (List.Subset.refl _)
      (List.Subset.refl _) (nil_subset _) hx
    apply wp_after (b.wp_ovpnDns hnow)
    intro after y hy
    apply wp_bind
    exact wp_sure (b.wp_trySave hy (List.Subset.refl _) (List.Subset.refl _)
      (List.Subset.refl _)) (fun _ _ hh => wp_pure (b.unfile hh))
  · intro e x hx
    have hnone := b.adjust (nil_subset _) (List.Subset.refl _) (List.Subset.refl _)
      (nil_subset _) hx
    apply wp_bind
    exact wp_sure (b.wp_trySave hnone (nil_subset _) (List.Subset.refl _)
      (List.Subset.refl _)) (fun _ _ hh => wp_pure (b.unfile hh))

theorem wp_applyNetwork (h : Held hand active w) : wp Any (applyNetwork active service)
      (fun after => Held hand after.1) (fun _ _ => False) cut w := by
  unfold applyNetwork
  split
  · exact wp_pure h
  · split
    · exact wp_pure h
    · exact b.wp_ovpnInstall h

theorem booked_ovpnSettle {ended : Bool}
    (h : Held hand active w) : Booked idle cut (ovpnSettle active ended) w := by
  cases ended with
  | true => exact wp_sure (b.wp_ovpnTeardown h) (fun _ _ hh => b.done hh)
  | false =>
    exact wp_modify (b.start h (List.Subset.refl _) (List.Subset.refl _) (List.Subset.refl _)
      (handed_put ovpnSeat w _) rfl)

theorem booked_ovpnReact
    (h : Held hand active w) : Booked idle cut (ovpnReact active service) w := by
  unfold ovpnReact
  split
  · apply wp_after (b.wp_applyNetwork h)
    exact fun _ _ hv => b.booked_ovpnSettle hv
  · exact b.booked_ovpnSettle h

/-- The events change nothing of the record. -/
theorem wp_foldEvents {failed : Bool} {events : List Daemon.ManagementEvent}
    (h : Held hand active w) : wp Any (foldEvents active failed events)
      (fun after => Held hand after.1) (fun _ _ => False) cut w := by
  induction events generalizing active failed w with
  | nil => exact wp_pure h
  | cons event rest ih =>
    have hplain : wp Any
        (foldEvents { active with snapshot := active.snapshot.apply event } failed rest)
        (fun after => Held hand after.1) (fun _ _ => False) cut w := ih h
    cases event with
    | passwordPrompt =>
      exact wp_either (b.free (aside_reading _) w h) (fun _ _ hh => ih hh)
        (fun _ _ hh => ih hh)
    | _ => exact hplain

theorem booked_handleEvents (profileId : String) (events : List Daemon.ManagementEvent)
    (remote : Option IpAddr) (service : Bool) (h : idle w) :
    Booked idle cut (handleEvents profileId events remote service) w := by
  apply wp_after (b.wp_take ovpnSeat _ h)
  rintro taken v ⟨_, hv⟩
  cases taken with
  | none => exact wp_pure hv
  | some active =>
    have hlearned : (active.learnRemote remote).record = active.record := by
      unfold OpenVpnActive.learnRemote
      split
      · rfl
      · split <;> rfl
    refine wp_after (b.wp_foldEvents ?_) ?_
    · unfold Held
      rw [hlearned]
      exact hv
    · rintro ⟨after, failed⟩ u hu
      show Booked idle cut (if _ then _ else _) u
      split
      · exact b.booked_ovpnSettle hu
      · exact b.booked_ovpnReact hu

section
variable (h : hand ovpnTunnel routes routes [] filed w)
include h

theorem wp_ovpnCleanup {stage : Option String} :
    wp Any (ovpnCleanup stage routes) (fun _ => hand ovpnTunnel routes [] [] [])
      (fun _ _ => False) cut w := by
  have hstages : Quietly BooksSame (forEach removeStage stage.toList) := by
    cases stage with
    | none => exact .pure ()
    | some stage => exact (aside_removeStage stage).bind fun _ => .pure ()
  apply wp_after (b.quiet hstages h)
  intro _ v hv
  apply wp_bind
  exact wp_sure (b.wp_removeOwn hv (List.Subset.refl _) (List.Subset.refl _))
    (fun _ u hu => b.wp_tryClear hu)

theorem booked_ovpnGiveUp {text : String} : Booked idle cut (ovpnGiveUp env routes pid text) w := by
  apply b.booked_bind_quiet (trimmed_stopChild pid) h
  intro _ v hv
  apply wp_bind
  exact wp_sure (b.wp_ovpnCleanup hv) (fun _ _ hh => wp_throw (b.done hh))

/-- A step of the supervision leaves everything where it is when it fails. -/
theorem wp_superviseStep {text : String} :
    wp Any (superviseStep text) (fun _ => hand ovpnTunnel routes routes [] filed)
      (fun _ => idle) cut w := by
  apply wp_tried
  apply wp_reading (b.hand_cut h)
  · intro _
    apply wp_write
    apply wp_throw
    have hsame : BooksSame w { w with supervised := false } :=
      ⟨⟨fun _ => false, w.table.drop_none.symm⟩, rfl, rfl, rfl, rfl, rfl, rfl, id,
        Bool.noConfusion, rfl, rfl⟩
    exact b.unsupervised (b.hand_same w _ hsame h) rfl
  · exact fun _ _ => wp_pure h
  · intro e he
    cases he

end

section
variable (h : hand ovpnTunnel record.routes record.routes [] filed w)
include h

theorem booked_ovpnSupervise :
    Booked idle cut (ovpnSupervise env request uplink networks record pid) w := by
  apply wp_then (b.wp_superviseStep h)
  intro _ v hv
  refine wp_either (b.free (aside_reading _) v hv) ?_
    (fun _ _ hu => b.booked_ovpnGiveUp hu)
  intro _ u hu
  apply wp_then (b.wp_superviseStep hu)
  exact fun _ x hx => wp_modify (b.start hx (List.Subset.refl _) (List.Subset.refl _)
    (nil_subset _) (handed_put ovpnSeat x _) rfl)

theorem booked_ovpnControl :
    Booked idle cut (ovpnControl env request uplink networks record pid) w := by
  apply wp_after (b.wp_trySave h (List.Subset.refl _) (List.Subset.refl _) (nil_subset _))
  intro _ v hv
  exact wp_either (b.free (aside_reading _) v hv)
    (fun _ _ hu => b.booked_ovpnSupervise hu) (fun _ _ hu => b.booked_ovpnGiveUp hu)

theorem booked_ovpnLaunch : Booked idle cut (ovpnLaunch env request uplink networks record) w := by
  refine wp_either (b.free (aside_spawnChild _ _) w h) ?_ ?_
  · exact fun pid _ hv => b.booked_ovpnControl hv
  · intro _ v hv
    apply wp_bind
    exact wp_sure (b.wp_ovpnCleanup hv) (fun _ _ hh => wp_throw (b.done hh))

end

theorem booked_ovpnBringUp (h : hand ovpnTunnel [] [] [] filed w) :
    Booked idle cut (ovpnBringUp env request uplink networks) w := by
  have hgo : ∀ (applied : Except TunnelError (List RouteOp)) (v : Machine),
      hand ovpnTunnel (applied.toOption.getD []) (applied.toOption.getD []) [] filed v →
      Booked idle cut (do
        let record := { Record.fresh request.profileId env.unit with
          routes := applied.toOption.getD [] }
        trySave ovpnTunnel record
        orUndo (ovpnCleanup none record.routes)
          (fun _ => .unavailable "The OpenVPN configuration could not be staged")
          (stageConfig env.stageable env.stage)
        ovpnLaunch env request uplink networks record) v := by
    intro applied v hv
    apply wp_after (b.wp_trySave hv (List.Subset.refl _) (List.Subset.refl _) (nil_subset _))
    intro _ u hu
    apply wp_bind
    apply wp_orUndo
    refine wp_ends (b.free (aside_stageConfig _ _) u hu) ?_ ?_
    · exact fun _ _ hx => b.booked_ovpnLaunch hx
    · exact fun _ _ hx => wp_sure (b.wp_ovpnCleanup hx) (fun _ _ hh => b.done hh)
  refine wp_either (b.wp_applyRoutes h) ?_ ?_
  · exact fun got v hv => hgo (.ok got) v hv
  · exact fun e v hv => hgo (.error e) v hv

theorem booked_ovpnProceed (h : idle w) (hidle : w.sessionRecord ovpnTunnel = none) :
    Booked idle cut (ovpnProceed env request networks) w := by
  apply wp_bind
  apply wp_orElse
  refine wp_post (b.wp_ovpnRecoverLocked h hidle) ?_
  intro _ v hv
  apply b.booked_bind_free (.ofExcept _) hv
  intro _ u hu
  apply b.booked_bind_free (aside_detectUplink _ _) hu
  intro uplink x hx
  apply b.booked_bind_free (preserves_orElse (aside_reading _)) hx
  intro _ y hy
  apply b.booked_bind_free (preserves_orElse (aside_reading _)) hy
  intro _ z hz
  apply wp_bind
  apply wp_orElse
  refine wp_ends (b.wp_saveJournal hz (nil_subset _) (List.Subset.refl _)
    (nil_subset _)) ?_ (fun _ _ hh => b.done hh)
  exact fun _ _ hs => b.booked_ovpnBringUp hs

theorem booked_ovpnConnect (env : OpenVpnSurroundings) (request : OpenVpnRequest) (h : idle w) :
    Booked idle cut (ovpnConnect env request) w := by
  apply b.booked_bind_idle (aside_ovpnCheck request) h
  intro networks v hv
  apply wp_then (b.booked_ovpnEnd hv)
  intro _ u hu
  apply wp_read
  cases hactive : u.openVpn with
  | none => exact b.booked_ovpnProceed hu (by simp [Machine.sessionRecord, hactive])
  | some active =>
    show Booked idle cut (if _ then _ else if _ then _ else _) u
    split
    · exact wp_throw hu
    · split
      · exact wp_throw hu
      · apply wp_after (b.wp_take ovpnSeat _ hu)
        rintro taken x ⟨htaken, hx⟩
        obtain rfl : taken = some active := by
          rw [htaken, show ovpnSeat.get u = some active from hactive]
          rfl
        apply wp_after (b.wp_ovpnTeardown hx)
        exact fun _ _ hy => b.booked_ovpnProceed (b.done hy) (b.hand_idle hy)

end

/-! ### Every request -/

theorem booked_runRequest (request : TunnelRequest) (h : idle w) :
    Booked idle cut (runRequest request) w := by
  cases request with
  | xrayConnect env request => exact b.booked_xrayConnect env request h
  | xrayDisconnect uid profileId => exact wp_discard (b.booked_xrayDisconnect uid profileId h)
  | wgConnect env request => exact b.booked_wgConnect env request h
  | wgDisconnect uid profileId => exact wp_discard (b.booked_wgDisconnect uid profileId h)
  | ovpnConnect env request => exact b.booked_ovpnConnect env request h
  | ovpnDisconnect uid profileId => exact wp_discard (b.booked_ovpnDisconnect uid profileId h)
  | events profileId events remote service =>
    exact b.booked_handleEvents profileId events remote service h
  | closed profileId => exact b.booked_ovpnEnd h
  | reap kind =>
    cases kind with
    | xray => exact b.booked_xrayEnd h
    | wireGuard => exact b.booked_wgEnd h
    | openVpn => exact b.booked_ovpnEnd h
  | shutdown kind =>
    cases kind with
    | xray => exact b.booked_xrayEnd h
    | wireGuard => exact b.booked_wgEnd h
    | openVpn => exact b.booked_ovpnEnd h
  | recover kind =>
    cases kind with
    | xray => exact b.booked_xrayRecover h
    | wireGuard => exact b.booked_wgRecover h
    | openVpn => exact b.booked_ovpnRecover h
  | childEnds pid => exact wp_modify (b.idle_same _ _ (Coarser.le (trimmed_endChild pid w)) h)
  | engineEnds => exact wp_modify (b.idle_same _ _ (booksSame_endEngine w) h)

end Bookkeeping

end NetOrchestrator.Macos
