import NetOrchestrator.Lib.Runs
import NetOrchestrator.Proofs.DnsSnapshots

/-!
# `Proofs.DnsKept`: the user's DNS setting is never lost

Each request of each executor keeps `DnsSafe`, wherever it stops. `dns_setting_kept` says what
follows for every sequence of requests, with crashes in between, as long as `dnsClean` is not
lost. It is lost when a restore fails whose failure is ignored (a rollback, a DNS setting that
could not be applied), when a snapshot is taken while another executor's journal still holds one
or drops a line of the setting, and when an OpenVPN session sets the DNS although no snapshot
reached its journal.
-/

namespace NetOrchestrator.Macos

open Net Lib Lib.Call Verdict Option

/-- However `m` ends, the setting is safe. -/
def DnsSafely {α : Type} (user : List DnsLine) (m : HelperProg α) (w : Machine) : Prop :=
  wp Verdict.Any m (fun _ => DnsSafe user) (fun _ => DnsSafe user) (DnsSafe user) w

section
variable {user : List DnsLine} {kind : Kind} {snapshot : Option (List IpAddr)} {w : Machine}
  {α β : Type} {m : HelperProg α}

section
variable {I : Machine → Prop} {m : HelperProg α} {f : α → HelperProg β}
  (hI : ∀ w, I w → DnsSafe user w)
include hI

theorem safely_bind (hm : Keeps Any I m) (hw : I w)
    (hf : ∀ a v, I v → DnsSafely user (f a) v) : DnsSafely user (m >>= f) w :=
  wp_bind (wp_mono (hm w hw) hf (fun _ => hI) hI)

/-- The same for steps that do not touch the DNS or a journal. -/
theorem safely_bind_free (hrespects : Respects DnsSame I) (hm : Preserves DnsSame m) (hw : I w)
    (hf : ∀ a v, I v → DnsSafely user (f a) v) : DnsSafely user (m >>= f) w :=
  safely_bind hI (hm.keeps hrespects) hw hf

end

/-- Steps of a call that has a snapshot to put back, or none yet. -/
theorem pending_bind {f : α → HelperProg β}
    (hm : Keeps Any (Pending user kind snapshot) m) (hw : Pending user kind snapshot w)
    (hf : ∀ a v, Pending user kind snapshot v → DnsSafely user (f a) v) :
    DnsSafely user (m >>= f) w :=
  safely_bind (fun _ hp => hp.dnsSafe) hm hw hf

section
variable {m : HelperProg α} {f : α → HelperProg β} (hm : Preserves DnsSame m)
include hm

theorem pending_free (hw : Pending user kind snapshot w)
    (hf : ∀ a v, Pending user kind snapshot v → DnsSafely user (f a) v) :
    DnsSafely user (m >>= f) w :=
  pending_bind (hm.keeps respects_pending) hw hf

theorem carried_free (hw : Carried user kind snapshot w)
    (hf : ∀ a v, Carried user kind snapshot v → DnsSafely user (f a) v) :
    DnsSafely user (m >>= f) w :=
  safely_bind (fun _ hc => hc.dnsSafe) (hm.keeps respects_carried) hw hf

end

theorem safely_attempt (h : DnsSafely user m w) : DnsSafely user (attempt m) w := wp_attempt h

theorem safely_discard (h : DnsSafely user m w) : DnsSafely user (Call.discard m) w := wp_discard h

theorem safely_undoRecord {record : Record} {rest : HelperProg Unit}
    (hrest : Preserves DnsSame rest) (h : Carried user kind record.dns w) :
    DnsSafely user (undoRecord (.tunnel kind) record rest) w :=
  wp_ends (wp_undoRecord hrest h) (fun _ _ hp => hp.dnsSafe) (fun _ _ hc => hc.dnsSafe)

variable {σ : Type} (seat : Seat σ)

theorem wp_take (expected : Machine → σ → Bool) (h : DnsSafe user w) : wp Any (seat.take expected)
      (fun taken w' => taken = (seat.get w).filter (expected w) ∧ DnsSafe user w' ∧
        ∀ active, taken = some active → Carried user seat.kind (seat.record active).dns w')
      (fun _ => DnsSafe user) (DnsSafe user) w := by
  apply Seat.wp_take
  · intro hnone
    exact ⟨hnone.symm, h, fun _ hactive => by cases hactive⟩
  · intro active htaken hsession
    have hcarried : Carried user seat.kind (seat.record active).dns (seat.put w none) := by
      apply Carried.of_session h hsession
      · rw [seat.recorded, seat.get_put]
        rfl
      · exact fun k hk => seat.others w none _ (by simpa using hk)
      all_goals rw [seat.frame]
    refine ⟨htaken.symm, hcarried.dnsSafe, ?_⟩
    intro active' hactive
    cases hactive
    exact hcarried

/-- What goes on with the session that was taken. -/
theorem safely_taken {expected : Machine → σ → Bool}
    {next : Option σ → HelperProg α} (hnone : ∀ v, DnsSafe user v → DnsSafely user (next none) v)
    (hsome : ∀ active v, Carried user seat.kind (seat.record active).dns v →
      DnsSafely user (next (some active)) v) (h : DnsSafe user w) :
    DnsSafely user (seat.take expected >>= next) w := by
  apply wp_then (wp_take seat expected h)
  rintro taken v ⟨_, hsafe, hcarried⟩
  cases taken with
  | none => exact hnone v hsafe
  | some active => exact hsome active v (hcarried active rfl)

end

/-! ### The Xray executor -/

section
variable {user : List DnsLine} {snapshot : Option (List IpAddr)} {w : Machine}
variable {pid : Nat} {record : Record} {env : XraySurroundings} {request : XrayRequest}
    {planned : List RouteOp}

theorem safely_xrayTeardown {active : XrayActive} (h : Carried user .xray active.record.dns w) :
    DnsSafely user (xrayTeardown active) w := by
  apply carried_free (trimmed_stopChild active.pid).preserves h
  intro _ v hv
  exact safely_undoRecord (((trimmed_closeDevice _).preserves).bind
    fun _ => aside_clearAssets.preserves) hv

theorem safely_xrayEnd {expected : Machine → XrayActive → Bool} (h : DnsSafe user w) :
    DnsSafely user (xrayTake expected >>= xrayEnd) w := by
  refine safely_taken xraySeat (fun _ hv => wp_pure hv) ?_ h
  exact fun _ _ hv => safely_discard (safely_attempt (safely_xrayTeardown hv))

theorem safely_xrayDisconnect (uid : Nat) (profileId : String) (h : DnsSafe user w) :
    DnsSafely user (xrayDisconnect uid profileId) w := by
  refine safely_taken xraySeat (fun _ hv => wp_pure hv) ?_ h
  intro _ _ hv
  apply wp_bind
  apply wp_orElse
  exact wp_post (safely_xrayTeardown hv) (fun _ _ hs => wp_pure hs)

theorem wp_xrayRecoverLocked (h : DnsSafe user w) (hidle : w.xray = none) :
    wp Any xrayRecoverLocked (fun _ => Pending user .xray none) (fun _ => DnsSafe user)
      (DnsSafe user) w :=
  wp_recoverLocked (fun pid => (trimmed_killLeftover .xray pid).preserves)
    (fun _ => .pure ()) h (by simp [Machine.sessionRecord, hidle])

theorem safely_xrayRecover (h : DnsSafe user w) : DnsSafely user xrayRecover w := by
  apply wp_read
  cases hactive : w.xray with
  | some active => exact wp_pure h
  | none => exact wp_post (wp_xrayRecoverLocked h hactive) (fun _ _ hp => hp.dnsSafe)

/-- A rollback that has no DNS to restore. -/
theorem keeps_xrayRollback (record : Record) :
    Keeps Any (Pending user .xray snapshot) (xrayRollback record false) := by
  apply Keeps.bind ((rerouted_removeRoutes _ _).keeps respects_pending)
  intro _
  apply Keeps.bind ((aside_clearAssets.preserves).keeps respects_pending)
  intro _
  exact keeps_tryClear

variable {tun : String} {error : TunnelError} {networks : List IpNet}

/-- The whole of `fail` before the DNS is touched. -/
theorem safely_xrayFail (h : Pending user .xray snapshot w) :
    DnsSafely user (xrayFail pid tun record false error) w := by
  apply pending_free (trimmed_stopChild pid).preserves h
  intro _ v hv
  apply pending_bind (keeps_xrayRollback record) hv
  intro _ u hu
  apply pending_free (trimmed_closeDevice tun).preserves hu
  exact fun _ _ hx => wp_throw hx.dnsSafe

/-- `fail` after the DNS was touched: it is restored first. -/
theorem safely_xrayFail_dns
    {own : List IpAddr} (hdns : record.dns = some own) (h : Carried user .xray (some own) w) :
    DnsSafely user (xrayFail pid tun record true error) w := by
  apply carried_free (trimmed_stopChild pid).preserves h
  intro _ v hv
  have hrollback : wp Any (xrayRollback record true)
      (fun _ => Pending user .xray (some own)) (fun _ => DnsSafe user) (DnsSafe user) v := by
    apply wp_bind
    refine (rerouted_removeRoutes _ _).wp respects_carried hv ?_ (fun _ _ hc => hc.dnsSafe)
      (fun _ hc => hc.dnsSafe)
    intro _ u hu
    rw [hdns]
    apply wp_after (wp_tryRestore hu)
    intro _ x hx
    apply wp_bind
    refine (aside_clearAssets.preserves).wp respects_pending hx ?_
      (fun _ _ hp => hp.dnsSafe) (fun _ hp => hp.dnsSafe)
    intro _ y hy
    exact wp_mono (keeps_tryClear y hy) (fun _ _ hp => hp) (fun _ _ hp => hp.dnsSafe)
      (fun _ hp => hp.dnsSafe)
  apply wp_then hrollback
  intro _ u hu
  apply pending_free (trimmed_closeDevice tun).preserves hu
  exact fun _ _ hx => wp_throw hx.dnsSafe

theorem safely_xrayStart (h : Carried user .xray record.dns w) :
    DnsSafely user (xrayStart env request record pid) w := by
  apply wp_modify
  refine h.start rfl rfl ?_ rfl rfl rfl
  intro k hk
  cases k with
  | xray => exact absurd rfl hk
  | wireGuard => rfl
  | openVpn => rfl

section
variable (h : Pending user .xray record.dns w)
include h

theorem safely_xrayDns (hjournal : w.journal xrayTunnel = some record) :
    DnsSafely user (xrayDns env request record pid) w := by
  cases hdns : record.dns with
  | none =>
    have hprog : xrayDns env request record pid = xrayStart env request record pid := by
      rw [xrayDns, hdns]
    rw [hprog]
    exact safely_xrayStart h.carried
  | some own =>
    rw [xrayDns, hdns]
    apply wp_tried
    rw [hdns] at h
    have hholds : w.dnsClean = true →
        ∃ r, w.journal (.tunnel .xray) = some r ∧ r.dns.isSome = true :=
      fun _ => ⟨record, hjournal, by simp [hdns]⟩
    refine wp_ends (wp_setDns h.carried hholds) ?_ ?_
    · intro _ v hv
      exact safely_xrayStart (by rw [hdns]; exact hv)
    · intro _ v hv
      exact safely_xrayFail_dns hdns hv

theorem safely_xrayRoutes : DnsSafely user (xrayRoutes env request planned record pid) w := by
  apply pending_free (rerouted_applyRoutes _ _).attempt h
  intro answer v hv
  cases answer with
  | error e => exact safely_xrayFail hv
  | ok installed =>
    show DnsSafely user (if _ then _ else _) v
    split
    · exact safely_xrayFail hv
    · apply wp_tried
      refine wp_mono (wp_save_pending hv (.inr rfl)) ?_ (fun _ _ hp => safely_xrayFail hp)
        (fun _ hp => hp.dnsSafe)
      rintro _ u ⟨hu, hjournal⟩
      exact safely_xrayDns hu hjournal

theorem safely_xrayCutOver : DnsSafely user (xrayCutOver env request planned record pid) w := by
  apply wp_tried
  refine wp_mono (wp_save_pending h (.inr rfl)) ?_ (fun _ _ hp => safely_xrayFail hp)
    (fun _ hp => hp.dnsSafe)
  rintro _ v ⟨hv, _⟩
  apply pending_free (trimmed_settle _ _).preserves hv
  intro _ u hu
  apply pending_free (.gets _) hu
  intro alive x hx
  show DnsSafely user (if _ then _ else _) x
  split
  · exact safely_xrayFail hx
  · exact safely_xrayRoutes hx

end

theorem safely_xrayLaunch (h : Pending user .xray snapshot w) :
    DnsSafely user (xrayLaunch env request planned snapshot record) w := by
  apply pending_free (aside_spawnChild _ _).attempt h
  intro answer v hv
  cases answer with
  | ok pid => exact safely_xrayCutOver hv
  | error _ =>
    apply pending_bind (keeps_xrayRollback record) hv
    intro _ u hu
    apply pending_free (trimmed_closeDevice env.tun).preserves hu
    exact fun _ _ hx => wp_throw hx.dnsSafe

theorem keeps_xrayAssets (env : XraySurroundings) (request : XrayRequest) (record : Record) :
    Keeps Any (Pending user .xray snapshot) (xrayAssets env request record) := by
  unfold xrayAssets
  apply Keeps.ite (.pure ())
  apply Keeps.ite ((keeps_xrayRollback record).bind fun _ => .throw _)
  intro w h
  apply wp_orUndo
  refine wp_ends ((aside_stageGeo _).keeps respects_pending w h)
    (fun _ _ hp => hp) ?_
  exact fun _ v hv => keeps_xrayRollback record v hv

theorem safely_xrayBringUp {uplink : Uplink} (h : Pending user .xray snapshot w) :
    DnsSafely user (xrayBringUp env request uplink networks snapshot) w := by
  apply pending_bind (keeps_xrayAssets env request _) h
  intro _ v hv
  have hdevice : Keeps Any (Pending user .xray snapshot)
      (orUndo (xrayRollback (Record.fresh request.profileId "") false) deviceError
        (openDevice .xray env.tun)) := by
    intro w h
    apply wp_orUndo
    refine wp_ends ((aside_openDevice _ _).keeps respects_pending w h)
      (fun _ _ hp => hp) ?_
    exact fun _ v hv => keeps_xrayRollback _ v hv
  apply pending_bind hdevice hv
  intro _ u hu
  apply pending_free (aside_reachGateway _) hu
  intro _ x hx
  apply pending_free (rerouted_planRoutes _ _) hx
  exact fun _ _ hy => safely_xrayLaunch hy

theorem safely_xrayProceed (h : DnsSafe user w) (hidle : w.xray = none) :
    DnsSafely user (xrayProceed env request networks) w := by
  apply wp_bind
  apply wp_orElse
  refine wp_post (wp_xrayRecoverLocked h hidle) ?_
  intro _ v hv
  apply pending_free (aside_reading _) hv
  intro _ u hu
  apply pending_free (aside_detectUplink _ _) hu
  intro uplink x hx
  have hsnapshot : wp Any (xraySnapshot request.role env.service)
      (fun taken => Pending user .xray taken) (fun _ => Pending user .xray none)
      (Pending user .xray none) x := by
    cases request.role with
    | primary => exact wp_takeSnapshot env.service hx
    | secondary => exact wp_pure hx
  apply wp_bind
  refine wp_mono hsnapshot ?_ (fun _ _ hp => hp.dnsSafe) (fun _ hp => hp.dnsSafe)
  intro taken y hy
  show DnsSafely user (if _ then _ else _) y
  split
  · exact wp_throw hy.dnsSafe
  · apply wp_bind
    apply wp_orElse
    refine wp_mono (wp_save_pending hy (.inl rfl)) ?_ (fun _ _ hp => hp.dnsSafe)
      (fun _ hp => hp.dnsSafe)
    exact fun _ _ hz => safely_xrayBringUp hz.1

theorem safely_xrayConnect (env : XraySurroundings) (request : XrayRequest)
    (h : DnsSafe user w) : DnsSafely user (xrayConnect env request) w := by
  apply safely_bind_free (fun _ hs => hs) respects_dnsSafe (aside_xrayCheck request) h
  intro networks v hv
  apply wp_then (safely_xrayEnd hv)
  intro _ u hu
  apply wp_read
  cases hactive : u.xray with
  | some active => exact wp_throw hu
  | none => exact safely_xrayProceed hu hactive

end

/-! ### The WireGuard executor -/

section
variable {user : List DnsLine} {snapshot : Option (List IpAddr)} {w : Machine}
variable {record : Record} {env : WgSurroundings} {request : WgRequest} {config : WgConfig}
    {networks : List IpNet}

theorem safely_wgTeardown {active : WireGuardActive}
    (h : Carried user .wireGuard active.record.dns w) : DnsSafely user (wgTeardown active) w :=
  safely_undoRecord ((dnsFree_resolverRemove _).bind
    fun _ => (trimmed_closeDevice _).preserves) h

theorem safely_wgEnd {expected : WireGuardActive → Bool} (h : DnsSafe user w) :
    DnsSafely user (wgTake expected >>= wgEnd) w := by
  refine safely_taken wgSeat (fun _ hv => wp_pure hv) ?_ h
  exact fun _ _ hv => safely_discard (safely_attempt (safely_wgTeardown hv))

theorem safely_wgDisconnect (uid : Nat) (profileId : String) (h : DnsSafe user w) :
    DnsSafely user (wgDisconnect uid profileId) w := by
  refine safely_taken wgSeat (fun _ hv => wp_pure hv) ?_ h
  intro _ _ hv
  apply wp_bind
  apply wp_orElse
  exact wp_post (safely_wgTeardown hv) (fun _ _ hs => wp_pure hs)

theorem wp_wgRecoverLocked (h : DnsSafe user w) (hidle : w.wireGuard = none) :
    wp Any wgRecoverLocked (fun _ => Pending user .wireGuard none)
      (fun _ => DnsSafe user) (DnsSafe user) w :=
  wp_recoverLocked (fun _ => .pure ()) (fun _ => dnsFree_resolverRemove _) h
    (by simp [Machine.sessionRecord, hidle])

theorem safely_wgRecover (h : DnsSafe user w) : DnsSafely user wgRecover w := by
  apply wp_read
  cases hactive : w.wireGuard with
  | some active => exact wp_pure h
  | none => exact wp_post (wp_wgRecoverLocked h hactive) (fun _ _ hp => hp.dnsSafe)

theorem keeps_wgRollback (record : Record) :
    Keeps Any (Pending user .wireGuard snapshot) (wgRollback record) :=
  Keeps.bind ((rerouted_removeRoutes _ _).keeps respects_pending) fun _ => keeps_tryClear

theorem safely_wgFail {tun : String} {error : TunnelError}
    (h : Pending user .wireGuard snapshot w) : DnsSafely user (wgFail tun record error) w := by
  apply pending_bind (keeps_wgRollback record) h
  intro _ u hu
  apply pending_free (trimmed_closeDevice tun).preserves hu
  exact fun _ _ hx => wp_throw hx.dnsSafe

theorem safely_wgStart (h : Carried user .wireGuard record.dns w) :
    DnsSafely user (wgStart env request record) w := by
  apply wp_modify
  refine h.start rfl rfl ?_ rfl rfl rfl
  intro k hk
  cases k with
  | xray => rfl
  | wireGuard => exact absurd rfl hk
  | openVpn => rfl

theorem safely_wgResolvers (h : Carried user .wireGuard record.dns w) :
    DnsSafely user (wgResolvers env request config record) w := by
  unfold wgResolvers
  split
  · exact safely_wgStart h
  · apply carried_free (dnsFree_resolverApply _ _ _).attempt h
    intro _ v hv
    apply safely_bind (fun _ hc => Carried.dnsSafe hc) (keeps_trySave_carried rfl) hv
    exact fun _ _ hu => safely_wgStart hu

section
variable (h : Pending user .wireGuard record.dns w) {planned : List RouteOp}
include h

theorem safely_wgDns (hjournal : w.dnsClean = true → ∀ servers, record.dns = some servers →
      ∃ r, w.journal (.tunnel .wireGuard) = some r ∧ r.dns.isSome = true) :
    DnsSafely user (wgDns env request config record) w := by
  cases hdns : record.dns with
  | none =>
    have hprog : wgDns env request config record = wgResolvers env request config record := by
      rw [wgDns, hdns]
    rw [hprog]
    exact safely_wgResolvers h.carried
  | some own =>
    rw [wgDns, hdns]
    apply wp_tried
    rw [hdns] at h
    refine wp_ends (wp_setDns h.carried fun hclean => hjournal hclean own hdns) ?_ ?_
    · intro _ v hv
      exact safely_wgResolvers (by rw [hdns]; exact hv)
    · intro _ v hv
      apply wp_after (wp_tryRestore hv)
      intro _ u hu
      apply pending_bind (keeps_trySave_pending rfl) hu.forget
      exact fun _ _ hx => safely_wgResolvers hx.carried

/-- The journal already has the snapshot, so a save that fails does not matter. -/
theorem safely_wgRoutes (hjournal : w.journal wgTunnel = some record) :
    DnsSafely user (wgRoutes env request config planned record) w := by
  let Saved : Machine → Prop := fun v => Pending user .wireGuard record.dns v ∧
    ∃ r, v.journal (.tunnel .wireGuard) = some r ∧ r.dns = record.dns
  have hsafe : ∀ v, Saved v → DnsSafe user v := fun _ hv => hv.1.dnsSafe
  have hrespects : Respects DnsSame Saved := by
    intro v v' hsame hv
    exact ⟨respects_pending v v' hsame hv.1, by rw [hsame.journal]; exact hv.2⟩
  have hsaved : Saved w := ⟨h, record, hjournal, rfl⟩
  apply safely_bind_free hsafe hrespects (rerouted_applyRoutes _ _).attempt hsaved
  intro answer v hv
  cases answer with
  | error e => exact safely_wgFail hv.1
  | ok installed =>
    show DnsSafely user (if _ then _ else _) v
    split
    · exact safely_wgFail hv.1
    · have hsave : Keeps Any Saved
          (trySave wgTunnel { record with routes := installed }) := by
        intro u hu
        apply wp_discard
        apply wp_attempt
        have hdns : ∀ r, some { record with routes := installed } = some r →
            r.dns = none ∨ r.dns = record.dns := by
          rintro _ ⟨⟩
          exact .inr rfl
        exact wp_post (wp_saveJournal hu ⟨hu.1.journaled hdns, _, journal_saved _ _ u, rfl⟩ hrespects)
          (fun _ _ hq => hq.1)
      apply safely_bind hsafe hsave hv
      rintro _ u ⟨hu, r, hr, hsame⟩
      refine safely_wgDns hu ?_
      intro _ servers hservers
      exact ⟨r, hr, by rw [hsame]; exact isSome_iff_exists.mpr ⟨servers, hservers⟩⟩

theorem safely_wgEngine : DnsSafely user (wgEngine env request config planned record) w := by
  apply wp_tried
  refine wp_mono (wp_save_pending h (.inr rfl)) ?_ (fun _ _ hp => safely_wgFail hp)
    (fun _ hp => hp.dnsSafe)
  rintro _ v ⟨hv, hjournal⟩
  apply wp_tried
  apply wp_reading hv.dnsSafe (fun _ => safely_wgFail hv)
  · intro _ _
    exact safely_wgRoutes hv hjournal
  · intro e he
    cases he

end

theorem safely_wgBringUp (h : Pending user .wireGuard none w) :
    DnsSafely user (wgBringUp env request config networks) w := by
  apply pending_free (rerouted_planRoutes _ _) h
  intro _ v hv
  have hsnapshot : wp Any (wgSnapshot request.role config env.service)
      (fun taken => Pending user .wireGuard taken) (fun _ => Pending user .wireGuard none)
      (Pending user .wireGuard none) v := by
    unfold wgSnapshot
    split
    · exact wp_pure hv
    · exact wp_takeSnapshot env.service hv
  apply wp_bind
  refine wp_mono hsnapshot ?_ (fun _ _ hp => hp.dnsSafe) (fun _ hp => hp.dnsSafe)
  exact fun _ _ hu => safely_wgEngine hu

theorem safely_wgDevice (h : Pending user .wireGuard none w) :
    DnsSafely user (wgDevice env request config networks) w := by
  have hdevice : Keeps Any (Pending user .wireGuard none)
      (orUndo (wgRollback (Record.fresh request.profileId "")) deviceError
        (openDevice .wireGuard env.tun)) := by
    intro w h
    apply wp_orUndo
    refine wp_ends ((aside_openDevice _ _).keeps respects_pending w h)
      (fun _ _ hp => hp) ?_
    exact fun _ v hv => keeps_wgRollback _ v hv
  apply pending_bind hdevice h
  intro _ v hv
  apply pending_free (aside_setAddresses _).attempt hv
  intro answer u hu
  cases answer with
  | error _ => exact safely_wgFail hu
  | ok _ => exact safely_wgBringUp hu

theorem safely_wgProceed (h : DnsSafe user w) (hidle : w.wireGuard = none) :
    DnsSafely user (wgProceed env request config networks) w := by
  apply wp_bind
  apply wp_orElse
  refine wp_post (wp_wgRecoverLocked h hidle) ?_
  intro _ v hv
  apply pending_free (aside_detectUplink _ _) hv
  intro _ u hu
  apply pending_free (aside_resolvePeers _ _) hu
  intro _ x hx
  apply wp_bind
  apply wp_orElse
  refine wp_mono (wp_save_pending hx (.inl rfl)) ?_ (fun _ _ hp => hp.dnsSafe)
    (fun _ hp => hp.dnsSafe)
  exact fun _ _ hy => safely_wgDevice hy.1

theorem safely_wgConnect (env : WgSurroundings) (request : WgRequest) (h : DnsSafe user w) :
    DnsSafely user (wgConnect env request) w := by
  apply safely_bind_free (fun _ hs => hs) respects_dnsSafe (aside_wgCheck request) h
  rintro ⟨config, networks⟩ v hv
  apply wp_then (safely_wgEnd hv)
  intro _ u hu
  apply wp_read
  cases hactive : u.wireGuard with
  | some active => exact wp_throw hu
  | none => exact safely_wgProceed hu hactive

end

/-! ### The OpenVPN executor -/

section
variable {user : List DnsLine} {snapshot : Option (List IpAddr)} {w : Machine}
variable {active : OpenVpnActive} {record : Record} {service : Bool} {servers : List IpAddr}
    {networks : List IpNet} {env : OpenVpnSurroundings} {pid : Nat} {request : OpenVpnRequest}
    {uplink : Uplink}

/-- After a teardown there is no session. -/
theorem wp_ovpnTeardown (h : Carried user .openVpn active.record.dns w) :
    wp Any (ovpnTeardown active)
      (fun _ w' => DnsSafe user w' ∧ w'.sessionRecord ovpnTunnel = none) (fun _ => DnsSafe user)
      (DnsSafe user) w := by
  apply wp_bind
  refine ((trimmed_stopChild active.pid).preserves).wp respects_carried h ?_
    (fun _ _ hc => hc.dnsSafe) (fun _ hc => hc.dnsSafe)
  intro _ v hv
  apply wp_discard
  apply wp_attempt
  refine wp_ends (wp_undoRecord ((dnsFree_resolverRemove _).bind
    fun _ => (aside_removeStage _).preserves) hv) (fun _ _ hp => ⟨hp.dnsSafe, hp.idle⟩)
    (fun _ _ hc => ⟨hc.dnsSafe, hc.idle⟩)

theorem safely_ovpnTeardown
    (h : Carried user .openVpn active.record.dns w) : DnsSafely user (ovpnTeardown active) w :=
  wp_post (wp_ovpnTeardown h) (fun _ _ hs => hs.1)

theorem safely_ovpnEnd {expected : Machine → OpenVpnActive → Bool} (h : DnsSafe user w) :
    DnsSafely user (ovpnTake expected >>= ovpnEnd) w :=
  safely_taken ovpnSeat (fun _ hv => wp_pure hv) (fun _ _ hv => safely_ovpnTeardown hv) h

theorem safely_ovpnDisconnect (uid : Nat) (profileId : String) (h : DnsSafe user w) :
    DnsSafely user (ovpnDisconnect uid profileId) w := by
  refine safely_taken ovpnSeat (fun _ hv => wp_bind (wp_pure (wp_pure hv))) ?_ h
  exact fun _ _ hv => wp_then (safely_ovpnTeardown hv) (fun _ _ hs => wp_pure hs)

theorem wp_ovpnRecoverLocked (h : DnsSafe user w) (hidle : w.sessionRecord ovpnTunnel = none) :
    wp Any ovpnRecoverLocked (fun _ => Pending user .openVpn none)
      (fun _ => DnsSafe user) (DnsSafe user) w :=
  wp_recoverLocked (fun pid => (trimmed_killLeftover .openVpn pid).preserves)
    (fun _ => (dnsFree_resolverRemove _).bind fun _ => aside_removeStages.preserves) h hidle

theorem safely_ovpnRecover (h : DnsSafe user w) : DnsSafely user ovpnRecover w := by
  apply wp_read
  cases hactive : w.openVpn with
  | some active => exact wp_pure h
  | none =>
    have hidle : w.sessionRecord ovpnTunnel = none := by simp [Machine.sessionRecord, hactive]
    exact wp_post (wp_ovpnRecoverLocked h hidle) (fun _ _ hp => hp.dnsSafe)

/-! #### Management events -/

theorem wp_ovpnSnapshot (service : Bool) (h : Carried user .openVpn active.record.dns w) :
    wp Any (ovpnSnapshot active service)
      (fun taken w' => Carried user .openVpn taken w' ∧ (taken = none → active.record.dns = none))
      (fun _ => DnsSafe user) (DnsSafe user) w := by
  unfold ovpnSnapshot
  cases hdns : active.record.dns with
  | some own =>
    rw [hdns] at h
    exact wp_pure ⟨h, by simp⟩
  | none =>
    rw [hdns] at h
    have hpending : Pending user .openVpn none w :=
      ⟨h.idle, fun hclean => ⟨(h.safe hclean).1, (h.safe hclean).2.1, (h.safe hclean).2.2 rfl⟩⟩
    exact wp_mono (wp_takeSnapshot service hpending) (fun _ _ hp => ⟨hp.carried, fun _ => rfl⟩)
      (fun _ _ hp => hp.dnsSafe) (fun _ hp => hp.dnsSafe)

theorem wp_saveSnapshot {own : List IpAddr} (hdns : record.dns = some own)
    (h : Carried user .openVpn (some own) w) : wp Any (saveSnapshot record)
      (fun _ w' => Carried user .openVpn (some own) w' ∧ (w'.dnsClean = true →
        ∃ r, w'.journal (.tunnel .openVpn) = some r ∧ r.dns.isSome = true))
      (fun _ => DnsSafe user) (DnsSafe user) w := by
  apply wp_tried
  have hsave := h.save hdns
  refine wp_mono (wp_saveJournal h hsave respects_carried) ?_ ?_ (fun _ hc => hc.dnsSafe)
  · rintro _ v ⟨hv, hjournal⟩
    exact wp_pure ⟨hv, fun _ => ⟨record, hjournal, by simp [hdns]⟩⟩
  · intro _ v hv
    apply wp_modify
    refine ⟨⟨hv.idle, ?_⟩, ?_⟩
    · intro hclean
      obtain ⟨hkept, hgenuine, hun⟩ := hv.safe (Bool.and_eq_true_iff.mp hclean).1
      exact ⟨⟨hkept.journaled, hkept.remembered, hkept.held⟩, hgenuine, hun⟩
    · intro hclean
      obtain ⟨r, hr, hsome⟩ := (any_eq_true ..).mp (Bool.and_eq_true_iff.mp hclean).2
      exact ⟨r, hr, hsome⟩

section
variable (h : Carried user .openVpn active.record.dns w)
include h

theorem wp_ovpnSystemDns : wp Any (ovpnSystemDns active service servers)
      (fun active' w' => Carried user .openVpn active'.record.dns w') (fun _ => DnsSafe user)
      (DnsSafe user) w := by
  apply wp_then (wp_ovpnSnapshot service h)
  rintro taken v ⟨hv, hnone⟩
  cases taken with
  | none => exact wp_pure (by rw [hnone rfl]; exact hv)
  | some own =>
    apply wp_then (wp_saveSnapshot rfl hv)
    rintro _ u ⟨hu, hjournal⟩
    apply wp_tried
    refine wp_ends (wp_setDns hu hjournal) (fun _ _ hc => wp_pure hc) ?_
    intro _ x hx
    apply wp_after (wp_tryRestore hx)
    exact fun _ _ hy => wp_pure hy.forget.carried

theorem wp_ovpnDns : wp Any (ovpnDns active service servers)
      (fun active' w' => Carried user .openVpn active'.record.dns w') (fun _ => DnsSafe user)
      (DnsSafe user) w := by
  unfold ovpnDns
  cases active.role with
  | primary =>
    show wp Any (if _ then _ else _) _ _ _ w
    split
    · exact wp_pure h
    · exact wp_ovpnSystemDns h
  | secondary =>
    apply wp_bind
    refine (dnsFree_resolverRemove _).wp respects_carried h ?_ (fun _ _ hc => hc.dnsSafe)
      (fun _ hc => hc.dnsSafe)
    intro _ v hv
    apply wp_bind
    refine wp_mono (keeps_trySave_carried rfl v hv) ?_ (fun _ _ hc => hc.dnsSafe)
      (fun _ hc => hc.dnsSafe)
    intro _ u hu
    apply wp_bind
    exact (dnsFree_resolverApply _ _ _).attempt.wp respects_carried hu (fun _ _ hc => wp_pure hc)
      (fun _ _ hc => hc.dnsSafe) (fun _ hc => hc.dnsSafe)

theorem wp_ovpnInstall : wp Any (ovpnInstall active service networks servers)
      (fun done w' => Carried user .openVpn done.1.record.dns w') (fun _ => DnsSafe user)
      (DnsSafe user) w := by
  apply wp_bind
  refine (rerouted_removeRoutes _ _).wp respects_carried h ?_ (fun _ _ hc => hc.dnsSafe)
    (fun _ hc => hc.dnsSafe)
  intro _ v hv
  apply wp_bind
  refine (rerouted_planRoutes _ _).wp respects_carried hv ?_ (fun _ _ hc => hc.dnsSafe)
    (fun _ hc => hc.dnsSafe)
  intro _ u hu
  apply wp_bind
  refine wp_mono (keeps_trySave_carried rfl u hu) ?_ (fun _ _ hc => hc.dnsSafe)
    (fun _ hc => hc.dnsSafe)
  intro _ x hx
  apply wp_bind
  refine (rerouted_applyRoutes _ _).attempt.wp respects_carried hx ?_ (fun _ _ hc => hc.dnsSafe)
    (fun _ hc => hc.dnsSafe)
  intro answer y hy
  cases answer with
  | error e =>
    apply wp_bind
    exact wp_mono (keeps_trySave_carried rfl y hy) (fun _ _ hc => wp_pure hc)
      (fun _ _ hc => hc.dnsSafe) (fun _ hc => hc.dnsSafe)
  | ok installed =>
    apply wp_bind
    have hy' : Carried user .openVpn (active.setRoutes installed).record.dns y := hy
    refine wp_post (wp_ovpnDns hy') ?_
    intro active' z hz
    apply wp_bind
    exact wp_mono (keeps_trySave_carried rfl z hz) (fun _ _ hc => wp_pure hc)
      (fun _ _ hc => hc.dnsSafe) (fun _ hc => hc.dnsSafe)

theorem wp_applyNetwork : wp Any (applyNetwork active service)
      (fun done w' => Carried user .openVpn done.1.record.dns w') (fun _ => DnsSafe user)
      (DnsSafe user) w := by
  unfold applyNetwork
  cases active.snapshot.activePush with
  | none => exact wp_pure h
  | some push =>
    show wp Any (if _ then _ else _) _ _ _ w
    split
    · exact wp_pure h
    · exact wp_ovpnInstall h

theorem safely_ovpnSettle {ended : Bool} : DnsSafely user (ovpnSettle active ended) w := by
  unfold ovpnSettle
  split
  · exact safely_ovpnTeardown h
  · apply wp_modify
    refine h.start rfl rfl ?_ rfl rfl rfl
    intro k hk
    cases k with
    | xray => rfl
    | wireGuard => rfl
    | openVpn => exact absurd rfl hk

end

/-- Events change what is known of the session, not its record. -/
theorem wp_foldEvents {failed : Bool}
    (events : List Daemon.ManagementEvent) (h : Carried user .openVpn active.record.dns w) :
    wp Any (foldEvents active failed events)
      (fun done w' => Carried user .openVpn done.1.record.dns w') (fun _ => DnsSafe user)
      (DnsSafe user) w := by
  induction events generalizing active failed w with
  | nil => exact wp_pure h
  | cons event rest ih =>
    cases event with
    | passwordPrompt =>
      apply wp_bind
      exact (aside_reading _).attempt.wp respects_carried h
        (fun _ _ hc => ih hc) (fun _ _ hc => hc.dnsSafe) (fun _ hc => hc.dnsSafe)
    | state state => exact ih h
    | failureDetail failure => exact ih h
    | byteCount received sent => exact ih h
    | authenticationFailed => exact ih h
    | pushReply push => exact ih h

theorem record_learnRemote (active : OpenVpnActive) (remote : Option IpAddr) :
    (active.learnRemote remote).record = active.record := by
  unfold OpenVpnActive.learnRemote
  cases remote with
  | none => rfl
  | some ip =>
    show (if _ then _ else _ : OpenVpnActive).record = _
    split <;> rfl

theorem safely_handleEvents (profileId : String) (events : List Daemon.ManagementEvent)
    (remote : Option IpAddr) (service : Bool) (h : DnsSafe user w) :
    DnsSafely user (handleEvents profileId events remote service) w := by
  apply wp_then (wp_take ovpnSeat _ h)
  rintro taken v ⟨_, hsafe, hcarried⟩
  cases taken with
  | none => exact wp_pure hsafe
  | some active =>
    have hv : Carried user .openVpn active.record.dns v := hcarried active rfl
    rw [← record_learnRemote active remote] at hv
    apply wp_then (wp_foldEvents events hv)
    rintro ⟨active', failed⟩ u hu
    show DnsSafely user (if _ then _ else _) u
    split
    · exact safely_ovpnSettle hu
    · unfold ovpnReact
      split
      · apply wp_then (wp_applyNetwork hu)
        rintro ⟨active'', error⟩ x hx
        exact safely_ovpnSettle hx
      · exact safely_ovpnSettle hu

/-! #### Connect -/

theorem keeps_ovpnCleanup (stage : Option String) (installed : List RouteOp) :
    Keeps Any (Pending user .openVpn snapshot) (ovpnCleanup stage installed) := by
  apply Keeps.bind
    ((Preserves.forEach (fun a => (aside_removeStage a).preserves) _).keeps respects_pending)
  intro _
  exact Keeps.bind ((rerouted_removeRoutes _ _).keeps respects_pending) fun _ => keeps_tryClear

theorem safely_ovpnGiveUp {installed : List RouteOp}
    {text : String} (h : Pending user .openVpn snapshot w) :
    DnsSafely user (ovpnGiveUp env installed pid text) w := by
  apply pending_free (trimmed_stopChild pid).preserves h
  intro _ v hv
  apply pending_bind (keeps_ovpnCleanup _ _) hv
  exact fun _ _ hu => wp_throw hu.dnsSafe

theorem safely_ovpnSupervise (hdns : record.dns = none) (h : Pending user .openVpn none w) :
    DnsSafely user (ovpnSupervise env request uplink networks record pid) w := by
  apply pending_free (aside_superviseStep _) h
  intro _ v hv
  apply pending_free (aside_reading _).attempt hv
  intro answer u hu
  cases answer with
  | error _ => exact safely_ovpnGiveUp hu
  | ok _ =>
    apply pending_free (aside_superviseStep _) hu
    intro _ x hx
    apply wp_modify
    refine hx.carried.start hdns rfl ?_ rfl rfl rfl
    intro k hk
    cases k with
    | xray => rfl
    | wireGuard => rfl
    | openVpn => exact absurd rfl hk

theorem safely_ovpnControl (hdns : record.dns = none) (h : Pending user .openVpn none w) :
    DnsSafely user (ovpnControl env request uplink networks record pid) w := by
  apply pending_bind (keeps_trySave_pending hdns) h
  intro _ v hv
  apply pending_free (aside_reading _).attempt hv
  intro answer u hu
  cases answer with
  | error _ => exact safely_ovpnGiveUp hu
  | ok _ => exact safely_ovpnSupervise hdns hu

theorem safely_ovpnBringUp (h : Pending user .openVpn none w) :
    DnsSafely user (ovpnBringUp env request uplink networks) w := by
  apply pending_free (rerouted_applyRoutes _ _).attempt h
  intro applied v hv
  apply pending_bind (keeps_trySave_pending rfl) hv
  intro _ u hu
  have hstage : ∀ installed, Keeps Any (Pending user .openVpn none)
      (orUndo (ovpnCleanup none installed)
        (fun _ => .unavailable "The OpenVPN configuration could not be staged")
        (stageConfig env.stageable env.stage)) := by
    intro installed w h
    apply wp_orUndo
    refine wp_ends ((aside_stageConfig _ _).keeps respects_pending w h)
      (fun _ _ hp => hp) ?_
    exact fun _ v hv => keeps_ovpnCleanup _ _ v hv
  apply pending_bind (hstage _) hu
  intro _ x hx
  apply pending_free (aside_spawnChild _ _).attempt hx
  intro answer y hy
  cases answer with
  | ok pid => exact safely_ovpnControl rfl hy
  | error _ =>
    apply pending_bind (keeps_ovpnCleanup _ _) hy
    exact fun _ _ hz => wp_throw hz.dnsSafe

theorem safely_ovpnProceed (h : DnsSafe user w) (hidle : w.sessionRecord ovpnTunnel = none) :
    DnsSafely user (ovpnProceed env request networks) w := by
  apply wp_bind
  apply wp_orElse
  refine wp_post (wp_ovpnRecoverLocked h hidle) ?_
  intro _ v hv
  apply pending_free (.ofExcept _) hv
  intro _ u hu
  apply pending_free (aside_detectUplink _ _) hu
  intro uplink x hx
  apply pending_free (preserves_orElse (aside_reading _)) hx
  intro _ y hy
  apply pending_free (preserves_orElse (aside_reading _)) hy
  intro _ z hz
  apply wp_bind
  apply wp_orElse
  refine wp_mono (wp_save_pending hz (.inl rfl)) ?_ (fun _ _ hp => hp.dnsSafe)
    (fun _ hp => hp.dnsSafe)
  exact fun _ _ hr => safely_ovpnBringUp hr.1

theorem safely_ovpnConnect (env : OpenVpnSurroundings) (request : OpenVpnRequest)
    (h : DnsSafe user w) : DnsSafely user (ovpnConnect env request) w := by
  apply safely_bind_free (fun _ hs => hs) respects_dnsSafe (aside_ovpnCheck request) h
  intro networks v hv
  apply wp_then (safely_ovpnEnd hv)
  intro _ u hu
  apply wp_read
  cases hactive : u.openVpn with
  | none => exact safely_ovpnProceed hu (by simp [Machine.sessionRecord, hactive])
  | some active =>
    show DnsSafely user (if _ then _ else if _ then _ else _) u
    split
    · exact wp_throw hu
    · split
      · exact wp_throw hu
      · -- A session that never came up makes way.
        apply wp_then (wp_take ovpnSeat _ hu)
        rintro taken x ⟨htaken, _, hcarried⟩
        obtain rfl : taken = some active := by
          rw [htaken, show ovpnSeat.get u = some active from hactive]
          rfl
        apply wp_then (wp_ovpnTeardown (hcarried active rfl))
        exact fun _ _ hy => safely_ovpnProceed hy.1 hy.2

end

/-! ### Every sequence of requests -/

section
variable {user : List DnsLine} {w : Machine}

theorem safely_runRequest (request : TunnelRequest) (h : DnsSafe user w) :
    DnsSafely user (runRequest request) w := by
  cases request with
  | xrayConnect env request => exact safely_xrayConnect env request h
  | xrayDisconnect uid profileId => exact safely_discard (safely_xrayDisconnect uid profileId h)
  | wgConnect env request => exact safely_wgConnect env request h
  | wgDisconnect uid profileId => exact safely_discard (safely_wgDisconnect uid profileId h)
  | ovpnConnect env request => exact safely_ovpnConnect env request h
  | ovpnDisconnect uid profileId => exact safely_discard (safely_ovpnDisconnect uid profileId h)
  | events profileId events remote service =>
    exact safely_handleEvents profileId events remote service h
  | closed profileId => exact safely_ovpnEnd h
  | reap kind =>
    cases kind with
    | xray => exact safely_xrayEnd h
    | wireGuard => exact safely_wgEnd h
    | openVpn => exact safely_ovpnEnd h
  | shutdown kind =>
    cases kind with
    | xray => exact safely_xrayEnd h
    | wireGuard => exact safely_wgEnd h
    | openVpn => exact safely_ovpnEnd h
  | recover kind =>
    cases kind with
    | xray => exact safely_xrayRecover h
    | wireGuard => exact safely_wgRecover h
    | openVpn => exact safely_ovpnRecover h
  | childEnds pid => exact wp_modify (respects_dnsSafe _ _ (Coarser.le (trimmed_endChild pid w)) h)
  | engineEnds =>
    refine wp_modify (respects_dnsSafe w _ ⟨rfl, rfl, ?_, rfl⟩ h)
    funext who
    cases who with
    | tailscale => rfl
    | tunnel kind =>
      cases kind with
      | xray => rfl
      | openVpn => rfl
      | wireGuard =>
        show Option.map _ (Option.map _ w.wireGuard) = Option.map _ w.wireGuard
        cases w.wireGuard <;> rfl

/-- The setting is the user's, or a journal has it; and where no journal is left, it is the
user's. -/
def SettingKept (user : List DnsLine) (w : Machine) : Prop :=
  (w.dns ≠ user → ∃ kind record servers, w.journal (.tunnel kind) = some record ∧
    record.dns = some servers ∧ dnsOf servers = user) ∧
  ((∀ kind, w.journal (.tunnel kind) = none) → w.dns = user)

theorem DnsKept.settingKept (h : DnsKept user w) : SettingKept user w := by
  have hheld : w.dns ≠ user → ∃ kind record servers, w.journal (.tunnel kind) = some record ∧
      record.dns = some servers ∧ dnsOf servers = user := by
    intro hne
    obtain ⟨kind, record, hrecord, hsome, _⟩ := h.held hne
    obtain ⟨servers, hservers⟩ := isSome_iff_exists.mp hsome
    exact ⟨kind, record, servers, hrecord, hservers, h.journaled kind record servers hrecord
      hservers⟩
  refine ⟨hheld, ?_⟩
  intro hcleared
  by_contra hne
  obtain ⟨kind, record, _, hrecord, _⟩ := hheld hne
  rw [hcleared kind] at hrecord
  cases hrecord

theorem Unused.dnsSafe (h : Unused w) : DnsSafe w.dns w := by
  have hidle : ∀ kind, w.sessionRecord (.tunnel kind) = none := by
    intro kind
    cases kind with
    | xray => simp [Machine.sessionRecord, h.xray]
    | wireGuard => simp [Machine.sessionRecord, h.wireGuard]
    | openVpn => simp [Machine.sessionRecord, h.openVpn]
  intro _
  refine ⟨?_, ?_, fun hne => absurd rfl hne⟩
  · intro kind record servers hrecord
    rw [h.journal] at hrecord
    cases hrecord
  · intro kind record servers hrecord
    rw [hidle] at hrecord
    cases hrecord

/-- Over any sequence of requests and events, crashes and restarts included, and at every point
of the last one: as long as `dnsClean` is not lost, the user's setting is not lost. -/
theorem dns_setting_kept {w t u : Machine} (hstart : Unused w)
    (hrun : Reaches handleCall (fun _ _ => True) w t) (request : TunnelRequest)
    (vs rest : List (Verdict Fault)) {outcome : Outcome TunnelError Unit}
    (hlast : runRequest request t vs = (outcome, u, rest)) (hclean : u.dnsClean = true) :
    SettingKept w.dns u := by
  have ht : DnsSafe w.dns t := by
    refine hrun.invariant (C := fun _ => True) hstart.dnsSafe ?_
    intro v call hv _
    apply wp_restarting
    exact wp_mono (safely_runRequest call.1 hv) (fun _ _ hs => hs) (fun _ _ hs => hs)
      (fun _ hs => hs.restarted call.2)
  have hend := safely_runRequest request ht vs fun _ _ => trivial
  rw [hlast] at hend
  cases outcome with
  | ok _ => exact (hend.2 hclean).settingKept
  | err _ => exact (hend.2 hclean).settingKept
  | crash => exact (hend hclean).settingKept

end

/-! ### A rollback that cannot put the DNS back -/

/-- A machine with the DNS of its router. -/
def pierMachine : Machine := .initial .empty [.address (.v4 0xc0a80101)]

theorem unused_pierMachine : Unused pierMachine := ⟨fun _ => rfl, rfl, rfl, rfl⟩

def pierSurroundings : XraySurroundings :=
  { verified := .ok ()
    uplink := some ⟨"en0", some 0xc0a80101⟩
    service := true
    resolve := fun _ => []
    assets := false
    geoValid := true
    tun := "utun10"
    settles := true }

/-- A primary. -/
def pierRequest : XrayRequest :=
  { uid := 501
    profileId := "pier"
    role := .primary
    config := .runnable
    proxyExits := false
    routes := []
    dnsBypass := []
    geoAssets := false }

def pierConnect : TunnelRequest := .xrayConnect pierSurroundings pierRequest

/-- The DNS is set and reported as a failure, and then it cannot be set back. -/
def pierSchedule : List (Verdict Fault) :=
  List.replicate 21 .proceed ++ [.fail .other] ++ List.replicate 10 .proceed ++ [.fail .other]

/-- An undisturbed connect: the DNS is the tunnel's, and the journal has the router's. -/
theorem pier_setting_kept :
    SettingKept pierMachine.dns (runRequest pierConnect pierMachine []).2.1 ∧
      (runRequest pierConnect pierMachine []).2.1.dns ≠ pierMachine.dns :=
  ⟨dns_setting_kept unused_pierMachine .start pierConnect [] _ (eq_of_outcome (o := .ok ())
    (by decide +kernel)) (by decide +kernel), by decide +kernel⟩

/-- The rollback of a connect clears the journal over a DNS that is still the tunnel's. -/
theorem pier_setting_lost :
    ¬∀ w t u : Machine, Unused w → Reaches handleCall (fun _ _ => True) w t →
      ∀ (request : TunnelRequest) (vs rest : List (Verdict Fault))
        (outcome : Outcome TunnelError Unit),
        runRequest request t vs = (outcome, u, rest) → SettingKept w.dns u := by
  intro hall
  have hkept := hall pierMachine pierMachine _ unused_pierMachine .start pierConnect pierSchedule
    _ _ (eq_of_outcome (o := .err (.unavailable "The system DNS could not be changed"))
      (by decide +kernel))
  have hcleared : ∀ kind, (runRequest pierConnect pierMachine pierSchedule).2.1.journal
      (.tunnel kind) = none := by
    intro kind
    cases kind <;> decide +kernel
  have hdns : (runRequest pierConnect pierMachine pierSchedule).2.1.dns ≠ pierMachine.dns := by
    decide +kernel
  exact hdns (hkept.2 hcleared)

end NetOrchestrator.Macos
