import NetOrchestrator.Proofs.OwnerFrame

/-!
# `Proofs.TunnelFrame`: what tunnels write into the journal

After its first entry is pushed, a connect journals addresses, routes, rules and DNS
settings, none of which records a mark, and rewrites its marker without touching the marks.
So do the OpenVPN pass, apart from the moment a session becomes a full tunnel, and the Xray
restarts. Every shrinking predicate is therefore an invariant of these programs.
-/

namespace NetOrchestrator.Daemon

open Net Lib Lib.Call

/-! ### Allocators and lookups leave the journal alone -/

variable (uid : Nat) (name : String) (origin : Origin) (key : OwnerKey) {α : Type} {m : Prog α}
  (new : Nat) (resource : OwnedResource)

theorem journalFree_position (owner : Owner) : JournalFree (position uid owner) := .gets _

theorem journalFree_freeFullSlot (journal : Journal) (marks : List Nat)
    (rules : List OwnedRuleResource) (slots : List Nat) :
    JournalFree (freeFullSlot journal marks rules slots) := by
  induction slots with
  | nil => exact .pure none
  | cons slot rest ih =>
    refine JournalFree.ite ih ?_
    exact (journalFree_query _).bind fun _ => ih.ite (.pure _)

theorem journalFree_allocateFull (plan : WireGuardPlan) : JournalFree (allocateFull plan) := by
  refine JournalFree.ite (.pure none) ?_
  refine (JournalFree.gets _).bind fun _ => JournalFree.ite (.throw _) ?_
  refine (JournalFree.gets _).bind fun _ => JournalFree.ite ?_ (.throw _)
  refine (journalFree_query _).bind fun rules => (journalFree_query _).bind fun marks => ?_
  refine (JournalFree.gets _).bind fun journal => ?_
  refine (journalFree_freeFullSlot _ _ _ _).bind fun slot => ?_
  cases slot with
  | some slot => exact .pure _
  | none => exact .throw _

theorem journalFree_tableOccupied (table : Nat) : JournalFree (tableOccupied table) := by
  refine (JournalFree.gets _).bind fun _ => JournalFree.ite ?_ (.pure false)
  apply (journalFree_query _).either
  · exact fun used => .pure used
  · exact fun e => .pure true

theorem journalFree_existingRules : JournalFree existingRules :=
  (JournalFree.gets _).bind fun _ => (journalFree_query _).ite (.pure [])

theorem journalFree_openvpnNameFree : JournalFree (openvpnNameFree uid name) :=
  (journalFree_runnerLinkIndex name).bind fun _ =>
    ((journalFree_query _).bind fun _ => .pure _).ite (.pure false)

theorem journalFree_resolveOpenvpnName (plan : OpenVpnPlan) :
    JournalFree (resolveOpenvpnName uid plan) := by
  refine (journalFree_openvpnNameFree _ _).bind fun _ => JournalFree.ite (.pure _) ?_
  refine JournalFree.ite (.throw _) ?_
  exact (journalFree_openvpnNameFree _ _).bind fun _ => JournalFree.ite (.pure _) (.throw _)

theorem journalFree_createWireguardLink (name fallback marker : String) :
    JournalFree (createWireguardLink origin name fallback marker) := by
  apply (journalFree_onKernel _).either
  · exact fun index => .pure _
  · exact fun e => JournalFree.ite ((journalFree_onKernel _).bind fun _ => .pure _) (.throw _)

theorem journalFree_adjustIf (wanted : Bool) : JournalFree (adjustIf wanted) :=
  (journalFree_query _).ite (.pure ())

theorem journalFree_clearTunnelFailed : JournalFree (clearTunnelFailed key) := .modify fun _ => rfl

theorem journalFree_clearXrayRestarts : JournalFree (clearXrayRestarts key) := .modify fun _ => rfl

theorem journalFree_disconnectAbsent (message : String) :
    JournalFree (disconnectAbsent key message) :=
  (JournalFree.gets _).bind fun _ => (journalFree_clearTunnelFailed key).ite (.throw _)

theorem journalFree_xrayStage (stage : String) (h : JournalFree m) :
    JournalFree (xrayStage stage m) :=
  h.either (fun a => .pure a) fun _ => .throw _

theorem journalFree_ensureXrayQuic (index : Nat) : JournalFree (ensureXrayQuic index) := by
  refine (journalFree_entryAt index).bind fun entry => ?_
  cases findQuicProcess entry.resources with
  | none => exact .pure ()
  | some process =>
    exact (JournalFree.gets _).bind fun _ => (journalFree_quicEnsure _ _).ite (.throw _)

theorem journalFree_tunLink (stage name : String) : JournalFree (tunLink stage name) := by
  refine (journalFree_xrayStage _ (journalFree_runnerLinkIndex _)).bind fun link => ?_
  cases link with
  | some index => exact .pure index
  | none => exact .throw _

theorem journalFree_startXrayChild : JournalFree (startXrayChild origin uid name) := by
  apply (journalFree_xrayStart _ _ _).either
  · exact fun u => .pure ()
  · exact fun e => .throw _

theorem journalFree_withWg (h : JournalFree m) : JournalFree (withWg m) :=
  (JournalFree.gets _).bind fun _ => h.ite (.throw _)

theorem journalFree_rebindAddress : JournalFree (rebindAddress new resource) := by
  cases resource with
  | address a => exact journalFree_withWg (journalFree_onKernel _)
  | _ => exact .pure ()

theorem journalFree_rebindMtu : JournalFree (rebindMtu resource) := by
  cases resource with
  | xrayProcess p => exact journalFree_adjustIf _
  | _ => exact .pure ()

theorem journalFree_rebindRoute : JournalFree (rebindRoute origin new resource) := by
  cases resource with
  | route r => exact (journalFree_onKernel _).tolerate.ite (.pure ())
  | _ => exact .pure ()

theorem journalFree_applyEvents (events : List ManagementEvent) :
    JournalFree (applyEvents key events) := by
  induction events with
  | nil => exact .pure _
  | cons event rest ih =>
    unfold applyEvents
    split
    · exact .pure _
    · exact .pure _
    · exact .pure _
    · refine JournalFree.bind ?_ fun _ => ih
      exact .modify fun _ => rfl

theorem journalFree_sessionLink : JournalFree (sessionLink name) := by
  refine (journalFree_runnerLinkIndex name).bind fun link => ?_
  cases link with
  | some index => exact .pure index
  | none => exact .throw _

namespace Shrinking

variable {P : Journal → Prop} {V : Verdict Fault → Prop}

/-! ### WireGuard -/

section
variable (hP : Shrinking P)
include hP

variable (index : Nat) (e : IoError)

theorem writeAhead {resource : OwnedResource} (hr : resource.Plain)
    {act : Prog Unit} (hact : JournalFree act) :
    Keeps V (OnJournal P) (writeAhead index resource act) := by
  refine Keeps.bind (hP.updateEntry index fun _ => .push hr) fun _ => ?_
  exact journalFree_save.before fun _ => hact.onJournal

theorem wireguardDns (index ifindex : Nat) (name : String) (plan : WireGuardPlan) (full : Bool) :
    Keeps V (OnJournal P) (wireguardDns index ifindex name plan full) := by
  refine Keeps.ite (Keeps.pure ()) ?_
  refine Keeps.bind (hP.updateEntry index fun _ => .push ⟨rfl, rfl⟩) fun _ => ?_
  refine journalFree_save.before fun _ => ?_
  refine (journalFree_asOther (journalFree_dnsApply _ _ _ _)).before fun outcome => ?_
  refine Keeps.bind (hP.updateEntry index fun _ => .recordWireguardDns outcome) fun _ => ?_
  exact journalFree_save.onJournal

theorem configureWireguard (index ifindex : Nat) (name : String) (origin : Origin)
    (plan : WireGuardPlan) (full : Option WireGuardFullResource) :
    Keeps V (OnJournal P) (configureWireguard index ifindex name origin plan full) := by
  refine (journalFree_query _).before fun _ => ?_
  refine (journalFree_query _).before fun endpoints => ?_
  refine Keeps.ite (Keeps.throw _) ?_
  refine (journalFree_adjustIf _).before fun _ => ?_
  refine Keeps.bind (Keeps.forEach (fun address => ?_) _) fun _ => ?_
  · exact hP.writeAhead index ⟨rfl, rfl⟩ (journalFree_onKernel _)
  refine (journalFree_adjustIf _).before fun _ => ?_
  refine (journalFree_query _).before fun _ => ?_
  refine Keeps.bind (Keeps.forEach (fun route => ?_) _) fun _ => ?_
  · exact hP.writeAhead index ⟨rfl, rfl⟩ (journalFree_onKernel _)
  refine Keeps.bind ?_ fun _ => hP.wireguardDns index ifindex name plan _
  cases full with
  | none => exact Keeps.pure ()
  | some full =>
    refine Keeps.bind (Keeps.forEach (fun rule => ?_) _) fun _ => (journalFree_query _).onJournal
    exact hP.writeAhead index ⟨rfl, rfl⟩ (journalFree_onKernel _)

theorem establishWireguard (origin : Origin) (name fallback marker : String)
    (plan : WireGuardPlan) (full : Option WireGuardFullResource) :
    Keeps V (OnJournal P) (establishWireguard index origin name fallback marker plan full) := by
  refine (journalFree_createWireguardLink _ _ _ _).before fun link => ?_
  refine Keeps.bind (hP.updateEntry index fun _ => .updateLink fun _ => rfl) fun _ => ?_
  exact journalFree_save.before fun _ =>
    hP.configureWireguard index link.1 link.2 origin plan full

theorem abandon {α : Type} : Keeps V (OnJournal P) (abandon index e : Prog α) := by
  refine Keeps.bind (Keeps.attempt (hP.teardownEntry index)) fun _ => ?_
  exact journalFree_persist.before fun _ => Keeps.throw e

theorem failWireguard : Keeps V (OnJournal P) (failWireguard index e) := by
  refine (journalFree_entryAt index).before fun entry => ?_
  refine Keeps.ite ?_ (hP.abandon index e)
  refine Keeps.bind (hP.removeEntry index) fun _ => ?_
  exact journalFree_persist.before fun _ => Keeps.throw e

theorem commitTunnel : Keeps V (OnJournal P) (commitTunnel index) := by
  refine Keeps.bind (hP.updateEntry index fun _ => .setState _) fun _ => ?_
  exact journalFree_save.beforeEither (fun _ => Keeps.pure ()) fun e => hP.abandon index e

/-- A connect keeps what holds once its entry is pushed. -/
theorem connectWireguardEntry {uid : Nat} {profileId : String} {plan : WireGuardPlan}
    {full : Option WireGuardFullResource} {core : DaemonCore}
    (hpush : ∀ link : WireGuardLinkResource, link.full = full →
      P (core.journal ++ [⟨uid, .wg profileId, .applying, [.wireGuardLink link]⟩])) :
    wp V (connectWireguardEntry uid profileId plan full) (fun _ => OnJournal P)
      (fun _ => OnJournal P) (OnJournal P) core := by
  unfold Daemon.connectWireguardEntry
  generalize wireguardName uid profileId plan.interfaceName = names
  obtain ⟨name, fallback⟩ := names
  refine wp_bind (wp_pushEntry (wp_read ?_))
  refine journalFree_save.attempt.before (fun saved => ?_) _ ?_
  · cases saved with
    | error e => exact Keeps.bind hP.dropLast fun _ => Keeps.throw e
    | ok u =>
      refine (hP.establishWireguard _ _ _ _ _ _ _).either (fun _ => ?_)
        fun e => hP.failWireguard _ e
      exact Keeps.bind (hP.commitTunnel _) fun _ => (journalFree_clearTunnelFailed _).onJournal
  · exact hpush _ rfl

theorem disconnectWireguard (uid : Nat) (profileId : String) :
    Keeps V (OnJournal P) (disconnectWireguard uid profileId) := by
  refine (journalFree_demand _).before fun _ => ?_
  refine (journalFree_position _ _).before fun pos => ?_
  cases pos with
  | none => exact (journalFree_disconnectAbsent _ _).onJournal
  | some index =>
    refine Keeps.bind (Keeps.attempt (hP.teardownEntry index)) fun result => ?_
    exact journalFree_save.before fun _ => Keeps.ofExcept result

end

/-! ### OpenVPN -/

section
variable (hP : Shrinking P)
include hP

variable (uid : Nat) (owner : Owner) (index : Nat)

theorem undoOpenvpn : Keeps V (OnJournal P) (failOpenvpn.undoOpenvpn uid owner) := by
  refine (journalFree_position _ _).before fun pos => ?_
  cases pos with
  | none => exact Keeps.pure ()
  | some index =>
    refine Keeps.bind (Keeps.attempt (hP.teardownOpenvpnEntry index)) fun _ => ?_
    exact journalFree_persist.onJournal

theorem failOpenvpn : Keeps V (OnJournal P) (failOpenvpn uid owner) := by
  refine Keeps.bind (hP.undoOpenvpn uid owner) fun _ => ?_
  exact Keeps.bind (JournalFree.modify fun _ => rfl).onJournal fun _ => Keeps.throw _

theorem orFail {α : Type} {m : Prog α} {next : α → Prog Unit}
    (hm : Keeps V (OnJournal P) m) (hnext : ∀ a, Keeps V (OnJournal P) (next a)) :
    Keeps V (OnJournal P) (orFail uid owner m next) := by
  exact hm.either (fun a => hnext a) fun _ => hP.failOpenvpn uid owner

theorem popResource : Keeps V (OnJournal P) (popResource index) :=
  hP.updateEntry index fun _ => .pop

theorem popIfTaken (e : IoError) : Keeps V (OnJournal P) (popIfTaken index e) :=
  Keeps.ite (hP.popResource index) (Keeps.pure ())

theorem installOpenvpnRoutes (routes : List AppliedRoute) :
    Keeps V (OnJournal P) (installOpenvpnRoutes uid owner index routes) := by
  induction routes with
  | nil => exact Keeps.pure ()
  | cons route rest ih =>
    refine Keeps.bind (hP.updateEntry index fun _ => .push ⟨rfl, rfl⟩) fun _ => ?_
    apply journalFree_save.beforeEither
    · intro u
      exact (journalFree_onKernel _).beforeEither (fun _ => ih)
        fun e => Keeps.bind (hP.popIfTaken index e) fun _ => hP.failOpenvpn uid owner
    · intro e
      refine Keeps.bind (hP.popResource index) fun _ => ?_
      exact Keeps.bind (Keeps.attempt (hP.failOpenvpn uid owner)) fun _ => Keeps.throw e

theorem installOpenvpnRules (rules : List OwnedRuleResource) :
    Keeps V (OnJournal P) (installOpenvpnRules uid owner index rules) := by
  induction rules with
  | nil => exact Keeps.pure ()
  | cons rule rest ih =>
    refine Keeps.bind (hP.updateEntry index fun _ => .push ⟨rfl, rfl⟩) fun _ => ?_
    refine journalFree_save.beforeEither (fun u => ?_)
      fun _ => Keeps.bind (hP.popResource index) fun _ => hP.failOpenvpn uid owner
    exact (journalFree_onKernel _).beforeEither (fun _ => ih)
      fun e => Keeps.bind (hP.popIfTaken index e) fun _ => hP.failOpenvpn uid owner

theorem installOpenvpnDns (index link : Nat) (name : String)
    (plan : OpenVpnNetworkPlan) (full : Bool) :
    Keeps V (OnJournal P) (installOpenvpnDns uid owner index link name plan full) := by
  refine Keeps.ite (Keeps.pure ()) ?_
  refine Keeps.bind (hP.updateEntry index fun _ => .push ⟨rfl, rfl⟩) fun _ => ?_
  refine journalFree_save.beforeEither (fun _ => ?_)
    fun _ => Keeps.bind (hP.popResource index) fun _ => hP.failOpenvpn uid owner
  refine (journalFree_dnsApply _ _ _ _).attempt.before fun outcome => ?_
  match outcome with
  | .ok .applied =>
    exact Keeps.bind (hP.updateEntry index fun _ => .dnsApplied)
      fun _ => journalFree_persist.onJournal
  | .ok .unavailable => exact Keeps.pure ()
  | .ok .skipped => exact Keeps.pure ()
  | .error _ => exact hP.failOpenvpn uid owner

theorem disconnectOpenvpn (profileId : String) :
    Keeps V (OnJournal P) (disconnectOpenvpn uid profileId) := by
  refine (journalFree_position _ _).before fun pos => ?_
  cases pos with
  | none =>
    refine Keeps.bind (Keeps.gets _) fun _ => Keeps.ite ?_ (Keeps.throw _)
    exact (JournalFree.modify fun _ => rfl).onJournal
  | some index =>
    refine (hP.teardownEntry index).either (fun _ => ?_)
      fun e => journalFree_persist.before fun _ => Keeps.throw e
    exact journalFree_persist.before fun _ =>
      (JournalFree.modify fun _ => rfl).onJournal

end

/-! ### Xray -/

section
variable (hP : Shrinking P)
include hP

variable (index : Nat)

theorem claimResource {resource : OwnedResource} (hr : resource.Plain)
    (journalStage stage : String) {act : Prog Unit} (hact : JournalFree act) :
    Keeps V (OnJournal P) (claimResource index resource journalStage stage act) := by
  refine Keeps.bind (hP.updateEntry index fun _ => .push hr) fun _ => ?_
  refine (journalFree_xrayStage _ journalFree_save).before fun _ => ?_
  exact hact.beforeEither (fun _ => Keeps.pure ())
    fun e => Keeps.bind (hP.popIfTaken index e) fun _ => Keeps.throw _

theorem addXrayBypass (origin : Origin) (ip : IpAddr) :
    Keeps V (OnJournal P) (addXrayBypass index origin ip) := by
  refine Keeps.bind (Keeps.gets _) fun view => ?_
  split
  · exact Keeps.pure ()
  · refine Keeps.bind (hP.updateEntry index fun _ => .push ⟨rfl, rfl⟩) fun _ => ?_
    refine (journalFree_xrayStage _ journalFree_save).before fun _ => ?_
    exact (journalFree_onKernel _).beforeEither (fun _ => Keeps.pure ())
      fun _ => Keeps.ite (hP.popResource index) (Keeps.throw _)

theorem xrayDns (index link : Nat) (plan : XrayPlan) (full : Bool) :
    Keeps V (OnJournal P) (xrayDns index link plan full) := by
  refine Keeps.ite (Keeps.pure ()) ?_
  refine Keeps.bind (hP.updateEntry index fun _ => .push ⟨rfl, rfl⟩) fun _ => ?_
  refine (journalFree_xrayStage _ journalFree_save).before fun _ => ?_
  refine (journalFree_dnsApply _ _ _ _).attempt.before fun outcome => ?_
  match outcome with
  | .ok .applied =>
    exact Keeps.bind (hP.updateEntry index fun _ => .dnsApplied)
      fun _ => (journalFree_xrayStage _ journalFree_save).onJournal
  | .ok .unavailable => exact Keeps.pure ()
  | .ok .skipped => exact Keeps.pure ()
  | .error _ => exact Keeps.throw _

theorem applyXrayPlan (index uid : Nat) (origin : Origin) (plan : XrayPlan)
    (full : Option WireGuardFullResource) :
    Keeps V (OnJournal P) (applyXrayPlan index uid origin plan full) := by
  refine (journalFree_startXrayChild _ _ _).before fun _ => ?_
  refine (journalFree_tunLink _ _).before fun link => ?_
  refine Keeps.bind (hP.updateEntry index fun _ => .updateProcess fun _ => ⟨rfl, rfl⟩) fun _ => ?_
  refine (journalFree_xrayStage _ journalFree_save).before fun _ => ?_
  refine Keeps.bind (hP.claimResource index ⟨rfl, rfl⟩ _ _ (journalFree_onKernel _)) fun _ => ?_
  refine (journalFree_xrayStage _ (journalFree_query _)).before fun _ => ?_
  refine (journalFree_xrayStage _ (journalFree_query _)).before fun _ => ?_
  refine (journalFree_xrayStage _ (journalFree_ensureXrayQuic _)).before fun _ => ?_
  refine Keeps.bind ?_ fun _ => ?_
  · exact Keeps.bind (Keeps.gets _) fun targets =>
      Keeps.forEach (fun ip => hP.addXrayBypass index origin ip) targets
  refine Keeps.bind (Keeps.forEach (fun route => ?_) _) fun _ => ?_
  · exact hP.claimResource index ⟨rfl, rfl⟩ _ _ (journalFree_onKernel _)
  refine Keeps.bind (Keeps.forEach (fun rule => ?_) _) fun _ => hP.xrayDns index link plan _
  exact hP.claimResource index ⟨rfl, rfl⟩ _ _ (journalFree_onKernel _)

theorem abandonXray {α : Type} (e : IoError) :
    Keeps V (OnJournal P) (abandonXray index e : Prog α) := by
  refine Keeps.bind (Keeps.attempt (hP.teardownXrayEntry index)) fun _ => ?_
  exact journalFree_persist.before fun _ => Keeps.throw e

theorem commitXray : Keeps V (OnJournal P) (commitXray index) := by
  refine Keeps.bind (hP.updateEntry index fun _ => .setState _) fun _ => ?_
  exact journalFree_save.beforeEither (fun _ => Keeps.pure ()) fun _ => hP.abandonXray index _

theorem disconnectXray (uid : Nat) (profileId : String) :
    Keeps V (OnJournal P) (disconnectXray uid profileId) := by
  refine (journalFree_position _ _).before fun pos => ?_
  cases pos with
  | none => exact (journalFree_disconnectAbsent _ _).onJournal
  | some index =>
    refine Keeps.bind (Keeps.attempt (hP.teardownEntry index)) fun result => ?_
    refine (journalFree_clearXrayRestarts _).before fun _ => ?_
    exact journalFree_save.before fun _ => Keeps.ofExcept result

theorem rebindDns (resources : List OwnedResource) :
    Keeps V (OnJournal P) (rebindDns index resources) := by
  unfold Daemon.rebindDns
  split
  · exact Keeps.pure ()
  · refine Keeps.bind (Keeps.gets _) fun _ => Keeps.ite ?_ (Keeps.pure ())
    refine (journalFree_dnsApply _ _ _ _).attempt.before fun outcome => ?_
    exact Keeps.bind (hP.updateEntry index fun _ => .setDnsApplied _)
      fun _ => journalFree_save.onJournal

theorem rebindXrayLink (index old new : Nat) :
    Keeps V (OnJournal P) (rebindXrayLink index old new) := by
  refine Keeps.bind (hP.updateEntry index fun _ => .map (OwnedResource.rebind_within old new))
    fun _ => ?_
  refine journalFree_save.before fun _ => ?_
  refine (journalFree_entryAt index).before fun entry => ?_
  refine (JournalFree.forEach (journalFree_rebindAddress new) _).before fun _ => ?_
  refine (journalFree_query _).before fun _ => ?_
  refine (JournalFree.forEach journalFree_rebindMtu _).before fun _ => ?_
  refine (journalFree_ensureXrayQuic index).before fun _ => ?_
  refine (JournalFree.forEach (journalFree_rebindRoute _ new) _).before fun _ => ?_
  exact hP.rebindDns index entry.resources

end

theorem xrayStage {α : Type} (stage : String) {m : Prog α} (h : Keeps V (OnJournal P) m) :
    Keeps V (OnJournal P) (xrayStage stage m) :=
  h.either (fun a => Keeps.pure a) fun _ => Keeps.throw _

theorem reloadXray (hP : Shrinking P) (uid : Nat) (profileId : String)
    (prepare : Nat → Except IoError XrayPlan) :
    Keeps V (OnJournal P) (reloadXray uid profileId prepare) := by
  refine (journalFree_demand _).before fun _ => ?_
  refine (journalFree_position _ _).before fun pos => ?_
  cases pos with
  | none => exact Keeps.throw _
  | some index =>
    refine (journalFree_entryAt index).before fun entry => ?_
    refine Keeps.ite (Keeps.throw _) ?_
    split
    · exact Keeps.throw _
    · rename_i process _
      refine Keeps.bind (Keeps.ofExcept _) fun plan => ?_
      refine Keeps.bind (Keeps.gets _) fun view => Keeps.ite (Keeps.throw _) ?_
      refine Keeps.bind (Keeps.gets _) fun _ => Keeps.ite ?_ (Keeps.throw _)
      refine (journalFree_xrayStage _ (journalFree_xrayRestart _ _ _)).before fun _ => ?_
      refine (journalFree_tunLink _ _).before fun link => ?_
      refine Keeps.bind (xrayStage _ (hP.rebindXrayLink index _ link)) fun _ => ?_
      refine Keeps.bind (hP.updateEntry index fun _ => .map (setProcessMtu_within _)) fun _ => ?_
      refine (journalFree_xrayStage _ journalFree_save).before fun _ => ?_
      exact (journalFree_clearXrayRestarts _).before fun _ =>
        (journalFree_clearTunnelFailed _).onJournal

end Shrinking

end NetOrchestrator.Daemon
