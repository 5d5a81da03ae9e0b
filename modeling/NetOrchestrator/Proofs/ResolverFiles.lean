import NetOrchestrator.Proofs.Bookkeeping

/-!
# `Proofs.ResolverFiles`: what a request does to the split DNS

A file in `/etc/resolver` says who wrote it only by its first line, and that is the same for every
executor. So what an executor removes or replaces is decided by the domains that it has on record
and the ones that it is asked for, and by nothing else. `Confined` says this of a request at each
of its points: files of other domains stay, files without the marker stay, and what the other
executors have on record stays.
-/

namespace NetOrchestrator.Macos

open Net Lib Lib.Call List Option Verdict Table
open Daemon (ManagementEvent)

variable (w : Machine)

/-- The domains that a component has on record, in its journal or its session. -/
def Machine.recordedDomains (who : Component) : List String :=
  (w.journal who).elim [] Record.resolverDomains ++
    (w.sessionRecord who).elim [] Record.resolverDomains

/-! ### What a request asks for -/

/-- The session after these events. -/
def OpenVpnActive.heard (active : OpenVpnActive) (events : List ManagementEvent) : OpenVpnActive :=
  events.foldl
    (fun active event =>
      match event with
      | .passwordPrompt => active
      | event => { active with snapshot := active.snapshot.apply event })
    active

/-- A push is there that has not been applied. -/
def OpenVpnActive.pushDue (active : OpenVpnActive) : Bool :=
  active.upWithPush && active.snapshot.activePush.any fun push =>
    active.applied != some (active.networks push, pushedServers push)

/-- The suffixes of a session whose push is applied now. -/
def OpenVpnActive.asks (active : OpenVpnActive) : List String :=
  if active.role = .secondary ∧ active.pushDue then splitDomains active.dnsDomains else []

/-- The suffixes that a WireGuard connect puts on record. It does so only if the request passes
its checks, which read nothing of the machine, and no session is there. -/
def Machine.wgAsks (request : WgRequest) : List String :=
  if w.wireGuard.any WireGuardActive.engineAlive then []
  else
    match (wgCheck request w []).1 with
    | .ok (config, _) => wgDomains request config
    | _ => []

/-- The suffixes that a request puts on record: those of a WireGuard connect, and those of an
OpenVPN session as its push is applied. -/
def Machine.asks (w : Machine) : TunnelRequest → List String
  | .wgConnect _ request => w.wgAsks request
  | .events profileId events remote _ =>
    (w.openVpn.filter fun active => active.profileId == profileId).elim [] fun active =>
      ((active.learnRemote remote).heard events).asks
  | _ => []

/-- The executor whose request it is. -/
def TunnelRequest.tunnel : TunnelRequest → Option Kind
  | .xrayConnect _ _ => some .xray
  | .xrayDisconnect _ _ => some .xray
  | .wgConnect _ _ => some .wireGuard
  | .wgDisconnect _ _ => some .wireGuard
  | .ovpnConnect _ _ => some .openVpn
  | .ovpnDisconnect _ _ => some .openVpn
  | .events _ _ _ _ => some .openVpn
  | .closed _ => some .openVpn
  | .reap kind => some kind
  | .shutdown kind => some kind
  | .recover kind => some kind
  | .childEnds _ => none
  | .engineEnds => some .wireGuard

/-! ### Confinement -/

/-- A primary has no split DNS. -/
structure PlainPrimaries (w : Machine) : Prop where
  wireGuard : ∀ active, w.wireGuard = some active → active.role = .primary →
    active.record.resolverDomains = []
  openVpn : ∀ active, w.openVpn = some active → active.role = .primary →
    active.record.resolverDomains = []

/-- `kind` is at work since `start`, and has gone by `domains` only. -/
structure Confined (kind : Option Kind) (domains : List String) (start w : Machine) : Prop where
  elsewhere : ∀ domain, domain ∉ domains → w.resolvers.get domain = start.resolvers.get domain
  foreign : ∀ file, file.marked = false →
    (w.resolvers.get file.domain = some file ↔ start.resolvers.get file.domain = some file)
  recorded : ∀ k, kind = some k → k ≠ .xray → w.recordedDomains (.tunnel k) ⊆ domains
  others : ∀ k, kind ≠ some k → w.recordedDomains (.tunnel k) = start.recordedDomains (.tunnel k)
  plain : PlainPrimaries w

/-- A program that stays confined, wherever it ends. -/
abbrev Confines (kind : Kind) (domains : List String) (start : Machine) {α : Type}
    (m : HelperProg α) : Prop :=
  Keeps Verdict.Any (Confined (some kind) domains start) m

/-- The files, the records and the sessions are the same. -/
structure FilesSame (w w' : Machine) : Prop where
  resolvers : w'.resolvers = w.resolvers
  journal : w'.journal = w.journal
  record : w'.sessionRecord = w.sessionRecord
  wireGuard : w'.wireGuard = w.wireGuard
  openVpn : w'.openVpn = w.openVpn

instance : Coarser Aside FilesSame :=
  ⟨fun h => ⟨h.resolvers, h.journal, h.record, h.wireGuard, h.openVpn⟩⟩

instance : Coarser Trimmed FilesSame :=
  ⟨fun h => ⟨h.resolvers, h.journal, h.record, h.wireGuard, h.openVpn⟩⟩

instance : Coarser Rerouted FilesSame :=
  ⟨fun h => ⟨h.resolvers, h.journal, h.record, h.wireGuard, h.openVpn⟩⟩

instance : Coarser DnsMoved FilesSame :=
  ⟨fun h => ⟨h.resolvers, h.journal, h.record, h.wireGuard, h.openVpn⟩⟩

section
variable {kind : Option Kind} {k : Kind} {domains : List String} {start w w' : Machine}
variable {domain : String}

/-- Nothing has happened yet. -/
theorem Confined.refl (h : PlainPrimaries w)
    (hdomains : ∀ k, kind = some k → k ≠ .xray → w.recordedDomains (.tunnel k) ⊆ domains) :
    Confined kind domains w w where
  elsewhere _ _ := rfl
  foreign _ _ := Iff.rfl
  recorded := hdomains
  others _ _ := rfl
  plain := h

theorem respects_confined : Respects FilesSame (Confined kind domains start) := by
  intro w w' hsame h
  have hrecorded : w'.recordedDomains = w.recordedDomains := by
    funext who
    rw [Machine.recordedDomains, hsame.journal, hsame.record, Machine.recordedDomains]
  refine ⟨?_, ?_, ?_, ?_, ?_, ?_⟩
  · rw [hsame.resolvers]
    exact h.elsewhere
  · rw [hsame.resolvers]
    exact h.foreign
  · rw [hrecorded]
    exact h.recorded
  · rw [hrecorded]
    exact h.others
  · rw [hsame.wireGuard]
    exact h.plain.wireGuard
  · rw [hsame.openVpn]
    exact h.plain.openVpn

/-- The records of one executor change, and stay within its domains. -/
theorem Confined.record (h : Confined (some k) domains start w)
    (hresolvers : w'.resolvers = w.resolvers) (hothers : ∀ other, other ≠ k →
      w'.recordedDomains (.tunnel other) = w.recordedDomains (.tunnel other))
    (hown : k ≠ .xray → w'.recordedDomains (.tunnel k) ⊆ domains) (hplain : PlainPrimaries w') :
    Confined (some k) domains start w' where
  elsewhere := by
    rw [hresolvers]
    exact h.elsewhere
  foreign := by
    rw [hresolvers]
    exact h.foreign
  recorded := by
    intro other hother hne
    cases hother
    exact hown hne
  others := by
    intro other hother
    rw [hothers other fun heq => hother (heq ▸ rfl)]
    exact h.others other hother
  plain := hplain

variable (h : Confined kind domains start w) (hdomain : domain ∈ domains)
  (hours : w.resolverOurs domain = true)
include h hdomain hours

/-- One file is gone or another, which had the marker or was not there. -/
theorem Confined.file
    (hother : ∀ other, other ≠ domain → w'.resolvers.get other = w.resolvers.get other)
    (hnew : ∀ file, w'.resolvers.get domain = some file → file.marked = true)
    (hrecorded : w'.recordedDomains = w.recordedDomains) (hplain : PlainPrimaries w') :
    Confined kind domains start w' where
  elsewhere := by
    intro other hnot
    rw [hother other fun heq => hnot (heq ▸ hdomain)]
    exact h.elsewhere other hnot
  foreign := by
    intro file hmarked
    by_cases heq : file.domain = domain
    · -- Neither the new file nor the old one is this file, which has no marker.
      have hnow : w'.resolvers.get file.domain ≠ some file := by
        intro hget
        rw [heq] at hget
        exact absurd (hnew file hget) (by simp [hmarked])
      have hbefore : w.resolvers.get file.domain ≠ some file := by
        intro hget
        rw [heq] at hget
        rw [Machine.resolverOurs, hget] at hours
        exact absurd hours (by simp [hmarked])
      rw [← h.foreign file hmarked]
      exact iff_of_false hnow hbefore
    · rw [hother _ heq]
      exact h.foreign file hmarked
  recorded := by
    rw [hrecorded]
    exact h.recorded
  others := by
    rw [hrecorded]
    exact h.others
  plain := hplain

theorem Confined.erase :
    Confined kind domains start { w with resolvers := w.resolvers.erase domain } := by
  refine h.file hdomain hours ?_ ?_ rfl ⟨h.plain.wireGuard, h.plain.openVpn⟩
  · intro other hne
    show (w.resolvers.erase domain).get other = _
    rw [get_erase, if_neg hne]
  · intro file hget
    rw [show (w.resolvers.erase domain).get domain = none by
      rw [get_erase, if_pos rfl]] at hget
    cases hget

theorem Confined.written {who : Component} {servers : List IpAddr} :
    Confined kind domains start (w.resolverWritten who domain servers) := by
  have hfree : (w.resolvers.erase domain).has domain = false := by
    rw [← get_eq_none, get_erase, if_pos rfl]
  have hget : ∀ other, (w.resolverWritten who domain servers).resolvers.get other =
      if other = domain then some ⟨domain, servers, true, some who⟩
      else w.resolvers.get other := by
    intro other
    show ((w.resolvers.erase domain).insert _).get other = _
    rw [get_insert hfree]
    split
    · rfl
    · rw [get_erase, if_neg ‹_›]
  refine h.file hdomain hours ?_ ?_ rfl ⟨h.plain.wireGuard, h.plain.openVpn⟩
  · intro other hne
    rw [hget, if_neg hne]
  · intro file hfile
    rw [hget, if_pos rfl] at hfile
    cases hfile
    rfl

end

/-! ### Steps that leave files and records alone -/

section
variable {kind : Option Kind} {domains : List String} {start : Machine} {α : Type}
variable {m : HelperProg α}

theorem confined_free (h : Preserves FilesSame m) : Keeps Any (Confined kind domains start) m :=
  h.keeps respects_confined

theorem confined_orElse {error : TunnelError} (h : Keeps Any (Confined kind domains start) m) :
    Keeps Any (Confined kind domains start) (orElse error m) :=
  fun w hw => wp_orElse (h w hw)

theorem confined_orUndo {undo : HelperProg Unit} {report : TunnelError → TunnelError}
    (hundo : Keeps Any (Confined kind domains start) undo)
    (h : Keeps Any (Confined kind domains start) m) :
    Keeps Any (Confined kind domains start) (orUndo undo report m) :=
  fun w hw => wp_orUndo (wp_ends (h w hw) (fun _ _ hi => hi) (fun _ v hv => hundo v hv))

end

/-! ### Journals and files -/

section
variable {who other : Component} {k : Kind} {domains : List String} {start w : Machine}
  {record : Record}
variable {kind : Option Kind}

theorem recordedDomains_journaled (h : other ≠ who) (new : Option Record) (w : Machine) :
    (w.journaled who new).recordedDomains other = w.recordedDomains other := by
  have hsession : (w.journaled who new).sessionRecord other = w.sessionRecord other :=
    sessionRecord_congr rfl rfl rfl other
  rw [Machine.recordedDomains, journal_journaled_of_ne h, hsession, Machine.recordedDomains]

/-- What the session has on record. -/
theorem session_recorded (who : Component) (w : Machine) :
    (w.sessionRecord who).elim [] Record.resolverDomains ⊆ w.recordedDomains who :=
  subset_append_right _ _

theorem journal_recorded (who : Component) (w : Machine) :
    (w.journal who).elim [] Record.resolverDomains ⊆ w.recordedDomains who :=
  subset_append_left _ _

theorem Confined.journaled (h : Confined (some k) domains start w) {new : Option Record}
    (hnew : k ≠ .xray → ∀ record, new = some record → record.resolverDomains ⊆ domains) :
    Confined (some k) domains start (w.journaled (.tunnel k) new) := by
  refine h.record rfl ?_ ?_ ⟨h.plain.wireGuard, h.plain.openVpn⟩
  · intro other hother
    exact recordedDomains_journaled (by simpa using hother) _ w
  · intro hne
    have hsession : (w.journaled (.tunnel k) new).sessionRecord (.tunnel k) =
        w.sessionRecord (.tunnel k) := sessionRecord_congr rfl rfl rfl _
    rw [Machine.recordedDomains, journal_journaled, hsession]
    apply append_subset.mpr
    refine ⟨?_, List.Subset.trans (session_recorded _ w) (h.recorded k rfl hne)⟩
    cases new with
    | none => exact nil_subset _
    | some record => exact hnew hne record rfl

theorem confined_saveJournal (hrecord : k ≠ .xray → record.resolverDomains ⊆ domains) :
    Confines k domains start (saveJournal (.tunnel k) record) := by
  apply Keeps.bind (Keeps.attempt (Keeps.step fun w h =>
    h.journaled fun hne _ hnew => Option.some.inj hnew ▸ hrecord hne))
  intro answer
  cases answer with
  | ok _ => exact .pure ()
  | error e =>
    refine Keeps.bind (Keeps.modify fun w h => ?_) fun _ => .throw e
    exact respects_confined w _ ⟨rfl, rfl, rfl, rfl, rfl⟩ h

theorem confined_trySave (hrecord : k ≠ .xray → record.resolverDomains ⊆ domains) :
    Confines k domains start (trySave (.tunnel k) record) :=
  (confined_saveJournal hrecord).attempt.bind fun _ => .pure ()

theorem confined_clearJournal : Confines k domains start (clearJournal (.tunnel k)) := by
  apply Keeps.bind (Keeps.attempt (Keeps.step fun w h => h.journaled (by simp)))
  intro answer
  cases answer with
  | ok _ => exact .pure ()
  | error e =>
    refine Keeps.bind (Keeps.modify fun w h => ?_) fun _ => .throw e
    exact respects_confined w _ ⟨rfl, rfl, rfl, rfl, rfl⟩ h

theorem confined_tryClear : Confines k domains start (tryClear (.tunnel k)) :=
  confined_clearJournal.attempt.bind fun _ => .pure ()

/-- A file that has the marker is removed. -/
theorem confined_removeResolver {domain : String} (hdomain : domain ∈ domains) :
    Keeps Any (Confined kind domains start) (removeResolver domain) := by
  intro w h
  apply wp_read
  show wp Any (if _ then _ else _) _ _ _ w
  split
  · rename_i hcond
    obtain ⟨_, hmarked⟩ := Bool.and_eq_true_iff.mp hcond
    have hours : w.resolverOurs domain = true := by
      cases hfile : w.resolvers.get domain with
      | none => simp [Machine.resolverOurs, hfile]
      | some file =>
        rw [hfile] at hmarked
        simpa [Machine.resolverOurs, hfile] using hmarked
    apply wp_tried
    apply wp_command h
    · intro _
      exact wp_modify (respects_confined w _ ⟨rfl, rfl, rfl, rfl, rfl⟩ h)
    · exact wp_pure (h.erase hdomain hours)
  · exact wp_pure h

variable {names : List String}

theorem confined_resolverRemove (hnames : names ⊆ domains) :
    Keeps Any (Confined kind domains start) (resolverRemove names) := by
  show Keeps Any _ (forEach removeResolver names)
  induction names with
  | nil => exact .pure ()
  | cons name rest ih =>
    apply Keeps.bind (confined_removeResolver (hnames mem_cons_self))
    exact fun _ => ih fun name hname => hnames (mem_cons_of_mem _ hname)

/-- A file is replaced if it has the marker. -/
theorem confined_resolverApply {who : Component}
    {servers : List IpAddr} (hnames : ∀ name ∈ names, name.toLower ∈ domains) :
    Keeps Any (Confined kind domains start) (resolverApply who names servers) := by
  have hloop : ∀ written, Keeps Any (Confined kind domains start)
      (applyResolvers who (servers.take maxServers) written names) := by
    induction names with
    | nil => exact fun written => .pure written
    | cons name rest ih =>
      have hrest := ih fun name hname => hnames name (mem_cons_of_mem _ hname)
      intro written w h
      apply wp_read
      show wp Any (if _ then _ else _) _ _ _ w
      split
      · rename_i hcond
        have hours := (Bool.and_eq_true_iff.mp hcond).2
        apply wp_bind
        apply wp_command h (fun _ => h)
        exact hrest _ _ (h.written (hnames name mem_cons_self) hours)
      · exact hrest written w h
  apply Keeps.ite (.pure [])
  apply Keeps.bind (confined_free (aside_reading _))
  exact fun _ => hloop []

/-- The end of every teardown. -/
theorem confined_undoRecord {rest : HelperProg Unit} (hrest : Confines k domains start rest) :
    Confines k domains start (undoRecord (.tunnel k) record rest) := by
  apply Keeps.bind (confined_free (moved_restoreDns _).preserves)
  intro dnsOk
  apply Keeps.bind (confined_free (rerouted_removeRoutes _ _))
  intro _
  apply Keeps.bind hrest
  intro _
  exact Keeps.ite confined_clearJournal (.throw _)

/-- A recovery goes by the domains in the journal. -/
theorem confined_recoverLocked {kill : Nat → HelperProg Unit}
    {rest : Record → HelperProg Unit} (hkill : ∀ pid, Preserves FilesSame (kill pid))
    (hrest : ∀ record : Record, (k ≠ .xray → record.resolverDomains ⊆ domains) →
      Confines k domains start (rest record)) :
    Confines k domains start (recoverLocked (.tunnel k) kill rest) := by
  intro w h
  apply wp_bind
  apply wp_reading h (fun _ => h)
  · intro found hfound
    cases hfound
    cases hjournal : w.journal (.tunnel k) with
    | none => exact wp_pure h
    | some record =>
      have hrecord : k ≠ .xray → record.resolverDomains ⊆ domains := by
        intro hk
        have hsub := journal_recorded (.tunnel k) w
        rw [hjournal] at hsub
        exact List.Subset.trans hsub (h.recorded k rfl hk)
      exact (confined_free (hkill record.pid)).bind
        (fun _ => confined_undoRecord (hrest record hrecord)) w h
  · intro e he
    cases he

end

/-! ### The Xray executor -/

section
variable {domains : List String} {start : Machine}
variable {record : Record} {pid : Nat} {env : XraySurroundings} {request : XrayRequest}
    {planned : List RouteOp} {snapshot : Option (List IpAddr)}

/-- What an Xray has on record is of no concern. -/
theorem Confined.xray {w : Machine} (h : Confined (some .xray) domains start w)
    (xray : Option XrayActive) : Confined (some .xray) domains start { w with xray } := by
  refine h.record rfl ?_ (fun hne => absurd rfl hne) ⟨h.plain.wireGuard, h.plain.openVpn⟩
  intro other hother
  cases other with
  | xray => exact absurd rfl hother
  | wireGuard => rfl
  | openVpn => rfl

theorem confined_xrayTeardown {active : XrayActive} :
    Confines .xray domains start (xrayTeardown active) := by
  apply Keeps.bind (confined_free (trimmed_stopChild _).preserves)
  intro _
  exact confined_undoRecord (confined_free (((trimmed_closeDevice _).preserves).bind
      fun _ => aside_clearAssets.preserves))

variable (expected : Machine → XrayActive → Bool) {dnsTouched : Bool} {networks : List IpNet}

theorem confined_xrayTake : Confines .xray domains start (xrayTake expected) := by
  apply Keeps.bind (.gets _)
  intro taken
  exact (Keeps.modify fun w h => h.xray _).bind fun _ => .pure taken

theorem confined_xrayEnd : Confines .xray domains start (xrayTake expected >>= xrayEnd) := by
  apply (confined_xrayTake expected).bind
  intro taken
  cases taken with
  | none => exact .pure ()
  | some active => exact confined_xrayTeardown.attempt.bind fun _ => .pure ()

theorem confined_xrayDisconnect (uid : Nat) (profileId : String) :
    Confines .xray domains start (xrayDisconnect uid profileId) := by
  apply (confined_xrayTake _).bind
  intro taken
  cases taken with
  | none => exact .pure false
  | some active => exact (confined_orElse confined_xrayTeardown).bind fun _ => .pure true

theorem confined_xrayRecoverLocked : Confines .xray domains start xrayRecoverLocked :=
  confined_recoverLocked (fun pid => (trimmed_killLeftover .xray pid).preserves)
    fun _ _ => .pure ()

theorem confined_xrayRecover : Confines .xray domains start xrayRecover :=
  (Keeps.gets _).bind fun _ => .ite (.pure ()) confined_xrayRecoverLocked

theorem confined_xrayRollback : Confines .xray domains start (xrayRollback record dnsTouched) := by
  have hend : Confines .xray domains start
      (do clearAssets; tryClear xrayTunnel) :=
    (confined_free aside_clearAssets.preserves).bind fun _ => confined_tryClear
  apply Keeps.bind (confined_free (rerouted_removeRoutes _ _))
  intro _
  split
  · exact (confined_free (moved_tryRestore _).preserves).bind fun _ => hend
  · exact hend

theorem confined_xrayFail {tun : String} {error : TunnelError} :
    Confines .xray domains start (xrayFail pid tun record dnsTouched error) := by
  apply Keeps.bind (confined_free (trimmed_stopChild _).preserves)
  intro _
  apply confined_xrayRollback.bind
  intro _
  exact (confined_free (trimmed_closeDevice _).preserves).bind fun _ => .throw _

theorem confined_xrayDns : Confines .xray domains start (xrayDns env request record pid) := by
  have hstart : Confines .xray domains start
      (xrayStart env request record pid) := Keeps.modify fun w h => h.xray _
  unfold xrayDns
  split
  · exact hstart
  · apply (confined_free (moved_setDns _)).either
    · exact fun _ => hstart
    · exact fun _ => confined_xrayFail

theorem confined_xrayRoutes :
    Confines .xray domains start (xrayRoutes env request planned record pid) := by
  apply (confined_free (rerouted_applyRoutes _ _)).either
  · intro installed
    apply Keeps.ite (confined_xrayFail)
    apply (confined_saveJournal fun hne => absurd rfl hne).either
    · exact fun _ => confined_xrayDns
    · exact fun _ => confined_xrayFail
  · exact fun e => confined_xrayFail

theorem confined_xrayCutOver :
    Confines .xray domains start (xrayCutOver env request planned record pid) := by
  apply (confined_saveJournal fun hne => absurd rfl hne).either
  · intro _
    apply (confined_free (trimmed_settle _ _).preserves).bind
    intro _
    apply (Keeps.gets _).bind
    intro alive
    exact Keeps.ite (confined_xrayFail) (confined_xrayRoutes)
  · exact fun _ => confined_xrayFail

theorem confined_xrayLaunch :
    Confines .xray domains start (xrayLaunch env request planned snapshot record) := by
  apply (confined_free (aside_spawnChild _ _)).either
  · exact fun pid => confined_xrayCutOver
  · intro _
    apply confined_xrayRollback.bind
    intro _
    exact (confined_free (trimmed_closeDevice _).preserves).bind fun _ => .throw _

theorem confined_xrayAssets : Confines .xray domains start (xrayAssets env request record) :=
  .ite (.pure ()) (.ite (confined_xrayRollback.bind fun _ => .throw _)
    (confined_orUndo confined_xrayRollback
      (confined_free (aside_stageGeo _))))

theorem confined_xrayBringUp {uplink : Uplink} :
    Confines .xray domains start (xrayBringUp env request uplink networks snapshot) := by
  apply (confined_xrayAssets).bind
  intro _
  apply (confined_orUndo confined_xrayRollback
    (confined_free (aside_openDevice _ _))).bind
  intro _
  apply (confined_free (aside_reachGateway _)).bind
  intro _
  exact (confined_free (rerouted_planRoutes _ _)).bind fun _ => confined_xrayLaunch

theorem confined_xrayProceed : Confines .xray domains start (xrayProceed env request networks) := by
  apply (confined_orElse confined_xrayRecoverLocked).bind
  intro _
  apply (confined_free (aside_reading _)).bind
  intro _
  apply (confined_free (aside_detectUplink _ _)).bind
  intro uplink
  apply (confined_free (moved_xraySnapshot _ _).preserves).bind
  intro snapshot
  apply Keeps.ite (.throw _)
  apply (confined_orElse (confined_saveJournal fun hne => absurd rfl hne)).bind
  exact fun _ => confined_xrayBringUp

theorem confined_xrayConnect (env : XraySurroundings) (request : XrayRequest) :
    Confines .xray domains start (xrayConnect env request) := by
  apply (confined_free (aside_xrayCheck request)).bind
  intro networks
  apply (confined_xrayEnd _).bind
  intro _
  apply (Keeps.gets _).bind
  intro found
  cases found with
  | some active => exact .throw _
  | none => exact confined_xrayProceed

end

/-! ### The WireGuard executor -/

/-- A record that its executor may go by. -/
structure Fits (role : TunnelRole) (domains : List String) (record : Record) : Prop where
  within : record.resolverDomains ⊆ domains
  plain : role = .primary → record.resolverDomains = []

variable {domains : List String}

/-- Only the routes and the DNS of a record change later. -/
theorem Fits.same {role : TunnelRole} {record record' : Record}
    (h : Fits role domains record) (hsame : record'.resolverDomains = record.resolverDomains) :
    Fits role domains record' := by
  refine ⟨?_, ?_⟩
  · rw [hsame]
    exact h.within
  · rw [hsame]
    exact h.plain

section
variable {σ : Type} (seat : Seat σ) {domains : List String} {start w : Machine}

theorem Confined.put (h : Confined (some seat.kind) domains start w) {s : Option σ}
    (hwithin : ∀ active, s = some active → (seat.record active).resolverDomains ⊆ domains)
    (hplain : PlainPrimaries (seat.put w s)) :
    Confined (some seat.kind) domains start (seat.put w s) := by
  have hjournal : (seat.put w s).journal = w.journal := by rw [seat.frame]
  refine h.record (by rw [seat.frame]) ?_ ?_ hplain
  · intro other hother
    rw [Machine.recordedDomains, hjournal, seat.others _ _ _ (by simpa using hother),
      Machine.recordedDomains]
  · intro hne
    rw [Machine.recordedDomains, hjournal, seat.recorded, seat.get_put]
    apply append_subset.mpr
    refine ⟨List.Subset.trans (journal_recorded _ w) (h.recorded _ rfl hne), ?_⟩
    cases s with
    | none => exact nil_subset _
    | some active => exact hwithin active rfl

/-- A session goes by what it has on record. -/
theorem Confined.within (h : Confined (some seat.kind) domains start w) (hne : seat.kind ≠ .xray)
    {active : σ} (hactive : seat.get w = some active) :
    (seat.record active).resolverDomains ⊆ domains := by
  have hsub := session_recorded (.tunnel seat.kind) w
  rw [seat.recorded, hactive] at hsub
  exact List.Subset.trans hsub (h.recorded _ rfl hne)

/-- A session that is taken in hand, and what is left in its place. -/
theorem wp_take_confined (expected : Machine → σ → Bool) (hne : seat.kind ≠ .xray)
    (h : Confined (some seat.kind) domains start w) (hplain : PlainPrimaries (seat.put w none)) :
    wp Any (seat.take expected) (fun taken w' => Confined (some seat.kind) domains start w' ∧
        taken = (seat.get w).filter (expected w) ∧
        (taken = none → seat.get w' = seat.get w) ∧
        ∀ active, taken = some active → (seat.record active).resolverDomains ⊆ domains)
      (fun _ _ => False) (Confined (some seat.kind) domains start) w := by
  apply Seat.wp_take
  · exact fun hnone => ⟨h, hnone.symm, fun _ => rfl, fun _ hactive => by cases hactive⟩
  · intro active htaken _
    refine ⟨h.put seat (by simp) hplain, htaken.symm, by simp, ?_⟩
    rintro _ ⟨⟩
    exact h.within seat hne (filter_eq_some_iff.mp htaken).1

end

section
variable {domains : List String} {start w : Machine}
variable {networks : List IpNet}

theorem Confined.wireGuard (h : Confined (some .wireGuard) domains start w)
    {wireGuard : Option WireGuardActive}
    (hwithin : ∀ active, wireGuard = some active → active.record.resolverDomains ⊆ domains)
    (hplain : ∀ active, wireGuard = some active → active.role = .primary →
      active.record.resolverDomains = []) :
    Confined (some .wireGuard) domains start { w with wireGuard } :=
  Confined.put wgSeat h hwithin ⟨hplain, h.plain.openVpn⟩

theorem confined_wgTeardown {active : WireGuardActive}
    (hactive : active.record.resolverDomains ⊆ domains) :
    Confines .wireGuard domains start (wgTeardown active) :=
  confined_undoRecord ((confined_resolverRemove hactive).bind
    fun _ => confined_free (trimmed_closeDevice _).preserves)

theorem PlainPrimaries.noWireGuard (h : PlainPrimaries w) : PlainPrimaries (wgSeat.put w none) :=
  ⟨by simp [wgSeat], h.openVpn⟩

theorem confined_wgEnd (expected : WireGuardActive → Bool) :
    Confines .wireGuard domains start (wgTake expected >>= wgEnd) := by
  intro w h
  apply wp_after (wp_take_confined wgSeat (fun _ => expected) (by decide) h h.plain.noWireGuard)
  rintro taken v ⟨hv, _, _, hwithin⟩
  cases taken with
  | none => exact wp_pure hv
  | some active => exact wp_discard (wp_attempt (confined_wgTeardown (hwithin active rfl) v hv))

theorem confined_wgDisconnect (uid : Nat) (profileId : String) :
    Confines .wireGuard domains start (wgDisconnect uid profileId) := by
  intro w h
  apply wp_after (wp_take_confined wgSeat _ (by decide) h h.plain.noWireGuard)
  rintro taken v ⟨hv, _, _, hwithin⟩
  cases taken with
  | none => exact wp_pure hv
  | some active =>
    exact (confined_orElse (confined_wgTeardown (hwithin active rfl))).bind
      (fun _ => .pure true) v hv

theorem confined_wgRecoverLocked : Confines .wireGuard domains start wgRecoverLocked :=
  confined_recoverLocked (fun _ => .pure ())
    fun _ hrecord => confined_resolverRemove (hrecord (by simp))

theorem confined_wgRecover : Confines .wireGuard domains start wgRecover :=
  (Keeps.gets _).bind fun _ => .ite (.pure ()) confined_wgRecoverLocked

theorem confined_wgRollback {record : Record} :
    Confines .wireGuard domains start (wgRollback record) :=
  (confined_free (rerouted_removeRoutes _ _)).bind fun _ => confined_tryClear

theorem confined_wgFail {tun : String} {record : Record} {error : TunnelError} :
    Confines .wireGuard domains start (wgFail tun record error) :=
  confined_wgRollback.bind fun _ =>
    (confined_free (trimmed_closeDevice _).preserves).bind fun _ => .throw _

variable {env : WgSurroundings} {request : WgRequest} {config : WgConfig} {record : Record}

section
variable (hfits : Fits request.role domains record)
  (hlower : ∀ name ∈ record.resolverDomains, name.toLower ∈ record.resolverDomains)
  {planned : List RouteOp}
include hfits hlower

theorem confined_wgResolvers :
    Confines .wireGuard domains start (wgResolvers env request config record) := by
  have hstart : Confines .wireGuard domains start
      (wgStart env request record) := by
    apply Keeps.modify
    intro w h
    apply h.wireGuard
    · intro active hactive
      cases hactive
      exact hfits.within
    · intro active hactive hrole
      cases hactive
      exact hfits.plain hrole
  apply Keeps.ite hstart
  apply Keeps.bind (confined_resolverApply fun name hname =>
    hfits.within (hlower name hname)).attempt
  intro _
  exact (confined_trySave fun _ => hfits.within).bind fun _ => hstart

theorem confined_wgDns : Confines .wireGuard domains start (wgDns env request config record) := by
  unfold wgDns
  split
  · exact confined_wgResolvers hfits hlower
  · apply (confined_free (moved_setDns _)).either
    · exact fun _ => confined_wgResolvers hfits hlower
    · intro _
      apply (confined_free (moved_tryRestore _).preserves).bind
      intro _
      refine Keeps.bind (confined_trySave ?_) fun _ => confined_wgResolvers (hfits.same rfl) hlower
      exact fun _ => hfits.within

theorem confined_wgRoutes :
    Confines .wireGuard domains start (wgRoutes env request config planned record) := by
  apply (confined_free (rerouted_applyRoutes _ _)).either
  · intro installed
    apply Keeps.ite confined_wgFail
    refine Keeps.bind (confined_trySave ?_) fun _ => confined_wgDns (hfits.same rfl) hlower
    exact fun _ => hfits.within
  · exact fun e => confined_wgFail

theorem confined_wgEngine :
    Confines .wireGuard domains start (wgEngine env request config planned record) := by
  apply (confined_saveJournal fun _ => hfits.within).either
  · intro _
    apply (confined_free (aside_reading _)).either
    · exact fun _ => confined_wgRoutes hfits hlower
    · exact fun _ => confined_wgFail
  · exact fun _ => confined_wgFail

end

/-- Only a secondary asks for domains. -/
theorem wgDomains_primary (hrole : request.role = .primary) : wgDomains request config = [] := by
  rw [wgDomains, if_neg (by simp [hrole])]

section
variable (hasks : wgDomains request config ⊆ domains)
include hasks

theorem confined_wgBringUp :
    Confines .wireGuard domains start (wgBringUp env request config networks) := by
  apply (confined_free (rerouted_planRoutes _ _)).bind
  intro _
  apply (confined_free (moved_wgSnapshot _ _ _).preserves).bind
  intro snapshot
  exact confined_wgEngine ⟨hasks, wgDomains_primary⟩ (toLower_mem_wgDomains request config)

theorem confined_wgDevice :
    Confines .wireGuard domains start (wgDevice env request config networks) := by
  apply (confined_orUndo confined_wgRollback
    (confined_free (aside_openDevice _ _))).bind
  intro _
  apply (confined_free (aside_setAddresses _)).either
  · exact fun _ => confined_wgBringUp hasks
  · exact fun _ => confined_wgFail

theorem confined_wgProceed :
    Confines .wireGuard domains start (wgProceed env request config networks) := by
  apply (confined_orElse confined_wgRecoverLocked).bind
  intro _
  apply (confined_free (aside_detectUplink _ _)).bind
  intro _
  apply (confined_free (aside_resolvePeers _ _)).bind
  intro _
  apply (confined_orElse (confined_saveJournal fun _ => nil_subset _)).bind
  exact fun _ => confined_wgDevice hasks

end

/-- The checks of a connect have one answer, whatever the machine. -/
theorem wgCheck_eq (request : WgRequest) (w v : Machine) (vs : List (Verdict Fault)) :
    wgCheck request v vs = ((wgCheck request w []).1, v, vs) := by
  unfold wgCheck checkProfileId networksOf
  split
  · rfl
  · cases request.config with
    | error _ => rfl
    | ok config =>
      cases request.role with
      | primary => rfl
      | secondary =>
        simp only
        cases Daemon.secondaryNetworks request.routes with
        | error _ => rfl
        | ok _ => rfl

/-- What a connect goes on with once a dead session is reaped. -/
def wgResume (env : WgSurroundings) (request : WgRequest) (config : WgConfig)
    (networks : List IpNet) : HelperProg Unit := do
  match ← Call.gets fun w => w.wireGuard with
  | some active =>
    Call.throw (.conflict (if active.profileId = request.profileId then
      "this connection is already running"
    else "another WireGuard connection already owns the tunnel"))
  | none => wgProceed env request config networks

theorem wp_wgConnect_confined (hasks : w.wgAsks request ⊆ domains)
    (h : Confined (some .wireGuard) domains start w) :
    wp Any (wgConnect env request) (fun _ => Confined (some .wireGuard) domains start)
      (fun _ => Confined (some .wireGuard) domains start)
      (Confined (some .wireGuard) domains start) w := by
  apply wp_bind
  intro vs hvs
  rw [wgCheck_eq request w w vs]
  cases hcheck : (wgCheck request w []).1 with
  | err e => exact ⟨hvs, h⟩
  | crash => exact h
  | ok accepted =>
    obtain ⟨config, networks⟩ := accepted
    refine ⟨hvs, ?_⟩
    -- The connect goes on only where no session is left.
    have hgo : ∀ v, Confined (some .wireGuard) domains start v →
        (v.wireGuard = none → w.wireGuard.any WireGuardActive.engineAlive = false) →
        wp Any (wgResume env request config networks)
          (fun _ => Confined (some .wireGuard) domains start)
          (fun _ => Confined (some .wireGuard) domains start)
          (Confined (some .wireGuard) domains start) v := by
      intro v hv hnone
      apply wp_read
      cases hsession : v.wireGuard with
      | some active => exact wp_throw hv
      | none =>
        refine confined_wgProceed ?_ v hv
        rw [Machine.wgAsks, if_neg (by simp [hnone hsession]), hcheck] at hasks
        exact hasks
    apply wp_bind
    apply wp_after (wp_take_confined wgSeat _ (by decide) h h.plain.noWireGuard)
    rintro taken v ⟨hv, htaken, hleft, hwithin⟩
    cases taken with
    | none =>
      apply wp_pure
      apply hgo v hv
      intro hsession
      have hnone : w.wireGuard = none := (hleft rfl).symm.trans hsession
      rw [hnone]
      rfl
    | some active =>
      have hdead : w.wireGuard.any WireGuardActive.engineAlive = false := by
        obtain ⟨hactive, hexpected⟩ := filter_eq_some_iff.mp htaken.symm
        rw [show w.wireGuard = some active from hactive]
        simpa using hexpected
      apply wp_discard
      apply wp_attempt
      exact wp_ends (confined_wgTeardown (hwithin active rfl) v hv)
        (fun _ u hu => hgo u hu fun _ => hdead) (fun _ u hu => hgo u hu fun _ => hdead)

end

/-! ### The OpenVPN executor -/

/-- A session that may go on. -/
abbrev OpenVpnActive.FitsIn (active : OpenVpnActive) (domains : List String) : Prop :=
  Fits active.role domains active.record

section
variable {domains : List String} {start w : Machine} {active : OpenVpnActive}
variable {service : Bool} {servers : List IpAddr} {pid : Nat} {installed : List RouteOp}

theorem Confined.openVpn (h : Confined (some .openVpn) domains start w)
    {openVpn : Option OpenVpnActive}
    (hwithin : ∀ active, openVpn = some active → active.record.resolverDomains ⊆ domains)
    (hplain : ∀ active, openVpn = some active → active.role = .primary →
      active.record.resolverDomains = []) :
    Confined (some .openVpn) domains start { w with openVpn } :=
  Confined.put ovpnSeat h hwithin ⟨h.plain.wireGuard, hplain⟩

theorem confined_ovpnTeardown (hactive : active.record.resolverDomains ⊆ domains) :
    Confines .openVpn domains start (ovpnTeardown active) := by
  apply (confined_free (trimmed_stopChild _).preserves).bind
  intro _
  refine Keeps.bind (confined_undoRecord ?_).attempt fun _ => .pure ()
  exact (confined_resolverRemove hactive).bind
    fun _ => confined_free (aside_removeStage _).preserves

theorem PlainPrimaries.noOpenVpn (h : PlainPrimaries w) : PlainPrimaries (ovpnSeat.put w none) :=
  ⟨h.wireGuard, by simp [ovpnSeat]⟩

theorem confined_ovpnEnd (expected : Machine → OpenVpnActive → Bool) :
    Confines .openVpn domains start (ovpnTake expected >>= ovpnEnd) := by
  intro w h
  apply wp_after (wp_take_confined ovpnSeat expected (by decide) h h.plain.noOpenVpn)
  rintro taken v ⟨hv, _, _, hwithin⟩
  cases taken with
  | none => exact wp_pure hv
  | some active => exact confined_ovpnTeardown (hwithin active rfl) v hv

theorem confined_ovpnDisconnect (uid : Nat) (profileId : String) :
    Confines .openVpn domains start (ovpnDisconnect uid profileId) := by
  intro w h
  apply wp_after (wp_take_confined ovpnSeat _ (by decide) h h.plain.noOpenVpn)
  rintro taken v ⟨hv, _, _, hwithin⟩
  cases taken with
  | none => exact (Keeps.pure _).bind (fun _ => .pure _) v hv
  | some active => exact (confined_ovpnTeardown (hwithin active rfl)).bind (fun _ => .pure _) v hv

theorem confined_ovpnRecoverLocked : Confines .openVpn domains start ovpnRecoverLocked := by
  apply confined_recoverLocked fun pid => (trimmed_killLeftover .openVpn pid).preserves
  intro record hrecord
  exact (confined_resolverRemove (hrecord (by simp))).bind
    fun _ => confined_free aside_removeStages.preserves

theorem confined_ovpnRecover : Confines .openVpn domains start ovpnRecover :=
  (Keeps.gets _).bind fun _ => .ite (.pure ()) confined_ovpnRecoverLocked

/-! ### A push -/

/-- A session is in hand, and the rest of the machine is confined. -/
def Going (domains : List String) (start : Machine) (active : OpenVpnActive) (w : Machine) : Prop :=
  Confined (some .openVpn) domains start w ∧ active.FitsIn domains

/-- `m` returns with `Q`, and stays confined wherever it ends. -/
abbrev EndsConfined {α : Type} (domains : List String) (start : Machine) (m : HelperProg α)
    (Q : α → Machine → Prop) : Machine → Prop :=
  wp Any m Q (fun _ => Confined (some .openVpn) domains start)
    (Confined (some .openVpn) domains start)

theorem wp_confined {α : Type} {m : HelperProg α} {Q : α → Machine → Prop}
    (hm : Confines .openVpn domains start m) (h : Confined (some .openVpn) domains start w)
    (hQ : ∀ a v, Confined (some .openVpn) domains start v → Q a v) :
    EndsConfined domains start m Q w :=
  wp_post (hm w h) hQ

section
variable (h : Going domains start active w)
include h

theorem wp_ovpnSystemDns_going :
    EndsConfined domains start (ovpnSystemDns active service servers)
      (fun after => Going domains start after) w := by
  obtain ⟨hw, hfits⟩ := h
  apply wp_bind
  apply wp_confined (confined_free (moved_ovpnSnapshot _ _).preserves) hw
  intro taken v hv
  cases taken with
  | none => exact wp_pure ⟨hv, hfits⟩
  | some snapshot =>
    have hsave : Confines .openVpn domains start
        (saveSnapshot (active.setDns (some snapshot)).record) := by
      refine Keeps.bind (Keeps.attempt (confined_saveJournal ?_)) ?_
      · exact fun _ => hfits.within
      intro answer
      cases answer with
      | ok _ => exact .pure ()
      | error _ => exact Keeps.modify fun w h => respects_confined w _ ⟨rfl, rfl, rfl, rfl, rfl⟩ h
    apply wp_bind
    apply wp_confined hsave hv
    intro _ u hu
    apply wp_bind
    apply wp_confined (confined_free (moved_setDns servers)).attempt hu
    intro answer x hx
    cases answer with
    | ok _ => exact wp_pure ⟨hx, hfits.same rfl⟩
    | error _ =>
      apply wp_bind
      apply wp_confined (confined_free (moved_tryRestore snapshot).preserves) hx
      exact fun _ y hy => wp_pure ⟨hy, hfits.same rfl⟩

/-- The old files go, and the new ones are those that the session asks for. -/
theorem wp_ovpnSplitDns_going (hrole : active.role = .secondary)
    (hasks : splitDomains active.dnsDomains ⊆ domains) :
    EndsConfined domains start (ovpnSplitDns active servers)
      (fun after => Going domains start after) w := by
  obtain ⟨hw, hfits⟩ := h
  have hafter : (active.setDomains (splitDomains active.dnsDomains)).FitsIn domains := by
    refine ⟨hasks, fun hprimary => ?_⟩
    rw [show (active.setDomains (splitDomains active.dnsDomains)).role = .secondary from hrole]
      at hprimary
    cases hprimary
  apply wp_bind
  apply wp_confined (confined_resolverRemove hfits.within) hw
  intro _ v hv
  apply wp_bind
  apply wp_confined (confined_trySave fun _ => hafter.within) hv
  intro _ u hu
  apply wp_bind
  apply wp_confined (confined_resolverApply fun name hname =>
    hasks (toLower_mem_splitDomains active.dnsDomains name hname)).attempt hu
  exact fun _ x hx => wp_pure ⟨hx, hafter⟩

theorem wp_ovpnInstall_going {networks : List IpNet}
    (hasks : active.role = .secondary → splitDomains active.dnsDomains ⊆ domains) :
    EndsConfined domains start (ovpnInstall active service networks servers)
      (fun after => Going domains start after.1) w := by
  obtain ⟨hw, hfits⟩ := h
  apply wp_bind
  apply wp_confined (confined_free (rerouted_removeRoutes _ _)) hw
  intro _ v hv
  apply wp_bind
  apply wp_confined (confined_free (rerouted_planRoutes _ _)) hv
  intro _ u hu
  apply wp_bind
  refine wp_confined (confined_trySave ?_) hu ?_
  · exact fun _ => hfits.within
  intro _ x hx
  apply wp_bind
  apply wp_confined (confined_free (rerouted_applyRoutes _ _)).attempt hx
  intro answer y hy
  cases answer with
  | error e =>
    apply wp_bind
    refine wp_confined (confined_trySave ?_) hy fun _ z hz => wp_pure ⟨hz, hfits.same rfl⟩
    exact fun _ => hfits.within
  | ok installed =>
    have hdns :
      EndsConfined domains start (ovpnDns (active.setRoutes installed) service servers)
      (fun after => Going domains start after) y := by
      have hgoing : Going domains start (active.setRoutes installed) y := ⟨hy, hfits.same rfl⟩
      unfold ovpnDns
      cases hrole : (active.setRoutes installed).role with
      | secondary => exact wp_ovpnSplitDns_going hgoing hrole (hasks hrole)
      | primary =>
        show wp Any (if _ then _ else _) _ _ _ y
        split
        · exact wp_pure hgoing
        · exact wp_ovpnSystemDns_going hgoing
    apply wp_then hdns
    rintro after z ⟨hz, hafter⟩
    apply wp_bind
    apply wp_confined (confined_trySave fun _ => hafter.within) hz
    exact fun _ t ht => wp_pure ⟨ht, hafter⟩

theorem confined_ovpnSettle {ended : Bool} :
    EndsConfined domains start (ovpnSettle active ended)
      (fun _ => Confined (some .openVpn) domains start) w := by
  cases ended with
  | true => exact confined_ovpnTeardown h.2.within w h.1
  | false =>
    apply wp_modify
    apply h.1.openVpn
    · intro active' hactive
      cases hactive
      exact h.2.within
    · intro active' hactive hrole
      cases hactive
      exact h.2.plain hrole

theorem confined_ovpnReact (hasks : active.asks ⊆ domains) :
    EndsConfined domains start (ovpnReact active service)
      (fun _ => Confined (some .openVpn) domains start) w := by
  unfold ovpnReact
  split
  · rename_i hup
    have happly :
      EndsConfined domains start (applyNetwork active service)
      (fun after => Going domains start after.1) w := by
      unfold applyNetwork
      split
      · exact wp_pure h
      · rename_i push hpush
        split
        · exact wp_pure h
        · rename_i hdue
          apply wp_ovpnInstall_going h
          intro hrole
          have hdue' : active.pushDue = true := by
            simp [OpenVpnActive.pushDue, hup, hpush, hdue]
          rwa [OpenVpnActive.asks, if_pos ⟨hrole, hdue'⟩] at hasks
    apply wp_bind
    exact wp_post happly (fun _ _ hgoing => confined_ovpnSettle hgoing)
  · exact confined_ovpnSettle h

end

/-- The events are heard in order. -/
theorem wp_foldEvents_heard {failed : Bool} {events : List ManagementEvent}
    (h : Confined (some .openVpn) domains start w) :
      EndsConfined domains start (foldEvents active failed events)
      (fun after v => Confined (some .openVpn) domains start v ∧ after.1 = active.heard events) w := by
  induction events generalizing active failed w with
  | nil => exact wp_pure ⟨h, rfl⟩
  | cons event rest ih =>
    cases event with
    | passwordPrompt =>
      apply wp_bind
      apply wp_confined (confined_free (aside_reading _)).attempt h
      exact fun _ v hv => ih hv
    | _ => exact ih h

/-- The events change nothing but the snapshot. -/
theorem heard_fields (active : OpenVpnActive) (events : List ManagementEvent) :
    (active.heard events).record = active.record ∧ (active.heard events).role = active.role := by
  induction events generalizing active with
  | nil => exact ⟨rfl, rfl⟩
  | cons event rest ih =>
    cases event with
    | passwordPrompt => exact ih active
    | _ => exact ih { active with snapshot := active.snapshot.apply _ }

theorem learnRemote_fields (active : OpenVpnActive) (remote : Option IpAddr) :
    (active.learnRemote remote).record = active.record ∧
      (active.learnRemote remote).role = active.role := by
  unfold OpenVpnActive.learnRemote
  split
  · exact ⟨rfl, rfl⟩
  · split <;> exact ⟨rfl, rfl⟩

theorem wp_handleEvents_confined (profileId : String) (events : List ManagementEvent)
    (remote : Option IpAddr) (service : Bool) (h : Confined (some .openVpn) domains start w)
    (hasks : w.asks (.events profileId events remote service) ⊆ domains) :
    EndsConfined domains start (handleEvents profileId events remote service)
      (fun _ => Confined (some .openVpn) domains start) w := by
  apply wp_after (wp_take_confined ovpnSeat _ (by decide) h h.plain.noOpenVpn)
  rintro taken v ⟨hv, htaken, _, hwithin⟩
  cases taken with
  | none => exact wp_pure hv
  | some active =>
    have hactive : w.openVpn.filter (fun active => active.profileId == profileId) = some active :=
      htaken.symm
    rw [Machine.asks, hactive] at hasks
    have hgoing : ((active.learnRemote remote).heard events).FitsIn domains := by
      obtain ⟨hheard, hheardRole⟩ := heard_fields (active.learnRemote remote) events
      obtain ⟨hlearned, hlearnedRole⟩ := learnRemote_fields active remote
      have hplain := h.plain.openVpn active (filter_eq_some_iff.mp hactive).1
      rw [OpenVpnActive.FitsIn, hheardRole, hlearnedRole]
      have hfits : Fits active.role domains active.record := ⟨hwithin active rfl, hplain⟩
      exact hfits.same (by rw [hheard, hlearned])
    apply wp_then (wp_foldEvents_heard hv)
    rintro ⟨after, failed⟩ u ⟨hu, rfl⟩
    show wp Any (if _ then _ else _) _ _ _ u
    split
    · exact confined_ovpnSettle ⟨hu, hgoing⟩
    · exact confined_ovpnReact ⟨hu, hgoing⟩ hasks

/-! ### An OpenVPN connect -/

theorem confined_ovpnCleanup {stage : Option String} :
    Confines .openVpn domains start (ovpnCleanup stage installed) := by
  apply Keeps.bind (confined_free (.forEach (fun _ => (aside_removeStage _).preserves) _))
  intro _
  exact (confined_free (rerouted_removeRoutes _ _)).bind fun _ => confined_tryClear

theorem confined_ovpnGiveUp {env : OpenVpnSurroundings} {text : String} :
    Confines .openVpn domains start (ovpnGiveUp env installed pid text) :=
  (confined_free (trimmed_stopChild _).preserves).bind fun _ =>
    confined_ovpnCleanup.bind fun _ => .throw _

variable {env : OpenVpnSurroundings} {request : OpenVpnRequest} {uplink : Uplink}
  {networks : List IpNet} {record : Record}

section
variable (hrecord : record.resolverDomains = [])
include hrecord

theorem confined_ovpnSupervise :
    Confines .openVpn domains start (ovpnSupervise env request uplink networks record pid) := by
  apply (confined_free (aside_superviseStep _)).bind
  intro _
  apply (confined_free (aside_reading _)).either
  · intro _
    apply (confined_free (aside_superviseStep _)).bind
    intro _
    apply Keeps.modify
    intro w h
    apply h.openVpn
    · intro active hactive
      cases hactive
      exact hrecord ▸ nil_subset _
    · intro active hactive _
      cases hactive
      exact hrecord
  · exact fun _ => confined_ovpnGiveUp

theorem confined_ovpnControl :
    Confines .openVpn domains start (ovpnControl env request uplink networks record pid) := by
  apply (confined_trySave fun _ => hrecord ▸ nil_subset _).bind
  intro _
  apply (confined_free (aside_reading _)).either
  · exact fun _ => confined_ovpnSupervise hrecord
  · exact fun _ => confined_ovpnGiveUp

theorem confined_ovpnLaunch :
    Confines .openVpn domains start (ovpnLaunch env request uplink networks record) := by
  apply (confined_free (aside_spawnChild _ _)).either
  · exact fun pid => confined_ovpnControl hrecord
  · exact fun _ => confined_ovpnCleanup.bind fun _ => .throw _

end

theorem confined_ovpnBringUp :
    Confines .openVpn domains start (ovpnBringUp env request uplink networks) := by
  apply (confined_free (rerouted_applyRoutes _ _)).attempt.bind
  intro applied
  refine Keeps.bind (confined_trySave fun _ => nil_subset _) ?_
  intro _
  apply (confined_orUndo confined_ovpnCleanup
    (confined_free (aside_stageConfig _ _))).bind
  exact fun _ => confined_ovpnLaunch rfl

theorem confined_ovpnProceed :
    Confines .openVpn domains start (ovpnProceed env request networks) := by
  apply (confined_orElse confined_ovpnRecoverLocked).bind
  intro _
  apply (Keeps.ofExcept _).bind
  intro _
  apply (confined_free (aside_detectUplink _ _)).bind
  intro uplink
  apply (confined_orElse (confined_free (aside_reading _))).bind
  intro _
  apply (confined_orElse (confined_free (aside_reading _))).bind
  intro _
  apply (confined_orElse (confined_saveJournal fun _ => nil_subset _)).bind
  exact fun _ => confined_ovpnBringUp

theorem confined_ovpnConnect : Confines .openVpn domains start (ovpnConnect env request) := by
  apply (confined_free (aside_ovpnCheck request)).bind
  intro networks
  apply (confined_ovpnEnd _).bind
  intro _
  apply (Keeps.gets _).bind
  intro found
  cases found with
  | none => exact confined_ovpnProceed
  | some active =>
    apply Keeps.ite (.throw _)
    apply Keeps.ite (.throw _)
    intro w h
    apply wp_after (wp_take_confined ovpnSeat _ (by decide) h h.plain.noOpenVpn)
    rintro taken v ⟨hv, _, _, hwithin⟩
    have hend : Confines .openVpn domains start (ovpnEnd taken) := by
      cases taken with
      | none => exact .pure ()
      | some active => exact confined_ovpnTeardown (hwithin active rfl)
    exact hend.bind (fun _ => confined_ovpnProceed) v hv

end

/-! ### Every request -/

/-- The domains that a request may touch files of. An Xray has no split DNS. -/
def Machine.touches (request : TunnelRequest) : List String :=
  match request.tunnel with
  | none => []
  | some .xray => []
  | some kind => w.recordedDomains (.tunnel kind) ++ w.asks request

theorem Confined.endEngine {start w : Machine} (h : Confined (some .wireGuard) domains start w) :
    Confined (some .wireGuard) domains start w.endEngine := by
  apply h.wireGuard
  · intro active hactive
    obtain ⟨before, hbefore, hended⟩ := map_eq_some_iff.mp hactive
    subst hended
    have hwithin : before.record.resolverDomains ⊆ domains :=
      Confined.within wgSeat h (by decide) hbefore
    exact hwithin
  · intro active hactive hrole
    obtain ⟨before, hbefore, hended⟩ := map_eq_some_iff.mp hactive
    subst hended
    exact h.plain.wireGuard before hbefore hrole

/-- A request stays confined to what it may touch, wherever it is cut off. -/
theorem wp_runRequest_confined (request : TunnelRequest) {w : Machine} (hplain : PlainPrimaries w) :
    wp Any (runRequest request) (fun _ => Confined request.tunnel (w.touches request) w)
      (fun _ => Confined request.tunnel (w.touches request) w)
      (Confined request.tunnel (w.touches request) w) w := by
  have h : Confined request.tunnel (w.touches request) w w := by
    apply Confined.refl hplain
    intro k hk hxray
    rw [Machine.touches, hk]
    cases k with
    | xray => exact absurd rfl hxray
    | wireGuard => exact subset_append_left _ _
    | openVpn => exact subset_append_left _ _
  cases request with
  | xrayConnect env request => exact confined_xrayConnect env request w h
  | xrayDisconnect uid profileId =>
    exact (confined_xrayDisconnect uid profileId).bind (fun _ => .pure ()) w h
  | wgConnect env request => exact wp_wgConnect_confined (subset_append_right _ _) h
  | wgDisconnect uid profileId =>
    exact (confined_wgDisconnect uid profileId).bind (fun _ => .pure ()) w h
  | ovpnConnect env request => exact confined_ovpnConnect w h
  | ovpnDisconnect uid profileId =>
    exact (confined_ovpnDisconnect uid profileId).bind (fun _ => .pure ()) w h
  | events profileId events remote service =>
    exact wp_handleEvents_confined profileId events remote service h (subset_append_right _ _)
  | closed profileId => exact confined_ovpnEnd _ w h
  | reap kind =>
    cases kind with
    | xray => exact confined_xrayEnd _ w h
    | wireGuard => exact confined_wgEnd _ w h
    | openVpn => exact confined_ovpnEnd _ w h
  | shutdown kind =>
    cases kind with
    | xray => exact confined_xrayEnd _ w h
    | wireGuard => exact confined_wgEnd _ w h
    | openVpn => exact confined_ovpnEnd _ w h
  | recover kind =>
    cases kind with
    | xray => exact confined_xrayRecover w h
    | wireGuard => exact confined_wgRecover w h
    | openVpn => exact confined_ovpnRecover w h
  | childEnds pid => exact wp_modify (respects_confined w _ (Coarser.le (trimmed_endChild pid w)) h)
  | engineEnds => exact wp_modify h.endEngine

end NetOrchestrator.Macos
