import NetOrchestrator.Lib.Frames
import NetOrchestrator.Macos.Tailscale

/-!
# `Proofs.MachineFrames`: what the steps of the executors leave alone

Most steps of an executor touch neither the network nor a journal: they read, they start or stop a
process, they stage files. `Aside` fixes everything else, and the lemmas here say it of each such
step. Devices and children take routes with them when they go (`Trimmed`). The steps that set
routes or the DNS setting leave the rest (`Rerouted`, `DnsMoved`).
-/

namespace NetOrchestrator.Macos

open Net Lib Lib.Call Verdict

/-- Network, journals and sessions are the same. -/
structure Aside (w w' : Machine) : Prop where
  table : w'.table = w.table
  dns : w'.dns = w.dns
  resolvers : w'.resolvers = w.resolvers
  journal : w'.journal = w.journal
  record : w'.sessionRecord = w.sessionRecord
  guarded : w'.guarded = w.guarded
  deleted : w'.deleted = w.deleted
  behind : w'.behind = w.behind
  undone : w'.undone = true → w.undone = true
  routesClean : w'.routesClean = w.routesClean
  dnsClean : w'.dnsClean = w.dnsClean
  supervised : w'.supervised = true → w.supervised = true
  filesClean : w'.filesClean = w.filesClean
  wireGuard : w'.wireGuard = w.wireGuard
  openVpn : w'.openVpn = w.openVpn

/-- Processes, devices and staged files may be others, and the flags about them may fall. -/
theorem Aside.of_frame {w w' : Machine} (h : w' = { w with
      deviceOf := w'.deviceOf, children := w'.children, nextPid := w'.nextPid
      devices := w'.devices, geo := w'.geo, stages := w'.stages, undone := w'.undone
      supervised := w'.supervised })
    (hundone : w'.undone = true → w.undone = true)
    (hsupervised : w'.supervised = true → w.supervised = true) : Aside w w' where
  table := by rw [h]
  dns := by rw [h]
  resolvers := by rw [h]
  journal := by rw [h]
  record := by
    rw [h]
    rfl
  guarded := by rw [h]
  deleted := by rw [h]
  behind := by rw [h]
  undone := hundone
  routesClean := by rw [h]
  dnsClean := by rw [h]
  supervised := hsupervised
  filesClean := by rw [h]
  wireGuard := by rw [h]
  openVpn := by rw [h]

/-- The same, but for routes that went with a device. -/
structure Trimmed (w w' : Machine) : Prop where
  table : ∃ gone, w'.table = w.table.drop gone
  dns : w'.dns = w.dns
  resolvers : w'.resolvers = w.resolvers
  journal : w'.journal = w.journal
  record : w'.sessionRecord = w.sessionRecord
  guarded : w'.guarded = w.guarded
  deleted : w'.deleted = w.deleted
  behind : w'.behind = w.behind
  undone : w'.undone = w.undone
  routesClean : w'.routesClean = w.routesClean
  dnsClean : w'.dnsClean = w.dnsClean
  supervised : w'.supervised = w.supervised
  filesClean : w'.filesClean = w.filesClean
  wireGuard : w'.wireGuard = w.wireGuard
  openVpn : w'.openVpn = w.openVpn

/-- The routes may be others, and what is noted about them. -/
structure Rerouted (w w' : Machine) : Prop where
  dns : w'.dns = w.dns
  resolvers : w'.resolvers = w.resolvers
  journal : w'.journal = w.journal
  record : w'.sessionRecord = w.sessionRecord
  dnsClean : w'.dnsClean = w.dnsClean
  wireGuard : w'.wireGuard = w.wireGuard
  openVpn : w'.openVpn = w.openVpn

/-- The DNS setting may be another, and what is noted about it. -/
structure DnsMoved (w w' : Machine) : Prop where
  table : w'.table = w.table
  resolvers : w'.resolvers = w.resolvers
  journal : w'.journal = w.journal
  record : w'.sessionRecord = w.sessionRecord
  guarded : w'.guarded = w.guarded
  deleted : w'.deleted = w.deleted
  behind : w'.behind = w.behind
  undone : w'.undone = true → w.undone = true
  routesClean : w'.routesClean = w.routesClean
  supervised : w'.supervised = w.supervised
  filesClean : w'.filesClean = w.filesClean
  wireGuard : w'.wireGuard = w.wireGuard
  openVpn : w'.openVpn = w.openVpn

section
variable {R S : Machine → Machine → Prop} [Coarser S R] {α : Type}

theorem preserves_command {act : Machine → Except TunnelError α × Machine}
    (h : ∀ w, S w (act w).2) : Preserves R (command act) :=
  .step fun w => Coarser.le (h w)

variable {f : Machine → Machine} {m : HelperProg α}

theorem quietly_modify (h : ∀ w, S w (f w)) : Quietly R (Call.modify f : HelperProg Unit) :=
  .modify fun w => Coarser.le (h w)

theorem preserves_modify (h : ∀ w, S w (f w)) : Preserves R (Call.modify f : HelperProg Unit) :=
  (quietly_modify h).preserves

theorem quietly_undoing {act failed : Machine → Machine} (hact : ∀ w, S w (act w))
    (hfailed : ∀ w, S w (failed w)) : Quietly R (undoing act failed) :=
  .either (preserves_command hact) (fun _ => .pure ()) fun _ => quietly_modify hfailed

omit [Coarser S R]

theorem preserves_orElse {error : TunnelError} (h : Preserves R m) : Preserves R (orElse error m) :=
  h.either (fun a => .pure a) fun _ => .throw error

theorem preserves_orUndo {undo : HelperProg Unit} {report : TunnelError → TunnelError}
    (hundo : Preserves R undo) (h : Preserves R m) : Preserves R (orUndo undo report m) :=
  h.either (fun a => .pure a) fun e => hundo.bind fun _ => .throw (report e)

end

/-! ### Rules for the basic steps -/

section
variable {α : Type} {Q : α → Machine → Prop} {E : TunnelError → Machine → Prop}
  {C : Machine → Prop} {w : Machine}

theorem wp_reading {answer : Machine → Except TunnelError α} (hcrash : C w)
    (hfail : ∀ fault, E (.io fault) w) (hok : ∀ a, answer w = .ok a → Q a w)
    (herr : ∀ e, answer w = .error e → E e w) : wp Any (reading answer) Q E C w := by
  apply wp_step
  · exact fun _ => hcrash
  · exact fun fault _ => hfail fault
  · intro a w' hrun
    obtain ⟨ha, rfl⟩ := Prod.mk.inj hrun
    exact hok a ha
  · intro e w' hrun
    obtain ⟨he, rfl⟩ := Prod.mk.inj hrun
    exact herr e he

/-- A command that does not refuse by itself. -/
theorem wp_command {act : Machine → Machine} {Q : Unit → Machine → Prop} (hcrash : C w)
    (hfail : ∀ fault, E (.io fault) w) (hok : Q () (act w)) :
    wp Any (command fun w => (.ok (), act w)) Q E C w := by
  apply wp_step
  · exact fun _ => hcrash
  · exact fun fault _ => hfail fault
  · intro _ w' hrun
    cases hrun
    exact hok
  · intro e w' hrun
    cases hrun

variable {m : HelperProg α}

theorem wp_orElse {error : TunnelError}
    (h : wp Any m Q (fun _ => E error) C w) : wp Any (orElse error m) Q E C w := by
  exact wp_either h (fun _ _ hq => wp_pure hq) (fun _ _ he => wp_throw he)

theorem wp_orUndo {undo : HelperProg Unit} {report : TunnelError → TunnelError}
    (h : wp Any m Q (fun e => wp Any undo (fun _ => E (report e)) E C) C w) :
    wp Any (orUndo undo report m) Q E C w := by
  refine wp_either h (fun _ _ hq => wp_pure hq) ?_
  intro e w' he
  exact wp_then he (fun _ _ hq => wp_throw hq)

end

/-- The records of the sessions come from the sessions. -/
theorem sessionRecord_congr {w w' : Machine} (hxray : w'.xray = w.xray)
    (hwireGuard : w'.wireGuard = w.wireGuard) (hopenVpn : w'.openVpn = w.openVpn)
    (who : Component) : w'.sessionRecord who = w.sessionRecord who := by
  cases who with
  | tailscale => rfl
  | tunnel kind =>
    cases kind with
    | xray => simp only [Machine.sessionRecord, hxray]
    | wireGuard => simp only [Machine.sessionRecord, hwireGuard]
    | openVpn => simp only [Machine.sessionRecord, hopenVpn]

/-! ### Journal files -/

section
variable {who other : Component}

/-- Any change of one journal. -/
def Machine.journaled (who : Component) (record : Option Record) (w : Machine) : Machine :=
  { w with
    journal := Function.update w.journal who record
    behind := Function.update w.behind who false }

theorem journal_journaled (who : Component) (record : Option Record) (w : Machine) :
    (w.journaled who record).journal who = record :=
  Function.update_self ..

theorem journal_journaled_of_ne (h : other ≠ who) (record : Option Record) (w : Machine) :
    (w.journaled who record).journal other = w.journal other :=
  Function.update_of_ne h ..

theorem journal_saved (who : Component) (record : Record) (w : Machine) :
    (w.saved who record).journal who = some record :=
  Function.update_self ..

end

/-! ### Checks and steps that only look -/

section
variable {R : Machine → Machine → Prop}

theorem aside_checkProfileId (profileId : String) : Preserves R (checkProfileId profileId) :=
  .ite (.throw _) (.pure ())

theorem aside_resolvePeers (env : WgSurroundings) (config : WgConfig) :
    Preserves R (resolvePeers env config) :=
  .ite (.pure ()) (.throw _)

theorem aside_networksOf (role : TunnelRole) (routes : List Daemon.PolicyRoute) :
    Preserves R (networksOf role routes) := by
  unfold networksOf
  cases role with
  | primary => exact .pure _
  | secondary =>
    cases Daemon.secondaryNetworks routes with
    | ok networks => exact .pure networks
    | error text => exact .throw _

theorem aside_xrayCheck (request : XrayRequest) : Preserves R (xrayCheck request) :=
  (aside_checkProfileId _).bind fun _ => .ite (.throw _) (.ite (.throw _) (.ite (.throw _)
    (aside_networksOf _ _)))

theorem aside_wgCheck (request : WgRequest) : Preserves R (wgCheck request) := by
  apply (aside_checkProfileId _).bind
  intro _
  cases request.config with
  | error text => exact .throw _
  | ok config => exact (aside_networksOf _ _).bind fun _ => .pure _

theorem aside_ovpnCheck (request : OpenVpnRequest) : Preserves R (ovpnCheck request) :=
  (aside_checkProfileId _).bind fun _ => .ite (.throw _) (.ite (.throw _) (aside_networksOf _ _))

variable [Coarser Aside R]

theorem aside_reading {α : Type} (answer : Machine → Except TunnelError α) :
    Preserves R (reading answer) :=
  preserves_command (S := Aside) fun _ => .of_frame rfl id id

theorem aside_detectUplink (uplink : Option Uplink) (text : String) :
    Preserves R (detectUplink uplink text) := by
  apply (aside_reading _).either
  · intro found
    cases found with
    | none => exact .throw _
    | some found => exact .ite (.throw _) (.pure found)
  · exact fun _ => .throw _

/-! ### Processes, devices and files -/

theorem aside_spawnChild (kind : Kind) (device : Option String) :
    Preserves R (spawnChild kind device) :=
  preserves_command (S := Aside) fun _ => .of_frame rfl id id

theorem aside_openDevice (kind : Kind) (name : String) : Preserves R (openDevice kind name) :=
  preserves_command (S := Aside) fun _ => .of_frame rfl id id

theorem aside_reachGateway (tun : String) : Preserves R (reachGateway tun) :=
  preserves_modify (S := Aside) fun _ => .of_frame rfl id id

theorem aside_clearAssets : Quietly R clearAssets :=
  quietly_undoing (S := Aside) (fun _ => .of_frame rfl id id)
    fun _ => .of_frame rfl (fun h => (Bool.and_eq_true_iff.mp h).1) id

theorem aside_stageGeo (valid : Bool) : Preserves R (stageGeo valid) :=
  (preserves_command (S := Aside) fun _ => .of_frame rfl id id).bind fun _ => aside_reading _

theorem aside_removeStage (stage : String) : Quietly R (removeStage stage) :=
  quietly_undoing (S := Aside) (fun _ => .of_frame rfl id id)
    fun _ => .of_frame rfl (fun h => (Bool.and_eq_true_iff.mp h).1) id

theorem aside_removeStages : Quietly R removeStages :=
  quietly_undoing (S := Aside) (fun _ => .of_frame rfl id id)
    fun _ => .of_frame rfl Bool.noConfusion id

theorem aside_stageConfig (stageable : Bool) (stage : String) :
    Preserves R (stageConfig stageable stage) := by
  apply (aside_reading _).bind
  intro _
  apply (preserves_command (S := Aside) fun _ => .of_frame rfl id id).bind
  intro _
  exact preserves_orUndo (aside_removeStage stage).preserves (aside_reading _)

theorem aside_superviseStep (text : String) : Preserves R (superviseStep text) :=
  (aside_reading _).either (fun _ => .pure ()) fun _ => Preserves.bind
    (preserves_modify (S := Aside) fun _ => .of_frame rfl id Bool.noConfusion) fun _ => .throw _

theorem aside_setAddresses (addresses : List IpNet) : Preserves R (setAddresses addresses) :=
  .forEach (fun _ => aside_reading _) addresses

end

/-! ### Routes -/

section
variable {R : Machine → Machine → Prop} [Coarser Rerouted R] (who : Component)

theorem rerouted_addRoute (op : RouteOp) : Preserves R (addRoute who op) := by
  apply preserves_command (S := Rerouted)
  intro w
  split
  · exact ⟨rfl, rfl, rfl, rfl, rfl, rfl, rfl⟩
  · exact ⟨rfl, rfl, rfl, rfl, rfl, rfl, rfl⟩

variable (ops : List RouteOp)

theorem rerouted_removeRoutes : Preserves R (removeRoutes who ops) :=
  .forEach (fun op => Quietly.preserves (m := deleteRoute who op) (quietly_undoing (S := Rerouted)
    (fun _ => ⟨rfl, rfl, rfl, rfl, rfl, rfl, rfl⟩) fun _ => ⟨rfl, rfl, rfl, rfl, rfl, rfl, rfl⟩)) _

theorem rerouted_applyLoop (installed ops : List RouteOp) :
    Preserves R (applyLoop who installed ops) := by
  induction ops generalizing installed with
  | nil => exact .pure installed
  | cons op rest ih =>
    apply (rerouted_addRoute who op).either
    · exact fun _ => ih _
    · exact fun _ =>
        .ite (ih installed) ((rerouted_removeRoutes who installed).bind fun _ => .throw _)

theorem rerouted_applyRoutes : Preserves R (applyRoutes who ops) := rerouted_applyLoop who [] ops

theorem rerouted_planRoutes : Preserves R (planRoutes who ops) :=
  preserves_modify (S := Rerouted) fun _ => ⟨rfl, rfl, rfl, rfl, rfl, rfl, rfl⟩

end

/-! ### The DNS setting -/

section
variable {R : Machine → Machine → Prop} [Coarser DnsMoved R]

/-- The setting and its flag, and the flag of what was undone. -/
theorem dnsMoved (w : Machine) (dns : List DnsLine) (undone dnsClean : Bool)
    (h : undone = true → w.undone = true) : DnsMoved w { w with dns, undone, dnsClean } :=
  ⟨rfl, rfl, rfl, rfl, rfl, rfl, rfl, h, rfl, rfl, rfl, rfl, rfl⟩

variable (servers : List IpAddr) (role : TunnelRole)

theorem moved_setDns : Preserves R (setDns servers) :=
  (preserves_command fun w => dnsMoved w (dnsOf servers) _ _ id).bind fun _ =>
    preserves_command fun w => dnsMoved w _ _ _ id

theorem moved_restoreDns (snapshot : Option (List IpAddr)) : Quietly R (restoreDns snapshot) := by
  cases snapshot with
  | none => exact .pure true
  | some servers =>
    apply Quietly.either (moved_setDns servers)
    · exact fun _ => .pure true
    · exact fun _ => (quietly_modify fun w => dnsMoved w _ false _ Bool.noConfusion).bind
        fun _ => .pure false

theorem moved_tryRestore : Quietly R (tryRestore servers) :=
  .either (moved_setDns servers) (fun _ => .pure ()) fun _ =>
    quietly_modify fun w => dnsMoved w _ false false Bool.noConfusion

theorem moved_takeSnapshot (who : Component) (service : Bool) :
    Quietly R (takeSnapshot who service) := by
  apply Quietly.either ((preserves_command fun w => dnsMoved w _ _ _ id).bind
    fun _ => preserves_command fun w => dnsMoved w _ _ _ id)
  · exact fun servers => (quietly_modify fun w => dnsMoved w _ _ _ id).bind fun _ => .pure _
  · exact fun _ => .pure none

theorem moved_xraySnapshot (service : Bool) : Quietly R (xraySnapshot role service) := by
  cases role with
  | primary => exact moved_takeSnapshot _ _
  | secondary => exact .pure none

theorem moved_wgSnapshot (config : WgConfig) (service : Bool) :
    Quietly R (wgSnapshot role config service) := by
  unfold wgSnapshot
  split
  · exact .pure none
  · exact moved_takeSnapshot _ _

theorem moved_ovpnSnapshot (active : OpenVpnActive) (service : Bool) :
    Quietly R (ovpnSnapshot active service) := by
  unfold ovpnSnapshot
  cases active.record.dns with
  | some servers => exact .pure _
  | none => exact moved_takeSnapshot _ _

end

/-! ### Devices that go -/

namespace Trimmed
variable {w w' w'' : Machine}

theorem refl (w : Machine) : Trimmed w w :=
  ⟨⟨fun _ => false, w.table.drop_none.symm⟩, rfl, rfl, rfl, rfl, rfl, rfl, rfl, rfl, rfl,
    rfl, rfl, rfl, rfl, rfl⟩

theorem trans (h : Trimmed w w') (h' : Trimmed w' w'') : Trimmed w w'' := by
  obtain ⟨gone, hgone⟩ := h.table
  obtain ⟨gone', hgone'⟩ := h'.table
  refine ⟨⟨fun row => gone row || gone' row, ?_⟩, h'.dns.trans h.dns,
    h'.resolvers.trans h.resolvers, h'.journal.trans h.journal, h'.record.trans h.record,
    h'.guarded.trans h.guarded, h'.deleted.trans h.deleted, h'.behind.trans h.behind,
    h'.undone.trans h.undone, h'.routesClean.trans h.routesClean, h'.dnsClean.trans h.dnsClean,
    h'.supervised.trans h.supervised, h'.filesClean.trans h.filesClean,
    h'.wireGuard.trans h.wireGuard, h'.openVpn.trans h.openVpn⟩
  rw [hgone', hgone, Table.drop_drop]

end Trimmed

theorem trimmed_dropDevice (w : Machine) (name : String) : Trimmed w (w.dropDevice name) :=
  ⟨⟨_, rfl⟩, rfl, rfl, rfl, rfl, rfl, rfl, rfl, rfl, rfl, rfl, rfl, rfl, rfl, rfl⟩

theorem trimmed_endChild (pid : Nat) (w : Machine) : Trimmed w (w.endChild pid) := by
  unfold Machine.endChild
  generalize w.children.filter (fun child => child.pid == pid) = ended
  have hstart : Trimmed w
      { w with children := w.children.filter fun child => child.pid != pid } :=
    ⟨⟨_, w.table.drop_none.symm⟩, rfl, rfl, rfl, rfl, rfl, rfl, rfl, rfl, rfl, rfl, rfl, rfl, rfl,
      rfl⟩
  generalize
    ({ w with children := w.children.filter fun child => child.pid != pid } : Machine) = v at hstart
  show Trimmed w (ended.foldl (fun w child => child.device.elim w w.dropDevice) v)
  induction ended generalizing v with
  | nil => exact hstart
  | cons child rest ih =>
    rw [List.foldl_cons]
    apply ih
    cases child.device with
    | none => exact hstart
    | some name => exact hstart.trans (trimmed_dropDevice v name)

section
variable {R : Machine → Machine → Prop} [Coarser Trimmed R]

theorem trimmed_stopChild (pid : Nat) : Quietly R (stopChild pid) :=
  quietly_modify (trimmed_endChild pid)

theorem trimmed_closeDevice (name : String) : Quietly R (closeDevice name) :=
  quietly_modify fun w => trimmed_dropDevice w name

theorem trimmed_settle (settles : Bool) (pid : Nat) : Quietly R (settle settles pid) := by
  apply quietly_modify (S := Trimmed)
  intro w
  cases settles with
  | true => exact .refl w
  | false => exact trimmed_endChild pid w

theorem trimmed_killLeftover (kind : Kind) (pid : Nat) : Quietly R (killLeftover kind pid) := by
  apply quietly_modify (S := Trimmed)
  intro w
  split
  · exact trimmed_endChild pid w
  · exact .refl w

end

/-! ### Sessions -/

/-- Where an executor keeps its session. -/
structure Seat (σ : Type) where
  kind : Kind
  record : σ → Record
  get : Machine → Option σ
  put : Machine → Option σ → Machine
  recorded : ∀ w, w.sessionRecord (.tunnel kind) = (get w).map record
  get_put : ∀ w s, get (put w s) = s
  put_get : ∀ w, put w (get w) = w
  others : ∀ w s who, who ≠ .tunnel kind → (put w s).sessionRecord who = w.sessionRecord who
  frame : ∀ w s, put w s = { w with
    xray := (put w s).xray, wireGuard := (put w s).wireGuard, openVpn := (put w s).openVpn }

def xraySeat : Seat XrayActive where
  kind := .xray
  record := XrayActive.record
  get w := w.xray
  put w xray := { w with xray }
  recorded _ := rfl
  get_put _ _ := rfl
  put_get _ := rfl
  others _ _ who h := by rcases who with (_ | _ | _) | _ <;> first | rfl | exact absurd rfl h
  frame _ _ := rfl

def wgSeat : Seat WireGuardActive where
  kind := .wireGuard
  record := WireGuardActive.record
  get w := w.wireGuard
  put w wireGuard := { w with wireGuard }
  recorded _ := rfl
  get_put _ _ := rfl
  put_get _ := rfl
  others _ _ who h := by rcases who with (_ | _ | _) | _ <;> first | rfl | exact absurd rfl h
  frame _ _ := rfl

def ovpnSeat : Seat OpenVpnActive where
  kind := .openVpn
  record := OpenVpnActive.record
  get w := w.openVpn
  put w openVpn := { w with openVpn }
  recorded _ := rfl
  get_put _ _ := rfl
  put_get _ := rfl
  others _ _ who h := by rcases who with (_ | _ | _) | _ <;> first | rfl | exact absurd rfl h
  frame _ _ := rfl

section
variable {σ : Type} {seat : Seat σ} {expected : Machine → σ → Bool} {w : Machine}

/-- The take of each executor, with its seat. -/
def Seat.take (seat : Seat σ) (expected : Machine → σ → Bool) : HelperProg (Option σ) := do
  let taken ← Call.gets fun w => (seat.get w).filter (expected w)
  Call.modify fun w => seat.put w (if taken.isSome then none else seat.get w)
  pure taken

/-- A session is taken in hand, or there is none to take. -/
theorem Seat.wp_take {Q : Option σ → Machine → Prop} {E : TunnelError → Machine → Prop}
    {C : Machine → Prop} (hnone : (seat.get w).filter (expected w) = none → Q none w)
    (hsome : ∀ active, (seat.get w).filter (expected w) = some active →
      w.sessionRecord (.tunnel seat.kind) = some (seat.record active) →
      Q (some active) (seat.put w none)) : wp Any (seat.take expected) Q E C w := by
  apply wp_read
  apply wp_write
  apply wp_pure
  cases htaken : (seat.get w).filter (expected w) with
  | none =>
    show Q none (seat.put w (seat.get w))
    rw [seat.put_get]
    exact hnone htaken
  | some active =>
    apply hsome active htaken
    rw [seat.recorded, (Option.filter_eq_some_iff.mp htaken).1]
    rfl

end

end NetOrchestrator.Macos
