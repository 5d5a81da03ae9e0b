import NetOrchestrator.Proofs.Primitives

/-!
# `Proofs.JournalFrame`: what a request leaves of the journal

Two frame conditions, each proved once for the programs it holds of. A program is
`JournalFree` when it does not touch the journal in memory: every executor call, every save
and every loop over them. A predicate of the journal is `Shrinking` when it survives the
removal of an entry and any rewrite of an entry that records no new marks; the teardowns,
the bookkeeping of a connect and everything the reconcile passes journal keep every such
predicate.
-/

namespace NetOrchestrator.Daemon

open Net Lib Lib.Call List

/-! ### Programs that leave the journal alone -/

/-- However it ends, the journal in memory is what it was. -/
def JournalFree {α : Type} (m : Prog α) : Prop :=
  ∀ (V : Verdict Fault → Prop) (j : Journal), Keeps V (fun core => core.journal = j) m

namespace JournalFree

variable {α β : Type}

theorem pure (a : α) : JournalFree (pure a) := fun _ _ => Keeps.pure a

theorem throw (e : IoError) : JournalFree (Call.throw e : Prog α) := fun _ _ => Keeps.throw e

theorem gets (f : DaemonCore → α) : JournalFree (Call.gets f) := fun _ _ => Keeps.gets f

theorem modify {f : DaemonCore → DaemonCore} (h : ∀ core, (f core).journal = core.journal) :
    JournalFree (Call.modify f) :=
  fun _ _ => Keeps.modify fun core hcore => (h core).trans hcore

theorem step {act : DaemonCore → Except IoError α × DaemonCore}
    (h : ∀ core, (act core).2.journal = core.journal) : JournalFree (Call.step Fault.report act) :=
  fun _ _ => Keeps.step fun core hcore => (h core).trans hcore

theorem bind {m : Prog α} {f : α → Prog β} (hm : JournalFree m) (hf : ∀ a, JournalFree (f a)) :
    JournalFree (m >>= f) :=
  fun V j => Keeps.bind (hm V j) fun a => hf a V j

theorem attempt {m : Prog α} (hm : JournalFree m) : JournalFree (Call.attempt m) :=
  fun V j => Keeps.attempt (hm V j)

theorem either {m : Prog α} {f : Except IoError α → Prog β} (hm : JournalFree m)
    (hok : ∀ a, JournalFree (f (.ok a))) (herr : ∀ e, JournalFree (f (.error e))) :
    JournalFree (Call.attempt m >>= f) :=
  fun V j => (hm V j).either (fun a => hok a V j) fun e => herr e V j

theorem ite {c : Prop} [Decidable c] {m n : Prog α} (hm : JournalFree m) (hn : JournalFree n) :
    JournalFree (if c then m else n) :=
  fun V j => Keeps.ite (hm V j) (hn V j)

theorem forEach {body : α → Prog Unit} (h : ∀ a, JournalFree (body a)) (l : List α) :
    JournalFree (Call.forEach body l) :=
  fun V j => Keeps.forEach (fun a => h a V j) l

theorem tolerate {p : IoError → Bool} {m : Prog Unit} (h : JournalFree m) :
    JournalFree (Call.tolerate p m) :=
  fun V j => Keeps.tolerate (h V j)

variable {m : Prog α} {V : Verdict Fault → Prop} (h : JournalFree m)
include h

/-- A predicate of the journal is not affected. -/
theorem keeps (P : Journal → Prop) : Keeps V (fun core => P core.journal) m := by
  intro core hcore
  refine wp_mono (h V core.journal core rfl) ?_ ?_ ?_
  · exact fun _ c hc => hc ▸ hcore
  · exact fun _ c hc => hc ▸ hcore
  · exact fun c hc => hc ▸ hcore

/-- The journal is what it was at each of the ends. -/
theorem wp {core : DaemonCore} {Q : α → DaemonCore → Prop} {E : IoError → DaemonCore → Prop}
    {C : DaemonCore → Prop} (hQ : ∀ a c, c.journal = core.journal → Q a c)
    (hE : ∀ e c, c.journal = core.journal → E e c) (hC : ∀ c, c.journal = core.journal → C c) :
    Call.wp V m Q E C core :=
  wp_mono (h V core.journal core rfl) hQ hE hC

end JournalFree

section

theorem journalFree_save : JournalFree save := fun _ _ => Keeps.commit fun _ hcore => hcore

theorem journalFree_persist : JournalFree persist := journalFree_save.attempt.bind fun _ => .pure ()

variable {α : Type}

theorem journalFree_onKernel (request : Kernel → Reply α) : JournalFree (onKernel request) :=
  JournalFree.step fun _ => rfl

theorem journalFree_query (answer : DaemonCore → Except IoError α) : JournalFree (query answer) :=
  JournalFree.step fun _ => rfl

variable {m : Prog α} (link : String) (uid : Nat) (name : String) (origin : Origin)
  (resource : OwnedResource) (process : XrayProcessResource) (linkPresent : Bool)

theorem journalFree_withPolicy (h : JournalFree m) : JournalFree (withPolicy m) :=
  (JournalFree.gets _).bind fun _ => h.ite (.throw _)

theorem journalFree_entryAt (index : Nat) : JournalFree (entryAt index) :=
  fun _ _ => keeps_entryAt index

theorem journalFree_demand (check : Except Message Unit) : JournalFree (demand check) := by
  cases check with
  | ok u => exact .pure ()
  | error m => exact .throw _

theorem journalFree_asOther (h : JournalFree m) : JournalFree (asOther m) :=
  h.either (fun a => .pure a) fun _ => .throw _

theorem journalFree_dnsApply (servers : List IpAddr) (domains : List String)
    (full : Bool) : JournalFree (dnsApply link servers domains full) :=
  JournalFree.step fun core => by
    cases h : core.view.dnsApply link <;> rfl

theorem journalFree_dnsRevert : JournalFree (dnsRevert link) := JournalFree.step fun _ => rfl

theorem journalFree_openvpnStart : JournalFree (openvpnStart uid name) :=
  JournalFree.step fun core => by
    split
    · rfl
    · split <;> rfl

theorem journalFree_openvpnStop : JournalFree (openvpnStop name) :=
  JournalFree.step fun core => by
    split <;> rfl

theorem journalFree_openvpnCleanup : JournalFree (openvpnCleanup uid name) :=
  JournalFree.step fun core => by
    split
    · split <;> rfl
    · rfl

theorem journalFree_xrayStart : JournalFree (xrayStart origin uid name) :=
  JournalFree.step fun core => by
    split
    · rfl
    · split <;> rfl

theorem journalFree_xrayStop : JournalFree (xrayStop name) :=
  JournalFree.step fun core => by
    split <;> rfl

theorem journalFree_xrayCleanup : JournalFree (xrayCleanup uid name) :=
  JournalFree.step fun core => by
    split <;> rfl

theorem journalFree_xrayRestart : JournalFree (xrayRestart origin uid name) :=
  JournalFree.step fun core => by
    dsimp only
    split <;> rfl

theorem journalFree_quicEnsure : JournalFree (quicEnsure uid name) :=
  JournalFree.step fun core => by
    split <;> rfl

theorem journalFree_quicRemove : JournalFree (quicRemove uid name) := JournalFree.step fun _ => rfl

theorem journalFree_runnerLinkIndex : JournalFree (runnerLinkIndex name) := journalFree_query _

theorem journalFree_goneAfter {removal : Prog Unit} (h : JournalFree removal) :
    JournalFree (goneAfter removal) :=
  h.either (fun _ => .pure true) fun _ => .pure _

/-! ### The sweeps of the teardowns -/

theorem journalFree_releaseGeneric : JournalFree (releaseGeneric resource) := by
  cases resource with
  | route r => exact (journalFree_onKernel _).tolerate
  | netRoute r => exact (journalFree_onKernel _).tolerate
  | netRule r => exact (journalFree_withPolicy (journalFree_onKernel _)).tolerate
  | suppressedRoute r => exact (journalFree_onKernel _).tolerate
  | suppressedRule r => exact (journalFree_withPolicy (journalFree_onKernel _)).tolerate
  | _ => exact .pure ()

theorem journalFree_releasedGeneric (left : List OwnedResource) (resource : OwnedResource) :
    JournalFree (releasedGeneric left resource) :=
  (journalFree_releaseGeneric resource).either (fun _ => .pure true) fun _ => .pure false

/-- The DNS setting of an entry is reverted if there is somebody to revert it. -/
theorem journalFree_dnsReverted {name : String} : JournalFree (do
    if ← Call.gets fun core => core.executors.dns then goneAfter (dnsRevert name)
    else pure false) :=
  (JournalFree.gets _).bind fun _ =>
    (journalFree_goneAfter (journalFree_dnsRevert _)).ite (.pure false)

theorem journalFree_releasedWireguard (owned : Bool) (failed : List OwnedResource)
    (resource : OwnedResource) : JournalFree (releasedWireguard owned failed resource) := by
  cases resource with
  | route r => exact (journalFree_goneAfter (journalFree_onKernel _)).ite (.pure true)
  | address a => exact (journalFree_goneAfter (journalFree_onKernel _)).ite (.pure true)
  | wireGuardLink link =>
    exact ((journalFree_goneAfter (journalFree_onKernel _)).ite (.pure true)).ite (.pure false)
  | rule r =>
    exact (JournalFree.gets _).bind fun _ =>
      (journalFree_goneAfter (journalFree_onKernel _)).ite (.throw _)
  | dns dns => exact journalFree_dnsReverted.ite (.pure true)
  | attachSpec spec => exact .pure true
  | _ => exact .pure false

theorem journalFree_stopXrayProcess : JournalFree (stopXrayProcess uid name) :=
  (journalFree_xrayStop name).tolerate.bind fun _ => journalFree_xrayCleanup uid name

theorem journalFree_releasedXray
    (linkUp quicFailed : Bool) (failed : List OwnedResource) (resource : OwnedResource) :
    JournalFree (releasedXray uid process linkUp quicFailed failed resource) := by
  cases resource with
  | dns dns => exact journalFree_dnsReverted.ite (.pure true)
  | rule r =>
    exact (JournalFree.gets _).bind fun _ =>
      (journalFree_goneAfter (journalFree_onKernel _)).ite (.throw _)
  | route r => exact journalFree_goneAfter (journalFree_onKernel _)
  | address a =>
    refine JournalFree.ite ?_ (.pure true)
    exact (JournalFree.gets _).bind fun _ =>
      (journalFree_goneAfter (journalFree_onKernel _)).ite (.throw _)
  | xrayProcess p =>
    exact (journalFree_goneAfter (journalFree_stopXrayProcess _ _)).bind fun _ => .pure _
  | _ => exact .pure false

theorem journalFree_quicLifted : JournalFree (quicLifted uid process) := by
  refine JournalFree.ite ?_ (.pure true)
  refine (JournalFree.gets _).bind fun _ => JournalFree.ite ?_ (.pure false)
  apply (journalFree_quicRemove _ _).either
  · exact fun u => .pure true
  · exact fun e => .pure false

theorem journalFree_revertOpenvpnDns (dns : WireGuardDnsResource) :
    JournalFree (revertOpenvpnDns linkPresent dns) := by
  refine (JournalFree.gets _).bind fun _ => JournalFree.ite ?_ ?_
  · apply (journalFree_dnsRevert _).either
    · exact fun u => .pure ()
    · exact fun e => (JournalFree.throw _).ite (.pure ())
  · exact (JournalFree.throw _).ite (.pure ())

theorem journalFree_clearOpenvpnResult : JournalFree (clearOpenvpnResult linkPresent resource) := by
  cases resource with
  | dns dns => exact (journalFree_revertOpenvpnDns _ _).attempt.ite (.pure _)
  | rule r =>
    exact (JournalFree.gets _).bind fun _ => (journalFree_onKernel _).attempt.ite (.throw _)
  | route r => exact (journalFree_onKernel _).attempt
  | _ => exact .pure _

end

variable {V : Verdict Fault → Prop} {P : Journal → Prop} {α β : Type} {m : Prog α}

/-- What a sweep leaves is among what it was given, and the journal is untouched. -/
theorem JournalFree.wp_sweep {body : List OwnedResource → OwnedResource → Prog Bool}
    (h : ∀ left a, JournalFree (body left a)) {core : DaemonCore}
    {l : List OwnedResource} {E : IoError → DaemonCore → Prop} {C : DaemonCore → Prop}
    (hE : ∀ e c, c.journal = core.journal → E e c) (hC : ∀ c, c.journal = core.journal → C c) :
    Call.wp V (Call.sweep body [] l)
      (fun failed c => c.journal = core.journal ∧ failed ⊆ l) E C core := by
  refine wp_post
    (Call.wp_sweep (J := fun left rest c => c.journal = core.journal ∧ left ⊆ l ∧ rest ⊆ l) ?_
      ⟨rfl, by simp, by simp⟩)
    (fun failed c hc => ⟨hc.1, hc.2.1⟩)
  rintro left a rest c ⟨hj, hleft, hrest⟩
  have hrest' : rest ⊆ l := fun x hx => hrest (by simp [hx])
  refine (h left a).wp ?_ (fun e c' hc' => hE e c' (hc'.trans hj))
    (fun c' hc' => hC c' (hc'.trans hj))
  intro done c' hc'
  refine ⟨hc'.trans hj, ?_, hrest'⟩
  cases done with
  | true => exact hleft
  | false =>
    intro x hx
    rcases mem_append.mp hx with hx | hx
    · exact hleft hx
    · exact hrest (by simp_all)

/-! ### Entries that record no new marks -/

/-- A resource that records neither a transport mark nor a full tunnel. -/
def OwnedResource.Plain (r : OwnedResource) : Prop := r.transportMark = none ∧ r.full = none

/-- The same marks, seen in the same way by the allocator, or the transport mark alone. -/
def OwnedResource.Within (r' r : OwnedResource) : Prop :=
  r'.transportMark = r.transportMark ∧
    (r'.full = r.full ∧ (∀ mark, r'.usesMark mark = r.usesMark mark) ∨ r'.full = none)

theorem OwnedResource.Within.refl (r : OwnedResource) : r.Within r :=
  ⟨rfl, .inl ⟨rfl, fun _ => rfl⟩⟩

theorem OwnedResource.Within.trans {r₁ r₂ r₃ : OwnedResource} (h : r₁.Within r₂)
    (h' : r₂.Within r₃) : r₁.Within r₃ := by
  refine ⟨h.1.trans h'.1, ?_⟩
  rcases h.2 with ⟨hfull, huses⟩ | hfull
  · rcases h'.2 with ⟨hfull', huses'⟩ | hfull'
    · exact .inl ⟨hfull.trans hfull', fun m => (huses m).trans (huses' m)⟩
    · exact .inr (hfull.trans hfull')
  · exact .inr hfull

theorem OwnedResource.Within.plain {r₁ r₂ : OwnedResource} (h : r₁.Within r₂) (h' : r₂.Plain) :
    r₁.Plain := by
  refine ⟨h.1.trans h'.1, ?_⟩
  rcases h.2 with ⟨hfull, -⟩ | hfull
  · exact hfull.trans h'.2
  · exact hfull

/-- The entry of the same owner, with no marks that were not there. -/
structure JournalEntry.Shrunk (e' e : JournalEntry) : Prop where
  uid : e'.uid = e.uid
  owner : e'.owner = e.owner
  resources : ∀ r' ∈ e'.resources, r'.Plain ∨ ∃ r ∈ e.resources, r'.Within r

namespace JournalEntry.Shrunk

variable {e : JournalEntry} {resources : List OwnedResource}

theorem refl (e : JournalEntry) : e.Shrunk e := ⟨rfl, rfl, fun r hr => .inr ⟨r, hr, .refl r⟩⟩

theorem of_subset {state : OwnedState} (h : resources ⊆ e.resources) :
    ((e.setState state).setResources resources).Shrunk e :=
  ⟨rfl, rfl, fun r hr => .inr ⟨r, h hr, .refl r⟩⟩

theorem setState (state : OwnedState) : (e.setState state).Shrunk e :=
  ⟨rfl, rfl, (Shrunk.refl e).resources⟩

theorem setResources (h : ∀ r' ∈ resources, r'.Plain ∨ ∃ r ∈ e.resources, r'.Within r) :
    (e.setResources resources).Shrunk e :=
  ⟨rfl, rfl, h⟩

theorem push {resource : OwnedResource} (h : resource.Plain) : (e.push resource).Shrunk e := by
  refine ⟨rfl, rfl, fun r hr => ?_⟩
  rcases mem_append.mp hr with hr | hr
  · exact .inr ⟨r, hr, .refl r⟩
  · obtain rfl := mem_singleton.mp hr
    exact .inl h

theorem pop : e.pop.Shrunk e :=
  ⟨rfl, rfl, fun r hr => .inr ⟨r, (dropLast_sublist _).subset hr, .refl r⟩⟩

theorem trans {e₁ e₂ e₃ : JournalEntry} (h : e₁.Shrunk e₂) (h' : e₂.Shrunk e₃) : e₁.Shrunk e₃ := by
  refine ⟨h.uid.trans h'.uid, h.owner.trans h'.owner, fun r₁ hr₁ => ?_⟩
  rcases h.resources r₁ hr₁ with hplain | ⟨r₂, hr₂, hw⟩
  · exact .inl hplain
  · rcases h'.resources r₂ hr₂ with hplain | ⟨r₃, hr₃, hw'⟩
    · exact .inl (hw.plain hplain)
    · exact .inr ⟨r₃, hr₃, hw.trans hw'⟩

theorem map {f : OwnedResource → OwnedResource} (h : ∀ r, (f r).Within r) :
    (e.setResources (e.resources.map f)).Shrunk e := by
  refine .setResources fun r' hr' => ?_
  obtain ⟨r, hr, rfl⟩ := mem_map.mp hr'
  exact .inr ⟨r, hr, h r⟩

theorem updateLink {f : WireGuardLinkResource → WireGuardLinkResource}
    (h : ∀ link, (f link).full = link.full) : (e.updateLink f).Shrunk e := by
  unfold JournalEntry.updateLink
  split
  · rename_i link rest hres
    refine ⟨rfl, rfl, fun r hr => .inr ?_⟩
    rcases mem_cons.mp hr with rfl | hr
    · refine ⟨.wireGuardLink link, by simp [hres], rfl, .inl ⟨h link, fun mark => ?_⟩⟩
      simp only [OwnedResource.usesMark, h link]
    · exact ⟨r, by simp [hres, hr], .refl r⟩
  · exact .refl e

theorem updateProcess {f : XrayProcessResource → XrayProcessResource}
    (h : ∀ p, (f p).transportMark = p.transportMark ∧ (f p).full = p.full) :
    (e.updateProcess f).Shrunk e := by
  unfold JournalEntry.updateProcess
  split
  · rename_i process rest hres
    refine ⟨rfl, rfl, fun r hr => .inr ?_⟩
    rcases mem_cons.mp hr with rfl | hr
    · refine ⟨.xrayProcess process, by simp [hres], congrArg some (h process).1,
        .inl ⟨(h process).2, fun mark => ?_⟩⟩
      simp only [OwnedResource.usesMark, (h process).1]
    · exact ⟨r, by simp [hres, hr], .refl r⟩
  · exact .refl e

theorem keepOpenVpnProcess : (e.setResources (keepOpenVpnProcess e.resources)).Shrunk e := by
  refine .setResources fun r' hr' => .inr ?_
  simp only [Daemon.keepOpenVpnProcess] at hr'
  split at hr'
  · rename_i process rest hkept
    have hmem : ∀ r ∈ OwnedResource.openVpnProcess process :: rest, r ∈ e.resources := by
      intro r hr
      rw [← hkept] at hr
      exact (mem_filter.mp hr).1
    rcases mem_cons.mp hr' with rfl | hr'
    · exact ⟨.openVpnProcess process, hmem _ (by simp), rfl, .inr rfl⟩
    · exact ⟨r', hmem r' (by simp [hr']), .refl r'⟩
  · exact ⟨r', (mem_filter.mp hr').1, .refl r'⟩

theorem dnsApplied : e.dnsApplied.Shrunk e := by
  unfold JournalEntry.dnsApplied
  split
  · exact .trans (.push ⟨rfl, rfl⟩) .pop
  · exact .refl e

theorem recordWireguardDns (outcome : DnsApply) : (recordWireguardDns outcome e).Shrunk e := by
  have hwarn : ∀ e' : JournalEntry, (e'.updateLink fun link =>
      { link with warnings := link.warnings ++ [.dnsNotApplied] }).Shrunk e' :=
    fun e' => .updateLink fun _ => rfl
  cases outcome with
  | applied =>
    simp only [Daemon.recordWireguardDns]
    split
    · exact .trans (.push ⟨rfl, rfl⟩) .pop
    · exact .refl e
  | unavailable => exact hwarn e
  | skipped => exact .trans (hwarn e.pop) .pop

theorem setDnsApplied (applied : Bool) :
    (e.setResources (setDnsApplied applied e.resources)).Shrunk e := by
  refine .setResources fun r' hr' => ?_
  generalize e.resources = resources at hr' ⊢
  induction resources with
  | nil => cases hr'
  | cons r rest ih =>
    cases r with
    | dns dns =>
      rcases mem_cons.mp hr' with rfl | hr'
      · exact .inl ⟨rfl, rfl⟩
      · exact .inr ⟨r', by simp [hr'], .refl r'⟩
    | _ =>
      rcases mem_cons.mp hr' with rfl | hr'
      · exact .inr ⟨_, by simp, .refl _⟩
      · refine (ih hr').imp_right ?_
        rintro ⟨r, hr, hw⟩
        exact ⟨r, by simp [hr], hw⟩

end JournalEntry.Shrunk

theorem OwnedResource.rebind_within (old new : Nat) (r : OwnedResource) :
    (r.rebind old new).Within r := by
  cases r <;> simp only [OwnedResource.rebind] <;> (try split) <;>
    exact ⟨rfl, .inl ⟨rfl, fun _ => rfl⟩⟩

theorem setProcessMtu_within (mtu : Nat) (r : OwnedResource) : (setProcessMtu mtu r).Within r := by
  cases r <;> exact ⟨rfl, .inl ⟨rfl, fun _ => rfl⟩⟩

/-! ### Shrinking predicates -/

/-- A predicate of journals that survives lost entries and shrunk entries. -/
structure Shrinking (P : Journal → Prop) : Prop where
  modify : ∀ {j : Journal} {index : Nat} {f : JournalEntry → JournalEntry}, P j →
    (∀ e, j[index]? = some e → (f e).Shrunk e) → P (j.modify index f)
  erase : ∀ {j : Journal} {index : Nat}, P j → P (j.eraseIdx index)

/-- A predicate of the journal in memory. -/
def OnJournal (P : Journal → Prop) (core : DaemonCore) : Prop := P core.journal

theorem OnJournal.congr {core c : DaemonCore} (h : OnJournal P core)
    (hc : c.journal = core.journal) : OnJournal P c := by
  rw [OnJournal, hc]
  exact h

theorem JournalFree.onJournal (h : JournalFree m) : Keeps V (OnJournal P) m := h.keeps P

theorem JournalFree.before {f : α → Prog β} (h : JournalFree m)
    (hf : ∀ a, Keeps V (OnJournal P) (f a)) : Keeps V (OnJournal P) (m >>= f) :=
  Keeps.bind h.onJournal hf

/-- The same where both answers of an attempt are looked at. -/
theorem JournalFree.beforeEither {f : Except IoError α → Prog β} (h : JournalFree m)
    (hok : ∀ a, Keeps V (OnJournal P) (f (.ok a)))
    (herr : ∀ e, Keeps V (OnJournal P) (f (.error e))) :
    Keeps V (OnJournal P) (Call.attempt m >>= f) :=
  h.onJournal.either hok herr

namespace Shrinking

variable {P : Journal → Prop} {V : Verdict Fault → Prop} {index : Nat} {core : DaemonCore}
variable (hP : Shrinking P)
include hP

theorem updateEntry (index : Nat) {f : JournalEntry → JournalEntry}
    (h : ∀ e : JournalEntry, (f e).Shrunk e) : Keeps V (OnJournal P) (updateEntry index f) :=
  Keeps.modify fun _ hcore => hP.modify hcore fun e _ => h e

theorem removeEntry (index : Nat) : Keeps V (OnJournal P) (removeEntry index) :=
  Keeps.modify fun _ hcore => hP.erase hcore

theorem dropLast : Keeps V (OnJournal P) (setJournal List.dropLast) :=
  Keeps.modify fun core hcore => by
    show P core.journal.dropLast
    rw [← eraseIdx_length_sub_one]
    exact hP.erase hcore

end Shrinking

end NetOrchestrator.Daemon
