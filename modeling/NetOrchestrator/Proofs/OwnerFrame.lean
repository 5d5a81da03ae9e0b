import NetOrchestrator.Proofs.JournalFrame

/-!
# `Proofs.OwnerFrame`: a teardown touches one entry

`teardownEntry index` either drops the entry at `index` or shrinks it under the same owner;
every other entry of the journal is what it was, at every instant (`wp_teardownEntry`). So a
teardown keeps every shrinking predicate (`Shrinking.teardownEntry`), and the loop of `teardown`
leaves every entry that it does not select as it was (`keeps_teardownWhere`).
-/

namespace NetOrchestrator.Daemon

open Net Lib Lib.Call List

/-- `j'` is `j` with the entry at `index` shrunk. -/
def Rewritten (j : Journal) (index : Nat) (j' : Journal) : Prop :=
  ∃ f : JournalEntry → JournalEntry,
    (∀ e, j[index]? = some e → (f e).Shrunk e) ∧ j' = j.modify index f

/-- The entry at `index` is rewritten or gone. -/
def Touched (j : Journal) (index : Nat) (j' : Journal) : Prop :=
  Rewritten j index j' ∨ j' = j.eraseIdx index

namespace Rewritten

variable {j j' : Journal} {index : Nat}

theorem refl (j : Journal) (index : Nat) : Rewritten j index j := by
  refine ⟨id, fun e _ => .refl e, ?_⟩
  rw [List.modify_id]

theorem modify {g : JournalEntry → JournalEntry} (h : Rewritten j index j')
    (hg : ∀ e, j'[index]? = some e → (g e).Shrunk e) : Rewritten j index (j'.modify index g) := by
  obtain ⟨f, hf, rfl⟩ := h
  refine ⟨g ∘ f, fun e he => ?_, ?_⟩
  · have hnow : (j.modify index f)[index]? = some (f e) := by
      rw [getElem?_modify_eq, he]
      rfl
    exact (hg (f e) hnow).trans (hf e he)
  · rw [List.modify_modify_eq]

theorem eraseIdx (h : Rewritten j index j') : j'.eraseIdx index = j.eraseIdx index := by
  obtain ⟨f, -, rfl⟩ := h
  exact List.eraseIdx_modify_of_eq f index j

end Rewritten

section
variable {V : Verdict Fault → Prop} {j : Journal} {index : Nat} {core : DaemonCore}

theorem keeps_updateEntry {f : JournalEntry → JournalEntry} (hf : ∀ e, (f e).Shrunk e) :
    Keeps V (OnJournal (Rewritten j index)) (updateEntry index f) :=
  Keeps.modify fun _ hcore => Rewritten.modify hcore fun e _ => hf e

theorem keeps_markStale : Keeps V (OnJournal (Rewritten j index)) (markStale index) :=
  keeps_updateEntry fun _ => .setState _

/-- A teardown: the entry is gone when it returns, and shrunk when it fails. -/
def TearsDown (V : Verdict Fault → Prop) (j : Journal) (index : Nat) (m : Prog Unit)
    (core : DaemonCore) : Prop :=
  wp V m (fun _ c => c.journal = j.eraseIdx index) (fun _ => OnJournal (Rewritten j index))
    (OnJournal (Touched j index)) core

section
variable {α : Type} {m : Prog α} (h : OnJournal (Rewritten j index) core)
include h

variable {f : α → Prog Unit} {e : IoError} {message : String}

/-- What keeps the entry in its place may come before a teardown. -/
theorem TearsDown.bind (hm : Keeps V (OnJournal (Rewritten j index)) m)
    (hf : ∀ a c, OnJournal (Rewritten j index) c → TearsDown V j index (f a) c) :
    TearsDown V j index (m >>= f) core :=
  wp_bind (wp_mono (hm core h) (fun a c hc => hf a c hc) (fun _ _ hc => hc) fun _ hc => .inl hc)

/-- So may what does not touch the journal. -/
theorem TearsDown.free (hm : JournalFree m)
    (hf : ∀ a c, c.journal = core.journal → TearsDown V j index (f a) c) :
    TearsDown V j index (m >>= f) core :=
  wp_bind (hm.wp hf (fun _ _ hc => h.congr hc) fun _ hc => .inl (h.congr hc))

theorem TearsDown.throw : TearsDown V j index (Call.throw e) core := wp_throw h

theorem tearsDown_markStale : TearsDown V j index (do
    markStale index
    Call.throw e) core :=
  .bind h keeps_markStale fun _ _ hc => .throw hc

theorem tearsDown_staleWith {kind : ErrorKind} :
    TearsDown V j index (staleWith index kind message) core :=
  tearsDown_markStale h

/-- The end of a sweep: the entry goes, or keeps a part of what it listed. -/
theorem tearsDown_sweepSettle {entry : JournalEntry}
    {body : List OwnedResource → OwnedResource → Prog Bool}
    (hbody : ∀ left a, JournalFree (body left a)) (hentry : core.journal[index]? = some entry) :
    TearsDown V j index
      (do
        let failed ← Call.sweep body [] entry.resources.reverse
        settle index failed message) core := by
  refine wp_then
    (JournalFree.wp_sweep hbody (fun _ _ hc => h.congr hc) fun _ hc => .inl (h.congr hc)) ?_
  rintro failed c ⟨hj, hsub⟩
  unfold settle
  split
  · exact wp_removeEntry (Rewritten.eraseIdx (h.congr hj))
  · refine wp_bind (wp_updateEntry (wp_throw ?_))
    refine Rewritten.modify (h.congr hj) fun e he => .of_subset ?_
    obtain rfl : entry = e := Option.some.inj (hentry.symm.trans (hj ▸ he))
    intro r hr
    exact mem_reverse.mp (hsub (mem_reverse.mp hr))

theorem tearsDown_generic : TearsDown V j index (teardownGenericEntry index) core :=
  wp_bind (wp_entryAt (fun _ hentry => tearsDown_sweepSettle h journalFree_releasedGeneric hentry)
    fun _ => h)

/-- A lookup that returns has not touched the journal. -/
theorem wp_staleOnError (hm : JournalFree m) :
    wp V (staleOnError index m) (fun _ c => c.journal = core.journal)
      (fun _ => OnJournal (Rewritten j index)) (OnJournal (Touched j index)) core := by
  refine wp_tried (hm.wp (fun _ _ hc => wp_pure hc) (fun e c hc => ?_) fun _ hc => .inl (h.congr hc))
  exact wp_bind (wp_updateEntry
    (wp_throw (Rewritten.modify (h.congr hc) fun _ _ => .setState _)))

theorem wp_verifiedWireguardLink {link : WireGuardLinkResource} :
    wp V (verifiedWireguardLink index link) (fun _ c => c.journal = core.journal)
      (fun _ => OnJournal (Rewritten j index)) (OnJournal (Touched j index)) core := by
  refine wp_then (wp_staleOnError h (journalFree_query _)) ?_
  intro owned c hc
  split
  · exact wp_pure hc
  refine wp_then (wp_staleOnError (h.congr hc) (journalFree_query _)) ?_
  intro present c' hc'
  have hj := hc'.trans hc
  split
  · exact wp_bind (wp_updateEntry
      (wp_throw (Rewritten.modify (h.congr hj) fun _ _ => .setState _)))
  · exact wp_pure hj

theorem tearsDown_wireguard : TearsDown V j index (teardownWireguardEntry index) core := by
  refine wp_bind (wp_entryAt (fun entry hentry => ?_) fun _ => h)
  cases findWireGuardLink entry.resources with
  | none => exact wp_throw h
  | some link =>
    refine wp_read ?_
    split
    · refine wp_then (wp_verifiedWireguardLink h) ?_
      intro owned c hc
      exact tearsDown_sweepSettle (h.congr hc) (journalFree_releasedWireguard owned) (hc ▸ hentry)
    · exact tearsDown_markStale h

theorem tearsDown_xray : TearsDown V j index (teardownXrayEntry index) core := by
  refine wp_bind (wp_entryAt (fun entry hentry => ?_) fun _ => h)
  cases findXrayProcess entry.resources with
  | none => exact wp_throw h
  | some process =>
    refine TearsDown.free h (journalFree_quicLifted _ _) fun lifted c hc => ?_
    refine wp_read ?_
    split
    · refine TearsDown.free (h.congr hc) (journalFree_runnerLinkIndex _) fun current c' hc' => ?_
      have hj := hc'.trans hc
      split
      · exact tearsDown_markStale (h.congr hj)
      · exact tearsDown_sweepSettle (h.congr hj) (journalFree_releasedXray _ _ _ _) (hj ▸ hentry)
    · exact tearsDown_markStale (h.congr hc)

omit h in
theorem keeps_clearOpenvpnResource {linkPresent : Bool} (resource : OwnedResource) :
    Keeps V (OnJournal (Rewritten j index)) (clearOpenvpnResource index linkPresent resource) := by
  refine (journalFree_clearOpenvpnResult _ _).before fun result => ?_
  cases result with
  | ok u => exact Keeps.pure ()
  | error e =>
    refine Keeps.ite (Keeps.pure ()) (Keeps.bind keeps_markStale fun _ => ?_)
    exact journalFree_persist.before fun _ => Keeps.throw _

omit h in
theorem keeps_clearOpenvpnNetwork :
    Keeps V (OnJournal (Rewritten j index)) (clearOpenvpnNetwork index) := by
  refine (journalFree_entryAt index).before fun entry => ?_
  cases findOpenVpnProcess entry.resources with
  | none => exact Keeps.throw _
  | some process =>
    refine Keeps.bind (Keeps.gets _) fun _ => Keeps.ite ?_ (Keeps.throw _)
    refine (journalFree_runnerLinkIndex _).before fun link => ?_
    refine Keeps.bind (Keeps.forEach keeps_clearOpenvpnResource _) fun _ => ?_
    refine Keeps.bind (keeps_updateEntry fun _ => .keepOpenVpnProcess) fun _ => ?_
    exact journalFree_save.onJournal

theorem tearsDown_openvpn : TearsDown V j index (teardownOpenvpnEntry index) core := by
  refine TearsDown.bind h (journalFree_entryAt index).onJournal fun entry c hc => ?_
  cases findOpenVpnProcess entry.resources with
  | none => exact wp_throw hc
  | some process =>
    refine wp_read ?_
    split
    swap
    · exact tearsDown_staleWith hc
    refine TearsDown.bind hc (journalFree_goneAfter (journalFree_openvpnStop _)).onJournal
      fun stopped c hc => ?_
    split
    swap
    · exact tearsDown_staleWith hc
    refine TearsDown.bind hc (journalFree_runnerLinkIndex _).onJournal fun link c hc => ?_
    split
    · exact tearsDown_staleWith hc
    refine TearsDown.bind hc (Keeps.attempt keeps_clearOpenvpnNetwork) fun result c hc => ?_
    cases result with
    | error e => exact tearsDown_staleWith hc
    | ok u =>
      refine TearsDown.bind hc (journalFree_goneAfter (journalFree_openvpnCleanup _ _)).onJournal
        fun cleaned c hc => ?_
      split
      · exact wp_bind (wp_removeEntry (wp_modify (Rewritten.eraseIdx hc)))
      · exact tearsDown_staleWith hc

end

/-- Whatever the owner, only the entry at `index` changes. -/
theorem wp_teardownEntry : TearsDown V core.journal index (teardownEntry index) core := by
  have hstart : OnJournal (Rewritten core.journal index) core := .refl _ _
  refine TearsDown.bind hstart (journalFree_entryAt index).onJournal fun entry c hc => ?_
  cases entry.owner with
  | xray id => exact tearsDown_xray hc
  | ovpn id => exact tearsDown_openvpn hc
  | ovpnProbe id => exact tearsDown_openvpn hc
  | wg id => exact tearsDown_wireguard hc
  | _ => exact tearsDown_generic hc

end

namespace Shrinking
variable {P : Journal → Prop} {V : Verdict Fault → Prop} {index : Nat}
variable (hP : Shrinking P)
include hP

theorem touched {j j' : Journal} (hj : P j) (h : Touched j index j') : P j' := by
  rcases h with ⟨f, hf, rfl⟩ | rfl
  · exact hP.modify hj hf
  · exact hP.erase hj

theorem of_tearsDown {m : Prog Unit} (h : ∀ core, TearsDown V core.journal index m core) :
    Keeps V (OnJournal P) m :=
  fun core hcore => wp_mono (h core) (fun _ _ hc => hP.touched hcore (.inr hc))
    (fun _ _ hc => hP.touched hcore (.inl hc)) fun _ hc => hP.touched hcore hc

theorem teardownXrayEntry (index : Nat) : Keeps V (OnJournal P) (teardownXrayEntry index) :=
  hP.of_tearsDown fun _ => tearsDown_xray (.refl _ _)

theorem teardownOpenvpnEntry (index : Nat) : Keeps V (OnJournal P) (teardownOpenvpnEntry index) :=
  hP.of_tearsDown fun _ => tearsDown_openvpn (.refl _ _)

/-- Tearing an entry down only loses marks. -/
theorem teardownEntry (index : Nat) : Keeps V (OnJournal P) (teardownEntry index) :=
  hP.of_tearsDown fun _ => wp_teardownEntry

theorem teardownLoop (selects : JournalEntry → Bool) (count : Nat) (result : CleanupResult) :
    Keeps V (OnJournal P) (teardownLoop selects count result) := by
  induction count generalizing result with
  | zero => exact Keeps.pure _
  | succ index ih =>
    refine (journalFree_entryAt index).before fun entry => ?_
    exact Keeps.ite ((hP.teardownEntry index).either (fun _ => ih _) fun _ => ih _) (ih _)

theorem cleanupUid (uid : Nat) : Keeps V (OnJournal P) (cleanupUid uid) := by
  refine Keeps.bind (JournalFree.modify fun _ => rfl).onJournal fun _ => ?_
  refine Keeps.bind (Keeps.gets _) fun count => ?_
  refine Keeps.bind (hP.teardownLoop _ count _) fun result => ?_
  exact journalFree_save.before fun _ => Keeps.pure _

end Shrinking

/-! ### The loop -/

/-- What a selection by owner leaves out is the same after an entry that it takes is touched. -/
theorem Touched.filter {j j' : Journal} {index : Nat} {entry : JournalEntry}
    {selects : JournalEntry → Bool} (h : Touched j index j')
    (howner : ∀ e e' : JournalEntry, e'.uid = e.uid → e'.owner = e.owner →
      selects e' = selects e) (hentry : j[index]? = some entry) (hselects : selects entry = true) :
    j'.filter (fun e => !selects e) = j.filter fun e => !selects e := by
  have hdrop : (!selects entry) = false := by rw [hselects]; rfl
  rcases h with ⟨f, hf, rfl⟩ | rfl
  · refine filter_modify hentry hdrop ?_
    rw [howner entry (f entry) (hf entry hentry).uid (hf entry hentry).owner, hselects]
    rfl
  · exact filter_eraseIdx hentry hdrop

section
variable {V : Verdict Fault → Prop} {selects : JournalEntry → Bool}
variable
  (howner : ∀ e e' : JournalEntry, e'.uid = e.uid → e'.owner = e.owner → selects e' = selects e)
  (left : Journal)
include howner

/-- The entries that a teardown does not select are what they were, at every instant. -/
theorem keeps_teardownLoop (count : Nat) (result : CleanupResult) :
    Keeps V (OnJournal fun j => j.filter (fun e => !selects e) = left)
      (teardownLoop selects count result) := by
  induction count generalizing result with
  | zero => exact Keeps.pure _
  | succ index ih =>
    intro core hcore
    refine wp_bind (wp_entryAt ?_ (fun _ => hcore))
    intro entry hentry
    split
    · rename_i hselects
      have hleft : ∀ c : DaemonCore, Touched core.journal index c.journal →
          OnJournal (fun j => j.filter (fun e => !selects e) = left) c :=
        fun c hc => (hc.filter howner hentry hselects).trans hcore
      refine wp_tried (wp_mono wp_teardownEntry ?_ ?_ (fun c hc => hleft c hc))
      · exact fun _ c hc => ih _ c (hleft c (.inr hc))
      · exact fun _ c hc => ih _ c (hleft c (.inl hc))
    · exact ih _ core hcore

theorem keeps_teardownWhere :
    Keeps V (OnJournal fun j => j.filter (fun e => !selects e) = left) (teardownWhere selects) := by
  refine Keeps.bind (Keeps.gets _) fun count => ?_
  refine Keeps.bind (keeps_teardownLoop howner left count _) fun result => ?_
  exact journalFree_save.before fun _ => Keeps.pure _

end

end NetOrchestrator.Daemon
