import NetOrchestrator.Lib.Runs
import NetOrchestrator.Proofs.TunnelFrame

/-!
# `Proofs.Marks`: one full tunnel, and no mark twice

Transport marks and the marks of full tunnels are taken from one range of 128. WireGuard
takes its mark when it becomes a full tunnel, OpenVPN and Xray take one for their transport
and use the same when they become full. `MarksDistinct` is the invariant: entries of
different owners, at most one full tunnel, and no mark in two entries. Within one entry the
mark of the full tunnel is the transport mark, by design.

The frame modules say that nothing but the three allocators and the OpenVPN pass brings a
mark into the journal; what is left is one lemma for each of those.
-/

namespace NetOrchestrator.Daemon

open Net Lib Lib.Call List Option

/-! ### The invariant -/

def OwnedResource.marks (r : OwnedResource) : List Nat :=
  r.transportMark.toList ++ (r.full.map WireGuardFullResource.fwmark).toList

/-- The marks that an entry records. -/
def JournalEntry.marks (e : JournalEntry) : List Nat := e.resources.flatMap OwnedResource.marks

/-- Two entries of different owners, not both full, with no mark in common. -/
structure JournalEntry.Apart (a b : JournalEntry) : Prop where
  key : ¬(a.uid = b.uid ∧ a.owner = b.owner)
  full : ¬(a.holdsFull = true ∧ b.holdsFull = true)
  marks : ∀ m ∈ a.marks, m ∉ b.marks

/-- One entry: its marks are in the range, are all the same, and a full tunnel's mark is one
that the allocator sees. -/
structure JournalEntry.OneMark (e : JournalEntry) : Prop where
  range : ∀ m ∈ e.marks, firstMark ≤ m ∧ m < firstMark + markSlots
  same : ∀ m ∈ e.marks, ∀ m' ∈ e.marks, m = m'
  seen : ∀ r ∈ e.resources, ∀ full, r.full = some full → r.usesMark full.fwmark = true

structure MarksDistinct (j : Journal) : Prop where
  apart : j.Pairwise JournalEntry.Apart
  each : ∀ e ∈ j, e.OneMark

variable {e : JournalEntry} {m : Nat}

theorem mem_marks : m ∈ e.marks ↔ ∃ r ∈ e.resources,
      r.transportMark = some m ∨ ∃ full, r.full = some full ∧ full.fwmark = m := by
  simp [JournalEntry.marks, OwnedResource.marks, mem_toList]

theorem OwnedResource.usesMark_of_transportMark {r : OwnedResource}
    (h : r.transportMark = some m) : r.usesMark m = true := by
  cases r with
  | openVpnProcess p => simpa [OwnedResource.transportMark, OwnedResource.usesMark] using h
  | xrayProcess p => simpa [OwnedResource.transportMark, OwnedResource.usesMark] using h
  | _ => cases h

/-- What the allocator of transport marks does not see is not in the entry. -/
theorem JournalEntry.OneMark.usesMark (h : e.OneMark)
    (hm : m ∈ e.marks) : ∃ r ∈ e.resources, r.usesMark m = true := by
  obtain ⟨r, hr, hmark | ⟨full, hfull, rfl⟩⟩ := mem_marks.mp hm
  · exact ⟨r, hr, OwnedResource.usesMark_of_transportMark hmark⟩
  · exact ⟨r, hr, h.seen r hr full hfull⟩

namespace JournalEntry.Shrunk

variable {e' e : JournalEntry}

theorem marks_subset (h : e'.Shrunk e) : e'.marks ⊆ e.marks := by
  intro m hm
  obtain ⟨r', hr', hmark⟩ := mem_marks.mp hm
  rcases h.resources r' hr' with ⟨hnone, hfull⟩ | ⟨r, hr, hw⟩
  · rcases hmark with hmark | ⟨full, hsome, -⟩
    · rw [hnone] at hmark
      cases hmark
    · rw [hfull] at hsome
      cases hsome
  · refine mem_marks.mpr ⟨r, hr, ?_⟩
    rcases hmark with hmark | ⟨full, hsome, hfw⟩
    · exact .inl (hw.1 ▸ hmark)
    · rcases hw.2 with ⟨hfull, -⟩ | hfull
      · exact .inr ⟨full, hfull ▸ hsome, hfw⟩
      · rw [hfull] at hsome
        cases hsome

theorem holdsFull (h : e'.Shrunk e) (hf : e'.holdsFull = true) : e.holdsFull = true := by
  obtain ⟨r', hr', hsome⟩ := any_eq_true.mp hf
  rcases h.resources r' hr' with ⟨-, hfull⟩ | ⟨r, hr, hw⟩
  · rw [hfull] at hsome
    cases hsome
  · rcases hw.2 with ⟨hfull, -⟩ | hfull
    · exact any_eq_true.mpr ⟨r, hr, hfull ▸ hsome⟩
    · rw [hfull] at hsome
      cases hsome

theorem oneMark (h : e'.Shrunk e) (he : e.OneMark) : e'.OneMark := by
  refine ⟨fun m hm => he.range m (h.marks_subset hm),
    fun m hm m' hm' => he.same m (h.marks_subset hm) m' (h.marks_subset hm'), ?_⟩
  intro r' hr' full hsome
  rcases h.resources r' hr' with ⟨-, hfull⟩ | ⟨r, hr, hw⟩
  · rw [hfull] at hsome
    cases hsome
  · rcases hw.2 with ⟨hfull, huses⟩ | hfull
    · rw [huses]
      exact he.seen r hr full (hfull ▸ hsome)
    · rw [hfull] at hsome
      cases hsome

end JournalEntry.Shrunk

namespace MarksDistinct

variable {j : Journal} {index : Nat}

/-- Rewriting one entry: it keeps its owner, records no mark that it did not have, and
becomes full only when no other entry is. -/
theorem modify {f : JournalEntry → JournalEntry} (h : MarksDistinct j)
    (hf : ∀ e, j[index]? = some e → (f e).uid = e.uid ∧ (f e).owner = e.owner ∧
      (f e).marks ⊆ e.marks ∧ (f e).OneMark ∧
      ((f e).holdsFull = true → e.holdsFull = true ∨ otherFull j index = false)) :
    MarksDistinct (j.modify index f) := by
  have hother : ∀ (i : Nat) (hi : i < j.length), i ≠ index → otherFull j index = false →
      ¬j[i].holdsFull = true := by
    intro i hi hne hnone hfull
    have hmem : j[i] ∈ j.eraseIdx index := mem_eraseIdx_iff_getElem?.mpr ⟨i, hne, by simp [hi]⟩
    have := any_eq_false.mp hnone _ hmem
    exact this hfull
  refine ⟨?_, ?_⟩
  · rw [pairwise_iff_getElem]
    intro a b ha hb hab
    rw [length_modify] at ha hb
    have hapart := (pairwise_iff_getElem.mp h.apart) a b ha hb hab
    rw [getElem_modify, getElem_modify]
    by_cases hia : index = a
    · obtain ⟨huid, howner, hmarks, -, hfull⟩ := hf j[a] (by simp [hia, ha])
      rw [if_pos hia, if_neg (by omega)]
      refine ⟨by rw [huid, howner]; exact hapart.key, ?_, fun m hm => hapart.marks m (hmarks hm)⟩
      rintro ⟨hfa, hfb⟩
      rcases hfull hfa with hfa | hnone
      · exact hapart.full ⟨hfa, hfb⟩
      · exact hother b hb (by omega) hnone hfb
    · rw [if_neg hia]
      by_cases hib : index = b
      · obtain ⟨huid, howner, hmarks, -, hfull⟩ := hf j[b] (by simp [hib, hb])
        rw [if_pos hib]
        refine ⟨by rw [huid, howner]; exact hapart.key, ?_,
          fun m hm hm' => hapart.marks m hm (hmarks hm')⟩
        rintro ⟨hfa, hfb⟩
        rcases hfull hfb with hfb | hnone
        · exact hapart.full ⟨hfa, hfb⟩
        · exact hother a ha (by omega) hnone hfa
      · rw [if_neg hib]
        exact hapart
  · intro e' he'
    obtain ⟨i, hi⟩ := mem_iff_getElem?.mp he'
    rw [getElem?_modify] at hi
    obtain ⟨e, he, rfl⟩ := map_eq_some_iff.mp hi
    by_cases hidx : index = i
    · rw [if_pos hidx]
      exact (hf e (by rw [hidx]; exact he)).2.2.2.1
    · rw [if_neg hidx]
      exact h.each e (mem_of_getElem? he)

theorem shrinking : Shrinking MarksDistinct where
  modify h hf := h.modify fun e he =>
    have hs := hf e he
    ⟨hs.uid, hs.owner, hs.marks_subset,
      hs.oneMark (h.each e (mem_of_getElem? he)), fun hfull => .inl (hs.holdsFull hfull)⟩
  erase h := ⟨h.apart.sublist (eraseIdx_sublist ..), fun e he => h.each e (mem_of_mem_eraseIdx he)⟩

/-- A new entry: a new owner, fresh marks, and full only when no entry is. -/
theorem push {entry : JournalEntry} (h : MarksDistinct j)
    (hkey : j.position entry.uid entry.owner = none) (hone : entry.OneMark)
    (hmarks : ∀ e ∈ j, ∀ m ∈ entry.marks, m ∉ e.marks)
    (hfull : entry.holdsFull = true → j.any JournalEntry.holdsFull = false) :
    MarksDistinct (j ++ [entry]) := by
  refine ⟨pairwise_append.mpr ⟨h.apart, by simp, ?_⟩, ?_⟩
  · intro e he entry' hentry'
    obtain rfl := mem_singleton.mp hentry'
    refine ⟨Journal.position_eq_none.mp hkey e he, ?_, fun m hm hm' => hmarks e he m hm' hm⟩
    rintro ⟨hfe, hfn⟩
    exact any_eq_false.mp (hfull hfn) e he hfe
  · intro e he
    rcases mem_append.mp he with he | he
    · exact h.each e he
    · obtain rfl := mem_singleton.mp he
      exact hone

theorem nil : MarksDistinct [] := ⟨List.Pairwise.nil, by simp⟩

end MarksDistinct

/-! ### The allocators -/

section
variable {V : Verdict Fault → Prop} {core : DaemonCore} {rules : List OwnedRuleResource}

/-- The journal is the one that the allocator started with. -/
def SameJournal (core c : DaemonCore) : Prop := c.journal = core.journal

/-- The journal records this mark nowhere. -/
def Journal.Unused (j : Journal) (mark : Nat) : Prop :=
  (firstMark ≤ mark ∧ mark < firstMark + markSlots) ∧ ∀ e ∈ j, mark ∉ e.marks

variable {journal : Journal} {slots : List Nat}

theorem wp_freeFullSlot {marks : List Nat} : wp V (freeFullSlot journal marks rules slots)
      (fun found c => SameJournal core c ∧ ∀ slot, found = some slot → slot ∈ slots ∧
        ∀ e ∈ journal, ∀ r ∈ e.resources, r.transportMark ≠ some (firstMark + slot))
      (fun _ => SameJournal core) (SameJournal core) core := by
  have hloop : ∀ c, SameJournal core c → wp V (freeFullSlot journal marks rules slots)
        (fun found c => SameJournal core c ∧ ∀ slot, found = some slot → slot ∈ slots ∧
          ∀ e ∈ journal, ∀ r ∈ e.resources, r.transportMark ≠ some (firstMark + slot))
        (fun _ => SameJournal core) (SameJournal core) c := by
    induction slots with
    | nil =>
      intro c hc
      refine wp_pure ⟨hc, ?_⟩
      intro slot hslot
      cases hslot
    | cons slot rest ih =>
      intro c hc
      have hrest : ∀ c, SameJournal core c → wp V (freeFullSlot journal marks rules rest)
          (fun found c => SameJournal core c ∧ ∀ s, found = some s → s ∈ slot :: rest ∧
            ∀ e ∈ journal, ∀ r ∈ e.resources, r.transportMark ≠ some (firstMark + s))
          (fun _ => SameJournal core) (SameJournal core) c := fun c hc =>
        wp_post (ih c hc) (fun _ _ h => ⟨h.1, fun s hs => ⟨by simp [(h.2 s hs).1], (h.2 s hs).2⟩⟩)
      unfold freeFullSlot
      split
      · exact hrest c hc
      rename_i hfree
      simp only [Bool.or_eq_true, not_or] at hfree
      refine wp_bind (wp_query (fun _ => hc) (fun _ _ => hc) ?_ (fun _ h => by cases h))
      intro used _
      split
      · exact hrest c hc
      refine wp_pure ⟨hc, ?_⟩
      rintro s ⟨⟩
      refine ⟨by simp, fun e he r hr hmark => hfree.1.2 ?_⟩
      exact any_eq_true.mpr ⟨e, he, any_eq_true.mpr ⟨r, hr, by simp [hmark]⟩⟩
  exact hloop core rfl

/-- A full tunnel that `allocate_full` hands out: no entry is full and its mark is new. -/
def Journal.FreshFull (j : Journal) (full : WireGuardFullResource) : Prop :=
  j.any JournalEntry.holdsFull = false ∧ j.Unused full.fwmark

theorem wp_allocateFull {plan : WireGuardPlan} : wp V (allocateFull plan)
      (fun full c => SameJournal core c ∧ ∀ f, full = some f → core.journal.FreshFull f)
      (fun _ => SameJournal core) (SameJournal core) core := by
  unfold allocateFull
  split
  · refine wp_pure ⟨rfl, ?_⟩
    intro f hf
    cases hf
  refine wp_read ?_
  split
  · exact wp_throw rfl
  rename_i hnone
  rw [Bool.not_eq_true] at hnone
  refine wp_read ?_
  split
  · refine wp_bind (wp_query (fun _ => rfl) (fun _ _ => rfl) ?_ (fun _ h => by cases h))
    intro rules _
    refine wp_bind (wp_query (fun _ => rfl) (fun _ _ => rfl) ?_ (fun _ h => by cases h))
    intro marks _
    refine wp_read (wp_then wp_freeFullSlot ?_)
    rintro found c ⟨hc, hfound⟩
    cases found with
    | none => exact wp_throw hc
    | some slot =>
      obtain ⟨hslot, hunused⟩ := hfound slot rfl
      have hlt : slot < markSlots := mem_range.mp hslot
      refine wp_pure ⟨hc, ?_⟩
      rintro f ⟨⟩
      refine ⟨hnone, ⟨by simp [fullResource], by simp [fullResource, hlt]⟩, fun e he hm => ?_⟩
      obtain ⟨r, hr, hmark | ⟨full, hfull, -⟩⟩ := mem_marks.mp hm
      · exact hunused e he r hr hmark
      · refine any_eq_false.mp hnone e he (any_eq_true.mpr ⟨r, hr, ?_⟩)
        rw [hfull]
        rfl
  · exact wp_throw rfl

theorem wp_freeMark : wp V (freeMark journal rules slots)
      (fun found c => SameJournal core c ∧ ∀ mark, found = some mark →
        (∃ slot ∈ slots, mark = firstMark + slot) ∧
          ∀ e ∈ journal, ∀ r ∈ e.resources, r.usesMark mark = false)
      (fun _ => SameJournal core) (SameJournal core) core := by
  have hloop : ∀ c, SameJournal core c → wp V (freeMark journal rules slots)
        (fun found c => SameJournal core c ∧ ∀ mark, found = some mark →
          (∃ slot ∈ slots, mark = firstMark + slot) ∧
            ∀ e ∈ journal, ∀ r ∈ e.resources, r.usesMark mark = false)
        (fun _ => SameJournal core) (SameJournal core) c := by
    induction slots with
    | nil =>
      intro c hc
      refine wp_pure ⟨hc, ?_⟩
      intro mark hmark
      cases hmark
    | cons slot rest ih =>
      intro c hc
      have hrest : ∀ c, SameJournal core c → wp V (freeMark journal rules rest)
          (fun found c => SameJournal core c ∧ ∀ mark, found = some mark →
            (∃ s ∈ slot :: rest, mark = firstMark + s) ∧
              ∀ e ∈ journal, ∀ r ∈ e.resources, r.usesMark mark = false)
          (fun _ => SameJournal core) (SameJournal core) c := by
        intro c hc
        refine wp_post (ih c hc) ?_
        rintro found c' ⟨hc', hfound⟩
        refine ⟨hc', fun mark hmark => ?_⟩
        obtain ⟨⟨s, hs, rfl⟩, hunused⟩ := hfound mark hmark
        exact ⟨⟨s, by simp [hs], rfl⟩, hunused⟩
      unfold freeMark
      split
      · exact hrest c hc
      rename_i hfree
      split
      · exact hrest c hc
      refine wp_bind ((journalFree_tableOccupied _).wp ?_ (fun _ c' h => h.trans hc)
        (fun c' h => h.trans hc))
      intro used c' hc'
      split
      · exact hrest c' (hc'.trans hc)
      refine wp_pure ⟨hc'.trans hc, ?_⟩
      rintro mark ⟨⟩
      refine ⟨⟨slot, by simp, rfl⟩, fun e he r hr => ?_⟩
      by_contra huses
      refine hfree (any_eq_true.mpr ⟨e, he, any_eq_true.mpr ⟨r, hr, ?_⟩⟩)
      simpa using huses
  exact hloop core rfl

theorem wp_allocateOpenvpnMark (h : MarksDistinct core.journal) :
    wp V allocateOpenvpnMark (fun mark c => SameJournal core c ∧ core.journal.Unused mark)
      (fun _ => SameJournal core) (SameJournal core) core := by
  refine wp_bind (journalFree_existingRules.wp ?_ (fun _ _ hc => hc) (fun _ hc => hc))
  intro rules c hc
  refine wp_read (wp_bind (wp_mono wp_freeMark ?_ (fun _ _ h' => h'.trans hc)
    (fun _ h' => h'.trans hc)))
  rintro found c' ⟨hc', hfound⟩
  cases found with
  | none => exact wp_throw (hc'.trans hc)
  | some mark =>
    obtain ⟨⟨slot, hslot, rfl⟩, hunused⟩ := hfound mark rfl
    have hlt : slot < markSlots := mem_range.mp hslot
    refine wp_pure ⟨hc'.trans hc, ⟨by simp, by simp [hlt]⟩, fun e he hm => ?_⟩
    obtain ⟨r, hr, huses⟩ := (h.each e he).usesMark hm
    rw [hunused e (hc ▸ he) r hr] at huses
    cases huses

end

/-! ### Connecting -/

/-- An entry with one marker: it records at most one mark, and that one is new. -/
theorem MarksDistinct.push_marker {j : Journal} {entry : JournalEntry} {marker : OwnedResource}
    (h : MarksDistinct j) (mark : Nat) (hres : entry.resources = [marker])
    (hkey : j.position entry.uid entry.owner = none)
    (hmarks : ∀ m ∈ entry.marks, m = mark ∧ j.Unused mark)
    (hseen : ∀ full, marker.full = some full → marker.usesMark full.fwmark = true)
    (hfull : marker.full.isSome = true → j.any JournalEntry.holdsFull = false) :
    MarksDistinct (j ++ [entry]) := by
  refine h.push hkey ⟨?_, ?_, ?_⟩ ?_ ?_
  · intro m hm
    obtain ⟨rfl, hunused⟩ := hmarks m hm
    exact hunused.1
  · intro m hm m' hm'
    exact (hmarks m hm).1.trans (hmarks m' hm').1.symm
  · intro r hr
    rw [hres, mem_singleton] at hr
    exact hr ▸ hseen
  · intro e he m hm
    obtain ⟨rfl, hunused⟩ := hmarks m hm
    exact hunused.2 e he
  · intro hholds
    refine hfull ?_
    simpa [JournalEntry.holdsFull, hres] using hholds

section
variable {V : Verdict Fault → Prop} {full : Option WireGuardFullResource} {core : DaemonCore}
  {mark : Nat}
variable {uid : Nat} {owner : Owner} {plan : XrayPlan}

theorem wp_connectWireguardEntry {profileId : String} {plan : WireGuardPlan}
    (hcore : OnJournal MarksDistinct core) (hkey : core.journal.position uid (.wg profileId) = none)
    (hfresh : ∀ f, full = some f → core.journal.FreshFull f) :
    wp V (connectWireguardEntry uid profileId plan full) (fun _ => OnJournal MarksDistinct)
      (fun _ => OnJournal MarksDistinct) (OnJournal MarksDistinct) core := by
  refine MarksDistinct.shrinking.connectWireguardEntry ?_
  -- The new entry records the mark of its full tunnel, if it has one.
  intro link hlink
  refine hcore.push_marker (full.elim 0 (·.fwmark)) rfl hkey ?_ ?_ ?_
  · intro m hm
    obtain ⟨r, hr, hmark⟩ := mem_marks.mp hm
    obtain rfl := mem_singleton.mp hr
    rcases hmark with hmark | ⟨f, hf, rfl⟩
    · cases hmark
    · obtain rfl : full = some f := hlink.symm.trans hf
      exact ⟨rfl, (hfresh f rfl).2⟩
  · intro f hf
    have hfull : link.full = some f := hf
    obtain rfl : full = some f := hlink.symm.trans hf
    simp [OwnedResource.usesMark, hfull]
  · intro hsome
    obtain ⟨f, hf⟩ := isSome_iff_exists.mp hsome
    exact (hfresh f (hlink.symm.trans hf)).1

theorem keeps_connectWireguard (uid : Nat) (profileId : String) (plan : WireGuardPlan) :
    Keeps V (OnJournal MarksDistinct) (connectWireguard uid profileId plan) := by
  refine (journalFree_demand _).before fun _ => ?_
  refine Keeps.bind (Keeps.gets _) fun executors => Keeps.ite (Keeps.throw _) ?_
  intro core hcore
  refine wp_bind (wp_position ?_)
  split
  · exact wp_throw hcore
  rename_i hpos
  rw [not_isSome_iff_eq_none] at hpos
  split
  · exact wp_throw hcore
  have hsame : ∀ c, SameJournal core c → OnJournal MarksDistinct c := fun _ => hcore.congr
  refine wp_bind (wp_mono wp_allocateFull ?_ (fun _ => hsame) hsame)
  rintro full c ⟨hc, hfresh⟩
  exact wp_connectWireguardEntry (hsame c hc) (hc ▸ hpos) (hc ▸ hfresh)

/-- An OpenVPN or Xray process marker: its transport mark, and the same mark when it is
full. -/
theorem MarksDistinct.push_process {j : Journal} {entry : JournalEntry} {marker : OwnedResource}
    (h : MarksDistinct j) (hres : entry.resources = [marker])
    (hkey : j.position entry.uid entry.owner = none) (hmark : marker.transportMark = some mark)
    (hunused : j.Unused mark) (hfull : ∀ full, marker.full = some full →
      full.fwmark = mark ∧ j.any JournalEntry.holdsFull = false) :
    MarksDistinct (j ++ [entry]) := by
  refine h.push_marker mark hres hkey ?_ ?_ ?_
  · intro m hm
    obtain ⟨r, hr, hm⟩ := mem_marks.mp hm
    rw [hres, mem_singleton] at hr
    subst hr
    rcases hm with hm | ⟨full, hsome, rfl⟩
    · exact ⟨Option.some.inj (hm.symm.trans hmark), hunused⟩
    · exact ⟨(hfull full hsome).1, hunused⟩
  · intro full hsome
    rw [(hfull full hsome).1]
    exact OwnedResource.usesMark_of_transportMark hmark
  · intro hsome
    obtain ⟨full, hf⟩ := isSome_iff_exists.mp hsome
    exact (hfull full hf).2

theorem keeps_startOpenvpnEntry {name : String}
    (hcore : OnJournal MarksDistinct core) (hkey : core.journal.position uid owner = none)
    (hunused : core.journal.Unused mark) :
    wp V (startOpenvpnEntry uid owner name mark) (fun _ => OnJournal MarksDistinct)
      (fun _ => OnJournal MarksDistinct) (OnJournal MarksDistinct) core := by
  have hP := MarksDistinct.shrinking
  refine wp_bind (wp_pushEntry ?_)
  refine journalFree_save.attempt.before (fun saved => ?_) _
    (hcore.push_process rfl hkey rfl hunused fun full hfull => by cases hfull)
  cases saved with
  | error e => exact Keeps.bind hP.dropLast fun _ => Keeps.throw e
  | ok u =>
    refine Keeps.bind (Keeps.gets _) fun count => ?_
    apply (journalFree_openvpnStart _ _).beforeEither
    · intro u
      exact Keeps.bind (hP.updateEntry _ fun _ => .setState _)
        fun _ => journalFree_persist.onJournal
    · intro e
      refine Keeps.bind (Keeps.attempt (hP.teardownOpenvpnEntry _)) fun _ => ?_
      exact journalFree_persist.before fun _ => Keeps.throw e

theorem keeps_connectOpenvpn (uid : Nat) (plan : OpenVpnPlan) :
    Keeps V (OnJournal MarksDistinct) (connectOpenvpn uid plan) := by
  refine (journalFree_demand _).before fun _ => ?_
  intro core hcore
  have hsame : ∀ c, SameJournal core c → OnJournal MarksDistinct c := fun _ => hcore.congr
  refine wp_bind (wp_position (wp_bind (wp_position ?_)))
  split
  · exact wp_throw hcore
  rename_i hpos
  simp only [Bool.or_eq_true, not_or, not_isSome_iff_eq_none] at hpos
  refine wp_bind (wp_bind (wp_mono (wp_allocateOpenvpnMark hcore) ?_ (fun _ => hsame) hsame))
  rintro mark c ⟨hc, hunused⟩
  refine wp_read ?_
  split
  · refine wp_bind ((journalFree_query _).wp ?_ (fun _ c' h => hsame c' (h.trans hc))
      (fun c' h => hsame c' (h.trans hc)))
    intro _ c₁ hc₁
    refine wp_bind ((journalFree_resolveOpenvpnName _ _).wp ?_
      (fun _ c' h => hsame c' (h.trans (hc₁.trans hc)))
      (fun c' h => hsame c' (h.trans (hc₁.trans hc))))
    intro name c₂ hc₂
    have hj : c₂.journal = core.journal := hc₂.trans (hc₁.trans hc)
    refine wp_post (keeps_startOpenvpnEntry (hsame c₂ hj) (hj ▸ hpos.1) (hj ▸ hunused)) ?_
    intro _ c₃ hc₃
    refine Keeps.bind ?_ (fun _ => ?_) c₃ hc₃
    · exact (JournalFree.modify fun _ => rfl).onJournal
    · exact (JournalFree.modify fun _ => rfl).onJournal
  · exact wp_throw (hsame c hc)

theorem wp_xrayFull (hmark : firstMark ≤ mark) :
    wp V (xrayFull plan mark) (fun full c => SameJournal core c ∧ ∀ f, full = some f →
        f.fwmark = mark ∧ core.journal.any JournalEntry.holdsFull = false)
      (fun _ => SameJournal core) (SameJournal core) core := by
  unfold xrayFull
  split
  · refine wp_read ?_
    split
    · exact wp_throw rfl
    rename_i hnone
    refine wp_read ?_
    split
    · refine wp_pure ⟨rfl, ?_⟩
      intro f hf
      rw [← Option.some.inj hf]
      refine ⟨?_, by simpa using hnone⟩
      show firstMark + (mark - firstMark) = mark
      exact Nat.add_sub_cancel' hmark
    · exact wp_throw rfl
  · refine wp_pure ⟨rfl, ?_⟩
    intro f hf
    cases hf

theorem wp_connectXrayEntry
    (hcore : OnJournal MarksDistinct core) (hkey : core.journal.position uid owner = none)
    (hunused : core.journal.Unused mark) (hfull : ∀ f, full = some f →
      f.fwmark = mark ∧ core.journal.any JournalEntry.holdsFull = false) :
    wp V (connectXrayEntry uid owner plan mark full) (fun _ => OnJournal MarksDistinct)
      (fun _ => OnJournal MarksDistinct) (OnJournal MarksDistinct) core := by
  have hP := MarksDistinct.shrinking
  refine wp_bind (wp_pushEntry ?_)
  refine journalFree_save.attempt.before (fun saved => ?_) _
    (hcore.push_process rfl hkey rfl hunused hfull)
  cases saved with
  | error e => exact Keeps.bind hP.dropLast fun _ => Keeps.throw _
  | ok u =>
    refine Keeps.bind (Keeps.gets _) fun count => ?_
    refine (hP.applyXrayPlan _ _ _ _ _).either (fun _ => ?_) fun e => hP.abandonXray _ e
    refine Keeps.bind (hP.commitXray _) fun _ => ?_
    exact (journalFree_clearXrayRestarts _).before fun _ =>
      (journalFree_clearTunnelFailed _).onJournal

theorem keeps_connectXray (uid : Nat) (profileId : String)
    (prepare : Nat → Except IoError XrayPlan) :
    Keeps V (OnJournal MarksDistinct) (connectXray uid profileId prepare) := by
  refine (journalFree_demand _).before fun _ => ?_
  intro core hcore
  have hsame : ∀ c, SameJournal core c → OnJournal MarksDistinct c := fun _ => hcore.congr
  refine wp_bind (wp_position ?_)
  split
  · exact wp_throw hcore
  rename_i hpos
  rw [not_isSome_iff_eq_none] at hpos
  refine wp_bind (wp_mono (wp_allocateOpenvpnMark hcore) ?_ (fun _ => hsame) hsame)
  rintro mark c ⟨hc, hunused⟩
  refine wp_bind (wp_ofExcept (fun plan _ => ?_) (fun _ _ => hsame c hc))
  refine wp_read ?_
  split
  · exact wp_throw (hsame c hc)
  refine wp_bind ((journalFree_xrayStage _ (journalFree_query _)).wp ?_
    (fun _ c' h => hsame c' (h.trans hc)) (fun c' h => hsame c' (h.trans hc)))
  intro _ c₁ hc₁
  have hj₁ : c₁.journal = core.journal := hc₁.trans hc
  refine wp_bind ((journalFree_xrayStage _ (journalFree_runnerLinkIndex _)).wp ?_
    (fun _ c' h => hsame c' (h.trans hj₁)) (fun c' h => hsame c' (h.trans hj₁)))
  intro link c₂ hc₂
  have hj₂ : c₂.journal = core.journal := hc₂.trans hj₁
  split
  · exact wp_throw (hsame c₂ hj₂)
  refine wp_bind (wp_mono (wp_xrayFull hunused.1.1) ?_
    (fun _ c' h => hsame c' (Eq.trans h hj₂)) (fun c' h => hsame c' (Eq.trans h hj₂)))
  rintro full c₃ ⟨hc₃, hfull⟩
  have hj₃ : c₃.journal = core.journal := Eq.trans hc₃ hj₂
  split
  · exact wp_throw (hsame c₃ hj₃)
  exact wp_connectXrayEntry (hsame c₃ hj₃) (hj₃ ▸ hpos) (hj₃ ▸ hunused)
    (fun f hf => hj₃ ▸ hj₂ ▸ hfull f hf)

end

/-! ### The OpenVPN pass -/

section
variable {V : Verdict Fault → Prop} {core : DaemonCore} {index : Nat}
  {full : Option WireGuardFullResource}

/-- A session may become this full tunnel: no other entry is full, and the mark is its own. -/
def Journal.Eligible (j : Journal) (index : Nat) (full : WireGuardFullResource) : Prop :=
  otherFull j index = false ∧
    ∃ entry process, j[index]? = some entry ∧
      findOpenVpnProcess entry.resources = some process ∧
      process.transportMark = some full.fwmark

theorem journalFree_checkOpenvpnSlot (mark slot : Nat) :
    JournalFree (checkOpenvpnSlot mark slot) := by
  refine (JournalFree.gets _).bind fun _ => JournalFree.ite ?_ (.throw _)
  refine (journalFree_query _).bind fun rules => JournalFree.bind ?_ fun used =>
    (JournalFree.throw _).ite (.pure ())
  refine JournalFree.ite (.pure true) ?_
  refine (journalFree_query _).bind fun _ => JournalFree.ite (.pure true) ?_
  refine (JournalFree.gets _).bind fun _ => JournalFree.ite ?_ (.pure false)
  apply (journalFree_query _).either
  · exact fun marks => .pure _
  · exact fun e => .pure true

theorem fullResource_markSlot {mark slot : Nat} (h : markSlot mark = some slot)
    (ipv4 ipv6 : Bool) : (fullResource slot ipv4 ipv6).fwmark = mark := by
  unfold markSlot at h
  split at h
  · rename_i hrange
    rw [← Option.some.inj h]
    exact Nat.add_sub_cancel' hrange.1
  · cases h

theorem wp_openvpnFullPlan {ipv4 ipv6 : Bool} :
    wp V (openvpnFullPlan index ipv4 ipv6) (fun full c => SameJournal core c ∧
        ∀ f, full = some f → core.journal.Eligible index f)
      (fun _ => SameJournal core) (SameJournal core) core := by
  unfold openvpnFullPlan
  split
  · refine wp_pure ⟨rfl, ?_⟩
    intro f hf
    cases hf
  refine wp_read ?_
  split
  · exact wp_throw rfl
  rename_i hother
  rw [Bool.not_eq_true] at hother
  refine wp_bind (wp_entryAt ?_ (fun _ => rfl))
  intro entry hentry
  cases hprocess : findOpenVpnProcess entry.resources with
  | none => exact wp_throw rfl
  | some process =>
    cases hmark : process.transportMark with
    | none =>
      simp only [hmark]
      exact wp_throw rfl
    | some mark =>
      simp only [hmark]
      cases hslot : markSlot mark with
      | none => exact wp_throw rfl
      | some slot =>
        have heligible : ∀ f, some (fullResource slot ipv4 ipv6) = some f →
            core.journal.Eligible index f := by
          intro f hf
          rw [← Option.some.inj hf]
          refine ⟨hother, entry, process, hentry, hprocess, ?_⟩
          rw [hmark, fullResource_markSlot hslot]
        simp only
        split
        · exact wp_pure ⟨rfl, heligible⟩
        · refine wp_bind ((journalFree_checkOpenvpnSlot _ _).wp ?_ (fun _ _ h => h) (fun _ h => h))
          intro _ c hc
          exact wp_pure ⟨hc, heligible⟩

variable {P : Journal → Prop}

/-- The removal of one resource: the pass goes on with the journal as it is, or stops with
the entry stale. -/
theorem wp_clearOpenvpnResource (hP : Shrinking P) {linkPresent : Bool}
    {resource : OwnedResource} (hcore : OnJournal P core) :
    wp V (clearOpenvpnResource index linkPresent resource) (fun _ => SameJournal core)
      (fun _ => OnJournal P) (OnJournal P) core := by
  have hsame : ∀ c, SameJournal core c → OnJournal P c := fun _ => hcore.congr
  refine wp_bind ((journalFree_clearOpenvpnResult _ _).wp ?_ (fun _ => hsame) hsame)
  intro result c hc
  cases result with
  | ok u => exact wp_pure hc
  | error e =>
    simp only
    split
    · exact wp_pure hc
    · have hstale : P (c.journal.modify index (·.setState .stale)) :=
        hP.modify (hsame c hc) fun _ _ => .setState _
      refine wp_bind (wp_updateEntry (wp_bind (wp_persist (fun _ => hstale) ?_ ?_)))
      · exact wp_throw hstale
      · exact wp_throw hstale

/-- The journal after the session's network is cleared: only the process marker is kept. -/
def Journal.cleared (j : Journal) (index : Nat) : Journal :=
  j.modify index fun entry => entry.setResources (keepOpenVpnProcess entry.resources)

theorem wp_clearOpenvpnNetwork (hP : Shrinking P) (hcore : OnJournal P core) :
    wp V (clearOpenvpnNetwork index) (fun _ c => c.journal = core.journal.cleared index)
      (fun _ => OnJournal P) (OnJournal P) core := by
  have hsame : ∀ c, SameJournal core c → OnJournal P c := fun _ => hcore.congr
  refine wp_bind (wp_entryAt ?_ (fun _ => hcore))
  intro entry hentry
  cases findOpenVpnProcess entry.resources with
  | none => exact wp_throw hcore
  | some process =>
    refine wp_read ?_
    split
    · refine wp_bind ((journalFree_runnerLinkIndex _).wp ?_ (fun _ => hsame) hsame)
      intro link c hc
      refine wp_then (wp_forEach (J := fun _ => SameJournal core) ?_ hc) ?_
      · intro resource _ c' hc'
        exact wp_post (wp_clearOpenvpnResource hP (hsame c' hc')) (fun _ _ h => Eq.trans h hc')
      · intro _ c' hc'
        have hj : c'.journal.cleared index = core.journal.cleared index := by rw [hc']
        have hkept : P (c'.journal.cleared index) :=
          hP.modify (hsame c' hc') fun _ _ => .keepOpenVpnProcess
        exact wp_bind (wp_updateEntry (wp_save (fun _ => hkept) (fun _ _ => hkept)
          (fun _ _ => hkept) hj))
    · exact wp_throw hcore

/-- The marker of a cleared session is the first resource, and not full. -/
theorem keepOpenVpnProcess_of_find {resources : List OwnedResource}
    {process : OpenVpnProcessResource} (h : findOpenVpnProcess resources = some process) :
    ∃ rest, keepOpenVpnProcess resources =
      .openVpnProcess { process with full := none } :: rest := by
  induction resources with
  | nil => cases h
  | cons r resources ih =>
    cases r with
    | openVpnProcess p =>
      obtain rfl : p = process := Option.some.inj h
      exact ⟨_, rfl⟩
    | _ => exact ih h

/-- A cleared session that takes its full tunnel. -/
theorem MarksDistinct.setOpenvpnFull {j : Journal} (h : MarksDistinct j)
    (hfull : ∀ f, full = some f → j.Eligible index f) :
    MarksDistinct ((j.cleared index).modify index (·.setOpenvpnFull full)) := by
  unfold Journal.cleared
  rw [modify_modify_eq]
  refine h.modify fun e he => ?_
  have hone := h.each e (mem_of_getElem? he)
  have hshrunk : (e.setResources (keepOpenVpnProcess e.resources)).Shrunk e := .keepOpenVpnProcess
  simp only [Function.comp_apply, JournalEntry.setOpenvpnFull]
  split
  · rename_i process rest hres
    -- The marker's own transport mark is in the entry, and so is the mark of its full tunnel.
    have hkept : ∀ m, (∃ r ∈ OwnedResource.openVpnProcess process :: rest,
        r.transportMark = some m ∨ ∃ f, r.full = some f ∧ f.fwmark = m) → m ∈ e.marks := by
      intro m hm
      exact hshrunk.marks_subset (mem_marks.mpr (by rw [hres]; exact hm))
    have hmark : ∀ f, full = some f → process.transportMark = some f.fwmark := by
      intro f hf
      obtain ⟨-, entry, p, hentry, hfind, hp⟩ := hfull f hf
      obtain rfl : e = entry := Option.some.inj (he.symm.trans hentry)
      obtain ⟨rest', hrest'⟩ := keepOpenVpnProcess_of_find hfind
      have hhead := congrArg List.head? (hres.symm.trans hrest')
      obtain rfl : process = { p with full := none } := by simpa using hhead
      exact hp
    have hsub : ∀ m, (∃ r ∈ OwnedResource.openVpnProcess { process with full } :: rest,
        r.transportMark = some m ∨ ∃ f, r.full = some f ∧ f.fwmark = m) → m ∈ e.marks := by
      rintro m ⟨r, hr, hm⟩
      rcases mem_cons.mp hr with rfl | hr
      · refine hkept m ⟨.openVpnProcess process, by simp, .inl ?_⟩
        rcases hm with hm | ⟨f, hf, rfl⟩
        · exact hm
        · exact hmark f hf
      · exact hkept m ⟨r, by simp [hr], hm⟩
    refine ⟨rfl, rfl, fun m hm => hsub m (mem_marks.mp hm), ⟨?_, ?_, ?_⟩, ?_⟩
    · exact fun m hm => hone.range m (hsub m (mem_marks.mp hm))
    · exact fun m hm m' hm' =>
        hone.same m (hsub m (mem_marks.mp hm)) m' (hsub m' (mem_marks.mp hm'))
    · intro r hr f hf
      rcases mem_cons.mp hr with rfl | hr
      · exact OwnedResource.usesMark_of_transportMark (hmark f hf)
      · exact (hshrunk.oneMark hone).seen r (by rw [hres]; simp [hr]) f hf
    · intro hholds
      obtain ⟨r, hr, hsome⟩ := any_eq_true.mp hholds
      rcases mem_cons.mp hr with rfl | hr
      · obtain ⟨f, hf⟩ := isSome_iff_exists.mp hsome
        exact .inr (hfull f hf).1
      · refine .inl (hshrunk.holdsFull (any_eq_true.mpr ⟨r, ?_, hsome⟩))
        rw [hres]
        simp [hr]
  · exact ⟨hshrunk.uid, hshrunk.owner, hshrunk.marks_subset, hshrunk.oneMark hone,
      fun hf => .inl (hshrunk.holdsFull hf)⟩

theorem wp_installOpenvpnPlan {uid : Nat} {owner : Owner} {name : String}
    {plan : OpenVpnNetworkPlan} (hcore : OnJournal MarksDistinct core)
    (hfull : ∀ f, full = some f → core.journal.Eligible index f) :
    wp V (installOpenvpnPlan uid owner index name plan full) (fun _ => OnJournal MarksDistinct)
      (fun _ => OnJournal MarksDistinct) (OnJournal MarksDistinct) core := by
  have hP := MarksDistinct.shrinking
  have hcleared : MarksDistinct (core.journal.cleared index) :=
    hP.modify hcore fun _ _ => .keepOpenVpnProcess
  refine wp_tried (wp_ends (wp_clearOpenvpnNetwork hP hcore) ?_
    (fun _ c h => hP.failOpenvpn uid owner c h))
  intro _ c hc
  simp only
  have hjournal : OnJournal MarksDistinct c := by
    rw [OnJournal, hc]
    exact hcleared
  split
  · exact wp_pure hjournal
  have hsame : ∀ c', SameJournal c c' → OnJournal MarksDistinct c' := fun _ => hjournal.congr
  refine wp_tried ((journalFree_sessionLink _).wp ?_
    (fun _ c' h => hP.failOpenvpn uid owner c' (hsame c' h)) hsame)
  intro link c' hc'
  refine wp_bind (wp_updateEntry ?_)
  have hset : MarksDistinct (c'.journal.modify index (·.setOpenvpnFull full)) := by
    rw [hc', hc]
    exact hcore.setOpenvpnFull hfull
  refine hP.orFail uid owner journalFree_save.onJournal (fun _ => ?_) _ hset
  refine Keeps.bind (hP.installOpenvpnRoutes uid owner index _) fun _ => ?_
  refine Keeps.bind (hP.installOpenvpnRules uid owner index _) fun _ => ?_
  exact hP.installOpenvpnDns uid owner index link name plan _

theorem keeps_reconcileOpenvpnOwner (uid : Nat) (owner : Owner) :
    Keeps V (OnJournal MarksDistinct) (reconcileOpenvpnOwner uid owner) := by
  have hP := MarksDistinct.shrinking
  refine (journalFree_position _ _).before fun pos => ?_
  cases pos with
  | none => exact Keeps.throw _
  | some index =>
    refine (journalFree_entryAt index).before fun entry => ?_
    cases findOpenVpnProcess entry.resources with
    | none => exact Keeps.throw _
    | some process =>
      refine hP.orFail uid owner (journalFree_query _).onJournal fun events => ?_
      refine (journalFree_applyEvents _ _).before fun polled => ?_
      cases polled with
      | failed => exact hP.failOpenvpn uid owner
      | session =>
        refine Keeps.bind (Keeps.gets _) fun runtime => ?_
        cases runtime with
        | none => exact Keeps.pure ()
        | some runtime =>
          simp only
          split
          · exact hP.failOpenvpn uid owner
          · exact Keeps.pure ()
          · rename_i plan _
            intro core hcore
            have hsame : ∀ c, SameJournal core c → OnJournal MarksDistinct c := fun _ => hcore.congr
            refine wp_tried (wp_mono wp_openvpnFullPlan ?_
              (fun _ c h => hP.failOpenvpn uid owner c (hsame c h)) hsame)
            rintro full c ⟨hc, hfull⟩
            refine wp_read ?_
            split
            · exact hP.failOpenvpn uid owner c (hsame c hc)
            refine wp_bind (wp_entryAt (fun entry' _ => ?_) (fun _ => hsame c hc))
            split
            · exact wp_pure (hsame c hc)
            · exact wp_installOpenvpnPlan (hsame c hc) (hc ▸ hfull)

theorem keeps_reconcileOpenvpn : Keeps V (OnJournal MarksDistinct) reconcileOpenvpn := by
  refine Keeps.bind (Keeps.gets _) fun owners => ?_
  generalize (none : Option IoError) = first
  induction owners generalizing first with
  | nil =>
    cases first with
    | none => exact Keeps.pure ()
    | some e => exact Keeps.throw e
  | cons key rest ih =>
    unfold reconcileOwners
    exact (keeps_reconcileOpenvpnOwner key.1 key.2).either (fun _ => ih first) fun _ => ih _

end

/-! ### Every run -/

/-- The requests of tunnels, and what the machine around the daemon may do meanwhile. -/
inductive TunnelRequest where
  | connectWireguard (uid : Nat) (profileId : String) (plan : WireGuardPlan)
  | connectOpenvpn (uid : Nat) (plan : OpenVpnPlan)
  | connectXray (uid : Nat) (profileId : String) (prepare : Nat → Except IoError XrayPlan)
  | reloadXray (uid : Nat) (profileId : String) (prepare : Nat → Except IoError XrayPlan)
  | reconcileOpenvpn
  | disconnectWireguard (uid : Nat) (profileId : String)
  | disconnectOpenvpn (uid : Nat) (profileId : String)
  | disconnectXray (uid : Nat) (profileId : String)
  | cleanupUid (uid : Nat)
  | machine (kernel : Kernel) (view : View)

def TunnelRequest.exec : TunnelRequest → Prog Unit
  | .connectWireguard uid profileId plan => Daemon.connectWireguard uid profileId plan
  | .connectOpenvpn uid plan => Daemon.connectOpenvpn uid plan
  | .connectXray uid profileId prepare => Daemon.connectXray uid profileId prepare
  | .reloadXray uid profileId prepare => Daemon.reloadXray uid profileId prepare
  | .reconcileOpenvpn => Daemon.reconcileOpenvpn
  | .disconnectWireguard uid profileId => Daemon.disconnectWireguard uid profileId
  | .disconnectOpenvpn uid profileId => Daemon.disconnectOpenvpn uid profileId
  | .disconnectXray uid profileId => Daemon.disconnectXray uid profileId
  | .cleanupUid uid => do
      let _ ← Daemon.cleanupUid uid
      pure ()
  | .machine kernel view => Call.modify fun core => { core with kernel, view }

theorem TunnelRequest.keeps (request : TunnelRequest) {V : Verdict Fault → Prop} :
    Keeps V (OnJournal MarksDistinct) request.exec := by
  have hP := MarksDistinct.shrinking
  cases request with
  | connectWireguard uid profileId plan => exact keeps_connectWireguard uid profileId plan
  | connectOpenvpn uid plan => exact keeps_connectOpenvpn uid plan
  | connectXray uid profileId prepare => exact keeps_connectXray uid profileId prepare
  | reloadXray uid profileId prepare => exact hP.reloadXray uid profileId prepare
  | reconcileOpenvpn => exact keeps_reconcileOpenvpn
  | disconnectWireguard uid profileId => exact hP.disconnectWireguard uid profileId
  | disconnectOpenvpn uid profileId => exact hP.disconnectOpenvpn uid profileId
  | disconnectXray uid profileId => exact hP.disconnectXray uid profileId
  | cleanupUid uid => exact Keeps.bind (hP.cleanupUid uid) fun _ => Keeps.pure ()
  | machine kernel view => exact Keeps.modify fun _ h => h

/-- Every request may come at any time. -/
def TunnelRequest.anytime (_ : DaemonCore) (_ : TunnelRequest) : Prop := True

/-- At every instant of every run of tunnel requests, with any failures, the journal has one
entry per owner, at most one full tunnel, and no mark in two entries. -/
theorem marks_distinct (kernel : Kernel) (view : View) (executors : Executors) (core : DaemonCore)
    (h : Visits TunnelRequest.exec TunnelRequest.anytime
      (DaemonCore.fresh kernel view executors) core) :
    MarksDistinct core.journal := by
  refine h.invariant (I := OnJournal MarksDistinct) (C := OnJournal MarksDistinct) ?_
    (fun _ h => h) ?_
  · exact MarksDistinct.nil
  · exact fun core request hcore _ => request.keeps core hcore

/-- A profile that takes all IPv4 traffic. -/
def campusPlan : XrayPlan :=
  { profileId := "campus"
    name := "xr-campus"
    routes := []
    address := .v4 0x0a0a0001 30
    mtu := 1500
    dnsServers := []
    dnsDomains := []
    dnsBypass := []
    fullIpv4 := true
    fullIpv6 := false
    serverHosts := []
    unpinnedHosts := []
    serverPinned := true
    rejectQuic := false
    proxyExits := [] }

/-- Connecting that profile on a fresh daemon, without trouble. -/
def campusRun : Outcome IoError Unit × DaemonCore × List (Verdict Fault) :=
  (TunnelRequest.connectXray 1000 "campus" fun _ => .ok campusPlan).exec
    (DaemonCore.fresh Kernel.empty View.bare Executors.all) []

theorem campusRun_ok : campusRun = (.ok (), campusRun.2.1, campusRun.2.2) :=
  eq_of_outcome (by decide +kernel)

/-- The entry of a full Xray tunnel records one mark twice: as its transport mark and as the
mark of its full tunnel. -/
theorem full_tunnel_shares_transport_mark :
    campusRun.1 = .ok () ∧ ¬(campusRun.2.1.journal.flatMap JournalEntry.marks).Nodup := by
  exact ⟨by decide +kernel, by decide +kernel⟩

theorem marks_distinct_after_campus : MarksDistinct campusRun.2.1.journal :=
  marks_distinct Kernel.empty View.bare Executors.all campusRun.2.1
    (.between (.call .start (i := .connectXray 1000 "campus" fun _ => .ok campusPlan) trivial
      campusRun_ok (by simp)))

end NetOrchestrator.Daemon
