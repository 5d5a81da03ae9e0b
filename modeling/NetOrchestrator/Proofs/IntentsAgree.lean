import NetOrchestrator.Proofs.AttachConverges

/-!
# `Proofs.IntentsAgree`: the intent store and the journal

The record of an intent is in the store and what it installed is in the journal, each with its
own points of failure. They agree when the journal has an entry `intent:<id>` exactly for the
stored records that are enabled, with the spec that the record compiles to (`Booked`).

Setting an intent takes the old entry down before it knows that the new one can be installed
and stored, and nothing puts the old one back. `SetKeeps` says when that does no harm, step by
step along the schedule of the request. `intents_agree` is the result over runs.
-/

namespace NetOrchestrator.Daemon

open Net Lib Lib.Call List Option

/-! ### Looking records and entries up -/

/-- The record of an intent in the store. -/
def IntentDocuments.record (docs : IntentDocuments) (uid : Nat) (id : String) :
    Option NetIntentSetParams :=
  (docs.document uid).find? fun record => record.id == id

/-- The store after an upsert. -/
def IntentDocuments.withRecord (docs : IntentDocuments) (uid : Nat) (record : NetIntentSetParams) :
    IntentDocuments :=
  docs.put uid (IntentDocuments.upserted (docs.document uid) record)

/-- The store after a removal. -/
def IntentDocuments.withoutRecord (docs : IntentDocuments) (uid : Nat) (id : String) :
    IntentDocuments :=
  docs.put uid ((docs.document uid).filter fun record => record.id != id)

/-- The entry of an intent. -/
def Journal.entryOf (j : Journal) (uid : Nat) (id : String) : Option JournalEntry :=
  j.find? fun entry => entry.uid == uid && entry.owner == .intent id

variable (lib : Crates) (core : DaemonCore)

/-- The spec under which an intent is armed. -/
def DaemonCore.armed (uid : Nat) (id : String) : Option AttachSpecParams :=
  (core.journal.entryOf uid id).bind fun entry => findAttachSpec entry.resources

section
variable {docs : IntentDocuments} {uid uid' : Nat} {intents : List NetIntentSetParams}
  {record : NetIntentSetParams} {id : String}

theorem document_put_self : (docs.put uid intents).document uid = intents := by
  have hnone : (docs.filter fun doc => doc.1 < uid).find? (fun doc => doc.1 == uid) = none := by
    rw [find?_eq_none]
    intro doc hdoc
    have hlt := (mem_filter.mp hdoc).2
    simp only [decide_eq_true_eq] at hlt
    simp only [beq_iff_eq]
    omega
  simp [IntentDocuments.document, IntentDocuments.put, find?_append, hnone]

theorem document_put_of_ne (h : uid' ≠ uid) :
    (docs.put uid intents).document uid' = docs.document uid' := by
  -- The document of another uid is in the half of the directory on its side of `uid`.
  have hhalf : ∀ p : Nat → Bool, (docs.filter fun doc => p doc.1).find? (fun doc => doc.1 == uid') =
      if p uid' then docs.find? fun doc => doc.1 == uid' else none := by
    intro p
    rw [find?_filter]
    split
    · rename_i hp
      congr 1
      funext doc
      by_cases hdoc : doc.1 = uid'
      · simp [hdoc, hp]
      · simp [hdoc]
    · rename_i hp
      rw [find?_eq_none]
      intro doc _ hdoc
      simp only [beq_iff_eq, decide_eq_true_eq] at hdoc
      exact hp (hdoc.2 ▸ hdoc.1)
  have hbelow := hhalf fun other => other < uid
  have habove := hhalf fun other => uid < other
  simp only [IntentDocuments.document, IntentDocuments.put, find?_append, find?_cons,
    hbelow, habove]
  have hhead : (uid == uid') = false := by simpa using Ne.symm h
  rw [hhead]
  rcases Nat.lt_or_gt_of_ne h with hlt | hgt
  · have hno : ¬uid < uid' := by omega
    simp [hlt, hno]
  · have hno : ¬uid' < uid := by omega
    simp [hgt, hno]

/-- An upsert replaces the first record of the id, or adds the record at the end. -/
theorem upserted_cases (intents : List NetIntentSetParams) (record : NetIntentSetParams) :
    (∃ front item back, intents = front ++ item :: back ∧ item.id = record.id ∧
      (∀ x ∈ front, x.id ≠ record.id) ∧
      IntentDocuments.upserted intents record = front ++ record :: back) ∨
    ((∀ x ∈ intents, x.id ≠ record.id) ∧
      IntentDocuments.upserted intents record = intents ++ [record]) := by
  induction intents with
  | nil => exact .inr ⟨by simp, rfl⟩
  | cons item rest ih =>
    by_cases hid : item.id = record.id
    · refine .inl ⟨[], item, rest, rfl, hid, by simp, ?_⟩
      simp [IntentDocuments.upserted, findIdx_cons, hid]
    · have hcons : IntentDocuments.upserted (item :: rest) record =
          item :: IntentDocuments.upserted rest record := by
        simp only [IntentDocuments.upserted, any_cons, findIdx_cons,
          beq_eq_false_iff_ne.mpr hid, Bool.false_or, cond_false, set_cons_succ]
        split <;> rfl
      rcases ih with ⟨front, old, back, rfl, hold, hfront, heq⟩ | ⟨hrest, heq⟩
      · exact .inl ⟨item :: front, old, back, rfl, hold, by simpa [hid] using hfront,
          by rw [hcons, heq]; rfl⟩
      · exact .inr ⟨by simpa [hid] using hrest, by rw [hcons, heq]; rfl⟩

theorem find?_upserted_self :
    (IntentDocuments.upserted intents record).find? (fun item => item.id == record.id) =
      some record := by
  have hnone : ∀ l : List NetIntentSetParams, (∀ x ∈ l, x.id ≠ record.id) →
      l.find? (fun item => item.id == record.id) = none := by simp
  obtain ⟨front, item, back, -, -, hfront, heq⟩ | ⟨hfresh, heq⟩ := upserted_cases intents record
  · simp [heq, find?_append, hnone front hfront]
  · simp [heq, find?_append, hnone intents hfresh]

theorem find?_upserted_of_ne (h : id ≠ record.id) :
    (IntentDocuments.upserted intents record).find? (fun item => item.id == id) =
      intents.find? fun item => item.id == id := by
  have hrecord : (record.id == id) = false := by simpa using Ne.symm h
  obtain ⟨front, item, back, rfl, hid, -, heq⟩ | ⟨-, heq⟩ := upserted_cases intents record
  · simp [heq, find?_append, hid, hrecord]
  · simp [heq, find?_append, hrecord]

/-- Replacing a record keeps the ids, adding one adds a fresh id. -/
theorem nodup_upserted (h : (intents.map NetIntentSetParams.id).Nodup) :
    ((IntentDocuments.upserted intents record).map NetIntentSetParams.id).Nodup := by
  obtain ⟨front, item, back, rfl, hid, -, heq⟩ | ⟨hfresh, heq⟩ := upserted_cases intents record
  · rw [heq]
    simpa [hid] using h
  · rw [heq, map_append, nodup_append]
    refine ⟨h, by simp, fun a ha b hb hab => ?_⟩
    obtain ⟨item, hitem, rfl⟩ := mem_map.mp ha
    exact hfresh item hitem (hab.trans (by simpa using hb))

theorem record_withRecord_self : (docs.withRecord uid record).record uid record.id = some record := by
  rw [IntentDocuments.record, IntentDocuments.withRecord, document_put_self]
  exact find?_upserted_self

theorem record_withRecord_of_ne (hne : (uid', id) ≠ (uid, record.id)) :
    (docs.withRecord uid record).record uid' id = docs.record uid' id := by
  rw [IntentDocuments.record, IntentDocuments.record, IntentDocuments.withRecord]
  by_cases huid : uid' = uid
  · subst huid
    rw [document_put_self]
    exact find?_upserted_of_ne fun hid => hne (by rw [hid])
  · rw [document_put_of_ne huid]

theorem record_withoutRecord_self : (docs.withoutRecord uid id).record uid id = none := by
  rw [IntentDocuments.record, IntentDocuments.withoutRecord, document_put_self, find?_eq_none]
  intro item hitem
  simpa using (mem_filter.mp hitem).2

theorem record_withoutRecord_of_ne {id' : String} (hne : (uid', id') ≠ (uid, id)) :
    (docs.withoutRecord uid id).record uid' id' = docs.record uid' id' := by
  rw [IntentDocuments.record, IntentDocuments.record, IntentDocuments.withoutRecord]
  by_cases huid : uid' = uid
  · subst huid
    have hid : id' ≠ id := fun hid => hne (by rw [hid])
    rw [document_put_self, find?_filter]
    congr 1
    funext item
    by_cases hitem : item.id = id'
    · simp [hitem, hid]
    · simp [hitem]
  · rw [document_put_of_ne huid]

section
variable (h : ∀ uid, ((docs.document uid).map NetIntentSetParams.id).Nodup) (uid' : Nat)
include h

theorem nodup_withRecord :
    (((docs.withRecord uid record).document uid').map NetIntentSetParams.id).Nodup := by
  rw [IntentDocuments.withRecord]
  by_cases huid : uid' = uid
  · subst huid
    rw [document_put_self]
    exact nodup_upserted (h uid')
  · rw [document_put_of_ne huid]
    exact h uid'

theorem nodup_withoutRecord :
    (((docs.withoutRecord uid id).document uid').map NetIntentSetParams.id).Nodup := by
  rw [IntentDocuments.withoutRecord]
  by_cases huid : uid' = uid
  · subst huid
    rw [document_put_self]
    exact (h uid').sublist (filter_sublist.map _)
  · rw [document_put_of_ne huid]
    exact h uid'

end

/-- With distinct ids a record is the one that its id finds. -/
theorem find?_of_mem (h : (intents.map NetIntentSetParams.id).Nodup) (hmem : record ∈ intents) :
    intents.find? (fun item => item.id == record.id) = some record := by
  induction intents with
  | nil => cases hmem
  | cons item rest ih =>
    rw [map_cons, nodup_cons] at h
    rcases mem_cons.mp hmem with rfl | hmem
    · simp
    · have hne : item.id ≠ record.id :=
        fun heq => h.1 (heq ▸ mem_map_of_mem hmem)
      rw [find?_cons, beq_eq_false_iff_ne.mpr hne]
      exact ih h.2 hmem

end

section
variable {j : Journal} {uid uid' index : Nat} {id id' : String} {entry : JournalEntry}

theorem entryOf_eq_none_iff : j.entryOf uid id = none ↔ j.position uid (.intent id) = none := by
  rw [Journal.position_eq_none]
  simp [Journal.entryOf]

theorem entryOf_isSome_of_mem (hmem : entry ∈ j) (howner : entry.owner = .intent id) :
    (j.entryOf entry.uid id).isSome = true := by
  rw [Journal.entryOf, find?_isSome]
  exact ⟨entry, hmem, by simp [howner]⟩

/-- The entry of an intent, and where it is. -/
theorem position_of_entryOf (h : j.entryOf uid id = some entry) :
    ∃ index, j.position uid (.intent id) = some index ∧ j[index]? = some entry := by
  rw [Journal.entryOf, find?_eq_some_iff_getElem] at h
  obtain ⟨hp, index, hlt, rfl, hfirst⟩ := h
  refine ⟨index, findIdx?_eq_some_iff_getElem.mpr ⟨hlt, hp, fun i hi => ?_⟩, by simp [hlt]⟩
  exact Bool.eq_false_iff.mp ((Bool.not_eq_true' _).mp (hfirst i hi))

theorem entryOf_owner (h : j.entryOf uid id = some entry) :
    entry.uid = uid ∧ entry.owner = .intent id := by
  simpa using find?_some h

theorem entryOf_append_self (h : j.entryOf uid id = none) (huid : entry.uid = uid)
    (howner : entry.owner = .intent id) : (j ++ [entry]).entryOf uid id = some entry := by
  rw [Journal.entryOf] at h ⊢
  simp [find?_append, h, huid, howner]

theorem entryOf_append_of_ne (hne : entry.origin ≠ .daemon uid (.intent id)) :
    (j ++ [entry]).entryOf uid id = j.entryOf uid id := by
  have hno : (entry.uid == uid && entry.owner == .intent id) = false := by
    rw [Bool.eq_false_iff]
    intro hboth
    simp only [Bool.and_eq_true, beq_iff_eq] at hboth
    exact hne (by rw [JournalEntry.origin, hboth.1, hboth.2])
  simp [Journal.entryOf, find?_append, hno]

theorem entryOf_eraseIdx_of_ne (hentry : j[index]? = some entry)
    (hne : entry.origin ≠ .daemon uid (.intent id)) :
    Journal.entryOf (j.eraseIdx index) uid id = j.entryOf uid id := by
  refine find?_eraseIdx hentry ?_
  rw [Bool.eq_false_iff]
  intro hboth
  simp only [Bool.and_eq_true, beq_iff_eq] at hboth
  exact hne (by rw [JournalEntry.origin, hboth.1, hboth.2])

/-- With one entry for each owner, erasing it leaves none. -/
theorem entryOf_eraseIdx_self (hone : j.Pairwise fun a b => a.origin ≠ b.origin)
    (hentry : j[index]? = some entry) (horigin : entry.origin = .daemon uid (.intent id)) :
    Journal.entryOf (j.eraseIdx index) uid id = none := by
  rw [Journal.entryOf, find?_eq_none]
  intro e he hboth
  obtain ⟨i, hne, hi⟩ := mem_eraseIdx_iff_getElem?.mp he
  simp only [Bool.and_eq_true, beq_iff_eq] at hboth
  refine pairwise_getElem? (fun _ _ h => Ne.symm h) hone hne hi hentry ?_
  rw [horigin, JournalEntry.origin, hboth.1, hboth.2]

end

/-! ### Agreement -/

/-- The spec that a record wants armed. A disabled record wants none. -/
def wanted (record : NetIntentSetParams) : Option AttachSpecParams :=
  if record.enabled = some false then none else (intentSpec lib record).toOption

/-- Store and journal agree. -/
structure IntentsAgree (lib : Crates) (core : DaemonCore) : Prop where
  armed : ∀ uid, ∀ record ∈ core.intents.document uid, record.enabled ≠ some false →
    ∀ spec, intentSpec lib record = .ok spec →
      ∃ e ∈ core.journal, e.uid = uid ∧ e.owner = .intent record.id ∧
        findAttachSpec e.resources = some spec
  stored : ∀ e ∈ core.journal, ∀ id, e.owner = .intent id →
    ∃ record ∈ core.intents.document e.uid, record.id = id ∧ record.enabled ≠ some false

/-- Agreement as an equation of lookups, with what it takes to keep it. -/
structure Booked (lib : Crates) (core : DaemonCore) : Prop where
  shape : RouteJournal core.journal
  intents : ∀ e ∈ core.journal, ∃ id, e.owner = .intent id
  owners : core.journal.Pairwise fun a b => a.origin ≠ b.origin
  ids : ∀ uid, ((core.intents.document uid).map NetIntentSetParams.id).Nodup
  agree : ∀ uid id, (core.journal.entryOf uid id).map (fun e => findAttachSpec e.resources) =
    ((core.intents.record uid id).bind (wanted lib)).map some

namespace Booked

variable {lib : Crates} {core c : DaemonCore} {uid index : Nat} {id : String}
  {entry : JournalEntry} {record : NetIntentSetParams} {spec : AttachSpecParams}

theorem intentsAgree (h : Booked lib core) : IntentsAgree lib core where
  armed uid record hmem henabled spec hspec := by
    have hstored : core.intents.record uid record.id = some record := find?_of_mem (h.ids uid) hmem
    have hagree := h.agree uid record.id
    have hwanted : wanted lib record = some spec := by
      simp [wanted, henabled, hspec, Except.toOption]
    rw [hstored, bind_some, hwanted, map_some, map_eq_some_iff] at hagree
    obtain ⟨e, he, hfind⟩ := hagree
    obtain ⟨huid, howner⟩ := entryOf_owner he
    exact ⟨e, mem_of_find?_eq_some he, huid, howner, hfind⟩
  stored e he id howner := by
    obtain ⟨e', he'⟩ := isSome_iff_exists.mp (entryOf_isSome_of_mem he howner)
    have hagree := h.agree e.uid id
    rw [he', map_some] at hagree
    obtain ⟨spec, hspec, -⟩ := map_eq_some_iff.mp hagree.symm
    obtain ⟨record, hrecord, hwanted⟩ := bind_eq_some_iff.mp hspec
    refine ⟨record, mem_of_find?_eq_some hrecord, by simpa using find?_some hrecord,
      fun hdisabled => ?_⟩
    rw [wanted, if_pos hdisabled] at hwanted
    cases hwanted

theorem fresh (lib : Crates) (kernel : Kernel) (view : View) (executors : Executors) :
    Booked lib (DaemonCore.fresh kernel view executors) where
  shape e he := by cases he
  intents e he := by cases he
  owners := List.Pairwise.nil
  ids uid := nodup_nil
  agree uid id := rfl

/-- Nothing else of the state matters. -/
theorem same (h : Booked lib core) (hjournal : c.journal = core.journal)
    (hintents : c.intents = core.intents) : Booked lib c := by
  obtain ⟨shape, intents, owners, ids, agree⟩ := h
  exact ⟨hjournal ▸ shape, hjournal ▸ intents, hjournal ▸ owners, hintents ▸ ids,
    by rw [hjournal, hintents]; exact agree⟩

end Booked

/-! ### Counting verdicts off -/

section
variable {vs : List (Verdict Fault)} {core : DaemonCore}
variable {entry : JournalEntry} {uid : Nat}
  {E : IoError → DaemonCore → List (Verdict Fault) → Prop}
  {Q : Unit → DaemonCore → List (Verdict Fault) → Prop}

theorem under_save
    (hfail : ∀ f, nextVerdict vs = .fail f → ∀ disk, E (Fault.report f) { core with disk } vs.tail)
    (hok : Granted vs 1 → Q () { core with disk := core.journal } vs.tail) :
    under vs save Q E core :=
  under_commit (fun f hf => hfail f hf core.disk)
    (fun f _ _ hf _ h => by cases h; exact hfail f hf core.journal)
    (fun _ _ hg h => by cases h; exact hok hg) fun _ _ h => by cases h

theorem under_persist (h : ∀ disk, Q () { core with disk } vs.tail) : under vs persist Q E core :=
  under_bind (under_attempt (under_save (fun _ _ disk => h disk) fun _ => h core.journal))

variable {index : Nat} {lib : Crates}

/-- A removal that is not refused takes the route away, or finds it gone. -/
theorem under_releasedGeneric_route {left : List OwnedResource} {r : AppliedRoute}
    {Q : Bool → DaemonCore → List (Verdict Fault) → Prop} (hg : Granted vs 1)
    (h : Q true { core with kernel := core.kernel.release (.route r) } vs.tail) :
    under vs (releasedGeneric left (.route r)) Q E core := by
  refine under_bind (under_attempt (under_tolerate (under_tolerated ?_ isNotFound_report h ?_)))
  · exact fun k e => isNotFound_of_removeRouteRows
  · exact fun f hf => absurd hf (hg.next f)

/-- A sweep none of whose removals is refused leaves nothing. -/
theorem under_sweepGeneric {l : List OwnedResource}
    {Q : List OwnedResource → DaemonCore → List (Verdict Fault) → Prop}
    (hl : ∀ x ∈ l, (∃ spec, x = .attachSpec spec) ∨ ∃ r, x = .route r ∧ r.Normal)
    (hg : Granted vs (ownedRoutes l).length)
    (h : Q [] { core with kernel := core.kernel.releaseAll l } (vs.drop (ownedRoutes l).length)) :
    under vs (Call.sweep releasedGeneric [] l) Q E core := by
  induction l generalizing core vs with
  | nil => exact h
  | cons x rest ih =>
    have hrest : ∀ y ∈ rest, (∃ spec, y = .attachSpec spec) ∨ ∃ r, y = .route r ∧ r.Normal :=
      fun y hy => hl y (mem_cons_of_mem x hy)
    refine under_bind ?_
    obtain ⟨spec, rfl⟩ | ⟨r, rfl, -⟩ := hl x (by simp)
    · exact under_bind (under_attempt (under_pure (ih hrest hg h)))
    · have hlength : (ownedRoutes (.route r :: rest)).length = (ownedRoutes rest).length + 1 := rfl
      rw [hlength] at hg h
      rw [← drop_tail] at h
      exact under_releasedGeneric_route (hg.mono (by omega)) (ih hrest hg.tail h)

/-- A teardown none of whose removals is refused drops the entry. -/
theorem JournalEntry.IsRouteOwner.under_teardown
    (hentry : core.journal[index]? = some entry) (hshape : entry.IsRouteOwner)
    (hg : Granted vs (ownedRoutes entry.resources).length) (h : Q () { core with
        journal := core.journal.eraseIdx index
        kernel := core.kernel.releaseAll entry.resources.reverse }
      (vs.drop (ownedRoutes entry.resources).length)) :
    under vs (teardownEntry index) Q E core := by
  have hlength : (ownedRoutes entry.resources.reverse).length =
      (ownedRoutes entry.resources).length := by
    rw [ownedRoutes, filterMap_reverse, length_reverse]
    rfl
  have hgeneric : under vs (teardownGenericEntry index) Q E core := by
    refine under_bind (under_entryAt hentry (under_bind (under_sweepGeneric ?_ ?_ ?_)))
    · exact fun x hx => hshape.resources x (mem_reverse.mp hx)
    · rw [hlength]
      exact hg
    · rw [hlength]
      exact h
  refine under_bind (under_entryAt hentry ?_)
  have howner := hshape.owner
  split
  all_goals first
    | exact hgeneric
    | (rename_i heq
       rw [heq] at howner
       cases howner)

/-- Where these routes go, nothing is but rows of the daemon that `freed` lists. -/
structure Installable (k : Kernel) (freed desired : List AppliedRoute) : Prop where
  apart : (desired.map AppliedRoute.key).Nodup
  free : ∀ d ∈ desired, ∀ row ∈ k.routes, row.key = d.key →
    row.route.protocol = rtprotNetworkOrchestrator ∧ ∃ r ∈ freed, r.key = d.key

/-- Once the old entry is released, nothing is in the way. -/
theorem Installable.released {k : Kernel} {desired : List AppliedRoute}
    (h : Installable k (ownedRoutes entry.resources) desired) (hshape : entry.IsRouteOwner) :
    Installable (k.releaseAll entry.resources.reverse) [] desired := by
  refine ⟨h.apart, fun d hd row hrow hkey => ?_⟩
  obtain ⟨hrow, hgone⟩ := (mem_releaseAll fun x hx =>
    (hshape.resources x (mem_reverse.mp hx)).imp_right fun ⟨r, hr, _⟩ => ⟨r, hr⟩).mp hrow
  obtain ⟨hprotocol, r, hr, hrkey⟩ := h.free d hd row hrow hkey
  exact absurd ⟨hkey.trans hrkey.symm, hprotocol⟩
    (hgone r (mem_reverse.mpr (mem_ownedRoutes.mp hr)))

theorem under_applyRoutesTransactional {o : Origin} {added routes : List AppliedRoute}
    {Q : Except (IoError × List AppliedRoute) Unit → DaemonCore → List (Verdict Fault) → Prop}
    (hg : Granted vs routes.length) (hfree : Installable core.kernel [] routes)
    (h : ∀ k, Q (.ok ()) { core with kernel := k } (vs.drop routes.length)) :
    under vs (applyRoutesTransactional o added routes) Q E core := by
  induction routes generalizing core vs added with
  | nil => exact h core.kernel
  | cons r rest ih =>
    have hnext : core.kernel.routes.has r.key = false := by
      rw [Table.has_eq_false_iff]
      intro row hrow hkey
      obtain ⟨-, x, hx, -⟩ := hfree.free r (by simp) row hrow hkey
      cases hx
    obtain ⟨hhead, hapart⟩ := nodup_cons.mp hfree.apart
    have hrest : Installable (core.kernel.addRoute o r).2 [] rest := by
      refine ⟨hapart, fun d hd row hrow hkey => ?_⟩
      rcases mem_addRoute.mp hrow with hrow | ⟨-, rfl⟩
      · exact hfree.free d (mem_cons_of_mem r hd) row hrow hkey
      · rw [r.key_install] at hkey
        exact absurd (hkey ▸ mem_map_of_mem hd) hhead
    refine under_bind (under_attempt (under_step ?_ ?_ ?_))
    · exact fun f hf => absurd hf (hg.next f)
    · intro _ s' _ hs
      obtain ⟨-, rfl⟩ := Prod.mk.inj hs
      refine @ih _ { core with kernel := (core.kernel.addRoute o r).2 } _ hg.tail hrest ?_
      rw [drop_tail]
      exact h
    · intro e s' _ hs
      have hok := (addRoute_ok_iff core.kernel o r).mpr hnext
      rw [hok] at hs
      cases hs

/-- An apply that is refused before its save, or whose routes are installable. -/
theorem under_applyRoutesInner {owner : Owner} {routes : List AppliedRoute}
    {attach : Option AttachSpecParams} {Q : Nat → DaemonCore → List (Verdict Fault) → Prop}
    (hnone : core.journal.position uid owner = none)
    (hgo : validateApply routes = .ok () → Granted vs 1 →
      Installable core.kernel [] routes ∧ Granted vs.tail routes.length)
    (hrefused : ¬(validateApply routes = .ok () ∧ Granted vs 1) →
      ∀ e c vs', c.journal = core.journal → c.intents = core.intents → E e c vs')
    (hok : validateApply routes = .ok () → Granted vs 1 → ∀ k disk, Q routes.length
      { core with
        journal := core.journal ++ [routeEntry uid owner .applied attach routes]
        kernel := k
        disk } (vs.drop (routes.length + 2))) :
    under vs (applyRoutesInner uid owner routes attach) Q E core := by
  refine under_bind ?_
  cases hvalid : validateApply routes with
  | error m => exact hrefused (by simp [hvalid]) _ core vs rfl rfl
  | ok u =>
    refine under_pure (under_bind (under_gets ?_))
    simp only [hnone, isSome_none, Bool.false_eq_true, if_false]
    refine under_bind (under_modify (under_bind (under_gets ?_)))
    simp only [length_append, length_singleton, Nat.add_sub_cancel]
    refine under_bind (under_attempt (under_save ?_ ?_))
    · intro f hf disk
      refine under_bind (under_modify (hrefused (fun h => h.2.next f hf) _ _ _ ?_ rfl))
      exact dropLast_concat
    · intro hg
      obtain ⟨hfree, hadds⟩ := hgo hvalid hg
      refine under_bind (under_applyRoutesTransactional hadds hfree fun k => ?_)
      refine under_bind (under_modify (under_bind (under_persist fun disk => ?_)))
      simp only [modify_append_length]
      rw [tail_drop, drop_tail]
      exact hok hvalid hg k disk

theorem under_loadUid {Q : List NetIntentSetParams → DaemonCore → List (Verdict Fault) → Prop}
    (hok : Granted vs 1 → IntentDocuments.loadable (core.intents.document uid) = true →
      Q (core.intents.document uid) core vs.tail)
    (herr : ¬(Granted vs 1 ∧ IntentDocuments.loadable (core.intents.document uid) = true) →
      ∀ e, E e core vs.tail) : under vs (loadUid uid) Q E core := by
  refine under_step (fun f hf => herr (fun h => h.1.next f hf) _) ?_ ?_
  all_goals
    intro x s' hg hs
    obtain ⟨hload, rfl⟩ := Prod.mk.inj hs
    dsimp only at hload
    split at hload
  · cases hload
    exact hok hg ‹_›
  · cases hload
  · cases hload
  · rename_i hbad
    exact herr (fun h => hbad h.2) _

theorem under_saveIntents {intents : List NetIntentSetParams}
    (hok : Granted vs 1 → lib.encodedBytes intents ≤ maxDocumentBytes →
      Q () { core with intents := core.intents.put uid intents } vs.tail)
    (hlate : nextVerdict vs = .fail .unsynced → lib.encodedBytes intents ≤ maxDocumentBytes →
      ∀ e, E e { core with intents := core.intents.put uid intents } vs.tail)
    (herr : ¬(Granted vs 1 ∧ lib.encodedBytes intents ≤ maxDocumentBytes) →
      ∀ e, E e core vs.tail) : under vs (saveIntents lib uid intents) Q E core := by
  refine under_commit (fun f hf => herr (fun h => h.1.next f hf) _) ?_ ?_ ?_
  · intro f x s' hf hisLate hs
    have hfault : f = .unsynced := by simpa [Fault.late] using hisLate
    split at hs
    · cases hs
    · cases hs
      exact hlate (hfault ▸ hf) (Nat.le_of_not_lt ‹_›) _
  · intro x s' hg hs
    split at hs
    · cases hs
    · cases hs
      exact hok hg (Nat.le_of_not_lt ‹_›)
  · intro x s' hs
    split at hs
    · cases hs
      exact herr (fun h => absurd h.2 (Nat.not_le_of_lt ‹_›)) _
    · cases hs

/-- The store can load the document and has room for the record. -/
def DaemonCore.Room (core : DaemonCore) (uid : Nat) (record : NetIntentSetParams) : Prop :=
  IntentDocuments.loadable (core.intents.document uid) = true ∧
    ((∃ item ∈ core.intents.document uid, item.id = record.id) ∨
      (core.intents.document uid).length < maxIntents)

/-- The document with the record is not too large. -/
def DaemonCore.Fits (core : DaemonCore) (lib : Crates) (uid : Nat) (record : NetIntentSetParams) :
    Prop :=
  lib.encodedBytes (IntentDocuments.upserted (core.intents.document uid) record) ≤
    maxDocumentBytes

/-- A record that the store takes is not refused behind the rename of its document. -/
def DaemonCore.Synced (core : DaemonCore) (lib : Crates) (uid : Nat) (record : NetIntentSetParams)
    (vs : List (Verdict Fault)) : Prop :=
  Granted vs 1 → core.Room uid record → core.Fits lib uid record →
    nextVerdict vs.tail ≠ .fail .unsynced

/-- An upsert reads the document, and writes it where there is room. -/
theorem under_upsertIntent {record : NetIntentSetParams}
    (hok : Granted vs 2 → core.Room uid record → core.Fits lib uid record →
      Q () { core with intents := core.intents.withRecord uid record } (vs.drop 2))
    (hlate : ¬core.Synced lib uid record vs →
      ∀ e, E e { core with intents := core.intents.withRecord uid record } (vs.drop 2))
    (hread : ¬(Granted vs 1 ∧ core.Room uid record) → ∀ e, E e core vs.tail)
    (hwrite : Granted vs 1 → core.Room uid record →
      ¬(Granted vs.tail 1 ∧ core.Fits lib uid record) → ∀ e, E e core (vs.drop 2)) :
    under vs (upsertIntent lib uid record) Q E core := by
  refine under_bind (under_loadUid (fun hg hloadable => ?_) fun h => hread fun h' => h ⟨h'.1, h'.2.1⟩)
  have hfull : ((core.intents.document uid).all (fun item => item.id != record.id) &&
      decide (maxIntents ≤ (core.intents.document uid).length)) = false ↔
      core.Room uid record := by
    simp only [DaemonCore.Room, hloadable, true_and, Bool.and_eq_false_iff, List.all_eq_false,
      bne_iff_ne, ne_eq, not_not, decide_eq_false_iff_not, not_le]
  split
  · rename_i hno
    refine hread (fun h => ?_) _
    rw [hfull.mpr h.2] at hno
    cases hno
  · rename_i hyes
    have hroom := hfull.mp (by simpa using hyes)
    have htail : vs.tail.tail = vs.drop 2 := by rw [← List.drop_one, List.drop_tail]
    refine under_saveIntents (fun hg' hfits => ?_) (fun hrefused hfits => ?_) fun h => ?_
    · rw [htail]
      exact hok (hg.append hg') hroom hfits
    · rw [htail]
      exact hlate fun hsynced => hsynced hg hroom hfits hrefused
    · rw [htail]
      exact hwrite hg hroom h

end

/-! ### Setting an intent -/

/-- The journal without the entry of one intent. -/
structure Without (j j' : Journal) (uid : Nat) (id : String) : Prop where
  shape : RouteJournal j'
  intents : ∀ e ∈ j', ∃ id, e.owner = .intent id
  owners : j'.Pairwise fun a b => a.origin ≠ b.origin
  gone : j'.entryOf uid id = none
  others : ∀ uid' id', (uid', id') ≠ (uid, id) → j'.entryOf uid' id' = j.entryOf uid' id'

section
variable {lib : Crates} {core c : DaemonCore} {uid index : Nat} {id : String}
variable {vs : List (Verdict Fault)}
  {entry : JournalEntry} {params : NetIntentSetParams} {spec : AttachSpecParams} {j : Journal}
  {desired : List AppliedRoute} {E : IoError → DaemonCore → List (Verdict Fault) → Prop}

section
variable (h : Booked lib core)
include h

theorem Booked.without_of_none (hnone : core.journal.entryOf uid id = none) :
    Without core.journal core.journal uid id :=
  ⟨h.shape, h.intents, h.owners, hnone, fun _ _ _ => rfl⟩

theorem Booked.without_erased (hentry : core.journal[index]? = some entry)
    (horigin : entry.origin = .daemon uid (.intent id)) :
    Without core.journal (core.journal.eraseIdx index) uid id where
  shape e he := h.shape e (mem_of_mem_eraseIdx he)
  intents e he := h.intents e (mem_of_mem_eraseIdx he)
  owners := h.owners.sublist (eraseIdx_sublist ..)
  gone := entryOf_eraseIdx_self h.owners hentry horigin
  others uid' id' hne := entryOf_eraseIdx_of_ne hentry fun heq => by
    rw [horigin] at heq
    injection heq with huid howner
    injection howner with hid
    exact hne (by rw [huid, hid])

/-- A disabled record is stored and its entry is gone. -/
theorem Booked.setDisabled (hw : Without core.journal j uid params.id)
    (hdisabled : params.enabled = some false) (hjournal : c.journal = j)
    (hintents : c.intents = core.intents.withRecord uid params) : Booked lib c where
  shape := hjournal ▸ hw.shape
  intents := hjournal ▸ hw.intents
  owners := hjournal ▸ hw.owners
  ids := hintents ▸ nodup_withRecord h.ids
  agree uid' id' := by
    rw [hjournal, hintents]
    by_cases hsame : (uid', id') = (uid, params.id)
    · obtain ⟨rfl, rfl⟩ := Prod.mk.inj hsame
      rw [record_withRecord_self, hw.gone]
      simp [wanted, hdisabled]
    · rw [record_withRecord_of_ne hsame, hw.others uid' id' hsame]
      exact h.agree uid' id'

/-- An enabled record is stored and its entry is the one that was applied. -/
theorem Booked.setEnabled (hw : Without core.journal j uid params.id)
    (henabled : params.enabled ≠ some false) (hspec : intentSpec lib params = .ok spec)
    (hnormal : ∀ r ∈ desired, r.Normal)
    (hjournal : c.journal = j ++ [routeEntry uid (.intent params.id) .applied (some spec) desired])
    (hintents : c.intents = core.intents.withRecord uid params) : Booked lib c where
  shape := hjournal ▸ hw.shape.push (routeEntry_isRouteOwner rfl hnormal)
  intents e he := by
    rw [hjournal] at he
    rcases mem_append.mp he with he | he
    · exact hw.intents e he
    · exact ⟨params.id, mem_singleton.mp he ▸ rfl⟩
  owners := by
    rw [hjournal]
    refine pairwise_append.mpr ⟨hw.owners, by simp, fun e he b hb => ?_⟩
    obtain rfl := mem_singleton.mp hb
    exact origin_ne_of_position (entryOf_eq_none_iff.mp hw.gone) e he
  ids := hintents ▸ nodup_withRecord h.ids
  agree uid' id' := by
    rw [hjournal, hintents]
    by_cases hsame : (uid', id') = (uid, params.id)
    · obtain ⟨rfl, rfl⟩ := Prod.mk.inj hsame
      rw [record_withRecord_self, entryOf_append_self hw.gone rfl rfl]
      simp [wanted, henabled, hspec, Except.toOption, routeEntry, attachResources, findAttachSpec]
    · have horigin : (routeEntry uid (.intent params.id) .applied (some spec) desired).origin ≠
          .daemon uid' (.intent id') := by
        intro heq
        injection heq with huid howner
        injection howner with hid
        exact hsame (Prod.ext huid.symm hid.symm)
      rw [record_withRecord_of_ne hsame, entryOf_append_of_ne horigin, hw.others uid' id' hsame]
      exact h.agree uid' id'

/-- A removed record has no entry. -/
theorem Booked.removed (hw : Without core.journal j uid id) (hjournal : c.journal = j)
    (hintents : c.intents = core.intents.withoutRecord uid id) : Booked lib c where
  shape := hjournal ▸ hw.shape
  intents := hjournal ▸ hw.intents
  owners := hjournal ▸ hw.owners
  ids := hintents ▸ nodup_withoutRecord h.ids
  agree uid' id' := by
    rw [hjournal, hintents]
    by_cases hsame : (uid', id') = (uid, id)
    · obtain ⟨rfl, rfl⟩ := Prod.mk.inj hsame
      rw [record_withoutRecord_self, hw.gone]
      rfl
    · rw [record_withoutRecord_of_ne hsame, hw.others uid' id' hsame]
      exact h.agree uid' id'

end

/-- What is left of the schedule once the old entry has been taken down and saved. -/
def afterRetire (old : JournalEntry) (vs : List (Verdict Fault)) : List (Verdict Fault) :=
  vs.drop ((ownedRoutes old.resources).length + 1)

/-- What is left of the schedule once the new version has been applied. A disabled one is not. -/
def afterArm (params : NetIntentSetParams) (desired : List AppliedRoute)
    (vs : List (Verdict Fault)) : List (Verdict Fault) :=
  if params.enabled = some false then vs else vs.drop (desired.length + 2)

/-- A set that replaces an entry: no removal of the old routes is refused, the new ones are
valid and installable and neither their save nor an add is refused, and the store reads and
takes the record. Failed saves after the fact are free. -/
structure Replaceable (lib : Crates) (core : DaemonCore) (uid : Nat) (params : NetIntentSetParams)
    (vs : List (Verdict Fault)) (old : JournalEntry) (desired : List AppliedRoute) : Prop where
  retired : Granted vs (ownedRoutes old.resources).length
  armed : params.enabled ≠ some false → validateApply desired = .ok () ∧
    Installable core.kernel (ownedRoutes old.resources) desired ∧
    Granted (afterRetire old vs) (desired.length + 1)
  granted : Granted (afterArm params desired (afterRetire old vs)) 2
  room : core.Room uid params
  fits : core.Fits lib uid params

/-- The store takes the record, or it does not and no removal of the `n` routes is refused that
undo the apply then. -/
def StoredOrUndone (lib : Crates) (core : DaemonCore) (uid : Nat) (params : NetIntentSetParams)
    (vs : List (Verdict Fault)) (n : Nat) : Prop :=
  (Granted vs 2 ∧ core.Room uid params ∧ core.Fits lib uid params) ∨
    (core.Synced lib uid params vs ∧
      (¬(Granted vs 1 ∧ core.Room uid params) → Granted vs.tail n) ∧
      (Granted vs 1 → core.Room uid params → Granted (vs.drop 2) n))

/-- A set of an enabled intent that has no entry: past the save, no add is refused. -/
def Armable (lib : Crates) (core : DaemonCore) (uid : Nat) (params : NetIntentSetParams)
    (vs : List (Verdict Fault)) (desired : List AppliedRoute) : Prop :=
  validateApply desired = .ok () → Granted vs 1 →
    Installable core.kernel [] desired ∧ Granted vs.tail desired.length ∧
      StoredOrUndone lib core uid params (vs.drop (desired.length + 2)) desired.length

/-- The condition on a set. A request that is rejected up front meets it. A disabled intent without
an entry may be stored behind an error where it is stored already. -/
def SetKeeps (lib : Crates) (core : DaemonCore) (uid : Nat) (params : NetIntentSetParams)
    (vs : List (Verdict Fault)) : Prop :=
  intentOwner params.id = .ok (.intent params.id) → core.executors.intents = true →
    ∀ spec, intentSpec lib params = .ok spec →
      (∀ old, core.journal.entryOf uid params.id = some old →
        Replaceable lib core uid params vs old (attachDesired core.view spec)) ∧
      (core.journal.entryOf uid params.id = none → params.enabled ≠ some false →
        Armable lib core uid params vs (attachDesired core.view spec)) ∧
      (core.journal.entryOf uid params.id = none → params.enabled = some false →
        core.Synced lib uid params vs ∨ core.intents.record uid params.id = some params)

/-- Store and journal agree, and the intent's record and entry are what they were. -/
structure Undone (lib : Crates) (core c : DaemonCore) (uid : Nat) (id : String) : Prop where
  booked : Booked lib c
  journal : c.journal = core.journal
  record : c.intents.record uid id = core.intents.record uid id

theorem Booked.undone (h : Booked lib core) (hjournal : c.journal = core.journal)
    (hintents : c.intents = core.intents) : Undone lib core c uid id :=
  ⟨h.same hjournal hintents, hjournal, by rw [hintents]⟩

theorem under_orInvalid {α : Type} {check : Except Message α}
    {Q : α → DaemonCore → List (Verdict Fault) → Prop} (hok : ∀ a, check = .ok a → Q a core vs)
    (herr : ∀ e, E e core vs) : under vs (orInvalid check) Q E core := by
  cases check with
  | ok a => exact hok a rfl
  | error m => exact herr _

theorem under_requireIntents {Q : Unit → DaemonCore → List (Verdict Fault) → Prop}
    (hok : core.executors.intents = true → Q () core vs) (herr : ∀ e, E e core vs) :
    under vs requireIntents Q E core := by
  refine under_bind (under_gets ?_)
  split
  · exact hok ‹_›
  · exact herr _

theorem getD_enabled : params.enabled.getD true = true ↔ params.enabled ≠ some false := by
  cases params.enabled with
  | none => simp
  | some b => cases b <;> simp

/-- The end of `net_intent_set`: the record is stored, or the apply is undone. -/
abbrev storeOrUndo (lib : Crates) (uid : Nat) (params : NetIntentSetParams) : Prog String := do
  match ← Call.attempt (upsertIntent lib uid params) with
  | .ok () => pure params.id
  | .error e => do
      undoIntent uid (.intent params.id)
      Call.throw e

theorem eraseIdx_append_length (j : Journal) (entry : JournalEntry) :
    (j ++ [entry]).eraseIdx j.length = j := by
  rw [eraseIdx_append_of_length_le (Nat.le_refl _)]
  simp

section
variable (h : Booked lib core) (hnone : core.journal.entryOf uid params.id = none)
include h hnone

/-- Storing the record of an intent that has just been armed, or undoing the apply. -/
theorem Booked.under_store {k : Kernel} {disk : Journal} (henabled : params.enabled ≠ some false)
    (hspec : intentSpec lib params = .ok spec) (hnormal : ∀ r ∈ desired, r.Normal)
    (hsettled : StoredOrUndone lib core uid params vs desired.length) : under vs (storeOrUndo lib uid params)
      (fun _ c _ => Booked lib c) (fun _ c _ => Undone lib core c uid params.id) { core with
        journal := core.journal ++
          [routeEntry uid (.intent params.id) .applied (some spec) desired]
        kernel := k
        disk } := by
  -- The undo finds the entry at the end, and none of its removals is refused.
  have hundo : ∀ e (vs' : List (Verdict Fault)), Granted vs' desired.length → under vs' (do
          undoIntent uid (.intent params.id)
          (Call.throw e : Prog String))
        (fun _ c _ => Booked lib c) (fun _ c _ => Undone lib core c uid params.id)
        { core with
          journal := core.journal ++
            [routeEntry uid (.intent params.id) .applied (some spec) desired]
          kernel := k
          disk } := by
    intro e vs' hg
    have hpos : Journal.position (core.journal ++
        [routeEntry uid (.intent params.id) .applied (some spec) desired]) uid
        (.intent params.id) = some core.journal.length := by
      have hno := entryOf_eq_none_iff.mp hnone
      rw [Journal.position] at hno ⊢
      simp [findIdx?_append, hno, routeEntry]
    refine under_bind (under_bind (under_gets ?_))
    simp only [hpos]
    have hshape : (routeEntry uid (.intent params.id) .applied (some spec) desired).IsRouteOwner :=
      routeEntry_isRouteOwner rfl hnormal
    refine under_bind (under_attempt (hshape.under_teardown (by simp) ?_
      (under_persist fun disk => ?_)))
    · rw [routeEntry, ownedRoutes_attachResources]
      exact hg
    · exact h.undone (eraseIdx_append_length _ _) rfl
  refine under_bind (under_attempt (under_upsertIntent ?_ ?_ ?_ ?_))
  · intro _ _ _
    exact h.setEnabled (h.without_of_none hnone) henabled hspec hnormal rfl rfl
  · intro hlate
    rcases hsettled with ⟨hg, -⟩ | ⟨hsynced, -⟩
    · exact absurd (fun _ _ _ => hg.tail.next _) hlate
    · exact absurd hsynced hlate
  · intro hread e
    refine hundo e _ ?_
    rcases hsettled with ⟨hg, hroom, -⟩ | ⟨-, hundone, -⟩
    · exact absurd ⟨hg.mono (by omega), hroom⟩ hread
    · exact hundone hread
  · intro hg hroom hwrite e
    refine hundo e _ ?_
    rcases hsettled with ⟨hg', -, hfits⟩ | ⟨-, -, hundone⟩
    · exact absurd ⟨hg'.tail, hfits⟩ hwrite
    · exact hundone hg hroom

/-- A set of an intent without an entry. -/
theorem Booked.under_setFresh (hspec : intentSpec lib params = .ok spec)
    (harm : params.enabled ≠ some false →
      Armable lib core uid params vs (attachDesired core.view spec))
    (hsynced : params.enabled = some false →
      core.Synced lib uid params vs ∨ core.intents.record uid params.id = some params) : under vs (do
        armIntent uid (.intent params.id) spec (attachDesired core.view spec)
          (params.enabled.getD true)
        storeOrUndo lib uid params)
      (fun _ c _ => Booked lib c) (fun _ c _ => Undone lib core c uid params.id) core := by
  have hpos := entryOf_eq_none_iff.mp hnone
  unfold armIntent
  by_cases henabled : params.enabled ≠ some false
  · have harm := harm henabled
    rw [if_pos (getD_enabled.mpr henabled)]
    refine under_bind (under_bind (under_applyRoutesInner hpos ?_ ?_ ?_))
    · exact fun hvalid hg => ⟨(harm hvalid hg).1, (harm hvalid hg).2.1⟩
    · exact fun _ _ _ _ hjournal hintents => h.undone hjournal hintents
    · exact fun hvalid hg k disk => h.under_store hnone henabled hspec
        (fun r hr => attachDesired_normal hr) (harm hvalid hg).2.2
  · rw [if_neg (fun henable => henabled (getD_enabled.mp henable))]
    push Not at henabled
    have hrefused : ∀ e (vs' : List (Verdict Fault)), under vs' (do
          undoIntent uid (.intent params.id)
          (Call.throw e : Prog String))
        (fun _ c _ => Booked lib c) (fun _ c _ => Undone lib core c uid params.id) core := by
      intro e vs'
      refine under_bind (under_bind (under_gets ?_))
      simp only [hpos]
      exact h.undone rfl rfl
    refine under_bind (under_pure (under_bind (under_attempt (under_upsertIntent ?_ ?_ ?_ ?_))))
    · exact fun _ _ _ => h.setDisabled (h.without_of_none hnone) henabled rfl rfl
    · intro hlate e
      -- The store has the record that it had.
      have hrecord := (hsynced henabled).resolve_left hlate
      refine under_bind (under_bind (under_gets ?_))
      simp only [hpos]
      exact ⟨h.setDisabled (h.without_of_none hnone) henabled rfl rfl, rfl,
        record_withRecord_self.trans hrecord.symm⟩
    · exact fun _ e => hrefused e _
    · exact fun _ _ _ e => hrefused e _

end

/-- Where nothing of the store is refused, the record is stored. -/
theorem under_upsert_granted {Q : String → DaemonCore → List (Verdict Fault) → Prop}
    (hg : Granted vs 2) (hroom : c.Room uid params) (hfits : c.Fits lib uid params)
    (hok : Q params.id { c with intents := c.intents.withRecord uid params } (vs.drop 2)) :
    under vs (storeOrUndo lib uid params) Q E c := by
  refine under_bind (under_attempt (under_upsertIntent ?_ ?_ ?_ ?_))
  · exact fun _ _ _ => hok
  · exact fun hlate => absurd (fun _ _ _ => hg.tail.next _) hlate
  · exact fun hread => absurd ⟨hg.mono (by omega), hroom⟩ hread
  · exact fun _ _ hwrite => absurd ⟨hg.tail, hfits⟩ hwrite

/-- A set that replaces an entry goes through. -/
theorem Booked.under_setReplace (h : Booked lib core)
    (hold : core.journal.entryOf uid params.id = some entry)
    (hspec : intentSpec lib params = .ok spec)
    (hrep : Replaceable lib core uid params vs entry (attachDesired core.view spec)) : under vs (do
        retireIntent uid (.intent params.id)
        armIntent uid (.intent params.id) spec (attachDesired core.view spec)
          (params.enabled.getD true)
        storeOrUndo lib uid params)
      (fun _ c _ => Booked lib c) (fun _ c _ => Undone lib core c uid params.id) core := by
  obtain ⟨index, hpos, hentry⟩ := position_of_entryOf hold
  obtain ⟨huid, howner⟩ := entryOf_owner hold
  have horigin : entry.origin = .daemon uid (.intent params.id) := by
    rw [JournalEntry.origin, huid, howner]
  have hshape := h.shape entry (mem_of_getElem? hentry)
  have hw := h.without_erased hentry horigin
  refine under_bind (under_bind (under_gets ?_))
  simp only [hpos]
  refine under_bind (hshape.under_teardown hentry hrep.retired (under_persist fun disk => ?_))
  rw [tail_drop, show vs.drop ((ownedRoutes entry.resources).length + 1) =
    afterRetire entry vs from rfl]
  have hstored := hrep.granted
  unfold armIntent
  by_cases henabled : params.enabled ≠ some false
  · obtain ⟨hvalid, hinstall, hgranted⟩ := hrep.armed henabled
    rw [afterArm, if_neg henabled] at hstored
    rw [if_pos (getD_enabled.mpr henabled)]
    refine under_bind (under_bind (under_applyRoutesInner (entryOf_eq_none_iff.mp hw.gone) ?_ ?_ ?_))
    · exact fun _ _ => ⟨hinstall.released hshape, hgranted.tail⟩
    · exact fun hno => absurd ⟨hvalid, hgranted.mono (by omega)⟩ hno
    · intro _ _ k disk
      refine under_upsert_granted hstored hrep.room hrep.fits ?_
      exact h.setEnabled hw henabled hspec (fun r hr => attachDesired_normal hr) rfl rfl
  · push Not at henabled
    rw [afterArm, if_pos henabled] at hstored
    rw [if_neg (fun henable => getD_enabled.mp henable henabled)]
    refine under_bind (under_pure (under_upsert_granted hstored hrep.room hrep.fits ?_))
    exact h.setDisabled hw henabled rfl rfl

theorem Booked.under_netIntentSet (h : Booked lib core) (hkeeps : SetKeeps lib core uid params vs) :
    under vs (netIntentSet lib uid params) (fun _ c _ => Booked lib c)
      (fun _ c _ => Undone lib core c uid params.id) core := by
  refine under_bind (under_orInvalid (fun owner howner => ?_) fun _ => h.undone rfl rfl)
  obtain rfl := intentOwner_ok howner
  refine under_bind (under_orInvalid (fun spec hspec => ?_) fun _ => h.undone rfl rfl)
  refine under_bind (under_requireIntents (fun hopen => ?_) fun _ => h.undone rfl rfl)
  refine under_bind (under_gets ?_)
  obtain ⟨hreplace, harm, hsynced⟩ := hkeeps howner hopen spec hspec
  cases hold : core.journal.entryOf uid params.id with
  | some entry => exact h.under_setReplace hold hspec (hreplace entry hold)
  | none =>
    refine under_bind (under_bind (under_gets ?_))
    simp only [entryOf_eq_none_iff.mp hold]
    exact h.under_setFresh hold hspec (harm hold) (hsynced hold)

end

/-! ### Deleting, removing and replaying -/

section
variable {lib : Crates} {core : DaemonCore} {uid : Nat} {id : String} {vs : List (Verdict Fault)}
variable {V : Verdict Fault → Prop}

/-- The condition on a delete: where the store lets go of the record of an entry, that is not
refused behind the rename, and then no removal of the entry's routes is refused. -/
def DelKeeps (lib : Crates) (core : DaemonCore) (uid : Nat) (id : String)
    (vs : List (Verdict Fault)) : Prop :=
  ∀ old, core.journal.entryOf uid id = some old → Granted vs 1 →
    IntentDocuments.loadable (core.intents.document uid) = true →
    lib.encodedBytes ((core.intents.document uid).filter fun intent => intent.id != id) ≤
      maxDocumentBytes →
    nextVerdict vs.tail ≠ .fail .unsynced ∧
      (Granted vs.tail 1 → Granted (vs.drop 2) (ownedRoutes old.resources).length)

theorem under_removeIntent {Q : Bool → DaemonCore → List (Verdict Fault) → Prop}
    {E : IoError → DaemonCore → List (Verdict Fault) → Prop}
    (hnone : core.intents.record uid id = none → Q false core vs.tail)
    (hok : Granted vs 2 → IntentDocuments.loadable (core.intents.document uid) = true →
      lib.encodedBytes ((core.intents.document uid).filter fun intent => intent.id != id) ≤
        maxDocumentBytes →
      Q true { core with intents := core.intents.withoutRecord uid id } (vs.drop 2))
    (hlate : Granted vs 1 → IntentDocuments.loadable (core.intents.document uid) = true →
      lib.encodedBytes ((core.intents.document uid).filter fun intent => intent.id != id) ≤
        maxDocumentBytes → nextVerdict vs.tail = .fail .unsynced →
      ∀ e vs', E e { core with intents := core.intents.withoutRecord uid id } vs')
    (herr : ∀ e vs', E e core vs') :
    under vs (removeIntent lib uid id) Q E core := by
  refine under_bind (under_loadUid (fun hg hload => ?_) fun _ e => herr e _)
  dsimp only
  split
  · rename_i hsame
    refine hnone ?_
    rw [IntentDocuments.record, find?_eq_none]
    intro item hitem
    simpa using length_filter_eq_length_iff.mp hsame item hitem
  · refine under_bind (under_saveIntents (fun hg' hfits => ?_)
      (fun hrefused hfits e => hlate hg hload hfits hrefused e _) fun _ e => herr e _)
    rw [← drop_one, drop_tail]
    exact hok (hg.append hg') hload hfits

theorem Booked.entryOf_none (h : Booked lib core) (hrecord : core.intents.record uid id = none) :
    core.journal.entryOf uid id = none := by
  have hagree := h.agree uid id
  rw [hrecord] at hagree
  simpa using hagree

theorem Booked.under_netIntentDel (h : Booked lib core) (hkeeps : DelKeeps lib core uid id vs) :
    under vs (netIntentDel lib uid id) (fun _ c _ => Booked lib c) (fun _ c _ => Booked lib c)
      core := by
  refine under_bind (under_orInvalid (fun owner howner => ?_) fun _ => h)
  obtain rfl := intentOwner_ok howner
  refine under_bind (under_requireIntents (fun _ => ?_) fun _ => h)
  refine under_bind (under_removeIntent (fun hrecord => ?_) (fun hg hload hfits => ?_)
    (fun hg hload hfits hrefused _ _ => ?_) fun _ _ => h)
  · refine under_bind (under_gets ?_)
    rw [entryOf_eq_none_iff.mp (h.entryOf_none hrecord)]
    exact h
  · refine under_bind (under_gets ?_)
    cases hold : core.journal.entryOf uid id with
    | none =>
      simp only [entryOf_eq_none_iff.mp hold]
      exact h.removed (h.without_of_none hold) rfl rfl
    | some entry =>
      obtain ⟨index, hpos, hentry⟩ := position_of_entryOf hold
      obtain ⟨huid, hentryOwner⟩ := entryOf_owner hold
      have hshape := h.shape entry (mem_of_getElem? hentry)
      simp only [hpos, isSome_some, if_true]
      refine under_bind (under_bind (under_gets ?_))
      simp only [hpos]
      refine under_bind (under_entryAt hentry (under_bind (under_attempt
        (hshape.under_teardown hentry ?_ (under_bind (under_persist fun disk => ?_))))))
      · exact (hkeeps entry hold (hg.mono (by omega)) hload hfits).2 hg.tail
      · refine h.removed (h.without_erased hentry ?_) rfl rfl
        rw [JournalEntry.origin, huid, hentryOwner]
  · cases hold : core.journal.entryOf uid id with
    | none => exact h.removed (h.without_of_none hold) rfl rfl
    | some entry => exact absurd hrefused (hkeeps entry hold hg hload hfits).1

/-- The condition on a removal by owner: it is not the owner of an armed intent. -/
def RemoveKeeps (core : DaemonCore) (uid : Nat) (owner : String) : Prop :=
  ∀ id, Owner.parse owner = .intent id → core.journal.entryOf uid id = none

theorem Booked.under_removeOwner (h : Booked lib core) {owner : String}
    (hkeeps : RemoveKeeps core uid owner) :
    under vs (removeOwner uid owner) (fun _ c _ => Booked lib c) (fun _ c _ => Booked lib c)
      core := by
  refine under_bind ?_
  cases validateOwner owner with
  | error m => exact h
  | ok u =>
    refine under_pure (under_bind (under_gets ?_))
    cases hpos : core.journal.position uid (Owner.parse owner) with
    | none => exact h
    | some index =>
      -- Every entry is an intent's, so the owner is one, and it is not armed.
      obtain ⟨entry, hentry, huid, howner⟩ := Journal.position_eq_some hpos
      obtain ⟨id, hid⟩ := h.intents entry (mem_of_getElem? hentry)
      have hparse := howner.symm.trans hid
      have hnone := entryOf_eq_none_iff.mp (hkeeps id hparse)
      rw [← hparse, hpos] at hnone
      cases hnone

/-- A record that has an entry is not armed again. -/
theorem wp_replayIntent {params : NetIntentSetParams}
    (h : ∀ spec, intentSpec lib params = .ok spec →
      (core.journal.entryOf uid params.id).isSome = true) :
    wp V (replayIntent lib uid params) (fun _ _ => False) (fun _ c => c = core) (fun _ => True)
      core := by
  refine wp_bind (wp_orInvalid (fun spec hspec => ?_) fun _ _ => rfl)
  refine wp_bind (wp_orInvalid (fun owner howner => ?_) fun _ _ => rfl)
  obtain rfl := intentOwner_ok howner
  refine wp_read (wp_bind (wp_bind (wp_demand (fun _ => ?_) fun _ _ => rfl)))
  refine wp_bind (wp_position ?_)
  have hsome : (core.journal.position uid (.intent params.id)).isSome = true := by
    rw [isSome_iff_ne_none, ne_eq, ← entryOf_eq_none_iff]
    exact isSome_iff_ne_none.mp (h spec hspec)
  rw [if_pos hsome]
  exact wp_throw rfl

variable {counts : Nat × Nat}

theorem wp_replayDocument {intents : List NetIntentSetParams}
    (h : ∀ params ∈ intents, params.enabled ≠ some false →
      ∀ spec, intentSpec lib params = .ok spec →
        (core.journal.entryOf uid params.id).isSome = true) :
    wp V (replayDocument lib uid intents counts) (fun _ c => c = core) (fun _ _ => False)
      (fun _ => True) core := by
  induction intents generalizing counts with
  | nil => exact wp_pure rfl
  | cons params rest ih =>
    have hrest : ∀ counts, wp V (replayDocument lib uid rest counts) (fun _ c => c = core)
        (fun _ _ => False) (fun _ => True) core :=
      fun counts => ih fun x hx => h x (mem_cons_of_mem params hx)
    obtain ⟨armed, failed⟩ := counts
    unfold replayDocument
    split
    · exact hrest _
    · rename_i henabled
      refine wp_either (wp_replayIntent (h params (by simp) henabled)) (fun _ _ hf => hf.elim) ?_
      rintro _ _ rfl
      exact hrest _

theorem wp_replayDocuments {docs : IntentDocuments}
    (h : ∀ doc ∈ docs, ∀ params ∈ doc.2, params.enabled ≠ some false →
      ∀ spec, intentSpec lib params = .ok spec →
        (core.journal.entryOf doc.1 params.id).isSome = true) :
    wp V (replayDocuments lib docs counts) (fun _ c => c = core) (fun _ _ => False)
      (fun _ => True) core := by
  induction docs generalizing counts with
  | nil => exact wp_pure rfl
  | cons doc rest ih =>
    refine wp_bind (wp_ends (wp_replayDocument (h doc (by simp))) ?_ (fun _ _ hf => hf))
    rintro counts _ rfl
    exact ih fun x hx => h x (mem_cons_of_mem doc hx)

/-- A document that can be read is the one in the store. -/
theorem wp_loadDocuments {uids : List Nat} : wp V (loadDocuments uids)
      (fun docs c => c = core ∧ ∀ doc ∈ docs, ∀ params ∈ doc.2,
        params ∈ core.intents.document doc.1) (fun _ _ => False) (fun _ => True) core := by
  induction uids with
  | nil => exact wp_pure ⟨rfl, by simp⟩
  | cons uid rest ih =>
    have hload : ∀ intents : List NetIntentSetParams,
        (∀ params ∈ intents, params ∈ core.intents.document uid) →
        wp V (do
          let docs ← loadDocuments rest
          pure ((uid, intents) :: docs))
        (fun docs c => c = core ∧ ∀ doc ∈ docs, ∀ params ∈ doc.2,
          params ∈ core.intents.document doc.1) (fun _ _ => False) (fun _ => True) core := by
      intro intents hintents
      refine wp_bind (wp_ends ih ?_ (fun _ _ hf => hf))
      rintro docs _ ⟨rfl, hdocs⟩
      refine wp_pure ⟨rfl, fun doc hdoc => ?_⟩
      rcases mem_cons.mp hdoc with rfl | hdoc
      · exact hintents
      · exact hdocs doc hdoc
    refine wp_tried (wp_query (fun _ => trivial) ?_ ?_ ?_)
    · exact fun _ _ => hload [] (by simp)
    · intro intents hok
      dsimp only at hok
      split at hok
      · cases hok
        exact hload _ fun _ hp => hp
      · cases hok
    · exact fun _ _ => hload [] (by simp)

/-- A replay over an agreeing journal arms nothing. -/
theorem Booked.wp_replayIntents (h : Booked lib core) :
    wp V (replayIntents lib) (fun _ c => c = core) (fun _ _ => False) (fun _ => True) core := by
  refine wp_read ?_
  split
  · refine wp_tried (wp_bind (wp_query (fun _ => trivial) ?_ ?_ ?_))
    · exact fun _ _ => wp_pure rfl
    · intro uids _
      refine wp_ends wp_loadDocuments ?_ (fun _ _ hf => hf.elim)
      rintro docs _ ⟨rfl, hdocs⟩
      refine wp_replayDocuments fun doc hdoc params hparams henabled spec hspec => ?_
      obtain ⟨e, he, huid, howner, -⟩ := h.intentsAgree.armed doc.1 params
        (hdocs doc hdoc params hparams) henabled spec hspec
      exact huid ▸ entryOf_isSome_of_mem he howner
    · exact fun _ _ => wp_pure rfl
  · exact wp_pure rfl

end

/-! ### Runs -/

/-- The requests about intents, and what the machine does in between. -/
inductive IntentRequest where
  | netIntentSet (uid : Nat) (params : NetIntentSetParams)
  | netIntentDel (uid : Nat) (id : String)
  | removeOwner (uid : Nat) (owner : String)
  | replayIntents
  | machine (kernel : Kernel) (view : View)

def IntentRequest.exec : IntentRequest → Prog Unit
  | .netIntentSet uid params => Call.discard (Daemon.netIntentSet lib uid params)
  | .netIntentDel uid id => Daemon.netIntentDel lib uid id
  | .removeOwner uid owner => Call.discard (Daemon.removeOwner uid owner)
  | .replayIntents => Call.discard (Daemon.replayIntents lib)
  | .machine kernel view => Call.modify fun core => { core with kernel, view }

/-- A request with the verdicts that its steps meet. -/
structure IntentCall where
  request : IntentRequest
  schedule : List (Verdict Fault)

def IntentCall.exec (lib : Crates) (call : IntentCall) : Prog Unit :=
  Call.scheduled call.schedule (call.request.exec lib)

/-- The condition. -/
def IntentCall.Admitted (call : IntentCall) : Prop :=
  match call.request with
  | .netIntentSet uid params => SetKeeps lib core uid params call.schedule
  | .netIntentDel uid id => DelKeeps lib core uid id call.schedule
  | .removeOwner uid owner => RemoveKeeps core uid owner
  | .replayIntents => True
  | .machine _ _ => True

theorem Booked.wp_exec {lib : Crates} {core : DaemonCore} (h : Booked lib core)
    {V : Verdict Fault → Prop} (call : IntentCall) (hadmitted : call.Admitted lib core) :
    wp V (call.exec lib) (fun _ => Booked lib) (fun _ => Booked lib) (fun _ => True) core := by
  obtain ⟨request, schedule⟩ := call
  refine wp_scheduled ?_
  cases request with
  | netIntentSet uid params =>
    exact under_discard (under_mono (h.under_netIntentSet hadmitted) (fun _ _ _ h' => h')
      fun _ _ _ hundone => hundone.booked)
  | netIntentDel uid id => exact h.under_netIntentDel hadmitted
  | removeOwner uid owner => exact under_discard (h.under_removeOwner hadmitted)
  | replayIntents =>
    exact under_discard (under_mono (under_of_wp h.wp_replayIntents)
      (fun _ _ _ heq => heq ▸ h) fun _ _ _ hf => hf.elim)
  | machine kernel view => exact under_modify (h.same rfl rfl)

/-- In every run whose steps meet the condition, store and journal agree, and a set that
returns an error leaves the stored record and the armed spec of its intent as they were. -/
theorem intents_agree (lib : Crates) (kernel : Kernel) (view : View) (executors : Executors)
    {core : DaemonCore} (h : Reaches (IntentCall.exec lib) (IntentCall.Admitted lib)
      (DaemonCore.fresh kernel view executors) core) :
    IntentsAgree lib core ∧
      ∀ uid params vs e c vs', SetKeeps lib core uid params vs →
        netIntentSet lib uid params core vs = (.err e, c, vs') →
        c.intents.record uid params.id = core.intents.record uid params.id ∧
          c.armed uid params.id = core.armed uid params.id := by
  have hbooked : Booked lib core :=
    h.invariant (I := Booked lib) (C := fun _ => True) (.fresh lib kernel view executors)
      fun _ call h' hok => h'.wp_exec call hok
  refine ⟨hbooked.intentsAgree, fun uid params vs e c vs' hkeeps hrun => ?_⟩
  have hend := hbooked.under_netIntentSet hkeeps
  unfold under at hend
  rw [hrun] at hend
  obtain ⟨-, hjournal, hrecord⟩ := hend
  rw [DaemonCore.armed, hjournal]
  exact ⟨hrecord, rfl⟩

/-- An intent that sends one destination through `tun7`. -/
def branchIntent (id destination : String) : NetIntentSetParams :=
  { id, destinations := [destination], path := ⟨"interface", some "tun7", none⟩, metric := none,
    enabled := none }

/-- The crates on the two destinations, and on documents of records of this length. -/
def intentCrates : Crates :=
  { parseNet := fun raw =>
      if raw = "10.2.0.0/16" then some (.v4 0x0a020000 16)
      else if raw = "10.3.0.0/16" then some (.v4 0x0a030000 16)
      else none
    encodedBytes := fun intents => 26 + 122 * intents.length }

/-- The intent with its first destination, set without a failure. -/
def officeSet : DaemonCore :=
  (IntentCall.exec intentCrates ⟨.netIntentSet 1000 (branchIntent "office" "10.2.0.0/16"), []⟩
    branchStart []).2.1

def officeSpec (destination : IpNet) : AttachSpecParams :=
  { interfaceName := "tun7", routes := [⟨destination, 100, none⟩], endpointBypasses := [],
    uplink := false }

/-- A set that moves the intent to another destination, where the kernel refuses the add. -/
def officeMoved : DaemonCore :=
  (netIntentSet intentCrates 1000 (branchIntent "office" "10.3.0.0/16") officeSet
    [.proceed, .proceed, .proceed, .fail .other]).2.1

/-- The set returns an error. The store has the old record and the journal a stale entry with
the new spec. -/
theorem moved_office_disagrees :
    Reaches (IntentCall.exec intentCrates) (fun _ _ => True) branchStart officeSet ∧
      (netIntentSet intentCrates 1000 (branchIntent "office" "10.3.0.0/16") officeSet
        [.proceed, .proceed, .proceed, .fail .other]).1 = .err ⟨.other, .executor⟩ ∧
      ¬IntentsAgree intentCrates officeMoved ∧
      officeMoved.armed 1000 "office" ≠ officeSet.armed 1000 "office" := by
  have hjournal : officeMoved.journal =
      [⟨1000, .intent "office", .stale, [.attachSpec (officeSpec (.v4 0x0a030000 16))]⟩] := by
    decide
  have hdocument : officeMoved.intents.document 1000 = [branchIntent "office" "10.2.0.0/16"] := by
    decide
  refine ⟨.call .start trivial (eq_of_outcome (o := .ok ()) (by decide)) (by simp),
    by decide, fun h => ?_, by decide⟩
  obtain ⟨e, he, -, -, hspec⟩ := h.armed 1000 (branchIntent "office" "10.2.0.0/16")
    (by rw [hdocument]; simp) (by decide) (officeSpec (.v4 0x0a020000 16)) (by decide)
  rw [hjournal] at he
  obtain rfl := List.mem_singleton.mp he
  revert hspec
  decide

theorem granted_nil (n : Nat) : Granted ([] : List (Verdict Fault)) n := by simp [Granted]

theorem officeSet_admitted : IntentCall.Admitted intentCrates branchStart
    ⟨.netIntentSet 1000 (branchIntent "office" "10.2.0.0/16"), []⟩ := by
  intro _ _ spec hspec
  have hspec' : intentSpec intentCrates (branchIntent "office" "10.2.0.0/16") =
      .ok (officeSpec (.v4 0x0a020000 16)) := by decide
  obtain rfl : spec = officeSpec (.v4 0x0a020000 16) := by
    rw [hspec] at hspec'
    exact Except.ok.inj hspec'
  refine ⟨fun old hold => ?_, fun _ _ _ _ => ⟨⟨?_, ?_⟩, ?_, .inl ⟨?_, ?_, ?_⟩⟩,
    fun _ hdisabled => by cases hdisabled⟩
  · cases hold
  · decide
  · exact fun d _ row hrow => by cases hrow
  · exact granted_nil _
  · exact granted_nil _
  · exact ⟨by decide, .inr (by decide)⟩
  · show intentCrates.encodedBytes _ ≤ _
    decide

/-- After a first set the two agree. A set of a second intent whose save is refused returns an
error and leaves that intent unarmed. -/
theorem set_office_agrees :
    IntentsAgree intentCrates officeSet ∧
      ∃ c vs, netIntentSet intentCrates 1000 (branchIntent "lab" "10.3.0.0/16") officeSet
          [.fail .other] = (.err ⟨.other, .executor⟩, c, vs) ∧
        c.intents.record 1000 "lab" = officeSet.intents.record 1000 "lab" ∧
        c.armed 1000 "lab" = officeSet.armed 1000 "lab" := by
  have hreach : Reaches (IntentCall.exec intentCrates) (IntentCall.Admitted intentCrates)
      branchStart officeSet :=
    .call .start officeSet_admitted (eq_of_outcome (o := .ok ()) (by decide)) (by simp)
  obtain ⟨hagree, hset⟩ := intents_agree intentCrates _ _ _ hreach
  have hrun := eq_of_outcome (o := .err ⟨.other, .executor⟩) (r := netIntentSet intentCrates 1000
    (branchIntent "lab" "10.3.0.0/16") officeSet [.fail .other]) (by decide)
  refine ⟨hagree, _, _, hrun, hset 1000 (branchIntent "lab" "10.3.0.0/16") _ _ _ _ ?_ hrun⟩
  intro _ _ spec _
  refine ⟨fun old hold => ?_, fun _ _ _ hg => ?_, fun _ hdisabled => by cases hdisabled⟩
  · have hnone : officeSet.journal.entryOf 1000 "lab" = none := by decide
    cases hnone.symm.trans hold
  · exact absurd rfl (hg.next .other)

end NetOrchestrator.Daemon
