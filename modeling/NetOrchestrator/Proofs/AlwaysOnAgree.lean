import NetOrchestrator.Proofs.RouteRequests
import NetOrchestrator.Proofs.TunnelFrame
import NetOrchestrator.Proofs.AlwaysOnPlans
import NetOrchestrator.Daemon.AlwaysOnRequests
import NetOrchestrator.Lib.Steps

/-!
# `Proofs.AlwaysOnAgree`: what is stored and what is up

An owner that an always-on definition started should be up only while the definition is stored
and enabled and the document is not paused. A request decides in the store and acts on the core
later, so its decision may be out of date: `removed_owner_started` is a run in which a profile
comes up after it was removed. `always_on_agrees` says that this is all that can go wrong: in
every run where no request acts on an outdated decision, the store and the journal agree once
the requests are done.

The journal side is one number, `Journal.tally`: how many entries an owner has. No program
raises it, except an apply, from zero to one and for its own owner.
-/

namespace NetOrchestrator.Daemon

open Net Lib Lib.Call List Option Bool Verdict Nat

/-! ### Entries of an owner -/

/-- How many entries an owner has. -/
def Journal.tally (j : Journal) (uid : Nat) (owner : Owner) : Nat :=
  j.countP fun e => e.uid == uid && e.owner == owner

section
variable {j : Journal} {uid : Nat} {owner : Owner}
variable {index : Nat}

theorem Journal.tally_eq_zero : j.tally uid owner = 0 ↔ j.position uid owner = none := by
  rw [Journal.position_eq_none, Journal.tally, countP_eq_zero]
  simp

theorem Journal.lists_iff {name : String} :
    j.lists uid name = true ↔ 0 < j.tally uid (Owner.parse name) := by
  rw [Nat.pos_iff_ne_zero, ne_eq, Journal.tally_eq_zero, Journal.lists]
  simp [isSome_iff_ne_none]

variable {entry : JournalEntry}

theorem Journal.tally_push : Journal.tally (j ++ [entry]) uid owner =
      j.tally uid owner + if entry.uid = uid ∧ entry.owner = owner then 1 else 0 := by
  simp [Journal.tally, countP_append, countP_singleton]

theorem Journal.tally_modify {f : JournalEntry → JournalEntry}
    (hf : ∀ e, j[index]? = some e → (f e).uid = e.uid ∧ (f e).owner = e.owner) :
    Journal.tally (j.modify index f) uid owner = j.tally uid owner := by
  induction j generalizing index with
  | nil => simp [Journal.tally]
  | cons e rest ih =>
    cases index with
    | zero =>
      obtain ⟨huid, howner⟩ := hf e (by simp)
      simp [Journal.tally, countP_cons, huid, howner]
    | succ index =>
      have hrest := @ih index fun e' he' => hf e' (by simpa using he')
      simp only [Journal.tally, modify_succ_cons, countP_cons] at hrest ⊢
      rw [hrest]

theorem Journal.tally_eraseIdx_le :
    Journal.tally (j.eraseIdx index) uid owner ≤ j.tally uid owner :=
  (eraseIdx_sublist j index).countP_le

/-- Dropping an entry of the owner. -/
theorem Journal.tally_eraseIdx
    (hentry : j[index]? = some entry) (huid : entry.uid = uid) (howner : entry.owner = owner) :
    Journal.tally (j.eraseIdx index) uid owner + 1 = j.tally uid owner := by
  induction j generalizing index with
  | nil => simp at hentry
  | cons e rest ih =>
    cases index with
    | zero =>
      obtain rfl : e = entry := by simpa using hentry
      simp [Journal.tally, huid, howner]
    | succ index =>
      have hrest := @ih index (by simpa using hentry)
      simp only [Journal.tally, eraseIdx_cons_succ, countP_cons] at hrest ⊢
      omega

end

/-- No owner has more entries than its bound. -/
def Bounded (b : Nat → Owner → Nat) (j : Journal) : Prop :=
  ∀ uid owner, j.tally uid owner ≤ b uid owner

theorem Bounded.shrinking (b : Nat → Owner → Nat) : Shrinking (Bounded b) where
  modify := fun {j index f} h hf uid owner => by
    rw [Journal.tally_modify fun e he => ⟨(hf e he).uid, (hf e he).owner⟩]
    exact h uid owner
  erase := fun h uid owner => le_trans Journal.tally_eraseIdx_le (h uid owner)

/-- An owner that has no entry may get one where the bound allows it. -/
theorem Bounded.push {b : Nat → Owner → Nat} {j : Journal} {entry : JournalEntry}
    (h : Bounded b j) (hfree : j.position entry.uid entry.owner = none)
    (hb : 1 ≤ b entry.uid entry.owner) : Bounded b (j ++ [entry]) := by
  intro uid owner
  rw [Journal.tally_push]
  split
  · rename_i hkey
    obtain ⟨rfl, rfl⟩ := hkey
    rw [Journal.tally_eq_zero.mpr hfree]
    exact hb
  · exact h uid owner

/-! ### Applying a definition -/

section
variable {V : Verdict Fault → Prop} {b : Nat → Owner → Nat} {core : DaemonCore} {uid : Nat}
variable {profileId : String} {lib : WireGuardCrates}

/-- A program that ends without raising a tally above the bound. -/
def Within {α : Type} (V : Verdict Fault → Prop) (b : Nat → Owner → Nat) (m : Prog α) : Prop :=
  ∀ core, OnJournal (Bounded b) core →
    wp V m (fun _ => OnJournal (Bounded b)) (fun _ => OnJournal (Bounded b)) (fun _ => True) core

variable {α : Type} {m : Prog α} {owner : String} {index : Nat}

theorem Within.of_keeps (h : Keeps V (OnJournal (Bounded b)) m) : Within V b m :=
  fun core hcore => wp_mono (h core hcore) (fun _ _ h => h) (fun _ _ h => h) fun _ _ => trivial

theorem Within.bind {β : Type} {f : α → Prog β} (hm : Within V b m)
    (hf : ∀ a, Within V b (f a)) : Within V b (m >>= f) :=
  fun core hcore => wp_bind (wp_mono (hm core hcore) (fun a c hc => hf a c hc) (fun _ _ h => h)
    fun _ _ => trivial)

theorem Within.attempt (h : Within V b m) : Within V b (Call.attempt m) :=
  fun core hcore => wp_attempt (h core hcore)

theorem within_connectWireguard {plan : WireGuardPlan}
    (hb : 1 ≤ b uid (.wg profileId)) : Within V b (connectWireguard uid profileId plan) := by
  have hP := Bounded.shrinking b
  refine .bind (.of_keeps (journalFree_demand _).onJournal) fun _ => ?_
  refine .bind (.of_keeps (Keeps.gets _)) fun executors => ?_
  intro core hcore
  split
  · exact wp_throw hcore
  refine wp_bind (wp_position ?_)
  split
  · exact wp_throw hcore
  rename_i hpos
  rw [not_isSome_iff_eq_none] at hpos
  split
  · exact wp_throw hcore
  refine wp_bind ((journalFree_allocateFull plan).wp ?_ (fun _ _ => hcore.congr) fun _ _ => trivial)
  intro full c hc
  refine wp_mono (hP.connectWireguardEntry fun link _ => ?_) (fun _ _ h => h) (fun _ _ h => h)
    fun _ _ => trivial
  exact (hcore.congr hc).push (by rw [hc]; exact hpos) hb

theorem within_applyRoutes {routes : List AppliedRoute}
    (hb : 1 ≤ b uid (Owner.parse owner)) : Within V b (applyRoutes uid owner routes) := by
  intro core hcore
  refine wp_bind (wp_checkClientOwner (fun _ => ?_) fun _ => hcore)
  refine wp_mono (wp_applyRoutesInner core uid _ routes none) ?_ ?_ fun _ _ => trivial
  · rintro _ c ⟨-, hfree, k, disk, -, -, rfl⟩
    exact Bounded.push hcore hfree hb
  · intro _ c hc
    cases hc with
    | refused => exact hcore
    | unsynced _ _ => exact hcore
    | rolledBack k left disk _ hfree _ _ _ =>
      show Bounded b (failedApply core.journal uid (Owner.parse owner) none left)
      unfold failedApply
      split
      · exact hcore
      · exact Bounded.push hcore hfree hb

theorem Owner.parse_wg (profileId : String) : Owner.parse ("wg:" ++ profileId) = .wg profileId := by
  have hchars : ("wg:" ++ profileId).toList = 'w' :: 'g' :: ':' :: profileId.toList := by simp
  have hne : ("wg:" ++ profileId) ≠ "manual" := by
    intro h
    have htext := congrArg String.toList h
    rw [hchars] at htext
    cases htext
  have hstrip : Owner.strip "wg:" ("wg:" ++ profileId).toList = some profileId := by
    have hlen : "wg:".length = 3 := rfl
    simp [Owner.strip, hlen]
  unfold Owner.parse
  rw [if_neg hne]
  simp only [hstrip]

theorem within_applyDefinition {definition : AlwaysOnDefinition}
    (hb : 1 ≤ b uid (Owner.parse definition.owner)) :
    Within V b (applyDefinition lib uid definition) := by
  refine .bind (.of_keeps (Keeps.ofExcept _)) fun _ => ?_
  refine .bind (.of_keeps (Keeps.gets _)) fun state => ?_
  match state with
  | some .applied => exact .of_keeps (Keeps.pure _)
  | some .applying => exact .of_keeps (Keeps.throw _)
  | some .stale => exact .of_keeps (Keeps.throw _)
  | none =>
    cases definition with
    | wireGuard profile =>
      have hb : 1 ≤ b uid (.wg profile.profileId) := by
        rwa [AlwaysOnDefinition.owner, Owner.parse_wg] at hb
      refine .bind (.of_keeps (Keeps.ofExcept _)) fun plan => ?_
      exact .bind (within_connectWireguard hb) fun _ => .of_keeps (Keeps.pure _)
    | staticRoutes profile =>
      refine .bind (.of_keeps (Keeps.gets _)) fun index => ?_
      show Within V b (if index = 0 then _ else _)
      split
      · exact .of_keeps (Keeps.throw _)
      · exact .bind (within_applyRoutes hb) fun _ => .of_keeps (Keeps.pure _)

theorem within_replayDefinitions {definitions : List AlwaysOnDefinition}
    (hb : ∀ d ∈ definitions, 1 ≤ b uid (Owner.parse d.owner)) (report : ReplayReport) :
    Within V b (replayDefinitions lib uid report definitions) := by
  induction definitions generalizing report with
  | nil => exact .of_keeps (Keeps.pure _)
  | cons definition rest ih =>
    have hrest : ∀ d ∈ rest, 1 ≤ b uid (Owner.parse d.owner) := fun d hd => hb d (by simp [hd])
    refine .bind (.bind (.of_keeps (Keeps.gets _)) fun state => ?_) fun report => ih hrest report
    match state with
    | some .applied => exact .of_keeps (Keeps.pure _)
    | some .applying => exact .of_keeps (Keeps.pure _)
    | some .stale => exact .of_keeps (Keeps.pure _)
    | none =>
      refine .bind (within_applyDefinition (hb definition (by simp))).attempt fun result => ?_
      match result with
      | .ok true => exact .of_keeps (Keeps.pure _)
      | .ok false => exact .of_keeps (Keeps.pure _)
      | .error _ => exact .of_keeps (Keeps.pure _)

theorem within_replayUsers {loaded : List (Nat × Except IoError AlwaysOnDocument)}
    (hb : ∀ uid document, (uid, .ok document) ∈ loaded →
      ∀ d ∈ document.replayable, 1 ≤ b uid (Owner.parse d.owner)) (report : ReplayReport) :
    Within V b (replayUsers lib report loaded) := by
  induction loaded generalizing report with
  | nil => exact .of_keeps (Keeps.pure _)
  | cons row rest ih =>
    have hrest := ih fun uid document hmem => hb uid document (by simp [hmem])
    match row with
    | (_, .error _) => exact hrest _
    | (uid, .ok document) =>
      refine .bind (within_replayDefinitions (hb uid document (by simp)) report) fun report => ?_
      exact hrest report

/-- A replay applies what the documents list. -/
theorem within_replay {reads : StoreReads} {documents : AlwaysOnDocuments}
    (hb : ∀ uid document, (uid, document) ∈ documents →
      ∀ d ∈ document.replayable, 1 ≤ b uid (Owner.parse d.owner)) :
    Within V b (replay lib reads documents) := by
  intro core hcore
  refine wp_bind (wp_ofExcept (fun loaded hloaded => ?_) fun _ _ => hcore)
  refine within_replayUsers (fun uid document hmem => hb uid document ?_) _ core hcore
  unfold loadAlwaysOn at hloaded
  split at hloaded
  · obtain rfl := Except.ok.inj hloaded
    obtain ⟨row, hrow, heq⟩ := mem_map.mp hmem
    obtain ⟨huid, hdoc⟩ := Prod.mk.inj heq
    split at hdoc
    · obtain rfl : row.1 = uid := huid
      obtain rfl : row.2 = document := Except.ok.inj hdoc
      exact hrow
    · cases hdoc
  · cases hloaded

/-! ### Stopping an owner -/

theorem keeps_removeEntryAt (index : Nat) :
    Keeps V (OnJournal (Bounded b)) (removeEntryAt index) := by
  have hP := Bounded.shrinking b
  refine (journalFree_entryAt index).before fun entry => ?_
  refine Keeps.bind (Keeps.attempt (hP.teardownEntry index)) fun result => ?_
  exact journalFree_persist.before fun _ => Keeps.ofExcept _

theorem keeps_removeOwner (owner : String) :
    Keeps V (OnJournal (Bounded b)) (removeOwner uid owner) := by
  refine (journalFree_demand _).before fun _ => ?_
  refine (journalFree_position _ _).before fun pos => ?_
  cases pos with
  | none => exact Keeps.throw _
  | some index =>
    cases Owner.parse owner with
    | wg id => exact Keeps.throw _
    | ovpn id => exact Keeps.throw _
    | cond id => exact Keeps.throw _
    | _ => exact keeps_removeEntryAt index

theorem keeps_stopOwner (kind : AlwaysOnKind) (profileId : String) :
    Keeps V (OnJournal (Bounded b)) (stopOwner uid kind profileId) := by
  refine Keeps.bind (Keeps.gets _) fun state => ?_
  cases state with
  | none => exact Keeps.pure _
  | some state =>
    cases kind with
    | wireGuard =>
      exact Keeps.bind ((Bounded.shrinking b).disconnectWireguard uid profileId)
        fun _ => Keeps.pure _
    | staticRoutes =>
      exact Keeps.bind (Keeps.bind (keeps_removeOwner _) fun _ => Keeps.pure _)
        fun _ => Keeps.pure _

/-- The program takes one entry of the owner away when it returns. -/
def TakesDown (V : Verdict Fault → Prop) (uid : Nat) (owner : Owner) (j : Journal) {α : Type}
    (m : Prog α) (core : DaemonCore) : Prop :=
  wp V m (fun _ c => c.journal.tally uid owner + 1 = j.tally uid owner)
    (fun _ _ => True) (fun _ => True) core

theorem takesDown_teardown {owner : Owner}
    {rest : Except IoError Unit → Prog α} (hpos : core.journal.position uid owner = some index)
    (hok : ∀ c, c.journal.tally uid owner + 1 = core.journal.tally uid owner →
      TakesDown V uid owner core.journal (rest (.ok ())) c)
    (herr : ∀ e c, TakesDown V uid owner core.journal (rest (.error e)) c) :
    TakesDown V uid owner core.journal
      (do
        let result ← Call.attempt (teardownEntry index)
        rest result) core := by
  obtain ⟨entry, hentry, huid, howner⟩ := Journal.position_eq_some hpos
  refine wp_tried (wp_mono wp_teardownEntry ?_ ?_ fun _ _ => trivial)
  · intro _ c hc
    refine hok c ?_
    rw [hc]
    exact Journal.tally_eraseIdx hentry huid howner
  · exact fun e c _ => herr e c

theorem takesDown_disconnectWireguard (hlisted : core.journal.position uid (.wg profileId) ≠ none) :
    TakesDown V uid (.wg profileId) core.journal (disconnectWireguard uid profileId) core := by
  refine wp_bind (wp_demand (fun _ => ?_) fun _ _ => trivial)
  refine wp_bind (wp_position ?_)
  cases hpos : core.journal.position uid (.wg profileId) with
  | none => exact absurd hpos hlisted
  | some index =>
    refine takesDown_teardown hpos (fun c hc => ?_) fun e c => ?_
    · exact wp_bind (wp_save (fun _ => trivial) (fun _ _ => trivial) (fun _ _ => trivial)
        (wp_pure hc))
    · exact wp_bind (wp_save (fun _ => trivial) (fun _ _ => trivial) (fun _ _ => trivial)
        (wp_throw trivial))

theorem takesDown_removeEntryAt {owner : Owner}
    (hpos : core.journal.position uid owner = some index) :
    TakesDown V uid owner core.journal (removeEntryAt index) core := by
  refine wp_bind (wp_entryAt (fun entry _ => ?_) fun _ => trivial)
  refine takesDown_teardown hpos (fun c hc => ?_) fun e c => ?_
  · exact wp_bind (wp_persist (fun _ => trivial) (wp_pure hc) (wp_pure hc))
  · exact wp_bind (wp_persist (fun _ => trivial) (wp_throw trivial) (wp_throw trivial))

theorem takesDown_removeOwner (hlisted : core.journal.position uid (Owner.parse owner) ≠ none) :
    TakesDown V uid (Owner.parse owner) core.journal (removeOwner uid owner) core := by
  refine wp_bind (wp_demand (fun _ => ?_) fun _ _ => trivial)
  refine wp_bind (wp_position ?_)
  cases hpos : core.journal.position uid (Owner.parse owner) with
  | none => exact absurd hpos hlisted
  | some index =>
    dsimp only
    split
    · exact wp_throw trivial
    · exact wp_throw trivial
    · exact wp_throw trivial
    · exact takesDown_removeEntryAt hpos

theorem ownedState_eq_none {name : String} {j : Journal} :
    (j.find? fun entry => entry.uid == uid && entry.owner == Owner.parse name).map
      JournalEntry.state = none ↔ j.position uid (Owner.parse name) = none := by
  rw [Journal.position_eq_none, map_eq_none_iff, find?_eq_none]
  simp

/-- `ALWAYS_ON_REMOVE` that returns has taken an entry of the owner away, or found none. -/
theorem wp_stopOwner {kind : AlwaysOnKind} : wp V (stopOwner uid kind profileId)
      (fun _ c => c.journal.tally uid (Owner.parse (removedOwner kind profileId)) =
        core.journal.tally uid (Owner.parse (removedOwner kind profileId)) - 1)
      (fun _ _ => True) (fun _ => True) core := by
  refine wp_read ?_
  cases hstate : (core.journal.find? fun entry => entry.uid == uid &&
      entry.owner == Owner.parse (removedOwner kind profileId)).map JournalEntry.state with
  | none =>
    refine wp_pure ?_
    have hzero := Journal.tally_eq_zero.mpr (ownedState_eq_none.mp hstate)
    rw [hzero]
  | some state =>
    have hlisted : core.journal.position uid (Owner.parse (removedOwner kind profileId)) ≠ none := by
      intro hnone
      rw [ownedState_eq_none.mpr hnone] at hstate
      cases hstate
    cases kind with
    | wireGuard =>
      simp only [removedOwner, Owner.parse_wg] at hlisted ⊢
      refine wp_bind (wp_mono (takesDown_disconnectWireguard hlisted) (fun _ c hc => ?_)
        (fun _ _ _ => trivial) fun _ _ => trivial)
      exact wp_pure (Nat.eq_sub_of_add_eq hc)
    | staticRoutes =>
      refine wp_bind (wp_discard (wp_mono (takesDown_removeOwner hlisted) (fun _ c hc => ?_)
        (fun _ _ _ => trivial) fun _ _ => trivial))
      exact wp_pure (Nat.eq_sub_of_add_eq hc)

/-! ### Cleaning up -/

/-- A teardown that lists no failed owner leaves nothing that it selects. -/
theorem wp_teardownLoop_cleared {selects : JournalEntry → Bool} {count : Nat}
    {result : CleanupResult}
    (h : result.failed = [] → ∀ i e, count ≤ i → core.journal[i]? = some e → selects e = false) :
    wp V (teardownLoop selects count result)
      (fun r c => r.failed = [] → ∀ e ∈ c.journal, selects e = false)
      (fun _ _ => True) (fun _ => True) core := by
  induction count generalizing result core with
  | zero =>
    refine wp_pure fun hnone e he => ?_
    obtain ⟨i, hi⟩ := mem_iff_getElem?.mp he
    exact h hnone i e (zero_le i) hi
  | succ index ih =>
    refine wp_bind (wp_entryAt (fun entry hentry => ?_) fun _ => trivial)
    split
    · refine wp_tried (wp_mono wp_teardownEntry ?_ ?_ fun _ _ => trivial)
      · -- The entries behind the one that went have moved up.
        intro _ c hc
        refine ih fun hnone i e hi he => ?_
        rw [hc, getElem?_eraseIdx_of_ge hi] at he
        exact h hnone (i + 1) e (by omega) he
      · intro _ c _
        refine ih fun hnone => ?_
        simp at hnone
    · rename_i hselects
      refine ih fun hnone i e hi he => ?_
      rcases eq_or_lt_of_le hi with rfl | hlt
      · rw [hentry] at he
        obtain rfl := Option.some.inj he
        exact not_eq_true _ ▸ hselects
      · exact h hnone i e hlt he

/-- A cleanup that lists no failed owner leaves the user nothing. -/
theorem wp_cleanupUid_cleared :
    wp V (cleanupUid uid) (fun r c => r.failed = [] → ∀ owner, c.journal.tally uid owner = 0)
      (fun _ _ => True) (fun _ => True) core := by
  refine wp_write (wp_read (wp_bind (wp_mono (wp_teardownLoop_cleared ?_) ?_
    (fun _ _ _ => trivial) fun _ _ => trivial)))
  · intro _ i e hi he
    rw [getElem?_eq_none hi] at he
    cases he
  · intro r c hc
    refine wp_bind (wp_save (fun _ => trivial) (fun _ _ => trivial) (fun _ _ => trivial)
      (wp_pure fun hnone owner => ?_))
    refine countP_eq_zero.mpr fun e he => ?_
    have hother : (e.uid == uid) = false := hc hnone e he
    simp [hother]

end

/-! ### The store -/

/-- The definition is stored and enabled, and the document is not paused. -/
def AlwaysOnDocument.Wants (document : AlwaysOnDocument) (definition : AlwaysOnDefinition) : Prop :=
  document.paused = false ∧ ⟨true, definition⟩ ∈ document.entries

instance (document : AlwaysOnDocument) (definition : AlwaysOnDefinition) :
    Decidable (document.Wants definition) :=
  inferInstanceAs (Decidable (_ ∧ _))

namespace AlwaysOnStore

variable {store : AlwaysOnStore} {uid : Nat} {document : AlwaysOnDocument}

theorem loadUid_of_mem (h : (uid, document) ∈ store.rows) : store.loadUid uid = document := by
  rw [loadUid, Sorted.get?_of_mem h]
  rfl

/-- What a change leaves in the file. -/
theorem loadUid_saveChanged {change : Bool × AlwaysOnDocument}
    (h : change.1 = false → change.2 = store.loadUid uid) :
    (store.saveChanged uid change).loadUid uid = change.2 := by
  unfold saveChanged
  split
  · simp [loadUid]
  · rename_i hsame
    exact (h (eq_false_of_not_eq_true hsame)).symm

end AlwaysOnStore

namespace AlwaysOnDocument

variable {document : AlwaysOnDocument} {definition d : AlwaysOnDefinition} {owner : String}
  {edit : Bool × AlwaysOnDocument}

/-- An edit that loses no enabled definition that `p` selects. -/
structure Spares (p : AlwaysOnDefinition → Prop) (document : AlwaysOnDocument)
    (edit : Bool × AlwaysOnDocument) : Prop where
  unchanged : edit.1 = false → edit.2 = document
  paused : edit.2.paused = document.paused
  entries : ∀ d, p d → ⟨true, d⟩ ∈ document.entries → ⟨true, d⟩ ∈ edit.2.entries

theorem Spares.wants {p : AlwaysOnDefinition → Prop} (h : Spares p document edit) (hp : p d)
    (hwants : document.Wants d) : edit.2.Wants d :=
  ⟨h.paused.trans hwants.1, h.entries d hp hwants.2⟩

theorem spares_insert (h : document.insert definition = .ok edit) :
    Spares (fun _ => True) document edit := by
  unfold insert at h
  split at h
  · rename_i entry hfind
    split at h
    · cases h
    · split at h
      · obtain rfl := Except.ok.inj h
        exact ⟨fun _ => rfl, rfl, fun _ _ hmem => hmem⟩
      · rename_i hdisabled
        obtain rfl := Except.ok.inj h
        refine ⟨fun hsame => (by cases hsame), rfl, fun d _ hmem => ?_⟩
        -- The entry that is written over was disabled.
        have hat : document.entries[document.entries.findIdx
            fun entry => entry.definition.owner == definition.owner]? = some entry := by
          rw [← find?_eq_getElem?_findIdx]
          exact hfind
        refine mem_set_of_ne hmem hat ?_
        rintro rfl
        exact hdisabled rfl
  · split at h
    · cases h
    · obtain rfl := Except.ok.inj h
      refine ⟨fun hsame => (by cases hsame), rfl, fun d _ hmem => ?_⟩
      exact mem_append_left _ hmem

theorem spares_disable : Spares (fun d => d.owner ≠ owner) document (document.disable owner) := by
  unfold disable
  split
  · refine ⟨fun hsame => (by cases hsame), rfl, fun d hd hmem => ?_⟩
    obtain ⟨n, hn⟩ := mem_iff_getElem?.mp hmem
    refine mem_iff_getElem?.mpr ⟨n, ?_⟩
    rw [getElem?_modify, hn]
    split
    · rename_i hany hidx
      -- The entry that is disabled has the owner.
      obtain ⟨e, he, howner⟩ := any_eq_true.mp hany
      have hat := findIdx_getElem
        (w := findIdx_lt_length_of_exists (p := fun e => e.definition.owner == owner)
          ⟨e, he, howner⟩)
      obtain ⟨hlt, hget⟩ := List.getElem?_eq_some_iff.mp hn
      subst hidx
      rw [hget] at hat
      exact absurd (beq_iff_eq.mp hat) hd
    · rfl
  · exact ⟨fun _ => rfl, rfl, fun _ _ hmem => hmem⟩

theorem spares_remove
    (h : ∀ entry ∈ document.entries, entry.enabled = true → entry.definition.owner ≠ owner) :
    Spares (fun _ => True) document (document.remove owner) := by
  unfold remove
  dsimp only
  split
  · exact ⟨fun _ => rfl, rfl, fun _ _ hmem => hmem⟩
  · refine ⟨fun hsame => (by cases hsame), rfl, fun d _ hmem => ?_⟩
    exact mem_filter.mpr ⟨hmem, by simpa using h _ hmem rfl⟩

theorem wants_of_replayable (h : d ∈ document.replayable) : document.Wants d := by
  unfold replayable at h
  split at h
  · cases h
  · rename_i hpaused
    obtain ⟨⟨enabled, definition⟩, hmem, rfl⟩ := mem_map.mp h
    obtain ⟨hmem, henabled⟩ := mem_filter.mp hmem
    obtain rfl : enabled = true := henabled
    exact ⟨by simpa using hpaused, hmem⟩

end AlwaysOnDocument

/-! ### The invariant -/

/-- Whether the stage is going to take the owner of `d` down. -/
def Stage.Stops (d : AlwaysOnDefinition) : Stage → Prop
  | .removeStop kind profileId =>
    Owner.parse (removedOwner kind profileId) = Owner.parse d.owner
  | .cleanupStop => True
  | _ => False

/-- Nothing is wrong with an owner that `d` started: it should be up, or a request is going to
take it down, or some request has failed. -/
def AlwaysOnWorld.Excused (uid : Nat) (w : AlwaysOnWorld) (d : AlwaysOnDefinition) : Prop :=
  (w.store.loadUid uid).Wants d ∨ w.failed = true ∨ ∃ stage ∈ w.threads, stage.Stops d

structure AlwaysOnWorld.Agreeing (uid : Nat) (w : AlwaysOnWorld) : Prop where
  single : ∀ d ∈ w.started, w.core.journal.tally uid (Owner.parse d.owner) ≤ 1
  excused : ∀ d ∈ w.started, w.core.journal.lists uid d.owner = true → w.Excused uid d

/-- Whether the request still acts on the document that it decided on. -/
def Stage.UpToDate (document : AlwaysOnDocument) : Stage → Prop
  | .setApply definition => document.Wants definition
  | .resumeApply (definition :: _) => document.Wants definition
  | .removeForget owner =>
    ∀ entry ∈ document.entries, entry.enabled = true → entry.definition.owner ≠ owner
  | _ => True

instance (document : AlwaysOnDocument) : (stage : Stage) → Decidable (stage.UpToDate document)
  | .setApply definition | .resumeApply (definition :: _) =>
    inferInstanceAs (Decidable (document.Wants definition))
  | .removeForget owner => inferInstanceAs (Decidable (∀ entry ∈ document.entries, _ → _ ≠ owner))
  | .setStore _ | .removeDisable _ _ | .removeStop _ _ | .resumeStore | .resumeApply []
  | .cleanupLook | .cleanupPause | .cleanupStop => isTrue trivial

/-- No request acts on an outdated decision: a definition is applied only while it is stored,
enabled and not paused, and a removal forgets a definition only while nobody has enabled it
again. -/
def AlwaysOnAction.UpToDate (uid : Nat) (w : AlwaysOnWorld) : AlwaysOnAction → Prop
  | .advance i _ _ => ∀ stage, w.threads[i]? = some stage → stage.UpToDate (w.store.loadUid uid)
  | _ => True

/-- The bound of an apply: one entry for the owner of each of the definitions. Nothing is said
about other users. -/
def AlwaysOnWorld.allowance (uid : Nat) (j : Journal) (definitions : List AlwaysOnDefinition)
    (uid' : Nat) (owner : Owner) : Nat :=
  if uid' ≠ uid ∨ ∃ d ∈ definitions, Owner.parse d.owner = owner then
    max 1 (j.tally uid' owner)
  else j.tally uid' owner

instance (uid : Nat) (w : AlwaysOnWorld) :
    (action : AlwaysOnAction) → Decidable (action.UpToDate uid w)
  | .advance i _ _ =>
    inferInstanceAs (Decidable (∀ stage, w.threads[i]? = some stage → _))
  | .arrive _ | .deny _ | .replay _ _ | .drift _ _ => isTrue trivial

namespace AlwaysOnWorld.Agreeing

variable {uid i : Nat} {w : AlwaysOnWorld} {stage : Stage}
variable (h : w.Agreeing uid)
include h

theorem fail : (w.fail i).Agreeing uid := ⟨h.single, fun _ _ _ => .inr (.inl rfl)⟩

/-- A request that was not about to take down anything that is up may go on. -/
theorem leave {threads : List Stage}
    (hstage : ∀ d ∈ w.started, w.core.journal.lists uid d.owner = true → ¬stage.Stops d)
    (hthreads : ∀ other ∈ w.threads, other ≠ stage → other ∈ threads) :
    Agreeing uid { w with threads } := by
  refine ⟨h.single, fun d hd hlists => ?_⟩
  rcases h.excused d hd hlists with hwants | hfailed | ⟨other, hmem, hstops⟩
  · exact .inl hwants
  · exact .inr (.inl hfailed)
  · refine .inr (.inr ⟨other, hthreads other hmem ?_, hstops⟩)
    rintro rfl
    exact hstage d hd hlists hstops

theorem finish (hi : w.threads[i]? = some stage)
    (hstage : ∀ d ∈ w.started, w.core.journal.lists uid d.owner = true → ¬stage.Stops d) :
    (w.finish i).Agreeing uid :=
  h.leave hstage fun _ hmem hne => mem_eraseIdx_of_ne hmem hi hne

theorem goto {next : Stage} (hi : w.threads[i]? = some stage)
    (hstage : ∀ d ∈ w.started, w.core.journal.lists uid d.owner = true → ¬stage.Stops d) :
    (w.goto i next).Agreeing uid :=
  h.leave hstage fun _ hmem hne => mem_set_of_ne hmem hi hne

/-- A core closure that starts nothing. -/
theorem core {core : DaemonCore}
    (hle : Bounded (fun uid owner => w.core.journal.tally uid owner) core.journal) :
    Agreeing uid { w with core } := by
  refine ⟨fun d hd => le_trans (hle uid _) (h.single d hd), fun d hd hlists => ?_⟩
  refine h.excused d hd (Journal.lists_iff.mpr ?_)
  exact lt_of_lt_of_le (Journal.lists_iff.mp hlists) (hle uid _)

/-- A store closure. A definition that it disables or pauses has a request that takes its owner
down. -/
theorem saveChanged {edit : Bool × AlwaysOnDocument}
    (hsame : edit.1 = false → edit.2 = w.store.loadUid uid)
    (hwants : ∀ d, (w.store.loadUid uid).Wants d →
      edit.2.Wants d ∨ ∃ stage ∈ w.threads, stage.Stops d) :
    (w.saveChanged uid edit).Agreeing uid := by
  refine ⟨h.single, fun d hd hlists => ?_⟩
  rcases h.excused d hd hlists with hdoc | hother
  · rcases hwants d hdoc with hdoc' | hstops
    · refine .inl ?_
      show ((w.store.saveChanged uid edit).loadUid uid).Wants d
      rw [AlwaysOnStore.loadUid_saveChanged hsame]
      exact hdoc'
    · exact .inr (.inr hstops)
  · exact .inr hother

/-- Applying definitions that should be up. -/
theorem apply {core : DaemonCore} {definitions : List AlwaysOnDefinition}
    (hwants : ∀ d ∈ definitions, (w.store.loadUid uid).Wants d)
    (hle : Bounded (allowance uid w.core.journal definitions) core.journal) :
    (w.apply uid core definitions).Agreeing uid := by
  -- An owner that came into the journal belongs to one of the definitions.
  have hfresh : ∀ d : AlwaysOnDefinition, w.core.journal.lists uid d.owner = false →
      core.journal.lists uid d.owner = true →
      ∃ other ∈ launched uid w.core.journal core.journal definitions,
        Owner.parse other.owner = Owner.parse d.owner := by
    intro d hbefore hafter
    have hzero : w.core.journal.tally uid (Owner.parse d.owner) = 0 := by
      have hnot : ¬0 < w.core.journal.tally uid (Owner.parse d.owner) := by
        rw [← Journal.lists_iff, hbefore]
        decide
      omega
    have hbound := hle uid (Owner.parse d.owner)
    rw [allowance, hzero] at hbound
    split at hbound
    · rename_i hallowed
      obtain ⟨other, hother, heq⟩ := hallowed.resolve_left fun hne => hne rfl
      refine ⟨other, mem_filter.mpr ⟨hother, ?_⟩, heq⟩
      rw [Journal.lists, heq, ← Journal.lists, hbefore, Journal.lists, heq, ← Journal.lists, hafter]
      rfl
    · have hpos := Journal.lists_iff.mp hafter
      omega
  refine ⟨fun d hd => ?_, fun d hd hlists => ?_⟩
  · -- At most one entry was there, and an apply adds the first one only.
    have hone : w.core.journal.tally uid (Owner.parse d.owner) ≤ 1 := by
      rcases mem_append.mp hd with hd | hd
      · exact h.single d (mem_filter.mp hd).1
      · have hnew := (mem_filter.mp hd).2
        simp only [and_eq_true, not_eq_true'] at hnew
        have hnot : ¬0 < w.core.journal.tally uid (Owner.parse d.owner) := by
          rw [← Journal.lists_iff, hnew.1]
          decide
        omega
    have hbound := hle uid (Owner.parse d.owner)
    rw [allowance] at hbound
    show core.journal.tally uid (Owner.parse d.owner) ≤ 1
    split at hbound <;> omega
  · rcases mem_append.mp hd with hd | hd
    · obtain ⟨hd, hkept⟩ := mem_filter.mp hd
      have hbefore : w.core.journal.lists uid d.owner = true := by
        by_contra hbefore
        obtain ⟨other, hother, heq⟩ := hfresh d (eq_false_of_not_eq_true hbefore) hlists
        have hany : (launched uid w.core.journal core.journal definitions).any
            (fun other => Owner.parse other.owner == Owner.parse d.owner) = true :=
          any_eq_true.mpr ⟨other, hother, by simp [heq]⟩
        rw [hany] at hkept
        cases hkept
      exact h.excused d hd hbefore
    · exact .inl (hwants d (mem_filter.mp hd).1)

end AlwaysOnWorld.Agreeing

/-! ### One step -/

section
variable {lib : WireGuardCrates} {uid i : Nat} {w w' : AlwaysOnWorld} {stage : Stage}
  {fault : Option StoreFault} {schedule : List (Verdict Fault)}

open AlwaysOnWorld

variable {α : Type} {m : Prog α}

/-- What holds at the two ends of a program holds after a run that was not cut off. -/
theorem onJournal_of_run {P : Journal → Prop} {core : DaemonCore}
    {o : Outcome IoError α} {core' : DaemonCore} {rest : List (Verdict Fault)}
    (h : wp Any m (fun _ => OnJournal P) (fun _ => OnJournal P) (fun _ => True) core)
    (hrun : m core schedule = (o, core', rest)) (halive : o ≠ .crash) : P core'.journal := by
  cases o with
  | ok a => exact of_wp_ok h hrun
  | err e => exact of_wp_err h hrun
  | crash => exact absurd rfl halive

theorem bounded_allowance (j : Journal) (definitions : List AlwaysOnDefinition) :
    Bounded (allowance uid j definitions) j := by
  intro uid' owner
  unfold allowance
  split
  · exact le_max_right _ _
  · exact le_refl _

theorem one_le_allowance {j : Journal} {definitions : List AlwaysOnDefinition} {uid' : Nat}
    {owner : Owner} (h : uid' ≠ uid ∨ ∃ d ∈ definitions, Owner.parse d.owner = owner) :
    1 ≤ allowance uid j definitions uid' owner := by
  rw [allowance, if_pos h]
  exact le_max_left _ _

variable (h : w.Agreeing uid)
include h

theorem agreeing_applyOne {definition : AlwaysOnDefinition}
    (hwants : (w.store.loadUid uid).Wants definition)
    (hstep : w.applyOne lib uid definition schedule = some w') :
    w'.Agreeing uid ∧ w'.threads = w.threads := by
  have hbound : ∀ {o core rest}, applyDefinition lib uid definition w.core schedule =
      (o, core, rest) → o ≠ .crash →
      Bounded (allowance uid w.core.journal [definition]) core.journal := by
    intro o core rest hrun halive
    refine onJournal_of_run (within_applyDefinition ?_ w.core (bounded_allowance _ _)) hrun halive
    exact one_le_allowance (.inr ⟨definition, by simp, rfl⟩)
  unfold applyOne at hstep
  split at hstep
  · cases hstep
  · rename_i halive hrun
    obtain rfl := Option.some.inj hstep
    refine ⟨h.apply (fun d hd => ?_) (hbound hrun halive), rfl⟩
    obtain rfl := mem_singleton.mp hd
    exact hwants

/-- A store closure with a second read. -/
theorem agreeing_change {edit : Bool × AlwaysOnDocument} {next : AlwaysOnWorld → AlwaysOnWorld}
    (hsave : (w.saveChanged uid edit).Agreeing uid)
    (hnext : (next (w.saveChanged uid edit)).Agreeing uid) :
    (w.change i uid fault edit next).Agreeing uid := by
  match fault with
  | some .write => exact h.fail
  | some .reread => exact hsave.fail
  | none => exact hnext

/-- A core closure that takes entries away. `hnext` is what follows when it returns. -/
theorem agreeing_close {next : α → AlwaysOnWorld → AlwaysOnWorld}
    (hm : ∀ b, Keeps Any (OnJournal (Bounded b)) m)
    (hnext : ∀ a core rest, m w.core schedule = (.ok a, core, rest) →
      Agreeing uid { w with core } → (next a { w with core }).Agreeing uid)
    (hstep : w.close i (m w.core schedule) next = some w') : w'.Agreeing uid := by
  have hkeeps := Within.of_keeps (hm fun uid owner => w.core.journal.tally uid owner) w.core
    fun _ _ => le_refl _
  unfold close at hstep
  split at hstep
  · rename_i a core rest hrun
    obtain rfl := Option.some.inj hstep
    exact hnext a core rest hrun (h.core (onJournal_of_run hkeeps hrun fun hbad => (by cases hbad)))
  · rename_i e core rest hrun
    obtain rfl := Option.some.inj hstep
    exact (h.core (onJournal_of_run hkeeps hrun fun hbad => (by cases hbad))).fail
  · cases hstep

theorem agreeing_removeStop {kind : AlwaysOnKind} {profileId : String}
    (hi : w.threads[i]? = some (.removeStop kind profileId))
    (hstep : w.advance lib uid i fault schedule (.removeStop kind profileId) = some w') :
    w'.Agreeing uid := by
  refine agreeing_close h (fun _ => keeps_stopOwner kind profileId) ?_ hstep
  intro stopped core rest hrun hcore
  refine hcore.goto hi fun d hd hlists hstops => ?_
  -- The one entry of the owner is gone.
  have hgone := of_wp_ok wp_stopOwner hrun
  rw [show Owner.parse (removedOwner kind profileId) = Owner.parse d.owner from hstops] at hgone
  have hsingle := h.single d hd
  have hpos : 0 < core.journal.tally uid (Owner.parse d.owner) := Journal.lists_iff.mp hlists
  omega

theorem agreeing_cleanupStop (hi : w.threads[i]? = some .cleanupStop)
    (hstep : w.advance lib uid i fault schedule .cleanupStop = some w') : w'.Agreeing uid := by
  simp only [advance] at hstep
  refine agreeing_close h (fun b => (Bounded.shrinking b).cleanupUid uid) ?_ hstep
  intro result core rest hrun hcore
  split
  · rename_i hnone
    refine hcore.finish hi fun d hd hlists _ => ?_
    have hzero := of_wp_ok wp_cleanupUid_cleared hrun (by simpa using hnone) (Owner.parse d.owner)
    have hpos : 0 < core.journal.tally uid (Owner.parse d.owner) := Journal.lists_iff.mp hlists
    omega
  · exact hcore.fail

theorem agreeing_advance (hi : w.threads[i]? = some stage)
    (hdate : stage.UpToDate (w.store.loadUid uid))
    (hstep : w.advance lib uid i fault schedule stage = some w') : w'.Agreeing uid := by
  cases stage with
  | setStore definition =>
    simp only [advance] at hstep
    split at hstep
    · obtain rfl := Option.some.inj hstep
      exact h.fail
    · rename_i edit hinsert
      obtain rfl := Option.some.inj hstep
      have hspares := AlwaysOnDocument.spares_insert hinsert
      have hsave := h.saveChanged hspares.unchanged fun d hd => .inl (hspares.wants trivial hd)
      have hi' : (w.saveChanged uid edit).threads[i]? = some (.setStore definition) := hi
      refine agreeing_change h hsave ?_
      split
      · exact hsave.finish hi' fun _ _ _ hstops => hstops
      · exact hsave.goto hi' fun _ _ _ hstops => hstops
  | setApply definition =>
    obtain ⟨w₁, hone, rfl⟩ := map_eq_some_iff.mp hstep
    obtain ⟨hw₁, hthreads⟩ := agreeing_applyOne h hdate hone
    have hi' : w₁.threads[i]? = some (.setApply definition) := by rw [hthreads, hi]
    exact hw₁.finish hi' fun _ _ _ hstops => hstops
  | removeDisable kind profileId =>
    simp only [advance] at hstep
    split at hstep
    · obtain rfl := Option.some.inj hstep
      exact h.fail
    · split at hstep
      · obtain rfl := Option.some.inj hstep
        have hspares : (w.store.loadUid uid).Spares (fun d => d.owner ≠ removedOwner kind profileId)
            ((w.store.loadUid uid).disable (removedOwner kind profileId)) :=
          AlwaysOnDocument.spares_disable
        have hgoto : (w.goto i (.removeStop kind profileId)).Agreeing uid :=
          h.goto hi fun _ _ _ hstops => hstops
        refine hgoto.saveChanged hspares.unchanged fun d hd => ?_
        -- The definition that is disabled has this request to take its owner down.
        by_cases howner : d.owner = removedOwner kind profileId
        · refine .inr ⟨_, List.mem_set (List.getElem?_eq_some_iff.mp hi).1 _, ?_⟩
          show Owner.parse (removedOwner kind profileId) = Owner.parse d.owner
          rw [howner]
        · exact .inl (hspares.wants howner hd)
      · obtain rfl := Option.some.inj hstep
        exact h.finish hi fun _ _ _ hstops => hstops
  | removeStop kind profileId => exact agreeing_removeStop h hi hstep
  | removeForget owner =>
    simp only [advance] at hstep
    split at hstep
    · obtain rfl := Option.some.inj hstep
      exact h.fail
    · obtain rfl := Option.some.inj hstep
      have hspares := AlwaysOnDocument.spares_remove hdate
      have hsave := h.saveChanged hspares.unchanged fun d hd => .inl (hspares.wants trivial hd)
      have hi' : (w.saveChanged uid ((w.store.loadUid uid).remove owner)).threads[i]? =
          some (.removeForget owner) := hi
      exact hsave.finish hi' fun _ _ _ hstops => hstops
  | resumeStore =>
    simp only [advance] at hstep
    obtain rfl := Option.some.inj hstep
    have hsave : (w.saveChanged uid (true, (w.store.loadUid uid).resume)).Agreeing uid :=
      h.saveChanged (fun hsame => (by cases hsame)) fun d hd => .inl ⟨rfl, hd.2⟩
    have hi' : (w.saveChanged uid (true, (w.store.loadUid uid).resume)).threads[i]? =
        some .resumeStore := hi
    exact agreeing_change h hsave (hsave.goto hi' fun _ _ _ hstops => hstops)
  | resumeApply definitions =>
    cases definitions with
    | nil =>
      obtain rfl := Option.some.inj hstep
      exact h.finish hi fun _ _ _ hstops => hstops
    | cons definition rest =>
      obtain ⟨w₁, hone, rfl⟩ := map_eq_some_iff.mp hstep
      obtain ⟨hw₁, hthreads⟩ := agreeing_applyOne h hdate hone
      have hi' : w₁.threads[i]? = some (.resumeApply (definition :: rest)) := by
        rw [hthreads, hi]
      exact hw₁.goto hi' fun _ _ _ hstops => hstops
  | cleanupLook =>
    simp only [advance] at hstep
    split at hstep
    · obtain rfl := Option.some.inj hstep
      exact h.fail
    · obtain rfl := Option.some.inj hstep
      exact h.goto hi fun _ _ _ hstops => hstops
  | cleanupPause =>
    simp only [advance] at hstep
    split at hstep
    · obtain rfl := Option.some.inj hstep
      exact h.fail
    · obtain rfl := Option.some.inj hstep
      have hgoto : (w.goto i .cleanupStop).Agreeing uid := h.goto hi fun _ _ _ hstops => hstops
      show ((w.goto i .cleanupStop).saveChanged uid (true, (w.store.loadUid uid).pause)).Agreeing uid
      refine hgoto.saveChanged (fun hsame => (by cases hsame)) fun d hd => .inr ?_
      exact ⟨_, List.mem_set (List.getElem?_eq_some_iff.mp hi).1 _, trivial⟩
  | cleanupStop => exact agreeing_cleanupStop h hi hstep

theorem agreeing_replay {reads : StoreReads}
    (hstep : w.step lib uid (.replay reads schedule) = some w') : w'.Agreeing uid := by
  simp only [AlwaysOnWorld.step] at hstep
  split at hstep
  · cases hstep
  · rename_i o core rest halive hrun
    obtain rfl := Option.some.inj hstep
    refine h.apply (fun d hd => AlwaysOnDocument.wants_of_replayable hd) ?_
    refine onJournal_of_run (within_replay (fun uid' document hmem d hd => ?_) w.core
      (bounded_allowance _ _)) hrun halive
    refine one_le_allowance ?_
    by_cases huid : uid' = uid
    · subst huid
      rw [AlwaysOnStore.loadUid_of_mem hmem]
      exact .inr ⟨d, hd, rfl⟩
    · exact .inl huid

theorem agreeing_step {action : AlwaysOnAction} (hdate : action.UpToDate uid w)
    (hstep : w.step lib uid action = some w') : w'.Agreeing uid := by
  cases action with
  | arrive request =>
    simp only [AlwaysOnWorld.step] at hstep
    split at hstep
    · obtain rfl := Option.some.inj hstep
      refine ⟨h.single, fun d hd hlists => (h.excused d hd hlists).imp_right (Or.imp_right ?_)⟩
      rintro ⟨stage, hmem, hstops⟩
      exact ⟨stage, mem_append_left _ hmem, hstops⟩
    · obtain rfl := Option.some.inj hstep
      exact ⟨h.single, fun _ _ _ => .inr (.inl rfl)⟩
  | deny i =>
    simp only [AlwaysOnWorld.step] at hstep
    split at hstep
    · split at hstep
      · obtain rfl := Option.some.inj hstep
        exact h.fail
      · cases hstep
    · cases hstep
  | advance i fault schedule =>
    simp only [AlwaysOnWorld.step] at hstep
    split at hstep
    · rename_i stage hi
      exact agreeing_advance h hi (hdate stage hi) hstep
    · cases hstep
  | replay reads schedule => exact agreeing_replay h hstep
  | drift view kernel =>
    obtain rfl := Option.some.inj hstep
    exact h.core fun _ _ => le_refl _

end

/-! ### Every run -/

/-- An owner has an applied entry. -/
def Journal.AppliedOwner (j : Journal) (uid : Nat) (owner : String) : Prop :=
  ∃ entry ∈ j, entry.uid = uid ∧ entry.owner = Owner.parse owner ∧ entry.state = .applied

instance (j : Journal) (uid : Nat) (owner : String) : Decidable (j.AppliedOwner uid owner) :=
  inferInstanceAs (Decidable (∃ entry ∈ j, _))

theorem Journal.AppliedOwner.lists {j : Journal} {uid : Nat} {owner : String}
    (h : j.AppliedOwner uid owner) : j.lists uid owner = true := by
  obtain ⟨entry, hmem, huid, howner, -⟩ := h
  rw [Journal.lists, isSome_iff_ne_none, ne_eq, Journal.position_eq_none]
  exact fun hnone => hnone entry hmem ⟨huid, howner⟩

/-- In every run in which no request acts on an outdated decision, once all requests are done
and none has failed, an owner that a definition started is applied only while the definition is
stored and enabled and the document is not paused. -/
theorem always_on_agrees (lib : WireGuardCrates) (uid : Nat) (store : AlwaysOnStore)
    (core : DaemonCore) (w : AlwaysOnWorld)
    (hrun : Steps (AlwaysOnWorld.step lib uid) (fun w action => action.UpToDate uid w)
      (.fresh store core) w) (hdone : w.threads = []) (hok : w.failed = false) :
    ∀ d ∈ w.started, w.core.journal.AppliedOwner uid d.owner → (w.store.loadUid uid).Wants d := by
  have hfresh : (AlwaysOnWorld.fresh store core).Agreeing uid :=
    ⟨fun _ hd => (by cases hd), fun _ hd => (by cases hd)⟩
  have h : w.Agreeing uid :=
    hrun.invariant hfresh fun _ _ _ hagree hdate hstep => agreeing_step hagree hdate hstep
  intro d hd happlied
  rcases h.excused d hd happlied.lists with hwants | hfailed | ⟨stage, hmem, -⟩
  · exact hwants
  · rw [hok] at hfailed
    cases hfailed
  · rw [hdone] at hmem
    cases hmem

/-! ### A profile that comes up after it was removed -/

def depotProfile : AlwaysOnDefinition :=
  .staticRoutes
    { profileId := "depot", interfaceName := "eth0", routes := [⟨.v4 0x0a140000 16, 5, none⟩] }

/-- A machine with one link. -/
def depotCore : DaemonCore :=
  .fresh ⟨.empty, .empty, .empty, []⟩
    { View.bare with linkIndex := fun name => .ok (if name = "eth0" then some 2 else none) } .all

/-- The profile is stored. Before it is applied, a removal disables it, finds nothing to stop and
forgets it. -/
def depotRun : List AlwaysOnAction :=
  [ .arrive (.set depotProfile), .advance 0 none []
    , .arrive (.remove .staticRoutes "depot"), .advance 1 none [], .advance 1 none []
    , .advance 1 none [], .advance 0 none [] ]

def depotAfter : AlwaysOnWorld :=
  (runActions (AlwaysOnWorld.step officeCrates 1000) (.fresh Sorted.empty depotCore) depotRun).getD
    (.fresh Sorted.empty depotCore)

/-- All requests are done and none has failed. The routes of the profile are applied, and the
store does not know it. -/
theorem removed_owner_started :
    Steps (AlwaysOnWorld.step officeCrates 1000) (fun _ _ => True) (.fresh Sorted.empty depotCore)
        depotAfter ∧
      depotAfter.threads = [] ∧ depotAfter.failed = false ∧ depotProfile ∈ depotAfter.started ∧
      depotAfter.core.journal.AppliedOwner 1000 depotProfile.owner ∧
      ¬(depotAfter.store.loadUid 1000).Wants depotProfile := by
  have hrun : (runActions (AlwaysOnWorld.step officeCrates 1000) (.fresh Sorted.empty depotCore)
      depotRun).isSome = true := by
    decide +kernel
  refine ⟨?_, ?_, ?_, ?_, ?_, ?_⟩
  · refine steps_of_run (allAdmitted_true _ depotRun) ?_
    obtain ⟨w, hw⟩ := Option.isSome_iff_exists.mp hrun
    rw [depotAfter, hw]
    rfl
  · decide +kernel
  · decide +kernel
  · decide +kernel
  · decide +kernel
  · decide +kernel

def depotSet : List AlwaysOnAction :=
  [.arrive (.set depotProfile), .advance 0 none [], .advance 0 none []]

def depotUp : AlwaysOnWorld :=
  (runActions (AlwaysOnWorld.step officeCrates 1000) (.fresh Sorted.empty depotCore) depotSet).getD
    (.fresh Sorted.empty depotCore)

/-- Nothing comes between the two steps: the profile is up, and stored. -/
theorem stored_owner_started :
    depotUp.core.journal.AppliedOwner 1000 depotProfile.owner ∧
      (depotUp.store.loadUid 1000).Wants depotProfile := by
  have hsome : (runActions (AlwaysOnWorld.step officeCrates 1000) (.fresh Sorted.empty depotCore)
      depotSet).isSome = true := by
    decide +kernel
  have hrun : Steps (AlwaysOnWorld.step officeCrates 1000)
      (fun w action => action.UpToDate 1000 w) (.fresh Sorted.empty depotCore) depotUp := by
    have hall : AllAdmitted (AlwaysOnWorld.step officeCrates 1000)
        (fun w action => action.UpToDate 1000 w) (.fresh Sorted.empty depotCore) depotSet := by
      decide +kernel
    refine steps_of_run hall ?_
    obtain ⟨w, hw⟩ := Option.isSome_iff_exists.mp hsome
    rw [depotUp, hw]
    rfl
  have hup : depotUp.core.journal.AppliedOwner 1000 depotProfile.owner := by decide +kernel
  exact ⟨hup, always_on_agrees officeCrates 1000 Sorted.empty depotCore depotUp hrun (by decide +kernel)
    (by decide +kernel) depotProfile (by decide +kernel) hup⟩

end NetOrchestrator.Daemon
