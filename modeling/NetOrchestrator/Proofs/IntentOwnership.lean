import NetOrchestrator.Lib.Runs
import NetOrchestrator.Proofs.IntentRecords

/-!
# `Proofs.IntentOwnership`: whose routes the intents touch

The helper deletes by destination, on the word of an earlier reading of the table, and drops
its record whether or not there was something to delete. `Owned` is what makes this work out:
a row that the helper added is on the books, a row of somebody else never looks like what is on
the books, and the reading shows what is there. It holds as long as nothing is lost (`clean`).

`route_ownership` is the result over whole runs: nothing is deleted that the helper did not add
itself, and what it added and still stands is recorded.
-/

namespace NetOrchestrator.Macos

open Net Lib Lib.Call List Option Bool Verdict Table
open Daemon (NetIntentSetParams ConditionalRouteRule)
open NetOrchestrator.Core (NetText NetworkView WantedRoute Derivation RouteEntry judge)

/-! ### The books -/

/-- What is recorded or about to be withdrawn. -/
def IntentWorld.onBooks (w : IntentWorld) : List RouteOp := w.recorded ++ w.withdrawing

/-- The rows, the books and the last reading of the table agree. `late` allows for rows that
the helper added after the reading, at destinations that were free in it. -/
structure Owned (late : Bool) (w : IntentWorld) : Prop where
  rows : ∀ row ∈ w.table, ∀ op, row.owner = some op →
    op ∈ w.onBooks ∧ op.net = row.net ∧ op.target.matches row.entry = true
  alike : ∀ row ∈ w.table, row.owner = none → ∀ op ∈ w.onBooks, op.net = row.net →
    op.target.matches row.entry = false
  seen : ∀ op ∈ w.onBooks, w.shown op = true → ∀ row ∈ w.table, row.net = op.net →
    row.owner ≠ none
  fresh : ∀ entries, w.dump = some entries → ∀ row ∈ w.table, row.owner ≠ none →
    row.entry ∈ entries ∨ late = true ∧ ∀ entry ∈ entries, entry.destination.trunc ≠ row.net
  gone : ∀ row ∈ w.deleted, row.owner ≠ none

/-- As long as nothing was lost. -/
def Kept (late : Bool) (w : IntentWorld) : Prop := w.clean = true → Owned late w

variable {w : IntentWorld}

theorem shown_iff {op : RouteOp} : w.shown op = true ↔ ∃ entries, w.dump = some entries ∧
      judge (wantedOf op) true entries = .present := by
  simp [IntentWorld.shown, Option.any_eq_true, wantedOf]

variable {late : Bool} {w w' : IntentWorld}

/-- Nothing that `Owned` reads differs, up to the order of the books. -/
theorem Owned.congr (h : Owned late w) (htable : w'.table = w.table) (hdump : w'.dump = w.dump)
    (hdeleted : w'.deleted = w.deleted) (hbooks : ∀ op, op ∈ w'.onBooks ↔ op ∈ w.onBooks) :
    Owned late w' where
  rows := by
    intro row hrow op howner
    obtain ⟨hmem, hnet⟩ := h.rows row (htable ▸ hrow) op howner
    exact ⟨(hbooks op).mpr hmem, hnet⟩
  alike := by
    intro row hrow howner op hop
    exact h.alike row (htable ▸ hrow) howner op ((hbooks op).mp hop)
  seen := by
    intro op hop hshown row hrow
    have hshown' : w.shown op = true := by
      rw [IntentWorld.shown, ← hdump]
      exact hshown
    exact h.seen op ((hbooks op).mp hop) hshown' row (htable ▸ hrow)
  fresh := by
    intro entries hentries row hrow
    exact h.fresh entries (hdump ▸ hentries) row (htable ▸ hrow)
  gone := by
    intro row hrow
    exact h.gone row (hdeleted ▸ hrow)

/-- The table with fewer rows. -/
theorem Owned.erase (h : Owned late w) (net : IpNet) :
    Owned late { w with table := w.table.erase net } where
  rows := fun row hrow => h.rows row (mem_erase.mp hrow).1
  alike := fun row hrow => h.alike row (mem_erase.mp hrow).1
  seen := fun op hop hshown row hrow => h.seen op hop hshown row (mem_erase.mp hrow).1
  fresh := fun entries hentries row hrow => h.fresh entries hentries row (mem_erase.mp hrow).1
  gone := h.gone

/-! ### Others -/

variable {entry : RouteEntry}

theorem fair_iff : w.fair entry = true ↔ ∀ op ∈ w.onBooks, op.net = entry.destination.trunc →
      op.target.matches entry = false ∧ w.shown op = false := by
  simp only [IntentWorld.fair, IntentWorld.onBooks, List.all_eq_true, or_eq_true,
    bne_iff_ne, and_eq_true, not_eq_true']
  constructor
  · intro h op hop hnet
    exact (h op hop).resolve_left fun hne => hne hnet
  · intro h op hop
    by_cases hnet : op.net = entry.destination.trunc
    · exact .inr (h op hop hnet)
    · exact .inl hnet

theorem Owned.foreignAdd (h : Owned late w)
    (hfree : w.table.has entry.destination.trunc = false) (hfair : w.fair entry = true) :
    Owned late { w with table := w.table.insert ⟨entry, none⟩ } := by
  have hmem : ∀ row, row ∈ w.table.insert ⟨entry, none⟩ → row ∈ w.table ∨ row = ⟨entry, none⟩ :=
    fun row hrow => (mem_insert hfree).mp hrow
  have hentry := fair_iff.mp hfair
  constructor
  · intro row hrow op howner
    rcases hmem row hrow with hold | rfl
    · exact h.rows row hold op howner
    · cases howner
  · intro row hrow howner op hop hnet
    rcases hmem row hrow with hold | rfl
    · exact h.alike row hold howner op hop hnet
    · exact (hentry op hop hnet).1
  · intro op hop hshown row hrow hnet
    rcases hmem row hrow with hold | rfl
    · exact h.seen op hop hshown row hold hnet
    · have hunseen := (hentry op hop hnet.symm).2
      exact absurd (hunseen.symm.trans hshown) (by decide)
  · intro entries hentries row hrow howner
    rcases hmem row hrow with hold | rfl
    · exact h.fresh entries hentries row hold howner
    · exact absurd rfl howner
  · exact h.gone

theorem Kept.foreign (h : Kept late w) (edit : ForeignEdit) : Kept late (w.foreign edit) := by
  cases edit with
  | add entry =>
    unfold IntentWorld.foreign
    dsimp only
    split
    · exact h
    · rename_i hfree
      intro hclean
      obtain ⟨hclean, hfair⟩ := and_eq_true_iff.mp hclean
      have hadd := (h hclean).foreignAdd (by simpa using hfree) hfair
      exact hadd.congr rfl rfl rfl fun _ => Iff.rfl
  | remove net => exact fun hclean => (h hclean).erase net.trunc
  | view view => exact fun hclean => (h hclean).congr rfl rfl rfl fun _ => Iff.rfl
  | devices deviceOf => exact fun hclean => (h hclean).congr rfl rfl rfl fun _ => Iff.rfl

/-- What others cannot change, the last reading apart. -/
structure SameStore (w w' : IntentWorld) : Prop where
  intents : w'.intents = w.intents
  rules : w'.rules = w.rules
  withdrawing : w'.withdrawing = w.withdrawing
  clean : w'.clean = true → w.clean = true

theorem SameStore.refl (w : IntentWorld) : SameStore w w := ⟨rfl, rfl, rfl, id⟩

theorem SameStore.trans {w w' w'' : IntentWorld} (h : SameStore w w') (h' : SameStore w' w'') :
    SameStore w w'' :=
  ⟨h'.intents.trans h.intents, h'.rules.trans h.rules, h'.withdrawing.trans h.withdrawing,
    fun hclean => h.clean (h'.clean hclean)⟩

theorem SameStore.installed (h : SameStore w w') (slot : Slot) :
    w'.installed slot = w.installed slot := by
  cases slot with
  | intent index => simp only [IntentWorld.installed, h.intents]
  | rule index => simp only [IntentWorld.installed, h.rules]

theorem SameStore.onBooks (h : SameStore w w') : w'.onBooks = w.onBooks := by
  simp only [IntentWorld.onBooks, IntentWorld.recorded, h.intents, h.rules, h.withdrawing]

theorem sameStore_foreign (w : IntentWorld) (edit : ForeignEdit) :
    SameStore w (w.foreign edit) ∧ (w.foreign edit).dump = w.dump := by
  cases edit with
  | add entry =>
    unfold IntentWorld.foreign
    dsimp only
    split
    · exact ⟨.refl w, rfl⟩
    · exact ⟨⟨rfl, rfl, rfl, fun hclean => (and_eq_true_iff.mp hclean).1⟩, rfl⟩
  | remove net => exact ⟨⟨rfl, rfl, rfl, id⟩, rfl⟩
  | view view => exact ⟨⟨rfl, rfl, rfl, id⟩, rfl⟩
  | devices deviceOf => exact ⟨⟨rfl, rfl, rfl, id⟩, rfl⟩

/-- `w'` is `w` after others had their turn. -/
structure Disturbed (late : Bool) (w w' : IntentWorld) : Prop where
  kept : Kept late w'
  store : SameStore w w'
  dump : w'.dump = w.dump

theorem Disturbed.trans {w w' w'' : IntentWorld} (h : Disturbed late w w')
    (h' : Disturbed late w' w'') : Disturbed late w w'' :=
  ⟨h'.kept, h.store.trans h'.store, h'.dump.trans h.dump⟩

theorem disturbed_interfere (h : Kept late w) : Disturbed late w w.interfere := by
  have hfold : ∀ (edits : List ForeignEdit) (v : IntentWorld), Kept late v →
      Disturbed late v (edits.foldl IntentWorld.foreign v) := by
    intro edits
    induction edits with
    | nil => exact fun v hv => ⟨hv, .refl v, rfl⟩
    | cons edit rest ih =>
      intro v hv
      have hedit := sameStore_foreign v edit
      exact Disturbed.trans ⟨hv.foreign edit, hedit.1, hedit.2⟩ (ih _ (hv.foreign edit))
  unfold IntentWorld.interfere
  split
  · exact ⟨h, .refl w, rfl⟩
  · rename_i edits rest hscript
    have hdone := hfold edits w h
    exact ⟨fun hclean => (hdone.kept hclean).congr rfl rfl rfl fun _ => Iff.rfl,
      ⟨hdone.store.intents, hdone.store.rules, hdone.store.withdrawing, hdone.store.clean⟩,
      hdone.dump⟩

/-! ### System calls -/

section
variable {late : Bool} {w : IntentWorld} {E : HelperError → IntentWorld → Prop} {op : RouteOp}

theorem wp_syscall {α : Type} {act : IntentWorld → Except HelperError α × IntentWorld}
    {Q : α → IntentWorld → Prop} (hfail : E .io w)
    (hok : ∀ a w', act w.interfere = (.ok a, w') → Q a w')
    (herr : ∀ e w', act w.interfere = (.error e, w') → E e w') :
    wp Any (syscall act) Q E (fun _ => True) w :=
  wp_step (fun _ => trivial) (fun _ _ => hfail) hok herr

theorem wp_probeView (h : Kept late w) :
    wp Any probeView (fun _ => Disturbed late w) E (fun _ => True) w := by
  apply wp_tried
  apply wp_syscall
  · exact wp_pure ⟨h, .refl w, rfl⟩
  · intro view w' hrun
    cases hrun
    exact wp_pure (disturbed_interfere h)
  · intro e w' hrun
    cases hrun

/-- A reading of the table makes up for whatever the helper added since the last one. -/
theorem Owned.read (h : Owned late w) :
    Owned false { w with dump := some (routeEntries w.table) } where
  rows := h.rows
  alike := h.alike
  seen := by
    intro op hop hshown row hrow hnet howner
    obtain ⟨entries, hentries, hpresent⟩ := shown_iff.mp hshown
    cases hentries
    obtain ⟨entry, hentry, hdest, hmatch⟩ := judge_present_iff.mp hpresent
    obtain ⟨row', hrow', rfl⟩ := mem_map.mp hentry
    -- The matching entry is the row: there is one row a destination.
    have hsame : row' = row := eq_of_key_eq hrow' hrow (hdest.trans hnet.symm)
    subst hsame
    exact absurd (h.alike row' hrow howner op hop hnet.symm) (by simpa [wantedOf] using hmatch)
  fresh := by
    intro entries hentries row hrow _
    cases hentries
    exact .inl (mem_map_of_mem hrow)
  gone := h.gone

theorem Owned.unread (h : Owned late w) : Owned false { w with dump := none } :=
  { h with
    seen := by
      intro op _ hshown
      simp [IntentWorld.shown] at hshown
    fresh := by
      intro entries hentries
      cases hentries }

theorem wp_probeRoutes (h : Kept late w) : wp Any probeRoutes
      (fun entries w' => Kept false w' ∧ SameStore w w' ∧ w'.dump.getD [] = entries) E
      (fun _ => True) w := by
  apply wp_tried
  apply wp_syscall
  · apply wp_write
    exact wp_pure ⟨fun hclean => (h hclean).unread, ⟨rfl, rfl, rfl, id⟩, rfl⟩
  · intro entries w' hrun
    cases hrun
    have hturn := disturbed_interfere h
    exact wp_pure ⟨fun hclean => (hturn.kept hclean).read,
      ⟨hturn.store.intents, hturn.store.rules, hturn.store.withdrawing, hturn.store.clean⟩, rfl⟩
  · intro e w' hrun
    cases hrun

theorem wp_saveIntents (h : Kept late w) :
    wp Any saveIntents (fun _ => Disturbed late w) (fun _ => Disturbed late w)
      (fun _ => True) w := by
  apply wp_syscall
  · exact ⟨h, .refl w, rfl⟩
  · intro _ w' hrun
    cases hrun
    have hturn := disturbed_interfere h
    exact ⟨fun hclean => (hturn.kept hclean).congr rfl rfl rfl fun _ => Iff.rfl,
      ⟨hturn.store.intents, hturn.store.rules, hturn.store.withdrawing, hturn.store.clean⟩,
      hturn.dump⟩
  · intro e w' hrun
    cases hrun

/-- A route that the helper added: the destination was free, others had their turn before. -/
structure Added (late : Bool) (op : RouteOp) (w w' : IntentWorld) : Prop where
  turn : ∃ v, Disturbed late w v ∧ v.table.has op.net = false ∧
    w' = { v with table := v.table.insert (op.row v.deviceOf) }

theorem kept_log (h : Kept late w) (command : RouteCommand) : Kept late (logCommand command w) :=
  fun hclean => (h hclean).congr rfl rfl rfl fun _ => Iff.rfl

theorem wp_add (h : Kept late w) (op : RouteOp) :
    wp Any op.add (fun _ => Added late op w) (fun _ => Disturbed late w) (fun _ => True) w := by
  apply wp_write
  have hlog : Disturbed late w (logCommand (.add op) w) := ⟨kept_log h _, ⟨rfl, rfl, rfl, id⟩, rfl⟩
  have hturn := hlog.trans (disturbed_interfere hlog.kept)
  apply wp_syscall
  · exact hlog
  · intro _ w' hrun
    split at hrun
    · cases hrun
    · rename_i hfree
      cases hrun
      exact ⟨_, hturn, by simpa using hfree, rfl⟩
  · intro e w' hrun
    split at hrun
    · cases hrun
      exact hturn
    · cases hrun

/-! ### Withdrawals -/

/-- The books without an op that no row of the helper stands for. -/
theorem Owned.pop {rest : List RouteOp} (h : Owned late w) (hwith : w.withdrawing = op :: rest)
    (hgone : ∀ row ∈ w.table, row.owner ≠ some op) : Owned late { w with withdrawing := rest } := by
  have hsub : ∀ op', op' ∈ w.recorded ++ rest → op' ∈ w.onBooks := by
    intro op' hop'
    rcases mem_append.mp hop' with hrec | hrest
    · exact mem_append_left _ hrec
    · refine mem_append_right _ ?_
      rw [hwith]
      exact mem_cons_of_mem op hrest
  constructor
  · intro row hrow op' howner
    obtain ⟨hmem, hnet⟩ := h.rows row hrow op' howner
    have hne : op' ≠ op := by
      rintro rfl
      exact hgone row hrow howner
    refine ⟨?_, hnet⟩
    rcases mem_append.mp hmem with hrec | hwithdrawing
    · exact mem_append_left _ hrec
    · rw [hwith] at hwithdrawing
      exact mem_append_right _ ((mem_cons.mp hwithdrawing).resolve_left hne)
  · exact fun row hrow howner op' hop' => h.alike row hrow howner op' (hsub op' hop')
  · exact fun op' hop' hshown => h.seen op' (hsub op' hop') hshown
  · exact h.fresh
  · exact h.gone

/-- A deletion that the reading calls for takes out nobody else's row. -/
theorem Owned.deleteRow (h : Owned late w) (hop : op ∈ w.onBooks) (hshown : w.shown op = true) :
    Owned late (w.deleteRow op.net) := by
  have herase := h.erase op.net
  refine ⟨herase.rows, herase.alike, herase.seen, herase.fresh, ?_⟩
  intro row hrow
  rcases mem_append.mp hrow with hold | hnew
  · exact h.gone row hold
  · obtain ⟨hmem, hnet⟩ := get_eq_some.mp (mem_toList.mp hnew)
    exact h.seen op hop hshown row hmem hnet

/-- After the command there is no row of the op left, unless `clean` is lost. -/
theorem wp_delete (h : Kept late w) (hop : op ∈ w.onBooks)
    (hshown : w.clean = true → w.shown op = true) :
    wp Any op.delete (fun _ w' => Disturbed late w w' ∧
        (w'.clean = true → ∀ row ∈ w'.table, row.owner ≠ some op)) E (fun _ => True) w := by
  -- A row of the op is at the destination of the op, where none is left.
  have hempty : ∀ v : IntentWorld, Owned late v → v.table.has op.net = false →
      ∀ row ∈ v.table, row.owner ≠ some op := by
    intro v hv hfree row hrow howner
    obtain ⟨_, hnet, _⟩ := hv.rows row hrow op howner
    exact has_eq_false_iff.mp hfree row hrow hnet.symm
  apply wp_write
  have hlog : Disturbed late w (logCommand (.delete op) w) :=
    ⟨kept_log h _, ⟨rfl, rfl, rfl, id⟩, rfl⟩
  apply wp_tried
  apply wp_syscall
  · apply wp_modify
    have hkept : Kept late ((logCommand (.delete op) w).undeleted op) := by
      intro hclean
      obtain ⟨hclean, _⟩ := and_eq_true_iff.mp hclean
      exact (hlog.kept hclean).congr rfl rfl rfl fun _ => Iff.rfl
    refine ⟨⟨hkept, ⟨rfl, rfl, rfl, fun hclean => (and_eq_true_iff.mp hclean).1⟩, rfl⟩, ?_⟩
    intro hclean
    have hfree : (!w.table.has op.net) = true := (and_eq_true_iff.mp hclean).2
    exact hempty _ (hkept hclean) (not_eq_true' _ ▸ hfree)
  · intro _ w' hrun
    cases hrun
    have hturn := hlog.trans (disturbed_interfere hlog.kept)
    have hbooks : op ∈ (logCommand (.delete op) w).interfere.onBooks := by
      rw [hturn.store.onBooks]
      exact hop
    have hkept : Kept late ((logCommand (.delete op) w).interfere.deleteRow op.net) := by
      intro hclean
      have hstill : (logCommand (.delete op) w).interfere.shown op = true := by
        rw [IntentWorld.shown, hturn.dump]
        exact hshown (hturn.store.clean hclean)
      exact (hturn.kept hclean).deleteRow hbooks hstill
    refine wp_pure ⟨⟨hkept, ⟨hturn.store.intents, hturn.store.rules, hturn.store.withdrawing,
      hturn.store.clean⟩, hturn.dump⟩, ?_⟩
    intro hclean
    apply hempty _ (hkept hclean)
    exact has_eq_false_iff.mpr fun row hrow => (mem_erase.mp hrow).2
  · intro e w' hrun
    cases hrun

/-- What a step of a request leaves alone: everything in the store but `withdrawing`. -/
structure SameRecords (w w' : IntentWorld) : Prop where
  intents : w'.intents = w.intents
  rules : w'.rules = w.rules
  dump : w'.dump = w.dump

variable {ops : List RouteOp}

/-- The loop of a withdrawal. The reading shows every row of the helper. -/
theorem wp_withdrawEach {table : List RouteEntry} (h : Kept false w)
    (hwith : w.withdrawing = ops) (hdump : w.clean = true → ops ≠ [] → w.dump = some table) :
    wp Any (withdrawEach table ops)
      (fun _ w' => Kept false w' ∧ w'.withdrawing = [] ∧ SameRecords w w') E (fun _ => True) w := by
  induction ops generalizing w with
  | nil => exact wp_pure ⟨h, hwith, rfl, rfl, rfl⟩
  | cons op rest ih =>
    have hop : op ∈ w.onBooks := mem_append_right _ (by rw [hwith]; simp)
    -- Whether or not there was a deletion: no row of the op, and the rest goes on.
    have hnext : ∀ v, Disturbed false w v →
        (v.clean = true → ∀ row ∈ v.table, row.owner ≠ some op) →
        wp Any (do
          Call.modify fun w => { w with withdrawing := rest }
          withdrawEach table rest)
          (fun _ w' => Kept false w' ∧ w'.withdrawing = [] ∧ SameRecords w w') E
          (fun _ => True) v := by
      intro v hv hgone
      apply wp_write
      have hvwith : v.withdrawing = op :: rest := hv.store.withdrawing.trans hwith
      have hkept : Kept false { v with withdrawing := rest } :=
        fun hclean => (hv.kept hclean).pop hvwith (hgone hclean)
      have hvdump : v.clean = true → rest ≠ [] → v.dump = some table := fun hclean _ =>
        hv.dump.trans (hdump (hv.store.clean hclean) (by simp))
      refine wp_post (ih hkept rfl hvdump) ?_
      rintro _ w' ⟨hkept', hwith', hsame⟩
      exact ⟨hkept', hwith', hsame.intents.trans hv.store.intents,
        hsame.rules.trans hv.store.rules, hsame.dump.trans hv.dump⟩
    show wp Any (do
      if judge (wantedOf op) true table = .present then op.delete
      Call.modify fun w => { w with withdrawing := rest }
      withdrawEach table rest) _ _ _ w
    by_cases hpresent : judge (wantedOf op) true table = .present
    · rw [if_pos hpresent]
      have hshown : w.clean = true → w.shown op = true := fun hclean =>
        shown_iff.mpr ⟨table, hdump hclean (by simp), hpresent⟩
      apply wp_then (wp_delete h hop hshown)
      rintro _ v ⟨hv, hgone⟩
      exact hnext v hv hgone
    · rw [if_neg hpresent]
      apply wp_bind
      apply wp_pure
      apply hnext w ⟨h, .refl w, rfl⟩
      intro hclean row hrow howner
      have hentries := hdump hclean (by simp)
      obtain ⟨_, hnet, hmatch⟩ := (h hclean).rows row hrow op howner
      have hin : row.entry ∈ table := by
        rcases (h hclean).fresh table hentries row hrow (by simp [howner]) with hin | hlate
        · exact hin
        · exact absurd hlate.1 (by decide)
      exact hpresent (judge_present_iff.mpr ⟨row.entry, hin, hnet.symm, hmatch⟩)

/-- A withdrawal of routes that were just taken off the records: `w` is the world before. -/
theorem wp_withdraw {v : IntentWorld} (h : Kept false w)
    (hwith : w.withdrawing = []) (htable : v.table = w.table) (hdump : v.dump = w.dump)
    (hdeleted : v.deleted = w.deleted) (hclean : v.clean = w.clean)
    (hrecords : ∀ op, op ∈ v.recorded ++ ops ↔ op ∈ w.recorded) :
    wp Any (withdraw ops (w.dump.getD []))
      (fun _ w' => Kept false w' ∧ w'.withdrawing = [] ∧ SameRecords v w') E (fun _ => True) v := by
  apply wp_write
  have hkept : Kept false (v.beginWithdrawal ops) := by
    intro hstill
    obtain ⟨hstill, _⟩ := and_eq_true_iff.mp hstill
    refine (h (hclean ▸ hstill)).congr htable hdump hdeleted ?_
    intro op
    have hbefore : w.onBooks = w.recorded := by simp [IntentWorld.onBooks, hwith]
    rw [hbefore]
    exact hrecords op
  have hread : (v.beginWithdrawal ops).clean = true → ops ≠ [] →
      (v.beginWithdrawal ops).dump = some (w.dump.getD []) := by
    intro hstill hne
    obtain ⟨_, hsome⟩ := and_eq_true_iff.mp hstill
    have hsome : w.dump.isSome = true := by simpa [hne, hdump] using hsome
    obtain ⟨entries, hentries⟩ := isSome_iff_exists.mp hsome
    show v.dump = _
    rw [hdump, hentries, getD_some]
  refine wp_post (wp_withdrawEach hkept rfl hread) ?_
  rintro _ w' ⟨hkept', hwith', hsame⟩
  exact ⟨hkept', hwith', hsame.intents, hsame.rules, hsame.dump⟩

end

/-! ### Reconcile -/

theorem SameStore.has (h : SameStore w w') {slot : Slot} : w'.Has slot ↔ w.Has slot := by
  cases slot <;> simp [IntentWorld.Has, h.intents, h.rules]

section
variable {late : Bool} {w : IntentWorld} {E : HelperError → IntentWorld → Prop} {op : RouteOp}
  {slot : Slot} {table : List RouteEntry}

theorem Owned.later (h : Owned late w) : Owned true w :=
  ⟨h.rows, h.alike, h.seen, fun entries hentries row hrow howner =>
    (h.fresh entries hentries row hrow howner).imp_right fun hfree => ⟨rfl, hfree.2⟩, h.gone⟩

theorem Kept.later (h : Kept late w) : Kept true w := fun hclean => (h hclean).later

/-- A row of the helper at a destination that was free, now and in the reading. -/
theorem Owned.helperAdd {w' : IntentWorld} (h : Owned late w) (hfree : w.table.has op.net = false)
    (htable : w'.table = w.table.insert (op.row w.deviceOf)) (hdump : w'.dump = w.dump)
    (hdeleted : w'.deleted = w.deleted)
    (hbooks : ∀ op', op' ∈ w'.onBooks ↔ op' ∈ w.onBooks ∨ op' = op)
    (hmissing : ∀ entry ∈ w.dump.getD [], entry.destination.trunc ≠ op.net) : Owned true w' := by
  have hrownet : (op.row w.deviceOf).net = op.net := net_entry op w.deviceOf
  have hmem : ∀ row, row ∈ w'.table → row ∈ w.table ∨ row = op.row w.deviceOf := by
    intro row hrow
    rw [htable] at hrow
    exact (mem_insert (hrownet ▸ hfree)).mp hrow
  have hnone : ∀ row ∈ w.table, row.net ≠ op.net := has_eq_false_iff.mp hfree
  constructor
  · intro row hrow op' howner
    rcases hmem row hrow with hold | rfl
    · obtain ⟨hop', hnet⟩ := h.rows row hold op' howner
      exact ⟨(hbooks op').mpr (.inl hop'), hnet⟩
    · obtain rfl : op = op' := Option.some.inj howner
      exact ⟨(hbooks op).mpr (.inr rfl), hrownet.symm, matches_entry op w.deviceOf⟩
  · intro row hrow howner op' hop' hnet
    rcases hmem row hrow with hold | rfl
    · rcases (hbooks op').mp hop' with hop' | rfl
      · exact h.alike row hold howner op' hop' hnet
      · exact absurd hnet.symm (hnone row hold)
    · cases howner
  · intro op' hop' hshown row hrow hnet
    rcases hmem row hrow with hold | rfl
    · rcases (hbooks op').mp hop' with hop' | rfl
      · refine h.seen op' hop' ?_ row hold hnet
        rw [IntentWorld.shown, ← hdump]
        exact hshown
      · exact absurd hnet (hnone row hold)
    · intro howner
      cases howner
  · intro entries hentries row hrow howner
    rw [hdump] at hentries
    rcases hmem row hrow with hold | rfl
    · exact h.later.fresh entries hentries row hold howner
    · rw [hentries] at hmissing
      exact .inr ⟨rfl, hrownet.symm ▸ hmissing⟩
  · exact hdeleted ▸ h.gone

theorem onBooks_of_recorded {w' : IntentWorld} (hwith : w'.withdrawing = w.withdrawing)
    {op op' : RouteOp} (h : op' ∈ w'.recorded ↔ op' ∈ w.recorded ∨ op' = op) :
    op' ∈ w'.onBooks ↔ op' ∈ w.onBooks ∨ op' = op := by
  simp only [IntentWorld.onBooks, mem_append, hwith, h]
  tauto

theorem mem_recorded_push (hhas : w.Has slot) {op op' : RouteOp} :
    op' ∈ (w.push slot op).recorded ↔ op' ∈ w.recorded ∨ op' = op := by
  unfold IntentWorld.push
  rw [mem_recorded_setInstalled hhas, mem_recorded, mem_append, mem_singleton]
  constructor
  · rintro ((hop | hop) | ⟨other, _, hop⟩)
    · exact .inl ⟨slot, hop⟩
    · exact .inr hop
    · exact .inl ⟨other, hop⟩
  · rintro (⟨other, hop⟩ | hop)
    · by_cases hother : other = slot
      · exact .inl (.inl (hother ▸ hop))
      · exact .inr ⟨other, hother, hop⟩
    · exact .inl (.inr hop)

/-- A record is forgotten, and no row of the helper stands for it. -/
theorem Owned.forget (h : Owned late w) (hhas : w.Has slot)
    (hgone : op ∈ w.installed slot → ∀ row ∈ w.table, row.owner ≠ some op) :
    Owned late (w.forget slot op) := by
  obtain ⟨htable, hdump, hdeleted, _, hwith⟩ :=
    setInstalled_frame w slot ((w.installed slot).filter (· ≠ op))
  have hrecord : ∀ op', op' ∈ (w.forget slot op).recorded ↔
      (op' ∈ w.installed slot ∧ op' ≠ op) ∨ ∃ other, other ≠ slot ∧ op' ∈ w.installed other := by
    intro op'
    unfold IntentWorld.forget
    rw [mem_recorded_setInstalled hhas, mem_filter]
    simp
  have hsub : ∀ op', op' ∈ (w.forget slot op).onBooks → op' ∈ w.onBooks := by
    intro op' hop'
    rcases mem_append.mp hop' with hrec | hw
    · apply mem_append_left
      rw [mem_recorded]
      rcases (hrecord op').mp hrec with ⟨hrec, _⟩ | ⟨other, _, hrec⟩
      · exact ⟨slot, hrec⟩
      · exact ⟨other, hrec⟩
    · exact mem_append_right _ (hwith ▸ hw)
  constructor
  · intro row hrow op' howner
    have hrow' : row ∈ w.table := htable ▸ hrow
    obtain ⟨hmem, hnet⟩ := h.rows row hrow' op' howner
    refine ⟨?_, hnet⟩
    rcases mem_append.mp hmem with hrec | hw
    · apply mem_append_left
      rw [hrecord]
      obtain ⟨other, hop'⟩ := mem_recorded.mp hrec
      by_cases hother : other = slot
      · rw [hother] at hop'
        refine .inl ⟨hop', ?_⟩
        rintro rfl
        exact hgone hop' row hrow' howner
      · exact .inr ⟨other, hother, hop'⟩
    · exact mem_append_right _ (hwith.symm ▸ hw)
  · exact fun row hrow howner op' hop' => h.alike row (htable ▸ hrow) howner op' (hsub op' hop')
  · intro op' hop' hshown row hrow
    refine h.seen op' (hsub op' hop') ?_ row (htable ▸ hrow)
    rw [IntentWorld.shown, ← hdump]
    exact hshown
  · exact fun entries hentries row hrow => h.fresh entries (hdump ▸ hentries) row (htable ▸ hrow)
  · exact hdeleted ▸ h.gone

/-- A record that the reading contradicts stands for no row of the helper. -/
theorem Owned.gone_of_conflict (h : Owned late w) {route : WantedRoute} {rival : Core.Rival}
    (hjudge : judge route true (w.dump.getD []) = .conflicted rival) :
    ∀ row ∈ w.table, row.owner ≠ some (opOf route) := by
  intro row hrow howner
  obtain ⟨⟨entry, hentry, hdest⟩, hdiffer⟩ := judge_conflicted hjudge
  obtain ⟨_, hnet, hmatch⟩ := h.rows row hrow _ howner
  have htrunc : route.destination.trunc = route.destination := by
    rw [← hdest, IpNet.trunc_trunc]
  have hrownet : row.net = route.destination := by
    rw [← hnet]
    show route.destination.trunc.trunc = _
    rw [htrunc, htrunc]
  cases hdump : w.dump with
  | none => simp [hdump] at hentry
  | some entries =>
    rw [hdump] at hentry hdiffer
    rcases h.fresh entries hdump row hrow (by simp [howner]) with hin | ⟨_, hfree⟩
    · have hno := hdiffer row.entry hin hrownet
      exact absurd (hno.symm.trans hmatch) (by decide)
    · exact hfree entry hentry (hdest.trans hrownet.symm)

theorem wp_addRecorded {ours : Bool} (h : Kept late w) (hhas : w.Has slot)
    (hours : ours = true ↔ op ∈ w.installed slot)
    (hmissing : ∀ entry ∈ w.dump.getD [], entry.destination.trunc ≠ op.net) :
    wp Any (addRecorded slot op ours)
      (fun _ w' => Kept true w' ∧ w'.Has slot ∧ w'.withdrawing = w.withdrawing ∧
        w'.dump = w.dump) E (fun _ => True) w := by
  refine wp_either (wp_add h op) ?_ ?_
  · rintro _ w' ⟨v, hv, hfree, rfl⟩
    have hvhas : v.Has slot := hv.store.has.mpr hhas
    have hvmissing : ∀ entry ∈ v.dump.getD [], entry.destination.trunc ≠ op.net :=
      hv.dump.symm ▸ hmissing
    cases ours with
    | true =>
      have hbooks : op ∈ v.onBooks := by
        apply mem_append_left
        rw [mem_recorded]
        exact ⟨slot, by rw [hv.store.installed]; exact hours.mp rfl⟩
      refine wp_pure ⟨?_, hvhas, hv.store.withdrawing, hv.dump⟩
      intro hclean
      refine (hv.kept hclean).helperAdd hfree rfl rfl rfl ?_ hvmissing
      intro op'
      exact ⟨.inl, fun hop => hop.elim id fun heq => heq ▸ hbooks⟩
    | false =>
      generalize hafter : { v with table := v.table.insert (op.row v.deviceOf) } = v'
      have hvhas' : v'.Has slot := hafter ▸ hvhas
      obtain ⟨ftable, fdump, fdeleted, fclean, fwith⟩ :=
        setInstalled_frame v' slot (v'.installed slot ++ [op])
      subst hafter
      refine wp_modify ⟨?_, (has_setInstalled _).mpr hvhas, fwith.trans hv.store.withdrawing,
        fdump.trans hv.dump⟩
      intro hclean
      refine (hv.kept (fclean ▸ hclean)).helperAdd hfree ftable fdump fdeleted ?_ hvmissing
      intro op'
      exact onBooks_of_recorded fwith (mem_recorded_push hvhas')
  · intro e v hv
    exact wp_pure ⟨hv.kept.later, hv.store.has.mpr hhas, hv.store.withdrawing, hv.dump⟩

variable {changed : Bool} (text : NetText)

/-- The loop of `apply`. What it adds, it adds at destinations that the reading had free. -/
theorem wp_installWanted {routes : List WantedRoute}
    (hroutes : ∀ route ∈ routes, route.destination.trunc = route.destination)
    (h : Kept changed w) (hhas : w.Has slot) (htable : w.dump.getD [] = table) :
    wp Any (installWanted slot table changed routes)
      (fun changed' w' => Kept changed' w' ∧ w'.withdrawing = w.withdrawing ∧ w'.dump = w.dump ∧
        (changed' = false → changed = false)) E (fun _ => True) w := by
  induction routes generalizing w changed with
  | nil => exact wp_pure ⟨h, rfl, rfl, id⟩
  | cons route rest ih =>
    have hrest : ∀ route ∈ rest, route.destination.trunc = route.destination :=
      fun r hr => hroutes r (mem_cons_of_mem route hr)
    -- What is left to show after the first route, wherever it led.
    have hnext : ∀ (v : IntentWorld) (soFar : Bool), (soFar = false → changed = false) →
        Kept soFar v → v.Has slot → v.withdrawing = w.withdrawing → v.dump = w.dump →
        wp Any (installWanted slot table soFar rest)
          (fun changed' w' => Kept changed' w' ∧ w'.withdrawing = w.withdrawing ∧
            w'.dump = w.dump ∧ (changed' = false → changed = false)) E (fun _ => True) v := by
      intro v soFar hsoFar hkept hvhas hwith hdump
      refine wp_post (ih hrest hkept hvhas (hdump ▸ htable)) ?_
      rintro c w' ⟨hkept', hwith', hdump', hc⟩
      exact ⟨hkept', hwith'.trans hwith, hdump'.trans hdump, fun hfalse => hsoFar (hc hfalse)⟩
    apply wp_read
    cases hjudge : judge route ((w.installed slot).contains (opOf route)) table with
    | present => exact hnext w changed id h hhas rfl rfl
    | missing =>
      have hopnet : (opOf route).net = route.destination := by
        show route.destination.trunc.trunc = _
        rw [IpNet.trunc_trunc, hroutes route (by simp)]
      have hmissing : ∀ entry ∈ w.dump.getD [], entry.destination.trunc ≠ (opOf route).net := by
        rw [htable, hopnet]
        exact judge_missing hjudge
      have hours : ((w.installed slot).contains (opOf route) = true ↔
          opOf route ∈ w.installed slot) := by simp
      apply wp_then (wp_addRecorded h hhas hours hmissing)
      rintro _ v ⟨hkept, hvhas, hwith, hdump⟩
      exact hnext v true (by simp) hkept hvhas hwith hdump
    | conflicted rival =>
      apply wp_write
      obtain ⟨_, fdump, _, fclean, fwith⟩ := setInstalled_frame w slot
        ((w.installed slot).filter (· ≠ opOf route))
      refine hnext _ changed id ?_ ((has_setInstalled _).mpr hhas) fwith fdump
      intro hclean
      apply (h (fclean ▸ hclean)).forget hhas
      intro hours
      have hcontains : (w.installed slot).contains (opOf route) = true := by simpa using hours
      rw [hcontains, ← htable] at hjudge
      exact (h (fclean ▸ hclean)).gone_of_conflict hjudge

theorem Kept.lateness (h : Kept false w) (late : Bool) : Kept late w := by
  cases late with
  | false => exact h
  | true => exact h.later

theorem wp_reread (h : Kept changed w)
    (htable : changed = false → w.dump.getD [] = table) : wp Any (reread changed table)
      (fun entries w' => Kept false w' ∧ SameStore w w' ∧ w'.dump.getD [] = entries ∧
        (changed = false → w'.dump = w.dump)) E (fun _ => True) w := by
  cases changed with
  | false => exact wp_pure ⟨h, .refl w, htable rfl, fun _ => rfl⟩
  | true =>
    refine wp_post (wp_probeRoutes h) ?_
    rintro entries w' ⟨hkept, hstore, hdump⟩
    exact ⟨hkept, hstore, hdump, fun hfalse => absurd hfalse (by decide)⟩

/-- Taking the stale ops of one record off the records. -/
theorem mem_recorded_partition (hhas : w.Has slot) (wantedOps : List RouteOp) (op : RouteOp) :
    op ∈ (w.setInstalled slot ((w.installed slot).filter wantedOps.contains)).recorded ++
        ((w.installed slot).filter fun op => !wantedOps.contains op) ↔ op ∈ w.recorded := by
  rw [mem_append, mem_recorded_setInstalled hhas, mem_recorded, mem_filter, mem_filter]
  constructor
  · rintro ((⟨hop, _⟩ | ⟨other, _, hop⟩) | ⟨hop, _⟩)
    · exact ⟨slot, hop⟩
    · exact ⟨other, hop⟩
    · exact ⟨slot, hop⟩
  · rintro ⟨other, hop⟩
    by_cases hother : other = slot
    · subst hother
      by_cases hwanted : wantedOps.contains op = true
      · exact .inl (.inl ⟨hop, hwanted⟩)
      · exact .inr ⟨hop, by simpa using hwanted⟩
    · exact .inl (.inr ⟨other, hother, hop⟩)

/-- `apply`. If it ran no command, the reading it was given is still the last one. -/
theorem wp_applyDerivation {derivation : Derivation} (h : Kept false w)
    (hwith : w.withdrawing = []) (hhas : w.Has slot) (hwanted : WellFormed derivation.wanted) :
    wp Any (applyDerivation slot derivation (w.dump.getD []))
      (fun changed w' => Kept changed w' ∧ w'.withdrawing = [] ∧
        (changed = false → w'.dump = w.dump)) E (fun _ => True) w := by
  apply wp_read
  apply wp_write
  obtain ⟨ftable, fdump, fdeleted, fclean, _⟩ := setInstalled_frame w slot
    ((w.installed slot).filter (derivation.wanted.map opOf).contains)
  have hset : (w.setInstalled slot
      ((w.installed slot).filter (derivation.wanted.map opOf).contains)).Has slot :=
    (has_setInstalled _).mpr hhas
  generalize hv : w.setInstalled slot
    ((w.installed slot).filter (derivation.wanted.map opOf).contains) = v at *
  generalize hstale : (w.installed slot).filter
    (fun op => !(derivation.wanted.map opOf).contains op) = stale
  have hrecords : ∀ op, op ∈ v.recorded ++ stale ↔ op ∈ w.recorded := by
    intro op
    rw [← hv, ← hstale]
    exact mem_recorded_partition hhas _ op
  apply wp_then (wp_withdraw h hwith ftable fdump fdeleted fclean hrecords)
  rintro _ u ⟨hkept, huwith, hrec⟩
  have huhas : u.Has slot := by
    cases slot <;> simpa [IntentWorld.Has, hrec.intents, hrec.rules] using hset
  have hudump : u.dump = w.dump := hrec.dump.trans fdump
  apply wp_then (wp_reread (hkept.lateness (!stale.isEmpty)) fun _ => by rw [hudump])
  rintro table x ⟨hxkept, hxstore, hxdump, hxsame⟩
  refine wp_post (wp_installWanted hwanted.2 (hxkept.lateness (!stale.isEmpty))
    (hxstore.has.mpr huhas) hxdump) ?_
  rintro changed w' ⟨hkept', hwith', hdump', hsame⟩
  exact ⟨hkept', hwith'.trans (hxstore.withdrawing.trans huwith), fun hfalse =>
    hdump'.trans ((hxsame (hsame hfalse)).trans hudump)⟩

/-- The loop of `reconcile_locked`. -/
theorem wp_reconcileSlots (network : NetworkView) (slots : List Slot)
    (h : Kept false w) (hwith : w.withdrawing = []) :
    wp Any (reconcileSlots text network (w.dump.getD []) slots)
      (fun _ w' => Kept false w' ∧ w'.withdrawing = []) E (fun _ => True) w := by
  induction slots generalizing w with
  | nil => exact wp_pure ⟨h, hwith⟩
  | cons slot rest ih =>
    apply wp_read
    cases hderivation : w.derivation text network slot with
    | none => exact ih h hwith
    | some derivation =>
      obtain ⟨hhas, hwanted⟩ := derivation_some hderivation
      apply wp_then (wp_applyDerivation h hwith hhas hwanted)
      rintro changed v ⟨hkept, hvwith, hdump⟩
      apply wp_then (wp_reread hkept fun hfalse => by rw [hdump hfalse])
      rintro table x ⟨hxkept, hxstore, rfl, _⟩
      exact ih hxkept (hxstore.withdrawing.trans hvwith)

theorem wp_reconcileLocked (h : Kept late w) (hwith : w.withdrawing = []) :
    wp Any (reconcileLocked text) (fun _ w' => Kept false w' ∧ w'.withdrawing = []) E
      (fun _ => True) w := by
  apply wp_then (wp_probeView h)
  intro network v hv
  apply wp_then (wp_probeRoutes hv.kept)
  rintro table x ⟨hxkept, hxstore, rfl⟩
  have hxwith := hxstore.withdrawing.trans (hv.store.withdrawing.trans hwith)
  apply wp_read
  apply wp_then (wp_reconcileSlots text network _ hxkept hxwith)
  rintro _ w' ⟨hkept', hwith'⟩
  exact wp_modify ⟨fun hclean => (hkept' hclean).congr rfl rfl rfl fun _ => Iff.rfl, hwith'⟩

end

/-! ### Requests -/

section
variable {late : Bool} {w : IntentWorld}

/-- Between two requests, and at both ends of one. -/
def Settled (w : IntentWorld) : Prop := Kept true w ∧ w.withdrawing = []

/-- A request from a settled state ends in one. -/
def SettlesFrom {α : Type} (m : IntentProg α) (w : IntentWorld) : Prop :=
  wp Verdict.Any m (fun _ => Settled) (fun _ => Settled) (fun _ => True) w

theorem settled_of_false (h : Kept false w ∧ w.withdrawing = []) : Settled w := ⟨h.1.later, h.2⟩

theorem Settled.disturbed {w' : IntentWorld} (h : Settled w) (hturn : Disturbed true w w') :
    Settled w' :=
  ⟨hturn.kept, hturn.store.withdrawing.trans h.2⟩

theorem settles_save {α : Type} (h : Settled w) (a : α) : SettlesFrom (do
      Call.discard (Call.attempt saveIntents)
      pure a) w := by
  apply wp_bind
  apply wp_discard
  apply wp_attempt
  refine wp_ends (wp_saveIntents h.1) ?_ ?_
  · exact fun _ w' hw' => wp_pure (h.disturbed hw')
  · exact fun _ w' hw' => wp_pure (h.disturbed hw')

theorem settles_unsaved {α : Type} (h : Settled w) (message : String) (a : α) : SettlesFrom (do
      unsaved message saveIntents
      pure a) w := by
  apply wp_bind
  refine wp_either (wp_saveIntents h.1) ?_ ?_
  · exact fun _ w' hw' => wp_pure (wp_pure (h.disturbed hw'))
  · exact fun _ w' hw' => wp_throw (h.disturbed hw')

/-- The store may change as long as every record stays what it is. -/
theorem Kept.restored {v : IntentWorld} (h : Kept late w) (htable : v.table = w.table)
    (hdump : v.dump = w.dump) (hdeleted : v.deleted = w.deleted) (hclean : v.clean = w.clean)
    (hwith : v.withdrawing = w.withdrawing)
    (hinstalled : ∀ slot, v.installed slot = w.installed slot) : Kept late v := by
  intro hstill
  refine (h (hclean ▸ hstill)).congr htable hdump hdeleted ?_
  intro op
  simp only [IntentWorld.onBooks, mem_append, hwith, mem_recorded, hinstalled]

variable {α β : Type} (uid : Nat) (id : String)

/-- The element that `upsert` writes shows what the element before it showed. -/
theorem getElem?_upsert_elim {f : α → List β} {l : List α} {position : Option Nat}
    {new : α} (hnew : f new = position.elim [] fun index => l[index]?.elim [] f)
    (index : Nat) : (upsert position new l)[index]?.elim [] f = l[index]?.elim [] f := by
  cases position with
  | none =>
    show (l ++ [new])[index]?.elim [] f = _
    rcases Nat.lt_trichotomy index l.length with hlt | rfl | hgt
    · rw [getElem?_append_left hlt]
    · simpa using hnew
    · have hlen : (l ++ [new]).length ≤ index := by
        rw [length_append, length_singleton]
        omega
      rw [getElem?_eq_none hlen, getElem?_eq_none (Nat.le_of_lt hgt)]
  | some place =>
    show (l.set place new)[index]?.elim [] f = _
    by_cases hindex : place = index
    · subst hindex
      by_cases hlt : place < l.length
      · simpa [hlt] using hnew
      · rw [set_eq_of_length_le (Nat.le_of_not_lt hlt)]
    · rw [getElem?_set_ne hindex]

section
variable (text : NetText)

theorem wp_setIntent (uid : Nat) (params : NetIntentSetParams) (h : Settled w) :
    SettlesFrom (setIntent text uid params) w := by
  unfold SettlesFrom setIntent
  cases Core.normalize text params with
  | error reason => exact wp_throw h
  | ok intent =>
    apply wp_read
    dsimp only [id]
    split
    · exact wp_throw h
    · split
      · exact wp_throw h
      · apply wp_write
        refine wp_then (wp_reconcileLocked text (Kept.restored h.1 rfl rfl rfl rfl rfl ?_) h.2) ?_
        · intro slot
          cases slot with
          | intent index => exact getElem?_upsert_elim (f := Stored.installed) rfl index
          | rule index => rfl
        · intro _ w' hw'
          exact settles_unsaved (settled_of_false hw') _ _

theorem wp_putRule (uid : Nat) (rule : ConditionalRouteRule) (h : Settled w) :
    SettlesFrom (putRule text uid rule) w := by
  unfold SettlesFrom putRule
  split
  · exact wp_throw h
  · apply wp_read
    dsimp only [id]
    split
    · exact wp_throw h
    · split
      · exact wp_throw h
      · apply wp_write
        refine wp_then (wp_reconcileLocked text (Kept.restored h.1 rfl rfl rfl rfl rfl ?_) h.2) ?_
        · intro slot
          cases slot with
          | intent index => rfl
          | rule index => exact getElem?_upsert_elim (f := StoredRule.installed) rfl index
        · intro _ w' hw'
          exact settles_unsaved (settled_of_false hw') _ _

theorem wp_reconcile (h : Settled w) : SettlesFrom (reconcile text) w := by
  apply wp_then (wp_reconcileLocked text h.1 h.2)
  exact fun _ w' hw' => settles_save (settled_of_false hw') _

theorem wp_tick (due : Bool) (h : Settled w) : SettlesFrom (tick text due) w := by
  apply wp_read
  split
  · exact wp_pure h
  · apply wp_then (wp_probeView h.1)
    intro view v hv
    apply wp_read
    split
    · exact wp_pure (h.disturbed hv)
    · exact wp_reconcile text (h.disturbed hv)

end

/-- What is in a list is in the rest of it or in the element that was taken out. -/
theorem mem_flatMap_eraseIdx (f : α → List β) (l : List α) (index : Nat) (b : β) :
    b ∈ (l.eraseIdx index).flatMap f ++ l[index]?.elim [] f ↔ b ∈ l.flatMap f := by
  rw [mem_append, mem_flatMap, mem_flatMap]
  constructor
  · rintro (⟨a, ha, hb⟩ | hb)
    · exact ⟨a, mem_of_mem_eraseIdx ha, hb⟩
    · cases ha : l[index]? with
      | none => simp [ha] at hb
      | some a => exact ⟨a, mem_of_getElem? ha, by simpa [ha] using hb⟩
  · rintro ⟨a, ha, hb⟩
    obtain ⟨n, hn⟩ := mem_iff_getElem?.mp ha
    by_cases hindex : n = index
    · subst hindex
      exact .inr (by simpa [hn] using hb)
    · exact .inl ⟨a, mem_eraseIdx_iff_getElem?.mpr ⟨n, hindex, hn⟩, hb⟩

theorem wp_deleteIntent (h : Settled w) : SettlesFrom (deleteIntent uid id) w := by
  apply wp_read
  split
  · exact wp_throw h
  · rename_i index hindex
    apply wp_then (wp_probeRoutes h.1)
    rintro table v ⟨hkept, hstore, rfl⟩
    apply wp_read
    apply wp_write
    refine wp_then (wp_withdraw hkept (hstore.withdrawing.trans h.2) rfl rfl rfl rfl ?_) ?_
    · intro op
      show op ∈ ((v.intents.eraseIdx index).flatMap Stored.installed ++
        v.rules.flatMap StoredRule.installed) ++ v.intents[index]?.elim [] Stored.installed ↔ _
      have hsplit := mem_flatMap_eraseIdx Stored.installed v.intents index op
      rw [mem_append] at hsplit
      rw [IntentWorld.recorded, mem_append, mem_append, mem_append, ← hsplit]
      tauto
    · rintro _ w' ⟨hkept', hwith', _⟩
      exact settles_unsaved (settled_of_false ⟨hkept', hwith'⟩) _ _

theorem wp_removeRule (h : Settled w) : SettlesFrom (removeRule uid id) w := by
  apply wp_read
  split
  · exact wp_pure h
  · rename_i index hindex
    apply wp_then (wp_probeRoutes h.1)
    rintro table v ⟨hkept, hstore, rfl⟩
    apply wp_read
    apply wp_write
    refine wp_then (wp_withdraw hkept (hstore.withdrawing.trans h.2) rfl rfl rfl rfl ?_) ?_
    · intro op
      show op ∈ (v.intents.flatMap Stored.installed ++
        (v.rules.eraseIdx index).flatMap StoredRule.installed) ++
          v.rules[index]?.elim [] StoredRule.installed ↔ _
      rw [IntentWorld.recorded, append_assoc, mem_append, mem_flatMap_eraseIdx, ← mem_append]
    · rintro _ w' ⟨hkept', hwith', _⟩
      exact settles_save (settled_of_false ⟨hkept', hwith'⟩) _

theorem wp_shutdown (h : Settled w) : SettlesFrom shutdown w := by
  apply wp_then (wp_probeRoutes h.1)
  rintro table v ⟨hkept, hstore, rfl⟩
  apply wp_read
  apply wp_write
  refine wp_then (wp_withdraw hkept (hstore.withdrawing.trans h.2) rfl rfl rfl rfl ?_) ?_
  · intro op
    -- Nothing is left on record.
    simp [IntentWorld.recorded]
  · rintro _ w' ⟨hkept', hwith', _⟩
    exact settles_save (settled_of_false ⟨hkept', hwith'⟩) _

variable (text : NetText) (request : IntentRequest) (h : Settled w)
include h

theorem wp_intentRequest : SettlesFrom (intentRequest text request) w := by
  cases request with
  | set uid params => exact wp_setIntent text uid params h
  | delete uid id => exact wp_deleteIntent uid id h
  | putRule uid rule => exact wp_putRule text uid rule h
  | removeRule uid id => exact wp_removeRule uid id h
  | reconcile => exact wp_reconcile text h
  | tick due => exact wp_tick text due h
  | shutdown => exact wp_shutdown h

theorem wp_handleIntent : SettlesFrom (handleIntent text request) w := by
  have hend : ∀ v, Settled v → Settled { v with dump := none } := by
    intro v hv
    exact ⟨fun hclean => (hv.1 hclean).unread.later, hv.2⟩
  refine wp_either (wp_intentRequest text request h) ?_ ?_
  · exact fun _ w' hw' => wp_write (wp_pure (hend w' hw'))
  · exact fun _ w' hw' => wp_write (wp_pure (hend w' hw'))

end

/-! ### Whole runs -/

/-- A state that requests start from: the helper's rows are on record, and no row of somebody
else looks like a record. A helper that has stored nothing is in such a state. -/
structure Accounted (w : IntentWorld) : Prop where
  rows : ∀ row ∈ w.table, ∀ op, row.owner = some op →
    op ∈ w.recorded ∧ op.net = row.net ∧ op.target.matches row.entry = true
  alike : ∀ row ∈ w.table, row.owner = none → ∀ op ∈ w.recorded, op.net = row.net →
    op.target.matches row.entry = false
  idle : w.dump = none ∧ w.withdrawing = [] ∧ w.deleted = []

/-- Only own routes were deleted, and the own routes that stand are on record. -/
def OwnsItsRoutes (w : IntentWorld) : Prop :=
  (∀ row ∈ w.deleted, row.owner ≠ none) ∧
    ∀ row ∈ w.table, ∀ op, row.owner = some op →
      (∃ stored ∈ w.intents, op ∈ stored.installed) ∨ ∃ stored ∈ w.rules, op ∈ stored.installed

theorem Accounted.settled (h : Accounted w) : Settled w := by
  obtain ⟨hdump, hwith, hdeleted⟩ := h.idle
  have hbooks : w.onBooks = w.recorded := by simp [IntentWorld.onBooks, hwith]
  refine ⟨fun _ => ?_, hwith⟩
  constructor
  · exact hbooks ▸ h.rows
  · exact hbooks ▸ h.alike
  · intro op _ hshown
    simp [IntentWorld.shown, hdump] at hshown
  · intro entries hentries
    simp [hdump] at hentries
  · simp [hdeleted]

/-- Over any sequence of requests, with others at work between any two system calls: as long as
`clean` is not lost, the helper deletes only its own routes and has every one on record. -/
theorem route_ownership (text : NetText) {w t : IntentWorld} (hstart : Accounted w)
    (hrun : Reaches (handleIntent text) (fun _ _ => True) w t) (hclean : t.clean = true) :
    OwnsItsRoutes t := by
  have hsettled : Settled t := hrun.invariant hstart.settled (C := fun _ => True)
    fun v request hv _ => wp_handleIntent text request hv
  have howned := hsettled.1 hclean
  refine ⟨howned.gone, ?_⟩
  intro row hrow op howner
  obtain ⟨hmem, _⟩ := howned.rows row hrow op howner
  rw [IntentWorld.onBooks, hsettled.2, List.append_nil] at hmem
  rcases List.mem_append.mp hmem with hintent | hrule
  · exact .inl (List.mem_flatMap.mp hintent)
  · exact .inr (List.mem_flatMap.mp hrule)

/-! ### A cabin behind a gateway -/

def cabinNet : IpNet := .v4 0x0a140000 16

def cabinText : NetText where
  parse raw := if raw = "10.20.0.0/16" then some cabinNet else none
  render net := if net = cabinNet then "10.20.0.0/16" else ""

def cabinParams : NetIntentSetParams :=
  { id := "cabin"
    destinations := ["10.20.0.0/16"]
    path := ⟨"gateway", none, some "192.168.1.1"⟩
    metric := none
    enabled := none }

/-- Nothing is stored and the table is empty. -/
def cabinWorld (script : List (List ForeignEdit)) : IntentWorld :=
  { table := .empty
    view := ⟨none, ["en0"], [⟨4, "en0", .v4 0xc0a80105 24⟩]⟩
    deviceOf := fun _ => "en0"
    intents := []
    rules := []
    lastView := none
    document := ([], [])
    script
    commands := []
    deleted := []
    dump := none
    withdrawing := []
    clean := true }

theorem cabinWorld_accounted (script : List (List ForeignEdit)) :
    Accounted (cabinWorld script) where
  rows := by
    intro row hrow
    cases hrow
  alike := by
    intro row hrow
    cases hrow
  idle := ⟨rfl, rfl, rfl⟩

/-- The intent is set, then deleted. -/
def cabinSet (script : List (List ForeignEdit)) : IntentWorld :=
  (handleIntent cabinText (.set 501 cabinParams) (cabinWorld script) []).2.1

def cabinDeleted (script : List (List ForeignEdit)) : IntentWorld :=
  (handleIntent cabinText (.delete 501 "cabin") (cabinSet script) []).2.1

/-- A row of another program, through the same gateway. -/
def cabinNeighbour : RouteEntry := ⟨.v4 0x0a150000 16, some (.v4 0xc0a80101), "en0"⟩

/-- The other program adds its row as the set begins. -/
def cabinShared : List (List ForeignEdit) := [[], [.add cabinNeighbour]]

/-- The intent's route comes and goes, and the other one stays. -/
theorem cabin_owns_its_routes :
    (cabinSet cabinShared).table.rows.length = 2 ∧ (cabinDeleted cabinShared).deleted.length = 1 ∧
      (cabinDeleted cabinShared).table.rows = [⟨cabinNeighbour, none⟩] ∧
      OwnsItsRoutes (cabinDeleted cabinShared) := by
  refine ⟨by decide +kernel, by decide +kernel, by decide +kernel, ?_⟩
  have hset : Reaches (handleIntent cabinText) (fun _ _ => True) (cabinWorld cabinShared)
      (cabinSet cabinShared) :=
    .call (i := .set 501 cabinParams) .start trivial
      (eq_of_outcome (o := .ok (.ok "cabin")) (by decide +kernel)) (by simp)
  have hdelete : Reaches (handleIntent cabinText) (fun _ _ => True) (cabinWorld cabinShared)
      (cabinDeleted cabinShared) :=
    .call (i := .delete 501 "cabin") hset trivial
      (eq_of_outcome (o := .ok (.ok "cabin")) (by decide +kernel)) (by simp)
  exact route_ownership cabinText (cabinWorld_accounted cabinShared) hdelete (by decide +kernel)

/-- Before the deletion reads the table, somebody replaces the route by one that looks alike. -/
def cabinTakeover : List (List ForeignEdit) :=
  [[], [], [], [], [], [.remove cabinNet, .add ⟨cabinNet, some (.v4 0xc0a80101), "en0"⟩]]

/-- The route that the deletion takes out is not the helper's. -/
theorem cabin_deletes_a_foreign_route :
    ¬∀ (text : NetText) (w t : IntentWorld), Accounted w →
      Reaches (handleIntent text) (fun _ _ => True) w t → OwnsItsRoutes t := by
  intro h
  have hset : Reaches (handleIntent cabinText) (fun _ _ => True) (cabinWorld cabinTakeover)
      (cabinSet cabinTakeover) :=
    .call (i := .set 501 cabinParams) .start trivial
      (eq_of_outcome (o := .ok (.ok "cabin")) (by decide +kernel)) (by simp)
  have hdelete : Reaches (handleIntent cabinText) (fun _ _ => True) (cabinWorld cabinTakeover)
      (cabinDeleted cabinTakeover) :=
    .call (i := .delete 501 "cabin") hset trivial
      (eq_of_outcome (o := .ok (.ok "cabin")) (by decide +kernel)) (by simp)
  have howns := h cabinText _ _ (cabinWorld_accounted cabinTakeover) hdelete
  have hforeign : (⟨⟨cabinNet, some (.v4 0xc0a80101), "en0"⟩, none⟩ : RouteRow RouteOp) ∈
      (cabinDeleted cabinTakeover).deleted := by decide +kernel
  exact howns.1 _ hforeign rfl

end NetOrchestrator.Macos
