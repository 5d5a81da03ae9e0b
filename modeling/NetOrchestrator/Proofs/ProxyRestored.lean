import NetOrchestrator.Core.SystemProxy

/-!
# `Proofs.ProxyRestored`: the user's own proxy settings

`Recoverable` is what the ownership record is for: where the desktop is not as the user had it, the
document on disk says how it was. `Safe` is the stronger fact that steps keep, and `Kept` adds what
a running manager knows: a record in memory is the one on disk, and without one the desktop is the
user's.

A record in memory goes before the document does. So a refused save leaves a manager that has
nothing to restore and a document that still has a record. `restore` then refuses, but `restore_any`
returns `Ok` and leaves the document as it is. `settings_never_lost` says that this is the only way
in which a call that restores leaves anything behind.
-/

namespace NetOrchestrator.Core.SystemProxy

open Lib Lib.Call Core.Errors

variable {Settings : Type} {adapter : ProxyAdapter Settings} {user : Settings}
variable {record : ProxyOwnership Settings}
  {s t : Desk Settings}

/-! ### What is kept -/

/-- Where the desktop is not as the user had it, the record on disk says how it was. -/
def Recoverable (user : Settings) (s : Desk Settings) : Prop :=
  s.desktop ≠ user → ∃ record, s.recorded = some record ∧ record.snapshot = user

/-- The document is right about the user's settings, and without a record they are in place. -/
structure Safe (user : Settings) (s : Desk Settings) : Prop where
  recorded : ∀ record, s.recorded = some record → record.snapshot = user
  intact : s.recorded = none → s.desktop = user

/-- `Safe`, and a manager in memory that agrees with the document. -/
structure Kept (user : Settings) (s : Desk Settings) : Prop extends Safe user s where
  held : s.running = true → ∀ record, s.ownership = some record → s.recorded = some record
  idle : s.running = true → s.ownership = none → s.desktop = user

/-- Before the first `apply` nothing is recorded. -/
def Desk.Fresh (s : Desk Settings) : Prop := s.ownership = none ∧ s.recorded = none

/-- The calls that put the user's settings back. -/
def Request.Restores (request : Request) : Prop :=
  request = .restoreAny ∨ ∃ profileId, request = .restore profileId

/-- What a call that restores owes: the desktop as in the snapshot, and both records gone. -/
structure Cleared (user : Settings) (s t : Desk Settings) : Prop where
  restored : ∀ record, s.ownership = some record → t.desktop = record.snapshot
  desktop : t.desktop = user
  memory : t.ownership = none
  disk : t.recorded = none

theorem Safe.recoverable (h : Safe user s) : Recoverable user s := by
  intro hchanged
  cases hrecorded : s.recorded with
  | none => exact absurd (h.intact hrecorded) hchanged
  | some record => exact ⟨record, rfl, h.recorded record hrecorded⟩

theorem Desk.Fresh.kept (h : s.Fresh) : Kept s.desktop s where
  recorded record hrecord := by
    rw [h.2] at hrecord
    cases hrecord
  intact _ := rfl
  held _ record hrecord := by
    rw [h.1] at hrecord
    cases hrecord
  idle _ _ := rfl

/-- A process that has ended knows nothing. -/
theorem Safe.ended (h : Safe user s) : Kept user s.ended :=
  { h with
    held hrunning := by cases hrunning
    idle hrunning := by cases hrunning }

/-- While a record is on disk, the desktop may be anything. -/
theorem Safe.of_recorded (hrecord : s.recorded = some record)
    (huser : record.snapshot = user) : Safe user s where
  recorded r hr := by
    rw [hrecord] at hr
    cases hr
    exact huser
  intact hnone := by
    rw [hrecord] at hnone
    cases hnone

/-- While the desktop is the user's, only a record on disk can be wrong about it. -/
theorem Safe.of_desktop (hdesktop : s.desktop = user)
    (hrecord : ∀ record, s.recorded = some record → record.snapshot = user) : Safe user s where
  recorded := hrecord
  intact _ := hdesktop

/-- A manager without a record, on a desktop that is the user's. -/
theorem Kept.of_idle (h : Safe user s) (hdesktop : s.desktop = user) (hnone : s.ownership = none) :
    Kept user s :=
  { h with
    held _ record hrecord := by
      rw [hnone] at hrecord
      cases hrecord
    idle _ _ := hdesktop }

/-- A manager that holds the record on disk. -/
theorem Kept.of_held (hmemory : s.ownership = some record)
    (hdisk : s.recorded = some record) (huser : record.snapshot = user) : Kept user s where
  recorded := (Safe.of_recorded hdisk huser).recorded
  intact := (Safe.of_recorded hdisk huser).intact
  held _ r hr := by
    rw [hmemory] at hr
    rw [hdisk, hr]
  idle _ hnone := by
    rw [hmemory] at hnone
    cases hnone

/-! ### Single steps -/

section
variable {Q : Unit → Desk Settings → Prop} {E : IoError → Desk Settings → Prop}
  {C : Desk Settings → Prop}

theorem wp_aside (hok : Q () s) (hfail : ∀ e, E e s) (hcrash : C s) :
    wp Lib.Verdict.Any aside Q E C s := by
  refine wp_step (fun _ => hcrash) (fun _ _ => hfail _) ?_ ?_
  · intro a s' h
    cases h
    exact hok
  · intro e s' h
    cases h

/-- The state with the memory's record in the document. -/
def Desk.saved (s : Desk Settings) : Desk Settings :=
  { s with file := some ⟨proxyStateDocumentVersion, s.ownership⟩ }

/-- A save is refused before the document changes, or behind it. -/
theorem wp_persist (hok : Q () s.saved) (hbefore : ∀ e, E e s) (hafter : ∀ e, E e s.saved)
    (hcrash : C s) (hcrashed : C s.saved) : wp Lib.Verdict.Any persist Q E C s := by
  refine wp_read ?_
  refine wp_bind (wp_aside ?_ hbefore hcrash)
  refine wp_bind (wp_aside ?_ hbefore hcrash)
  refine wp_bind (wp_aside ?_ hbefore hcrash)
  refine wp_bind (wp_step (fun _ => hcrash) (fun _ _ => hbefore _) ?_ ?_)
  · intro a s' h
    cases h
    exact wp_aside hok hafter hcrashed
  · intro e s' h
    cases h

/-- A change of the desktop that may stop anywhere. -/
theorem wp_change {act : Desk Settings → Desk Settings} (hok : Q () (act s)) (hcrash : C s)
    (hdamaged : ∀ left, C { s with desktop := left })
    (hfail : ∀ e left, E e { s with desktop := left }) :
    wp Lib.Verdict.Any (leaving (·.error) act Fault.damage) Q E C s :=
  wp_leaving hok hcrash (fun _ => hdamaged _) (fun _ _ => hfail _ _)

end

/-! ### The calls -/

/-- Putting a snapshot back: the common part of `restore` and `restore_any`. -/
theorem wp_putBack (hs : Kept user s)
    (hrunning : s.running = true) (hmemory : s.ownership = some record) : wp Lib.Verdict.Any
      (do
        adapter.restore record.snapshot
        setOwnership none
        persist)
      (fun _ t => Kept user t ∧ Cleared user s t) (fun _ => Kept user) (Safe user) s := by
  have hdisk := hs.held hrunning record hmemory
  have huser := hs.recorded record hdisk
  refine wp_bind (wp_change ?_ hs.toSafe ?_ ?_)
  · refine wp_write ?_
    -- from here on the desktop is the user's, whatever becomes of the document
    have hbefore : Safe user
        { s with desktop := record.snapshot, ownership := none } :=
      .of_desktop huser hs.recorded
    have hafter : Safe user
        (Desk.saved { s with desktop := record.snapshot, ownership := none }) :=
      .of_desktop huser (fun r hr => by cases hr)
    refine wp_persist ⟨.of_idle hafter huser rfl, ?_⟩ (fun _ => .of_idle hbefore huser rfl)
      (fun _ => .of_idle hafter huser rfl) hbefore hafter
    exact
      { restored := fun r hr => by
          rw [hmemory] at hr
          cases hr
          rfl
        desktop := huser
        memory := rfl
        disk := rfl }
  · intro left
    exact .of_recorded hdisk huser
  · intro e left
    exact .of_held hmemory hdisk huser

theorem wp_restore (profileId : String) (hs : Kept user s) (hrunning : s.running = true) :
    wp Lib.Verdict.Any (restore adapter profileId) (fun _ t => Kept user t ∧ Cleared user s t)
      (fun _ => Kept user) (Safe user) s := by
  refine wp_read ?_
  cases hmemory : s.ownership with
  | none => exact wp_throw hs
  | some record =>
    simp only
    split
    · exact wp_bind (wp_throw hs)
    · exact wp_putBack hs hrunning hmemory

/-- Without a record in memory nothing happens. -/
theorem restoreAny_none (hmemory : s.ownership = none) (vs : List (Lib.Verdict (Fault Settings))) :
    restoreAny adapter s vs = (.ok (), s, vs) := by
  rw [restoreAny, bind_apply, gets_apply, hmemory]
  rfl

theorem wp_restoreAny (hs : Kept user s) (hrunning : s.running = true) :
    wp Lib.Verdict.Any (restoreAny adapter)
      (fun _ t => Kept user t ∧ ((s.ownership = none → s.recorded = none) → Cleared user s t))
      (fun _ => Kept user) (Safe user) s := by
  refine wp_read ?_
  cases hmemory : s.ownership with
  | none =>
    refine wp_pure ⟨hs, fun hdisk => ?_⟩
    exact
      { restored := fun r hr => by
          rw [hmemory] at hr
          cases hr
        desktop := hs.idle hrunning hmemory
        memory := hmemory
        disk := hdisk rfl }
  | some record =>
    refine wp_post (wp_putBack hs hrunning hmemory) ?_
    intro _ t ht
    exact ⟨ht.1, fun _ => ht.2⟩

/-- Taking the desktop over. The record is on disk before the adapter starts, and stays there
until the user's settings are back. -/
theorem wp_applyServer (profileId server : String) (bypass : List String) (hs : Kept user s)
    (hrunning : s.running = true) :
    wp Lib.Verdict.Any (applyServer adapter profileId server bypass) (fun _ => Kept user)
      (fun _ => Kept user) (Safe user) s := by
  refine wp_read ?_
  cases hmemory : s.ownership with
  | some record => exact wp_bind (wp_throw hs)
  | none =>
    have hdesktop := hs.idle hrunning hmemory
    refine wp_bind (wp_step (fun _ => hs.toSafe) (fun _ _ => hs) ?_ (fun e s' h => by cases h))
    intro snapshot s' h
    cases h
    refine wp_write ?_
    generalize hrecord : (⟨profileId, s.desktop, server,
      ";".intercalate (bypassEntries adapter.defaultBypass bypass)⟩ :
        ProxyOwnership Settings) = record
    have huser : record.snapshot = user := by
      rw [← hrecord]
      exact hdesktop
    -- the record in memory, the document as it was, and the document with the record
    have hbefore : Safe user { s with ownership := some record } := .of_desktop hdesktop hs.recorded
    have hsaved : Safe user (Desk.saved { s with ownership := some record }) :=
      .of_recorded rfl huser
    have hrestored : Safe user { Desk.saved { s with ownership := some record } with
        ownership := none } := .of_recorded rfl huser
    have hcleared : Safe user (Desk.saved { Desk.saved { s with ownership := some record } with
        ownership := none }) := .of_desktop hdesktop (fun r hr => by cases hr)
    refine wp_tried (wp_persist ?_ ?_ ?_ hbefore hsaved)
    · refine wp_tried (wp_change (wp_pure (.of_held rfl rfl huser)) hsaved ?_ ?_)
      · intro left
        exact .of_recorded rfl huser
      · intro err left
        refine wp_tried (wp_change ?_ (.of_recorded rfl huser) ?_ ?_)
        · -- the snapshot is back: the record goes, from memory first
          refine wp_write ?_
          refine wp_tried (wp_persist ?_ ?_ ?_ ?_ ?_)
          · exact wp_throw (.of_idle hcleared hdesktop rfl)
          · intro err'
            exact wp_throw (.of_idle hrestored hdesktop rfl)
          · intro err'
            exact wp_throw (.of_idle hcleared hdesktop rfl)
          · exact hrestored
          · exact hcleared
        · intro left'
          exact .of_recorded rfl huser
        · intro err' left'
          exact wp_throw (.of_held rfl rfl huser)
    · intro err
      refine wp_write (wp_throw ?_)
      exact .of_idle (.of_desktop hdesktop hs.recorded) hdesktop rfl
    · intro err
      refine wp_write (wp_throw ?_)
      exact .of_idle (.of_recorded rfl huser) hdesktop rfl

theorem wp_loadDocument {E : IoError → Desk Settings → Prop} {C : Desk Settings → Prop}
    {Q : ProxyStateDocument Settings → Desk Settings → Prop}
    (hok : ∀ document, document.ownership = s.recorded → Q document s) (hfail : ∀ e, E e s)
    (hcrash : C s) : wp Lib.Verdict.Any loadDocument Q E C s := by
  refine wp_bind (wp_step (fun _ => hcrash) (fun _ _ => hfail _) ?_ (fun e s' h => by cases h))
  intro raw s' h
  cases h
  cases hfile : s.file with
  | none =>
    refine wp_pure (hok _ ?_)
    rw [Desk.recorded, hfile]
    rfl
  | some document =>
    simp only
    split
    · exact wp_throw (hfail _)
    · refine wp_pure (hok _ ?_)
      rw [Desk.recorded, hfile]
      rfl

/-- A new process takes over what the document says. -/
theorem wp_withAdapter (hs : Safe user s) :
    wp Lib.Verdict.Any withAdapter (fun _ => Kept user) (fun _ => Kept user) (Safe user) s := by
  have hended : Kept user s.ended := hs.ended
  refine wp_write (wp_read ?_)
  have hload : wp Lib.Verdict.Any (do
        let document ← loadDocument
        if s.file.isSome then aside
        modify fun s => { s with running := true, ownership := document.ownership })
      (fun _ => Kept user) (fun _ => Kept user) (Safe user) s.ended := by
    refine wp_bind (wp_loadDocument ?_ (fun _ => hended) hended.toSafe)
    intro document hdocument
    have htaken : Kept user
        { s.ended with running := true, ownership := document.ownership } :=
      { recorded := hs.recorded
        intact := hs.intact
        held := fun _ record hrecord => hdocument ▸ hrecord
        idle := fun _ hnone => hs.intact (hdocument ▸ hnone) }
    by_cases hfile : s.file.isSome
    · rw [if_pos hfile]
      exact wp_bind (wp_aside (wp_modify htaken) (fun _ => hended) hended.toSafe)
    · rw [if_neg hfile]
      exact wp_bind (wp_pure (wp_modify htaken))
  by_cases hfile : s.file.isSome
  · simp only [hfile, if_true] at hload ⊢
    exact wp_bind (wp_aside hload (fun _ => hended) hended.toSafe)
  · simp only [hfile, if_false, Bool.false_eq_true] at hload ⊢
    exact hload

variable {request : Request}

/-- Every call keeps the record right, and wherever it is cut off the document is safe. -/
theorem wp_call (hs : Kept user s) (hcall : Callable s request) :
    wp Lib.Verdict.Any (call adapter request) (fun _ => Kept user) (fun _ => Kept user) (Safe user)
      s := by
  have hrunning : request ≠ .restart → s.running = true := fun hne => hcall.resolve_left hne
  cases request with
  | apply profileId port bypass => exact wp_applyServer profileId _ bypass hs (hrunning (by simp))
  | applyWithHttp profileId socksPort httpPort bypass =>
    exact wp_applyServer profileId _ bypass hs (hrunning (by simp))
  | restore profileId =>
    exact wp_post (wp_restore profileId hs (hrunning (by simp))) (fun _ _ h => h.1)
  | restoreAny => exact wp_post (wp_restoreAny hs (hrunning (by simp))) (fun _ _ h => h.1)
  | restart => exact wp_withAdapter hs.toSafe

/-! ### Whole runs -/

theorem kept_of_reaches (hfresh : s.Fresh) (reached : Reaches (exec adapter) Callable s t) :
    Kept s.desktop t := by
  refine reached.invariant (C := fun _ => True) hfresh.kept ?_
  intro u request hu hcall
  refine wp_restarting (wp_mono (wp_call hu hcall) (fun _ _ h => h) (fun _ _ h => h) ?_)
  intro s' hs'
  exact hs'.ended

/-- A call that returned `Ok` has cleared both records, unless it is a `restore_any` that found
none in memory and left one on disk. -/
theorem cleared_iff (hs : Kept user s) (hcall : Callable s request) :
    (request.Restores → ∀ vs u vs', call adapter request s vs = (.ok (), u, vs') →
        Cleared user s u) ↔
      (request = .restoreAny → s.ownership = none → s.recorded = none) := by
  constructor
  · intro hcleared hany hmemory
    subst hany
    have hend := hcleared (.inl rfl) [] s [] (restoreAny_none hmemory [])
    exact hend.disk
  · intro hdisk hrestores vs u vs' hrun
    obtain rfl | ⟨profileId, rfl⟩ := hrestores
    · have hrunning : s.running = true := hcall.resolve_left (by simp)
      exact (of_wp_ok (wp_restoreAny hs hrunning) hrun).2 (hdisk rfl)
    · have hrunning : s.running = true := hcall.resolve_left (by simp)
      exact (of_wp_ok (wp_restore profileId hs hrunning) hrun).2

/-- In every run from a machine without a record, and at every instant of every call, the document
on disk can put the user's settings back. A call that restores returns `Ok` only with the settings
in place and both records gone, if and only if it is no `restore_any` whose manager has lost the
record that is still on disk. -/
theorem settings_never_lost (adapter : ProxyAdapter Settings) {start t : Desk Settings}
    (hfresh : start.Fresh) (reached : Reaches (exec adapter) Callable start t) :
    Recoverable start.desktop t ∧
      ∀ request, Callable t request →
        (∀ vs o u vs', call adapter request t vs = (o, u, vs') → Recoverable start.desktop u) ∧
          ((request.Restores → ∀ vs u vs', call adapter request t vs = (.ok (), u, vs') →
              Cleared start.desktop t u) ↔
            (request = .restoreAny → t.ownership = none → t.recorded = none)) := by
  have ht := kept_of_reaches hfresh reached
  refine ⟨ht.toSafe.recoverable, fun request hcall => ⟨?_, cleared_iff ht hcall⟩⟩
  intro vs o u vs' hrun
  have hend : Ends Lib.Verdict.Any (fun _ => Kept start.desktop) (fun _ => Kept start.desktop)
      (Safe start.desktop) (call adapter request t vs) :=
    wp_call ht hcall vs (fun _ _ => trivial)
  rw [hrun] at hend
  cases o with
  | ok value => exact hend.2.toSafe.recoverable
  | err e => exact hend.2.toSafe.recoverable
  | crash => exact Safe.recoverable hend

/-! ### A record that outlives its manager's -/

/-- Settings that are the server's text alone. -/
def textAdapter : ProxyAdapter String := ⟨fun server _ _ => server, []⟩

def untouched : Desk String := ⟨"direct", none, false, none⟩

/-- A save that finds the disk full. -/
def diskFull : Lib.Verdict (Fault String) := .fail ⟨⟨.other, "No space left on device"⟩, none⟩

def officeRecord : ProxyOwnership String := ⟨"office", "direct", "socks=127.0.0.1:10808", ""⟩

/-- The desktop points at the office profile, and the record is in memory and on disk. -/
def office : Desk String :=
  ⟨"socks=127.0.0.1:10808", some ⟨proxyStateDocumentVersion, some officeRecord⟩, true,
    some officeRecord⟩

/-- The desktop is back, the record in memory is gone, and the one on disk is not. -/
def unsaved : Desk String :=
  ⟨"direct", some ⟨proxyStateDocumentVersion, some officeRecord⟩, true, none⟩

/-- One more call of a run, under a given schedule. -/
theorem reaches_call (request : Request) (vs : List (Lib.Verdict (Fault String)))
    {s t u : Desk String} {o : Outcome IoError Unit} {vs' : List (Lib.Verdict (Fault String))}
    (before : Reaches (exec textAdapter) Callable s t) (hcall : Callable t request)
    (hrun : exec textAdapter request t vs = (o, u, vs')) (halive : o ≠ .crash) :
    Reaches (exec textAdapter) Callable s u :=
  .call before hcall hrun halive

theorem office_reached : Reaches (exec textAdapter) Callable untouched office := by
  have hstarted : Reaches (exec textAdapter) Callable untouched ⟨"direct", none, true, none⟩ :=
    reaches_call .restart [] .start (.inl rfl) rfl (by simp)
  exact reaches_call (.apply "office" 10808 []) [] hstarted (.inr rfl) rfl (by simp)

theorem unsaved_reached : Reaches (exec textAdapter) Callable untouched unsaved :=
  reaches_call (.restore "office") [.proceed, diskFull] office_reached (.inr rfl) rfl (by simp)

/-- `restore_any` returns `Ok` there, and the record stays on disk. -/
theorem restore_any_leaves_record :
    ¬ ∀ start t, start.Fresh → Reaches (exec textAdapter) Callable start t →
      ∀ request, Callable t request → request.Restores →
        ∀ vs u vs', call textAdapter request t vs = (.ok (), u, vs') →
          Cleared start.desktop t u := by
  intro hclaim
  have hend := hclaim untouched unsaved ⟨rfl, rfl⟩ unsaved_reached .restoreAny (.inr rfl)
    (.inl rfl) [] unsaved [] rfl
  exact absurd hend.disk (by decide)

/-- The office's own `restore`, undisturbed, gives everything back. -/
theorem office_settings_kept :
    Recoverable untouched.desktop office ∧
      Cleared untouched.desktop office
        ⟨"direct", some ⟨proxyStateDocumentVersion, none⟩, true, none⟩ := by
  have h := settings_never_lost textAdapter ⟨rfl, rfl⟩ office_reached
  have hcleared := (h.2 (.restore "office") (.inr rfl)).2.mpr (fun hany => by cases hany)
  exact ⟨h.1, hcleared (.inr ⟨"office", rfl⟩) [] _ [] rfl⟩

end NetOrchestrator.Core.SystemProxy
