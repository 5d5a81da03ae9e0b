import NetOrchestrator.Proofs.MachineFrames

/-!
# `Proofs.DnsSnapshots`: the user's DNS setting and its snapshots

While the DNS setting is not the user's, some journal has to hold the user's. `DnsKept` is that
invariant between two requests. Inside a request the executor has its session or its new record in
hand, and there are two more situations: `Pending`, where it has not touched the DNS, so that it
may drop its journal, and `Carried`, where it may have, with a genuine snapshot in its record.

The lemmas about states come first, then one rule for each step that touches the DNS or a journal.
-/

namespace NetOrchestrator.Macos

open Net Lib Lib.Call Verdict

/-- The journal of an executor holds a snapshot, and a running session has not forgotten it. -/
def Machine.Holds (w : Machine) (kind : Kind) : Prop :=
  ∃ record, w.journal (.tunnel kind) = some record ∧ record.dns.isSome = true ∧
    ∀ session, w.sessionRecord (.tunnel kind) = some session → session.dns.isSome = true

/-- Every snapshot is the user's setting, and there is one while the setting is another. -/
structure DnsKept (user : List DnsLine) (w : Machine) : Prop where
  journaled : ∀ kind record servers, w.journal (.tunnel kind) = some record →
    record.dns = some servers → dnsOf servers = user
  remembered : ∀ kind record servers, w.sessionRecord (.tunnel kind) = some record →
    record.dns = some servers → dnsOf servers = user
  held : w.dns ≠ user → ∃ kind, w.Holds kind

def DnsSafe (user : List DnsLine) (w : Machine) : Prop := w.dnsClean = true → DnsKept user w

/-- This executor does not have to answer for the setting. -/
def Untouched (user : List DnsLine) (kind : Kind) (w : Machine) : Prop :=
  w.dns ≠ user → ∃ other, other ≠ kind ∧ w.Holds other

def Genuine (user : List DnsLine) (snapshot : Option (List IpAddr)) : Prop :=
  ∀ servers, snapshot = some servers → dnsOf servers = user

/-- The executor has no session and has not touched the DNS. -/
structure Pending (user : List DnsLine) (kind : Kind) (snapshot : Option (List IpAddr))
    (w : Machine) : Prop where
  idle : w.sessionRecord (.tunnel kind) = none
  safe : w.dnsClean = true → DnsKept user w ∧ Genuine user snapshot ∧ Untouched user kind w

/-- The executor has a record in hand, with the snapshot to restore if it touched the DNS. -/
structure Carried (user : List DnsLine) (kind : Kind) (snapshot : Option (List IpAddr))
    (w : Machine) : Prop where
  idle : w.sessionRecord (.tunnel kind) = none
  safe : w.dnsClean = true →
    DnsKept user w ∧ Genuine user snapshot ∧ (snapshot = none → Untouched user kind w)

/-- The part of the state that these are about. -/
structure DnsSame (w w' : Machine) : Prop where
  dns : w'.dns = w.dns
  journal : w'.journal = w.journal
  record : w'.sessionRecord = w.sessionRecord
  dnsClean : w'.dnsClean = w.dnsClean

instance : Coarser Aside DnsSame := ⟨fun h => ⟨h.dns, h.journal, h.record, h.dnsClean⟩⟩

instance : Coarser Trimmed DnsSame := ⟨fun h => ⟨h.dns, h.journal, h.record, h.dnsClean⟩⟩

instance : Coarser Rerouted DnsSame := ⟨fun h => ⟨h.dns, h.journal, h.record, h.dnsClean⟩⟩

section
variable {user : List DnsLine} {kind : Kind} {snapshot : Option (List IpAddr)} {w w' : Machine}
variable {record : Record}

theorem DnsSame.holds (h : DnsSame w w') (hholds : w.Holds kind) : w'.Holds kind := by
  obtain ⟨record, hjournal, hdns, hsession⟩ := hholds
  refine ⟨record, by rw [h.journal]; exact hjournal, hdns, ?_⟩
  rw [h.record]
  exact hsession

theorem DnsSame.kept (h : DnsSame w w') (hkept : DnsKept user w) : DnsKept user w' where
  journaled := by
    rw [h.journal]
    exact hkept.journaled
  remembered := by
    rw [h.record]
    exact hkept.remembered
  held := by
    rw [h.dns]
    intro hne
    obtain ⟨kind, hholds⟩ := hkept.held hne
    exact ⟨kind, h.holds hholds⟩

theorem DnsSame.untouched (h : DnsSame w w') (hun : Untouched user kind w) :
    Untouched user kind w' := by
  intro hne
  rw [h.dns] at hne
  obtain ⟨other, hother, hholds⟩ := hun hne
  exact ⟨other, hother, h.holds hholds⟩

theorem respects_dnsSafe : Respects DnsSame (DnsSafe user) := by
  intro w w' h hsafe hclean
  rw [h.dnsClean] at hclean
  exact h.kept (hsafe hclean)

theorem respects_pending : Respects DnsSame (Pending user kind snapshot) := by
  intro w w' h hpending
  refine ⟨by rw [h.record]; exact hpending.idle, ?_⟩
  intro hclean
  rw [h.dnsClean] at hclean
  obtain ⟨hkept, hgenuine, hun⟩ := hpending.safe hclean
  exact ⟨h.kept hkept, hgenuine, h.untouched hun⟩

theorem respects_carried : Respects DnsSame (Carried user kind snapshot) := by
  intro w w' h hcarried
  refine ⟨by rw [h.record]; exact hcarried.idle, ?_⟩
  intro hclean
  rw [h.dnsClean] at hclean
  obtain ⟨hkept, hgenuine, hun⟩ := hcarried.safe hclean
  exact ⟨h.kept hkept, hgenuine, fun hnone => h.untouched (hun hnone)⟩

theorem Pending.carried (h : Pending user kind snapshot w) : Carried user kind snapshot w := by
  refine ⟨h.idle, ?_⟩
  intro hclean
  obtain ⟨hkept, hgenuine, hun⟩ := h.safe hclean
  exact ⟨hkept, hgenuine, fun _ => hun⟩

theorem Carried.dnsSafe (h : Carried user kind snapshot w) : DnsSafe user w :=
  fun hclean => (h.safe hclean).1

theorem Pending.dnsSafe (h : Pending user kind snapshot w) : DnsSafe user w := h.carried.dnsSafe

theorem Pending.forget (h : Pending user kind snapshot w) : Pending user kind none w := by
  refine ⟨h.idle, ?_⟩
  intro hclean
  obtain ⟨hkept, _, hun⟩ := h.safe hclean
  refine ⟨hkept, ?_, hun⟩
  intro servers hnone
  cases hnone

variable {other : Kind} {new : Option Record}

/-- Another executor's journal and session are not affected by what this one writes. -/
theorem holds_of_other (hother : other ≠ kind)
    (hjournal : ∀ k, k ≠ kind → w'.journal (.tunnel k) = w.journal (.tunnel k))
    (hrecord : ∀ k, k ≠ kind → w'.sessionRecord (.tunnel k) = w.sessionRecord (.tunnel k))
    (h : w.Holds other) : w'.Holds other := by
  obtain ⟨record, hj, hdns, hsession⟩ := h
  refine ⟨record, by rw [hjournal other hother]; exact hj, hdns, ?_⟩
  rw [hrecord other hother]
  exact hsession

theorem journal_update_other (journal : Component → Option Record) (new : Option Record)
    (hother : other ≠ kind) :
    Function.update journal (.tunnel kind) new (.tunnel other) = journal (.tunnel other) :=
  Function.update_of_ne (fun h => hother (Component.tunnel.inj h)) _ _

/-- A journal that changes: a genuine snapshot, or none if there is nothing to answer for. -/
theorem DnsKept.write (h : DnsKept user w)
    (hgenuine : ∀ record servers, new = some record → record.dns = some servers →
      dnsOf servers = user) (hheld : w.dns ≠ user → ∃ k, (w.journaled (.tunnel kind) new).Holds k) :
    DnsKept user (w.journaled (.tunnel kind) new) where
  journaled := by
    intro k record servers hj hdns
    by_cases hk : k = kind
    · subst hk
      exact hgenuine record servers ((journal_journaled ..).symm.trans hj) hdns
    · exact h.journaled k record servers ((journal_update_other _ _ hk).symm.trans hj) hdns
  remembered := h.remembered
  held := hheld

theorem Pending.journaled (h : Pending user kind snapshot w)
    (hdns : ∀ record, new = some record → record.dns = none ∨ record.dns = snapshot) :
    Pending user kind snapshot (w.journaled (.tunnel kind) new) := by
  refine ⟨h.idle, ?_⟩
  intro hclean
  obtain ⟨hkept, hgenuine, hun⟩ := h.safe hclean
  have hun' : Untouched user kind (w.journaled (.tunnel kind) new) := by
    intro hne
    obtain ⟨other, hne', hholds⟩ := hun hne
    exact ⟨other, hne', holds_of_other hne' (fun _ hk => journal_update_other _ _ hk)
      (fun _ _ => rfl) hholds⟩
  refine ⟨hkept.write ?_ fun hne => ?_, hgenuine, hun'⟩
  · intro record servers hrecord hservers
    rcases hdns record hrecord with hnone | hsnap
    · rw [hnone] at hservers
      cases hservers
    · exact hgenuine servers (hsnap.symm.trans hservers)
  · obtain ⟨other, _, hholds⟩ := hun' hne
    exact ⟨other, hholds⟩

theorem Carried.save (h : Carried user kind snapshot w) (hdns : record.dns = snapshot) :
    Carried user kind snapshot (w.saved (.tunnel kind) record) := by
  cases snapshot with
  | none =>
    -- Nothing was touched, so this is the case of a pending record.
    have hpending : Pending user kind none w :=
      ⟨h.idle, fun hclean => ⟨(h.safe hclean).1, (h.safe hclean).2.1, (h.safe hclean).2.2 rfl⟩⟩
    exact (hpending.journaled (by rintro _ ⟨⟩; exact .inl hdns)).carried
  | some servers =>
    refine ⟨h.idle, ?_⟩
    intro hclean
    obtain ⟨hkept, hgenuine, _⟩ := h.safe hclean
    have hself : (w.saved (.tunnel kind) record).Holds kind := by
      refine ⟨record, journal_saved .., by simp [hdns], ?_⟩
      intro session hsession
      cases h.idle.symm.trans hsession
    refine ⟨hkept.write ?_ fun _ => ⟨kind, hself⟩, hgenuine, by simp⟩
    rintro _ s ⟨⟩ hs
    exact hgenuine s (hdns.symm.trans hs)

/-- A session is taken in hand. -/
theorem Carried.of_session (h : DnsSafe user w)
    (hsession : w.sessionRecord (.tunnel kind) = some record)
    (hidle : w'.sessionRecord (.tunnel kind) = none)
    (hother : ∀ k, k ≠ kind → w'.sessionRecord (.tunnel k) = w.sessionRecord (.tunnel k))
    (hdns : w'.dns = w.dns) (hjournal : w'.journal = w.journal)
    (hflag : w'.dnsClean = w.dnsClean) : Carried user kind record.dns w' := by
  refine ⟨hidle, ?_⟩
  intro hclean
  rw [hflag] at hclean
  have hkept := h hclean
  have hholds : ∀ k, w.Holds k → w'.Holds k := by
    intro k hk
    by_cases hkind : k = kind
    · subst hkind
      obtain ⟨r, hr, hsome, _⟩ := hk
      refine ⟨r, by rw [hjournal]; exact hr, hsome, ?_⟩
      intro session hs
      rw [hidle] at hs
      cases hs
    · exact holds_of_other hkind (fun k _ => by rw [hjournal]) hother hk
  refine ⟨⟨?_, ?_, ?_⟩, ?_, ?_⟩
  · rw [hjournal]
    exact hkept.journaled
  · intro k r servers hr hservers
    by_cases hk : k = kind
    · subst hk
      rw [hidle] at hr
      cases hr
    · rw [hother k hk] at hr
      exact hkept.remembered k r servers hr hservers
  · intro hne
    rw [hdns] at hne
    obtain ⟨k, hk⟩ := hkept.held hne
    exact ⟨k, hholds k hk⟩
  · exact fun servers hservers => hkept.remembered kind record servers hsession hservers
  · intro hnone hne
    rw [hdns] at hne
    obtain ⟨k, hk⟩ := hkept.held hne
    refine ⟨k, ?_, hholds k hk⟩
    rintro rfl
    obtain ⟨_, _, _, hremembers⟩ := hk
    exact absurd (hremembers record hsession) (by simp [hnone])

section
variable (h : DnsSafe user w) (hidle : w.sessionRecord (.tunnel kind) = none)
include h hidle

/-- A leftover journal is taken in hand. -/
theorem Carried.of_journal (hjournal : w.journal (.tunnel kind) = some record) :
    Carried user kind record.dns w := by
  refine ⟨hidle, ?_⟩
  intro hclean
  have hkept := h hclean
  refine ⟨hkept, fun servers hservers => hkept.journaled kind record servers hjournal hservers, ?_⟩
  intro hnone hne
  obtain ⟨k, hk⟩ := hkept.held hne
  refine ⟨k, ?_, hk⟩
  rintro rfl
  obtain ⟨r, hr, hsome, _⟩ := hk
  obtain rfl : record = r := Option.some.inj (hjournal.symm.trans hr)
  rw [hnone] at hsome
  cases hsome

/-- Without a journal there is nothing to answer for. -/
theorem Pending.of_no_journal (hjournal : w.journal (.tunnel kind) = none) :
    Pending user kind none w := by
  refine ⟨hidle, ?_⟩
  intro hclean
  refine ⟨h hclean, (fun servers hnone => by cases hnone), ?_⟩
  intro hne
  obtain ⟨k, hk⟩ := (h hclean).held hne
  refine ⟨k, ?_, hk⟩
  rintro rfl
  obtain ⟨r, hr, _⟩ := hk
  rw [hjournal] at hr
  cases hr

end

/-- A session starts with the record in hand. -/
theorem Carried.start (h : Carried user kind snapshot w)
    (hdns : record.dns = snapshot) (hsession : w'.sessionRecord (.tunnel kind) = some record)
    (hother : ∀ k, k ≠ kind → w'.sessionRecord (.tunnel k) = w.sessionRecord (.tunnel k))
    (hsame : w'.dns = w.dns) (hjournal : w'.journal = w.journal)
    (hflag : w'.dnsClean = w.dnsClean) : DnsSafe user w' := by
  intro hclean
  rw [hflag] at hclean
  obtain ⟨hkept, hgenuine, hun⟩ := h.safe hclean
  refine ⟨?_, ?_, ?_⟩
  · rw [hjournal]
    exact hkept.journaled
  · intro k r servers hr hservers
    by_cases hk : k = kind
    · subst hk
      obtain rfl : record = r := Option.some.inj (hsession.symm.trans hr)
      exact hgenuine servers (hdns.symm.trans hservers)
    · rw [hother k hk] at hr
      exact hkept.remembered k r servers hr hservers
  · intro hne
    rw [hsame] at hne
    cases snapshot with
    | none =>
      obtain ⟨k, hk, hholds⟩ := hun rfl hne
      exact ⟨k, holds_of_other hk (fun k _ => by rw [hjournal]) hother hholds⟩
    | some servers =>
      obtain ⟨k, hholds⟩ := hkept.held hne
      by_cases hk : k = kind
      · subst hk
        obtain ⟨r, hr, hsome, _⟩ := hholds
        refine ⟨k, r, by rw [hjournal]; exact hr, hsome, ?_⟩
        intro session hs
        obtain rfl : record = session := Option.some.inj (hsession.symm.trans hs)
        simp [hdns]
      · exact ⟨k, holds_of_other hk (fun k _ => by rw [hjournal]) hother hholds⟩

/-- What a crash leaves. -/
theorem DnsSafe.restarted (h : DnsSafe user w) (gone : String → Bool) :
    DnsSafe user (w.restarted gone) := by
  intro hclean
  have hkept := h hclean
  have hidle : ∀ k, (w.restarted gone).sessionRecord (.tunnel k) = none := by
    intro k
    cases k <;> rfl
  refine ⟨hkept.journaled, ?_, ?_⟩
  · intro k r servers hr
    rw [hidle k] at hr
    cases hr
  · intro hne
    obtain ⟨k, r, hr, hsome, _⟩ := hkept.held hne
    refine ⟨k, r, hr, hsome, ?_⟩
    intro session hs
    rw [hidle k] at hs
    cases hs

end

/-! ### Steps that leave all of this alone -/

section
variable (who : Component)

theorem dnsFree_applyResolvers (servers : List IpAddr) (written domains : List String) :
    Preserves DnsSame (applyResolvers who servers written domains) := by
  induction domains generalizing written with
  | nil => exact .pure written
  | cons domain rest ih =>
    apply Preserves.bind (.gets _)
    intro ours
    refine .ite (Preserves.bind ?_ fun _ => ih _) (ih written)
    exact preserves_command (S := DnsSame) fun _ => ⟨rfl, rfl, rfl, rfl⟩

theorem dnsFree_resolverApply (domains : List String) (servers : List IpAddr) :
    Preserves DnsSame (resolverApply who domains servers) :=
  .ite (.pure []) ((aside_reading _).bind fun _ => dnsFree_applyResolvers who _ [] domains)

end

theorem dnsFree_resolverRemove (domains : List String) :
    Preserves DnsSame (resolverRemove domains) := by
  apply Preserves.forEach
  intro domain
  apply Preserves.bind (.gets _)
  intro ours
  exact .ite (Quietly.preserves (quietly_undoing (S := DnsSame) (fun _ => ⟨rfl, rfl, rfl, rfl⟩)
    fun _ => ⟨rfl, rfl, rfl, rfl⟩)) (.pure ())

/-! ### Journals -/

section
variable {user : List DnsLine} {kind : Kind} {snapshot : Option (List IpAddr)} {w : Machine}
variable {record : Record} {own : List IpAddr}

/-- The journal is as `record` says, apart from the flags. -/
theorem wp_saveJournal {I : Machine → Prop} (hI : I w)
    (hsaved : I (w.saved (.tunnel kind) record)) (hrespects : Respects DnsSame I) :
    wp Any (saveJournal (.tunnel kind) record)
      (fun _ w' => I w' ∧ w'.journal (.tunnel kind) = some record) (fun _ => I) I w := by
  apply wp_tried
  apply wp_command hI
  · intro fault
    exact wp_write (wp_throw (hrespects w _ ⟨rfl, rfl, rfl, rfl⟩ hI))
  · exact wp_pure ⟨hsaved, journal_saved _ _ w⟩

theorem wp_save_pending (h : Pending user kind snapshot w)
    (hdns : record.dns = none ∨ record.dns = snapshot) : wp Any (saveJournal (.tunnel kind) record)
      (fun _ w' => Pending user kind snapshot w' ∧ w'.journal (.tunnel kind) = some record)
      (fun _ => Pending user kind snapshot) (Pending user kind snapshot) w :=
  wp_saveJournal h (h.journaled (by rintro _ ⟨⟩; exact hdns)) respects_pending

theorem keeps_trySave_carried (hdns : record.dns = snapshot) :
    Keeps Any (Carried user kind snapshot) (trySave (.tunnel kind) record) := by
  intro w h
  apply wp_discard
  apply wp_attempt
  refine wp_post (wp_saveJournal h ?_ respects_carried) (fun _ _ hq => hq.1)
  exact h.save hdns

theorem keeps_trySave_pending (hdns : record.dns = none) :
    Keeps Any (Pending user kind snapshot) (trySave (.tunnel kind) record) := by
  intro w h
  apply wp_discard
  apply wp_attempt
  exact wp_post (wp_save_pending h (.inl hdns)) (fun _ _ hq => hq.1)

theorem keeps_clearJournal :
    Keeps Any (Pending user kind snapshot) (clearJournal (.tunnel kind)) := by
  intro w h
  apply wp_tried
  apply wp_command h
  · intro fault
    exact wp_write (wp_throw (respects_pending w _ ⟨rfl, rfl, rfl, rfl⟩ h))
  · exact wp_pure (h.journaled (by simp))

theorem keeps_tryClear : Keeps Any (Pending user kind snapshot) (tryClear (.tunnel kind)) := by
  intro w h
  exact wp_discard (wp_attempt (keeps_clearJournal w h))

/-! ### The setting -/

/-- A snapshot that nobody objects to is the user's setting. -/
theorem wp_takeSnapshot (service : Bool) (h : Pending user kind none w) :
    wp Any (takeSnapshot (.tunnel kind) service)
      (fun taken => Pending user kind taken) (fun _ => Pending user kind none)
      (Pending user kind none) w := by
  apply wp_tried
  apply wp_bind
  refine wp_ends ((aside_reading _).keeps respects_pending w h) ?_
    (fun _ _ he => wp_pure he)
  intro _ v hv
  apply wp_reading hv (fun _ => wp_pure hv)
  · intro servers hservers
    cases hservers
    apply wp_write
    apply wp_pure
    refine ⟨hv.idle, ?_⟩
    intro hclean
    simp only [Machine.snapshotTaken, Bool.and_eq_true, Bool.not_eq_true', beq_iff_eq] at hclean
    obtain ⟨⟨hbefore, helse⟩, hlossless⟩ := hclean
    obtain ⟨hkept, _, hun⟩ := hv.safe hbefore
    have hsame : DnsKept user (v.snapshotTaken (.tunnel kind)) :=
      ⟨hkept.journaled, hkept.remembered, hkept.held⟩
    refine ⟨hsame, ?_, hun⟩
    -- Another executor that had to answer for the setting would hold a snapshot.
    have huser : v.dns = user := by
      by_contra hne
      obtain ⟨other, hother, record, hrecord, hsome, _⟩ := hun hne
      have htrue : v.snapshotElsewhere (.tunnel kind) = true := by
        apply List.any_eq_true.mpr
        refine ⟨other, by cases other <;> simp [Kind.all], ?_⟩
        simp [hrecord, hsome, hother]
      exact absurd (helse.symm.trans htrue) (by decide)
    intro s hs
    cases hs
    exact hlossless.trans huser
  · intro e he
    cases he

section
variable (h : Carried user kind (some own) w)
include h

/-- The setting is changed while the journal has the snapshot. -/
theorem wp_setDns {servers : List IpAddr} (hjournal : w.dnsClean = true →
      ∃ record, w.journal (.tunnel kind) = some record ∧ record.dns.isSome = true) :
    wp Any (setDns servers) (fun _ => Carried user kind (some own))
      (fun _ => Carried user kind (some own)) (DnsSafe user) w := by
  have hset : Carried user kind (some own) { w with dns := dnsOf servers } := by
    refine ⟨h.idle, ?_⟩
    intro hclean
    obtain ⟨hkept, hgenuine, _⟩ := h.safe hclean
    obtain ⟨record, hrecord, hsome⟩ := hjournal hclean
    refine ⟨⟨hkept.journaled, hkept.remembered, fun _ => ⟨kind, record, hrecord, hsome, ?_⟩⟩,
      hgenuine, by simp⟩
    intro session hs
    exact absurd (hs.symm.trans h.idle) (by simp)
  apply wp_bind
  apply wp_command h.dnsSafe (fun _ => h)
  exact (aside_reading _).wp respects_carried hset (fun _ _ hc => hc)
    (fun _ _ hc => hc) (fun _ hc => hc.dnsSafe)

/-- The setting is the user's again. -/
theorem Carried.restored : Pending user kind (some own) { w with dns := dnsOf own } := by
  refine ⟨h.idle, ?_⟩
  intro hclean
  obtain ⟨hkept, hgenuine, _⟩ := h.safe hclean
  have huser : dnsOf own = user := hgenuine own rfl
  exact ⟨⟨hkept.journaled, hkept.remembered, fun hne => absurd huser hne⟩, hgenuine,
    fun hne => absurd huser hne⟩

theorem wp_setDns_back : wp Any (setDns own) (fun _ => Pending user kind (some own))
      (fun _ => Carried user kind (some own)) (DnsSafe user) w := by
  apply wp_bind
  apply wp_command h.dnsSafe (fun _ => h)
  exact (aside_reading _).wp respects_pending h.restored (fun _ _ hp => hp)
    (fun _ _ hp => hp.carried) (fun _ hp => hp.dnsSafe)

theorem wp_tryRestore :
    wp Any (tryRestore own) (fun _ => Pending user kind (some own)) (fun _ _ => False)
      (DnsSafe user) w := by
  refine wp_either (wp_setDns_back h) (fun _ _ hp => wp_pure hp) ?_
  intro e v hv
  exact wp_modify ⟨hv.idle, fun hclean => by cases hclean⟩

end

theorem wp_restoreDns (h : Carried user kind snapshot w) : wp Any (restoreDns snapshot)
      (fun restored w' =>
        Carried user kind snapshot w' ∧ (restored = true → Pending user kind snapshot w'))
      (fun _ _ => False) (DnsSafe user) w := by
  cases snapshot with
  | none =>
    have hpending : Pending user kind none w :=
      ⟨h.idle, fun hclean => ⟨(h.safe hclean).1, (h.safe hclean).2.1, (h.safe hclean).2.2 rfl⟩⟩
    exact wp_pure ⟨h, fun _ => hpending⟩
  | some own =>
    refine wp_either (wp_setDns_back h) (fun _ _ hp => wp_pure ⟨hp.carried, fun _ => hp⟩) ?_
    intro e v hv
    refine wp_write (wp_pure ⟨?_, fun hf => by cases hf⟩)
    exact respects_carried v _ ⟨rfl, rfl, rfl, rfl⟩ hv

/-! ### Undoing a record -/

theorem wp_undoRecord {rest : HelperProg Unit} (hrest : Preserves DnsSame rest)
    (h : Carried user kind record.dns w) : wp Any (undoRecord (.tunnel kind) record rest)
      (fun _ => Pending user kind record.dns) (fun _ => Carried user kind record.dns)
      (DnsSafe user) w := by
  apply wp_after (wp_restoreDns h)
  rintro restored v ⟨hcarried, hpending⟩
  apply wp_bind
  cases restored with
  | true =>
    refine (rerouted_removeRoutes _ _).wp respects_pending (hpending rfl) ?_
      (fun _ _ hp => hp.carried) (fun _ hp => hp.dnsSafe)
    intro _ u hu
    apply wp_bind
    refine hrest.wp respects_pending hu ?_ (fun _ _ hp => hp.carried) (fun _ hp => hp.dnsSafe)
    intro _ x hx
    exact wp_mono (keeps_clearJournal x hx) (fun _ _ hp => hp) (fun _ _ hp => hp.carried)
      (fun _ hp => hp.dnsSafe)
  | false =>
    refine (rerouted_removeRoutes _ _).wp respects_carried hcarried ?_ (fun _ _ hp => hp)
      (fun _ hp => hp.dnsSafe)
    intro _ u hu
    apply wp_bind
    exact hrest.wp respects_carried hu (fun _ _ hp => wp_throw hp) (fun _ _ hp => hp)
      (fun _ hp => hp.dnsSafe)

theorem wp_recoverLocked {kill : Nat → HelperProg Unit} {rest : Record → HelperProg Unit}
    (hkill : ∀ pid, Preserves DnsSame (kill pid)) (hrest : ∀ record, Preserves DnsSame (rest record))
    (h : DnsSafe user w) (hidle : w.sessionRecord (.tunnel kind) = none) :
    wp Any (recoverLocked (.tunnel kind) kill rest) (fun _ => Pending user kind none)
      (fun _ => DnsSafe user) (DnsSafe user) w := by
  apply wp_bind
  apply wp_reading h (fun _ => h)
  · intro found hfound
    cases hfound
    cases hjournal : w.journal (.tunnel kind) with
    | none => exact wp_pure (Pending.of_no_journal h hidle hjournal)
    | some record =>
      apply wp_bind
      refine (hkill record.pid).wp respects_carried (Carried.of_journal h hidle hjournal) ?_
        (fun _ _ hp => hp.dnsSafe) (fun _ hp => hp.dnsSafe)
      intro _ u hu
      exact wp_ends (wp_undoRecord (hrest record) hu) (fun _ _ hp => hp.forget)
        (fun _ _ hp => hp.dnsSafe)
  · intro e he
    cases he

end

end NetOrchestrator.Macos
