import NetOrchestrator.Daemon.ClientSessions
import NetOrchestrator.Lib.Steps
import NetOrchestrator.Proofs.OwnerFrame

/-!
# `Proofs.ClientSessions`: whose session is cleaned up

`sessions_kept` is about every run of clients, clock and watch loop. Three things can go
wrong, and its condition excludes exactly these. A process that got the pid of a dead client
which the tracker still lists is not tracked. A client that connects between the report of its
uid and the cleanup is not seen. And when the always-on store does not answer, the cleanup
keeps nothing.

`SessionInv` is the invariant: a registered process that is alive is listed, an armed grace
period starts after the last of them has died, and a reported uid without a new client has had
none for the whole period.
-/

namespace NetOrchestrator.Daemon

open Net Lib Lib.Call List Option Verdict

/-! ### The tracker -/

section
variable {tracker : ClientTracker} {uid pid handle now grace : Nat} {alive : Nat → Bool}
variable {uid' : Nat} {entry' entry : TrackedClient}

theorem exists_mem_track (uid pid handle : Nat) (tracker : ClientTracker) :
    ∃ entry, (uid, entry) ∈ tracker.track uid pid handle ∧ entry.deadSince = none := by
  unfold ClientTracker.track
  split
  · rename_i hany
    obtain ⟨⟨uid', entry⟩, hmem, heq⟩ := any_eq_true.mp hany
    obtain rfl : uid' = uid := by simpa using heq
    refine ⟨entry.register pid handle, ?_, rfl⟩
    exact mem_map.mpr ⟨_, hmem, by simp⟩
  · exact ⟨TrackedClient.register pid handle ⟨[], none⟩, by simp, rfl⟩

/-- Where an entry of the new tracker comes from. -/
theorem of_mem_track (h : (uid', entry') ∈ tracker.track uid pid handle) :
    (uid' ≠ uid ∧ (uid', entry') ∈ tracker) ∨ (uid' = uid ∧ entry'.deadSince = none) := by
  unfold ClientTracker.track at h
  split at h
  · obtain ⟨⟨u, entry⟩, hmem, heq⟩ := mem_map.mp h
    by_cases hu : u = uid
    · rw [if_pos hu] at heq
      obtain ⟨rfl, rfl⟩ := Prod.mk.inj heq
      exact .inr ⟨hu, rfl⟩
    · rw [if_neg hu] at heq
      obtain ⟨rfl, rfl⟩ := Prod.mk.inj heq
      exact .inl ⟨hu, hmem⟩
  · rename_i hnone
    rcases mem_append.mp h with hmem | hmem
    · refine .inl ⟨fun hu => hnone ?_, hmem⟩
      exact any_eq_true.mpr ⟨_, hmem, by simp [hu]⟩
    · obtain ⟨rfl, rfl⟩ := Prod.mk.inj (mem_singleton.mp hmem)
      exact .inr ⟨rfl, rfl⟩

theorem mem_track_of_ne (hne : uid' ≠ uid)
    (hmem : (uid', entry) ∈ tracker) : (uid', entry) ∈ tracker.track uid pid handle := by
  unfold ClientTracker.track
  split
  · exact mem_map.mpr ⟨_, hmem, by simp [hne]⟩
  · exact mem_append_left _ hmem

/-- A handle that is listed stays listed. -/
theorem listed_track {listed : Nat × Nat}
    (hmem : (uid', entry) ∈ tracker) (hlisted : listed ∈ entry.pidfds) :
    ∃ entry', (uid', entry') ∈ tracker.track uid pid handle ∧ listed ∈ entry'.pidfds := by
  unfold ClientTracker.track
  split
  · by_cases hu : uid' = uid
    · refine ⟨entry.register pid handle, mem_map.mpr ⟨_, hmem, by simp [hu]⟩, ?_⟩
      unfold TrackedClient.register
      dsimp only
      split
      · exact hlisted
      · exact mem_append_left _ hlisted
    · exact ⟨entry, mem_map.mpr ⟨_, hmem, by simp [hu]⟩, hlisted⟩
  · exact ⟨entry, mem_append_left _ hmem, hlisted⟩

/-- A handle is listed after `track` unless its pid was listed with another one. -/
theorem listed_track_self
    (hpid : ∀ entry, (uid, entry) ∈ tracker → ∀ h, (pid, h) ∈ entry.pidfds → h = handle) :
    ∃ entry, (uid, entry) ∈ tracker.track uid pid handle ∧ (pid, handle) ∈ entry.pidfds := by
  unfold ClientTracker.track
  split
  · rename_i hany
    obtain ⟨⟨uid', entry⟩, hmem, heq⟩ := any_eq_true.mp hany
    obtain rfl : uid' = uid := by simpa using heq
    refine ⟨entry.register pid handle, mem_map.mpr ⟨_, hmem, by simp⟩, ?_⟩
    unfold TrackedClient.register
    dsimp only
    split
    · rename_i hlisted
      obtain ⟨⟨pid', h⟩, hin, heq⟩ := any_eq_true.mp hlisted
      obtain rfl : pid' = pid := by simpa using heq
      rw [← hpid entry hmem h hin]
      exact hin
    · simp
  · exact ⟨TrackedClient.register pid handle ⟨[], none⟩, by simp, by simp [TrackedClient.register]⟩

theorem nodup_track (h : (tracker.map Prod.fst).Nodup) :
    ((tracker.track uid pid handle).map Prod.fst).Nodup := by
  unfold ClientTracker.track
  split
  · have hkeys : (tracker.map fun client : Nat × TrackedClient =>
        if client.1 = uid then (client.1, client.2.register pid handle) else client).map Prod.fst =
        tracker.map Prod.fst := by
      rw [List.map_map]
      refine map_congr_left fun client _ => ?_
      show (if client.1 = uid then _ else client : Nat × TrackedClient).1 = client.1
      split
      · rfl
      · rfl
    rw [hkeys]
    exact h
  · rename_i hnone
    rw [map_append, nodup_append]
    refine ⟨h, by simp, ?_⟩
    intro a ha b hb
    obtain ⟨client, hmem, rfl⟩ := mem_map.mp ha
    obtain rfl : b = uid := by simpa using hb
    intro heq
    exact hnone (any_eq_true.mpr ⟨client, hmem, by simp [heq]⟩)

theorem mem_expired_tracker : (uid, entry') ∈ (tracker.expired alive now grace).2 ↔
      ∃ entry, (uid, entry) ∈ tracker ∧ entry.reap alive now grace = some entry' := by
  unfold ClientTracker.expired
  simp only [mem_filterMap, map_eq_some_iff, Prod.mk.injEq]
  constructor
  · rintro ⟨⟨u, entry⟩, hmem, entry'', hreap, rfl, rfl⟩
    exact ⟨entry, hmem, hreap⟩
  · rintro ⟨entry, hmem, hreap⟩
    exact ⟨(uid, entry), hmem, entry', hreap, rfl, rfl⟩

theorem mem_expired_fired : uid ∈ (tracker.expired alive now grace).1 ↔
      ∃ entry, (uid, entry) ∈ tracker ∧ entry.reap alive now grace = none := by
  unfold ClientTracker.expired
  simp only [List.mem_map, mem_filter, isNone_iff_eq_none]
  constructor
  · rintro ⟨⟨u, entry⟩, ⟨hmem, hreap⟩, rfl⟩
    exact ⟨entry, hmem, hreap⟩
  · rintro ⟨entry, hmem, hreap⟩
    exact ⟨(uid, entry), ⟨hmem, hreap⟩, rfl⟩

theorem nodup_expired (h : (tracker.map Prod.fst).Nodup) :
    ((tracker.expired alive now grace).2.map Prod.fst).Nodup := by
  have hkeys : (tracker.expired alive now grace).2.map Prod.fst =
      (tracker.filter fun client => (client.2.reap alive now grace).isSome).map Prod.fst := by
    unfold ClientTracker.expired
    dsimp only
    induction tracker with
    | nil => rfl
    | cons client rest ih =>
      have ih := ih (by simpa using (nodup_cons.mp h).2)
      cases hreap : client.2.reap alive now grace with
      | none => simp [hreap, ih]
      | some entry => simp [hreap, ih]
  rw [hkeys]
  exact h.sublist (filter_sublist.map _)

/-- A client is reported when no listed process of it is alive and the period has run out. -/
theorem reap_eq_none (h : entry.reap alive now grace = none) :
    (∀ listed ∈ entry.pidfds, alive listed.2 = false) ∧
      grace ≤ now - entry.deadSince.getD now := by
  unfold TrackedClient.reap at h
  dsimp only at h
  split at h
  · rename_i hempty
    split at h
    · rename_i hgrace
      refine ⟨fun listed hin => ?_, hgrace⟩
      have hnone := filter_eq_nil_iff.mp (List.isEmpty_iff.mp hempty) listed hin
      simpa using hnone
    · cases h
  · cases h

/-- A client that is kept lists its live processes; its period, if armed, was armed before or
is armed now with none of them alive. -/
theorem reap_eq_some (h : entry.reap alive now grace = some entry') :
    (∀ listed ∈ entry.pidfds, alive listed.2 = true → listed ∈ entry'.pidfds) ∧
      (entry'.deadSince = entry.deadSince ∨ entry'.deadSince = some now ∧
        ∀ listed ∈ entry.pidfds, alive listed.2 = false) := by
  unfold TrackedClient.reap at h
  dsimp only at h
  split at h
  · rename_i hempty
    split at h
    · cases h
    · cases h
      refine ⟨fun listed hin halive => mem_filter.mpr ⟨hin, halive⟩, ?_⟩
      cases hsince : entry.deadSince with
      | some d => exact .inl rfl
      | none =>
        refine .inr ⟨rfl, fun listed hin => ?_⟩
        have hnone := filter_eq_nil_iff.mp (List.isEmpty_iff.mp hempty) listed hin
        simpa using hnone
  · cases h
    exact ⟨fun listed hin halive => mem_filter.mpr ⟨hin, halive⟩, .inl rfl⟩

end

/-! ### The invariant -/

/-- The condition on the steps of a run. A process connects whose pid is not listed with the
handle of an earlier one. A cleanup finds no new client of the uids it is for, and the store
answers. -/
def SessionAction.Admitted (w : SessionWorld) : SessionAction → Prop
  | .track handle => ∀ p, w.processes[handle]? = some p → ∀ entry, (p.uid, entry) ∈ w.tracker →
      ∀ h, (p.pid, h) ∈ entry.pidfds → h = handle
  | .cleanup reads _ => (∀ uid ∈ w.reported, ∀ entry, (uid, entry) ∉ w.tracker) ∧
      reads.root = true ∧ ∀ uid ∈ w.reported, reads.document uid = true
  | _ => True

/-- Every registered process of a user had exited by `d`. -/
def SessionWorld.GoneBy (w : SessionWorld) (uid d : Nat) : Prop :=
  ∀ h ∈ w.registered, ∀ p, w.processes[h]? = some p → p.uid = uid →
    ∃ e, p.exited = some e ∧ e ≤ d

structure SessionInv (grace : Nat) (w : SessionWorld) : Prop where
  known : ∀ h ∈ w.registered, h < w.processes.length
  times : ∀ (h : Nat) p, w.processes[h]? = some p → ∀ e, p.exited = some e → e ≤ w.now
  keys : (w.tracker.map Prod.fst).Nodup
  listed : ∀ h ∈ w.registered, ∀ p, w.processes[h]? = some p → p.exited = none →
    ∃ entry, (p.uid, entry) ∈ w.tracker ∧ (p.pid, h) ∈ entry.pidfds
  armed : ∀ uid entry d, (uid, entry) ∈ w.tracker → entry.deadSince = some d →
    d ≤ w.now ∧ w.GoneBy uid d
  reported : ∀ uid ∈ w.reported, (∀ entry, (uid, entry) ∉ w.tracker) →
    grace ≤ w.now ∧ w.GoneBy uid (w.now - grace)

section
variable {grace : Nat} {w w' : SessionWorld}

theorem SessionInv.fresh (now : Nat) (core : DaemonCore) (documents : AlwaysOnDocuments) :
    SessionInv grace (.fresh now core documents) where
  known := fun h hh => by cases hh
  times := fun h p hp => by cases hp
  keys := nodup_nil
  listed := fun h hh => by cases hh
  armed := fun uid entry d hmem => by cases hmem
  reported := fun uid huid => by cases huid

theorem SessionWorld.GoneBy.mono {uid d d' : Nat} (h : w.GoneBy uid d) (hle : d ≤ d') :
    w.GoneBy uid d' := by
  intro handle hhandle p hp huid
  obtain ⟨e, he, hed⟩ := h handle hhandle p hp huid
  exact ⟨e, he, Nat.le_trans hed hle⟩

variable (h : SessionInv grace w)
include h

/-- The processes of a user without a live handle in the tracker have all exited. -/
theorem SessionInv.gone {uid : Nat} {entry : TrackedClient} (hmem : (uid, entry) ∈ w.tracker)
    (hdead : ∀ listed ∈ entry.pidfds, w.alive listed.2 = false) : w.GoneBy uid w.now := by
  intro handle hhandle p hp huid
  cases hexited : p.exited with
  | some e => exact ⟨e, rfl, h.times handle p hp e hexited⟩
  | none =>
    obtain ⟨entry', hmem', hlisted⟩ := h.listed handle hhandle p hp hexited
    rw [huid] at hmem'
    -- The tracker has one entry for each user.
    have heq : ((uid, entry') : Nat × TrackedClient) = (uid, entry) :=
      inj_on_of_nodup_map h.keys hmem' hmem rfl
    obtain rfl : entry' = entry := (Prod.mk.inj heq).2
    have halive : w.alive handle = true := by simp [SessionWorld.alive, hp, hexited]
    have hnot := hdead _ hlisted
    rw [halive] at hnot
    cases hnot

theorem SessionInv.advance (duration : Nat) :
    SessionInv grace { w with now := w.now + duration } :=
  { h with
    times := fun handle p hp e he => Nat.le_add_right_of_le (h.times handle p hp e he)
    armed := fun uid entry d hmem hd => by
      obtain ⟨hle, hgone⟩ := h.armed uid entry d hmem hd
      exact ⟨Nat.le_add_right_of_le hle, hgone⟩
    reported := fun uid huid hnone => by
      obtain ⟨hle, hgone⟩ := h.reported uid huid hnone
      have hlater : w.now - grace ≤ w.now + duration - grace := by omega
      exact ⟨Nat.le_add_right_of_le hle, SessionWorld.GoneBy.mono (w := w) hgone hlater⟩ }

/-- A process that nobody has registered yet. -/
theorem SessionInv.spawn (p : Process) (hp : p.exited = none) :
    SessionInv grace { w with processes := w.processes ++ [p] } := by
  -- Registered handles are below the new one.
  have hold : ∀ handle ∈ w.registered, ∀ q, (w.processes ++ [p])[handle]? = some q →
      w.processes[handle]? = some q := by
    intro handle hhandle q hq
    rwa [getElem?_append_left (h.known handle hhandle)] at hq
  have hgone : ∀ uid d, w.GoneBy uid d →
      SessionWorld.GoneBy { w with processes := w.processes ++ [p] } uid d :=
    fun uid d hgone handle hhandle q hq => hgone handle hhandle q (hold handle hhandle q hq)
  refine ⟨fun handle hhandle => ?_, ?_, h.keys, ?_, ?_, ?_⟩
  · have hlt := h.known handle hhandle
    show handle < (w.processes ++ [p]).length
    rw [length_append]
    omega
  · intro handle q hq e he
    rcases mem_append.mp (mem_of_getElem? hq) with hin | hin
    · obtain ⟨handle', hq'⟩ := mem_iff_getElem?.mp hin
      exact h.times handle' q hq' e he
    · obtain rfl := mem_singleton.mp hin
      rw [hp] at he
      cases he
  · exact fun handle hhandle q hq => h.listed handle hhandle q (hold handle hhandle q hq)
  · intro uid entry d hmem hd
    obtain ⟨hle, hall⟩ := h.armed uid entry d hmem hd
    exact ⟨hle, hgone uid d hall⟩
  · intro uid huid hnone
    obtain ⟨hle, hall⟩ := h.reported uid huid hnone
    exact ⟨hle, hgone uid _ hall⟩

/-- A live process exits. No grace period of its user is armed while it is registered. -/
theorem SessionInv.exit {handle : Nat} (halive : w.alive handle = true) : SessionInv grace
      { w with processes := w.processes.modify handle fun p => { p with exited := some w.now } } := by
  -- Another process is what it was, and this one had not exited.
  have hcases : ∀ (g : Nat) q,
      (w.processes.modify handle fun p => { p with exited := some w.now })[g]? = some q →
      w.processes[g]? = some q ∨ g = handle ∧ q.exited = some w.now ∧
          ∃ p, w.processes[g]? = some p ∧ p.exited = none ∧ p.uid = q.uid := by
    intro g q hq
    rw [getElem?_modify] at hq
    by_cases hg : handle = g
    · subst hg
      obtain ⟨p, hp, rfl⟩ : ∃ p, w.processes[handle]? = some p ∧
          { p with exited := some w.now } = q := by simpa using hq
      refine .inr ⟨rfl, rfl, p, hp, ?_, rfl⟩
      simpa [SessionWorld.alive, hp] using halive
    · exact .inl (by simpa [hg] using hq)
  have hgone : ∀ uid d, w.GoneBy uid d → SessionWorld.GoneBy
      { w with processes := w.processes.modify handle fun p => { p with exited := some w.now } }
      uid d := by
    intro uid d hall g hg q hq huid
    rcases hcases g q hq with hq | ⟨-, -, p, hp, hnone, hsame⟩
    · exact hall g hg q hq huid
    · obtain ⟨e, he, -⟩ := hall g hg p hp (hsame.trans huid)
      rw [hnone] at he
      cases he
  refine ⟨fun g hg => ?_, ?_, h.keys, ?_, ?_, ?_⟩
  · show g < (w.processes.modify handle _).length
    rw [length_modify]
    exact h.known g hg
  · intro g q hq e he
    rcases hcases g q hq with hq | ⟨-, hnow, -⟩
    · exact h.times g q hq e he
    · rw [hnow] at he
      cases he
      exact Nat.le_refl w.now
  · intro g hg q hq hnone
    rcases hcases g q hq with hq | ⟨-, hnow, -⟩
    · exact h.listed g hg q hq hnone
    · rw [hnow] at hnone
      cases hnone
  · intro uid entry d hmem hd
    obtain ⟨hle, hall⟩ := h.armed uid entry d hmem hd
    exact ⟨hle, hgone uid d hall⟩
  · intro uid huid hnone
    obtain ⟨hle, hall⟩ := h.reported uid huid hnone
    exact ⟨hle, hgone uid _ hall⟩

theorem SessionInv.track {handle : Nat} {p : Process} (hp : w.processes[handle]? = some p)
    (hok : (SessionAction.track handle).Admitted w) : SessionInv grace
      { w with
        registered := handle :: w.registered, tracker := w.tracker.track p.uid p.pid handle } := by
  -- A user that this process does not belong to has the same registered processes as before.
  have hgone : ∀ uid d, uid ≠ p.uid → w.GoneBy uid d → SessionWorld.GoneBy
      { w with
        registered := handle :: w.registered, tracker := w.tracker.track p.uid p.pid handle }
      uid d := by
    intro uid d hne hall g hg q hq huid
    rcases mem_cons.mp hg with rfl | hg
    · obtain rfl : p = q := Option.some.inj (hp.symm.trans hq)
      exact absurd huid.symm hne
    · exact hall g hg q hq huid
  refine ⟨?_, h.times, nodup_track h.keys, ?_, ?_, ?_⟩
  · intro g hg
    rcases mem_cons.mp hg with rfl | hg
    · exact (List.getElem?_eq_some_iff.mp hp).1
    · exact h.known g hg
  · intro g hg q hq hnone
    rcases mem_cons.mp hg with rfl | hg
    · obtain rfl : p = q := Option.some.inj (hp.symm.trans hq)
      exact listed_track_self (hok p hp)
    · obtain ⟨entry, hmem, hlisted⟩ := h.listed g hg q hq hnone
      exact listed_track hmem hlisted
  · intro uid entry d hmem hd
    rcases of_mem_track hmem with ⟨hne, hmem⟩ | ⟨-, hnone⟩
    · obtain ⟨hle, hall⟩ := h.armed uid entry d hmem hd
      exact ⟨hle, hgone uid d hne hall⟩
    · rw [hnone] at hd
      cases hd
  · intro uid huid hnone
    obtain ⟨entry, hmem, -⟩ := exists_mem_track p.uid p.pid handle w.tracker
    have hne : uid ≠ p.uid := by
      rintro rfl
      exact hnone entry hmem
    obtain ⟨hle, hall⟩ := h.reported uid huid fun entry hmem =>
      hnone entry (mem_track_of_ne hne hmem)
    exact ⟨hle, hgone uid _ hne hall⟩

/-- The watch loop asks the tracker. Whoever it reports has had no live process since its grace
period was armed. -/
theorem SessionInv.expired : SessionInv grace
      { w with
        reported := (w.tracker.expired w.alive w.now grace).1
        tracker := (w.tracker.expired w.alive w.now grace).2 } := by
  refine ⟨h.known, h.times, nodup_expired h.keys, ?_, ?_, ?_⟩
  · intro handle hhandle p hp hnone
    obtain ⟨entry, hmem, hlisted⟩ := h.listed handle hhandle p hp hnone
    have halive : w.alive handle = true := by simp [SessionWorld.alive, hp, hnone]
    cases hreap : entry.reap w.alive w.now grace with
    | none =>
      have hdead := (reap_eq_none hreap).1 _ hlisted
      rw [halive] at hdead
      cases hdead
    | some entry' =>
      refine ⟨entry', mem_expired_tracker.mpr ⟨entry, hmem, hreap⟩, ?_⟩
      exact (reap_eq_some hreap).1 _ hlisted halive
  · intro uid entry' d hmem hd
    obtain ⟨entry, hmem, hreap⟩ := mem_expired_tracker.mp hmem
    rcases (reap_eq_some hreap).2 with hsame | ⟨hnow, hdead⟩
    · rw [hsame] at hd
      exact h.armed uid entry d hmem hd
    · rw [hnow] at hd
      cases hd
      exact ⟨Nat.le_refl w.now, h.gone hmem hdead⟩
  · intro uid huid _
    obtain ⟨entry, hmem, hreap⟩ := mem_expired_fired.mp huid
    obtain ⟨hdead, hgrace⟩ := reap_eq_none hreap
    cases hsince : entry.deadSince with
    | none =>
      -- Only a grace period of zero runs out at once.
      rw [hsince, getD_none, Nat.sub_self] at hgrace
      refine ⟨by omega, ?_⟩
      rw [Nat.le_zero.mp hgrace]
      exact h.gone hmem hdead
    | some d =>
      rw [hsince, getD_some] at hgrace
      obtain ⟨hle, hall⟩ := h.armed uid entry d hmem hsince
      have hstart : grace ≤ w.now := by omega
      have hbefore : d ≤ w.now - grace := by omega
      exact ⟨hstart, SessionWorld.GoneBy.mono (w := w) hall hbefore⟩

theorem SessionInv.step {action : SessionAction} (hok : action.Admitted w)
    (hstep : w.step grace action = some w') : SessionInv grace w' := by
  cases action with
  | advance duration =>
    cases hstep
    exact h.advance duration
  | spawn pid uid =>
    simp only [SessionWorld.step] at hstep
    split at hstep
    · cases hstep
    · cases hstep
      exact h.spawn _ rfl
  | exit handle =>
    simp only [SessionWorld.step] at hstep
    split at hstep
    · rename_i halive
      cases hstep
      exact h.exit halive
    · cases hstep
  | track handle =>
    obtain ⟨p, hp, rfl⟩ := map_eq_some_iff.mp hstep
    exact h.track hp hok
  | expired =>
    simp only [SessionWorld.step] at hstep
    split at hstep
    · cases hstep
      exact h.expired
    · cases hstep
  | cleanup reads schedule =>
    simp only [SessionWorld.step] at hstep
    split at hstep
    · cases hstep
    · cases hstep
      exact ⟨h.known, h.times, h.keys, h.listed, h.armed, fun uid huid => by cases huid⟩
  | serve core documents =>
    cases hstep
    exact ⟨h.known, h.times, h.keys, h.listed, h.armed, h.reported⟩

end

/-! ### The owners to keep -/

/-- The owner is enabled in an unpaused document of the user. -/
def AlwaysOnDocuments.Enables (documents : AlwaysOnDocuments) (uid : Nat) (owner : Owner) : Prop :=
  ∃ document, (uid, document) ∈ documents ∧ document.paused = false ∧
    ∃ stored ∈ document.entries, stored.enabled = true ∧ stored.definition.owner = owner.render

section
variable {reads : StoreReads} {documents : AlwaysOnDocuments} {uid : Nat} {owner : Owner}
  {keep : List (Nat × String)}

theorem mem_keptOwners (h : AlwaysOnDocuments.Enables documents uid owner)
    (hroot : reads.root = true) (hread : reads.document uid = true) :
    (uid, owner.render) ∈ keptOwners reads documents := by
  obtain ⟨document, hmem, hpaused, stored, hstored, henabled, howner⟩ := h
  have hreplay : stored.definition ∈ document.replayable := by
    unfold AlwaysOnDocument.replayable
    rw [hpaused]
    exact mem_map.mpr ⟨stored, mem_filter.mpr ⟨hstored, henabled⟩, rfl⟩
  unfold keptOwners replayableOwners loadAlwaysOn
  rw [if_pos hroot]
  refine mem_flatMap.mpr ⟨(uid, .ok document), mem_map.mpr ⟨_, hmem, ?_⟩, ?_⟩
  · simp [hread]
  · exact mem_map.mpr ⟨stored.definition, hreplay, by rw [howner]⟩

variable {entry : JournalEntry}

/-- An entry that a cleanup does not select is there afterwards. -/
theorem keeps_cleanupSessionUid {V : Verdict Fault → Prop}
    (h : sessionOwner uid keep entry = false) :
    Keeps V (OnJournal (entry ∈ ·)) (cleanupSessionUid uid keep) := by
  intro core hcore
  have howner : ∀ e e' : JournalEntry, e'.uid = e.uid → e'.owner = e.owner →
      sessionOwner uid keep e' = sessionOwner uid keep e := by
    intro e e' huid howner
    unfold sessionOwner
    rw [huid, howner]
  have hin : entry ∈ core.journal.filter fun e => !sessionOwner uid keep e :=
    mem_filter.mpr ⟨hcore, by rw [h]; rfl⟩
  have hstays : ∀ c : DaemonCore, OnJournal (fun j => j.filter (fun e => !sessionOwner uid keep e) =
        core.journal.filter fun e => !sessionOwner uid keep e) c →
      OnJournal (entry ∈ ·) c := by
    intro c hc
    rw [← hc] at hin
    exact (mem_filter.mp hin).1
  have hkeeps := keeps_teardownWhere (V := V) howner
    (core.journal.filter fun e => !sessionOwner uid keep e) core rfl
  exact wp_mono hkeeps (fun _ => hstays) (fun _ => hstays) hstays

theorem mem_of_cleanupSessions {uids : List Nat} {core : DaemonCore}
    (vs : List (Verdict Fault)) (hmem : entry ∈ core.journal)
    (h : ∀ uid ∈ uids, sessionOwner uid keep entry = false) :
    entry ∈ (cleanupSessions keep uids core vs).2.1.journal := by
  have hwp : wp Any (cleanupSessions keep uids) (fun _ => OnJournal (entry ∈ ·))
      (fun _ => OnJournal (entry ∈ ·)) (OnJournal (entry ∈ ·)) core := by
    refine wp_ends (wp_forEach (J := fun rest c =>
        (∀ uid ∈ rest, sessionOwner uid keep entry = false) ∧ OnJournal (entry ∈ ·) c) ?_ ⟨h, hmem⟩)
      (fun _ _ hc => hc.2) (fun _ _ hc => hc)
    intro uid rest c hc
    have hone := keeps_cleanupSessionUid (V := Any) (hc.1 uid (by simp))
    refine wp_discard (wp_mono (Keeps.attempt hone c hc.2) ?_ (fun _ _ hc' => hc') fun _ hc' => hc')
    exact fun _ _ hc' => ⟨fun uid' huid' => hc.1 uid' (mem_cons_of_mem uid huid'), hc'⟩
  have hend := hwp vs fun _ _ => trivial
  generalize cleanupSessions keep uids core vs = r at hend
  obtain ⟨o, c, vs'⟩ := r
  cases o with
  | ok u => exact hend.2
  | err e => exact hend.2
  | crash => exact hend

end

/-- In every run whose steps meet the condition, a cleanup runs only for users none of whose
registered processes was alive during the grace period before it, and it leaves every owner
that is enabled in an unpaused document. -/
theorem sessions_kept (grace now : Nat) (core : DaemonCore) (documents : AlwaysOnDocuments)
    (w : SessionWorld) (reads : StoreReads) (schedule : List (Verdict Fault))
    (hrun : Steps (SessionWorld.step grace) SessionAction.Admitted (.fresh now core documents) w)
    (hok : (SessionAction.cleanup reads schedule).Admitted w) :
    (∀ uid ∈ w.reported, ∀ h ∈ w.registered, ∀ p, w.processes[h]? = some p → p.uid = uid →
      ¬p.AliveDuring (w.now - grace) w.now) ∧
    (∀ entry ∈ w.core.journal, AlwaysOnDocuments.Enables w.documents entry.uid entry.owner →
      entry ∈ (w.cleanup reads schedule).core.journal) := by
  have hinv : SessionInv grace w :=
    hrun.invariant (SessionInv.fresh now core documents) fun _ _ _ h hok hstep => h.step hok hstep
  obtain ⟨hnew, hroot, hreads⟩ := hok
  constructor
  · intro uid huid h hh p hp hsame hduring
    obtain ⟨x, hstart, -, -, halive⟩ := hduring
    obtain ⟨-, hgone⟩ := hinv.reported uid huid (hnew uid huid)
    obtain ⟨e, he, hle⟩ := hgone h hh p hp hsame
    have hlt := halive e he
    omega
  · intro entry hentry henabled
    refine mem_of_cleanupSessions schedule hentry fun uid huid => ?_
    unfold sessionOwner
    by_cases hsame : entry.uid = uid
    · subst hsame
      have hkept := mem_keptOwners henabled hroot (hreads entry.uid huid)
      simp [hkept]
    · simp [hsame]

/-! ### Live sessions that are cut -/

def laptopDefinition : AlwaysOnDefinition :=
  .staticRoutes ⟨"office", "tun7", [⟨.v4 0x0a020000 16, 100, none⟩]⟩

def laptopEntry : JournalEntry := ⟨1000, .client "office", .applied, []⟩

/-- A daemon that keeps one static owner up. -/
def laptop : SessionWorld :=
  .fresh 0 { DaemonCore.fresh Kernel.empty View.bare Executors.all with journal := [laptopEntry] }
    [(1000, ⟨false, [⟨true, laptopDefinition⟩]⟩)]

/-- A client connects and dies, and its grace period runs out. -/
def laptopDeath : List SessionAction :=
  [.spawn 7 1000, .track 0, .exit 0, .expired, .advance 30, .expired]

/-- Before the cleanup the next client connects. -/
def laptopReconnect : List SessionAction := laptopDeath ++ [.spawn 8 1000, .track 1]

/-- The next client gets the pid of the dead one before that is reaped. -/
def laptopRecycled : List SessionAction :=
  [.spawn 7 1000, .track 0, .exit 0, .spawn 7 1000, .track 1, .expired, .advance 30, .expired]

def laptopAfter (actions : List SessionAction) : SessionWorld :=
  (runActions (SessionWorld.step 30) laptop actions).getD laptop

/-- The user is about to be cleaned up while a registered process of it is alive. -/
def LiveSessionReported (w : SessionWorld) : Prop :=
  1000 ∈ w.reported ∧ 1 ∈ w.registered ∧
    ∃ p, w.processes[1]? = some p ∧ p.uid = 1000 ∧ p.AliveDuring (w.now - 30) w.now

/-- Each of the three ways. With a store that does not answer, the cleanup removes the owner
that the document keeps up. -/
theorem live_sessions_cut :
    (Steps (SessionWorld.step 30) (fun _ _ => True) laptop (laptopAfter laptopReconnect) ∧
      LiveSessionReported (laptopAfter laptopReconnect)) ∧
    (Steps (SessionWorld.step 30) (fun _ _ => True) laptop (laptopAfter laptopRecycled) ∧
      LiveSessionReported (laptopAfter laptopRecycled)) ∧
    (Steps (SessionWorld.step 30) (fun _ _ => True) laptop (laptopAfter laptopDeath) ∧
      laptopEntry ∈ (laptopAfter laptopDeath).core.journal ∧
      AlwaysOnDocuments.Enables (laptopAfter laptopDeath).documents 1000 (.client "office") ∧
      laptopEntry ∉ ((laptopAfter laptopDeath).cleanup ⟨false, fun _ => true⟩ []).core.journal) := by
  refine ⟨⟨?_, ?_⟩, ⟨?_, ?_⟩, ?_, ?_, ?_, ?_⟩
  · exact steps_of_run (allAdmitted_true laptop laptopReconnect) rfl
  · exact ⟨by decide, by decide, ⟨8, 1000, 30, none⟩, rfl, rfl, 30, by decide, by decide, by decide,
      fun e he => by cases he⟩
  · exact steps_of_run (allAdmitted_true laptop laptopRecycled) rfl
  · exact ⟨by decide, by decide, ⟨7, 1000, 0, none⟩, rfl, rfl, 30, by decide, by decide, by decide,
      fun e he => by cases he⟩
  · exact steps_of_run (allAdmitted_true laptop laptopDeath) rfl
  · decide
  · exact ⟨_, List.mem_singleton.mpr rfl, rfl, _, List.mem_singleton.mpr rfl, rfl, by decide⟩
  · decide

/-- A run that meets the condition: the cleanup leaves the owner that is kept up. -/
theorem laptop_session_kept :
    laptopEntry ∈ ((laptopAfter laptopDeath).cleanup ⟨true, fun _ => true⟩ []).core.journal := by
  have hadmitted : AllAdmitted (SessionWorld.step 30) SessionAction.Admitted laptop laptopDeath := by
    refine ⟨trivial, fun w hw => ?_⟩
    cases hw
    refine ⟨fun p hp entry hmem => (by cases hmem), fun w hw => ?_⟩
    cases hw
    exact ⟨trivial, fun _ _ => ⟨trivial, fun _ _ => ⟨trivial, fun _ _ => ⟨trivial, fun _ _ => trivial⟩⟩⟩⟩
  have hrun : Steps (SessionWorld.step 30) SessionAction.Admitted laptop (laptopAfter laptopDeath) :=
    steps_of_run hadmitted rfl
  have hok : (SessionAction.cleanup ⟨true, fun _ => true⟩ []).Admitted (laptopAfter laptopDeath) :=
    ⟨fun uid _ entry hmem => (by cases hmem), rfl, fun _ _ => rfl⟩
  have henables : AlwaysOnDocuments.Enables (laptopAfter laptopDeath).documents laptopEntry.uid
      laptopEntry.owner :=
    ⟨_, List.mem_singleton.mpr rfl, rfl, _, List.mem_singleton.mpr rfl, rfl, by decide⟩
  exact (sessions_kept 30 0 _ _ _ _ _ hrun hok).2 laptopEntry (by decide) henables

end NetOrchestrator.Daemon
