import NetOrchestrator.Macos.Service

/-!
# `Proofs.OnePrimary`: primary tunnels of parallel requests

The conflict check and the connect of a request are not one step, so a connect of another kind
can come in between. `Thread.Tracks` is what the answers to a thread say about the executors
as they are now: one that said it was free is free, unless it has overtaken the thread.
`one_primary_iff` is the result: a run stays with at most one primary tunnel exactly when no
primary connect takes place on a thread that was overtaken.
-/

namespace NetOrchestrator.Macos

open Lib List Option

def Service.OnePrimary (s : Service) : Prop :=
  ∀ kind other, s.holdsPrimary kind = true → s.holdsPrimary other = true → kind = other

/-- Where the action makes a primary tunnel come up, its thread is not overtaken. -/
def NotOvertaken (s : Service) : ServiceAction → Prop
  | .advance index true =>
    ∀ thread ∈ s.threads[index]?, thread.phase = .reaped → thread.request.role = .primary →
      s.active thread.request.kind = none → thread.overtakenBy = []
  | _ => True

/-! ### Which executors hold the primary -/

variable {s : Service} {holds : Kind → Bool} {thread : Thread}

@[simp] theorem holdsPrimary_setThread (s : Service) (index : Nat) (thread : Thread) :
    (s.setThread index thread).holdsPrimary = s.holdsPrimary := rfl

section
variable (s : Service) (kind : Kind)

theorem holdsPrimary_take :
    (s.take kind).holdsPrimary = Function.update s.holdsPrimary kind false := by
  funext k
  by_cases hk : k = kind
  · subst hk
    simp [Service.holdsPrimary, Service.take]
  · simp [Service.holdsPrimary, Service.take, hk]

theorem holdsPrimary_start (active : ActiveTunnel) : (s.start kind active).holdsPrimary =
      Function.update s.holdsPrimary kind (active.role == .primary) := by
  funext k
  by_cases hk : k = kind
  · subst hk
    simp [Service.holdsPrimary, Service.start]
  · simp [Service.holdsPrimary, Service.start, hk]

theorem holdsPrimary_modify (change : ActiveTunnel → ActiveTunnel)
    (hrole : ∀ active, (change active).role = active.role) :
    (s.modify kind change).holdsPrimary = s.holdsPrimary := by
  funext k
  by_cases hk : k = kind
  · subst hk
    simp [Service.holdsPrimary, Service.modify, Option.any_map, hrole]
  · simp [Service.holdsPrimary, Service.modify, hk]

end

theorem holdsPrimary_of_none {kind : Kind} (h : s.active kind = none) :
    s.holdsPrimary kind = false := by
  simp [Service.holdsPrimary, h]

/-- Fewer holders. -/
theorem Service.OnePrimary.mono {t : Service} (h : s.OnePrimary)
    (hle : ∀ kind, t.holdsPrimary kind = true → s.holdsPrimary kind = true) : t.OnePrimary := by
  intro kind other hkind hother
  exact h kind other (hle kind hkind) (hle other hother)

theorem Service.OnePrimary.take (h : s.OnePrimary) (kind : Kind) : (s.take kind).OnePrimary := by
  apply h.mono
  intro k hk
  rw [holdsPrimary_take] at hk
  by_cases hkind : k = kind
  · simp [hkind] at hk
  · simpa [hkind] using hk

/-! ### What the answers to a thread say -/

/-- What a thread was told, against which executors hold the primary now. -/
structure Thread.Tracks (holds : Kind → Bool) (thread : Thread) : Prop where
  up : ∀ kind ∈ thread.overtakenBy, holds kind = true
  seen : ∀ kind, (kind, false) ∈ thread.reads → holds kind = true → kind ∈ thread.overtakenBy
  asked : thread.phase = .checking →
    thread.reads.map Prod.fst = Kind.all.take thread.reads.length
  free : thread.phase = .admitted ∨ thread.phase = .reaped → thread.request.role = .primary →
    ∀ kind, kind ≠ thread.request.kind → (kind, false) ∈ thread.reads

def Service.Tracked (s : Service) : Prop := ∀ thread ∈ s.threads, thread.Tracks s.holdsPrimary

theorem Thread.Tracks.relieve (h : thread.Tracks holds)
    (kind : Kind) : (thread.relieve kind).Tracks (Function.update holds kind false) where
  up := by
    intro k hk
    obtain ⟨hmem, hne⟩ := mem_filter.mp hk
    have hne : k ≠ kind := by simpa using hne
    simpa [hne] using h.up k hmem
  seen := by
    intro k hk hholds
    have hne : k ≠ kind := by
      rintro rfl
      simp at hholds
    have hmem := h.seen k hk (by simpa [hne] using hholds)
    exact mem_filter.mpr ⟨hmem, by simpa using hne⟩
  asked := h.asked
  free := h.free

theorem Thread.Tracks.overtake (h : thread.Tracks holds)
    (kind : Kind) : (thread.overtake kind).Tracks (Function.update holds kind true) := by
  unfold Thread.overtake
  split
  · refine ⟨?_, ?_, h.asked, h.free⟩
    · intro k hk
      by_cases hkind : k = kind
      · simp [hkind]
      · have hmem : k ∈ thread.overtakenBy := (mem_cons.mp hk).resolve_left hkind
        simpa [hkind] using h.up k hmem
    · intro k hk hholds
      by_cases hkind : k = kind
      · exact hkind ▸ mem_cons_self
      · exact mem_cons_of_mem _ (h.seen k hk (by simpa [hkind] using hholds))
  · rename_i hunread
    refine ⟨?_, ?_, h.asked, h.free⟩
    · intro k hk
      by_cases hkind : k = kind
      · simp [hkind]
      · simpa [hkind] using h.up k hk
    · intro k hk hholds
      -- The thread has not asked this executor yet, so there is no answer to be stale.
      have hkind : k ≠ kind := by
        rintro rfl
        exact hunread (mem_map.mpr ⟨(k, false), hk, rfl⟩)
      exact h.seen k hk (by simpa [hkind] using hholds)

/-- The answers are all there, and none of another executor says that it holds the primary. -/
theorem mem_reads_of_not_held
    (hasked : thread.reads.map Prod.fst = Kind.all.take thread.reads.length)
    (hdone : Kind.all[thread.reads.length]? = none)
    (hnone : primaryHeldByAnother thread.request.kind thread.reads = none) (kind : Kind)
    (hne : kind ≠ thread.request.kind) : (kind, false) ∈ thread.reads := by
  have hlen : Kind.all.length ≤ thread.reads.length := getElem?_eq_none_iff.mp hdone
  have hall : kind ∈ thread.reads.map Prod.fst := by
    rw [hasked, take_of_length_le hlen]
    cases kind <;> decide
  obtain ⟨⟨k, held⟩, hmem, rfl⟩ := mem_map.mp hall
  have hfree := find?_eq_none.mp (map_eq_none_iff.mp hnone) (k, held) hmem
  have hheld : held = false := by simpa [hne] using hfree
  exact hheld ▸ hmem

theorem Thread.Tracks.check (h : thread.Tracks s.holdsPrimary) (hphase : thread.phase = .checking) :
    (thread.check s).Tracks s.holdsPrimary := by
  unfold Thread.check
  split
  · rename_i hsecondary
    exact ⟨h.up, h.seen, by simp, fun _ hprimary => absurd hprimary hsecondary⟩
  · split
    · rename_i kind hkind
      refine ⟨h.up, ?_, ?_, by simp [hphase]⟩
      · intro k hk hholds
        rcases mem_append.mp hk with hk | hk
        · exact h.seen k hk hholds
        · -- The new answer is what the executor says now.
          obtain ⟨rfl, hfree⟩ : k = kind ∧ false = s.holdsPrimary kind := by simpa using hk
          simp [← hfree] at hholds
      · intro _
        simp [h.asked hphase, take_add_one, hkind]
    · rename_i hdone
      split
      · exact ⟨h.up, h.seen, by simp, by simp⟩
      · rename_i hnone
        refine ⟨h.up, h.seen, by simp, ?_⟩
        intro _ _ kind hne
        exact mem_reads_of_not_held (h.asked hphase) hdone hnone kind hne

/-! ### One step -/

theorem Service.Tracked.setThread (h : s.Tracked) {index : Nat}
    (hthread : thread.Tracks s.holdsPrimary) : (s.setThread index thread).Tracked := by
  intro other hother
  rcases mem_or_eq_of_mem_set hother with hmem | rfl
  · exact h other hmem
  · exact hthread

theorem Service.Tracked.take (h : s.Tracked) (kind : Kind) : (s.take kind).Tracked := by
  intro thread hthread
  obtain ⟨before, hbefore, rfl⟩ := mem_map.mp hthread
  rw [holdsPrimary_take]
  exact (h before hbefore).relieve kind

theorem Service.Tracked.start (h : s.Tracked) {kind : Kind}
    (hfree : s.active kind = none) (active : ActiveTunnel) : (s.start kind active).Tracked := by
  intro thread hthread
  rw [holdsPrimary_start]
  by_cases hrole : active.role = .primary
  · simp only [Service.start, hrole, if_true, List.mem_map] at hthread
    obtain ⟨before, hbefore, rfl⟩ := hthread
    simpa [hrole] using (h before hbefore).overtake kind
  · simp only [Service.start, hrole, if_false] at hthread
    have hsame : Function.update s.holdsPrimary kind (active.role == .primary) =
        s.holdsPrimary := by
      rw [show (active.role == TunnelRole.primary) = s.holdsPrimary kind by
        simp [holdsPrimary_of_none hfree, hrole]]
      exact Function.update_eq_self kind s.holdsPrimary
    rw [hsame]
    exact h thread hthread

/-- The thread after a phase with no demand on its answers. -/
theorem Thread.Tracks.answer (h : thread.Tracks holds)
    (connected : Bool) : ({ thread with phase := .answered connected } : Thread).Tracks holds :=
  ⟨h.up, h.seen, by simp, by simp⟩

/-- A session that a request starts: one more primary exactly when the request is for one. -/
theorem onePrimary_start_iff (hone : s.OnePrimary)
    (htracks : thread.Tracks s.holdsPrimary) (hphase : thread.phase = .reaped)
    (hfree : s.active thread.request.kind = none) :
    (s.start thread.request.kind thread.request.session).OnePrimary ↔
      (thread.request.role = .primary → thread.overtakenBy = []) := by
  have hown := holdsPrimary_of_none hfree
  unfold Service.OnePrimary
  rw [holdsPrimary_start]
  by_cases hrole : thread.request.role = .primary
  · have hsession : (thread.request.session.role == TunnelRole.primary) = true := by
      simp [ConnectRequest.session, hrole]
    rw [hsession]
    constructor
    · intro hafter _
      apply eq_nil_iff_forall_not_mem.mpr
      intro kind hkind
      have hholds := htracks.up kind hkind
      have hne : kind ≠ thread.request.kind := by
        rintro rfl
        simp [hown] at hholds
      exact hne (hafter kind thread.request.kind (by simpa [hne] using hholds) (by simp))
    · intro hclear
      -- Every other executor told the thread that it was free, and nothing came up since.
      have hothers : ∀ kind, kind ≠ thread.request.kind → s.holdsPrimary kind = false := by
        intro kind hne
        rw [Bool.eq_false_iff]
        intro hholds
        have hmem := htracks.seen kind (htracks.free (.inr hphase) hrole kind hne) hholds
        simp [hclear hrole] at hmem
      intro kind other hkind hother
      by_cases hk : kind = thread.request.kind
      · by_cases ho : other = thread.request.kind
        · exact hk.trans ho.symm
        · simp [ho, hothers other ho] at hother
      · simp [hk, hothers kind hk] at hkind
  · have hsession : (thread.request.session.role == TunnelRole.primary) = false := by
      simp [ConnectRequest.session, hrole]
    rw [hsession]
    refine iff_of_true ?_ (fun h => absurd h hrole)
    intro kind other hkind hother
    by_cases hk : kind = thread.request.kind
    · simp [hk] at hkind
    · by_cases ho : other = thread.request.kind
      · simp [ho] at hother
      · exact hone kind other (by simpa [hk] using hkind) (by simpa [ho] using hother)

section
variable (htracked : s.Tracked) (hone : s.OnePrimary)
include htracked hone

/-- A connect under its lock. -/
theorem connect_step (htracks : thread.Tracks s.holdsPrimary) (hphase : thread.phase = .reaped)
    (index : Nat) (works : Bool) : (s.connect index thread works).Tracked ∧
      ((s.connect index thread works).OnePrimary ↔
        (works = true → thread.request.role = .primary → s.active thread.request.kind = none →
          thread.overtakenBy = [])) := by
  unfold Service.connect
  split
  · rename_i active hactive
    have hbusy : s.active thread.request.kind ≠ none := by simp [hactive]
    split
    · exact ⟨htracked.take _, iff_of_true (hone.take _) fun _ _ h => absurd h hbusy⟩
    · exact ⟨htracked.setThread (htracks.answer false),
        iff_of_true hone fun _ _ h => absurd h hbusy⟩
  · rename_i hfree
    have hset : (s.setThread index { thread with phase := .answered works }).Tracked :=
      htracked.setThread (htracks.answer works)
    cases works with
    | false => exact ⟨hset, iff_of_true hone fun h => absurd h (by decide)⟩
    | true =>
      refine ⟨hset.start hfree _, ?_⟩
      -- Which executors hold the primary does not depend on the threads.
      have hiff := onePrimary_start_iff hone htracks hphase hfree
      have hsame : ((s.setThread index { thread with phase := .answered true }).start
          thread.request.kind thread.request.session).OnePrimary ↔
          (s.start thread.request.kind thread.request.session).OnePrimary := by
        simp only [Service.OnePrimary, holdsPrimary_start, holdsPrimary_setThread]
      simp only [if_true, hsame, hiff, hfree, true_imp_iff]

theorem takeIf_step (kind : Kind) (expected : ActiveTunnel → Bool) :
    (s.takeIf kind expected).Tracked ∧ (s.takeIf kind expected).OnePrimary := by
  unfold Service.takeIf
  split
  · exact ⟨htracked.take kind, hone.take kind⟩
  · exact ⟨htracked, hone⟩

theorem advance_step {t : Service} {index : Nat} {works : Bool}
    (hmem : s.threads[index]? = some thread) (h : s.advance index thread works = some t) :
    t.Tracked ∧ (t.OnePrimary ↔ NotOvertaken s (.advance index works)) := by
  have htracks := htracked thread (mem_of_getElem? hmem)
  have hnot : NotOvertaken s (.advance index works) ↔
      (works = true → thread.phase = .reaped → thread.request.role = .primary →
        s.active thread.request.kind = none → thread.overtakenBy = []) := by
    cases works <;> simp [NotOvertaken, hmem]
  rw [hnot]
  unfold Service.advance at h
  split at h
  · rename_i hphase
    cases h
    exact ⟨htracked.setThread (htracks.check hphase),
      iff_of_true hone fun _ hreaped => by simp [hphase] at hreaped⟩
  · rename_i hphase
    split at h <;> cases h
    · have hset : (s.setThread index { thread with phase := .reaped }).Tracked :=
        htracked.setThread ⟨htracks.up, htracks.seen, by simp, fun _ => htracks.free (.inl hphase)⟩
      have hreap := takeIf_step hset hone thread.request.kind fun active => !active.alive
      exact ⟨hreap.1, iff_of_true hreap.2 fun _ hreaped => by simp [hphase] at hreaped⟩
    · exact ⟨htracked.setThread (htracks.answer false),
        iff_of_true hone fun _ hreaped => by simp [hphase] at hreaped⟩
  · rename_i hphase
    cases h
    have hconnect := connect_step htracked hone htracks hphase index works
    exact ⟨hconnect.1, hconnect.2.trans (by simp [hphase])⟩
  · cases h

theorem modify_step (kind : Kind) (change : ActiveTunnel → ActiveTunnel)
    (hrole : ∀ active, (change active).role = active.role) :
    (s.modify kind change).Tracked ∧ (s.modify kind change).OnePrimary := by
  unfold Service.Tracked Service.OnePrimary
  rw [holdsPrimary_modify s kind change hrole]
  exact ⟨htracked, hone⟩

end

/-- One step of the helper. Only the connect of an overtaken thread makes a second primary. -/
theorem service_step (s : Service) (action : ServiceAction) (t : Service) (htracked : s.Tracked)
    (hone : s.OnePrimary) (h : s.step action = some t) :
    t.Tracked ∧ (t.OnePrimary ↔ NotOvertaken s action) := by
  cases action with
  | request request =>
    cases h
    refine ⟨?_, iff_of_true hone trivial⟩
    intro thread hthread
    rcases mem_append.mp hthread with hold | hnew
    · exact htracked thread hold
    · obtain rfl : thread = request.thread := by simpa using hnew
      exact ⟨by simp [ConnectRequest.thread], by simp [ConnectRequest.thread],
        by simp [ConnectRequest.thread], by simp [ConnectRequest.thread]⟩
  | advance index works =>
    obtain ⟨thread, hmem, hadvance⟩ := bind_eq_some_iff.mp h
    exact advance_step htracked hone hmem hadvance
  | reap kind =>
    cases h
    have hreap := takeIf_step htracked hone kind fun active => !active.alive
    exact ⟨hreap.1, iff_of_true hreap.2 trivial⟩
  | disconnect kind uid profileId =>
    cases h
    have htake := takeIf_step htracked hone kind fun active =>
      active.profileId == profileId && active.ownerUid == uid
    exact ⟨htake.1, iff_of_true htake.2 trivial⟩
  | shutdown kind =>
    cases h
    exact ⟨htracked.take kind, iff_of_true (hone.take kind) trivial⟩
  | teardown profileId =>
    cases h
    have htake := takeIf_step htracked hone .openVpn fun active => active.profileId == profileId
    exact ⟨htake.1, iff_of_true htake.2 trivial⟩
  | dies kind =>
    cases h
    have hmodify := modify_step htracked hone kind
      (fun active => { active with alive := false }) fun _ => rfl
    exact ⟨hmodify.1, iff_of_true hmodify.2 trivial⟩
  | management connected =>
    cases h
    have hmodify := modify_step htracked hone .openVpn
      (fun active => { active with connected }) fun _ => rfl
    exact ⟨hmodify.1, iff_of_true hmodify.2 trivial⟩

/-- An action that cannot be taken is not the connect of a thread. -/
theorem notOvertaken_of_stuck (s : Service) (action : ServiceAction)
    (h : s.step action = none) : NotOvertaken s action := by
  cases action with
  | advance index works =>
    cases works with
    | false => trivial
    | true =>
      intro thread hthread hphase
      have hmem : s.threads[index]? = some thread := hthread
      simp [Service.step, hmem, Service.advance, hphase] at h
  | _ => trivial

/-! ### Whole runs -/

/-- Over any interleaving of requests, disconnects and session ends, there is at most one
primary tunnel all along exactly when every primary connect takes place on a thread that no
primary tunnel, up since the thread asked its executor, has overtaken. -/
theorem one_primary_iff (actions : List ServiceAction) :
    (∀ n s, runActions Service.step .idle (actions.take n) = some s → s.OnePrimary) ↔
      AllAdmitted Service.step NotOvertaken .idle actions :=
  holds_along_iff service_step notOvertaken_of_stuck actions
    (by simp [Service.Tracked, Service.idle])
    (by simp [Service.OnePrimary, Service.holdsPrimary, Service.idle])

def homeXray : ConnectRequest := ⟨.xray, 501, "home", .primary⟩

def corpWireGuard : ConnectRequest := ⟨.wireGuard, 501, "corp", .primary⟩

/-- Two requests whose checks both run before either connects. -/
def bothCheck : List ServiceAction :=
  [.request homeXray, .request corpWireGuard] ++
    List.replicate 4 (.advance 0 true) ++ List.replicate 4 (.advance 1 true) ++
    List.replicate 2 (.advance 0 true) ++ List.replicate 2 (.advance 1 true)

/-- Both connect: Xray and WireGuard are primary at the same time. -/
theorem both_check_both_primary :
    ¬∀ n s, runActions Service.step .idle (bothCheck.take n) = some s → s.OnePrimary := by
  intro h
  have hrun : (runActions Service.step .idle bothCheck).any fun s =>
      s.holdsPrimary .xray && s.holdsPrimary .wireGuard := by decide
  obtain ⟨s, hs, hboth⟩ := (Option.any_eq_true _ _).mp hrun
  have hone := h bothCheck.length s (by rw [List.take_length]; exact hs)
  rw [Bool.and_eq_true] at hboth
  exact absurd (hone .xray .wireGuard hboth.1 hboth.2) (by decide)

end NetOrchestrator.Macos
