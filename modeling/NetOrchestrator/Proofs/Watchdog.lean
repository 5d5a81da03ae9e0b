import NetOrchestrator.Daemon.Watchdog

/-!
# `Proofs.Watchdog`: the recovery budget

`Budget` is what the attempt times know about the requests: the last stall attempt is no earlier
than any stall request that stands, and while a stall request is in the slot, the attempt that a
cancellation would restore is no earlier than those before it. `Answered` says of a change of the
underlay where its recovery is: done, pending, in the slot, or in the core's hands.

Both hold initially and are kept by every step. `recovery_budget` reads off them that no run asks
for a stall recovery too soon after another, and that no change of the underlay goes unanswered.
-/

namespace NetOrchestrator.Daemon

/-! ### Attempts -/

open List

/-- An attempt was made at the time or after it. -/
def AttemptedSince (last : Option Nat) (time : Nat) : Prop := ∃ t, last = some t ∧ time ≤ t

theorem AttemptedSince.cooledDown {last : Option Nat} {time now : Nat} {cooldown : Nat}
    (h : AttemptedSince last time)
    (hcool : RecoveryState.cooledDown cooldown last now = true) (hpos : 0 < cooldown) :
    time + cooldown ≤ now := by
  obtain ⟨t, rfl, ht⟩ := h
  have hpassed : cooldown ≤ now - t := by simpa [RecoveryState.cooledDown] using hcool
  omega

/-- A stall request that stands. -/
def IssuedRequest.LiveStall (r : IssuedRequest) : Prop :=
  r.reason.isStall = true ∧ r.cancelled = false

instance (r : IssuedRequest) : Decidable r.LiveStall := inferInstanceAs (Decidable (_ ∧ _))

/-- Requests of one kind, newest first, with the cooldown between any two. -/
def SpacedBy (cooldown : Nat) (kind : IssuedRequest → Prop) (issued : List IssuedRequest) : Prop :=
  issued.Pairwise fun later earlier =>
    kind later → kind earlier → earlier.time + cooldown ≤ later.time

theorem SpacedBy.cons {cooldown : Nat} {kind : IssuedRequest → Prop} {issued : List IssuedRequest}
    {r : IssuedRequest} (h : SpacedBy cooldown kind issued)
    (hr : kind r → ∀ earlier ∈ issued, kind earlier → earlier.time + cooldown ≤ r.time) :
    SpacedBy cooldown kind (r :: issued) :=
  List.Pairwise.cons (fun earlier hearlier hkind => hr hkind earlier hearlier) h

/-! ### The budget -/

namespace WatchdogSystem

/-- What the attempt times and the slot say about the requests made. -/
structure Budget (s : WatchdogSystem) : Prop where
  past : ∀ r ∈ s.issued, r.time ≤ s.clock
  slot : ∀ reason, s.shared.request = some reason →
    ∃ time rest, s.issued = ⟨reason, time, false⟩ :: rest ∧
      (reason.isStall = true →
        ∀ r ∈ rest, r.LiveStall → AttemptedSince s.state.stallBeforeRequest r.time)
  synced : s.shared.request.isSome = true → s.shared.recoveredAt = s.acknowledged
  unsynced : s.shared.recoveredAt ≠ s.acknowledged →
    ∀ r ∈ s.issued, AttemptedSince s.shared.recoveredAt r.time
  egress : ∀ r ∈ s.issued, r.reason = .egress → AttemptedSince s.state.lastEgressAttempt r.time
  stall : ∀ r ∈ s.issued, r.LiveStall → AttemptedSince s.state.lastStallAttempt r.time
  stallSpaced : SpacedBy stallCooldown IssuedRequest.LiveStall s.issued
  egressSpaced : SpacedBy egressCooldown (·.reason = .egress) s.issued

variable {s t : WatchdogSystem}
variable (now : Nat)

theorem budget_initial : (initial now).Budget := by
  constructor <;> simp [initial, SpacedBy]

section
variable (h : s.Budget)
include h

/-- The budget depends on the requests, the attempt times and what both sides know of
recoveries. -/
theorem Budget.congr (hclock : s.clock ≤ t.clock) (hissued : t.issued = s.issued)
    (hrequest : t.shared.request = s.shared.request)
    (hrecovered : t.shared.recoveredAt = s.shared.recoveredAt)
    (hacknowledged : t.acknowledged = s.acknowledged)
    (hegress : t.state.lastEgressAttempt = s.state.lastEgressAttempt)
    (hstall : t.state.lastStallAttempt = s.state.lastStallAttempt)
    (hbefore : t.state.stallBeforeRequest = s.state.stallBeforeRequest) : t.Budget where
  past := by
    rw [hissued]
    exact fun r hr => Nat.le_trans (h.past r hr) hclock
  slot := by
    rw [hrequest, hissued, hbefore]
    exact h.slot
  synced := by
    rw [hrequest, hrecovered, hacknowledged]
    exact h.synced
  unsynced := by
    rw [hrecovered, hacknowledged, hissued]
    exact h.unsynced
  egress := by
    rw [hissued, hegress]
    exact h.egress
  stall := by
    rw [hissued, hstall]
    exact h.stall
  stallSpaced := by
    rw [hissued]
    exact h.stallSpaced
  egressSpaced := by
    rw [hissued]
    exact h.egressSpaced

/-- A slot that becomes free leaves the budget. -/
theorem Budget.emptied : { s with shared := { s.shared with request := none } }.Budget :=
  { h with
    slot := by simp
    synced := by simp }

theorem Budget.syncRecovery : s.syncRecovery.Budget := by
  rw [WatchdogSystem.syncRecovery]
  split
  · exact h
  · rename_i hne
    have hempty : s.shared.request = none := by
      by_contra hsome
      exact hne (h.synced (Option.isSome_iff_ne_none.2 hsome))
    -- Every request is older than the recovery, which is the new egress attempt.
    have hlast := h.unsynced hne
    constructor
    case past => exact h.past
    case slot => simp [hempty]
    case synced => simp
    case unsynced => simp
    case egress =>
      intro r hr _
      obtain ⟨time, htime, hle⟩ := hlast r hr
      exact ⟨time, by simp [htime, RecoveryState.acknowledge], hle⟩
    case stall =>
      intro r hr hlive
      have hstall := h.stall r hr hlive
      cases hrecovered : s.shared.recoveredAt <;> simpa [RecoveryState.acknowledge, hrecovered]
    case stallSpaced => exact h.stallSpaced
    case egressSpaced => exact h.egressSpaced

theorem Budget.recovered (unix : Nat) : (s.recovered unix).Budget :=
  { h with
    slot := by simp [WatchdogSystem.recovered]
    synced := by simp [WatchdogSystem.recovered]
    unsynced := fun _ r hr => ⟨s.clock, rfl, h.past r hr⟩ }

theorem Budget.cancel (https : ProbeOutcome) (udpSockets : Option Nat) :
    (s.cancel https udpSockets).Budget := by
  rw [WatchdogSystem.cancel]
  cases hrequest : s.shared.request with
  | none => exact h
  | some reason =>
    obtain ⟨time, rest, hissued, hbefore⟩ := h.slot reason hrequest
    cases hcleared : RecoveryState.cleared reason https udpSockets with
    | false => simpa [RecoveryState.cancelClearedRequest, hcleared] using h
    | true =>
      have hstall : reason.isStall = true := by
        cases reason
        · simp [RecoveryState.cleared] at hcleared
        · rfl
        · rfl
      simp only [RecoveryState.cancelClearedRequest, hcleared, if_true, hissued, markCancelled]
      have hpast := h.past
      have hunsynced := h.unsynced
      have hegress := h.egress
      have hstallSpaced := h.stallSpaced
      have hegressSpaced := h.egressSpaced
      rw [hissued] at hpast hunsynced hegress hstallSpaced hegressSpaced
      constructor
      case past => simpa using hpast
      case slot => simp
      case synced => simp
      case unsynced => simpa using hunsynced
      case egress => simpa using hegress
      case stall =>
        -- The request itself stands no more: what is left is older than the restored attempt.
        intro r hr hlive
        rcases mem_cons.1 hr with rfl | hr
        · simp [IssuedRequest.LiveStall] at hlive
        · exact hbefore hstall r hr hlive
      case stallSpaced =>
        refine SpacedBy.cons hstallSpaced.of_cons fun hlive => ?_
        simp [IssuedRequest.LiveStall] at hlive
      case egressSpaced =>
        refine SpacedBy.cons hegressSpaced.of_cons fun hkind => ?_
        simp only at hkind
        simp [hkind, RecoveryReason.isStall] at hstall

end

/-- What `recovery` does: nothing, an egress request whose cooldown is over, or a stall request
whose cooldown is over. -/
theorem recovery_cases (st : RecoveryState) : st.recovery now = (st, none) ∨
    (RecoveryState.cooledDown egressCooldown st.lastEgressAttempt now = true ∧
      st.recovery now =
        ({ st with pendingEgress := false, lastEgressAttempt := some now }, some .egress)) ∨
    ∃ reason, st.pendingStall = some reason ∧
      RecoveryState.cooledDown stallCooldown st.lastStallAttempt now = true ∧
      st.recovery now =
        ({ st with
          stallBeforeRequest := st.lastStallAttempt
          lastStallAttempt := some now
          pendingStall := none }, some reason) := by
  rw [RecoveryState.recovery]
  split
  · exact .inl rfl
  · split
    · rename_i hegress
      simp only [Bool.and_eq_true] at hegress
      exact .inr (.inl ⟨hegress.2, rfl⟩)
    · split
      · rename_i hstall
        simp only [Bool.and_eq_true, Option.isSome_iff_exists] at hstall
        obtain ⟨⟨reason, hreason⟩, hcool⟩ := hstall
        exact .inr (.inr ⟨reason, hreason, hcool, by rw [hreason]⟩)
      · exact .inl rfl

/-- `publish` with its request, once the status is out. -/
def issue (s : WatchdogSystem) : WatchdogSystem :=
  { s with
    state := (s.state.recovery s.clock).1
    shared := { s.shared with request := (s.state.recovery s.clock).2 }
    issued := ((s.state.recovery s.clock).2.toList.map fun reason => ⟨reason, s.clock, false⟩) ++
      s.issued }

/-- A new request, made when both sides know the same recovery and the slot is free. -/
theorem Budget.issue (h : s.Budget) (hsynced : s.shared.recoveredAt = s.acknowledged)
    (hpending : ∀ reason, s.state.pendingStall = some reason → reason.isStall = true) : s.issue.Budget := by
  unfold WatchdogSystem.issue
  have hpos : 0 < egressCooldown ∧ 0 < stallCooldown := by decide
  obtain hnone | ⟨hcool, hegress⟩ | ⟨reason, hreason, hcool, hstall⟩ :=
    recovery_cases s.clock s.state
  · rw [hnone]
    exact h.emptied
  · rw [hegress]
    constructor
    case past => simpa using h.past
    case slot => simp [RecoveryReason.isStall]
    case synced => simpa using hsynced
    case unsynced => exact fun hne => absurd hsynced hne
    case egress =>
      intro r hr hkind
      rcases mem_cons.1 hr with rfl | hr
      · exact ⟨s.clock, rfl, Nat.le_refl _⟩
      · exact ⟨s.clock, rfl, h.past r hr⟩
    case stall =>
      intro r hr hlive
      rcases mem_cons.1 hr with rfl | hr
      · simp [IssuedRequest.LiveStall, RecoveryReason.isStall] at hlive
      · exact h.stall r hr hlive
    case stallSpaced =>
      refine SpacedBy.cons h.stallSpaced fun hlive => ?_
      simp [IssuedRequest.LiveStall, RecoveryReason.isStall] at hlive
    case egressSpaced =>
      refine SpacedBy.cons h.egressSpaced fun _ r hr hkind => ?_
      exact (h.egress r hr hkind).cooledDown hcool hpos.1
  · have hkind := hpending reason hreason
    rw [hstall]
    constructor
    case past => simpa using h.past
    case slot =>
      intro reason' hreason'
      cases hreason'
      exact ⟨s.clock, s.issued, rfl, fun _ r hr hlive => h.stall r hr hlive⟩
    case synced => simpa using hsynced
    case unsynced => exact fun hne => absurd hsynced hne
    case egress =>
      intro r hr hkind'
      rcases mem_cons.1 hr with rfl | hr
      · simp only at hkind'
        simp [hkind', RecoveryReason.isStall] at hkind
      · exact h.egress r hr hkind'
    case stall =>
      intro r hr hlive
      rcases mem_cons.1 hr with rfl | hr
      · exact ⟨s.clock, rfl, Nat.le_refl _⟩
      · exact ⟨s.clock, rfl, h.past r hr⟩
    case stallSpaced =>
      refine SpacedBy.cons h.stallSpaced fun _ r hr hlive => ?_
      exact (h.stall r hr hlive).cooledDown hcool hpos.2
    case egressSpaced =>
      refine SpacedBy.cons h.egressSpaced fun hkind' => ?_
      simp only at hkind'
      simp [hkind', RecoveryReason.isStall] at hkind

/-! ### Changes of the underlay -/

/-- Where the recovery for a change at a time is. -/
def Answered (s : WatchdogSystem) (change : Nat) : Prop :=
  (∃ time ∈ s.recoveries, change ≤ time) ∨
  s.state.pendingEgress = true ∨
  (s.shared.request = some .egress ∧ ∃ last, s.issued.head? = some last ∧ change ≤ last.time) ∨
  ∃ r ∈ s.taken, r.reason = .egress ∧ change ≤ r.time

/-- Where the recovery for each change is, and what the worker knows of changes and recoveries. -/
structure Tracked (s : WatchdogSystem) : Prop where
  answered : ∀ change ∈ s.changes, s.Answered change
  past : ∀ change ∈ s.changes, change ≤ s.clock
  lastChange : ∀ change ∈ s.changes, AttemptedSince s.state.lastEgressChange change
  recovered : ∀ time, s.shared.recoveredAt = some time → time ∈ s.recoveries
  noStall : ∀ reason, s.state.pendingStall = some reason → reason.isStall = true

theorem tracked_initial : (initial now).Tracked := by
  constructor <;> simp [initial, RecoveryState.new]

/-- Steps that leave the changes, the slot and the requests alone. -/
theorem Answered.congr {change : Nat} (h : s.Answered change)
    (hrecoveries : t.recoveries = s.recoveries)
    (hpending : s.state.pendingEgress = true → t.state.pendingEgress = true)
    (hrequest : t.shared.request = s.shared.request) (hissued : t.issued = s.issued)
    (htaken : t.taken = s.taken) : t.Answered change := by
  rw [Answered, hrecoveries, hrequest, hissued, htaken]
  exact h.imp_right fun h => h.imp_left hpending

theorem Tracked.congr (h : s.Tracked) (hclock : s.clock ≤ t.clock)
    (hchanges : t.changes = s.changes) (hpending : t.state.pendingEgress = s.state.pendingEgress)
    (hlast : t.state.lastEgressChange = s.state.lastEgressChange)
    (hshared : t.shared.request = s.shared.request ∧
      t.shared.recoveredAt = s.shared.recoveredAt)
    (hissued : t.issued = s.issued) (htaken : t.taken = s.taken)
    (hrecoveries : t.recoveries = s.recoveries)
    (hstall : ∀ reason, t.state.pendingStall = some reason → reason.isStall = true) :
    t.Tracked where
  answered := by
    rw [hchanges]
    exact fun change hchange => (h.answered change hchange).congr hrecoveries
      (fun hp => by rw [hpending, hp]) hshared.1 hissued htaken
  past := by
    rw [hchanges]
    exact fun change hchange => Nat.le_trans (h.past change hchange) hclock
  lastChange := by
    rw [hchanges, hlast]
    exact h.lastChange
  recovered := by
    rw [hshared.2, hrecoveries]
    exact h.recovered
  noStall := hstall

theorem Tracked.syncRecovery (h : s.Tracked) : s.syncRecovery.Tracked := by
  rw [WatchdogSystem.syncRecovery]
  split
  · exact h
  · cases hrecovered : s.shared.recoveredAt with
    | none =>
      exact h.congr (Nat.le_refl _) rfl rfl rfl ⟨rfl, by simp [hrecovered]⟩ rfl rfl rfl h.noStall
    | some time =>
      have hmem := h.recovered time hrecovered
      constructor
      case answered =>
        intro change hchange
        by_cases hlate : s.state.lastEgressChange.all (· ≤ time) = true
        -- No change is later than this recovery.
        · obtain ⟨t, ht, hle⟩ := h.lastChange change hchange
          rw [ht] at hlate
          have htime : t ≤ time := by simpa using hlate
          exact .inl ⟨time, hmem, Nat.le_trans hle htime⟩
        · refine (h.answered change hchange).congr rfl (fun hp => ?_) rfl rfl rfl
          simp [RecoveryState.acknowledge, hlate, hp]
      case past => exact h.past
      case lastChange => exact h.lastChange
      case recovered => exact fun t ht => h.recovered t (by simpa [hrecovered] using ht)
      case noStall => simp [RecoveryState.acknowledge]

theorem Tracked.egress (h : s.Tracked) (event : EgressEvent)
    (signature : Option String) (unix : Nat) : (s.egress event signature unix).Tracked := by
  by_cases hevent : event = .changed ∨ event = .flap
  · constructor
    case answered =>
      intro change _
      exact .inr (.inl (by simp [WatchdogSystem.egress, RecoveryState.egress, hevent]))
    case past =>
      intro change hchange
      rw [WatchdogSystem.egress, if_pos hevent] at hchange
      rcases mem_cons.1 hchange with rfl | hchange
      · exact Nat.le_refl _
      · exact h.past change hchange
    case lastChange =>
      intro change hchange
      rw [WatchdogSystem.egress, if_pos hevent] at hchange
      refine ⟨s.clock, by simp [WatchdogSystem.egress, RecoveryState.egress, hevent], ?_⟩
      rcases mem_cons.1 hchange with rfl | hchange
      · exact Nat.le_refl _
      · exact h.past change hchange
    case recovered => exact h.recovered
    case noStall => simpa [WatchdogSystem.egress, RecoveryState.egress, hevent] using h.noStall
  · have hstate : (s.egress event signature unix).state = { s.state with
        status := { s.state.status with
          uplink := some signature.isSome, egressSignature := signature } } := by
      simp [WatchdogSystem.egress, RecoveryState.egress, hevent]
    refine h.congr (Nat.le_refl _) ?_ (by rw [hstate]) (by rw [hstate]) ⟨rfl, rfl⟩ rfl rfl rfl ?_
    · simp [WatchdogSystem.egress, hevent]
    · rw [hstate]
      exact h.noStall

theorem noStall_observe {st : RecoveryState} (https dns : ProbeOutcome) (nodeReachable : Bool)
    (resources : Option SocketReport) (reason : RecoveryReason)
    (h : (st.observe https dns nodeReachable resources).pendingStall = some reason) :
    reason.isStall = true := by
  cases https <;> cases dns <;> cases resources <;>
    simp only [RecoveryState.observe, RecoveryState.observeHttps, RecoveryState.observeDns,
      RecoveryState.observeResources] at h <;>
    grind [RecoveryReason.isStall]

section
variable (h : s.Tracked)
include h

theorem Tracked.observe (https dns : ProbeOutcome) (nodeReachable : Bool)
    (resources : Option SocketReport) :
    { s with state := s.state.observe https dns nodeReachable resources }.Tracked := by
  refine h.congr (Nat.le_refl _) rfl ?_ ?_ ⟨rfl, rfl⟩ rfl rfl rfl
    (noStall_observe https dns nodeReachable resources)
  all_goals cases https <;> cases dns <;> cases resources <;>
      simp [RecoveryState.observe, RecoveryState.observeHttps, RecoveryState.observeDns,
        RecoveryState.observeResources]

theorem Tracked.cancel (https : ProbeOutcome) (udpSockets : Option Nat) :
    (s.cancel https udpSockets).Tracked := by
  rw [WatchdogSystem.cancel]
  cases hrequest : s.shared.request with
  | none => exact h
  | some reason =>
    cases hcleared : RecoveryState.cleared reason https udpSockets with
    | false => simpa [RecoveryState.cancelClearedRequest, hcleared] using h
    | true =>
      simp only [RecoveryState.cancelClearedRequest, hcleared, if_true]
      refine { h with answered := ?_ }
      intro change hchange
      have hanswered := h.answered change hchange
      -- An egress request is never cleared.
      have hne : s.shared.request ≠ some .egress := by
        intro heq
        rw [hrequest, Option.some.injEq] at heq
        simp [heq, RecoveryState.cleared] at hcleared
      simpa [Answered, hne] using hanswered

theorem Tracked.issue (hempty : s.shared.request = none) : s.issue.Tracked := by
  unfold WatchdogSystem.issue
  have hanswered := h.answered
  simp only [Answered, hempty] at hanswered
  obtain hnone | ⟨_, hegress⟩ | ⟨reason, _, _, hstall⟩ := recovery_cases s.clock s.state
  · rw [hnone]
    refine { h with answered := ?_ }
    simpa [Answered] using hanswered
  · rw [hegress]
    refine { h with answered := ?_ }
    intro change hchange
    exact .inr (.inr (.inl ⟨rfl, _, rfl, h.past change hchange⟩))
  · rw [hstall]
    refine { h with answered := ?_, noStall := by simp }
    intro change hchange
    obtain hdone | hpending | hslot | htaken := hanswered change hchange
    · exact .inl hdone
    · exact .inr (.inl hpending)
    · simp at hslot
    · exact .inr (.inr (.inr htaken))

theorem Tracked.takeRequest (hbudget : s.Budget) : s.takeRequest.Tracked := by
  rw [WatchdogSystem.takeRequest]
  split
  · exact h
  · refine { h with answered := ?_ }
    intro change hchange
    obtain hdone | hpending | ⟨hslot, last, hlast, hle⟩ | ⟨r, hr, hkind, hle⟩ :=
      h.answered change hchange
    · exact .inl hdone
    · exact .inr (.inl hpending)
    -- The core takes the last request made.
    · obtain ⟨time, rest, hissued, _⟩ := hbudget.slot _ hslot
      simp only [hissued, head?_cons, Option.some.injEq] at hlast
      subst hlast
      exact .inr (.inr (.inr ⟨_, by simp [hslot, hissued], rfl, hle⟩))
    · exact .inr (.inr (.inr ⟨r, by simp [hr], hkind, hle⟩))

theorem Tracked.recovered_step (unix : Nat) : (s.recovered unix).Tracked :=
  { h with
    answered := fun change hchange =>
      .inl ⟨s.clock, by simp [WatchdogSystem.recovered], h.past change hchange⟩
    recovered := by simp [WatchdogSystem.recovered] }

end

/-! ### Runs -/

/-- Both invariants. -/
structure Sound (s : WatchdogSystem) : Prop where
  budget : s.Budget
  tracked : s.Tracked

/-- A step that changes nothing the invariants speak of. -/
theorem Sound.congr (h : s.Sound) (hclock : s.clock ≤ t.clock)
    (hghosts : t.issued = s.issued ∧ t.taken = s.taken ∧ t.changes = s.changes ∧
      t.recoveries = s.recoveries) (hshared : t.shared.request = s.shared.request ∧
      t.shared.recoveredAt = s.shared.recoveredAt ∧ t.acknowledged = s.acknowledged)
    (hstate : ∃ status, t.state = { s.state with status }) : t.Sound := by
  obtain ⟨status, hstate⟩ := hstate
  obtain ⟨hissued, htaken, hchanges, hrecoveries⟩ := hghosts
  obtain ⟨hrequest, hrecovered, hacknowledged⟩ := hshared
  constructor
  · exact h.budget.congr hclock hissued hrequest hrecovered hacknowledged (by rw [hstate])
      (by rw [hstate]) (by rw [hstate])
  · refine h.tracked.congr hclock hchanges (by rw [hstate]) (by rw [hstate])
      ⟨hrequest, hrecovered⟩ hissued htaken hrecoveries ?_
    rw [hstate]
    exact h.tracked.noStall

theorem Sound.issue (h : s.Sound) (hempty : s.shared.request = none)
    (hsynced : s.shared.recoveredAt = s.acknowledged) : s.issue.Sound where
  budget := h.budget.issue hsynced h.tracked.noStall
  tracked := h.tracked.issue hempty

theorem Sound.publish (h : s.Sound) : s.publish.Sound := by
  rw [WatchdogSystem.publish]
  split
  · exact h.congr (Nat.le_refl _) ⟨rfl, rfl, rfl, rfl⟩ ⟨rfl, rfl, rfl⟩ ⟨_, rfl⟩
  · rename_i hsynced
    -- The status is published first, and then the request is made.
    have hpublished : { s with
        state := { s.state.refreshAnomalies with status := { s.state.refreshAnomalies.status with
          lastRecoveryUnix := s.shared.status.lastRecoveryUnix } }
        shared := { s.shared with status := { s.state.refreshAnomalies.status with
          lastRecoveryUnix := s.shared.status.lastRecoveryUnix } } }.Sound :=
      h.congr (Nat.le_refl _) ⟨rfl, rfl, rfl, rfl⟩ ⟨rfl, rfl, rfl⟩ ⟨_, rfl⟩
    simp only
    split
    · rename_i hfree
      have hempty : s.shared.request = none := by simp_all
      exact hpublished.issue hempty (not_not.1 hsynced)
    · exact hpublished

theorem Sound.step (h : s.Sound) (action : WatchdogStep) : (s.step action).Sound := by
  cases action with
  | tick elapsed =>
    exact h.congr (Nat.le_add_right _ _) ⟨rfl, rfl, rfl, rfl⟩ ⟨rfl, rfl, rfl⟩ ⟨_, rfl⟩
  | syncRecovery => exact ⟨h.budget.syncRecovery, h.tracked.syncRecovery⟩
  | egress event signature unix =>
    refine ⟨h.budget.congr (Nat.le_refl _) rfl rfl rfl rfl ?_ ?_ ?_,
      h.tracked.egress event signature unix⟩
    all_goals by_cases hevent : event = .changed ∨ event = .flap <;>
        simp [WatchdogSystem.step, WatchdogSystem.egress, RecoveryState.egress, hevent]
  | egressFailed => exact h.congr (Nat.le_refl _) ⟨rfl, rfl, rfl, rfl⟩ ⟨rfl, rfl, rfl⟩ ⟨_, rfl⟩
  | authorize up => exact h.congr (Nat.le_refl _) ⟨rfl, rfl, rfl, rfl⟩ ⟨rfl, rfl, rfl⟩ ⟨_, rfl⟩
  | markObserved => exact h.congr (Nat.le_refl _) ⟨rfl, rfl, rfl, rfl⟩ ⟨rfl, rfl, rfl⟩ ⟨_, rfl⟩
  | observe https dns nodeReachable resources =>
    refine ⟨h.budget.congr (Nat.le_refl _) rfl rfl rfl rfl ?_ ?_ ?_,
      h.tracked.observe https dns nodeReachable resources⟩
    all_goals cases https <;> cases dns <;> cases resources <;>
        simp [WatchdogSystem.step, RecoveryState.observe, RecoveryState.observeHttps,
          RecoveryState.observeDns, RecoveryState.observeResources]
  | cancel https udpSockets =>
    exact ⟨h.budget.cancel https udpSockets, h.tracked.cancel https udpSockets⟩
  | publish => exact h.publish
  | askOnline => exact h.congr (Nat.le_refl _) ⟨rfl, rfl, rfl, rfl⟩ ⟨rfl, rfl, rfl⟩ ⟨_, rfl⟩
  | takeRequest =>
    refine ⟨?_, h.tracked.takeRequest h.budget⟩
    rw [WatchdogSystem.step, WatchdogSystem.takeRequest]
    split
    · exact h.budget
    · exact h.budget.emptied.congr (Nat.le_refl _) rfl rfl rfl rfl rfl rfl rfl
  | recovered unix => exact ⟨h.budget.recovered unix, h.tracked.recovered_step unix⟩

theorem sound_run (steps : List WatchdogStep) : ((initial now).run steps).Sound := by
  have hall : ∀ s : WatchdogSystem, s.Sound → (s.run steps).Sound := by
    induction steps with
    | nil => exact fun s h => h
    | cons action rest ih => exact fun s h => ih _ (h.step action)
  exact hall _ ⟨budget_initial now, tracked_initial now⟩

/-- After every sequence of steps, the stall requests that stand are one cooldown apart, and so are
the egress requests. Every change has its recovery, or one is pending, in the slot, or taken by the
core after the change. -/
theorem recovery_budget (now : Nat) (steps : List WatchdogStep) :
    SpacedBy stallCooldown IssuedRequest.LiveStall ((initial now).run steps).issued ∧
    SpacedBy egressCooldown (·.reason = .egress) ((initial now).run steps).issued ∧
    ∀ change ∈ ((initial now).run steps).changes,
      (∀ time ∈ ((initial now).run steps).recoveries, time < change) →
      ((initial now).run steps).state.pendingEgress = true ∨
      ((initial now).run steps).shared.request = some .egress ∨
      ∃ r ∈ ((initial now).run steps).taken, r.reason = .egress ∧ change ≤ r.time := by
  have h := sound_run now steps
  refine ⟨h.budget.stallSpaced, h.budget.egressSpaced, fun change hchange hlate => ?_⟩
  obtain ⟨time, htime, hle⟩ | hpending | ⟨hslot, _⟩ | htaken := h.tracked.answered change hchange
  · exact absurd (hlate time htime) (Nat.not_lt.2 hle)
  · exact .inl hpending
  · exact .inr (.inl hslot)
  · exact .inr (.inr htaken)

/-- A change that is seen while the network is up is answered by a request in the slot. -/
def changedNetwork : List WatchdogStep :=
  [.authorize true, .egress .changed (some "wifi") 0, .publish]

theorem recovery_budget_changed :
    ((initial 0).run changedNetwork).issued = [⟨.egress, 0, false⟩] ∧
    (((initial 0).run changedNetwork).state.pendingEgress = true ∨
      ((initial 0).run changedNetwork).shared.request = some .egress ∨
      ∃ r ∈ ((initial 0).run changedNetwork).taken, r.reason = .egress ∧ 0 ≤ r.time) := by
  have hissued : ((initial 0).run changedNetwork).issued = [⟨.egress, 0, false⟩] := by decide
  exact ⟨hissued, (recovery_budget 0 changedNetwork).2.2 0 (by decide) (by decide)⟩

end WatchdogSystem

end NetOrchestrator.Daemon
