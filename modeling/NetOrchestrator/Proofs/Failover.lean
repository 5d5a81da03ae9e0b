import Mathlib.Data.List.Induction
import NetOrchestrator.Daemon.Failover
import NetOrchestrator.Lib.Steps

/-!
# `Proofs.Failover`: what the balancer selects

The verdict of a candidate follows its samples: `smoothed_run` reads it off the history, newest
sample first. The streak counter is the last sample's disagreement with the verdict
(`Smoothed`), which carries the induction.

The selection follows the verdicts. `selection_follows` says it for runs whose commands all
succeed.

The worker repeats a command only while the tag it wants differs from the last one that was
acknowledged. `failover_agrees_iff` says when this is enough for the balancer to select what the
worker wants: in the runs in which no round falls back to the acknowledged tag while a command
that took effect is unacknowledged.
-/

namespace NetOrchestrator.Daemon

open Lib List Option

/-! ### Verdicts -/

/-- The verdict after some samples, newest first: the first sample, and then a change where the
last two samples both disagree. -/
def smoothed : List Bool → Option Bool
  | [] => none
  | [first] => some first
  | last :: previous :: rest =>
    let verdict := smoothed (previous :: rest)
    if verdict ≠ some last ∧ verdict ≠ some previous then some last else verdict

theorem smoothed_isSome (last : Bool) (rest : List Bool) :
    ∃ verdict, smoothed (last :: rest) = some verdict := by
  induction rest generalizing last with
  | nil => exact ⟨last, rfl⟩
  | cons previous rest ih =>
    obtain ⟨verdict, hverdict⟩ := ih previous
    rw [smoothed]
    split
    · exact ⟨last, rfl⟩
    · exact ⟨verdict, hverdict⟩

/-- One step toward the sample's verdict. -/
def streakToward (healthy : Bool) : Int := if healthy then 1 else -1

/-- The streak counts the last sample where it disagrees with the verdict. -/
def streakAfter (verdict : Option Bool) : List Bool → Int
  | [] => 0
  | last :: _ => if verdict = some last then 0 else streakToward last

/-- The node's verdict and streak are those of its samples, newest first. -/
structure TrackedNode.Smoothed (samples : List Bool) (node : TrackedNode) : Prop where
  committed : node.committed = smoothed samples
  streak : node.streak = streakAfter node.committed samples

section
variable {samples : List Bool} {node : TrackedNode} (h : node.Smoothed samples)
include h

theorem TrackedNode.Smoothed.observe (now : Nat) (sample : ProbeSample) :
    (node.observe now sample).Smoothed (sample.healthy :: samples) := by
  obtain ⟨key, probePort, committed, streak, lastProbeUnix, latencyMs⟩ := node
  obtain ⟨hcommitted, hstreak⟩ := h
  simp only at hcommitted hstreak
  cases samples with
  | nil =>
    subst hcommitted hstreak
    exact ⟨rfl, by simp [TrackedNode.observe, smoothed, streakAfter]⟩
  | cons previous rest =>
    obtain ⟨verdict, hverdict⟩ := smoothed_isSome previous rest
    rw [hverdict] at hcommitted
    subst hcommitted hstreak
    -- Four cases: whether the new sample and the one before it agree with the verdict.
    constructor <;> cases hnew : sample.healthy <;> cases previous <;> cases verdict <;>
        simp [TrackedNode.observe, smoothed, hverdict, hnew, streakAfter, streakToward,
          streakRequired]

end

@[simp]
theorem observe_key (now : Nat) (sample : ProbeSample) (node : TrackedNode) :
    (node.observe now sample).key = node.key := by
  simp only [TrackedNode.observe]
  split
  · rfl
  · split
    · rfl
    · split <;> split <;> rfl

namespace FailoverWorker

variable {w : FailoverWorker} {candidates : List String} {healthy : List (Option Bool)}

section
variable (tag : String) (ending : OverrideEnd)

@[simp]
theorem apiOverride_nodes : (w.apiOverride tag ending).nodes = w.nodes := by
  cases ending <;> rfl

@[simp]
theorem apiOverride_balancer : (w.apiOverride tag ending).balancer = w.balancer := by
  cases ending <;> rfl

end

section
variable (round : ProbeRound)

@[simp]
theorem round_nodes : (w.round round).nodes = w.probed round := by
  unfold FailoverWorker.round publish
  split <;> simp

@[simp]
theorem round_balancer : (w.round round).balancer = w.balancer := by
  unfold FailoverWorker.round publish
  split <;> simp

@[simp]
theorem probed_keys : (w.probed round).map TrackedNode.key = w.nodes.map TrackedNode.key := by
  unfold probed
  apply ext_getElem?
  intro index
  cases hnode : w.nodes[index]? <;> simp [hnode]

end

/-- The samples of a candidate in some rounds, newest first. -/
def samplesOf (index : Nat) (rounds : List ProbeRound) : List Bool :=
  (rounds.map fun round => (round.samples index).2.healthy).reverse

theorem run_append (w : FailoverWorker) (rounds : List ProbeRound) (last : ProbeRound) :
    w.run (rounds ++ [last]) = (w.run rounds).round last := by
  simp [run]

theorem samplesOf_append (index : Nat) (rounds : List ProbeRound) (last : ProbeRound) :
    samplesOf index (rounds ++ [last]) = (last.samples index).2.healthy :: samplesOf index rounds := by
  simp [samplesOf]

section
variable {params : XrayFailoverParams} {balancer : BalancerTarget} {probePortOf : Nat → Nat}
  {selected : String}
variable (rounds : List ProbeRound)

theorem smoothed_run (index : Nat) (node : TrackedNode)
    (hnode : ((spawn params balancer probePortOf selected).run rounds).nodes[index]? = some node) :
    node.Smoothed (samplesOf index rounds) := by
  induction rounds using List.reverseRecOn generalizing node with
  | nil =>
    simp only [run, foldl_nil, spawn, getElem?_mapIdx, map_eq_some_iff] at hnode
    obtain ⟨key, _, rfl⟩ := hnode
    exact ⟨rfl, rfl⟩
  | append_singleton rounds last ih =>
    rw [run_append, round_nodes, probed, getElem?_mapIdx, map_eq_some_iff] at hnode
    obtain ⟨before, hbefore, rfl⟩ := hnode
    rw [samplesOf_append]
    exact (ih before hbefore).observe _ _

theorem run_keys :
    ((spawn params balancer probePortOf selected).run rounds).nodes.map TrackedNode.key =
      params.nodes := by
  induction rounds using List.reverseRecOn with
  | nil =>
    apply ext_getElem?
    intro index
    cases hkey : params.nodes[index]? <;> simp [run, spawn, hkey]
  | append_singleton rounds last ih => rw [run_append, round_nodes, probed_keys, ih]

end

/-! ### The selection -/

theorem firstHealthy_nodes (nodes : List TrackedNode) (kind : OutboundKind) :
    firstHealthy (nodes.map TrackedNode.key) (nodes.map TrackedNode.committed) kind =
      (nodes.find? fun node => node.committed == some true).map fun node => kind.tag node.key := by
  rw [firstHealthy, List.zip_map', List.find?_map, Option.map_map]
  rfl

variable (kind : OutboundKind) {tag : String}

theorem tag_injective : Function.Injective kind.tag := by
  intro a b h
  have hrest := congrArg (stripPrefix kind.tagStart) h
  simpa [OutboundKind.tag] using hrest

theorem tag_ne_unavailable (key : String) : kind.tag key ≠ unavailableTag := by
  intro h
  -- The first characters differ.
  have hhead := congrArg (fun tag => tag.toList.head?) h
  cases kind <;> simp [OutboundKind.tag, OutboundKind.tagStart, unavailableTag] at hhead

/-- A kept backup is a healthy candidate behind the primary. -/
theorem keptBackup_eq_some {current : Option String} {autoReturn : Bool} {kind : OutboundKind}
    (h : keptBackup candidates healthy current autoReturn kind = some tag) :
    autoReturn = false ∧ current = some tag ∧ ∃ (index : Nat) (key : String), candidates[index]? = some key ∧
      tag = kind.tag key ∧ healthy[index]? = some (some true) := by
  unfold keptBackup at h
  split at h
  · cases h
  · rename_i hoff
    obtain ⟨selected, hcurrent, h⟩ := bind_eq_some_iff.mp h
    obtain ⟨index, hindex, h⟩ := bind_eq_some_iff.mp h
    split at h
    · rename_i hhealthy
      cases h
      obtain ⟨hlt, hkey, _⟩ := findIdx?_eq_some_iff_getElem.mp hindex
      refine ⟨by simpa using hoff, hcurrent, index, candidates[index], ?_, ?_, hhealthy.1⟩
      · exact getElem?_eq_getElem hlt
      · exact stripPrefix_eq_some (by simpa using hkey)
    · cases h

/-- A healthy backup that is selected is kept. -/
theorem keptBackup_of_healthy {kind : OutboundKind} {index : Nat} {key : String}
    (hnodup : candidates.Nodup) (hkey : candidates[index]? = some key)
    (hhealthy : healthy[index]? = some (some true)) (hpos : 0 < index) :
    keptBackup candidates healthy (some (kind.tag key)) false kind = some (kind.tag key) := by
  obtain ⟨hlt, rfl⟩ := List.getElem?_eq_some_iff.mp hkey
  have hindex : candidates.findIdx? (fun other =>
      stripPrefix kind.tagStart (kind.tag candidates[index]) == some other) = some index := by
    rw [findIdx?_eq_some_iff_getElem]
    refine ⟨hlt, by simp [OutboundKind.tag], ?_⟩
    intro earlier hearlier
    have hne : candidates[earlier] ≠ candidates[index] := fun heq => by
      have := (hnodup.getElem_inj_iff).mp heq
      omega
    simpa [OutboundKind.tag] using fun heq => hne heq.symm
  simp only [keptBackup, Bool.false_eq_true, if_false, bind_eq_bind, bind_some, hindex]
  rw [if_pos ⟨hhealthy, hpos⟩]

/-- The tag names a healthy candidate. -/
def NamesHealthy (w : FailoverWorker) (tag : String) : Prop :=
  ∃ node ∈ w.nodes, node.committed = some true ∧ tag = w.balancer.kind.tag node.key

/-- What the balancer is told follows the verdicts after the round. -/
structure FollowsVerdicts (w w' : FailoverWorker) : Prop where
  /-- A command was acknowledged, for the blackhole or for a healthy candidate. -/
  applied : ∃ tag, w'.applied = some tag ∧ (tag = unavailableTag ∨ w'.NamesHealthy tag)
  unavailable : w'.applied = some unavailableTag ↔ ∀ node ∈ w'.nodes, node.committed ≠ some true
  /-- With auto-return, the first healthy candidate. -/
  first : w.params.autoReturnPrimary = true → ∀ node,
    w'.nodes.find? (fun node => node.committed == some true) = some node →
    w'.applied = some (w.balancer.kind.tag node.key)
  /-- Without it, a backup is left in the round in which its verdict stops being healthy. -/
  sticky : w.params.autoReturnPrimary = false → ∀ (index : Nat) (before after : TrackedNode),
    0 < index → w.nodes[index]? = some before → w'.nodes[index]? = some after →
    w.applied = some (w.balancer.kind.tag before.key) → w'.applied ≠ w.applied →
    before.committed = some true ∧ after.committed ≠ some true

/-- What the worker last applied was healthy when the verdicts were last read. -/
structure Placed (w : FailoverWorker) : Prop where
  keys : (w.nodes.map TrackedNode.key).Nodup
  applied : ∀ tag, w.applied = some tag → tag = unavailableTag ∨ w.NamesHealthy tag

variable {round : ProbeRound}

theorem wanted_eq : w.wanted round =
    ((keptBackup (w.nodes.map TrackedNode.key) ((w.probed round).map TrackedNode.committed)
        w.applied w.params.autoReturnPrimary w.balancer.kind).or
      (((w.probed round).find? fun node => node.committed == some true).map fun node =>
        w.balancer.kind.tag node.key)).getD unavailableTag := by
  rw [wanted, ← probed_keys round, selectTag, firstHealthy_nodes]
  cases keptBackup ((w.probed round).map TrackedNode.key) _ _ _ _ <;> rfl

/-- A round in which no command fails ends with the wanted tag acknowledged. -/
theorem applied_round (h : w.fails round = false) :
    (w.round round).applied = some (w.wanted round) := by
  unfold fails at h
  cases hcalls : w.calls round with
  | false =>
    simp only [FailoverWorker.round, hcalls, publish]
    simpa [calls] using hcalls
  | true =>
    have happlied : round.override = .applied := by simpa [hcalls] using h
    simp [FailoverWorker.round, hcalls, publish, happlied, apiOverride]

/-- The wanted tag names a healthy candidate, or there is none. -/
theorem wanted_cases : (w.round round).NamesHealthy (w.wanted round) ∨
      w.wanted round = unavailableTag ∧ ∀ node ∈ w.probed round, node.committed ≠ some true := by
  rw [wanted_eq]
  cases hkept : keptBackup (w.nodes.map TrackedNode.key)
      ((w.probed round).map TrackedNode.committed) w.applied w.params.autoReturnPrimary
      w.balancer.kind with
  | some tag =>
    obtain ⟨_, _, index, key, hkey, rfl, hhealthy⟩ := keptBackup_eq_some hkept
    left
    rw [← probed_keys round, getElem?_map, map_eq_some_iff] at hkey
    obtain ⟨node, hnode, rfl⟩ := hkey
    rw [getElem?_map, hnode] at hhealthy
    have hmem := mem_of_getElem? hnode
    exact ⟨node, by simpa using hmem, by simpa using hhealthy, by simp⟩
  | none =>
    cases hfind : (w.probed round).find? fun node => node.committed == some true with
    | some node =>
      left
      have hhealthy := find?_some hfind
      have hmem := mem_of_find?_eq_some hfind
      exact ⟨node, by simpa using hmem, by simpa using hhealthy, by simp⟩
    | none =>
      right
      refine ⟨rfl, ?_⟩
      intro node hnode
      simpa using find?_eq_none.mp hfind node hnode

theorem Placed.after_round (h : w.Placed) (hok : w.fails round = false) : (w.round round).Placed := by
  refine ⟨by simpa using h.keys, ?_⟩
  intro tag htag
  rw [applied_round hok] at htag
  cases htag
  cases (wanted_cases : (w.round round).NamesHealthy (w.wanted round) ∨ _) with
  | inl hnames => exact .inr hnames
  | inr hnone => exact .inl hnone.1

theorem Placed.follows (h : w.Placed) (hok : w.fails round = false) :
    FollowsVerdicts w (w.round round) := by
  have happlied := applied_round hok
  refine ⟨?_, ?_, ?_, ?_⟩
  · refine ⟨_, happlied, ?_⟩
    cases (wanted_cases : (w.round round).NamesHealthy (w.wanted round) ∨ _) with
    | inl hnames => exact .inr hnames
    | inr hnone => exact .inl hnone.1
  · rw [happlied, round_nodes]
    cases (wanted_cases : (w.round round).NamesHealthy (w.wanted round) ∨ _) with
    | inr hnone => simpa [hnone.1] using hnone.2
    | inl hnames =>
      obtain ⟨node, hmem, hhealthy, htag⟩ := hnames
      rw [round_nodes] at hmem
      refine iff_of_false ?_ ?_
      · rw [htag]
        intro heq
        exact tag_ne_unavailable _ _ (Option.some.inj heq)
      · intro hnone
        exact hnone node hmem hhealthy
  · intro hauto node hfind
    rw [round_nodes] at hfind
    rw [happlied, wanted_eq, hfind, hauto]
    simp [keptBackup]
  · intro hauto index before after hpos hbefore hafter hcurrent hleft
    rw [happlied, hcurrent] at hleft
    have hkeys : (w.nodes.map TrackedNode.key)[index]? = some before.key := by simp [hbefore]
    constructor
    · -- What is applied named a healthy candidate, and its key is this one's.
      rcases h.applied _ hcurrent with hnone | ⟨node, hmem, hhealthy, htag⟩
      · exact absurd hnone (tag_ne_unavailable _ _)
      · obtain ⟨other, hother⟩ := mem_iff_getElem?.mp hmem
        have hkey := tag_injective _ htag
        have hsame : index = other :=
          (getElem?_inj (by
            rw [length_map]
            exact (List.getElem?_eq_some_iff.mp hbefore).1) h.keys).mp
            (by rw [hkeys, getElem?_map, hother, hkey]; rfl)
        subst hsame
        rw [hbefore] at hother
        cases hother
        exact hhealthy
    · intro hhealthy
      rw [round_nodes] at hafter
      refine hleft ?_
      rw [wanted_eq, hcurrent, hauto, keptBackup_of_healthy h.keys hkeys (by simp [hafter, hhealthy]) hpos]
      rfl

theorem placed_spawn {params : XrayFailoverParams} (hkeys : params.nodes.Nodup)
    (balancer : BalancerTarget) (probePortOf : Nat → Nat) (selected : String) :
    (spawn params balancer probePortOf selected).Placed := by
  refine ⟨?_, fun _ h => nomatch h⟩
  have hspawn : ((spawn params balancer probePortOf selected).run []).nodes.map TrackedNode.key =
      params.nodes := run_keys []
  rw [run, foldl_nil] at hspawn
  rwa [hspawn]

/-! ### The balancer and the worker -/

/-- The balancer selects the tag, and the status shows its candidate. -/
structure Agrees (tag : String) (w : FailoverWorker) : Prop where
  selected : w.selected = tag
  shown : w.status.activeKey = (stripPrefix w.balancer.kind.tagStart tag).getD tag

instance (tag : String) (w : FailoverWorker) : Decidable (w.Agrees tag) :=
  decidable_of_iff
    (w.selected = tag ∧ w.status.activeKey = (stripPrefix w.balancer.kind.tagStart tag).getD tag)
    ⟨fun h => ⟨h.1, h.2⟩, fun h => ⟨h.selected, h.shown⟩⟩

/-- Unless a command of the round fails, the balancer selects what the round wants. -/
def EndsAgreeing (w : FailoverWorker) (round : ProbeRound) : Prop :=
  w.fails round = false → (w.round round).Agrees (w.wanted round)

instance (w : FailoverWorker) (round : ProbeRound) : Decidable (w.EndsAgreeing round) :=
  inferInstanceAs (Decidable (_ → _))

/-- The round does not go back to the acknowledged tag behind an unacknowledged command. -/
def NoFallback (w : FailoverWorker) (round : ProbeRound) : Prop :=
  w.unacknowledged = true → w.applied ≠ some (w.wanted round)

/-- The balancer selects the acknowledged tag, except behind an unacknowledged command. -/
structure Acknowledged (w : FailoverWorker) : Prop where
  agreed : w.unacknowledged = false → ∀ tag, w.applied = some tag → w.selected = tag
  behind : w.unacknowledged = true → w.applied ≠ some w.selected

theorem acknowledged_round (h : w.Acknowledged) : (w.round round).Acknowledged := by
  unfold FailoverWorker.round publish
  cases hcalls : w.calls round with
  | false => exact ⟨h.agreed, h.behind⟩
  | true =>
    cases hend : round.override with
    | applied => exact ⟨fun _ _ htag => Option.some.inj htag, fun hun => (nomatch hun)⟩
    | refused => exact ⟨h.agreed, h.behind⟩
    | unacknowledged =>
      -- The command was given because its tag was not the acknowledged one.
      have hne : w.applied ≠ some (w.wanted round) := by simpa [calls] using hcalls
      exact ⟨fun hun => (nomatch hun), fun _ => hne⟩

theorem shown_of_applied (h : (w.round round).applied = some tag) :
    (w.round round).status.activeKey = (stripPrefix w.balancer.kind.tagStart tag).getD tag := by
  have hstatus : (w.round round).status = (w.round round).report := by
    unfold FailoverWorker.round publish
    split <;> rfl
  rw [hstatus, report, h, round_balancer]
  rfl

/-- In one round, the two conditions are the same. -/
theorem endsAgreeing_iff (h : w.Acknowledged) : w.EndsAgreeing round ↔ w.NoFallback round := by
  cases hcalls : w.calls round with
  | true =>
    have hne : w.applied ≠ some (w.wanted round) := by simpa [calls] using hcalls
    refine iff_of_true ?_ fun _ => hne
    intro hok
    have hend : round.override = .applied := by simpa [fails, hcalls] using hok
    refine ⟨?_, by simpa using shown_of_applied (applied_round hok)⟩
    simp [FailoverWorker.round, hcalls, publish, hend, apiOverride]
  | false =>
    have happlied : w.applied = some (w.wanted round) := by simpa [calls] using hcalls
    have hok : w.fails round = false := by simp [fails, hcalls]
    have hselected : (w.round round).selected = w.selected := by
      simp [FailoverWorker.round, hcalls, publish]
    constructor
    · intro hends hun _
      refine h.behind hun ?_
      rw [happlied, ← (hends hok).selected, hselected]
    · intro hfall _
      have hack : w.unacknowledged = false := by
        cases hun : w.unacknowledged with
        | false => rfl
        | true => exact absurd happlied (hfall hun)
      refine ⟨?_, by simpa using shown_of_applied (applied_round hok)⟩
      rw [hselected, h.agreed hack _ happlied]

end FailoverWorker

open FailoverWorker

/-- In a run in which no two candidates share a key and every command succeeds, every round
follows the verdicts, and the verdicts follow the samples. -/
theorem selection_follows {params : XrayFailoverParams} (hkeys : params.nodes.Nodup)
    (balancer : BalancerTarget) (probePortOf : Nat → Nat) (selected : String)
    (rounds : List ProbeRound)
    (hok : AllAdmitted FailoverWorker.step (fun w round => w.fails round = false)
      (spawn params balancer probePortOf selected) rounds) :
    AllAdmitted FailoverWorker.step (fun w round => FollowsVerdicts w (w.round round))
      (spawn params balancer probePortOf selected) rounds ∧
    ∀ (index : Nat) (node : TrackedNode),
      ((spawn params balancer probePortOf selected).run rounds).nodes[index]? = some node →
      node.committed = smoothed (samplesOf index rounds) := by
  constructor
  · refine hok.imp (placed_spawn hkeys balancer probePortOf selected) ?_
    intro w round hplaced hround
    refine ⟨hplaced.follows hround, ?_⟩
    intro w' hstep
    cases hstep
    exact hplaced.after_round hround
  · exact fun index node hnode => (smoothed_run rounds index node hnode).committed

/-- In a run, every round without a failed command ends with the balancer on the tag that the
worker wants and shows, exactly when no round falls back. -/
theorem failover_agrees_iff (params : XrayFailoverParams) (balancer : BalancerTarget)
    (probePortOf : Nat → Nat) (selected : String) (rounds : List ProbeRound) :
    AllAdmitted FailoverWorker.step EndsAgreeing (spawn params balancer probePortOf selected)
        rounds ↔
      AllAdmitted FailoverWorker.step NoFallback (spawn params balancer probePortOf selected)
        rounds := by
  have hstart : (spawn params balancer probePortOf selected).Acknowledged :=
    ⟨fun _ _ h => (nomatch h), fun h => (nomatch h)⟩
  refine allAdmitted_iff hstart ?_ (fun _ _ h => endsAgreeing_iff h) rounds
  intro w round w' hack hstep
  cases hstep
  exact acknowledged_round hack

/-! ### Two nodes in a port -/

def pierParams : XrayFailoverParams where
  primaryKey := "aaaaaaaabbbbbbbb"
  nodes := ["aaaaaaaabbbbbbbb", "ccccccccdddddddd"]
  autoReturnPrimary := true

def pierWorker : FailoverWorker :=
  spawn pierParams ⟨"failover", .node⟩ (fun index => 20000 + index) unavailableTag

/-- The backup is healthy all the time, the primary as told. -/
def pierRound (primary : Bool) (ending : OverrideEnd) : ProbeRound where
  samples index := (0, ⟨if index = 0 then primary else true, none⟩)
  override := ending

/-- The primary fails, the move to the backup is unacknowledged and repeated in vain, and the
primary comes back. -/
def pierRounds : List ProbeRound :=
  [pierRound true .applied, pierRound false .applied, pierRound false .unacknowledged,
    pierRound true .refused, pierRound true .applied]

/-- No command of the last round fails, and the balancer is on the backup. -/
theorem pier_stays_on_the_backup :
    ¬AllAdmitted FailoverWorker.step EndsAgreeing pierWorker pierRounds := by
  decide

/-- The same pier without an automatic return to the primary. -/
def stayingWorker : FailoverWorker :=
  spawn { pierParams with autoReturnPrimary := false } ⟨"failover", .node⟩ (fun index => 20000 + index)
    unavailableTag

/-- The primary fails and comes back. -/
def pierOutage : List ProbeRound :=
  [pierRound true .applied, pierRound false .applied, pierRound false .applied,
    pierRound true .applied, pierRound true .applied]

/-- With the commands acknowledged, the selection follows the verdicts, whether the worker returns
to the primary or stays on the backup. -/
theorem pier_follows :
    (AllAdmitted FailoverWorker.step (fun w round => FollowsVerdicts w (w.round round)) pierWorker
        pierOutage ∧
      AllAdmitted FailoverWorker.step (fun w round => FollowsVerdicts w (w.round round))
        stayingWorker pierOutage) ∧
    (pierWorker.run pierOutage).selected ≠ (stayingWorker.run pierOutage).selected :=
  ⟨⟨(selection_follows (by decide) _ _ _ _ (by decide)).1,
    (selection_follows (by decide) _ _ _ _ (by decide)).1⟩, by decide⟩

end NetOrchestrator.Daemon
