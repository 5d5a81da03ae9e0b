import NetOrchestrator.Daemon.WireGuardConfig

/-!
# `Daemon.Failover`: the supervisor of a balancer

A worker thread probes every candidate in rounds, smooths each candidate's samples to a verdict
and points the balancer at the first healthy candidate with an `xray api bo` command. It only
knows which command it last saw succeed.

A round takes a time and a sample for each candidate and the end of its command, should it give
one. A command that fails may still have taken effect: it was killed after Xray had read it.
`FailoverWorker.selected` is what the balancer really selects. `unacknowledged` is a ghost: a
command took effect and failed, and none has succeeded since. A stop ends the run, between two
rounds as far as the balancer can tell.
-/

namespace NetOrchestrator.Daemon

/-! ### Strings -/

/-- `str::strip_prefix`. -/
def stripPrefix (start s : String) : Option String :=
  if start.toList.isPrefixOf s.toList then some (String.ofList (s.toList.drop start.length))
  else none

@[simp]
theorem stripPrefix_append (start rest : String) : stripPrefix start (start ++ rest) = some rest := by
  have hstart : start.toList.isPrefixOf (start ++ rest).toList = true := by simp
  rw [stripPrefix, if_pos hstart, String.toList_append, ← String.length_toList, List.drop_left,
    String.ofList_toList]

theorem stripPrefix_eq_some {start s rest : String} (h : stripPrefix start s = some rest) :
    s = start ++ rest := by
  unfold stripPrefix at h
  split at h
  · rename_i hstart
    obtain ⟨tail, htail⟩ := List.isPrefixOf_iff_prefix.mp hstart
    have hdrop : s.toList.drop start.length = tail := by
      rw [← htail, ← String.length_toList, List.drop_left]
    rw [hdrop] at h
    cases h
    rw [← String.ofList_toList (s := s), ← htail]
    simp
  · cases h

/-! ### Candidates -/

structure ProbeSample where
  healthy : Bool
  latencyMs : Option Nat
  deriving DecidableEq

structure TrackedNode where
  key : String
  probePort : Nat
  /-- The last verdict after smoothing, `none` before the first probe. -/
  committed : Option Bool
  /-- Signed streak toward the opposite verdict. -/
  streak : Int
  lastProbeUnix : Option Nat
  latencyMs : Option Nat
  deriving DecidableEq

structure NodeHealth where
  key : String
  healthy : Option Bool
  lastProbeUnix : Option Nat
  latencyMs : Option Nat
  deriving DecidableEq

def streakRequired : Nat := 2

/-- `observe`, at the time `now`. -/
def TrackedNode.observe (now : Nat) (sample : ProbeSample) (node : TrackedNode) : TrackedNode :=
  let node := { node with lastProbeUnix := some now, latencyMs := sample.latencyMs }
  match node.committed with
  | none => { node with committed := some sample.healthy }
  | some committed =>
    if committed = sample.healthy then { node with streak := 0 }
    else
      let streak := node.streak + if sample.healthy then 1 else -1
      if streakRequired ≤ streak.natAbs then
        { node with committed := some sample.healthy, streak := 0 }
      else { node with streak }

def TrackedNode.health (node : TrackedNode) : NodeHealth :=
  { key := node.key
    healthy := node.committed
    lastProbeUnix := node.lastProbeUnix
    latencyMs := node.latencyMs }

/-! ### The selection -/

inductive OutboundKind where
  | node
  | pin
  deriving DecidableEq

/-- `OutboundKind::prefix`. -/
def OutboundKind.tagStart : OutboundKind → String
  | .node => "node-"
  | .pin => "pin-"

def OutboundKind.tag (kind : OutboundKind) (key : String) : String := kind.tagStart ++ key

structure BalancerTarget where
  tag : String
  kind : OutboundKind
  deriving DecidableEq

def unavailableTag : String := "unavailable"

/-- A selected backup that is still healthy, while the primary does not win back on its own. -/
def keptBackup (candidates : List String) (healthy : List (Option Bool)) (current : Option String)
    (autoReturn : Bool) (kind : OutboundKind) : Option String :=
  if autoReturn then none
  else do
    let tag ← current
    let index ← candidates.findIdx? fun key => stripPrefix kind.tagStart tag == some key
    if healthy[index]? = some (some true) ∧ 0 < index then some tag else none

/-- The tag of the first healthy candidate. -/
def firstHealthy (candidates : List String) (healthy : List (Option Bool)) (kind : OutboundKind) :
    Option String :=
  ((candidates.zip healthy).find? fun candidate => candidate.2 == some true).map
    fun candidate => kind.tag candidate.1

def selectTag (candidates : List String) (healthy : List (Option Bool)) (current : Option String)
    (autoReturn : Bool) (kind : OutboundKind) : String :=
  match keptBackup candidates healthy current autoReturn kind with
  | some tag => tag
  | none => (firstHealthy candidates healthy kind).getD unavailableTag

/-! ### The worker -/

/-- What the worker uses of its parameters. -/
structure XrayFailoverParams where
  primaryKey : String
  nodes : List String
  autoReturnPrimary : Bool
  deriving DecidableEq

structure FailoverStatus where
  primaryKey : String
  activeKey : String
  autoReturnPrimary : Bool
  failoverActive : Bool
  nodes : List NodeHealth
  deriving DecidableEq

structure FailoverWorker where
  params : XrayFailoverParams
  balancer : BalancerTarget
  nodes : List TrackedNode
  /-- The tag of the last command that succeeded. -/
  applied : Option String
  /-- What the daemon shows. -/
  status : FailoverStatus
  /-- The tag that the balancer selects. -/
  selected : String
  unacknowledged : Bool
  deriving DecidableEq

/-- How an `xray api bo` command ends. -/
inductive OverrideEnd where
  | applied
  | refused
  /-- It took effect and was reported as failed. -/
  | unacknowledged
  deriving DecidableEq

/-- What a round meets: the time and the sample of each candidate's probe, and the end of the
command. -/
structure ProbeRound where
  samples : Nat → Nat × ProbeSample
  override : OverrideEnd

namespace FailoverWorker

/-- `FailoverSupervisor::spawn`, for a balancer that selects `selected`. -/
def spawn (params : XrayFailoverParams) (balancer : BalancerTarget) (probePortOf : Nat → Nat)
    (selected : String) : FailoverWorker :=
  let nodes := params.nodes.mapIdx fun index key =>
    { key, probePort := probePortOf index, committed := none, streak := 0, lastProbeUnix := none
      latencyMs := none : TrackedNode }
  { params
    balancer
    nodes
    applied := none
    status :=
      { primaryKey := params.primaryKey
        activeKey := unavailableTag
        autoReturnPrimary := params.autoReturnPrimary
        failoverActive := false
        nodes := nodes.map TrackedNode.health }
    selected
    unacknowledged := false }

variable (w : FailoverWorker)

/-- The probes of a round. -/
def probed (round : ProbeRound) : List TrackedNode :=
  w.nodes.mapIdx fun index node =>
    node.observe (round.samples index).1 (round.samples index).2

/-- The tag that the round wants. -/
def wanted (round : ProbeRound) : String :=
  selectTag (w.nodes.map TrackedNode.key) ((w.probed round).map TrackedNode.committed) w.applied
    w.params.autoReturnPrimary w.balancer.kind

/-- Whether the round gives a command. -/
def calls (round : ProbeRound) : Bool := w.applied != some (w.wanted round)

/-- `api_override`. -/
def apiOverride (tag : String) (ending : OverrideEnd) (w : FailoverWorker) : FailoverWorker :=
  match ending with
  | .applied => { w with applied := some tag, selected := tag, unacknowledged := false }
  | .refused => w
  | .unacknowledged => { w with selected := tag, unacknowledged := true }

/-- The status that a round publishes. -/
def report : FailoverStatus :=
  { primaryKey := w.params.primaryKey
    activeKey :=
      (w.applied.map fun tag => (stripPrefix w.balancer.kind.tagStart tag).getD tag).getD
        unavailableTag
    autoReturnPrimary := w.params.autoReturnPrimary
    failoverActive :=
      w.applied.any fun tag =>
        tag != unavailableTag && tag != w.balancer.kind.tag w.params.primaryKey
    nodes := w.nodes.map TrackedNode.health }

def publish : FailoverWorker := { w with status := w.report }

/-- One round of `run`. -/
def round (w : FailoverWorker) (round : ProbeRound) : FailoverWorker :=
  let probed := { w with nodes := w.probed round }
  publish
    (if w.calls round then probed.apiOverride (w.wanted round) round.override else probed)

/-- Whether a command of the round fails. -/
def fails (round : ProbeRound) : Bool :=
  w.calls round && round.override != .applied

/-- The rounds of a run. -/
def run (rounds : List ProbeRound) : FailoverWorker :=
  rounds.foldl FailoverWorker.round w

/-- A round always comes to an end. -/
def step (round : ProbeRound) : Option FailoverWorker := some (w.round round)

end FailoverWorker

end NetOrchestrator.Daemon
