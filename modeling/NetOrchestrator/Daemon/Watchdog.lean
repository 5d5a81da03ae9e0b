import NetOrchestrator.Daemon.Core

/-!
# `Daemon.Watchdog`: recovery requests of the watchdog

A worker thread samples the underlay, probes the tunnel and asks the core for a recovery. The
two sides share a slot for one request and the time of the last recovery, behind a lock. The
worker's part is a `RecoveryState`; the core takes the request and reports recoveries.

Each step of a `WatchdogSystem` is one critical section or one piece of the worker's loop that
touches nothing shared, and reads the clock once. The loop fixes the order of the worker's steps;
here they come in any order, so that every order of the loop is among them.

The ghosts `issued`, `taken`, `changes` and `recoveries` record what has happened: the requests
with their times, those that the core took, the changes of the underlay and the recoveries.
-/

namespace NetOrchestrator.Daemon

/-- Times are nanoseconds on a monotone clock. -/
def seconds (n : Nat) : Nat := n * 1000000000

def settleDelay : Nat := seconds 12
def stallCooldown : Nat := seconds 600
def egressCooldown : Nat := seconds 60
def stallLimit : Nat := 3
def udpLimit : Nat := 2000

inductive RecoveryReason where
  | egress
  | httpsStall
  | udpLeak
  deriving DecidableEq

def RecoveryReason.isStall : RecoveryReason → Bool
  | .egress => false
  | .httpsStall | .udpLeak => true

inductive ProbeOutcome where
  | skipped
  | healthy (latency : Nat)
  | stalled
  deriving DecidableEq

def ProbeOutcome.isHealthy : ProbeOutcome → Bool
  | .healthy _ => true
  | .skipped | .stalled => false

inductive EgressEvent where
  | stable
  | changed
  | flap
  | lost
  | online
  deriving DecidableEq

structure ConnStorm where
  destination : String
  process : Option String
  count : Nat
  deriving DecidableEq

structure SocketReport where
  udpSockets : Nat
  storm : Option ConnStorm
  deriving DecidableEq

structure WatchdogStatus where
  uplink : Option Bool := none
  egressSignature : Option String := none
  lastEgressChangeUnix : Option Nat := none
  httpsStallStreak : Nat := 0
  httpsLatencyMs : Option Nat := none
  dnsStallStreak : Nat := 0
  xrayUdpSockets : Nat := 0
  connStorm : Option ConnStorm := none
  lastRecoveryUnix : Option Nat := none
  anomalies : List String := []
  deriving DecidableEq

/-- `u32::saturating_add(1)`. -/
def nextStreak (streak : Nat) : Nat := min (streak + 1) (2 ^ 32 - 1)

/-! ### The worker's state -/

structure RecoveryState where
  status : WatchdogStatus
  probeAfter : Nat
  pendingEgress : Bool
  pendingStall : Option RecoveryReason
  lastEgressAttempt : Option Nat
  lastEgressChange : Option Nat
  lastStallAttempt : Option Nat
  stallBeforeRequest : Option Nat
  resourcesUnavailable : Bool
  deriving DecidableEq

namespace RecoveryState

def new (now : Nat) : RecoveryState :=
  { status := {}, probeAfter := now + settleDelay, pendingEgress := false, pendingStall := none,
    lastEgressAttempt := none, lastEgressChange := none, lastStallAttempt := none,
    stallBeforeRequest := none, resourcesUnavailable := false }

/-- A sample of the underlay, with the fingerprint of its signature. -/
def egress (event : EgressEvent) (signature : Option String) (now : Nat) (unix : Nat)
    (st : RecoveryState) : RecoveryState :=
  let st := { st with
    status := { st.status with uplink := some signature.isSome, egressSignature := signature } }
  if event = .changed ∨ event = .flap then
    { st with
      pendingEgress := true
      lastEgressChange := some now
      probeAfter := now + settleDelay
      status := { st.status with
        lastEgressChangeUnix := some unix, httpsStallStreak := 0, dnsStallStreak := 0,
        httpsLatencyMs := none } }
  else st

def observeHttps (https : ProbeOutcome) (nodeReachable : Bool) (st : RecoveryState) :
    RecoveryState :=
  match https with
  | .healthy latency =>
    { st with
      status := { st.status with httpsStallStreak := 0, httpsLatencyMs := some latency } }
  | .stalled =>
    let streak := nextStreak st.status.httpsStallStreak
    { st with
      status := { st.status with httpsStallStreak := streak, httpsLatencyMs := none }
      pendingStall :=
        if stallLimit ≤ streak ∧ nodeReachable = true then some .httpsStall
        else st.pendingStall }
  | .skipped => st

def observeDns (dns : ProbeOutcome) (st : RecoveryState) : RecoveryState :=
  match dns with
  | .healthy _ => { st with status := { st.status with dnsStallStreak := 0 } }
  | .stalled =>
    { st with status := { st.status with dnsStallStreak := nextStreak st.status.dnsStallStreak } }
  | .skipped => st

def observeResources (resources : Option SocketReport) (st : RecoveryState) : RecoveryState :=
  match resources with
  | none => { st with resourcesUnavailable := true }
  | some report =>
    { st with
      resourcesUnavailable := false
      status := { st.status with xrayUdpSockets := report.udpSockets, connStorm := report.storm }
      pendingStall :=
        if udpLimit < report.udpSockets then some .udpLeak else st.pendingStall }

/-- The results of a round of probes. -/
def observe (https dns : ProbeOutcome) (nodeReachable : Bool) (resources : Option SocketReport)
    (st : RecoveryState) : RecoveryState :=
  (({ st with pendingStall := none }.observeHttps https nodeReachable).observeDns
    dns).observeResources resources

/-- Whether a cooldown that started at `last` is over. -/
def cooledDown (cooldown : Nat) (last : Option Nat) (now : Nat) : Bool :=
  last.all fun last => cooldown ≤ now - last

/-- The request to make now. -/
def recovery (now : Nat) (st : RecoveryState) : RecoveryState × Option RecoveryReason :=
  if st.status.uplink ≠ some true then (st, none)
  else if st.pendingEgress && cooledDown egressCooldown st.lastEgressAttempt now then
    ({ st with pendingEgress := false, lastEgressAttempt := some now }, some .egress)
  else if st.pendingStall.isSome && cooledDown stallCooldown st.lastStallAttempt now then
    ({ st with
      stallBeforeRequest := st.lastStallAttempt
      lastStallAttempt := some now
      pendingStall := none }, st.pendingStall)
  else (st, none)

/-- A recovery at a time. A change that was observed later still needs one. -/
def acknowledge (time : Nat) (st : RecoveryState) : RecoveryState :=
  { st with
    pendingEgress := if st.lastEgressChange.all (· ≤ time) then false else st.pendingEgress
    pendingStall := none
    lastEgressAttempt := some time
    stallBeforeRequest := none
    probeAfter := time + settleDelay
    status := { st.status with httpsStallStreak := 0, dnsStallStreak := 0, httpsLatencyMs := none } }

/-- Whether the last round shows that a request is not needed any more. -/
def cleared (reason : RecoveryReason) (https : ProbeOutcome) (udpSockets : Option Nat) : Bool :=
  match reason with
  | .httpsStall => https.isHealthy
  | .udpLeak => udpSockets.any (· ≤ udpLimit)
  | .egress => false

def cancelClearedRequest (reason : RecoveryReason) (https : ProbeOutcome)
    (udpSockets : Option Nat) (st : RecoveryState) : RecoveryState × Bool :=
  if cleared reason https udpSockets then
    ({ st with lastStallAttempt := st.stallBeforeRequest, stallBeforeRequest := none }, true)
  else (st, false)

def refreshAnomalies (st : RecoveryState) : RecoveryState :=
  { st with status := { st.status with
      anomalies :=
        (if st.status.uplink = some false then ["uplink-offline"] else []) ++
        (if st.status.uplink = none then ["egress-observation-unavailable"] else []) ++
        (if stallLimit ≤ st.status.httpsStallStreak then ["https-stalled"] else []) ++
        (if stallLimit ≤ st.status.dnsStallStreak then ["dns-stalled"] else []) ++
        (if udpLimit < st.status.xrayUdpSockets then ["udp-socket-limit"] else []) ++
        (if st.status.connStorm.isSome then ["connection-storm"] else []) ++
        if st.resourcesUnavailable then ["socket-observation-unavailable"] else [] } }

end RecoveryState

/-! ### Both sides -/

structure WatchdogShared where
  status : WatchdogStatus
  observedAt : Option Nat
  request : Option RecoveryReason
  recoveredAt : Option Nat
  deriving DecidableEq

/-- A request that was made, and whether it was cancelled. -/
structure IssuedRequest where
  reason : RecoveryReason
  time : Nat
  cancelled : Bool
  deriving DecidableEq

structure WatchdogSystem where
  clock : Nat
  state : RecoveryState
  acknowledged : Option Nat
  authorized : Bool
  shared : WatchdogShared
  /-- What the core last found `online` to be. -/
  seenOnline : Bool
  issued : List IssuedRequest
  taken : List IssuedRequest
  changes : List Nat
  recoveries : List Nat
  deriving DecidableEq

inductive WatchdogStep where
  | tick (elapsed : Nat)
  | syncRecovery
  | egress (event : EgressEvent) (signature : Option String) (unix : Nat)
  | egressFailed
  | authorize (up : Bool)
  | markObserved
  | observe (https dns : ProbeOutcome) (nodeReachable : Bool) (resources : Option SocketReport)
  | cancel (https : ProbeOutcome) (udpSockets : Option Nat)
  | publish
  | askOnline
  | takeRequest
  | recovered (unix : Nat)
  deriving DecidableEq

namespace WatchdogSystem

def initial (now : Nat) : WatchdogSystem :=
  { clock := now, state := .new now, acknowledged := none, authorized := false
    shared := { status := {}, observedAt := none, request := none, recoveredAt := none }
    seenOnline := false
    issued := [], taken := [], changes := [], recoveries := [] }

variable (s : WatchdogSystem)

/-- `sync_recovery`: a recovery that the worker does not know yet. -/
def syncRecovery : WatchdogSystem :=
  if s.shared.recoveredAt = s.acknowledged then s
  else
    { s with
      state :=
        match s.shared.recoveredAt with
        | some time => s.state.acknowledge time
        | none => s.state
      acknowledged := s.shared.recoveredAt }

/-- The worker samples the underlay. -/
def egress (event : EgressEvent) (signature : Option String) (unix : Nat) (s : WatchdogSystem) :
    WatchdogSystem :=
  { s with
    state := s.state.egress event signature s.clock unix
    changes := if event = .changed ∨ event = .flap then s.clock :: s.changes else s.changes }

/-- The sample failed. -/
def egressFailed : WatchdogSystem :=
  { s with state := { s.state with status := { s.state.status with uplink := none } } }

/-- The last request is cancelled. -/
def markCancelled (issued : List IssuedRequest) : List IssuedRequest :=
  match issued with
  | [] => []
  | last :: rest => { last with cancelled := true } :: rest

/-- The worker looks at the request that is still in the slot. -/
def cancel (https : ProbeOutcome) (udpSockets : Option Nat) (s : WatchdogSystem) : WatchdogSystem :=
  match s.shared.request with
  | none => s
  | some reason =>
    match s.state.cancelClearedRequest reason https udpSockets with
    | (state, true) =>
      { s with
        state
        shared := { s.shared with request := none }
        issued := markCancelled s.issued }
    | (state, false) => { s with state }

/-- The worker publishes its status, and a request where the slot is free. -/
def publish : WatchdogSystem :=
  let state := s.state.refreshAnomalies
  if s.shared.recoveredAt ≠ s.acknowledged then { s with state }
  else
    let state := { state with
      status := { state.status with lastRecoveryUnix := s.shared.status.lastRecoveryUnix } }
    let shared := { s.shared with status := state.status }
    if shared.request.isNone && s.authorized then
      let (state, request) := state.recovery s.clock
      { s with
        state
        shared := { shared with request }
        issued := (request.toList.map fun reason => ⟨reason, s.clock, false⟩) ++ s.issued }
    else { s with state, shared }

/-- `online`. -/
def online : Bool :=
  s.authorized && s.shared.status.uplink == some true &&
    s.shared.observedAt.any fun time => s.clock - time < seconds 30

/-- The second half of `take_request`. The last request made is the one in the slot. -/
def takeRequest : WatchdogSystem :=
  if !s.seenOnline then s
  else
    { s with
      shared := { s.shared with request := none }
      taken := (if s.shared.request.isSome then s.issued.head?.toList else []) ++ s.taken }

/-- `recovered`. -/
def recovered (unix : Nat) (s : WatchdogSystem) : WatchdogSystem :=
  { s with
    shared := { s.shared with
      status := { s.shared.status with lastRecoveryUnix := some unix }
      recoveredAt := some s.clock
      request := none }
    recoveries := s.clock :: s.recoveries }

def step : WatchdogStep → WatchdogSystem
  | .tick elapsed => { s with clock := s.clock + elapsed }
  | .syncRecovery => s.syncRecovery
  | .egress event signature unix => s.egress event signature unix
  | .egressFailed => s.egressFailed
  | .authorize up => { s with authorized := up }
  | .markObserved => { s with shared := { s.shared with observedAt := some s.clock } }
  | .observe https dns nodeReachable resources =>
    { s with state := s.state.observe https dns nodeReachable resources }
  | .cancel https udpSockets => s.cancel https udpSockets
  | .publish => s.publish
  | .askOnline => { s with seenOnline := s.online }
  | .takeRequest => s.takeRequest
  | .recovered unix => s.recovered unix

/-- The state after some steps. -/
def run (steps : List WatchdogStep) : WatchdogSystem := steps.foldl step s

end WatchdogSystem

end NetOrchestrator.Daemon
