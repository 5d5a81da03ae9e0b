import NetOrchestrator.Daemon.AlwaysOn

/-!
# `Daemon.ClientSessions`: sessions of client processes

The daemon keeps a handle of every client process that connects. When the last process of a
user has been dead for a grace period, a watch loop tears down what the user owns, except the
owners that an always-on document keeps up.

A process has a pid, which another process may get after its exit, and a handle, which is its
own: here its place in the list of all processes. `ClientTracker` is keyed by uid and lists
pids with their handles. `SessionWorld.registered` is a ghost: the handles that were ever
passed to `track`.
-/

namespace NetOrchestrator.Daemon

open Net Lib

/-! ### Session cleanup -/

/-- The owners that a session cleanup takes down. -/
def sessionOwner (uid : Nat) (keep : List (Nat × String)) (entry : JournalEntry) : Bool :=
  entry.uid == uid && !keep.contains (uid, entry.owner.render) &&
    match entry.owner with
    | .cond _ | .intent _ | .manual => false
    | _ => true

/-- `cleanup_session_uid`. -/
def cleanupSessionUid (uid : Nat) (keep : List (Nat × String)) : Prog CleanupResult :=
  teardownWhere (sessionOwner uid keep)

/-- The loop over the reported uids. A failed cleanup is logged. -/
def cleanupSessions (keep : List (Nat × String)) (uids : List Nat) : Prog Unit :=
  Call.forEach (fun uid => Call.discard (Call.attempt (cleanupSessionUid uid keep))) uids

/-- The owners to keep. Without an answer from the store it is the empty set. -/
def keptOwners (reads : StoreReads) (documents : AlwaysOnDocuments) : List (Nat × String) :=
  match replayableOwners reads documents with
  | .ok owners => owners
  | .error _ => []

/-! ### The tracker -/

structure TrackedClient where
  pidfds : List (Nat × Nat)
  deadSince : Option Nat
  deriving DecidableEq

abbrev ClientTracker := List (Nat × TrackedClient)

/-- Register a handle unless its pid is listed, and disarm the grace period. -/
def TrackedClient.register (pid handle : Nat) (entry : TrackedClient) : TrackedClient :=
  { pidfds :=
      if entry.pidfds.any fun listed => listed.1 == pid then entry.pidfds
      else entry.pidfds ++ [(pid, handle)]
    deadSince := none }

/-- `track`. -/
def ClientTracker.track (uid pid handle : Nat) (tracker : ClientTracker) : ClientTracker :=
  if tracker.any fun client => client.1 == uid then
    tracker.map fun client =>
      if client.1 = uid then (client.1, client.2.register pid handle) else client
  else tracker ++ [(uid, TrackedClient.register pid handle ⟨[], none⟩)]

/-- What `expired` makes of one client: drop the handles of the dead, then arm the grace period
if none is left. `none` when it has run out. -/
def TrackedClient.reap (alive : Nat → Bool) (now grace : Nat) (entry : TrackedClient) :
    Option TrackedClient :=
  let pidfds := entry.pidfds.filter fun listed => alive listed.2
  if pidfds.isEmpty then
    let since := entry.deadSince.getD now
    if grace ≤ now - since then none else some ⟨pidfds, some since⟩
  else some ⟨pidfds, entry.deadSince⟩

/-- `expired`: the uids whose grace period has run out, each reported once. -/
def ClientTracker.expired (alive : Nat → Bool) (now grace : Nat) (tracker : ClientTracker) :
    List Nat × ClientTracker :=
  ((tracker.filter fun client => (client.2.reap alive now grace).isNone).map Prod.fst,
    tracker.filterMap fun client =>
      (client.2.reap alive now grace).map fun entry => (client.1, entry))

/-! ### The world of a session -/

structure Process where
  pid : Nat
  uid : Nat
  started : Nat
  exited : Option Nat
  deriving DecidableEq

/-- The process was alive at some instant from `a` to `b`. -/
def Process.AliveDuring (p : Process) (a b : Nat) : Prop :=
  ∃ x, a ≤ x ∧ x ≤ b ∧ p.started ≤ x ∧ ∀ e, p.exited = some e → x < e

structure SessionWorld where
  now : Nat
  processes : List Process
  registered : List Nat
  tracker : ClientTracker
  reported : List Nat
  core : DaemonCore
  documents : AlwaysOnDocuments

namespace SessionWorld

/-- `pidfd_alive`. -/
def alive (w : SessionWorld) (handle : Nat) : Bool :=
  (w.processes[handle]?).any fun p => p.exited.isNone

/-- A daemon that has just started, with no client. -/
def fresh (now : Nat) (core : DaemonCore) (documents : AlwaysOnDocuments) : SessionWorld :=
  { now, processes := [], registered := [], tracker := [], reported := [], core, documents }

end SessionWorld

/-- What may happen next. `serve` is anything that other requests do to the core and to the
documents. -/
inductive SessionAction where
  | advance (duration : Nat)
  | spawn (pid uid : Nat)
  | exit (handle : Nat)
  | track (handle : Nat)
  | expired
  | cleanup (reads : StoreReads) (schedule : List (Verdict Fault))
  | serve (core : DaemonCore) (documents : AlwaysOnDocuments)

/-- The cleanup step of `watch_client_sessions`. -/
def SessionWorld.cleanup (reads : StoreReads) (schedule : List (Verdict Fault))
    (w : SessionWorld) : SessionWorld :=
  { w with
    reported := []
    core := (cleanupSessions (keptOwners reads w.documents) w.reported w.core schedule).2.1 }

/-- One atomic step. The watch loop asks for the expired uids only when it has cleaned up after
those of the round before. -/
def SessionWorld.step (grace : Nat) (w : SessionWorld) : SessionAction → Option SessionWorld
  | .advance duration => some { w with now := w.now + duration }
  | .spawn pid uid =>
    if w.processes.any fun p => p.pid == pid && p.exited.isNone then none
    else some { w with processes := w.processes ++ [⟨pid, uid, w.now, none⟩] }
  | .exit handle =>
    if w.alive handle then
      some { w with
        processes := w.processes.modify handle fun p => { p with exited := some w.now } }
    else none
  | .track handle =>
    (w.processes[handle]?).map fun p =>
      { w with
        registered := handle :: w.registered
        tracker := w.tracker.track p.uid p.pid handle }
  | .expired =>
    if w.reported.isEmpty then
      let (fired, tracker) := w.tracker.expired w.alive w.now grace
      some { w with reported := fired, tracker }
    else none
  | .cleanup reads schedule =>
    if w.reported.isEmpty then none else some (w.cleanup reads schedule)
  | .serve core documents => some { w with core, documents }

end NetOrchestrator.Daemon
