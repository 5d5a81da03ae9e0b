import NetOrchestrator.Daemon.AlwaysOn
import NetOrchestrator.Lib.Sorted

/-!
# `Daemon.AlwaysOnRequests`: the always-on requests, step by step

A request works on the store and on the core in turn, each under its own lock, and other
requests may run between two of its steps. `Stage` is what a request still has to do, one
constructor for each closure that runs under a lock. The background pass holds both locks, so
it is one step.

`AlwaysOnWorld.started` is a ghost: the definitions whose owner came into the journal through
`applyDefinition`, the latest one for each owner. `AlwaysOnWorld.failed` is another: whether
some request has met an error.
-/

namespace NetOrchestrator.Daemon

open Net Lib

/-! ### The store -/

/-- One document for each user, in the order of the uids. -/
abbrev AlwaysOnStore := Sorted AlwaysOnDocument

namespace AlwaysOnStore

/-- `load_uid`: a user without a file has the default document. -/
def loadUid (store : AlwaysOnStore) (uid : Nat) : AlwaysOnDocument := (store.get? uid).getD .blank

/-- A change of the document. The flag says whether there is anything to save. -/
def saveChanged (store : AlwaysOnStore) (uid : Nat) (change : Bool × AlwaysOnDocument) :
    AlwaysOnStore :=
  if change.1 then store.set uid change.2 else store

end AlwaysOnStore

/-! ### Requests -/

inductive AlwaysOnRequest where
  | set (definition : AlwaysOnDefinition)
  | remove (kind : AlwaysOnKind) (profileId : String)
  | resume
  | cleanup
  deriving DecidableEq

/-- The owner that `ALWAYS_ON_REMOVE` names. -/
def removedOwner (kind : AlwaysOnKind) (profileId : String) : String :=
  match kind with
  | .wireGuard => "wg:" ++ profileId
  | .staticRoutes => profileId

/-- What a request does next. -/
inductive Stage where
  | setStore (definition : AlwaysOnDefinition)
  | setApply (definition : AlwaysOnDefinition)
  | removeDisable (kind : AlwaysOnKind) (profileId : String)
  | removeStop (kind : AlwaysOnKind) (profileId : String)
  | removeForget (owner : String)
  | resumeStore
  | resumeApply (definitions : List AlwaysOnDefinition)
  | cleanupLook
  | cleanupPause
  | cleanupStop
  deriving DecidableEq

variable (lib : WireGuardCrates)

/-- The checks of the parameters, before anything else. -/
def AlwaysOnRequest.accept : AlwaysOnRequest → Except IoError Stage
  | .set definition => do
      validateDefinition lib definition
      pure (.setStore definition)
  | .remove kind profileId => do
      (validateOwner (removedOwner kind profileId)).mapError invalidInput
      pure (.removeDisable kind profileId)
  | .resume => pure .resumeStore
  | .cleanup => pure .cleanupLook

/-- The stages that wait for an authorization. -/
def Stage.authorizes : Stage → Bool
  | .setStore _ | .removeDisable _ _ | .resumeStore | .cleanupPause => true
  | _ => false

/-- The core closure of `ALWAYS_ON_REMOVE`: whether there was something to disconnect. -/
def stopOwner (uid : Nat) (kind : AlwaysOnKind) (profileId : String) : Prog Bool := do
  match ← ownedState uid (removedOwner kind profileId) with
  | none => pure false
  | some _ => do
      match kind with
      | .wireGuard => disconnectWireguard uid profileId
      | .staticRoutes => Call.discard (removeOwner uid (removedOwner kind profileId))
      pure true

/-! ### The world -/

/-- How a store closure fails: nothing is written, or the change is written and the read that
follows it fails. -/
inductive StoreFault where
  | write
  | reread
  deriving DecidableEq

structure AlwaysOnWorld where
  store : AlwaysOnStore
  core : DaemonCore
  threads : List Stage
  started : List AlwaysOnDefinition
  failed : Bool

/-- Whether an owner is in the journal, in any state. -/
def Journal.lists (j : Journal) (uid : Nat) (owner : String) : Bool :=
  (j.position uid (Owner.parse owner)).isSome

namespace AlwaysOnWorld

/-- A daemon on which no always-on request has run yet. -/
def fresh (store : AlwaysOnStore) (core : DaemonCore) : AlwaysOnWorld :=
  { store, core, threads := [], started := [], failed := false }

/-- The request is over. -/
def finish (i : Nat) (w : AlwaysOnWorld) : AlwaysOnWorld :=
  { w with threads := w.threads.eraseIdx i }

/-- The request is over, with an error. -/
def fail (i : Nat) (w : AlwaysOnWorld) : AlwaysOnWorld :=
  { w with threads := w.threads.eraseIdx i, failed := true }

def goto (i : Nat) (stage : Stage) (w : AlwaysOnWorld) : AlwaysOnWorld :=
  { w with threads := w.threads.set i stage }

def saveChanged (uid : Nat) (change : Bool × AlwaysOnDocument) (w : AlwaysOnWorld) :
    AlwaysOnWorld :=
  { w with store := w.store.saveChanged uid change }

/-- The definitions among these whose owner came into the journal. -/
def launched (uid : Nat) (before after : Journal) (definitions : List AlwaysOnDefinition) :
    List AlwaysOnDefinition :=
  definitions.filter fun definition =>
    !before.lists uid definition.owner && after.lists uid definition.owner

/-- The core after these definitions were applied. -/
def apply (uid : Nat) (core : DaemonCore) (definitions : List AlwaysOnDefinition)
    (w : AlwaysOnWorld) : AlwaysOnWorld :=
  let fresh := launched uid w.core.journal core.journal definitions
  let kept := w.started.filter fun definition =>
    !fresh.any fun other => Owner.parse other.owner == Owner.parse definition.owner
  { w with core, started := kept ++ fresh }

/-- The core after a closure that may fail. -/
def close {α : Type} (i : Nat) (result : Outcome IoError α × DaemonCore × List (Verdict Fault))
    (next : α → AlwaysOnWorld → AlwaysOnWorld) (w : AlwaysOnWorld) : Option AlwaysOnWorld :=
  match result with
  | (.ok a, core, _) => some (next a { w with core })
  | (.err _, core, _) => some (fail i { w with core })
  | (.crash, _, _) => none

variable (lib : WireGuardCrates)

/-- `apply_definition` as a request runs it: its error only shows in the reply. -/
def applyOne (uid : Nat) (definition : AlwaysOnDefinition)
    (schedule : List (Verdict Fault)) (w : AlwaysOnWorld) : Option AlwaysOnWorld :=
  match applyDefinition lib uid definition w.core schedule with
  | (.crash, _, _) => none
  | (_, core, _) => some (w.apply uid core [definition])

/-- A store closure that reads the document again after it has changed it. -/
def change (i uid : Nat) (fault : Option StoreFault) (edit : Bool × AlwaysOnDocument)
    (next : AlwaysOnWorld → AlwaysOnWorld) (w : AlwaysOnWorld) : AlwaysOnWorld :=
  match fault with
  | some .write => w.fail i
  | some .reread => (w.saveChanged uid edit).fail i
  | none => next (w.saveChanged uid edit)

/-- The next step of the request at `i`. A daemon that crashes takes no step. -/
def advance (uid i : Nat) (fault : Option StoreFault)
    (schedule : List (Verdict Fault)) (w : AlwaysOnWorld) : Stage → Option AlwaysOnWorld
  | .setStore definition =>
    match (w.store.loadUid uid).insert definition with
    | .error _ => some (w.fail i)
    | .ok edit =>
      some (w.change i uid fault edit fun w =>
        if edit.2.paused then w.finish i else w.goto i (.setApply definition))
  | .setApply definition => (w.applyOne lib uid definition schedule).map (finish i)
  | .removeDisable kind profileId =>
    let edit := (w.store.loadUid uid).disable (removedOwner kind profileId)
    if fault.isSome then some (w.fail i)
    else if edit.1 then some ((w.saveChanged uid edit).goto i (.removeStop kind profileId))
    else some (w.finish i)
  | .removeStop kind profileId =>
    w.close i (stopOwner uid kind profileId w.core schedule) fun _ w =>
      w.goto i (.removeForget (removedOwner kind profileId))
  | .removeForget owner =>
    if fault.isSome then some (w.fail i)
    else some ((w.saveChanged uid ((w.store.loadUid uid).remove owner)).finish i)
  | .resumeStore =>
    let document := (w.store.loadUid uid).resume
    some (w.change i uid fault (true, document) fun w =>
      w.goto i (.resumeApply
        ((document.entries.filter StoredEntry.enabled).map StoredEntry.definition)))
  | .resumeApply [] => some (w.finish i)
  | .resumeApply (definition :: rest) =>
    (w.applyOne lib uid definition schedule).map (goto i (.resumeApply rest))
  | .cleanupLook => if fault.isSome then some (w.fail i) else some (w.goto i .cleanupPause)
  | .cleanupPause =>
    if fault.isSome then some (w.fail i)
    else some ((w.saveChanged uid (true, (w.store.loadUid uid).pause)).goto i .cleanupStop)
  | .cleanupStop =>
    -- An owner that the cleanup could not take down is listed in its reply.
    w.close i (cleanupUid uid w.core schedule) fun result w =>
      if result.failed.isEmpty then w.finish i else w.fail i

end AlwaysOnWorld

/-- What may happen next. `drift` is the machine around the daemon. -/
inductive AlwaysOnAction where
  | arrive (request : AlwaysOnRequest)
  | deny (i : Nat)
  | advance (i : Nat) (fault : Option StoreFault) (schedule : List (Verdict Fault))
  | replay (reads : StoreReads) (schedule : List (Verdict Fault))
  | drift (view : View) (kernel : Kernel)

/-- One atomic step of the requests of one user. -/
def AlwaysOnWorld.step (uid : Nat) (w : AlwaysOnWorld) : AlwaysOnAction → Option AlwaysOnWorld
  | .arrive request =>
    match request.accept lib with
    | .ok stage => some { w with threads := w.threads ++ [stage] }
    | .error _ => some { w with failed := true }
  | .deny i =>
    match w.threads[i]? with
    | some stage => if stage.authorizes then some (w.fail i) else none
    | none => none
  | .advance i fault schedule =>
    match w.threads[i]? with
    | some stage => w.advance lib uid i fault schedule stage
    | none => none
  | .replay reads schedule =>
    match replay lib reads w.store.rows w.core schedule with
    | (.crash, _, _) => none
    | (_, core, _) => some (w.apply uid core (w.store.loadUid uid).replayable)
  | .drift view kernel => some { w with core := { w.core with view, kernel } }

end NetOrchestrator.Daemon
