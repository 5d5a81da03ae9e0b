import NetOrchestrator.Daemon.Attach

/-!
# `Daemon.Intents`: stored routing intents

An intent is a stored wish: these destinations through that path. The record lives in the
user's intent document; the journal entry `intent:<id>` holds what is installed for it.

`Crates` stands for the two functions of third-party crates that the module calls: the
prefix parser and the size of a document's JSON encoding.
-/

namespace NetOrchestrator.Daemon

open Net Lib

/-- The third-party functions: `IpNet::from_str` and the length of `serde_json::to_vec`. -/
structure Crates where
  parseNet : String → Option IpNet
  encodedBytes : List NetIntentSetParams → Nat

def maxDocumentBytes : Nat := 256 * 1024
def maxIntents : Nat := 64
def maxDestinations : Nat := 512

def intentStoreInvalid : IoError := ⟨.invalidData, .text "intent store is not safe to load"⟩

def intentStoreUnavailable : IoError := ⟨.notConnected, .text "intent store is unavailable"⟩

/-! ### The store -/

namespace IntentDocuments

/-- The document of a uid; a missing file is an empty document. -/
def document (docs : IntentDocuments) (uid : Nat) : List NetIntentSetParams :=
  (docs.find? fun doc => doc.1 == uid).elim [] Prod.snd

/-- The checks of `load_uid` on what the file holds. -/
def loadable (intents : List NetIntentSetParams) : Bool :=
  intents.length ≤ maxIntents &&
    intents.all fun intent => intent.destinations.length ≤ maxDestinations

/-- Replace the document of a uid. The directory is read in the order of the uids. -/
def put (docs : IntentDocuments) (uid : Nat) (intents : List NetIntentSetParams) :
    IntentDocuments :=
  docs.filter (fun doc => doc.1 < uid) ++ (uid, intents) :: docs.filter fun doc => uid < doc.1

/-- The document with the record inserted, or replaced when the id is there. -/
def upserted (intents : List NetIntentSetParams) (intent : NetIntentSetParams) :
    List NetIntentSetParams :=
  if intents.any fun item => item.id == intent.id then
    -- `find` on the mutable iterator: only the first record of that id is replaced.
    let index := intents.findIdx fun item => item.id == intent.id
    intents.set index intent
  else intents ++ [intent]

end IntentDocuments

/-- `load_uid`. -/
def loadUid (uid : Nat) : Prog (List NetIntentSetParams) :=
  query fun core =>
    let intents := core.intents.document uid
    if IntentDocuments.loadable intents then .ok intents else .error intentStoreInvalid

variable (lib : Crates)

/-- `IntentStore::save`: the size is checked, the file is replaced and its directory synced. -/
def saveIntents (uid : Nat) (intents : List NetIntentSetParams) : Prog Unit :=
  Call.commit Fault.report Fault.late fun core =>
    if maxDocumentBytes < lib.encodedBytes intents then (.error intentStoreInvalid, core)
    else (.ok (), { core with intents := core.intents.put uid intents })

/-- `IntentStore::upsert`. -/
def upsertIntent (uid : Nat) (intent : NetIntentSetParams) : Prog Unit := do
  let intents ← loadUid uid
  if (intents.all fun item => item.id != intent.id) && maxIntents ≤ intents.length then
    Call.throw intentStoreInvalid
  else saveIntents lib uid (IntentDocuments.upserted intents intent)

/-- `IntentStore::remove`. -/
def removeIntent (uid : Nat) (id : String) : Prog Bool := do
  let intents ← loadUid uid
  let kept := intents.filter fun intent => intent.id != id
  if kept.length = intents.length then pure false
  else do
    saveIntents lib uid kept
    pure true

/-! ### Compiling an intent -/

/-- The destinations as routes, or the first that is not a prefix. -/
def intentRoutes (lib : Crates) (metric : Nat) : List String → Except Message (List PolicyRoute)
  | [] => .ok []
  | raw :: rest =>
    match lib.parseNet (trim raw) with
    | none => .error (.notCidr raw)
    | some net => do
        let routes ← intentRoutes lib metric rest
        .ok ({ destination := net.trunc, metric, via := none } :: routes)

/-- The path of an intent as an attach spec. -/
def intentPathSpec (path : NetIntentPath) (routes : List PolicyRoute) :
    Except Message AttachSpecParams :=
  if path.kind = "interface" then
    .ok { interfaceName := path.interface.getD "", routes, endpointBypasses := [], uplink := false }
  else if path.kind = "direct" then
    .ok { interfaceName := "", routes, endpointBypasses := [], uplink := true }
  else .error (.unknownPathKind path.kind)

/-- `intent_spec`. -/
def intentSpec (params : NetIntentSetParams) : Except Message AttachSpecParams := do
  if params.destinations = [] then .error (.text "an intent needs at least one destination")
  else
    let routes ← intentRoutes lib (params.metric.getD intentDefaultMetric) params.destinations
    let spec ← intentPathSpec params.path routes
    validateAttach spec
    .ok spec

/-- `intent_owner`. -/
def intentOwner (id : String) : Except Message Owner :=
  if id = "" ∨ 96 < id.utf8ByteSize ∨
      id.toList.any (fun c => isControl c || isWhitespace c || c == ':') then
    .error (.text "intent id must be 1-96 characters without ':' or whitespace")
  else do
    validateOwner (Owner.intent id).render
    .ok (.intent id)

def orInvalid {α : Type} (check : Except Message α) : Prog α :=
  match check with
  | .ok a => pure a
  | .error message => Call.throw (invalidInput message)

/-! ### Requests -/

def requireIntents : Prog Unit := do
  if ← Call.gets fun core => core.executors.intents then pure ()
  else Call.throw intentStoreUnavailable

/-- Tear down what an earlier version of the intent installed. -/
def retireIntent (uid : Nat) (owner : Owner) : Prog Unit := do
  match ← position uid owner with
  | none => pure ()
  | some index => do
      teardownEntry index
      persist

/-- Install an enabled intent. A disabled one keeps only its record. -/
def armIntent (uid : Nat) (owner : Owner) (spec : AttachSpecParams)
    (desired : List AppliedRoute) (enabled : Bool) : Prog Unit := do
  if enabled then
    let _ ← applyRoutesInner uid owner desired (some spec)
    pure ()
  else pure ()

/-- Undo a kernel half whose record could not be stored. -/
def undoIntent (uid : Nat) (owner : Owner) : Prog Unit := do
  match ← position uid owner with
  | none => pure ()
  | some index => do
      let _ ← Call.attempt (teardownEntry index)
      persist

/-- `net_intent_set`. -/
def netIntentSet (uid : Nat) (params : NetIntentSetParams) : Prog String := do
  let owner ← orInvalid (intentOwner params.id)
  let spec ← orInvalid (intentSpec lib params)
  requireIntents
  let desired ← Call.gets fun core => attachDesired core.view spec
  retireIntent uid owner
  armIntent uid owner spec desired (params.enabled.getD true)
  match ← Call.attempt (upsertIntent lib uid params) with
  | .ok () => pure params.id
  | .error e => do
      undoIntent uid owner
      Call.throw e

/-- `net_intent_del`. -/
def netIntentDel (uid : Nat) (id : String) : Prog Unit := do
  let owner ← orInvalid (intentOwner id)
  requireIntents
  let _ ← removeIntent lib uid id
  if (← position uid owner).isSome then do
    let _ ← removeOwnerInner uid owner
    pure ()
  else pure ()

/-- Re-arm one stored intent. -/
def replayIntent (uid : Nat) (params : NetIntentSetParams) : Prog Unit := do
  let spec ← orInvalid (intentSpec lib params)
  let owner ← orInvalid (intentOwner params.id)
  let desired ← Call.gets fun core => attachDesired core.view spec
  let _ ← applyRoutesInner uid owner desired (some spec)
  pure ()

/-- The intents of one document: how many were armed and how many failed. A disabled one
is neither. -/
def replayDocument (lib : Crates) (uid : Nat) :
    List NetIntentSetParams → Nat × Nat → Prog (Nat × Nat)
  | [], counts => pure counts
  | params :: rest, (armed, failed) => do
      if params.enabled = some false then replayDocument lib uid rest (armed, failed)
      else
        match ← Call.attempt (replayIntent lib uid params) with
        | .ok () => replayDocument lib uid rest (armed + 1, failed)
        | .error _ => replayDocument lib uid rest (armed, failed + 1)

/-- `load_all`: an unreadable document counts as empty. -/
def loadDocuments : List Nat → Prog IntentDocuments
  | [] => pure []
  | uid :: rest => do
      let intents := orDefault (← Call.attempt (loadUid uid))
      let docs ← loadDocuments rest
      pure ((uid, intents) :: docs)

def loadAll : Prog IntentDocuments := do
  let uids ← query fun core => .ok (core.intents.map Prod.fst)
  loadDocuments uids

def replayDocuments (lib : Crates) : IntentDocuments → Nat × Nat → Prog (Nat × Nat)
  | [], counts => pure counts
  | (uid, intents) :: rest, counts => do
      let counts ← replayDocument lib uid intents counts
      replayDocuments lib rest counts

/-- `replay_intents`. -/
def replayIntents : Prog (Nat × Nat) := do
  if ← Call.gets fun core => core.executors.intents then
    match ← Call.attempt loadAll with
    | .ok docs => replayDocuments lib docs (0, 0)
    | .error _ => pure (0, 0)
  else pure (0, 0)

end NetOrchestrator.Daemon
