import NetOrchestrator.Macos.Routes

/-!
# `Macos.Intents`: the helper keeps routing intents in force

The helper stores intents and conditional rules and keeps the route table in line with them.
Every request runs under one lock. Each stored intent or rule records in `installed` the routes
that the helper added for it.

Others use the same route table. `script` says what they do before each of the helper's next
system calls, so they act between any two of them; any system call may also be refused.

The ghosts: `commands` are the route commands that were run and `deleted` the rows that they
took out. `dump` is the last reading of the table in this request, if it worked, and
`withdrawing` the routes that a withdrawal still has before it. `clean` is lost when a route
cannot be deleted, when a withdrawal has no reading of the table to go by, and when somebody
else adds a route that the helper must take for its own (`IntentWorld.fair`).
-/

namespace NetOrchestrator.Macos

open Net Lib
open Daemon (NetIntentSetParams ConditionalRouteRule)
open NetOrchestrator.Core (NetText NetworkView WantedRoute Derivation RouteEntry IntentRefusal judge
  normalize derive deriveRule validateRule maxRules)

def maxIntentsPerUid : Nat := 64
def maxDestinationsTotal : Nat := 256

/-- `xray::Error`, and what a refused system call reports. -/
inductive HelperError where
  | invalid (reason : IntentRefusal)
  | conflict (text : String)
  | notFound (text : String)
  | unavailable (text : String)
  | io
  deriving DecidableEq

/-! ### The state -/

structure Stored where
  uid : Nat
  params : NetIntentSetParams
  installed : List RouteOp
  deriving DecidableEq

/-- A stored rule. `put_rule` stores none that it does not accept. -/
structure StoredRule where
  uid : Nat
  rule : ConditionalRouteRule
  installed : List RouteOp
  accepted : validateRule rule = .ok ()
  deriving DecidableEq

/-- What somebody else does. -/
inductive ForeignEdit where
  | add (entry : RouteEntry)
  | remove (net : IpNet)
  | view (view : NetworkView)
  | devices (deviceOf : IpAddr → String)

inductive RouteCommand where
  | add (op : RouteOp)
  | delete (op : RouteOp)
  deriving DecidableEq

structure IntentWorld where
  table : RouteTable RouteOp
  view : NetworkView
  deviceOf : IpAddr → String
  intents : List Stored
  rules : List StoredRule
  lastView : Option NetworkView
  document : List Stored × List StoredRule
  script : List (List ForeignEdit)
  commands : List RouteCommand
  deleted : List (RouteRow RouteOp)
  dump : Option (List RouteEntry)
  withdrawing : List RouteOp
  clean : Bool

/-- A stored intent or rule, by its place. -/
inductive Slot where
  | intent (index : Nat)
  | rule (index : Nat)
  deriving DecidableEq

namespace IntentWorld

def installed (w : IntentWorld) : Slot → List RouteOp
  | .intent index => (w.intents[index]?).elim [] Stored.installed
  | .rule index => (w.rules[index]?).elim [] StoredRule.installed

/-- Write through the reference that `apply` is given. -/
def setInstalled (slot : Slot) (ops : List RouteOp) (w : IntentWorld) : IntentWorld :=
  match slot with
  | .intent index =>
    { w with intents := w.intents.modify index fun stored => { stored with installed := ops } }
  | .rule index =>
    { w with rules := w.rules.modify index fun stored => { stored with installed := ops } }

variable (w : IntentWorld)

/-- All the stored intents and rules, in the order of a reconcile. -/
def slots : List Slot :=
  (List.range w.intents.length).map .intent ++ (List.range w.rules.length).map .rule

/-- Every route that is recorded as installed. -/
def recorded : List RouteOp :=
  w.intents.flatMap Stored.installed ++ w.rules.flatMap StoredRule.installed

/-! ### Others -/

/-- Whether the table as last read holds what the op asks for. -/
def shown (op : RouteOp) : Bool :=
  w.dump.any fun entries => judge ⟨op.net, op.target⟩ true entries == .present

/-- A foreign route that the helper will not mistake for its own: at its destination no route
is recorded, or about to be withdrawn, that it looks like or that the helper has seen in place. -/
def fair (entry : RouteEntry) : Bool :=
  (w.recorded ++ w.withdrawing).all fun op =>
    op.net != entry.destination.trunc || (!op.target.matches entry && !w.shown op)

def foreign : ForeignEdit → IntentWorld
  | .add entry =>
    if w.table.has entry.destination.trunc then w
    else { w with table := w.table.insert ⟨entry, none⟩, clean := w.clean && w.fair entry }
  | .remove net => { w with table := w.table.erase net.trunc }
  | .view view => { w with view }
  | .devices deviceOf => { w with deviceOf }

/-- What happened since the last system call. -/
def interfere : IntentWorld :=
  match w.script with
  | [] => w
  | edits :: rest => { edits.foldl foreign w with script := rest }

end IntentWorld

/-! ### System calls -/

abbrev IntentProg := Call IntentWorld Unit HelperError

def syscall {α : Type} (act : IntentWorld → Except HelperError α × IntentWorld) : IntentProg α :=
  Call.step (fun _ => .io) fun w => act w.interfere

/-- `NetworkProbe::view`. What cannot be read is missing from the view. -/
def probeView : IntentProg NetworkView := do
  match ← Call.attempt (syscall fun w => (.ok w.view, w)) with
  | .ok view => pure view
  | .error _ => pure ⟨none, [], []⟩

/-- `NetworkProbe::routes`. Without an answer the table looks empty. -/
def probeRoutes : IntentProg (List RouteEntry) := do
  let reading := syscall fun w =>
    (.ok (routeEntries w.table), { w with dump := some (routeEntries w.table) })
  match ← Call.attempt reading with
  | .ok entries => pure entries
  | .error _ => do
      Call.modify fun w => { w with dump := none }
      pure []

def logCommand (command : RouteCommand) (w : IntentWorld) : IntentWorld :=
  { w with commands := w.commands ++ [command] }

/-- The row of an op, with its owner. -/
def RouteOp.row (deviceOf : IpAddr → String) (op : RouteOp) : RouteRow RouteOp :=
  ⟨op.entry deviceOf, some op⟩

/-- `RouteOp::add`. -/
def RouteOp.add (op : RouteOp) : IntentProg Unit := do
  Call.modify (logCommand (.add op))
  syscall fun w =>
    if w.table.has op.net then (.error .io, w)
    else (.ok (), { w with table := w.table.insert (op.row w.deviceOf) })

/-- Take the row of a destination out. -/
def IntentWorld.deleteRow (net : IpNet) (w : IntentWorld) : IntentWorld :=
  { w with table := w.table.erase net, deleted := w.deleted ++ (w.table.get net).toList }

def IntentWorld.undeleted (op : RouteOp) (w : IntentWorld) : IntentWorld :=
  { w with clean := w.clean && !w.table.has op.net }

/-- `RouteOp::delete`: by destination only, and an error is ignored. -/
def RouteOp.delete (op : RouteOp) : IntentProg Unit := do
  Call.modify (logCommand (.delete op))
  match ← Call.attempt (syscall fun w => (.ok (), w.deleteRow op.net)) with
  | .ok () => pure ()
  | .error _ => Call.modify (IntentWorld.undeleted op)

/-- `save`: the whole state, or the old document stays. -/
def saveIntents : IntentProg Unit :=
  syscall fun w => (.ok (), { w with document := (w.intents, w.rules) })

/-! ### Withdrawals -/

/-- `op_of`. -/
def opOf (wanted : WantedRoute) : RouteOp :=
  { destination := wanted.destination.trunc
    target := wanted.target
    optional := false }

/-- `wanted_of`. -/
def wantedOf (op : RouteOp) : WantedRoute := ⟨op.net, op.target⟩

/-- The routes of a withdrawal. They are not recorded any more. -/
def IntentWorld.beginWithdrawal (ops : List RouteOp) (w : IntentWorld) : IntentWorld :=
  { w with withdrawing := ops, clean := w.clean && (ops.isEmpty || w.dump.isSome) }

/-- The loop of `withdraw`. -/
def withdrawEach (table : List RouteEntry) : List RouteOp → IntentProg Unit
  | [] => pure ()
  | op :: rest => do
      if judge (wantedOf op) true table = .present then op.delete
      Call.modify fun w => { w with withdrawing := rest }
      withdrawEach table rest

/-- `withdraw`: delete the routes that the reading still shows in place. -/
def withdraw (ops : List RouteOp) (table : List RouteEntry) : IntentProg Unit := do
  Call.modify (IntentWorld.beginWithdrawal ops)
  withdrawEach table ops

/-! ### Reconcile -/

def IntentWorld.push (slot : Slot) (op : RouteOp) (w : IntentWorld) : IntentWorld :=
  w.setInstalled slot (w.installed slot ++ [op])

def IntentWorld.forget (slot : Slot) (op : RouteOp) (w : IntentWorld) : IntentWorld :=
  w.setInstalled slot ((w.installed slot).filter (· ≠ op))

/-- Add a missing route, and record it if it is not on record yet. -/
def addRecorded (slot : Slot) (op : RouteOp) (ours : Bool) : IntentProg Unit := do
  match ← Call.attempt op.add with
  | .ok () => if ours then pure () else Call.modify (IntentWorld.push slot op)
  | .error _ => pure ()

/-- The loop of `apply` over the wanted routes. It returns whether a command was run. -/
def installWanted (slot : Slot) (table : List RouteEntry) :
    Bool → List WantedRoute → IntentProg Bool
  | changed, [] => pure changed
  | changed, route :: rest => do
      let op := opOf route
      let ours ← Call.gets fun w => (w.installed slot).contains op
      match judge route ours table with
      | .present => installWanted slot table changed rest
      | .missing => do
          addRecorded slot op ours
          installWanted slot table true rest
      | .conflicted _ => do
          Call.modify (IntentWorld.forget slot op)
          installWanted slot table changed rest

/-- The table, read again if a command was run. -/
def reread (changed : Bool) (table : List RouteEntry) : IntentProg (List RouteEntry) :=
  if changed then probeRoutes else pure table

/-- `apply`. What is kept stays recorded while the rest is withdrawn: nothing reads the record
in between. -/
def applyDerivation (slot : Slot) (derivation : Derivation) (table : List RouteEntry) :
    IntentProg Bool := do
  let wantedOps := derivation.wanted.map opOf
  let installed ← Call.gets fun w => w.installed slot
  let stale := installed.filter fun op => !wantedOps.contains op
  Call.modify (IntentWorld.setInstalled slot (installed.filter wantedOps.contains))
  withdraw stale table
  let table ← reread (!stale.isEmpty) table
  installWanted slot table (!stale.isEmpty) derivation.wanted

variable (text : NetText) (w : IntentWorld)

/-- What a stored intent or rule wants. A stored intent that is not accepted is passed over. -/
def IntentWorld.derivation (network : NetworkView) : Slot → Option Derivation
  | .intent index => do
      let stored ← w.intents[index]?
      let intent ← (normalize text stored.params).toOption
      some (derive intent network)
  | .rule index => do
      let stored ← w.rules[index]?
      some (deriveRule stored.rule network)

/-- The two loops of `reconcile_locked`. The table is read again after every change. -/
def reconcileSlots (text : NetText) (network : NetworkView) :
    List RouteEntry → List Slot → IntentProg Unit
  | _, [] => pure ()
  | table, slot :: rest => do
      match ← Call.gets fun w => w.derivation text network slot with
      | none => reconcileSlots text network table rest
      | some derivation => do
          let changed ← applyDerivation slot derivation table
          let table ← reread changed table
          reconcileSlots text network table rest

def reconcileLocked : IntentProg Unit := do
  let network ← probeView
  let table ← probeRoutes
  let slots ← Call.gets IntentWorld.slots
  reconcileSlots text network table slots
  Call.modify fun w => { w with lastView := some network }

/-! ### Requests -/

def unsaved (text : String) (m : IntentProg Unit) : IntentProg Unit := do
  match ← Call.attempt m with
  | .ok () => pure ()
  | .error _ => Call.throw (.unavailable text)

/-- How many networks the other intents and rules route. -/
def destinationsBeside (intent rule : Option Nat) : Nat :=
  ((w.intents.zipIdx.filter fun (_, index) => some index ≠ intent).map
      fun (stored, _) => stored.params.destinations.length).sum +
    ((w.rules.zipIdx.filter fun (_, index) => some index ≠ rule).map
      fun (stored, _) => stored.rule.routes.length).sum

/-- Replace the element at the position, or add it at the end. -/
def upsert {α : Type} (position : Option Nat) (new : α) (l : List α) : List α :=
  match position with
  | some index => l.set index new
  | none => l ++ [new]

/-- `set`. -/
def setIntent (uid : Nat) (params : NetIntentSetParams) : IntentProg String := do
  match normalize text params with
  | .error reason => Call.throw (.invalid reason)
  | .ok intent => do
      let w ← Call.gets id
      let position := w.intents.findIdx? fun stored =>
        stored.uid == uid && stored.params.id == intent.id
      let mine := (w.intents.filter fun stored => stored.uid == uid).length
      if position.isNone && maxIntentsPerUid ≤ mine then
        Call.throw (.conflict s!"There can be at most {maxIntentsPerUid} intents")
      else if maxDestinationsTotal <
          destinationsBeside w position none + intent.destinations.length then
        Call.throw (.conflict
          s!"All intents together can route at most {maxDestinationsTotal} networks")
      else do
        let stored : Stored :=
          { uid
            params :=
              { id := intent.id
                destinations := intent.destinations.map text.render
                path := params.path
                metric := some intent.metric
                enabled := some intent.enabled }
            installed := position.elim [] fun index => w.installed (.intent index) }
        Call.modify fun w => { w with intents := upsert position stored w.intents }
        reconcileLocked text
        unsaved "The intents could not be saved" saveIntents
        pure intent.id

/-- `delete`. -/
def deleteIntent (uid : Nat) (id : String) : IntentProg String := do
  let position ← Call.gets fun w => w.intents.findIdx? fun stored =>
    stored.uid == uid && stored.params.id == id
  match position with
  | none => Call.throw (.notFound "There is no intent with that name")
  | some index => do
      let table ← probeRoutes
      let installed ← Call.gets fun w => w.installed (.intent index)
      Call.modify fun w => { w with intents := w.intents.eraseIdx index }
      withdraw installed table
      unsaved "The intents could not be saved" saveIntents
      pure id

/-- `put_rule`, up to the status that it reports. -/
def putRule (uid : Nat) (rule : ConditionalRouteRule) : IntentProg String := do
  match haccepted : validateRule rule with
  | .error reason => Call.throw (.invalid reason)
  | .ok () => do
      let w ← Call.gets id
      let position := w.rules.findIdx? fun stored => stored.uid == uid && stored.rule.id == rule.id
      let mine := (w.rules.filter fun stored => stored.uid == uid).length
      if position.isNone && maxRules ≤ mine then
        Call.throw (.conflict s!"There can be at most {maxRules} conditional rules")
      else if maxDestinationsTotal < destinationsBeside w none position + rule.routes.length then
        Call.throw (.conflict
          s!"All intents and rules together can route at most {maxDestinationsTotal} networks")
      else do
        let stored : StoredRule :=
          { uid
            rule
            installed := position.elim [] fun index => w.installed (.rule index)
            accepted := haccepted }
        Call.modify fun w => { w with rules := upsert position stored w.rules }
        reconcileLocked text
        unsaved "The rules could not be saved" saveIntents
        pure rule.id

/-- `remove_rule`. A failed save is ignored. -/
def removeRule (uid : Nat) (id : String) : IntentProg String := do
  let position ← Call.gets fun w => w.rules.findIdx? fun stored =>
    stored.uid == uid && stored.rule.id == id
  match position with
  | none => pure id
  | some index => do
      let table ← probeRoutes
      let installed ← Call.gets fun w => w.installed (.rule index)
      Call.modify fun w => { w with rules := w.rules.eraseIdx index }
      withdraw installed table
      Call.discard (Call.attempt saveIntents)
      pure id

/-- `reconcile`. -/
def reconcile : IntentProg String := do
  reconcileLocked text
  Call.discard (Call.attempt saveIntents)
  pure ""

/-- `tick`. `due` says that the last full comparison is old enough. -/
def tick (due : Bool) : IntentProg String := do
  if ← Call.gets fun w => w.intents.isEmpty && w.rules.isEmpty then pure ""
  else do
    let view ← probeView
    let lastView ← Call.gets IntentWorld.lastView
    if lastView = some view && !due then pure "" else reconcile text

/-- `shutdown`. -/
def shutdown : IntentProg String := do
  let table ← probeRoutes
  let installed ← Call.gets IntentWorld.recorded
  Call.modify fun w =>
    { w with
      intents := w.intents.map fun stored => { stored with installed := [] }
      rules := w.rules.map fun stored => { stored with installed := [] } }
  withdraw installed table
  Call.discard (Call.attempt saveIntents)
  pure ""

inductive IntentRequest where
  | set (uid : Nat) (params : NetIntentSetParams)
  | delete (uid : Nat) (id : String)
  | putRule (uid : Nat) (rule : ConditionalRouteRule)
  | removeRule (uid : Nat) (id : String)
  | reconcile
  | tick (due : Bool)
  | shutdown
  deriving DecidableEq

def intentRequest : IntentRequest → IntentProg String
  | .set uid params => setIntent text uid params
  | .delete uid id => deleteIntent uid id
  | .putRule uid rule => putRule text uid rule
  | .removeRule uid id => removeRule uid id
  | .reconcile => reconcile text
  | .tick due => tick text due
  | .shutdown => shutdown

/-- A request under the lock. Its reading of the table is gone afterwards. -/
def handleIntent (request : IntentRequest) : IntentProg (Except HelperError String) := do
  let result ← Call.attempt (intentRequest text request)
  Call.modify fun w => { w with dump := none }
  pure result

end NetOrchestrator.Macos
