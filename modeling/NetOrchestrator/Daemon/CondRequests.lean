import NetOrchestrator.Daemon.CondRules

/-!
# `Daemon.CondRequests`: editing the conditional rules

The store has no lock. A put or a remove loads the document, edits its copy and saves it, and
then evaluates all rules. An evaluation loads the rules and observes the network before it takes
the lock of the core. So a request has up to five steps, and other requests and the background
evaluations may run between any two of them.

The world numbers the requests in the order of their arrival and keeps their history, none of
which the daemon reads: `after` is, for each request, which ones had returned when it arrived;
`order` lists them in the order in which they took effect, which is at the save, or at the load
when there is nothing to save.
-/

namespace NetOrchestrator.Daemon

open Net Lib

inductive CondRequest where
  | put (rule : ConditionalRouteRule)
  | remove (ruleId : String)
  deriving DecidableEq

namespace CondRequest

/-- The edit of a loaded document. -/
def edit : CondRequest → CondRulesDocument → Except IoError (Bool × CondRulesDocument)
  | .put rule, document => document.upsert rule
  | .remove ruleId, document => .ok (document.remove ruleId)

/-- The document after the request. -/
def apply (document : CondRulesDocument) (request : CondRequest) :
    Except IoError CondRulesDocument :=
  (request.edit document).map Prod.snd

/-- The document after the requests, served one after another. -/
def serve (document : CondRulesDocument) (requests : List CondRequest) :
    Except IoError CondRulesDocument :=
  requests.foldlM apply document

/-- The checks of the parameters. -/
def accept : CondRequest → Except RuleRefusal Unit
  | .put rule => validateRule rule
  | .remove _ => .ok ()

end CondRequest

/-- What a thread does next. -/
inductive CondStage where
  | load
  | save (edited : CondRulesDocument)
  | loadRules
  | observe (rules : List UserRule)
  | reconcile (rules : List UserRule) (addrs : List IfaceAddr) (observed : List AppliedRoute)
  deriving DecidableEq

/-- A request by its number, or a background evaluation. -/
structure CondThread where
  request : Option Nat
  stage : CondStage
  deriving DecidableEq

structure CondWorld where
  store : CondRuleStore
  core : DaemonCore
  threads : List CondThread
  requests : List CondRequest
  after : List (List Nat)
  order : List Nat
  returned : List Nat

namespace CondWorld

def fresh (store : CondRuleStore) (core : DaemonCore) : CondWorld :=
  { store, core, threads := [], requests := [], after := [], order := [], returned := [] }

/-- The thread is over. A request returns. -/
def finish (i : Nat) (thread : CondThread) (w : CondWorld) : CondWorld :=
  { w with threads := w.threads.eraseIdx i, returned := w.returned ++ thread.request.toList }

/-- The request ends with an error. It never returns a result. -/
def fail (i : Nat) (w : CondWorld) : CondWorld := { w with threads := w.threads.eraseIdx i }

def goto (i : Nat) (thread : CondThread) (stage : CondStage) (w : CondWorld) : CondWorld :=
  { w with threads := w.threads.set i { thread with stage } }

/-- The request takes effect. -/
def takeEffect (thread : CondThread) (w : CondWorld) : CondWorld :=
  { w with order := w.order ++ thread.request.toList }

/-- The document load of a request: `upsert` and `remove` return at once when there is nothing to
change. -/
def loadStep (uid i : Nat) (thread : CondThread) (request : CondRequest) (w : CondWorld) :
    CondWorld :=
  match request.edit (w.store.loadUid uid) with
  | .error _ => w.fail i
  | .ok (false, _) => (w.takeEffect thread).goto i thread .loadRules
  | .ok (true, edited) => w.goto i thread (.save edited)

end CondWorld

/-- What an action of the environment decides about a step: whether the store answers, which
documents can be read, which addresses there are, and the verdicts of the core's schedule. -/
structure CondStep where
  storeFails : Bool
  root : Bool
  readable : Nat → Bool
  addrs : Except IoError (List IfaceAddr)
  schedule : List (Verdict Fault)

/-- The next step of a thread. A failed evaluation is logged, and the request goes on without
it. -/
def CondWorld.advance (uid i : Nat) (x : CondStep) (thread : CondThread) (w : CondWorld) :
    Option CondWorld :=
  match thread.stage with
  | .load =>
    match thread.request.bind fun n => w.requests[n]? with
    | some request =>
      if x.storeFails then some (w.fail i) else some (w.loadStep uid i thread request)
    | none => none
  | .save edited =>
    if x.storeFails then some (w.fail i)
    else
      let saved := { w with store := w.store.set uid edited }
      some ((saved.takeEffect thread).goto i thread .loadRules)
  | .loadRules =>
    match w.store.loadAllRules x.root x.readable with
    | .ok rules => some (w.goto i thread (.observe rules))
    | .error _ => some (w.finish i thread)
  | .observe rules =>
    match x.addrs with
    | .ok addrs =>
      some (w.goto i thread (.reconcile rules addrs w.core.kernel.ownedRoutesSnapshot))
    | .error _ => some (w.finish i thread)
  | .reconcile rules addrs observed =>
    match reconcileConditional addrs observed rules w.core x.schedule with
    | (.crash, _, _) => none
    | (_, core, _) => some (finish i thread { w with core })

inductive CondAction where
  | arrive (request : CondRequest)
  | evaluate
  | deny (i : Nat)
  | advance (i : Nat) (x : CondStep)
  | drift (core : DaemonCore)

/-- One atomic step of the requests of one user. `drift` is what other requests and the machine
do to the core. -/
def CondWorld.step (uid : Nat) (w : CondWorld) : CondAction → Option CondWorld
  | .arrive request =>
    match request.accept with
    | .error _ => some w
    | .ok () =>
      some { w with
        threads := w.threads ++ [⟨some w.requests.length, .load⟩]
        requests := w.requests ++ [request]
        after := w.after ++ [w.returned] }
  | .evaluate => some { w with threads := w.threads ++ [⟨none, .loadRules⟩] }
  | .deny i =>
    match w.threads[i]? with
    | some ⟨some _, .load⟩ => some (w.fail i)
    | _ => none
  | .advance i x =>
    match w.threads[i]? with
    | some thread => w.advance uid i x thread
    | none => none
  | .drift core => some { w with core }

end NetOrchestrator.Daemon
