import Mathlib.Logic.Function.Basic
import NetOrchestrator.Lib.Steps

/-!
# `Macos.Service`: connect requests of parallel connections

Every connection to the helper has a thread. A connect request asks the three executors, one
after another, whether they run a primary tunnel, and then connects through its own executor.
Each executor has a lock of its own, and nothing is held from the first question to the
connect. A step here is what happens under one lock: a `holds_primary`, a `reap`, a connect,
a disconnect.

What an executor does to the system while it connects is left out: a connect takes place or
it fails. `Thread.overtakenBy` is a ghost.
-/

namespace NetOrchestrator.Macos

open Lib

inductive TunnelRole where
  | primary
  | secondary
  deriving DecidableEq

inductive Kind where
  | xray
  | wireGuard
  | openVpn
  deriving DecidableEq

/-- The `Active` of an executor, as far as the locks are about it. `connected` is the
management state of an OpenVPN session. -/
structure ActiveTunnel where
  profileId : String
  ownerUid : Nat
  role : TunnelRole
  alive : Bool
  connected : Bool
  deriving DecidableEq

structure ConnectRequest where
  kind : Kind
  uid : Nat
  profileId : String
  role : TunnelRole
  deriving DecidableEq

/-- Where the thread of a connect request is. -/
inductive Phase where
  | checking
  | admitted
  | reaped
  | answered (connected : Bool)
  deriving DecidableEq

structure Thread where
  request : ConnectRequest
  phase : Phase
  /-- What the executors answered so far, in order. -/
  reads : List (Kind × Bool)
  /-- The executors that run a primary tunnel which came up after this thread had asked them. -/
  overtakenBy : List Kind
  deriving DecidableEq

structure Service where
  active : Kind → Option ActiveTunnel
  threads : List Thread

/-- The helper after its start. -/
def Service.idle : Service :=
  { active := fun _ => none
    threads := [] }

variable (s : Service)
variable (kind : Kind)

def Service.holdsPrimary : Bool :=
  (s.active kind).any fun active => active.role == .primary

/-! ### The conflict check -/

/-- The order in which `primary_held_by_another` asks. -/
def Kind.all : List Kind := [.xray, .wireGuard, .openVpn]

/-- `primary_held_by_another`, given the three answers. -/
def primaryHeldByAnother (reads : List (Kind × Bool)) : Option Kind :=
  (reads.find? fun (other, holds) => other != kind && holds).map Prod.fst

/-- One step of the check. A secondary tunnel is not checked. -/
def Thread.check (thread : Thread) : Thread :=
  if thread.request.role ≠ .primary then { thread with phase := .admitted }
  else
    match Kind.all[thread.reads.length]? with
    | some kind => { thread with reads := thread.reads ++ [(kind, s.holdsPrimary kind)] }
    | none =>
      match primaryHeldByAnother thread.request.kind thread.reads with
      | some _ => { thread with phase := .answered false }
      | none => { thread with phase := .admitted }

/-! ### Sessions come and go -/

def Thread.overtake (thread : Thread) : Thread :=
  if kind ∈ thread.reads.map Prod.fst then
    { thread with overtakenBy := kind :: thread.overtakenBy }
  else thread

def Thread.relieve (thread : Thread) : Thread :=
  { thread with overtakenBy := thread.overtakenBy.filter (· ≠ kind) }

/-- `*guard = Some(active)`. -/
def Service.start (active : ActiveTunnel) (s : Service) : Service :=
  { active := Function.update s.active kind (some active)
    threads := if active.role = .primary then s.threads.map (Thread.overtake kind) else s.threads }

/-- `guard.take()`. -/
def Service.take (s : Service) : Service :=
  { active := Function.update s.active kind none
    threads := s.threads.map (Thread.relieve kind) }

/-- `guard.take()` where the session is as `expected`. -/
def Service.takeIf (expected : ActiveTunnel → Bool) (s : Service) : Service :=
  if (s.active kind).any expected then s.take kind else s

/-- `reap`: a session whose process is gone. -/
def Service.reap (s : Service) : Service := s.takeIf kind fun active => !active.alive

def Service.disconnect (uid : Nat) (profileId : String) (s : Service) : Service :=
  s.takeIf kind fun active => active.profileId == profileId && active.ownerUid == uid

def Service.setThread (index : Nat) (thread : Thread) (s : Service) : Service :=
  { s with threads := s.threads.set index thread }

/-! ### Connects -/

/-- The session that a request asks for. An OpenVPN session starts out unconnected. -/
def ConnectRequest.session (request : ConnectRequest) : ActiveTunnel :=
  { profileId := request.profileId
    ownerUid := request.uid
    role := request.role
    alive := true
    connected := false }

/-- An OpenVPN session that is not up makes way for another profile of the same user. -/
def ConnectRequest.replaces (request : ConnectRequest) (active : ActiveTunnel) : Bool :=
  request.kind == .openVpn && active.profileId != request.profileId &&
    active.ownerUid == request.uid && !active.connected

/-- `connect` under the lock of its executor. After a stale session it starts over. -/
def Service.connect (index : Nat) (thread : Thread) (works : Bool) (s : Service) : Service :=
  match s.active thread.request.kind with
  | some active =>
    if thread.request.replaces active then s.take thread.request.kind
    else s.setThread index { thread with phase := .answered false }
  | none =>
    let answered := s.setThread index { thread with phase := .answered works }
    if works then answered.start thread.request.kind thread.request.session else answered

/-- The next step of a thread. `works` says whether what the executor tries works out: its
checks of the parameters, and the connect itself. -/
def Service.advance (index : Nat) (thread : Thread) (works : Bool) (s : Service) : Option Service :=
  match thread.phase with
  | .checking => some (s.setThread index (thread.check s))
  | .admitted =>
    if works then
      some ((s.setThread index { thread with phase := .reaped }).reap thread.request.kind)
    else some (s.setThread index { thread with phase := .answered false })
  | .reaped => some (s.connect index thread works)
  | .answered _ => none

/-! ### The system -/

inductive ServiceAction where
  | request (request : ConnectRequest)
  | advance (index : Nat) (works : Bool)
  | reap (kind : Kind)
  | disconnect (kind : Kind) (uid : Nat) (profileId : String)
  | shutdown (kind : Kind)
  /-- The monitor of an OpenVPN session ends the session of its profile. -/
  | teardown (profileId : String)
  /-- The process of a session exits. -/
  | dies (kind : Kind)
  /-- The management state of the OpenVPN session changes. -/
  | management (connected : Bool)
  deriving DecidableEq

def Service.modify (change : ActiveTunnel → ActiveTunnel) (s : Service) : Service :=
  { s with active := Function.update s.active kind ((s.active kind).map change) }

def ConnectRequest.thread (request : ConnectRequest) : Thread :=
  { request
    phase := .checking
    reads := []
    overtakenBy := [] }

def Service.step : ServiceAction → Option Service
  | .request request => some { s with threads := s.threads ++ [request.thread] }
  | .advance index works => s.threads[index]?.bind fun thread => s.advance index thread works
  | .reap kind => some (s.reap kind)
  | .disconnect kind uid profileId => some (s.disconnect kind uid profileId)
  | .shutdown kind => some (s.take kind)
  | .teardown profileId => some (s.takeIf .openVpn fun active => active.profileId == profileId)
  | .dies kind => some (s.modify kind fun active => { active with alive := false })
  | .management connected => some (s.modify .openVpn fun active => { active with connected })

end NetOrchestrator.Macos
