import NetOrchestrator.Core.Errors
import NetOrchestrator.Lib.Damage
import NetOrchestrator.Lib.Runs

/-!
# `Core.SystemProxy`: the desktop's proxy settings and who owns them

While a profile is connected, the desktop may be pointed at its local proxy. The manager keeps what
the user had before in an ownership record, in memory and in a document on disk, and puts it back
later. `Desk` is the part of the machine that the manager works on.

An adapter may be interrupted in the middle of a change and leaves whatever it leaves
(`Fault.left`). A save replaces the document in one step, the renaming, but other steps before and
behind it can fail. A process may end anywhere: `restart` makes a new manager on the same path.

The desktop settings are of any type: the manager hands them from the adapter to the record and
back, and never looks into them.
-/

namespace NetOrchestrator.Core.SystemProxy

open Lib Lib.Call Core.Errors

/-! ### Refusals -/

/-- A refusal of the system. `left` is what an adapter has made of the desktop settings by then,
if it has changed them. -/
structure Fault (Settings : Type) where
  error : IoError
  left : Option Settings
  deriving DecidableEq

/-! ### The documents -/

/-- `PROXY_STATE_DOCUMENT_VERSION`. -/
def proxyStateDocumentVersion : Nat := 1

structure ProxyOwnership (Settings : Type) where
  profileId : String
  snapshot : Settings
  appliedServer : String
  appliedOverride : String
  deriving DecidableEq

structure ProxyStateDocument (Settings : Type) where
  version : Nat
  ownership : Option (ProxyOwnership Settings)
  deriving DecidableEq

/-- The desktop, the document on disk and the manager in memory. A process that is not `running`
has no manager. -/
structure Desk (Settings : Type) where
  desktop : Settings
  file : Option (ProxyStateDocument Settings)
  running : Bool
  ownership : Option (ProxyOwnership Settings)
  deriving DecidableEq

/-- The record on disk. -/
def Desk.recorded {Settings : Type} (s : Desk Settings) : Option (ProxyOwnership Settings) :=
  s.file.bind (·.ownership)

/-- A platform's `ProxyAdapter`: what a completed `apply` makes of the settings. -/
structure ProxyAdapter (Settings : Type) where
  applied : String → String → Settings → Settings
  defaultBypass : List String

/-! ### Steps -/

variable {Settings : Type}

abbrev Manager (Settings : Type) : Type → Type := Call (Desk Settings) (Fault Settings) IoError

/-- A refusal in the middle of a change of the desktop settings. -/
def Fault.damage (fault : Fault Settings) (s : Desk Settings) : Desk Settings :=
  { s with desktop := fault.left.getD s.desktop }

/-- `ProxyAdapter::snapshot`. -/
def ProxyAdapter.snapshot (_ : ProxyAdapter Settings) : Manager Settings Settings :=
  step (·.error) fun s => (.ok s.desktop, s)

/-- `ProxyAdapter::apply`. -/
def ProxyAdapter.apply (adapter : ProxyAdapter Settings) (server bypass : String) :
    Manager Settings Unit :=
  leaving (·.error) (fun s => { s with desktop := adapter.applied server bypass s.desktop })
    Fault.damage

/-- `ProxyAdapter::restore`. -/
def ProxyAdapter.restore (_ : ProxyAdapter Settings) (snapshot : Settings) :
    Manager Settings Unit :=
  leaving (·.error) (fun s => { s with desktop := snapshot }) Fault.damage

/-- A step that touches neither the desktop nor the document. -/
def aside : Manager Settings Unit := step (·.error) fun s => (.ok (), s)

/-- `save_document`. The directory and the temporary file come first; the path is protected once
more behind the renaming. -/
def saveDocument (document : ProxyStateDocument Settings) : Manager Settings Unit := do
  aside
  aside
  aside
  step (·.error) fun s => (.ok (), { s with file := some document })
  aside

/-- `load_document`. -/
def loadDocument : Manager Settings (ProxyStateDocument Settings) := do
  let raw ← step (·.error) fun s => (.ok s.file, s)
  match raw with
  | none => pure ⟨proxyStateDocumentVersion, none⟩
  | some document =>
    if document.version != proxyStateDocumentVersion then
      throw ⟨.invalidData, s!"unsupported proxy state document version {document.version}"⟩
    else
      pure document

/-! ### The manager -/

def setOwnership (ownership : Option (ProxyOwnership Settings)) : Manager Settings Unit :=
  modify fun s => { s with ownership }

/-- `SystemProxyManager::with_adapter`. The manager of an earlier process is gone. -/
def withAdapter : Manager Settings Unit := do
  modify fun s => { s with running := false, ownership := none }
  let exists' ← gets (·.file.isSome)
  if exists' then aside
  let document ← loadDocument
  if exists' then aside
  modify fun s => { s with running := true, ownership := document.ownership }

/-- `SystemProxyManager::persist`. -/
def persist : Manager Settings Unit := do
  let ownership ← gets (·.ownership)
  saveDocument ⟨proxyStateDocumentVersion, ownership⟩

/-- The adapter's own entries first, then what the profile adds to them. -/
def bypassEntries (defaults bypass : List String) : List String :=
  bypass.foldl
    (fun entries entry => if entries.any (· == entry) then entries else entries ++ [entry]) defaults

/-- `SystemProxyManager::apply_server`. -/
def applyServer (adapter : ProxyAdapter Settings) (profileId server : String)
    (bypass : List String) : Manager Settings Unit := do
  let owned ← gets (·.ownership)
  if owned.isSome then
    throw ⟨.alreadyExists, "system proxy is already owned by a profile"⟩
  let snapshot ← adapter.snapshot
  let appliedOverride := ";".intercalate (bypassEntries adapter.defaultBypass bypass)
  setOwnership (some ⟨profileId, snapshot, server, appliedOverride⟩)
  match ← attempt persist with
  | .error err => do
      setOwnership none
      throw err
  | .ok () =>
    match ← attempt (adapter.apply server appliedOverride) with
    | .ok () => pure ()
    | .error err => do
        let message := s!"failed to apply system proxy: {err.message}"
        match ← attempt (adapter.restore snapshot) with
        | .error restoreErr =>
          throw ⟨err.kind, message ++ s!"; snapshot restore failed: {restoreErr.message}" ++
            "; ownership record kept for recovery"⟩
        | .ok () => do
            setOwnership none
            match ← attempt persist with
            | .error persistErr =>
              throw ⟨err.kind, message ++
                s!"; ownership record cleanup failed: {persistErr.message}"⟩
            | .ok () => throw ⟨err.kind, message⟩

def socksServer (port : UInt16) : String := s!"socks=127.0.0.1:{port}"

def httpServer (socksPort : UInt16) : Option UInt16 → String
  | some http => s!"http=127.0.0.1:{http};https=127.0.0.1:{http};socks=127.0.0.1:{socksPort}"
  | none => s!"socks=127.0.0.1:{socksPort}"

/-- `SystemProxyManager::restore`. -/
def restore (adapter : ProxyAdapter Settings) (profileId : String) : Manager Settings Unit := do
  match ← gets (·.ownership) with
  | none => throw ⟨.notFound, "no system proxy ownership is recorded"⟩
  | some ownership => do
      if ownership.profileId != profileId then
        throw ⟨.invalidInput,
          s!"system proxy is owned by profile '{ownership.profileId}', not '{profileId}'"⟩
      adapter.restore ownership.snapshot
      setOwnership none
      persist

/-- `SystemProxyManager::restore_any`. -/
def restoreAny (adapter : ProxyAdapter Settings) : Manager Settings Unit := do
  match ← gets (·.ownership) with
  | none => pure ()
  | some ownership => do
      adapter.restore ownership.snapshot
      setOwnership none
      persist

/-! ### Runs -/

inductive Request where
  | apply (profileId : String) (port : UInt16) (bypass : List String)
  | applyWithHttp (profileId : String) (socksPort : UInt16) (httpPort : Option UInt16)
      (bypass : List String)
  | restore (profileId : String)
  | restoreAny
  | restart
  deriving DecidableEq

/-- A call of the manager, or a new process. -/
def call (adapter : ProxyAdapter Settings) : Request → Manager Settings Unit
  | .apply profileId port bypass => applyServer adapter profileId (socksServer port) bypass
  | .applyWithHttp profileId socksPort httpPort bypass =>
    applyServer adapter profileId (httpServer socksPort httpPort) bypass
  | .restore profileId => restore adapter profileId
  | .restoreAny => restoreAny adapter
  | .restart => withAdapter

/-- Only a running process has a manager to call. -/
def Callable (s : Desk Settings) (request : Request) : Prop := request = .restart ∨ s.running = true

/-- What the end of a process leaves. -/
def Desk.ended (s : Desk Settings) : Desk Settings := { s with running := false, ownership := none }

/-- The same call as part of a run: a process that ends in the middle of it leaves the rest of the
run to the next one. -/
def exec (adapter : ProxyAdapter Settings) (request : Request) : Manager Settings Unit :=
  restarting Desk.ended (call adapter request)

end NetOrchestrator.Core.SystemProxy
