import NetOrchestrator.Lib.LastMax
import NetOrchestrator.Macos.Tailscale

/-!
# `Macos.TailscaleTable`: the Tailscale guard and the route table

Whether the guard pins a prefix depends on a lookup in the table that its own pins are in. Here the
lookup is one of the machine's table, and `protect` runs with what it finds there. What the guard
remembers is the outcome of earlier calls; `Reached` are the machines that such calls, deaths of
the helper and everybody else's changes of the table can lead to.
-/

namespace NetOrchestrator.Macos

open Net Lib

section
variable {ω : Type}

/-- The row by which the kernel sends to an address: the longest destination that has it. -/
def rowFor (table : RouteTable ω) (probe : IpAddr) : Option (RouteRow ω) :=
  lastMax (fun row => row.net.len) (table.rows.filter fun row => row.net.containsAddr probe)

/-- The length that `route -n get` lets one read off. A host route has no mask in the output, and
the mask of an IPv6 network does not parse as an IPv4 address. -/
def printedPrefix : IpNet → Option Nat
  | .v4 _ len => if len = 32 then none else some len
  | .v6 _ len => if len = 0 then some 0 else none

/-- `lookup`: the interface and the prefix length of the route that wins. -/
def routeLookup (table : RouteTable ω) (probe : IpAddr) : Option (String × Option Nat) :=
  match rowFor table probe with
  | none => none
  | some row =>
    if row.entry.interfaceName.isEmpty then none
    else some (row.entry.interfaceName, printedPrefix row.net)

/-- The address behind the network address. -/
def probeOf : IpNet → IpAddr
  | .v4 addr _ => .v4 (addr + 1)
  | .v6 addr _ => .v6 (addr + 1)

/-- `winning`. -/
def winningIn (table : RouteTable ω) (interface : String) (net : IpNet) : Bool :=
  (routeLookup table (probeOf net)).any fun found =>
    found.1 == interface && found.2.all fun len => net.len ≤ len

end

/-- What the client and the network interfaces have for a call. `interface` is the device with one
of Tailscale's own addresses. -/
structure ProtectCall where
  interface : Option String
  uplink : Option Uplink
  params : TailscaleProtectParams

namespace ProtectCall

variable (call : ProtectCall)

/-- `winning`, for the interface of the call. -/
def winning (table : RouteTable Component) (net : IpNet) : Bool :=
  call.interface.any fun interface => winningIn table interface net

def surroundings (w : Machine) : TailscaleSurroundings :=
  { interface := call.interface, winning := call.winning w.table, uplink := call.uplink }

/-- `protect`. The lookups come before any change of the table. -/
def protect : HelperProg Unit := do
  let env ← Call.gets call.surroundings
  guardProtect env call.params

/-- The uplink that `detect_uplink` lets pass. -/
def usableUplink : Option Uplink :=
  call.uplink.filter fun uplink => !uplink.interface.startsWith "utun"

/-- The pins of the call, needed or not. -/
def pins : List RouteOp :=
  pinOps { interface := call.interface, winning := fun _ => false, uplink := none } call.params []

def bypasses : List RouteOp :=
  guardBypasses call.usableUplink call.params.endpoints

/-- All routes that the call may want. -/
def wanted : List RouteOp := call.pins ++ call.bypasses

/-- `desired`. -/
def desired (w : Machine) : List RouteOp :=
  pinOps (call.surroundings w) call.params w.guarded ++ call.bypasses

/-- The parameters that `validate` lets pass. -/
structure Valid (call : ProtectCall) : Prop where
  selfIps : call.params.selfIps ≠ []
  fewIps : call.params.selfIps.length ≤ maxSelfIps
  ownIps : ∀ ip ∈ call.params.selfIps, tailnetV4.containsAddr ip ∨ tailnetV6.containsAddr ip
  fewEndpoints : call.params.endpoints.length ≤ maxEndpoints

end ProtectCall

/-! ### The commands of a call -/

/-- A `route` command that changes the table. -/
inductive GuardCommand where
  | add (op : RouteOp)
  | delete (op : RouteOp)
  deriving DecidableEq

/-- `keep`. -/
def keptRoutes (installed desired : List RouteOp) : List RouteOp :=
  installed.filter fun op => desired.any (sameRoute op)

/-- `stale`. -/
def staleRoutes (installed desired : List RouteOp) : List RouteOp :=
  installed.filter fun op => !desired.any (sameRoute op)

/-- `fresh`. -/
def freshRoutes (installed desired : List RouteOp) : List RouteOp :=
  desired.filter fun op => !(keptRoutes installed desired).any fun have_ => sameRoute have_ op

/-- The route commands of a call that nothing disturbs. -/
def ProtectCall.commands (call : ProtectCall) (w : Machine) : List GuardCommand :=
  (staleRoutes w.guarded (call.desired w)).reverse.map .delete ++
    (freshRoutes w.guarded (call.desired w)).map .add

/-! ### Runs -/

/-- What the helper does for the guard. -/
inductive GuardRequest where
  | protect (call : ProtectCall)
  | release
  | recover

def runGuard : GuardRequest → HelperProg Unit
  | .protect call => call.protect
  | .release => guardRelease
  | .recover => guardRecover

/-- What earlier calls come to, whatever is refused in them and whoever else is at work. The table
of the start is arbitrary. The others can remove any row, and add rows of their own. -/
inductive Reached : Machine → Prop where
  | start {w : Machine} (h : w.guarded = []) : Reached w
  | request {w : Machine} (h : Reached w) (request : GuardRequest) (gone : String → Bool)
      (vs : List (Verdict Fault)) :
      Reached (Call.restarting (Machine.restarted gone) (runGuard request) w vs).2.1
  | others {w w' : Machine} (h : Reached w) (hguarded : w'.guarded = w.guarded)
      (hrows : ∀ row ∈ w'.table, row.owner = some .tailscale → row ∈ w.table) : Reached w'

end NetOrchestrator.Macos
