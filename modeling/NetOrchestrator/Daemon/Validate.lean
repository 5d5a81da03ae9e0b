import NetOrchestrator.Daemon.Core
import NetOrchestrator.Daemon.LinkNames

/-!
# `Daemon.Validate`: request checks

The checks that a request passes before it reaches an executor. Each returns the message
of its refusal.
-/

namespace NetOrchestrator.Daemon

open Net Lib

/-- `char::is_control`. -/
def isControl (c : Char) : Bool := c.toNat ≤ 0x1f || (0x7f ≤ c.toNat && c.toNat ≤ 0x9f)

/-- `char::is_whitespace`. -/
def isWhitespace (c : Char) : Bool :=
  let n := c.toNat
  (0x9 ≤ n && n ≤ 0xd) || n == 0x20 || n == 0x85 || n == 0xa0 || n == 0x1680 ||
    (0x2000 ≤ n && n ≤ 0x200a) || n == 0x2028 || n == 0x2029 || n == 0x202f || n == 0x205f ||
    n == 0x3000

/-- `str::trim`. -/
def trim (s : String) : String :=
  String.ofList ((s.toList.dropWhile isWhitespace).reverse.dropWhile isWhitespace).reverse

def refuse (message : Message) : Except Message Unit := .error message

def validateIfaceName (name : String) : Except Message Unit :=
  if name = "" ∨ 15 < name.utf8ByteSize then refuse (.ifaceNameLength name.utf8ByteSize)
  else if name.toList.head? = some '-' then
    refuse (.text "interface name must not start with '-'")
  else if !name.toList.all (fun c => isAsciiAlphanumeric c || ['.', '_', '-'].contains c) then
    refuse (.text "interface name contains unsupported characters")
  else .ok ()

def validateOwner (owner : String) : Except Message Unit :=
  if owner = "" ∨ maxOwnerBytes < owner.utf8ByteSize then refuse (.ownerLength owner.utf8ByteSize)
  else if owner.toList.any isControl then
    refuse (.text "owner must not contain control characters")
  else .ok ()

def validateVia (route : PolicyRoute) : Except Message Unit :=
  match route.via with
  | none => .ok ()
  | some via =>
    if via.isIpv4 != route.destination.isIpv4 || via.isUnspecified || via.isMulticast then
      refuse (.viaNotUnicast via route.destination)
    else .ok ()

def validateBypass (host : String) : Except Message Unit :=
  if host = "" ∨ 253 < host.utf8ByteSize then
    refuse (.text "endpoint bypass host must be 1-253 bytes")
  else if (parseIpAddr host).isNone &&
      !host.toList.all (fun c => isAsciiAlphanumeric c || ['.', '-', '_'].contains c) then
    refuse (.bypassHost host)
  else .ok ()

/-- The first refusal, in order. -/
def firstRefusal {α : Type} (check : α → Except Message Unit) : List α → Except Message Unit
  | [] => .ok ()
  | a :: rest => do
      check a
      firstRefusal check rest

/-- The link that an attach spec names. -/
def validateAttachLink (spec : AttachSpecParams) : Except Message Unit :=
  if spec.uplink then
    if spec.interfaceName ≠ "" then refuse (.text "uplink specs do not take an interface name")
    else .ok ()
  else if spec.interfaceName ≠ "" then validateIfaceName spec.interfaceName
  else if spec.routes ≠ [] then refuse (.text "attach routes need an interface name")
  else .ok ()

def validateAttach (spec : AttachSpecParams) : Except Message Unit := do
  validateAttachLink spec
  if maxRoutesPerRequest < spec.routes.length then refuse (.tooManySpecRoutes spec.routes.length)
  else if maxEndpointBypasses < spec.endpointBypasses.length then
    refuse (.tooManyBypasses spec.endpointBypasses.length)
  else
    firstRefusal validateVia spec.routes
    firstRefusal validateBypass spec.endpointBypasses

def validateRoute (route : AppliedRoute) : Except Message Unit :=
  if route.destination.trunc ≠ route.destination then refuse (.hostBits route.destination)
  else if route.table.isSome then
    refuse (.text "routing table is chosen by the daemon, not the client")
  else if route.interfaceIndex = 0 then refuse (.noInterfaceIndex route.destination)
  else
    match route.gateway with
    | none => .ok ()
    | some gateway =>
      if gateway.family ≠ route.destination.family then
        refuse (.gatewayFamily gateway route.destination)
      else if gateway.isUnspecified || gateway.isMulticast then
        refuse (.gatewayNotUnicast gateway)
      else .ok ()

/-- The routes of one request, none of them twice. `seen` is what came before. -/
def validateRoutes : List (IpNet × Nat) → List AppliedRoute → Except Message Unit
  | _, [] => .ok ()
  | seen, route :: rest => do
      validateRoute route
      if seen.contains (route.destination, route.metric) then
        refuse (.duplicateRoute route.destination route.metric)
      else validateRoutes ((route.destination, route.metric) :: seen) rest

def validateApply (routes : List AppliedRoute) : Except Message Unit :=
  if maxRoutesPerRequest < routes.length then refuse (.tooManyRoutes routes.length)
  else validateRoutes [] routes

/-- A failed check ends the request. -/
def demand (check : Except Message Unit) : Prog Unit :=
  match check with
  | .ok () => pure ()
  | .error message => Call.throw (invalidInput message)

end NetOrchestrator.Daemon
