import NetOrchestrator.Core.OpenVpnConfig
import NetOrchestrator.Daemon.Text
import NetOrchestrator.Lib.Replace

/-!
# `Macos.RemotePins`: addresses in place of server names

The system resolver may answer with the fake addresses of another tunnel. The helper asks the
uplink's own resolvers for such a name, and writes the address that they give into the config that
OpenVPN gets.

What the resolvers answer is a parameter.
-/

namespace NetOrchestrator.Macos

open Lib Net NetOrchestrator.Core
open Daemon (isWhitespace textLines unlines)

/-- `MAX_REMOTES`. -/
def maxRemotes : Nat := 8

/-! ### The `remote` hosts -/

/-- The line begins an inline block. -/
def opensBlock (line : List Char) : Bool :=
  let line := line.dropWhile isWhitespace
  "<".toList.isPrefixOf line && !"</".toList.isPrefixOf line &&
    !"<connection".toList.isPrefixOf line

def closesBlock (line : List Char) : Bool :=
  let line := line.dropWhile isWhitespace
  "</".toList.isPrefixOf line && !"</connection".toList.isPrefixOf line

/-- The lines, each with whether it belongs to an inline block. -/
def flagged (inBlock : Bool) : List (List Char) → List (Bool × List Char)
  | [] => []
  | line :: lines =>
    if inBlock then (true, line) :: flagged (!closesBlock line) lines
    else if opensBlock line then (true, line) :: flagged true lines
    else (false, line) :: flagged false lines

/-- The host of a `remote` line. -/
def remoteHost (line : List Char) : Option String :=
  match splitWhitespace line with
  | first :: host :: _ => if first = "remote".toList then some (String.ofList host) else none
  | _ => none

/-- Remember the host of a line that is in no block, if there is room for it. -/
def pushRemote (hosts : List String) : Bool × List Char → List String
  | (true, _) => hosts
  | (false, line) =>
    match remoteHost line with
    | some host => if host ∉ hosts ∧ hosts.length < maxRemotes then hosts ++ [host] else hosts
    | none => hosts

/-- `remote_hosts`. -/
def remoteHosts (config : String) : List String :=
  (flagged false (textLines config)).foldl pushRemote []

/-! ### Pins -/

abbrev Pins := List (String × IpAddr)

/-- What `pin_remotes` makes of a line. -/
def pinLine (pinned : Pins) (line : List Char) : List Char :=
  match (remoteHost line).bind fun host => (pinned.lookup host).map (host, ·) with
  | some (host, ip) =>
    line.takeWhile isWhitespace ++
      replaceFirst host.toList (renderIp ip).toList (line.dropWhile isWhitespace)
  | none => line

/-- `pin_remotes`. -/
def pinRemotes (config : String) (pinned : Pins) : String :=
  if pinned.isEmpty then config
  else String.ofList (unlines ((textLines config).map (pinLine pinned)))

/-! ### Resolving -/

/-- `is_fake_pool`: 198.18.0.0/15. -/
def isFakePool : IpAddr → Bool
  | .v4 address => address.toNat / 2 ^ 17 == (198 * 256 + 18) / 2
  | .v6 _ => false

/-- The answers of the system resolver, and of the resolvers of the uplink. -/
structure NameAnswers where
  resolve : String → List IpAddr
  localResolvers : List IpAddr
  resolveDirect : String → List IpAddr → List IpAddr

/-- One host: its addresses, and its pin. -/
def NameAnswers.resolveRemote (answers : NameAnswers) (found : List IpAddr × Pins) (host : String) :
    List IpAddr × Pins :=
  match parseIpAddr host with
  | some ip => (found.1 ++ [ip], found.2)
  | none =>
    let (fake, real) := (answers.resolve host).partition isFakePool
    if fake.isEmpty then (found.1 ++ real, found.2)
    else
      let real := (answers.resolveDirect host answers.localResolvers).filter (!isFakePool ·)
      (found.1 ++ real, found.2 ++ real.head?.toList.map (host, ·))

/-- `resolve_remotes`: the server addresses, and the names that are pinned. -/
def NameAnswers.resolveRemotes (answers : NameAnswers) (config : String) : List IpAddr × Pins :=
  (remoteHosts config).foldl answers.resolveRemote ([], [])

end NetOrchestrator.Macos
