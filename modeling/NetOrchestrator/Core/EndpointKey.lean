import Mathlib.Data.List.DropRight
import Mathlib.Data.List.Sort
import NetOrchestrator.Core.Profiles

/-!
# `Core.EndpointKey`: which server an entry of a subscription is

An entry is a share link or a whole config behind a prefix. `endpointKey` is what is kept of it
across refreshes: a digest of the scheme, the host and the sorted parameters of a link, and of the
identity that `xray_json_identity` finds in a config. The user part and the name of a link are no
part of it.
-/

namespace NetOrchestrator.Core.Profiles

open Daemon (trim stripPrefix)

structure SubscriptionEndpoint where
  url : String
  name : String
  deriving DecidableEq

/-- `digest` is the first half of a SHA-256 digest in hex. -/
structure KeyCrates where
  digest : String → String
  xrayJsonIdentity : String → Option String

/-- `XRAY_JSON_PREFIX`. -/
def xrayJsonPrefix : String := "xray-json:"

/-- `split_once`: what stands before and behind the first occurrence. -/
def splitOnce (separator : List Char) : List Char → Option (List Char × List Char)
  | [] => if separator.isEmpty then some ([], []) else none
  | c :: rest =>
    if separator.isPrefixOf (c :: rest) then some ([], (c :: rest).drop separator.length)
    else (splitOnce separator rest).map fun parts => (c :: parts.1, parts.2)

/-- Up to the first occurrence of the character, or everything. -/
def before (c : Char) (text : List Char) : List Char := text.takeWhile (· != c)

/-- Behind the first occurrence of the character, or nothing. -/
def behind (c : Char) (text : List Char) : List Char := (text.dropWhile (· != c)).drop 1

/-- Behind the last occurrence of the character, or everything. -/
def behindLast (c : Char) (text : List Char) : List Char := text.rtakeWhile (· != c)

/-- The parameters of a query, sorted. -/
def sortedParams (query : List Char) : List String :=
  (((query.splitOn '&').filter fun part => part != []).map String.ofList).insertionSort (· ≤ ·)

/-- What a share link is known by. -/
def linkIdentity (scheme rest : List Char) : String :=
  let link := before '#' rest
  let host := behindLast '@' (before '?' link)
  String.ofList (scheme.map Char.toLower) ++ "|" ++ String.ofList (host.map Char.toLower) ++ "|" ++
    "&".intercalate (sortedParams (behind '?' link))

variable (crates : KeyCrates)

/-- `endpoint_key`. -/
def endpointKey (url : String) : String :=
  let trimmed := trim url
  match stripPrefix xrayJsonPrefix trimmed with
  | some _ => crates.digest ((crates.xrayJsonIdentity trimmed).getD trimmed)
  | none =>
    match splitOnce "://".toList trimmed.toList with
    | none => crates.digest trimmed
    | some (scheme, rest) => crates.digest (linkIdentity scheme rest)

/-- `key_index`: the first endpoint with the key. -/
def keyIndex (endpoints : List SubscriptionEndpoint) (key : String) : Option Nat :=
  endpoints.findIdx? fun endpoint => endpointKey crates endpoint.url == key

/-- `stored_active_key`: the key of the primary, where one is stored that looks like a key. -/
def storedActiveKey (profile : Profile) : Option String :=
  (profile.subscription.bind fun subscription => subscription.activeKey).filter fun key =>
    validEndpointKey key

end NetOrchestrator.Core.Profiles
