import NetOrchestrator.Core.XrayRouting

/-!
# `Core.Multinode`: failover nodes and pinned routes in a config

`apply_multinode_config` rewrites a config for several nodes. The first outbound is retagged as
the primary node, backups and pinned nodes are added, the rules that named the first outbound
are handed to the balancer, and the rules of the pinned routes go in behind the leading rules
that ask for a port.
-/

namespace NetOrchestrator.Core

open Lib

structure PinnedOutbound where
  key : String
  /-- `none` where the endpoint left the subscription. -/
  outbound : Option Json
  selectors : List String
  deriving DecidableEq

def unavailableTag : String := "unavailable"

def failoverBalancer : String := "failover"

/-- `value["tag"] = tag`. -/
def retag (outbound : Json) (tag : String) : Except XrayError Json :=
  match outbound.put "tag" (.str tag) with
  | some outbound => .ok outbound
  | none => .error .panics

def backupOutbounds (backups : List (String × Json)) : Except XrayError (List Json) :=
  backups.mapM fun backup => retag backup.2 (nodeTag backup.1)

/-- The outbound of a pinned route, which drops everything where the endpoint is gone. -/
def pinOutbound (route : PinnedOutbound) : Except XrayError Json :=
  match route.outbound with
  | some outbound => retag outbound (pinTag route.key)
  | none => .ok (.object [("tag", .str (pinTag route.key)), ("protocol", .str "blackhole")])

/-- One outbound for each key. Routes with one key must agree on it. -/
def pinOutbounds : List PinnedOutbound → List (String × Option Json) → Except XrayError (List Json)
  | [], _ => .ok []
  | route :: rest, seen =>
    match seen.lookup route.key with
    | some previous =>
      if previous = route.outbound then pinOutbounds rest seen
      else .error (.invalidData "conflicting outbounds for a pinned endpoint")
    | none => do
        let outbound ← pinOutbound route
        let rest ← pinOutbounds rest (seen ++ [(route.key, route.outbound)])
        .ok (outbound :: rest)

def pinRules (pinned : List PinnedOutbound) : List Json :=
  pinned.filterMap fun route =>
    if route.selectors.isEmpty then none else some (domainRule route.selectors (pinTag route.key))

/-- A rule that named the primary outbound follows the balancer. -/
def toBalancer (primaryTag : String) (rule : Json) : Json :=
  if rule.text? "outboundTag" = some primaryTag then
    match rule with
    | .obj fields =>
      .obj (insertField "balancerTag" (.str failoverBalancer) (eraseField "outboundTag" fields))
    | rule => rule
  else rule

/-- The pins go behind the leading rules that ask for a port. -/
def splicePins (pins rules : List Json) : List Json :=
  let guardCount := (rules.takeWhile fun rule => (rule.get? "port").isSome).length
  rules.take guardCount ++ pins ++ rules.drop guardCount

/-- `config["outbounds"].as_array_mut()`, of which the config's `null` is an object. -/
def multinodeOutbounds (config : Json) : Except XrayError (List Json) :=
  match config with
  | .obj fields =>
    match (getField "outbounds" fields).bind Json.asArray with
    | some outbounds => .ok outbounds
    | none => .error (.invalidData "xray config outbounds must be an array")
  | .null => .error (.invalidData "xray config outbounds must be an array")
  | _ => .error .panics

/-- The retagged outbounds, and the old tag of the first. -/
def retagPrimary (primaryKey : String) : List Json → Except XrayError (List Json × String)
  | [] => .error (.invalidData "xray config has no outbounds")
  | primary :: rest =>
    match rawTag primary with
    | none => .error (.invalidData "xray primary outbound has no tag")
    | some tag => do
        let primary ← retag primary (nodeTag primaryKey)
        .ok (primary :: rest, tag)

def multinodeRouting (config : Json) : Except XrayError (List (String × Json)) :=
  match (config.get? "routing").bind Json.asObject with
  | some routing => .ok routing
  | none => .error (.invalidData "xray config routing must be an object")

def multinodeRules (routing : List (String × Json)) : Except XrayError (List Json) :=
  match ((getField "rules" routing).getD (.arr [])).asArray with
  | some rules => .ok rules
  | none => .error (.invalidData "xray config routing rules must be an array")

def balancers : Json :=
  .arr [.object [("tag", .str failoverBalancer), ("selector", .texts [unavailableTag])]]

def applyMultinodeConfig (base : Json) (primaryKey : String) (backups : List (String × Json))
    (pinned : List PinnedOutbound) : Except XrayError Json := do
  let outbounds ← multinodeOutbounds base
  let (nodes, primaryTag) ← retagPrimary primaryKey outbounds
  let backups ← backupOutbounds backups
  let pins ← pinOutbounds pinned []
  let routing ← multinodeRouting base
  let rules ← multinodeRules routing
  let rules := splicePins (pinRules pinned) (rules.map (toBalancer primaryTag))
  let routing := insertField "balancers" balancers (insertField "rules" (.arr rules) routing)
  .ok (.obj (insertField "routing" (.obj routing)
    (insertField "outbounds" (.arr (nodes ++ backups ++ pins)) (base.asObject.getD []))))

end NetOrchestrator.Core
