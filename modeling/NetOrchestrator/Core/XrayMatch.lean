import NetOrchestrator.Core.XrayRouting

/-!
# `Core.XrayMatch`: which outbound Xray sends a connection to

Xray tries the rules in order. A rule matches when each of its fields does, and a field that is
missing holds. A `View` says how the fields read for one connection: which ports, networks,
domain selectors and address selectors match it. Where no rule matches, the first outbound is
taken.

`configWithProxy` is the config that a share link turns into, which rules are added to.
-/

namespace NetOrchestrator.Core

open Net Lib

/-- How the fields of rules read for one connection. -/
structure View where
  port : String → Bool
  network : String → Bool
  domain : String → Bool
  ip : String → Bool

def fieldHolds (rule : Json) (key : String) (holds : Json → Bool) : Bool :=
  match rule.get? key with
  | none => true
  | some value => holds value

variable (view : View)

def ruleMatches (rule : Json) : Bool :=
  fieldHolds rule "port" (fun value => value.asStr.any view.port) &&
    fieldHolds rule "network" (fun value => value.asStr.any view.network) &&
    fieldHolds rule "domain" (fun value => (value.asTexts.getD []).any view.domain) &&
    fieldHolds rule "ip" fun value => (value.asTexts.getD []).any view.ip

/-- The first rule that matches. -/
def firstRule (config : Json) : Option Json :=
  (rulesOf config).find? (ruleMatches view)

def outboundWithTag (config : Json) (tag : String) : Option Json :=
  (outboundsOf config).find? fun o => rawTag o = some tag

/-- The outbound of a rule, or the first one where none decides. -/
def outboundOfRule (config : Json) : Option Json → Option Json
  | some rule => (rule.text? "outboundTag").bind (outboundWithTag config)
  | none => (outboundsOf config).head?

/-- The outbound that the connection leaves through. -/
def chosenOutbound (config : Json) : Option Json :=
  outboundOfRule config (firstRule view config)

/-! ### Names that are resolved -/

/-- The view of a name before it is resolved. -/
def View.unresolved : View := { view with ip := fun _ => false }

/-- The rule that decides for a name. The view is that of the name with its address. -/
def resolvedRule (strategy : XrayDomainStrategy) (view : View) (config : Json) : Option Json :=
  match strategy with
  | .asIs => firstRule view.unresolved config
  | .ipIfNonMatch => (firstRule view.unresolved config).or (firstRule view config)
  | .ipOnDemand => firstRule view config

def chosenResolved (strategy : XrayDomainStrategy) (view : View) (config : Json) : Option Json :=
  outboundOfRule config (resolvedRule strategy view config)

/-! ### Share links -/

def directOutbound : Json := .object [("protocol", .str "freedom"), ("tag", .str "direct")]

/-- `config_with_proxy`. -/
def configWithProxy (proxy : Json) (socksPort : Nat) : Json :=
  .object [("log", .object [("loglevel", .str "warning")]),
    ("inbounds", .arr [.object [("tag", .str "socks-in"), ("listen", .str "127.0.0.1"),
      ("port", .nat socksPort), ("protocol", .str "socks"),
      ("settings", .object [("udp", .bool true)])]]),
    ("outbounds", .arr [proxy, directOutbound]),
    ("routing", .object [("domainStrategy", .str "AsIs"), ("rules", .arr [])])]

/-- The outbound that a share link turns into. -/
structure ShareLink (proxy : Json) : Prop where
  tag : rawTag proxy = some "proxy"
  eligible : eligibleProxy proxy = true

variable (proxy : Json) (socksPort : Nat)

theorem outboundsOf_configWithProxy :
    outboundsOf (configWithProxy proxy socksPort) = [proxy, directOutbound] := by
  simp [outboundsOf, configWithProxy, Json.object, getField_insertField]

theorem rulesOf_configWithProxy : rulesOf (configWithProxy proxy socksPort) = [] := by
  simp [rulesOf, configWithProxy, Json.object]

/-! ### What the rules of a profile match -/

section
variable {view : View}

/-- The tag of a rule does not say what it matches. -/
@[simp]
theorem ruleMatches_tag (fields : List (String × Json)) (tag : String) :
    ruleMatches view (.obj (insertField "outboundTag" (.str tag) fields)) =
      ruleMatches view (.obj fields) := by
  simp [ruleMatches, fieldHolds, getField_insertField]

theorem ruleMatches_domainRule (domains : List String) (tag : String) :
    ruleMatches view (domainRule domains tag) = domains.any view.domain := by
  simp [ruleMatches, fieldHolds, domainRule, Json.object, getField_insertField, getField,
    Json.asTexts_texts]

end

end NetOrchestrator.Core
