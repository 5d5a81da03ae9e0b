import NetOrchestrator.Core.Profiles

/-!
# `Core.ProfileFields`: the fields of a stored profile

A `Field` is what one change can set while another leaves it. The lists of references and of pinned
routes are two fields each: who is in the list, and what `sync_endpoint_refs` rewrites in it, the
names and the flags. `FieldEdit` is a change together with the fields that it sets.
-/

namespace NetOrchestrator.Core.Profiles

open Lib Core.Errors
open Daemon (NamedProxyExit)

/-- The fields of `SubscriptionMeta`. -/
inductive MetaField where
  | url | hwid | endpointCount | activeIndex | refreshIntervalMinutes | lastRefreshAtUnix
  | lastRefreshError | userInfo | providerTitle | announce | supportUrl | webPageUrl
  | updateIntervalHours | skippedProtocols | activeKey | backupKeys | backupNames
  | autoReturnPrimary | probeUrl | nodePool | poolKeys | poolNames
  deriving DecidableEq

def MetaField.Value : MetaField → Type
  | .url | .hwid => String
  | .endpointCount | .activeIndex => Nat
  | .refreshIntervalMinutes | .lastRefreshAtUnix | .updateIntervalHours => Option Nat
  | .lastRefreshError | .providerTitle | .announce | .supportUrl | .webPageUrl | .activeKey
  | .probeUrl => Option String
  | .userInfo => Option SubscriptionUserInfo
  | .autoReturnPrimary => Option Bool
  | .nodePool => Option NodePoolSettings
  | .skippedProtocols | .backupKeys | .backupNames | .poolKeys | .poolNames => List String

def MetaField.get (subscription : SubscriptionMeta) : (field : MetaField) → field.Value
  | .url => subscription.url
  | .hwid => subscription.hwid
  | .endpointCount => subscription.endpointCount
  | .activeIndex => subscription.activeIndex
  | .refreshIntervalMinutes => subscription.refreshIntervalMinutes
  | .lastRefreshAtUnix => subscription.lastRefreshAtUnix
  | .lastRefreshError => subscription.lastRefreshError
  | .userInfo => subscription.userInfo
  | .providerTitle => subscription.providerTitle
  | .announce => subscription.announce
  | .supportUrl => subscription.supportUrl
  | .webPageUrl => subscription.webPageUrl
  | .updateIntervalHours => subscription.updateIntervalHours
  | .skippedProtocols => subscription.skippedProtocols
  | .activeKey => subscription.activeKey
  | .backupKeys => subscription.backupKeys.map EndpointRef.key
  | .backupNames => subscription.backupKeys.map EndpointRef.name
  | .autoReturnPrimary => subscription.autoReturnPrimary
  | .probeUrl => subscription.probeUrl
  | .nodePool => subscription.nodePool
  | .poolKeys => subscription.poolKeys.map EndpointRef.key
  | .poolNames => subscription.poolKeys.map EndpointRef.name

/-- The fields of a profile besides its id. `subscribed` is whether it has a subscription, and
`other` is a field that is stored under its name. -/
inductive Field where
  | name | backend | configPath | pinnedPolicies | pinnedMissing | xrayProxyExits | xraySocksPort
  | xrayHttpPort | useSystemProxy | proxyBypass | xrayMode | xrayDns | subscribed
  | subscription (field : MetaField)
  | other (name : String)
  deriving DecidableEq

def Field.Value : Field → Type
  | .name | .configPath => String
  | .backend => TunnelBackend
  | .pinnedPolicies => List (List String × String)
  | .pinnedMissing => List Bool
  | .xrayProxyExits => List NamedProxyExit
  | .xraySocksPort | .xrayHttpPort => Option Nat
  | .useSystemProxy | .subscribed => Bool
  | .proxyBypass => List String
  | .xrayMode => XrayMode
  | .xrayDns => XrayDnsConfig
  | .subscription field => Option field.Value
  | .other _ => Option Json

def Field.get (profile : Profile) : (field : Field) → field.Value
  | .name => profile.name
  | .backend => profile.backend
  | .configPath => profile.configPath
  | .pinnedPolicies => profile.pinnedPolicies.map fun pinned =>
    (pinned.selectors, pinned.endpointKey)
  | .pinnedMissing => profile.pinnedPolicies.map PinnedRoute.missing
  | .xrayProxyExits => profile.xrayProxyExits
  | .xraySocksPort => profile.xraySocksPort
  | .xrayHttpPort => profile.xrayHttpPort
  | .useSystemProxy => profile.useSystemProxy
  | .proxyBypass => profile.proxyBypass
  | .xrayMode => profile.xrayMode
  | .xrayDns => profile.xrayDns
  | .subscribed => profile.subscription.isSome
  | .subscription field => profile.subscription.map fun subscription => field.get subscription
  | .other key => profile.others key

/-- Besides the fields of the list, the profiles are the same. -/
def SameBut (fields : List Field) (old new : Profile) : Prop :=
  new.id = old.id ∧ ∀ field, field ∉ fields → field.get new = field.get old

/-- A change of a stored profile, and the fields that it sets. -/
structure FieldEdit where
  update : Profile → Except IoError Profile
  fields : List Field
  sameBut : ∀ old new, update old = .ok new → SameBut fields old new

/-! ### Profiles that are the same but for some fields -/

section
variable {fields more : List Field} {old new newer : Profile}
variable (h : SameBut fields old new)
include h

theorem SameBut.id_eq : new.id = old.id := h.1

theorem SameBut.get_eq {field : Field} (hfield : field ∉ fields) :
    field.get new = field.get old := h.2 field hfield

theorem SameBut.trans (h' : SameBut more new newer) : SameBut (fields ++ more) old newer := by
  refine ⟨h'.id_eq.trans h.id_eq, ?_⟩
  intro field hfield
  rw [List.mem_append, not_or] at hfield
  rw [h'.get_eq hfield.2, h.get_eq hfield.1]

end

end NetOrchestrator.Core.Profiles
