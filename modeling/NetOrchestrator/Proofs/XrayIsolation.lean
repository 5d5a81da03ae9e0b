import NetOrchestrator.Proofs.XrayPrepared

/-!
# `Proofs.XrayIsolation`: control traffic apart from the client's

A prepared config mixes what the client sent with the daemon's own listeners and rules. A
`Listener` is an inbound by its kind and key, and `Listener.tag_injective` keeps the tags apart:
no start of a tag is the start of another kind's.

The injected rules each serve some listeners, and no listener is served twice
(`Injected.unique`). They stand in front, so that the first rule that a connection by such a
listener meets is its own (`Injected.decides`). The ports are counted from the slot of the mark
in four ranges (`PreparedFrom.listenerPorts_eq`).
-/

namespace NetOrchestrator.Daemon

open Net Lib List Nat
open NetOrchestrator.Core (outboundsOf rulesOf rawTag protocolOf nodeTag pinTag)

/-! ### Connections -/

/-- A connection: the tag of the inbound that it enters by, and how the other fields of a rule
read for it. -/
structure Connection where
  inbound : String
  reads : String → Json → Bool

/-- A rule is met when each of its fields holds. -/
def Connection.meets (c : Connection) (rule : Json) : Bool :=
  (optionally rule "inboundTag" fun tags => (tags.asTexts.getD []).contains c.inbound) &&
    ["domain", "ip", "port", "network"].all fun key => optionally rule key (c.reads key)

/-- The first rule that a connection meets. -/
def decidingRule (config : Json) (c : Connection) : Option Json := (rulesOf config).find? c.meets

variable {port mark index : Nat}

theorem meets_forcedRule (c : Connection) (inbounds : List String) {field : String}
    (target : String) (hfield : field = "outboundTag" ∨ field = "balancerTag") :
    c.meets (forcedRule inbounds field target) = inbounds.contains c.inbound := by
  rcases hfield with rfl | rfl <;>
    simp [Connection.meets, optionally, forcedRule, Json.object, getField_insertField, getField,
      Json.asTexts_texts]

/-! ### Listeners -/

inductive ListenerKind where
  | tun
  | api
  | probe
  | pinProbe
  | socks
  | http
  deriving DecidableEq

/-- What the tags of a kind start with. There is one TUN link and one API listener, without a
key. -/
def ListenerKind.start : ListenerKind → String
  | .tun => "tun-in"
  | .api => "api-in"
  | .probe => "probe-"
  | .pinProbe => "pin-probe-"
  | .socks => "proxy-socks-"
  | .http => "proxy-http-"

theorem ListenerKind.eq_of_isPrefixOf {a b : ListenerKind}
    (h : a.start.toList.isPrefixOf b.start.toList = true) : a = b := by
  revert h
  cases a <;> cases b <;> decide

structure Listener where
  kind : ListenerKind
  key : String
  deriving DecidableEq

namespace Listener

def tag (listener : Listener) : String := listener.kind.start ++ listener.key

theorem tag_injective {a b : Listener} (h : a.tag = b.tag) : a = b := by
  have hlist : a.kind.start.toList ++ a.key.toList = b.kind.start.toList ++ b.key.toList := by
    rw [← String.toList_append, ← String.toList_append]
    exact congrArg String.toList h
  -- One start is a prefix of the other, and then they are the same.
  have hkind : a.kind = b.kind := by
    have ha : a.kind.start.toList <+: b.kind.start.toList ++ b.key.toList :=
      hlist ▸ prefix_append _ _
    rcases prefix_or_prefix_of_prefix ha (prefix_append _ _) with hpre | hpre
    · exact ListenerKind.eq_of_isPrefixOf (List.isPrefixOf_iff_prefix.mpr hpre)
    · exact (ListenerKind.eq_of_isPrefixOf (List.isPrefixOf_iff_prefix.mpr hpre)).symm
  rw [hkind] at hlist
  have hkey : a.key = b.key := String.toList_inj.mp (append_cancel_left hlist)
  cases a
  cases b
  cases hkind
  cases hkey
  rfl

end Listener

/-! ### The inbounds of a plan -/

namespace PreparedXray

def nodes (plan : PreparedXray) : List String :=
  (plan.failover.map fun failover => failover.nodes).getD []

/-- The inbounds of a plan, in order. -/
def listeners (plan : PreparedXray) : List Listener :=
  [⟨.tun, ""⟩, ⟨.api, ""⟩] ++ plan.nodes.map (Listener.mk .probe) ++
    plan.pinnedKeys.map (Listener.mk .pinProbe) ++
    plan.proxyExits.flatMap fun exit => [⟨.socks, exit.name⟩, ⟨.http, exit.name⟩]

/-- The rules that stand in front of the client's. -/
def injectedRules (plan : PreparedXray) : List Json :=
  plan.proxyExits.filterMap exitRule ++ controlRules plan.nodes plan.pinnedKeys

end PreparedXray

/-- The ports that the inbounds of a config listen on. -/
def listenerPorts (config : Json) : List Nat :=
  (inboundsOf config).filterMap fun inbound => (inbound.index "port").asU64

/-- A rule of the daemon's with the listeners that it serves. -/
inductive Injected (plan : PreparedXray) : List Listener → Json → Prop where
  | exit {exit : ProxyExitBinding} {rule : Json} (hexit : exit ∈ plan.proxyExits)
      (hrule : exitRule exit = some rule) :
      Injected plan [⟨.socks, exit.name⟩, ⟨.http, exit.name⟩] rule
  | api : Injected plan [⟨.api, ""⟩] (forcedRule ["api-in"] "outboundTag" "api")
  | probe {key : String} (hkey : key ∈ plan.nodes) :
      Injected plan [⟨.probe, key⟩] (forcedRule [probeTag key] "outboundTag" (nodeTag key))
  | pinProbe {key : String} (hkey : key ∈ plan.pinnedKeys) :
      Injected plan [⟨.pinProbe, key⟩] (forcedRule [pinProbeTag key] "outboundTag" (pinTag key))

section
variable {plan : PreparedXray} {listeners listeners' : List Listener} {rule rule' : Json}
  {listener : Listener} {c : Connection}

theorem mem_injectedRules :
    rule ∈ plan.injectedRules ↔ ∃ listeners, Injected plan listeners rule := by
  simp only [PreparedXray.injectedRules, controlRules, mem_append, mem_filterMap, mem_cons, mem_map]
  constructor
  · rintro (⟨exit, hexit, hrule⟩ | (rfl | ⟨key, hkey, rfl⟩) | ⟨key, hkey, rfl⟩)
    · exact ⟨_, .exit hexit hrule⟩
    · exact ⟨_, .api⟩
    · exact ⟨_, .probe hkey⟩
    · exact ⟨_, .pinProbe hkey⟩
  · rintro ⟨listeners, h⟩
    cases h with
    | exit hexit hrule => exact .inl ⟨_, hexit, hrule⟩
    | api => exact .inr (.inl (.inl rfl))
    | probe hkey => exact .inr (.inl (.inr ⟨_, hkey, rfl⟩))
    | pinProbe hkey => exact .inr (.inr ⟨_, hkey, rfl⟩)

theorem meets_exitRule {exit : ProxyExitBinding} (hrule : exitRule exit = some rule) :
    c.meets rule = [exitSocksTag exit.name, exitHttpTag exit.name].contains c.inbound := by
  unfold exitRule at hrule
  cases htarget : exit.target with
  | rules =>
    rw [htarget] at hrule
    cases hrule
  | node key =>
    rw [htarget] at hrule
    cases hrule
    exact meets_forcedRule c _ _ (.inl rfl)
  | pool keys =>
    rw [htarget] at hrule
    cases hrule
    exact meets_forcedRule c _ _ (.inr rfl)
  | direct =>
    rw [htarget] at hrule
    cases hrule
    exact meets_forcedRule c _ _ (.inl rfl)

/-- An injected rule is met by what enters through its listeners, and by nothing else. -/
theorem Injected.meets_iff (h : Injected plan listeners rule) :
    c.meets rule = true ↔ ∃ listener ∈ listeners, c.inbound = listener.tag := by
  cases h with
  | exit hexit hrule =>
    rw [meets_exitRule hrule]
    simp [Listener.tag, ListenerKind.start, exitSocksTag, exitHttpTag]
  | api =>
    rw [meets_forcedRule c _ _ (.inl rfl)]
    simp [Listener.tag, ListenerKind.start]
  | probe hkey =>
    rw [meets_forcedRule c _ _ (.inl rfl)]
    simp [Listener.tag, ListenerKind.start, probeTag]
  | pinProbe hkey =>
    rw [meets_forcedRule c _ _ (.inl rfl)]
    simp [Listener.tag, ListenerKind.start, pinProbeTag]

variable (hnames : (plan.proxyExits.map ProxyExitBinding.name).Nodup)
  (h : Injected plan listeners rule)
include hnames h

/-- No listener is served by two rules. -/
theorem Injected.unique (h' : Injected plan listeners' rule') (hmem : listener ∈ listeners)
    (hmem' : listener ∈ listeners') : rule' = rule := by
  cases h with
  | @exit exit _ hexit hrule =>
    cases h' with
    | @exit exit' _ hexit' hrule' =>
      have hname : exit'.name = exit.name := by
        simp only [mem_cons, not_mem_nil, or_false] at hmem hmem'
        rcases hmem with rfl | rfl <;> simpa [eq_comm] using hmem'
      have hsame : exit' = exit := inj_on_of_nodup_map hnames hexit' hexit hname
      rw [hsame, hrule] at hrule'
      exact (Option.some.inj hrule').symm
    | api | probe | pinProbe => simp_all
  | api => cases h' <;> simp_all
  | probe => cases h' <;> simp_all
  | pinProbe => cases h' <;> simp_all

/-- What enters through a listener meets the rule of the listener before any other. -/
theorem Injected.decides (hmem : listener ∈ listeners) (hinbound : c.inbound = listener.tag) :
    plan.injectedRules.find? c.meets = some rule := by
  have hmeets : c.meets rule = true := h.meets_iff.mpr ⟨listener, hmem, hinbound⟩
  have hfound : (plan.injectedRules.find? c.meets).isSome = true :=
    find?_isSome.mpr ⟨rule, mem_injectedRules.mpr ⟨listeners, h⟩, hmeets⟩
  obtain ⟨first, hfirst⟩ := Option.isSome_iff_exists.mp hfound
  obtain ⟨listeners', h'⟩ := mem_injectedRules.mp (mem_of_find?_eq_some hfirst)
  obtain ⟨listener', hmem', hinbound'⟩ := h'.meets_iff.mp (find?_some hfirst)
  have hsame : listener = listener' := Listener.tag_injective (hinbound.symm.trans hinbound')
  rw [hfirst, h.unique hnames h' hmem (hsame ▸ hmem')]

end

/-! ### The inbounds of a prepared config -/

/-- The port that an inbound listens on. -/
def portOf (inbound : Json) : Option Nat := (inbound.index "port").asU64

theorem asU64_nat {n : Nat} (h : n < 2 ^ 64) : (Json.nat n).asU64 = some n := by
  have hbound : (n : Int) < 2 ^ 64 := by exact_mod_cast h
  rw [Json.nat, Json.asU64, if_pos ⟨Int.natCast_nonneg n, hbound⟩, Int.toNat_natCast]

/-- A listener on loopback with its tag and its port. -/
structure Loopback (inbound : Json) (tag : String) (port : Nat) : Prop where
  tag_eq : rawTag inbound = some tag
  port_eq : portOf inbound = some port
  listen_eq : inbound.text? "listen" = some "127.0.0.1"

theorem loopback_exitInbound (tag protocol : String) (hport : port < 2 ^ 16)
    (settings : Json) : Loopback (exitInbound tag protocol port settings) tag port := by
  have hport' := asU64_nat (show port < 2 ^ 64 by omega)
  constructor <;> simp [rawTag, portOf, exitInbound, Json.object, getField_insertField, hport']

theorem loopback_probeInbound (tag : String) (hport : port < 2 ^ 16) :
    Loopback (probeInbound tag port) tag port := by
  have hport' := asU64_nat (show port < 2 ^ 64 by omega)
  constructor <;> simp [rawTag, portOf, probeInbound, Json.object, getField_insertField, hport']

theorem loopback_apiInbound (hport : port < 2 ^ 16) : Loopback (apiInbound port) "api-in" port := by
  have hport' := asU64_nat (show port < 2 ^ 64 by omega)
  constructor <;> simp [rawTag, portOf, apiInbound, Json.object, getField_insertField, hport']

/-! ### Ports -/

theorem portSlot_le (mark : Nat) : portSlot mark ≤ 127 := min_le_right _ _

theorem xrayApiPort_eq (mark : Nat) : xrayApiPort mark = 10185 + portSlot mark := by
  have hslot := portSlot_le mark
  rw [xrayApiPort, portOr, if_pos (by omega)]

theorem xrayProbePort_eq (hindex : index < 8) :
    xrayProbePort mark index = 11185 + portSlot mark * 8 + index := by
  have hslot := portSlot_le mark
  rw [xrayProbePort, portOr, min_eq_left (by omega), if_pos (by omega)]

theorem xrayPinProbePort_eq (hindex : index < 33) :
    xrayPinProbePort mark index = 13000 + portSlot mark * 40 + index := by
  have hslot := portSlot_le mark
  rw [xrayPinProbePort, min_eq_left (by omega), mod_eq_of_lt (by omega)]

theorem exitPorts_eq (hindex : index < 16) : exitPorts mark index =
      (24000 + portSlot mark * 32 + index * 2, 24000 + portSlot mark * 32 + index * 2 + 1) := by
  have hslot := portSlot_le mark
  rw [exitPorts, mod_eq_of_lt (by omega), mod_eq_of_lt (by omega)]

/-- The ports of a plan with so many nodes, pins and exits. -/
def planPorts (mark nodes pins exits : Nat) : List Nat :=
  xrayApiPort mark :: (List.range nodes).map (xrayProbePort mark) ++
    (List.range pins).map (xrayPinProbePort mark) ++
    (List.range exits).flatMap fun index => [(exitPorts mark index).1, (exitPorts mark index).2]

section
variable {mark nodes pins exits port : Nat}

/-- Each range keeps a stride for every slot. -/
def SlotPort (slot port : Nat) : Prop :=
  port = 10185 + slot ∨ (11185 + slot * 8 ≤ port ∧ port < 11185 + slot * 8 + 8) ∨
    (13000 + slot * 40 ≤ port ∧ port < 13000 + slot * 40 + 33) ∨
    (24000 + slot * 32 ≤ port ∧ port < 24000 + slot * 32 + 32)

theorem slotPort_of_mem (hnodes : nodes ≤ 8) (hpins : pins ≤ 33) (hexits : exits ≤ 16)
    (h : port ∈ planPorts mark nodes pins exits) : SlotPort (portSlot mark) port := by
  unfold SlotPort
  simp only [planPorts, mem_append, mem_cons, mem_map, mem_flatMap,
    mem_range, not_mem_nil, or_false] at h
  rcases h with ((hport | ⟨index, hindex, hport⟩) | ⟨index, hindex, hport⟩) | ⟨index, hindex, hport⟩
  · rw [xrayApiPort_eq] at hport
    omega
  · rw [xrayProbePort_eq (by omega)] at hport
    omega
  · rw [xrayPinProbePort_eq (by omega)] at hport
    omega
  · rw [exitPorts_eq (by omega)] at hport
    omega

/-- Two slots share no port: each range is used up to slot 127 and ends before the next. -/
theorem SlotPort.slot_eq {slot slot' : Nat} (hslot : slot ≤ 127) (hslot' : slot' ≤ 127)
    (h : SlotPort slot port) (h' : SlotPort slot' port) : slot = slot' := by
  unfold SlotPort at h h'
  omega

/-- A range whose numbers differ from each other. -/
theorem nodup_map_range {f : Nat → Nat} {count : Nat}
    (hf : ∀ i < count, ∀ j < count, f i = f j → i = j) : ((List.range count).map f).Nodup := by
  refine List.Nodup.map_on (fun i hi j hj h => ?_) nodup_range
  rw [mem_range] at hi hj
  exact hf i hi j hj h

theorem nodup_exitPorts (hexits : exits ≤ 16) : ((List.range exits).flatMap fun index =>
      [(exitPorts mark index).1, (exitPorts mark index).2]).Nodup := by
  rw [nodup_flatMap]
  constructor
  · intro i hi
    rw [mem_range] at hi
    rw [exitPorts_eq (by omega)]
    simp
  · have hsorted : (List.range exits).Pairwise (· < ·) := pairwise_lt_range
    refine hsorted.imp_of_mem fun {i j} hi hj hlt => ?_
    rw [mem_range] at hi hj
    intro port hport hport'
    dsimp only at hport hport'
    rw [exitPorts_eq (show i < 16 by omega)] at hport
    rw [exitPorts_eq (show j < 16 by omega)] at hport'
    simp only [mem_cons, not_mem_nil, or_false] at hport hport'
    omega

theorem nodup_planPorts (hnodes : nodes ≤ 8) (hpins : pins ≤ 33) (hexits : exits ≤ 16) :
    (planPorts mark nodes pins exits).Nodup := by
  have hslot := portSlot_le mark
  have hprobes : ((List.range nodes).map (xrayProbePort mark)).Nodup := by
    refine nodup_map_range fun i hi j hj h => ?_
    rw [xrayProbePort_eq (by omega), xrayProbePort_eq (by omega)] at h
    omega
  have hpinned : ((List.range pins).map (xrayPinProbePort mark)).Nodup := by
    refine nodup_map_range fun i hi j hj h => ?_
    rw [xrayPinProbePort_eq (by omega), xrayPinProbePort_eq (by omega)] at h
    omega
  -- The four ranges lie one behind the other.
  have hprobe : ∀ port ∈ (List.range nodes).map (xrayProbePort mark),
      11185 ≤ port ∧ port < 13000 := by
    intro port hport
    obtain ⟨index, hindex, rfl⟩ := mem_map.mp hport
    rw [mem_range] at hindex
    rw [xrayProbePort_eq (by omega)]
    omega
  have hpin : ∀ port ∈ (List.range pins).map (xrayPinProbePort mark),
      13000 ≤ port ∧ port < 24000 := by
    intro port hport
    obtain ⟨index, hindex, rfl⟩ := mem_map.mp hport
    rw [mem_range] at hindex
    rw [xrayPinProbePort_eq (by omega)]
    omega
  have hexit : ∀ port ∈ (List.range exits).flatMap fun index =>
      [(exitPorts mark index).1, (exitPorts mark index).2], 24000 ≤ port := by
    intro port hport
    obtain ⟨index, hindex, hport⟩ := mem_flatMap.mp hport
    rw [mem_range] at hindex
    rw [exitPorts_eq (by omega)] at hport
    simp only [mem_cons, not_mem_nil, or_false] at hport
    omega
  have hapi := xrayApiPort_eq mark
  rw [planPorts, nodup_append, nodup_append, nodup_cons]
  refine ⟨⟨⟨fun hmem => ?_, hprobes⟩, hpinned, fun a ha b hb => ?_⟩, nodup_exitPorts hexits,
    fun a ha b hb => ?_⟩
  · have hrange := hprobe _ hmem
    omega
  · have hrange := hpin b hb
    rcases mem_cons.mp ha with ha | ha
    · omega
    · have hrange' := hprobe a ha
      omega
  · have hrange := hexit b hb
    rcases mem_append.mp ha with ha | ha
    · rcases mem_cons.mp ha with ha | ha
      · omega
      · have hrange' := hprobe a ha
        omega
    · have hrange' := hpin a ha
      omega

end

/-! ### The inbounds of a prepared config -/

section
variable {plan : PreparedXray} {mark : Nat}

theorem xrayApiPort_lt (mark : Nat) : xrayApiPort mark < 2 ^ 16 := by
  have hslot := portSlot_le mark
  rw [xrayApiPort_eq]
  omega

theorem xrayProbePort_lt (mark index : Nat) : xrayProbePort mark index < 2 ^ 16 := by
  rw [xrayProbePort, portOr]
  split
  · assumption
  · decide

theorem xrayPinProbePort_lt (mark index : Nat) : xrayPinProbePort mark index < 2 ^ 16 :=
  mod_lt _ (by decide)

theorem exitPorts_lt (mark index : Nat) :
    (exitPorts mark index).1 < 2 ^ 16 ∧ (exitPorts mark index).2 < 2 ^ 16 :=
  ⟨mod_lt _ (by decide), mod_lt _ (by decide)⟩

/-- A run of listeners, with their tags and their ports. -/
structure Listening (inbounds : List Json) (listeners : List Listener) (ports : List Nat) : Prop where
  tags : inbounds.map rawTag = listeners.map fun listener => some listener.tag
  ports : inbounds.map portOf = ports.map some
  loopback : ∀ inbound ∈ inbounds, inbound.text? "listen" = some "127.0.0.1"

theorem Listening.append {inbounds inbounds' : List Json} {listeners listeners' : List Listener}
    {ports ports' : List Nat} (h : Listening inbounds listeners ports)
    (h' : Listening inbounds' listeners' ports') :
    Listening (inbounds ++ inbounds') (listeners ++ listeners') (ports ++ ports') where
  tags := by rw [map_append, map_append, h.tags, h'.tags]
  ports := by rw [map_append, map_append, h.ports, h'.ports]
  loopback := by
    intro inbound hmem
    rcases mem_append.mp hmem with hmem | hmem
    · exact h.loopback inbound hmem
    · exact h'.loopback inbound hmem

theorem Listening.single {inbound : Json} {listener : Listener} {port : Nat}
    (h : Loopback inbound listener.tag port) : Listening [inbound] [listener] [port] where
  tags := by simp [h.tag_eq]
  ports := by simp [h.port_eq]
  loopback := by simp [h.listen_eq]

/-- Listeners that are counted from a number on. -/
theorem Listening.counted {α : Type} {inboundsAt : Nat → α → List Json}
    {listenersOf : α → List Listener} {portsAt : Nat → List Nat}
    (h : ∀ index a, Listening (inboundsAt index a) (listenersOf a) (portsAt index)) (l : List α)
    (start : Nat) :
    Listening (l.mapIdx fun index a => inboundsAt (start + index) a).flatten (l.flatMap listenersOf)
      ((List.range l.length).flatMap fun index => portsAt (start + index)) := by
  induction l generalizing start with
  | nil => exact ⟨rfl, rfl, by simp⟩
  | cons a rest ih =>
    have hrest := ih (start + 1)
    simp only [add_assoc, add_comm 1] at hrest
    rw [mapIdx_cons, flatten_cons, flatMap_cons, length_cons,
      range_succ_eq_map, flatMap_cons, flatMap_map]
    exact (h start a).append hrest

/-- Single listeners that are counted. -/
theorem Listening.map {α : Type} {inboundAt : Nat → α → Json} {listenerOf : α → Listener}
    {portAt : Nat → Nat}
    (h : ∀ index a, Loopback (inboundAt index a) (listenerOf a).tag (portAt index)) (l : List α) :
    Listening (l.mapIdx inboundAt) (l.map listenerOf) ((List.range l.length).map portAt) := by
  have hall := Listening.counted (fun index a => Listening.single (h index a)) l 0
  simp only [zero_add, ← map_eq_flatMap] at hall
  have hflat : (l.mapIdx fun index a => [inboundAt index a]).flatten = l.mapIdx inboundAt := by
    clear h hall
    induction l generalizing inboundAt with
    | nil => rfl
    | cons a rest ih =>
      have hrest := @ih fun index => inboundAt (index + 1)
      rw [mapIdx_cons, mapIdx_cons, flatten_cons, hrest]
      rfl
  rw [hflat] at hall
  exact hall

theorem listening_exits (mark : Nat) (exits : List ProxyExitBinding) :
    Listening (exits.mapIdx (exitInbounds mark)).flatten
      (exits.flatMap fun exit => [⟨.socks, exit.name⟩, ⟨.http, exit.name⟩])
      ((List.range exits.length).flatMap fun index =>
        [(exitPorts mark index).1, (exitPorts mark index).2]) := by
  have hpair : ∀ index (exit : ProxyExitBinding),
      Listening (exitInbounds mark index exit) [⟨.socks, exit.name⟩, ⟨.http, exit.name⟩]
        [(exitPorts mark index).1, (exitPorts mark index).2] := by
    intro index exit
    obtain ⟨hsocks, hhttp⟩ := exitPorts_lt mark index
    have hsocks : Loopback _ (Listener.mk .socks exit.name).tag _ :=
      loopback_exitInbound (exitSocksTag exit.name) "socks" hsocks (.object [("udp", .bool false)])
    have hhttp : Loopback _ (Listener.mk .http exit.name).tag _ :=
      loopback_exitInbound (exitHttpTag exit.name) "http" hhttp (.object [])
    exact (Listening.single hsocks).append (Listening.single hhttp)
  simpa using Listening.counted hpair exits 0

/-- What is known of an accepted request's listeners. -/
structure PreparedXray.Within (plan : PreparedXray) : Prop where
  nodes : plan.nodes.Nodup ∧ plan.nodes.length ≤ 8
  pinned : plan.pinnedKeys.Nodup ∧ plan.pinnedKeys.length ≤ 33
  exits : (plan.proxyExits.map ProxyExitBinding.name).Nodup ∧ plan.proxyExits.length ≤ 16

/-- The listeners behind the TUN link. -/
theorem listening_controlInbounds (mark : Nat) (nodes pinned : List String)
    (exits : List ProxyExitBinding) (tun : Json) :
    ∃ rest, controlInbounds mark nodes pinned tun ++ (exits.mapIdx (exitInbounds mark)).flatten =
        tun :: rest ∧
      Listening rest
        (⟨.api, ""⟩ :: nodes.map (Listener.mk .probe) ++ pinned.map (Listener.mk .pinProbe) ++
          exits.flatMap fun exit => [⟨.socks, exit.name⟩, ⟨.http, exit.name⟩])
        (planPorts mark nodes.length pinned.length exits.length) := by
  have hapi : Loopback _ (Listener.mk .api "").tag _ := loopback_apiInbound (xrayApiPort_lt mark)
  have hprobe : ∀ index key, Loopback (probeInbound (probeTag key) (xrayProbePort mark index))
      (Listener.mk .probe key).tag (xrayProbePort mark index) :=
    fun index key => loopback_probeInbound (probeTag key) (xrayProbePort_lt mark index)
  have hpin : ∀ index key, Loopback (probeInbound (pinProbeTag key) (xrayPinProbePort mark index))
      (Listener.mk .pinProbe key).tag (xrayPinProbePort mark index) :=
    fun index key => loopback_probeInbound (pinProbeTag key) (xrayPinProbePort_lt mark index)
  have hall := (((Listening.single hapi).append (Listening.map hprobe nodes)).append
    (Listening.map hpin pinned)).append (listening_exits mark exits)
  exact ⟨_, rfl, hall⟩

/-- No inbound is there twice. -/
theorem PreparedXray.Within.nodup_listeners (h : plan.Within) : plan.listeners.Nodup := by
  have hprobe : (plan.nodes.map (Listener.mk .probe)).Nodup :=
    h.nodes.1.map fun _ _ heq => (Listener.mk.inj heq).2
  have hpin : (plan.pinnedKeys.map (Listener.mk .pinProbe)).Nodup :=
    h.pinned.1.map fun _ _ heq => (Listener.mk.inj heq).2
  have hexit : (plan.proxyExits.flatMap fun exit =>
      [(⟨.socks, exit.name⟩ : Listener), ⟨.http, exit.name⟩]).Nodup := by
    rw [nodup_flatMap]
    refine ⟨fun exit _ => by simp, ?_⟩
    refine (pairwise_map.mp h.exits.1).imp fun {exit exit'} hne => ?_
    intro listener hmem hmem'
    simp only [mem_cons, not_mem_nil, or_false] at hmem hmem'
    rcases hmem with rfl | rfl <;> simp [hne] at hmem'
  simp only [PreparedXray.listeners, nodup_append]
  refine ⟨⟨⟨by decide, hprobe, ?_⟩, hpin, ?_⟩, hexit, ?_⟩
  · intro a ha b hb
    simp only [mem_cons, not_mem_nil, or_false, mem_map] at ha hb
    obtain ⟨key, -, rfl⟩ := hb
    rcases ha with rfl | rfl <;> simp
  · intro a ha b hb
    simp only [mem_append, mem_cons, not_mem_nil, or_false, mem_map] at ha hb
    obtain ⟨key, -, rfl⟩ := hb
    rcases ha with (rfl | rfl) | ⟨key', -, rfl⟩ <;> simp
  · intro a ha b hb
    simp only [mem_append, mem_cons, not_mem_nil, or_false, mem_map, mem_flatMap] at ha hb
    obtain ⟨exit, -, rfl | rfl⟩ := hb <;>
      rcases ha with ((rfl | rfl) | ⟨key', -, rfl⟩) | ⟨key', -, rfl⟩ <;> simp

/-! ### Control traffic -/

/-- The daemon's listeners and rules stand apart from what the client sent. -/
structure PreparedXray.Isolated (plan : PreparedXray) (mark : Nat) : Prop where
  /-- Behind the TUN link, every inbound listens on loopback. -/
  loopback : ∃ tun rest, inboundsOf plan.config = tun :: rest ∧
    protocolOf tun = some "tun" ∧ portOf tun = none ∧
    ∀ inbound ∈ rest, inbound.text? "listen" = some "127.0.0.1" ∧ (portOf inbound).isSome
  tags : (inboundsOf plan.config).map rawTag = plan.listeners.map fun listener => some listener.tag
  tags_nodup : ((inboundsOf plan.config).map rawTag).Nodup
  ports_nodup : (listenerPorts plan.config).Nodup
  front : plan.injectedRules <+: rulesOf plan.config
  /-- The first rule for a listener is the daemon's own. -/
  decides : ∀ {listeners rule}, Injected plan listeners rule → ∀ listener ∈ listeners,
    ∀ c : Connection, c.inbound = listener.tag →
      decidingRule plan.config c = some rule ∧ plan.injectedRules.find? c.meets = some rule
  marked : ∀ outbound ∈ outboundsOf plan.config, protocolOf outbound = some "blackhole" ∨
    ((outbound.index "streamSettings").index "sockopt").index "mark" = .nat mark

/-- The marks that the daemon gives out. -/
def InMarkRange (mark : Nat) : Prop := firstMark ≤ mark ∧ mark < firstMark + markSlots

/-- A tag gives one key at most. -/
theorem nodup_pinnedKeysOf {outbounds : List Json} (h : (outbounds.map rawTag).Nodup) :
    (pinnedKeysOf outbounds).Nodup := by
  have hsub := filter_sublist (p := fun o : Json => isProxyProtocol (o.text? "protocol"))
    (l := outbounds)
  have hnodup := h.sublist (hsub.map rawTag)
  have hkeys : pinnedKeysOf outbounds =
      ((outbounds.filter fun o => isProxyProtocol (o.text? "protocol")).map rawTag).filterMap
        fun tag => tag.bind (stripPrefix "pin-") := by
    rw [filterMap_map]
    rfl
  rw [hkeys]
  refine hnodup.filterMap fun tag tag' key htag htag' => ?_
  obtain ⟨text, rfl, htext⟩ := Option.bind_eq_some_iff.mp htag
  obtain ⟨text', rfl, htext'⟩ := Option.bind_eq_some_iff.mp htag'
  rw [stripPrefix_eq_some htext, stripPrefix_eq_some htext']

section
variable {lib : XrayCrates} {params : XrayConnectParams} {config : Json}
  {outbounds rules : List Json} {reading : XrayReading}
variable (h : PreparedFrom lib params mark plan config outbounds rules reading)
include h

theorem PreparedFrom.nodes_eq : plan.nodes = reading.nodes := by
  rw [PreparedXray.nodes, h.failover_eq, XrayReading.nodes]

theorem PreparedFrom.within : plan.Within := by
  obtain ⟨root, routing, hgen⟩ := h.generated
  constructor
  case nodes =>
    rw [h.nodes_eq]
    cases hfailover : params.failover with
    | none =>
      rw [h.read.no_nodes hfailover]
      exact ⟨nodup_nil, by decide⟩
    | some failover =>
      obtain ⟨hnodes, hchecked⟩ := h.read.failover failover hfailover
      rw [hnodes]
      exact ⟨hchecked.nodup, hchecked.length⟩
  case pinned =>
    have hlen := h.read.pinned_length
    rw [h.pinned_eq]
    refine ⟨?_, hlen⟩
    rw [h.read.pinned]
    exact nodup_pinnedKeysOf hgen.nodup
  case exits =>
    rw [h.exits_eq, h.read.exits, map_map, length_map]
    exact ⟨h.read.exits_nodup, h.read.exits_length⟩

/-- The inbounds that run, and their ports. -/
theorem PreparedFrom.listening :
    ∃ tun rest, inboundsOf plan.config = tun :: rest ∧ protocolOf tun = some "tun" ∧
      rawTag tun = some "tun-in" ∧ portOf tun = none ∧
      Listening rest plan.listeners.tail
        (planPorts mark plan.nodes.length plan.pinnedKeys.length plan.proxyExits.length) := by
  obtain ⟨name, mtu, fakedns, hrewritten⟩ := h.rewritten
  obtain ⟨rest, hinbounds, hlistening⟩ := listening_controlInbounds mark reading.nodes
    reading.pinnedKeys reading.exits (tunInbound name mtu fakedns)
  rw [← hrewritten.inbounds] at hinbounds
  rw [← h.nodes_eq, ← h.pinned_eq, ← h.exits_eq] at hlistening
  refine ⟨_, rest, hinbounds, ?_, ?_, ?_, hlistening⟩
  · simp [protocolOf, tunInbound, Json.object, getField_insertField]
  · simp [rawTag, tunInbound, Json.object, getField_insertField]
  · simp [portOf, tunInbound, Json.object, getField_insertField, getField, Json.asU64]

theorem PreparedFrom.listenerPorts_eq : listenerPorts plan.config =
      planPorts mark plan.nodes.length plan.pinnedKeys.length plan.proxyExits.length := by
  obtain ⟨tun, rest, hinbounds, -, -, hport, hlistening⟩ := h.listening
  have hmap : listenerPorts plan.config = ((inboundsOf plan.config).map portOf).filterMap id := by
    rw [filterMap_map]
    rfl
  rw [hmap, hinbounds, map_cons, hport, hlistening.ports]
  simp

theorem PreparedFrom.isolated : plan.Isolated mark := by
  have hwithin := h.within
  obtain ⟨tun, rest, hinbounds, hprotocol, htag, hport, hlistening⟩ := h.listening
  obtain ⟨name, mtu, fakedns, hrewritten⟩ := h.rewritten
  have htags : (inboundsOf plan.config).map rawTag =
      plan.listeners.map fun listener => some listener.tag := by
    rw [hinbounds, map_cons, htag, hlistening.tags]
    rfl
  have hfront : plan.injectedRules <+: rulesOf plan.config := by
    rw [hrewritten.rules, PreparedXray.injectedRules, h.exits_eq, h.nodes_eq, h.pinned_eq]
    simp only [append_assoc]
    rw [← append_assoc]
    exact prefix_append _ _
  constructor
  case loopback =>
    refine ⟨tun, rest, hinbounds, hprotocol, hport, fun inbound hmem => ?_⟩
    refine ⟨hlistening.loopback inbound hmem, ?_⟩
    have hlisted : portOf inbound ∈ rest.map portOf := mem_map_of_mem hmem
    rw [hlistening.ports] at hlisted
    obtain ⟨port, -, hsome⟩ := mem_map.mp hlisted
    rw [← hsome]
    rfl
  case tags => exact htags
  case tags_nodup =>
    rw [htags]
    exact hwithin.nodup_listeners.map fun _ _ heq =>
      Listener.tag_injective (Option.some.inj heq)
  case ports_nodup =>
    rw [h.listenerPorts_eq]
    exact nodup_planPorts hwithin.nodes.2 hwithin.pinned.2 hwithin.exits.2
  case front => exact hfront
  case decides =>
    intro listeners rule hinjected listener hmem c hinbound
    have hfound := hinjected.decides hwithin.exits.1 hmem hinbound
    exact ⟨hfront.find?_eq_some hfound, hfound⟩
  case marked =>
    intro outbound hmem
    obtain ⟨before, -, hmarked⟩ := Checks.exists_left_of_forall₂ hrewritten.outbounds hmem
    exact hmarked.marked

end

/-- A prepared config keeps the daemon's listeners and rules apart from what the client sent, and
its ports from those of every other mark. -/
theorem prepared_isolated {lib : XrayCrates} {uid : Nat} {params : XrayConnectParams}
    (hmark : InMarkRange mark) (h : prepareXray lib uid params mark = .ok plan) :
    plan.Isolated mark ∧
      ∀ {uid' mark' : Nat} {params' : XrayConnectParams} {plan' : PreparedXray},
        InMarkRange mark' → mark' ≠ mark → prepareXray lib uid' params' mark' = .ok plan' →
        List.Disjoint (listenerPorts plan.config) (listenerPorts plan'.config) := by
  obtain ⟨config, outbounds, rules, reading, hfrom⟩ := preparedFrom_of_prepareXray h
  refine ⟨hfrom.isolated, fun {uid' mark' params' plan'} hmark' hne h' => ?_⟩
  obtain ⟨config', outbounds', rules', reading', hfrom'⟩ := preparedFrom_of_prepareXray h'
  intro port hport hport'
  rw [hfrom.listenerPorts_eq] at hport
  rw [hfrom'.listenerPorts_eq] at hport'
  have hwithin := hfrom.within
  have hwithin' := hfrom'.within
  have hslot := (slotPort_of_mem hwithin.nodes.2 hwithin.pinned.2 hwithin.exits.2 hport).slot_eq
    (portSlot_le mark) (portSlot_le mark')
    (slotPort_of_mem hwithin'.nodes.2 hwithin'.pinned.2 hwithin'.exits.2 hport')
  unfold InMarkRange firstMark markSlots at hmark hmark'
  unfold portSlot firstMark at hslot
  omega

theorem ferry_isolated :
    ∃ plan, prepareXray (ferryCrates true) 1000 (ferryRequest true) 51820 = .ok plan ∧
      plan.Isolated 51820 ∧
      ∀ {uid mark : Nat} {params : XrayConnectParams} {plan' : PreparedXray},
        InMarkRange mark → mark ≠ 51820 → prepareXray (ferryCrates true) uid params mark = .ok plan' →
        List.Disjoint (listenerPorts plan.config) (listenerPorts plan'.config) := by
  obtain ⟨plan, hplan⟩ := ferry_prepared true
  exact ⟨plan, hplan, prepared_isolated (by unfold InMarkRange; decide) hplan⟩

end

end NetOrchestrator.Daemon
