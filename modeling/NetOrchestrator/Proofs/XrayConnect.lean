import NetOrchestrator.Proofs.RouteOwners

/-!
# `Proofs.XrayConnect`: what a successful connect leaves behind

`connectXray` starts the child, and then records and installs one resource after the other:
the address, the bypass routes, the routes of the profile, the policy rules of a full tunnel
and the DNS setting. A bypass route is skipped where the machine has no uplink of the
family, and where the kernel has a route in its slot already. Every other failure ends the connect.

`connected_of_returns` is the specification: a connect that returns leaves exactly the entry
`XrayPlan.entry` behind, over a kernel with exactly the routes that the entry lists added.
-/

namespace NetOrchestrator.Daemon

open Net Lib Lib.Call List Option Verdict Table

/-! ### An entry under construction -/

/-- The daemon `base` with one more entry, whatever of it is on disk. -/
def Entered (base : DaemonCore) (entry : JournalEntry) (now : DaemonCore) : Prop :=
  ∃ d, now = { base with journal := base.journal ++ [entry], disk := d }

namespace Entered

variable {base now : DaemonCore} {entry : JournalEntry}
variable (h : Entered base entry now)
include h

theorem update (f : JournalEntry → JournalEntry) :
    Returns (updateEntry base.journal.length f) (fun _ => Entered base (f entry)) now := by
  obtain ⟨d, rfl⟩ := h
  refine wp_updateEntry ⟨d, ?_⟩
  rw [modify_append_length]

theorem save : Returns save (fun _ => Entered base entry) now := by
  obtain ⟨d, rfl⟩ := h
  exact wp_save (fun _ => trivial) (fun _ _ => trivial) (fun _ _ => trivial) ⟨_, rfl⟩

theorem entryAt :
    Returns (entryAt base.journal.length) (fun e now' => e = entry ∧ now' = now) now := by
  obtain ⟨d, rfl⟩ := h
  refine wp_entryAt (fun e he => ⟨?_, rfl⟩) (fun _ => trivial)
  simpa using he.symm

theorem onKernel {α : Type} {request : Kernel → Reply α} :
    Returns (onKernel request) (fun a now' => (request base.kernel).1 = .ok a ∧
        Entered { base with kernel := (request base.kernel).2 } entry now') now := by
  obtain ⟨d, rfl⟩ := h
  exact wp_onKernel (fun _ => trivial) (fun _ _ => trivial) (fun a ha => ⟨ha, d, rfl⟩)
    (fun _ _ => trivial)

end Entered

variable {α : Type} {m : Prog α} {now : DaemonCore}

theorem returns_xrayStage {stage : String} {Q : α → DaemonCore → Prop} (h : Returns m Q now) :
    Returns (xrayStage stage m) Q now :=
  wp_either h (fun _ _ hq => wp_pure hq) (fun _ _ _ => wp_throw trivial)

theorem returns_query {answer : DaemonCore → Except IoError α} (now : DaemonCore) :
    Returns (query answer) (fun a now' => answer now = .ok a ∧ now' = now) now :=
  wp_query (fun _ => trivial) (fun _ _ => trivial) (fun _ ha => ⟨ha, rfl⟩) (fun _ _ => trivial)

/-- A chain of steps, each from the state that the one before promises. -/
theorem Returns.bind {β : Type} {f : α → Prog β} {R : α → DaemonCore → Prop}
    {Q : β → DaemonCore → Prop} (hm : Returns m R now)
    (hf : ∀ a now', R a now' → Returns (f a) Q now') : Returns (m >>= f) Q now :=
  wp_then hm hf

/-! ### Claiming resources -/

section
variable {base now : DaemonCore} {entry : JournalEntry}
variable {view : View} {ip : IpAddr} {k : Kernel} {r : AppliedRoute}

theorem returns_claimResource (h : Entered base entry now) (resource : OwnedResource)
    (journalStage stage : String) (request : Kernel → Reply Unit) :
    Returns (claimResource base.journal.length resource journalStage stage (onKernel request))
      (fun _ now' => (request base.kernel).1 = .ok () ∧
        Entered { base with kernel := (request base.kernel).2 } (entry.push resource) now') now := by
  refine Returns.bind (h.update _) fun _ now₁ h₁ => ?_
  refine Returns.bind (returns_xrayStage h₁.save) fun _ now₂ h₂ => ?_
  refine wp_either h₂.onKernel ?_ ?_
  · intro _ now₃ h₃
    exact wp_pure h₃
  · intro e now₃ _
    exact returns_after fun _ _ => wp_throw trivial

/-- The bypass route that this kernel still takes. -/
def bypassFor (view : View) (k : Kernel) (ip : IpAddr) : Option AppliedRoute :=
  (view.uplinkHostRoute ip xrayBypassMetric).filter fun route => !k.slotTaken route

/-- The entry with these routes recorded. -/
def JournalEntry.pushRoutes (entry : JournalEntry) (routes : List AppliedRoute) : JournalEntry :=
  { entry with resources := entry.resources ++ routes.map .route }

theorem pop_push (entry : JournalEntry) (resource : OwnedResource) :
    (entry.push resource).pop = entry := by
  simp [JournalEntry.push, JournalEntry.pop]

theorem returns_addXrayBypass (h : Entered base entry now) (o : Origin) (ip : IpAddr) :
    Returns (addXrayBypass base.journal.length o ip)
      (fun _ now' => match bypassFor base.view base.kernel ip with
        | none => Entered base entry now'
        | some route =>
          Entered { base with kernel := (base.kernel.addRouteExclusive o route).2 }
            (entry.push (.route route)) now') now := by
  have hview : now.view = base.view := by
    obtain ⟨d, rfl⟩ := h
    rfl
  refine wp_read ?_
  rw [hview]
  cases hroute : base.view.uplinkHostRoute ip xrayBypassMetric with
  | none =>
    simp only [bypassFor, hroute, filter_none]
    exact wp_pure h
  | some route =>
    refine Returns.bind (h.update _) fun _ now₁ h₁ => ?_
    refine Returns.bind (returns_xrayStage h₁.save) fun _ now₂ h₂ => ?_
    obtain ⟨d, rfl⟩ := h₂
    refine wp_tried (wp_addRouteExclusive (fun _ => trivial) ?_ ?_ ?_)
    · intro f _
      have hfault : isAlreadyExists f.report = false := by cases f <;> rfl
      simp only [hfault]
      exact wp_throw trivial
    · intro hfree
      dsimp only at hfree
      simp only [bypassFor, hroute, Option.filter, hfree]
      exact wp_pure ⟨d, rfl⟩
    · intro htaken
      have hexists : isAlreadyExists alreadyExists = true := rfl
      dsimp only at htaken
      simp only [hexists, if_true, bypassFor, hroute, Option.filter, htaken]
      have hback : Entered base (entry.push (.route route)) _ := ⟨d, rfl⟩
      exact wp_ends (hback.update JournalEntry.pop) (fun _ _ hq => pop_push entry _ ▸ hq)
        (fun _ _ _ => trivial)

/-! ### The bypass routes -/

theorem destination_of_uplinkHostRoute {metric : Nat}
    (h : view.uplinkHostRoute ip metric = some r) : r.destination = ip.toNet := by
  obtain ⟨hop, -, rfl⟩ := map_eq_some_iff.mp h
  rfl

theorem bypassFor_eq_some : bypassFor view k ip = some r ↔
      view.uplinkHostRoute ip xrayBypassMetric = some r ∧ k.slotTaken r = false := by
  simp [bypassFor, filter_eq_some_iff]

/-- Bypass routes to different hosts have different slots. -/
theorem ip_eq_of_slot_eq {k' : Kernel} {ip' : IpAddr} {r r' : AppliedRoute}
    (h : bypassFor view k ip = some r) (h' : bypassFor view k' ip' = some r')
    (hslot : r.key.slot = r'.key.slot) : ip = ip' := by
  have hdest : r.destination.trunc = r'.destination.trunc :=
    congrArg (fun slot : IpFamily × IpNet × Nat × Nat => slot.2.1) hslot
  rw [destination_of_uplinkHostRoute (bypassFor_eq_some.mp h).1,
    destination_of_uplinkHostRoute (bypassFor_eq_some.mp h').1, IpAddr.trunc_toNet,
    IpAddr.trunc_toNet] at hdest
  exact IpAddr.toNet_injective hdest

/-- The kernel with some routes added, each to a slot of its own, and nothing else changed. -/
structure Kernel.Adds (base k : Kernel) (o : Origin) (added : List AppliedRoute) : Prop where
  routes : base.Extends k o added
  free : ∀ r ∈ added, base.slotTaken r = false
  slots : (added.map fun r => r.key.slot).Nodup
  addresses : k.addresses = base.addresses

namespace Kernel.Adds

variable {k₀ k' : Kernel} {o : Origin} {added more : List AppliedRoute}

theorem refl (k : Kernel) (o : Origin) : k.Adds k o [] :=
  ⟨Kernel.Extends.refl k o, by simp, nodup_nil, rfl⟩

theorem slotTaken_eq_false (h : k₀.Adds k o added) : k.slotTaken r = false ↔
      k₀.slotTaken r = false ∧ ∀ r' ∈ added, r'.key.slot ≠ r.key.slot := by
  simp only [slotTaken_eq_false_iff, h.routes.mem]
  constructor
  · intro hfree
    refine ⟨fun row hrow => hfree row (.inl hrow), fun r' hr' => ?_⟩
    exact r'.key_install o ▸ hfree (r'.system.install o) (.inr ⟨r', hr', rfl⟩)
  · rintro ⟨hbase, hadded⟩ row (hrow | ⟨r', hr', rfl⟩)
    · exact hbase row hrow
    · exact (r'.key_install o).symm ▸ hadded r' hr'

theorem trans (h : k₀.Adds k o added) (h' : k.Adds k' o more) : k₀.Adds k' o (added ++ more) where
  routes := h.routes.trans h'.routes
  free r hr := by
    rcases mem_append.mp hr with hr | hr
    · exact h.free r hr
    · exact (h.slotTaken_eq_false.mp (h'.free r hr)).1
  slots := by
    rw [map_append, nodup_append]
    refine ⟨h.slots, h'.slots, ?_⟩
    rintro slot hslot _ hslot' rfl
    obtain ⟨a, ha, rfl⟩ := mem_map.mp hslot
    obtain ⟨b, hb, hsame⟩ := mem_map.mp hslot'
    exact (h.slotTaken_eq_false.mp (h'.free b hb)).2 a ha hsame.symm
  addresses := h'.addresses.trans h.addresses

theorem add (h : k₀.Adds k o added) (hok : (k.addRouteExclusive o r).1 = .ok ()) :
    k₀.Adds (k.addRouteExclusive o r).2 o (added ++ [r]) := by
  have hfree := addRouteExclusive_ok_iff.mp hok
  rw [addRouteExclusive_of_free hfree] at hok ⊢
  have hone : k.Adds (k.addRoute o r).2 o [r] :=
    ⟨(Kernel.Extends.refl k o).add hok, by simpa using hfree, by simp, addRouteRow_addresses ..⟩
  exact h.trans hone

end Kernel.Adds

/-- The loop adds the routes that the kernel took before it, each host once. -/
theorem returns_addXrayBypasses {targets : List IpAddr} (h : Entered base entry now) (o : Origin)
    (hnodup : targets.Nodup) : Returns (Call.forEach (addXrayBypass base.journal.length o) targets)
      (fun _ now' => ∃ k, base.kernel.Adds k o
          (targets.filterMap (bypassFor base.view base.kernel)) ∧
        Entered { base with kernel := k }
          (entry.pushRoutes (targets.filterMap (bypassFor base.view base.kernel))) now') now := by
  refine wp_post (wp_forEach (J := fun rest now' => ∃ done k, targets = done ++ rest ∧
      base.kernel.Adds k o (done.filterMap (bypassFor base.view base.kernel)) ∧
      Entered { base with kernel := k }
        (entry.pushRoutes (done.filterMap (bypassFor base.view base.kernel))) now')
    ?_ ?_) ?_
  · rintro ip rest now' ⟨done, k, rfl, hadds, hentered⟩
    -- No host before this one has a route in the same slot.
    have hsame : bypassFor base.view k ip = bypassFor base.view base.kernel ip := by
      have hfresh : ip ∉ done := by
        intro hin
        exact (nodup_append.mp hnodup).2.2 ip hin ip (by simp) rfl
      refine Option.ext fun r => ?_
      rw [bypassFor_eq_some, bypassFor_eq_some, hadds.slotTaken_eq_false]
      constructor
      · rintro ⟨hr, hfree, -⟩
        exact ⟨hr, hfree⟩
      · rintro ⟨hr, hfree⟩
        refine ⟨hr, hfree, fun r' hr' hslot => ?_⟩
        obtain ⟨ip', hip', hsome⟩ := mem_filterMap.mp hr'
        have heq := ip_eq_of_slot_eq hsome (bypassFor_eq_some.mpr ⟨hr, hfree⟩) hslot
        exact hfresh (heq ▸ hip')
    have hbody := returns_addXrayBypass hentered o ip
    refine wp_post hbody ?_
    intro _ now'' hstep
    refine ⟨done ++ [ip], ?_⟩
    simp only [hsame] at hstep
    rw [filterMap_append]
    cases hroute : bypassFor base.view base.kernel ip with
    | none =>
      rw [hroute] at hstep
      refine ⟨k, by simp, ?_, ?_⟩
      · simpa [filterMap_cons, hroute] using hadds
      · simpa [filterMap_cons, hroute] using hstep
    | some r =>
      rw [hroute] at hstep
      have hfree := (bypassFor_eq_some.mp (hsame.trans hroute)).2
      refine ⟨(k.addRouteExclusive o r).2, by simp, ?_, ?_⟩
      · simpa [filterMap_cons, hroute] using hadds.add (addRouteExclusive_ok_iff.mpr hfree)
      · simpa [filterMap_cons, hroute, JournalEntry.pushRoutes, JournalEntry.push] using hstep
  · refine ⟨[], base.kernel, rfl, .refl _ _, ?_⟩
    simpa [JournalEntry.pushRoutes] using h
  · rintro _ now' ⟨done, k, hdone, hadds, hentered⟩
    rw [append_nil] at hdone
    subst hdone
    exact ⟨k, hadds, hentered⟩

theorem nodup_extendNew {α : Type} [DecidableEq α] {into l : List α} (h : into.Nodup) :
    (extendNew into l).Nodup := by
  induction l generalizing into with
  | nil => exact h
  | cons a rest ih =>
    refine ih ?_
    dsimp only
    split
    · exact h
    · rename_i hnew
      rw [nodup_append]
      refine ⟨h, by simp, ?_⟩
      rintro x hx y hy rfl
      exact hnew (mem_singleton.mp hy ▸ hx)

theorem returns_addXrayBypassRoutes (h : Entered base entry now) (o : Origin) (plan : XrayPlan) :
    Returns (addXrayBypassRoutes base.journal.length o plan)
      (fun _ now' => ∃ k, base.kernel.Adds k o
          ((plan.bypassTargets base.view).filterMap (bypassFor base.view base.kernel)) ∧
        Entered { base with kernel := k }
          (entry.pushRoutes
            ((plan.bypassTargets base.view).filterMap (bypassFor base.view base.kernel))) now')
      now := by
  obtain ⟨d, rfl⟩ := h
  exact wp_read (returns_addXrayBypasses ⟨d, rfl⟩ o (nodup_extendNew nodup_nil))

/-! ### The routes of the profile and the rules of a full tunnel -/

/-- Every one of these routes is recorded and added. -/
theorem returns_claimRoutes (h : Entered base entry now) (o : Origin)
    (f : PolicyRoute → AppliedRoute) (routes : List PolicyRoute) : Returns (Call.forEach
        (fun route => claimResource base.journal.length (.route (f route)) "journal_route"
          "route_add" (addRouteExclusive o (f route))) routes)
      (fun _ now' => ∃ k, base.kernel.Adds k o (routes.map f) ∧
        Entered { base with kernel := k } (entry.pushRoutes (routes.map f)) now') now := by
  refine wp_post (wp_forEach (J := fun rest now' => ∃ done k, routes = done ++ rest ∧
      base.kernel.Adds k o (done.map f) ∧
      Entered { base with kernel := k } (entry.pushRoutes (done.map f)) now')
    ?_ ?_) ?_
  · rintro route rest now' ⟨done, k, rfl, hadds, hentered⟩
    have hbody := returns_claimResource hentered (.route (f route)) "journal_route" "route_add"
      (·.addRouteExclusive o (f route))
    refine wp_post hbody ?_
    rintro _ now'' ⟨hok, hstep⟩
    refine ⟨done ++ [route], (k.addRouteExclusive o (f route)).2, by simp, ?_, ?_⟩
    · simpa using hadds.add hok
    · simpa [JournalEntry.pushRoutes, JournalEntry.push] using hstep
  · refine ⟨[], base.kernel, rfl, .refl _ _, ?_⟩
    simpa [JournalEntry.pushRoutes] using h
  · rintro _ now' ⟨done, k, hdone, hadds, hentered⟩
    rw [append_nil] at hdone
    subst hdone
    exact ⟨k, hadds, hentered⟩

/-- Rules come and go without touching anything else of the kernel. -/
def Kernel.SameBesidesRules (k k' : Kernel) : Prop :=
  k'.routes = k.routes ∧ k'.links = k.links ∧ k'.addresses = k.addresses

theorem sameBesidesRules_addRule (k : Kernel) (o : Origin) (r : OwnedRuleResource) :
    k.SameBesidesRules (k.addRule o r).2 := by
  unfold Kernel.addRule
  split
  · exact ⟨rfl, rfl, rfl⟩
  · unfold Kernel.addRuleRow
    split
    · exact ⟨rfl, rfl, rfl⟩
    · exact ⟨rfl, rfl, rfl⟩

theorem returns_claimRules (h : Entered base entry now) (o : Origin)
    (rules : List OwnedRuleResource) : Returns (Call.forEach
        (fun rule => claimResource base.journal.length (.rule rule) "journal_rule" "rule_add"
          (addRule o rule)) rules) (fun _ now' => ∃ k, base.kernel.SameBesidesRules k ∧
        Entered { base with kernel := k }
          { entry with resources := entry.resources ++ rules.map .rule } now') now := by
  refine wp_post (wp_forEach
    (J := fun rest now' => ∃ done k, rules = done ++ rest ∧ base.kernel.SameBesidesRules k ∧
      Entered { base with kernel := k }
        { entry with resources := entry.resources ++ done.map .rule } now')
    ?_ ?_) ?_
  · rintro rule rest now' ⟨done, k, rfl, hsame, hentered⟩
    have hbody := returns_claimResource hentered (.rule rule) "journal_rule" "rule_add"
      (·.addRule o rule)
    refine wp_post hbody ?_
    rintro _ now'' ⟨hok, hstep⟩
    obtain ⟨hroutes, hlinks, haddresses⟩ := sameBesidesRules_addRule k o rule
    refine ⟨done ++ [rule], (k.addRule o rule).2, by simp, ?_, ?_⟩
    · exact ⟨hroutes.trans hsame.1, hlinks.trans hsame.2.1, haddresses.trans hsame.2.2⟩
    · simpa [JournalEntry.push] using hstep
  · refine ⟨[], base.kernel, rfl, ⟨rfl, rfl, rfl⟩, ?_⟩
    simpa using h
  · rintro _ now' ⟨done, k, hdone, hsame, hentered⟩
    rw [append_nil] at hdone
    subst hdone
    exact ⟨k, hsame, hentered⟩

end

/-! ### The stages of a connect -/

section
variable {base now : DaemonCore} {entry : JournalEntry}
variable {k : Kernel} {name : String}

theorem linkIndex_eq_none (h : k.linkIndex name = none) : k.links.has name = false := by
  rw [has_eq_false_iff]
  intro link hlink hname
  have hfound : k.links.rows.find? (fun link => link.name == name) = none := by
    simpa [Kernel.linkIndex] using h
  have := find?_eq_none.mp hfound link hlink
  simp [hname] at this

/-- The TUN link of a fresh child. -/
def Kernel.tunLink (k : Kernel) (o : Origin) (name : String) : KernelLink :=
  { name, index := k.nextIndex, kind := .tun, ifAlias := "", origin := o }

theorem addTun_eq {o : Origin} (h : k.links.has name = false) :
    k.addTun o name = { k with links := k.links.insert (k.tunLink o name) } := by
  unfold Kernel.addTun Kernel.createLink
  rw [if_neg (Bool.eq_false_iff.mp h)]
  rfl

theorem linkIndex_addTun {o : Origin} (h : k.links.has name = false) :
    (k.addTun o name).linkIndex name = some k.nextIndex := by
  have hnone : k.links.rows.find? (fun link => link.name == name) = none := by
    rw [find?_eq_none]
    intro link hlink
    have := has_eq_false_iff.mp h link hlink
    simpa using this
  have hrows : (k.links.insert (k.tunLink o name)).rows = k.links.rows ++ [k.tunLink o name] :=
    rows_insert h
  rw [addTun_eq h, Kernel.linkIndex, hrows, find?_append, hnone]
  simp [Kernel.tunLink]

section
variable (h : Entered base entry now)
include h

theorem returns_startXrayChild (o : Origin) (uid : Nat) (name : String) :
    Returns (startXrayChild o uid name)
      (fun _ now' => base.xray.tracks name = false ∧ base.kernel.linkIndex name = none ∧
        Entered { base with
          xray := base.xray.spawn uid name
          kernel := base.kernel.addTun o name } entry now') now := by
  obtain ⟨d, rfl⟩ := h
  refine wp_tried (wp_step (fun _ => trivial) (fun _ _ => wp_throw trivial) ?_ ?_)
  · intro _ s' hstep
    split at hstep
    · cases hstep
    · rename_i hfree
      split at hstep
      · cases hstep
      · cases hstep
        simp only [Bool.or_eq_true, not_or, Bool.not_eq_true, isSome_eq_false_iff,
          isNone_iff_eq_none] at hfree
        exact wp_pure ⟨hfree.1, hfree.2, d, rfl⟩
  · intro e s' _
    exact wp_throw trivial

theorem returns_tunLink (stage name : String) : Returns (tunLink stage name)
      (fun link now' => base.kernel.linkIndex name = some link ∧ Entered base entry now') now := by
  have hkernel : now.kernel = base.kernel := by
    obtain ⟨d, rfl⟩ := h
    rfl
  refine Returns.bind (returns_xrayStage (returns_query now)) ?_
  rintro found now' ⟨hfound, rfl⟩
  obtain rfl : base.kernel.linkIndex name = found := by simpa [hkernel] using hfound
  cases hlink : base.kernel.linkIndex name with
  | none => exact wp_throw trivial
  | some link => exact wp_pure ⟨rfl, h⟩

theorem returns_adjust (stage : String) :
    Returns (xrayStage stage adjust) (fun _ => Entered base entry) now := by
  refine wp_post (returns_xrayStage (returns_query now)) ?_
  rintro _ now' ⟨-, rfl⟩
  exact h

/-- The QUIC reject of an entry is in place where it is asked for. -/
theorem returns_ensureXrayQuic : Returns (ensureXrayQuic base.journal.length)
      (fun _ now' => ∃ q, Entered { base with quicReject := q } entry now' ∧
        ∀ process, findQuicProcess entry.resources = some process →
          base.executors.quicReject = true ∧ q.contains (entry.uid, process.name) = true)
      now := by
  refine Returns.bind h.entryAt ?_
  rintro e now' ⟨rfl, rfl⟩
  cases hquic : findQuicProcess e.resources with
  | none => exact wp_pure ⟨base.quicReject, h, fun _ hf => by cases hf⟩
  | some process =>
    obtain ⟨d, rfl⟩ := h
    refine wp_read ?_
    split
    · rename_i hexecutor
      refine wp_step (fun _ => trivial) (fun _ _ => trivial) ?_ (fun _ _ _ => trivial)
      intro _ s' hstep
      dsimp only at hstep
      split at hstep
      · rename_i hin
        cases hstep
        refine ⟨base.quicReject, ⟨d, rfl⟩, fun p hp => ?_⟩
        cases hp
        exact ⟨hexecutor, hin⟩
      · cases hstep
        refine ⟨base.quicReject ++ [(e.uid, process.name)], ⟨d, rfl⟩, fun p hp => ?_⟩
        cases hp
        exact ⟨hexecutor, by simp⟩
    · exact wp_throw trivial

end

variable (plan : XrayPlan)

def XrayPlan.dnsRecord (link : Nat) (full applied : Bool) : WireGuardDnsResource :=
  { interfaceIndex := link
    name := plan.name
    servers := plan.dnsServers
    domains := plan.dnsDomains
    full
    applied }

/-- The DNS record of a plan, as the resolver's answer leaves it. -/
def XrayPlan.dnsRecords (link : Nat) (full : Bool) (outcome : DnsApply) : List OwnedResource :=
  if plan.dnsServers.isEmpty then [] else [.dns (plan.dnsRecord link full (outcome == .applied))]

/-- The resolver's settings after the plan's were handed to it. -/
def XrayPlan.resolver (plan : XrayPlan) (full : Bool) (core : DaemonCore) :
    List (String × List IpAddr × List String × Bool) :=
  if !plan.dnsServers.isEmpty && core.view.dnsApply plan.name == .applied then
    core.resolver.filter (fun setting => setting.1 != plan.name) ++
      [(plan.name, plan.dnsServers, plan.dnsDomains, full)]
  else core.resolver

theorem dnsApplied_push (entry : JournalEntry) (dns : WireGuardDnsResource) :
    (entry.push (.dns dns)).dnsApplied = entry.push (.dns { dns with applied := true }) := by
  simp [JournalEntry.dnsApplied, JournalEntry.push, JournalEntry.pop]

theorem returns_xrayDns (h : Entered base entry now) (link : Nat) (plan : XrayPlan) (full : Bool) :
    Returns (xrayDns base.journal.length link plan full)
      (fun _ => Entered { base with resolver := plan.resolver full base }
        { entry with
          resources := entry.resources ++
            plan.dnsRecords link full (base.view.dnsApply plan.name) }) now := by
  unfold xrayDns XrayPlan.dnsRecords XrayPlan.resolver
  split
  · rename_i hempty
    simp only [hempty]
    refine wp_pure ?_
    simpa using h
  · rename_i hservers
    refine Returns.bind (h.update _) fun _ now₁ h₁ => ?_
    refine Returns.bind (returns_xrayStage h₁.save) fun _ now₂ h₂ => ?_
    obtain ⟨d, rfl⟩ := h₂
    refine wp_tried (wp_step (fun _ => trivial) (fun _ _ => wp_throw trivial) ?_ ?_)
    · intro outcome s' hstep
      dsimp only at hstep
      cases houtcome : base.view.dnsApply plan.name with
      | applied =>
        simp only [houtcome] at hstep
        cases hstep
        have hset : Entered
            { base with
              resolver := base.resolver.filter (fun setting => setting.1 != plan.name) ++
                [(plan.name, plan.dnsServers, plan.dnsDomains, full)] }
            (entry.push (.dns (plan.dnsRecord link full false))) _ := ⟨d, rfl⟩
        refine Returns.bind (hset.update JournalEntry.dnsApplied) fun _ now₃ h₃ => ?_
        refine wp_post (returns_xrayStage h₃.save) ?_
        intro _ now₄ h₄
        rw [dnsApplied_push] at h₄
        simpa [hservers, JournalEntry.push, XrayPlan.dnsRecord] using h₄
      | unavailable =>
        simp only [houtcome] at hstep
        cases hstep
        have hflag : (DnsApply.unavailable == DnsApply.applied) = false := rfl
        simp only [hflag, Bool.and_false]
        exact wp_pure ⟨d, rfl⟩
      | skipped =>
        simp only [houtcome] at hstep
        cases hstep
        have hflag : (DnsApply.skipped == DnsApply.applied) = false := rfl
        simp only [hflag, Bool.and_false]
        exact wp_pure ⟨d, rfl⟩
    · intro e s' _
      exact wp_throw trivial

end

/-! ### What a connect leaves behind -/

namespace XrayPlan

variable (plan : XrayPlan) (full : Option WireGuardFullResource)

/-- The bypass routes that the kernel took. -/
def bypasses (core : DaemonCore) : List AppliedRoute :=
  (plan.bypassTargets core.view).filterMap (bypassFor core.view core.kernel)

/-- The routes on the TUN link. -/
def tunnelled (link : Nat) : List AppliedRoute := plan.routes.map (plan.appliedRoute full link)

/-- The resources of a connected profile, in the order they were installed. -/
def resources (uid mark : Nat) (owner : Owner) (core : DaemonCore) (link : Nat) :
    List OwnedResource :=
  .xrayProcess { plan.process uid mark owner full with index := link } ::
    .address { interfaceIndex := link, address := plan.address } ::
    ((plan.bypasses core ++ plan.tunnelled full link).map .route ++
      (full.toList.flatMap fullPolicyRules).map .rule ++
      plan.dnsRecords link full.isSome (core.view.dnsApply plan.name))

end XrayPlan

/-- The kernel of a connected profile, up to its policy rules: the TUN link, its address and
the routes. -/
structure Kernel.Carries (k k' : Kernel) (o : Origin) (plan : XrayPlan) (routes : List AppliedRoute) :
    Prop where
  free : ∀ r ∈ routes, k.slotTaken r = false
  slots : (routes.map fun r => r.key.slot).Nodup
  routes : ∀ row, row ∈ k'.routes ↔
    row ∈ k.routes ∨ ∃ r ∈ routes, row = r.system.install o
  links : k'.links = k.links.insert (k.tunLink o plan.name)
  addresses : k'.addresses = k.addresses ++ [(k.nextIndex, plan.address)]

/-- A profile was connected on `core`, with this mark and this full tunnel. -/
structure XrayUp (core now : DaemonCore) (uid mark : Nat) (owner : Owner) (plan : XrayPlan)
    (full : Option WireGuardFullResource) : Prop where
  untracked : core.xray.tracks plan.name = false
  unnamed : core.kernel.links.has plan.name = false
  unaddressed : (core.kernel.nextIndex, plan.address) ∉ core.kernel.addresses
  journal : now.journal = core.journal ++
    [⟨uid, owner, .applied, plan.resources full uid mark owner core core.kernel.nextIndex⟩]
  kernel : core.kernel.Carries now.kernel (.daemon uid owner) plan
    (plan.bypasses core ++ plan.tunnelled full core.kernel.nextIndex)
  executors : now.executors = core.executors
  view : now.view = core.view
  xray : now.xray = core.xray.spawn uid plan.name
  resolver : now.resolver = plan.resolver full.isSome core
  quicReject : plan.rejectQuic = true →
    core.executors.quicReject = true ∧ now.quicReject.contains (uid, plan.name) = true

theorem addAddress_ok {k : Kernel} {index : Nat} {address : IpNet}
    (h : (k.addAddress index address).1 = .ok ()) : (index, address) ∉ k.addresses ∧
      (k.addAddress index address).2 = { k with addresses := k.addresses ++ [(index, address)] } := by
  unfold Kernel.addAddress at h ⊢
  split at h
  · cases h
  · rename_i hout
    rw [if_neg hout]
    exact ⟨by simpa using hout, rfl⟩

theorem findQuicProcess_process (plan : XrayPlan) (uid mark : Nat) (owner : Owner)
    (full : Option WireGuardFullResource) (link : Nat) (rest : List OwnedResource)
    (h : plan.rejectQuic = true) :
    findQuicProcess (.xrayProcess { plan.process uid mark owner full with index := link } :: rest) =
      some { plan.process uid mark owner full with index := link } := by
  simp [findQuicProcess, XrayPlan.process, h]

section
variable {core now : DaemonCore} {uid mark : Nat} {owner : Owner} {plan : XrayPlan}
  {full : Option WireGuardFullResource} {I : DaemonCore → Prop}

/-- The profile is installed, and its entry not yet marked as applied. -/
theorem returns_applyXrayPlan
    (h : Entered core ⟨uid, owner, .applying, [.xrayProcess (plan.process uid mark owner full)]⟩ now) :
    Returns (applyXrayPlan core.journal.length uid (.daemon uid owner) plan full)
      (fun _ now' => ∃ k q, core.xray.tracks plan.name = false ∧
        core.kernel.links.has plan.name = false ∧
        (core.kernel.nextIndex, plan.address) ∉ core.kernel.addresses ∧
        core.kernel.Carries k (.daemon uid owner) plan
          (plan.bypasses core ++ plan.tunnelled full core.kernel.nextIndex) ∧
        (plan.rejectQuic = true →
          core.executors.quicReject = true ∧ q.contains (uid, plan.name) = true) ∧
        Entered { core with
            xray := core.xray.spawn uid plan.name
            kernel := k
            quicReject := q
            resolver := plan.resolver full.isSome core }
          ⟨uid, owner, .applying,
            plan.resources full uid mark owner core core.kernel.nextIndex⟩ now') now := by
  refine Returns.bind (returns_startXrayChild h _ _ _) ?_
  rintro _ now₁ ⟨huntracked, hnone, h₁⟩
  have hunnamed := linkIndex_eq_none hnone
  refine Returns.bind (returns_tunLink h₁ _ _) ?_
  rintro link now₂ ⟨hlink, h₂⟩
  rw [linkIndex_addTun hunnamed] at hlink
  obtain rfl : core.kernel.nextIndex = link := Option.some.inj hlink
  refine Returns.bind (h₂.update _) fun _ now₃ h₃ => ?_
  refine Returns.bind (returns_xrayStage h₃.save) fun _ now₄ h₄ => ?_
  refine Returns.bind (returns_claimResource h₄ _ _ _ (·.addAddress _ plan.address)) ?_
  rintro _ now₅ ⟨haddress, h₅⟩
  obtain ⟨hunaddressed, hk₅⟩ := addAddress_ok haddress
  have hk₁ := addTun_eq (o := .daemon uid owner) hunnamed
  simp only [hk₁] at hunaddressed hk₅
  simp only [hk₁, hk₅] at h₅
  refine Returns.bind (returns_adjust h₅ _) fun _ now₆ h₆ => ?_
  refine Returns.bind (returns_adjust h₆ _) fun _ now₇ h₇ => ?_
  have hstage₇ := returns_ensureXrayQuic h₇
  refine Returns.bind (returns_xrayStage hstage₇) ?_
  rintro _ now₈ ⟨q, h₈, hquic⟩
  have hstage₈ := returns_addXrayBypassRoutes h₈ (.daemon uid owner) plan
  refine Returns.bind hstage₈ ?_
  rintro _ now₉ ⟨k₉, hadds₉, h₉⟩
  have hstage₉ := returns_claimRoutes h₉ (.daemon uid owner)
    (plan.appliedRoute full core.kernel.nextIndex) plan.routes
  refine Returns.bind hstage₉ ?_
  rintro _ now₁₀ ⟨k₁₀, hadds₁₀, h₁₀⟩
  have hstage₁₀ := returns_claimRules h₁₀ (.daemon uid owner) (full.toList.flatMap fullPolicyRules)
  refine Returns.bind hstage₁₀ ?_
  rintro _ now₁₁ ⟨k₁₁, hsame, h₁₁⟩
  have hstage₁₁ := returns_xrayDns h₁₁ core.kernel.nextIndex plan full.isSome
  refine wp_post hstage₁₁ ?_
  intro _ now₁₂ h₁₂
  refine ⟨k₁₁, q, huntracked, hunnamed, hunaddressed, ?_, ?_, ?_⟩
  · have hadds := hadds₉.trans hadds₁₀
    exact
      { free := hadds.free
        slots := hadds.slots
        routes := fun row => by
          rw [hsame.1]
          exact hadds.routes.mem row
        links := hsame.2.1.trans hadds.routes.links
        addresses := hsame.2.2.trans hadds.addresses }
  · intro hreject
    exact hquic _ (findQuicProcess_process plan uid mark owner full _ _ hreject)
  · -- The bypass routes depend on the kernel's routes only.
    have hbypass : ∀ links addresses ip, bypassFor core.view
        { core.kernel with links := links, addresses := addresses } ip =
        bypassFor core.view core.kernel ip := fun _ _ _ => rfl
    simpa [XrayPlan.resources, XrayPlan.bypasses, XrayPlan.tunnelled, JournalEntry.pushRoutes,
      JournalEntry.push, JournalEntry.updateProcess, XrayPlan.resolver, hbypass] using h₁₂

theorem returns_abandonXray {Q : Unit → DaemonCore → Prop} (index : Nat) (e : IoError) :
    Returns (abandonXray index e) Q now :=
  returns_after fun _ _ => returns_after fun _ _ => wp_throw trivial

theorem returns_connectXrayEntry : Returns (connectXrayEntry uid owner plan mark full)
      (fun _ now => XrayUp core now uid mark owner plan full) core := by
  refine wp_bind (wp_pushEntry ?_)
  have hpushed : Entered core
      ⟨uid, owner, .applying, [.xrayProcess (plan.process uid mark owner full)]⟩
      { core with journal := core.journal ++
        [⟨uid, owner, .applying, [.xrayProcess (plan.process uid mark owner full)]⟩] } :=
    ⟨core.disk, rfl⟩
  refine wp_tried (wp_ends hpushed.save ?_ ?_)
  · intro _ now₁ h₁
    refine wp_read ?_
    have hindex : now₁.journal.length - 1 = core.journal.length := by
      obtain ⟨d, rfl⟩ := h₁
      simp
    rw [hindex]
    refine wp_tried (wp_ends (returns_applyXrayPlan h₁) ?_ ?_)
    · rintro _ now₂ ⟨k, q, huntracked, hunnamed, hunaddressed, hcarries, hquic, h₂⟩
      have hcommit : Returns (commitXray core.journal.length)
          (fun _ => Entered { core with
              xray := core.xray.spawn uid plan.name
              kernel := k
              quicReject := q
              resolver := plan.resolver full.isSome core }
            ⟨uid, owner, .applied,
              plan.resources full uid mark owner core core.kernel.nextIndex⟩) now₂ := by
        have hmarked := h₂.update (·.setState .applied)
        refine Returns.bind hmarked fun _ now₃ h₃ => ?_
        refine wp_tried (wp_ends h₃.save (fun _ _ h₄ => wp_pure h₄) ?_)
        intro e now₄ _
        exact returns_abandonXray _ _
      refine Returns.bind hcommit fun _ now₃ h₃ => ?_
      obtain ⟨d, rfl⟩ := h₃
      refine wp_write (wp_modify ?_)
      exact
        { untracked := huntracked
          unnamed := hunnamed
          unaddressed := hunaddressed
          journal := rfl
          kernel := hcarries
          executors := rfl
          view := rfl
          xray := rfl
          resolver := rfl
          quicReject := hquic }
    · intro e now₂ _
      exact returns_abandonXray _ _
  · intro e now₁ _
    exact returns_after fun _ _ => wp_throw trivial

/-- The full tunnel that a plan asks for, in the slot of the mark. -/
def XrayPlan.fullTunnel (plan : XrayPlan) (mark : Nat) : Option WireGuardFullResource :=
  if plan.fullIpv4 || plan.fullIpv6 then
    some (fullResource (mark - firstMark) plan.fullIpv4 plan.fullIpv6)
  else none

theorem returns_xrayFull :
    Returns (xrayFull plan mark) (fun full now => full = plan.fullTunnel mark ∧ now = core)
      core := by
  unfold xrayFull XrayPlan.fullTunnel
  split
  · refine wp_read ?_
    split
    · exact wp_throw trivial
    · refine wp_read ?_
      split
      · exact wp_pure ⟨rfl, rfl⟩
      · exact wp_throw trivial
  · exact wp_pure ⟨rfl, rfl⟩

/-- Looking for a mark only asks questions. -/
theorem keeps_freeMark (journal : Journal) (rules : List OwnedRuleResource) (slots : List Nat) :
    Keeps Any I (freeMark journal rules slots) := by
  induction slots with
  | nil => exact Keeps.pure _
  | cons slot rest ih =>
    unfold freeMark
    split
    · exact ih
    · split
      · exact ih
      · refine Keeps.bind ?_ fun occupied => Keeps.ite ih (Keeps.pure _)
        refine Keeps.bind (Keeps.gets _) fun _ => Keeps.ite ?_ (Keeps.pure _)
        exact (keeps_query _).either (fun _ => Keeps.pure _) fun _ => Keeps.pure _

theorem keeps_allocateOpenvpnMark : Keeps Any I allocateOpenvpnMark := by
  refine Keeps.bind ?_ fun rules => Keeps.bind (Keeps.gets _) fun journal => ?_
  · exact Keeps.bind (Keeps.gets _) fun _ => Keeps.ite (keeps_query _) (Keeps.pure _)
  · refine Keeps.bind (keeps_freeMark journal rules _) fun mark => ?_
    cases mark with
    | some mark => exact Keeps.pure mark
    | none => exact Keeps.throw _

/-- What a connect that returned has found, and what it leaves. -/
structure Connected (core now : DaemonCore) (uid : Nat) (profileId : String)
    (prepare : Nat → Except IoError XrayPlan) (mark : Nat) (plan : XrayPlan) : Prop where
  valid : validateOwner (Owner.xray profileId).render = .ok ()
  absent : core.journal.position uid (.xray profileId) = none
  prepared : prepare mark = .ok plan
  executor : core.executors.xray = true
  resolver : plan.dnsServers.isEmpty = true ∨ core.executors.dns = true
  up : XrayUp core now uid mark (.xray profileId) plan (plan.fullTunnel mark)

theorem connected_of_returns (profileId : String) (prepare : Nat → Except IoError XrayPlan) :
    Returns (connectXray uid profileId prepare)
      (fun _ now => ∃ mark plan, Connected core now uid profileId prepare mark plan) core := by
  refine wp_bind (wp_demand ?_ (fun _ _ => trivial))
  intro hvalid
  refine wp_bind (wp_position ?_)
  split
  · exact wp_throw trivial
  rename_i habsent
  rw [not_isSome_iff_eq_none] at habsent
  have hmark := keeps_allocateOpenvpnMark (I := fun c => c = core) core rfl
  refine wp_bind (wp_mono hmark ?_ (fun _ _ _ => trivial) (fun _ _ => trivial))
  rintro mark _ rfl
  refine wp_bind (wp_ofExcept (fun plan hplan => ?_) (fun _ _ => trivial))
  refine wp_read ?_
  split
  · exact wp_throw trivial
  rename_i hexecutor
  refine Returns.bind (returns_xrayStage (returns_query _)) ?_
  rintro _ _ ⟨-, rfl⟩
  refine Returns.bind (returns_xrayStage (returns_query _)) ?_
  rintro link _ ⟨-, rfl⟩
  split
  · exact wp_throw trivial
  refine Returns.bind returns_xrayFull ?_
  rintro full _ ⟨rfl, rfl⟩
  split
  · exact wp_throw trivial
  rename_i hresolver
  refine wp_post returns_connectXrayEntry ?_
  intro _ now hup
  refine ⟨mark, plan, hvalid, habsent, hplan, by simpa using hexecutor, ?_, hup⟩
  simpa [or_iff_not_imp_left] using hresolver

end

end NetOrchestrator.Daemon
