import NetOrchestrator.Lib.Turns
import NetOrchestrator.Proofs.IntentRecords

/-!
# `Proofs.IntentConverges`: one reconcile of all intents

A reconcile goes through the stored intents and rules in order, each with the table as the ones
before it left it. At one destination this is a sequence of turns (`Lib.Turns`): an intent drops
the route that it recorded and does not want any more, and adds the one it wants if the
destination is free. `Passed` is this simulation.

An intent does not know that a later one is going to drop the route that is in its way.
`reconcile_converges_iff` says what follows: an undisturbed reconcile brings everything in line,
with nothing left for a second one to do, exactly when no destination is undercut and the helper
still accepts every stored intent that has a record.
-/

namespace NetOrchestrator.Macos

open Net Lib Lib.Call List Option Table
open Daemon (NetIntentSetParams)
open NetOrchestrator.Core (NetText NetworkView WantedRoute Derivation RouteEntry judge)

/-! ### Undisturbed system calls -/

/-- What a step of a reconcile leaves alone. -/
structure Framed (w w' : IntentWorld) : Prop where
  view : w'.view = w.view
  deviceOf : w'.deviceOf = w.deviceOf
  script : w'.script = w.script
  params : w'.intents.map Stored.params = w.intents.map Stored.params
  ruleList : w'.rules.map StoredRule.rule = w.rules.map StoredRule.rule

section
variable (text : NetText) (w : IntentWorld) (network : NetworkView) (index : Nat)

theorem derivation_intent : w.derivation text network (.intent index) =
      (w.intents[index]?.map Stored.params).bind fun params =>
        (Core.normalize text params).toOption.map fun intent => Core.derive intent network := by
  rw [IntentWorld.derivation]
  cases w.intents[index]? with
  | none => rfl
  | some stored =>
    show (Core.normalize text stored.params).toOption.bind _ = Option.map _ _
    cases (Core.normalize text stored.params).toOption <;> rfl

theorem derivation_rule : w.derivation text network (.rule index) =
      (w.rules[index]?.map StoredRule.rule).bind fun rule =>
        some (Core.deriveRule rule network) := by
  rw [IntentWorld.derivation]
  cases w.rules[index]? <;> rfl

end

namespace Framed

variable {w w' w'' : IntentWorld}

theorem refl (w : IntentWorld) : Framed w w := ⟨rfl, rfl, rfl, rfl, rfl⟩

variable (h : Framed w w')
include h

theorem trans (h' : Framed w' w'') : Framed w w'' :=
  ⟨h'.view.trans h.view, h'.deviceOf.trans h.deviceOf, h'.script.trans h.script,
    h'.params.trans h.params, h'.ruleList.trans h.ruleList⟩

theorem intents_length : w'.intents.length = w.intents.length := by
  simpa using congrArg List.length h.params

theorem rules_length : w'.rules.length = w.rules.length := by
  simpa using congrArg List.length h.ruleList

theorem slots : w'.slots = w.slots := by
  rw [IntentWorld.slots, IntentWorld.slots, h.intents_length, h.rules_length]

theorem has {slot : Slot} : w'.Has slot ↔ w.Has slot := by
  cases slot with
  | intent index => rw [IntentWorld.Has, IntentWorld.Has, h.intents_length]
  | rule index => rw [IntentWorld.Has, IntentWorld.Has, h.rules_length]

theorem derivation (text : NetText) (network : NetworkView) (slot : Slot) :
    w'.derivation text network slot = w.derivation text network slot := by
  cases slot with
  | intent index =>
    rw [derivation_intent, derivation_intent, ← getElem?_map, ← getElem?_map, h.params]
  | rule index => rw [derivation_rule, derivation_rule, ← getElem?_map, ← getElem?_map, h.ruleList]

end Framed

variable (text : NetText) (w : IntentWorld)

theorem framed_setInstalled (slot : Slot) (ops : List RouteOp) :
    Framed w (w.setInstalled slot ops) := by
  cases slot with
  | intent index =>
    refine ⟨rfl, rfl, rfl, ?_, rfl⟩
    simp only [IntentWorld.setInstalled]
    apply ext_getElem?
    intro i
    rw [getElem?_map, getElem?_map, getElem?_modify]
    cases w.intents[i]? with
    | none => rfl
    | some stored => by_cases hi : index = i <;> simp [hi]
  | rule index =>
    refine ⟨rfl, rfl, rfl, rfl, ?_⟩
    simp only [IntentWorld.setInstalled]
    apply ext_getElem?
    intro i
    rw [getElem?_map, getElem?_map, getElem?_modify]
    cases w.rules[i]? with
    | none => rfl
    | some stored => by_cases hi : index = i <;> simp [hi]

theorem interfere_calm {w : IntentWorld} (h : w.script = []) : w.interfere = w := by
  simp [IntentWorld.interfere, h]

section
variable {w : IntentWorld}
variable {op : RouteOp} {table : RouteTable RouteOp} {route : WantedRoute} {slot : Slot}

section
variable (hcalm : w.script = [])
include hcalm

theorem wp_syscall_calm {α : Type} {act : IntentWorld → Except HelperError α × IntentWorld}
    {Q : α → IntentWorld → Prop} {E : HelperError → IntentWorld → Prop} {C : IntentWorld → Prop}
    (hok : ∀ a w', act w = (.ok a, w') → Q a w') (herr : ∀ e w', act w = (.error e, w') → E e w') :
    wp Verdict.Quiet (syscall act) Q E C w := by
  apply wp_step
  · intro hcrash
    cases hcrash
  · intro _ hfail
    cases hfail
  · rw [interfere_calm hcalm]
    exact hok
  · rw [interfere_calm hcalm]
    exact herr

theorem succeeds_probeView : Succeeds probeView (fun view w' => view = w.view ∧ w' = w) w := by
  apply wp_tried
  apply wp_syscall_calm hcalm
  · intro view w' hrun
    cases hrun
    exact wp_pure ⟨rfl, rfl⟩
  · intro e w' hrun
    cases hrun

theorem succeeds_probeRoutes :
    Succeeds probeRoutes (fun entries w' => entries = routeEntries w.table ∧
      w' = { w with dump := some (routeEntries w.table) }) w := by
  apply wp_tried
  apply wp_syscall_calm hcalm
  · intro entries w' hrun
    cases hrun
    exact wp_pure ⟨rfl, rfl⟩
  · intro e w' hrun
    cases hrun

theorem succeeds_add (hfree : w.table.get op.net = none) :
    Succeeds op.add (fun _ w' => w' = { logCommand (.add op) w with
      table := w.table.insert (op.row w.deviceOf) }) w := by
  have htaken : (logCommand (.add op) w).table.has op.net = false := get_eq_none.mp hfree
  have hlog : (logCommand (.add op) w).script = [] := hcalm
  apply wp_write
  apply wp_syscall_calm hlog
  · intro _ w' hrun
    rw [if_neg (by simp [htaken])] at hrun
    cases hrun
    rfl
  · intro e w' hrun
    rw [if_neg (by simp [htaken])] at hrun
    cases hrun

theorem succeeds_delete (op : RouteOp) :
    Succeeds op.delete (fun _ w' => w' = (logCommand (.delete op) w).deleteRow op.net) w := by
  have hlog : (logCommand (.delete op) w).script = [] := hcalm
  apply wp_write
  apply wp_tried
  apply wp_syscall_calm hlog
  · intro _ w' hrun
    cases hrun
    exact wp_pure rfl
  · intro e w' hrun
    cases hrun

end

/-! ### One turn -/

/-- The table holds what the op asks for. -/
def hit (table : RouteTable RouteOp) (op : RouteOp) : Bool :=
  (table.get op.net).any fun row => op.target.matches row.entry

theorem judge_present_iff_hit :
    judge (wantedOf op) true (routeEntries table) = .present ↔ hit table op = true := by
  rw [judge_entries]
  simp only [wantedOf]
  unfold hit
  cases table.get op.net with
  | none => simp
  | some row => cases hmatch : op.target.matches row.entry <;> simp [hmatch]

/-- A withdrawal takes out what the reading shows in place, and touches no record. -/
theorem succeeds_withdrawEach (table : RouteTable RouteOp) (ops : List RouteOp)
    (hcalm : w.script = []) : Succeeds (withdrawEach (routeEntries table) ops) (fun _ w' =>
      (∀ net, w'.table.get net =
        if ops.any (fun op => op.net == net && hit table op) then none else w.table.get net) ∧
      w'.intents = w.intents ∧ w'.rules = w.rules ∧ Framed w w' ∧
      (ops = [] → w'.table = w.table ∧ w'.commands = w.commands)) w := by
  induction ops generalizing w with
  | nil => exact wp_pure ⟨fun _ => rfl, rfl, rfl, .refl w, fun _ => ⟨rfl, rfl⟩⟩
  | cons op rest ih =>
    -- The loop goes on from `v`, where the first op is dealt with.
    have hnext : ∀ v : IntentWorld, (∀ net, v.table.get net =
          if op.net = net ∧ hit table op = true then none else w.table.get net) →
        v.intents = w.intents → v.rules = w.rules → Framed w v →
        Succeeds (do
          Call.modify fun w => { w with withdrawing := rest }
          withdrawEach (routeEntries table) rest) (fun _ w' =>
          (∀ net, w'.table.get net =
            if (op :: rest).any (fun op => op.net == net && hit table op) then none
            else w.table.get net) ∧
          w'.intents = w.intents ∧ w'.rules = w.rules ∧ Framed w w' ∧
          (op :: rest = [] → w'.table = w.table ∧ w'.commands = w.commands)) v := by
      intro v hget hintents hrules hframe
      apply wp_write
      have hvcalm : ({ v with withdrawing := rest } : IntentWorld).script = [] :=
        hframe.script.trans hcalm
      refine wp_post (ih hvcalm) ?_
      rintro _ w' ⟨hget', hintents', hrules', hframe', _⟩
      have hmid : Framed v { v with withdrawing := rest } := ⟨rfl, rfl, rfl, rfl, rfl⟩
      have hwhole : Framed w w' := (hframe.trans hmid).trans hframe'
      refine ⟨?_, hintents'.trans hintents, hrules'.trans hrules, hwhole, by simp⟩
      intro net
      rw [hget' net]
      show (if rest.any (fun op => op.net == net && hit table op) then none
        else v.table.get net) = _
      rw [hget net, any_cons]
      by_cases hrest : rest.any (fun op => op.net == net && hit table op) = true
      · simp [hrest]
      · by_cases hop : op.net = net ∧ hit table op = true
        · simp [hop.1, hop.2]
        · have hhead : (op.net == net && hit table op) = false := by
            rw [Bool.eq_false_iff]
            intro hboth
            exact hop (by simpa using hboth)
          simp [hrest, hop, hhead]
    show Succeeds (do
      if judge (wantedOf op) true (routeEntries table) = .present then op.delete
      Call.modify fun w => { w with withdrawing := rest }
      withdrawEach (routeEntries table) rest) _ w
    by_cases hpresent : judge (wantedOf op) true (routeEntries table) = .present
    · rw [if_pos hpresent]
      apply wp_then (succeeds_delete hcalm op)
      rintro _ v rfl
      refine hnext _ ?_ rfl rfl ⟨rfl, rfl, rfl, rfl, rfl⟩
      intro net
      have hhit := judge_present_iff_hit.mp hpresent
      show (w.table.erase op.net).get net = _
      rw [get_erase]
      by_cases hnet : net = op.net
      · simp [hnet, hhit]
      · simp [hnet, Ne.symm hnet]
    · rw [if_neg hpresent]
      apply wp_bind
      apply wp_pure
      refine hnext w ?_ rfl rfl (.refl w)
      intro net
      have hno : ¬(op.net = net ∧ hit table op = true) :=
        fun hboth => hpresent (judge_present_iff_hit.mpr hboth.2)
      rw [if_neg hno]

/-- What a wanted route comes to, given the table before the loop. -/
structure Installed (slot : Slot) (routes : List WantedRoute) (w w' : IntentWorld) : Prop where
  get : ∀ net, w'.table.get net = (w.table.get net).or
    ((routes.find? fun route => route.destination == net).map fun route =>
      (opOf route).row w.deviceOf)
  self : ∀ op, op ∈ w'.installed slot ↔
    (op ∈ w.installed slot ∧ ∀ route ∈ routes, opOf route = op →
      w.table.get op.net = none ∨ hit w.table op = true) ∨
    ∃ route ∈ routes, opOf route = op ∧ w.table.get op.net = none
  other : ∀ other, other ≠ slot → w'.installed other = w.installed other
  frame : Framed w w'
  quiet : (∀ route ∈ routes, w.table.get route.destination ≠ none) →
    w'.commands = w.commands

theorem opOf_net (h : route.destination.trunc = route.destination) :
    (opOf route).net = route.destination := by
  show route.destination.trunc.trunc = _
  rw [h, h]

variable {rest : List WantedRoute} {ours : Bool}

theorem WellFormed.tail (h : WellFormed (route :: rest)) : WellFormed rest := by
  have hnodup := h.1
  rw [map_cons, nodup_cons] at hnodup
  exact ⟨hnodup.2, fun r hr => h.2 r (mem_cons_of_mem _ hr)⟩

/-- The rest of the loop is at other destinations. -/
theorem WellFormed.far (h : WellFormed (route :: rest)) :
    ∀ r ∈ rest, r.destination ≠ route.destination := by
  intro r hr hsame
  have hnodup := h.1
  rw [map_cons, nodup_cons] at hnodup
  exact hnodup.1 (hsame ▸ mem_map_of_mem hr)

/-- What the loop does about one route. `ran` is whether it ran a command. -/
structure RouteDone (slot : Slot) (route : WantedRoute) (w v : IntentWorld) (ran : Bool) : Prop where
  get : ∀ net, v.table.get net = (w.table.get net).or
    (if route.destination = net then some ((opOf route).row w.deviceOf) else none)
  self : ∀ op, op ∈ v.installed slot ↔
    (op ∈ w.installed slot ∧ (opOf route = op →
      w.table.get op.net = none ∨ hit w.table op = true)) ∨
    opOf route = op ∧ w.table.get op.net = none
  other : ∀ other, other ≠ slot → v.installed other = w.installed other
  frame : Framed w v
  quiet : w.table.get route.destination ≠ none → v.commands = w.commands
  still : ran = false → v.table = w.table

/-- After the first route of the loop, given what it did. -/
theorem Installed.cons {v w' : IntentWorld} {ran : Bool}
    (hwf : WellFormed (route :: rest)) (hdone : RouteDone slot route w v ran)
    (h : Installed slot rest v w') : Installed slot (route :: rest) w w' := by
  obtain ⟨hget, hself, hother, hframe, hquiet, -⟩ := hdone
  -- The rest of the loop is at other destinations, where `v` is like `w`.
  have hfar := hwf.far
  have hsame : ∀ r ∈ rest, v.table.get r.destination = w.table.get r.destination := by
    intro r hr
    rw [hget, if_neg (hfar r hr).symm, or_none]
  have hsameOp : ∀ r ∈ rest, v.table.get (opOf r).net = w.table.get (opOf r).net := by
    intro r hr
    rw [opOf_net (hwf.2 r (mem_cons_of_mem _ hr))]
    exact hsame r hr
  have hsameHit : ∀ r ∈ rest, hit v.table (opOf r) = hit w.table (opOf r) := by
    intro r hr
    unfold hit
    rw [hsameOp r hr]
  constructor
  · intro net
    rw [h.get, hget, find?_cons, hframe.deviceOf]
    by_cases hnet : route.destination = net
    · simp [hnet]
    · have hbeq : (route.destination == net) = false := by simpa using hnet
      simp [hnet, hbeq]
  · intro op
    rw [h.self, hself]
    constructor
    · rintro (⟨(⟨hop, hfirst⟩ | ⟨heq, hnone⟩), hrest⟩ | ⟨r, hr, rfl, hnone⟩)
      · refine .inl ⟨hop, ?_⟩
        intro r hr heq
        rcases mem_cons.mp hr with rfl | hr
        · exact hfirst heq
        · have := hrest r hr heq
          rw [← heq] at this ⊢
          rwa [hsameOp r hr, hsameHit r hr] at this
      · exact .inr ⟨route, by simp, heq, hnone⟩
      · rw [hsameOp r hr] at hnone
        exact .inr ⟨r, mem_cons_of_mem _ hr, rfl, hnone⟩
    · rintro (⟨hop, hall⟩ | ⟨r, hr, rfl, hnone⟩)
      · refine .inl ⟨.inl ⟨hop, fun heq => hall route (by simp) heq⟩, ?_⟩
        intro r hr heq
        have := hall r (mem_cons_of_mem _ hr) heq
        rw [← heq] at this ⊢
        rwa [hsameOp r hr, hsameHit r hr]
      · rcases mem_cons.mp hr with rfl | hr
        · refine .inl ⟨.inr ⟨rfl, hnone⟩, ?_⟩
          intro r' hr' heq
          have hd := hfar r' hr'
          have hd' : r'.destination.trunc = r.destination.trunc := congrArg RouteOp.destination heq
          rw [hwf.2 r' (mem_cons_of_mem _ hr'), hwf.2 r (by simp)] at hd'
          exact absurd hd' hd
        · exact .inr ⟨r, hr, rfl, by rw [hsameOp r hr]; exact hnone⟩
  · intro other hne
    rw [h.other other hne, hother other hne]
  · exact hframe.trans h.frame
  · intro hall
    rw [h.quiet, hquiet (hall route (by simp))]
    intro r hr
    rw [hsame r hr]
    exact hall r (mem_cons_of_mem _ hr)

/-- The verdict on a wanted route when the reading agrees with the table. -/
theorem judge_reading (hget : w.table.get route.destination = table.get route.destination) :
    judge route ours (routeEntries table) =
      match w.table.get route.destination with
      | none => .missing
      | some row =>
        if route.target.matches row.entry then
          if ours then .present else .conflicted .identical
        else .conflicted (.another route.destination row.entry.interfaceName) := by
  rw [judge_entries, hget]
  cases table.get route.destination <;> rfl

theorem hit_iff : hit w.table op = true ↔ ∃ row, w.table.get op.net = some row ∧
      op.target.matches row.entry = true := by
  simp [hit, Option.any_eq_true]

theorem succeeds_addRecorded (hcalm : w.script = [])
    (hhas : w.Has slot) (hours : ours = true ↔ op ∈ w.installed slot)
    (hfree : w.table.get op.net = none) : Succeeds (addRecorded slot op ours) (fun _ v =>
      v.table = w.table.insert (op.row w.deviceOf) ∧
      (∀ op', op' ∈ v.installed slot ↔ op' ∈ w.installed slot ∨ op' = op) ∧
      (∀ other, other ≠ slot → v.installed other = w.installed other) ∧ Framed w v) w := by
  apply wp_tried
  refine wp_sure (succeeds_add hcalm hfree) ?_
  rintro _ v hv
  have hframe : Framed w v := hv ▸ ⟨rfl, rfl, rfl, rfl, rfl⟩
  have htable : v.table = w.table.insert (op.row w.deviceOf) := by rw [hv]
  have hsame : ∀ other, v.installed other = w.installed other := by
    intro other
    cases other <;> rw [hv] <;> rfl
  cases ours with
  | true =>
    refine wp_pure ⟨htable, ?_, fun other _ => hsame other, hframe⟩
    intro op'
    rw [hsame]
    exact ⟨.inl, fun hop => hop.elim id fun heq => heq ▸ hours.mp rfl⟩
  | false =>
    have hvhas : v.Has slot := hframe.has.mpr hhas
    obtain ⟨ftable, _⟩ := setInstalled_frame v slot (v.installed slot ++ [op])
    refine wp_modify ⟨ftable.trans htable, ?_, ?_, hframe.trans (framed_setInstalled v slot _)⟩
    · intro op'
      rw [IntentWorld.push, installed_setInstalled hvhas, if_pos rfl, hsame]
      simp
    · intro other hne
      rw [IntentWorld.push, installed_setInstalled hvhas, if_neg hne, hsame]

/-- A route that was missing has been added and recorded. -/
theorem RouteDone.added {v : IntentWorld} (hnet : (opOf route).net = route.destination)
    (hfree : w.table.get route.destination = none)
    (htable : v.table = w.table.insert ((opOf route).row w.deviceOf))
    (hself : ∀ op, op ∈ v.installed slot ↔ op ∈ w.installed slot ∨ op = opOf route)
    (hother : ∀ other, other ≠ slot → v.installed other = w.installed other)
    (hframe : Framed w v) : RouteDone slot route w v true where
  get net := by
    have hrow : ((opOf route).row w.deviceOf).net = route.destination :=
      (net_entry (opOf route) w.deviceOf).trans hnet
    have hnone : w.table.has ((opOf route).row w.deviceOf).net = false := by
      rw [hrow]
      exact get_eq_none.mp hfree
    rw [htable, get_insert hnone, hrow]
    by_cases hat : net = route.destination
    · rw [if_pos hat, if_pos hat.symm, hat, hfree, none_or]
    · rw [if_neg hat, if_neg (Ne.symm hat), or_none]
  self op := by
    rw [hself]
    constructor
    · rintro (hop | rfl)
      · by_cases heq : opOf route = op
        · exact .inr ⟨heq, heq ▸ hnet.symm ▸ hfree⟩
        · exact .inl ⟨hop, fun h => absurd h heq⟩
      · exact .inr ⟨rfl, hnet.symm ▸ hfree⟩
    · rintro (⟨hop, _⟩ | ⟨heq, _⟩)
      · exact .inl hop
      · exact .inr heq.symm
  other := hother
  frame := hframe
  quiet htaken := absurd hfree htaken
  still h := by cases h

/-- A destination that is taken keeps its row. -/
theorem get_or_taken (htaken : w.table.get route.destination ≠ none) (net : IpNet) :
    w.table.get net = (w.table.get net).or
      (if route.destination = net then some ((opOf route).row w.deviceOf) else none) := by
  by_cases hat : route.destination = net
  · obtain ⟨row, hrow⟩ := ne_none_iff_exists'.mp htaken
    rw [← hat, hrow]
    rfl
  · rw [if_neg hat, or_none]

/-- The route is in place and on record. -/
theorem RouteDone.present (htaken : w.table.get route.destination ≠ none)
    (hhit : hit w.table (opOf route) = true) : RouteDone slot route w w false where
  get := get_or_taken htaken
  self op := by
    constructor
    · exact fun hop => .inl ⟨hop, fun heq => .inr (heq ▸ hhit)⟩
    · rintro (⟨hop, _⟩ | ⟨rfl, hnone⟩)
      · exact hop
      · obtain ⟨row, hrow, -⟩ := hit_iff.mp hhit
        rw [hrow] at hnone
        cases hnone
  other _ _ := rfl
  frame := .refl w
  quiet _ := rfl
  still _ := rfl

/-- A rival is in the way: the op is off the record, if it was on it. -/
theorem RouteDone.forgotten (hhas : w.Has slot) (hnet : (opOf route).net = route.destination)
    (htaken : w.table.get route.destination ≠ none)
    (hrival : opOf route ∈ w.installed slot → hit w.table (opOf route) = false) :
    RouteDone slot route w (w.forget slot (opOf route)) false where
  get net := by
    obtain ⟨ftable, _⟩ := setInstalled_frame w slot ((w.installed slot).filter (· ≠ opOf route))
    rw [show (w.forget slot (opOf route)).table = w.table from ftable]
    exact get_or_taken htaken net
  self op := by
    rw [IntentWorld.forget, installed_setInstalled hhas, if_pos rfl, mem_filter]
    constructor
    · rintro ⟨hop, hne⟩
      exact .inl ⟨hop, fun heq => absurd heq.symm (by simpa using hne)⟩
    · rintro (⟨hop, hkept⟩ | ⟨rfl, hnone⟩)
      · refine ⟨hop, ?_⟩
        simp only [decide_eq_true_eq]
        rintro rfl
        rcases hkept rfl with hnone | hyes
        · exact htaken (hnet ▸ hnone)
        · exact absurd ((hrival hop).symm.trans hyes) (by decide)
      · exact absurd (hnet ▸ hnone) htaken
  other other hne := by rw [IntentWorld.forget, installed_setInstalled hhas, if_neg hne]
  frame := framed_setInstalled w slot _
  quiet _ := by cases slot <;> rfl
  still _ := (setInstalled_frame w slot ((w.installed slot).filter (· ≠ opOf route))).1

/-- The loop of `apply`, with a reading that is right about the destinations ahead. -/
theorem succeeds_installWanted
    {routes : List WantedRoute} (hwf : WellFormed routes) (changed : Bool) (hcalm : w.script = [])
    (hhas : w.Has slot) (hreading : ∀ route ∈ routes,
      w.table.get route.destination = table.get route.destination) :
    Succeeds (installWanted slot (routeEntries table) changed routes)
      (fun changed' w' => Installed slot routes w w' ∧
        (changed' = false → changed = false ∧ w'.table = w.table)) w := by
  induction routes generalizing w changed with
  | nil =>
    refine wp_pure ⟨⟨?_, ?_, fun _ _ => rfl, .refl w, fun _ => rfl⟩, fun h => ⟨h, rfl⟩⟩
    · intro net
      simp
    · intro op
      simp
  | cons route rest ih =>
    have hopnet : (opOf route).net = route.destination := opOf_net (hwf.2 route (by simp))
    -- What is left to show once the first route is dealt with.
    have hnext : ∀ {v : IntentWorld} {ran : Bool}, RouteDone slot route w v ran →
        Succeeds (installWanted slot (routeEntries table) (changed || ran) rest)
          (fun changed' w' => Installed slot (route :: rest) w w' ∧
            (changed' = false → changed = false ∧ w'.table = w.table)) v := by
      intro v ran hdone
      have hahead : ∀ r ∈ rest, v.table.get r.destination = table.get r.destination := by
        intro r hr
        rw [hdone.get, if_neg (hwf.far r hr).symm, or_none]
        exact hreading r (mem_cons_of_mem _ hr)
      refine wp_post (ih hwf.tail (changed || ran) (hdone.frame.script.trans hcalm)
        (hdone.frame.has.mpr hhas) hahead) ?_
      rintro changed' w' ⟨hinstalled, hchanged⟩
      refine ⟨hinstalled.cons hwf hdone, fun hfalse => ?_⟩
      obtain ⟨hsoFar, htable⟩ := hchanged hfalse
      rw [Bool.or_eq_false_iff] at hsoFar
      exact ⟨hsoFar.1, htable.trans (hdone.still hsoFar.2)⟩
    apply wp_read
    rw [judge_reading (hreading route (by simp))]
    cases hrow : w.table.get route.destination with
    | none =>
      have hfree : w.table.get (opOf route).net = none := by rw [hopnet, hrow]
      have hours : ((w.installed slot).contains (opOf route) = true ↔
          opOf route ∈ w.installed slot) := by simp
      apply wp_then (succeeds_addRecorded hcalm hhas hours hfree)
      rintro _ v ⟨htable, hself, hother, hframe⟩
      have hadded := hnext (.added hopnet hrow htable hself hother hframe)
      rwa [Bool.or_true] at hadded
    | some row =>
      have htaken : w.table.get route.destination ≠ none := by simp [hrow]
      have hhit : hit w.table (opOf route) = route.target.matches row.entry := by
        unfold hit
        rw [hopnet, hrow]
        rfl
      have hforget : (opOf route ∈ w.installed slot → hit w.table (opOf route) = false) →
          Succeeds (do
            Call.modify (IntentWorld.forget slot (opOf route))
            installWanted slot (routeEntries table) changed rest)
            (fun changed' w' => Installed slot (route :: rest) w w' ∧
              (changed' = false → changed = false ∧ w'.table = w.table)) w := by
        intro hrival
        have hforgotten := hnext (.forgotten hhas hopnet htaken hrival)
        rw [Bool.or_false] at hforgotten
        exact wp_write hforgotten
      cases hmatch : route.target.matches row.entry with
      | false =>
        simp only [hmatch, Bool.false_eq_true, if_false]
        exact hforget fun _ => hhit.trans hmatch
      | true =>
        cases hours : (w.installed slot).contains (opOf route) with
        | true =>
          simp only [hmatch, if_true]
          have hpresent := hnext (.present htaken (hhit.trans hmatch))
          rwa [Bool.or_false] at hpresent
        | false =>
          simp only [hmatch, if_true, Bool.false_eq_true, if_false]
          apply hforget
          intro hop
          have : (w.installed slot).contains (opOf route) = true := by simpa using hop
          exact absurd (hours.symm.trans this) (by decide)

/-- The same state, as far as a reconcile reads it. -/
structure SameState (w w' : IntentWorld) : Prop where
  table : w'.table = w.table
  intents : w'.intents = w.intents
  rules : w'.rules = w.rules
  commands : w'.commands = w.commands
  frame : Framed w w'

theorem SameState.installed {w' : IntentWorld} (h : SameState w w') (slot : Slot) :
    w'.installed slot = w.installed slot := by
  cases slot <;> simp only [IntentWorld.installed, h.intents, h.rules]

theorem succeeds_reread {changed : Bool} {entries : List RouteEntry} (hcalm : w.script = [])
    (hentries : changed = false → entries = routeEntries w.table) :
    Succeeds (reread changed entries)
      (fun entries' w' => entries' = routeEntries w.table ∧ SameState w w') w := by
  cases changed with
  | false => exact wp_pure ⟨hentries rfl, rfl, rfl, rfl, rfl, .refl w⟩
  | true =>
    refine wp_post (succeeds_probeRoutes hcalm) ?_
    rintro entries' w' ⟨hread, rfl⟩
    exact ⟨hread, rfl, rfl, rfl, rfl, rfl, rfl, rfl, rfl, rfl⟩

end

/-! ### A turn at a destination -/

/-- What is recorded and not wanted any more. -/
def staleOps (wanted : List WantedRoute) (installed : List RouteOp) : List RouteOp :=
  installed.filter fun op => !(wanted.map opOf).contains op

/-- What a stored intent or rule does at a destination when its turn comes. -/
def turnAt (network : NetworkView) (w : IntentWorld) (slot : Slot) (net : IpNet) :
    Lib.Turn (RouteRow RouteOp) :=
  match w.derivation text network slot with
  | none => .absent
  | some derivation =>
    { drops := fun row => (staleOps derivation.wanted (w.installed slot)).any fun op =>
        op.net == net && op.target.matches row.entry
      takes := (derivation.wanted.find? fun route => route.destination == net).map fun route =>
        (opOf route).row w.deviceOf }

/-- Nothing to withdraw and nothing missing. -/
def InLine (network : NetworkView) (w : IntentWorld) (slot : Slot) : Prop :=
  ∀ derivation, w.derivation text network slot = some derivation →
    staleOps derivation.wanted (w.installed slot) = [] ∧
      ∀ route ∈ derivation.wanted, w.table.get route.destination ≠ none

section
variable {text : NetText} {network : NetworkView} {slot : Slot} {w w' : IntentWorld}
variable {slots : List Slot} {v : IntentWorld} {derivation : Derivation}

/-- The turn of a stored intent or rule, at every destination at once. -/
structure TurnTaken (text : NetText) (network : NetworkView) (slot : Slot) (w w' : IntentWorld) :
    Prop where
  get : ∀ net, w'.table.get net = (turnAt text network w slot net).run (w.table.get net)
  self : ∀ derivation, w.derivation text network slot = some derivation → ∀ op,
    (op ∈ w'.installed slot ↔ ∃ route ∈ derivation.wanted, opOf route = op ∧
      ((turnAt text network w slot op.net).left (w.table.get op.net) = none ∨
        op ∈ w.installed slot ∧ ∃ row, (turnAt text network w slot op.net).left
          (w.table.get op.net) = some row ∧ op.target.matches row.entry = true))
  idle : w.derivation text network slot = none → w'.installed slot = w.installed slot
  other : ∀ other, other ≠ slot → w'.installed other = w.installed other
  frame : Framed w w'
  quiet : InLine text network w slot → w'.commands = w.commands

/-- The table after the withdrawal is what the turn leaves. -/
theorem left_eq (hd : w.derivation text network slot = some derivation) (net : IpNet) :
    (turnAt text network w slot net).left (w.table.get net) =
      if (staleOps derivation.wanted (w.installed slot)).any
        (fun op => op.net == net && hit w.table op) then none else w.table.get net := by
  have hdrops : ∀ row, w.table.get net = some row → (turnAt text network w slot net).drops row =
        (staleOps derivation.wanted (w.installed slot)).any
          (fun op => op.net == net && hit w.table op) := by
    intro row hrow
    have hsame : (fun op : RouteOp => op.net == net && op.target.matches row.entry) =
        fun op => op.net == net && hit w.table op := by
      funext op
      by_cases hnet : op.net = net
      · simp [hit, hnet, hrow]
      · have hbeq : (op.net == net) = false := by simpa using hnet
        rw [hbeq, Bool.false_and, Bool.false_and]
    simp only [turnAt, hd, hsame]
  unfold Lib.Turn.left
  cases hrow : w.table.get net with
  | none => simp
  | some row =>
    rw [← hdrops row hrow]
    cases hdrop : (turnAt text network w slot net).drops row <;> simp [Option.filter, hdrop]

/-- What was stale is withdrawn, and what is kept is on record. -/
structure Withdrawn (text : NetText) (network : NetworkView) (slot : Slot)
    (derivation : Derivation) (w v : IntentWorld) : Prop where
  get : ∀ net, v.table.get net = (turnAt text network w slot net).left (w.table.get net)
  self : ∀ op, op ∈ v.installed slot ↔
    op ∈ w.installed slot ∧ ∃ route ∈ derivation.wanted, opOf route = op
  other : ∀ other, other ≠ slot → v.installed other = w.installed other
  frame : Framed w v
  still : staleOps derivation.wanted (w.installed slot) = [] →
    v.table = w.table ∧ v.commands = w.commands

/-- Where nothing of the state is read that changed, nothing is lost. -/
theorem Withdrawn.same {u : IntentWorld} (h : Withdrawn text network slot derivation w u)
    (hv : SameState u v) : Withdrawn text network slot derivation w v where
  get net := by rw [hv.table, h.get]
  self op := by rw [hv.installed, h.self]
  other other hne := by rw [hv.installed, h.other other hne]
  frame := h.frame.trans hv.frame
  still hempty := ⟨hv.table.trans (h.still hempty).1, hv.commands.trans (h.still hempty).2⟩

/-- The withdrawal at the beginning of `apply`, once the kept ops are on record. -/
theorem succeeds_withdrawStale (hcalm : w.script = [])
    (hd : w.derivation text network slot = some derivation) :
    Succeeds (withdraw (staleOps derivation.wanted (w.installed slot)) (routeEntries w.table))
      (fun _ v => Withdrawn text network slot derivation w v)
      (w.setInstalled slot ((w.installed slot).filter (derivation.wanted.map opOf).contains)) := by
  obtain ⟨hhas, -⟩ := derivation_some hd
  obtain ⟨ftable, _⟩ := setInstalled_frame w slot
    ((w.installed slot).filter (derivation.wanted.map opOf).contains)
  have hset := installed_setInstalled hhas
    ((w.installed slot).filter (derivation.wanted.map opOf).contains)
  have hcommands : (w.setInstalled slot
      ((w.installed slot).filter (derivation.wanted.map opOf).contains)).commands = w.commands := by
    cases slot <;> rfl
  have hframe := framed_setInstalled w slot
    ((w.installed slot).filter (derivation.wanted.map opOf).contains)
  generalize w.setInstalled slot
    ((w.installed slot).filter (derivation.wanted.map opOf).contains) = v at *
  apply wp_write
  have hbegin : Framed v (v.beginWithdrawal (staleOps derivation.wanted (w.installed slot))) :=
    ⟨rfl, rfl, rfl, rfl, rfl⟩
  have hvcalm : (v.beginWithdrawal (staleOps derivation.wanted (w.installed slot))).script = [] :=
    hframe.script.trans hcalm
  refine wp_post (succeeds_withdrawEach w.table
    (staleOps derivation.wanted (w.installed slot)) hvcalm) ?_
  rintro _ u ⟨hget, hintents, hrules, huframe, hnil⟩
  have hinstalled : ∀ other, u.installed other = v.installed other := by
    intro other
    cases other <;> simp only [IntentWorld.installed, hintents, hrules] <;> rfl
  refine ⟨?_, ?_, ?_, (hframe.trans hbegin).trans huframe, ?_⟩
  · intro net
    rw [left_eq hd, hget]
    show (if _ then none else v.table.get net) = _
    rw [ftable]
  · intro op
    rw [hinstalled, hset, if_pos rfl, mem_filter]
    simp
  · intro other hne
    rw [hinstalled, hset, if_neg hne]
  · intro hempty
    obtain ⟨htable, hcmd⟩ := hnil hempty
    exact ⟨htable.trans ftable, hcmd.trans hcommands⟩

/-- A withdrawal and the loop after it are a turn. -/
theorem Withdrawn.taken (hd : w.derivation text network slot = some derivation)
    (h : Withdrawn text network slot derivation w v) (hin : Installed slot derivation.wanted v w') :
    TurnTaken text network slot w w' := by
  have hhit : ∀ op, hit v.table op = true ↔ ∃ row,
      (turnAt text network w slot op.net).left (w.table.get op.net) = some row ∧
        op.target.matches row.entry = true := by
    intro op
    rw [hit_iff]
    simp only [h.get]
  refine ⟨?_, ?_, ?_, ?_, h.frame.trans hin.frame, ?_⟩
  · intro net
    rw [hin.get, h.get, h.frame.deviceOf, Lib.Turn.run]
    simp only [turnAt, hd]
  · intro derivation' hd' op
    obtain rfl : derivation = derivation' := Option.some.inj (hd.symm.trans hd')
    rw [hin.self, h.self, h.get, hhit]
    constructor
    · rintro (⟨⟨hop, route, hroute, rfl⟩, hall⟩ | ⟨route, hroute, rfl, hnone⟩)
      · refine ⟨route, hroute, rfl, ?_⟩
        rcases hall route hroute rfl with hnone | hhit
        · exact .inl hnone
        · exact .inr ⟨hop, hhit⟩
      · exact ⟨route, hroute, rfl, .inl hnone⟩
    · rintro ⟨route, hroute, rfl, hnone | ⟨hop, hhit⟩⟩
      · exact .inr ⟨route, hroute, rfl, hnone⟩
      · exact .inl ⟨⟨hop, route, hroute, rfl⟩, fun _ _ _ => .inr hhit⟩
  · intro hnone
    exact absurd (hnone.symm.trans hd) (by simp)
  · intro other hne
    rw [hin.other other hne, h.other other hne]
  · intro hline
    obtain ⟨hempty, hall⟩ := hline derivation hd
    obtain ⟨htable, hcmd⟩ := h.still hempty
    rw [hin.quiet, hcmd]
    intro route hroute
    rw [htable]
    exact hall route hroute

theorem succeeds_applyDerivation (hcalm : w.script = [])
    (hd : w.derivation text network slot = some derivation) :
    Succeeds (applyDerivation slot derivation (routeEntries w.table))
      (fun changed w' => TurnTaken text network slot w w' ∧
        (changed = false → w'.table = w.table)) w := by
  obtain ⟨hhas, hwf⟩ := derivation_some hd
  apply wp_read
  apply wp_write
  apply wp_bind
  refine wp_post (succeeds_withdrawStale hcalm hd) ?_
  rintro _ u hu
  apply wp_bind
  have hreread : (!(staleOps derivation.wanted (w.installed slot)).isEmpty) = false →
      routeEntries w.table = routeEntries u.table := by
    intro hempty
    rw [(hu.still (by simpa using hempty)).1]
  refine wp_post (succeeds_reread (hu.frame.script.trans hcalm) hreread) ?_
  rintro entries v ⟨rfl, hv⟩
  have hwv := hu.same hv
  refine wp_post (succeeds_installWanted hwf
    (!(staleOps derivation.wanted (w.installed slot)).isEmpty) (hwv.frame.script.trans hcalm)
    (hwv.frame.has.mpr hhas) fun route _ => by rw [hv.table]) ?_
  rintro changed w' ⟨hin, hchanged⟩
  refine ⟨hwv.taken hd hin, ?_⟩
  intro hfalse
  obtain ⟨hempty, htable⟩ := hchanged hfalse
  rw [htable, (hwv.still (by simpa using hempty)).1]

/-! ### A whole pass -/

/-- The turns at a destination, in order. -/
def turnsAt (text : NetText) (network : NetworkView) (w : IntentWorld) (slots : List Slot)
    (net : IpNet) : List (Lib.Turn (RouteRow RouteOp)) :=
  slots.map fun slot => turnAt text network w slot net

/-- The slots had their turns, one after another. -/
structure Passed (text : NetText) (network : NetworkView) (slots : List Slot)
    (w w' : IntentWorld) : Prop where
  get : ∀ net, w'.table.get net = runTurns (turnsAt text network w slots net) (w.table.get net)
  self : ∀ before slot after, slots = before ++ slot :: after → ∀ derivation,
    w.derivation text network slot = some derivation → ∀ op,
    (op ∈ w'.installed slot ↔ ∃ route ∈ derivation.wanted, opOf route = op ∧
      ((turnAt text network w slot op.net).left
          (runTurns (turnsAt text network w before op.net) (w.table.get op.net)) = none ∨
        op ∈ w.installed slot ∧ ∃ row, (turnAt text network w slot op.net).left
          (runTurns (turnsAt text network w before op.net) (w.table.get op.net)) = some row ∧
          op.target.matches row.entry = true))
  idle : ∀ slot, w.derivation text network slot = none → w'.installed slot = w.installed slot
  rest : ∀ slot, slot ∉ slots → w'.installed slot = w.installed slot
  frame : Framed w w'
  quiet : (∀ slot ∈ slots, InLine text network w slot) → w'.commands = w.commands

/-- A turn does not change what the others are going to do. -/
theorem TurnTaken.turnAt_other (h : TurnTaken text network slot w w') {other : Slot}
    (hne : other ≠ slot) (net : IpNet) :
    turnAt text network w' other net = turnAt text network w other net := by
  unfold turnAt
  rw [h.frame.derivation, h.other other hne, h.frame.deviceOf]

theorem TurnTaken.turnsAt (h : TurnTaken text network slot w w')
    (hnot : slot ∉ slots) (net : IpNet) :
    turnsAt text network w' slots net = turnsAt text network w slots net := by
  unfold Macos.turnsAt
  apply map_congr_left
  intro other hother
  apply h.turnAt_other
  rintro rfl
  exact hnot hother

/-- A turn with nothing to withdraw keeps what is there. -/
theorem run_of_inLine (h : InLine text network w slot) {net : IpNet}
    (htaken : w.table.get net ≠ none) :
    (turnAt text network w slot net).run (w.table.get net) = w.table.get net := by
  obtain ⟨row, hrow⟩ := ne_none_iff_exists'.mp htaken
  rw [hrow]
  apply run_of_not_drops
  unfold turnAt
  cases hd : w.derivation text network slot with
  | none => rfl
  | some derivation => simp [(h derivation hd).1]

theorem inLine_after (h : TurnTaken text network slot w w') (hslot : InLine text network w slot)
    {other : Slot} (hne : other ≠ slot) (hother : InLine text network w other) :
    InLine text network w' other := by
  intro derivation hd
  rw [h.frame.derivation] at hd
  obtain ⟨hstale, hall⟩ := hother derivation hd
  refine ⟨by rw [h.other other hne]; exact hstale, ?_⟩
  intro route hroute
  rw [h.get, run_of_inLine hslot (hall route hroute)]
  exact hall route hroute

/-- The first turn of a pass, and the pass of the others. -/
theorem Passed.cons (hnot : slot ∉ slots)
    (hturn : TurnTaken text network slot w v) (h : Passed text network slots v w') :
    Passed text network (slot :: slots) w w' := by
  constructor
  · intro net
    rw [h.get, hturn.turnsAt hnot, hturn.get]
    rfl
  · intro before s after hsplit derivation hd op
    cases before with
    | nil =>
      obtain ⟨rfl, rfl⟩ : slot = s ∧ slots = after := by simpa using hsplit
      rw [h.rest slot hnot]
      exact hturn.self derivation hd op
    | cons first before =>
      obtain ⟨rfl, hrest⟩ : slot = first ∧ slots = before ++ s :: after := by simpa using hsplit
      have hs : s ≠ slot := by
        rintro rfl
        exact hnot (by simp [hrest])
      have hbefore : slot ∉ before := fun hmem => hnot (by simp [hrest, hmem])
      rw [h.self before s after hrest derivation (by rw [hturn.frame.derivation]; exact hd),
        hturn.turnAt_other hs, hturn.turnsAt hbefore, hturn.get, hturn.other s hs]
      rfl
  · intro s hnone
    rw [h.idle s (by rw [hturn.frame.derivation]; exact hnone)]
    by_cases hs : s = slot
    · subst hs
      exact hturn.idle hnone
    · exact hturn.other s hs
  · intro s hs
    rw [mem_cons, not_or] at hs
    rw [h.rest s hs.2, hturn.other s hs.1]
  · exact hturn.frame.trans h.frame
  · intro hline
    have hslot := hline slot (by simp)
    rw [h.quiet, hturn.quiet hslot]
    intro s hs
    have hne : s ≠ slot := by
      rintro rfl
      exact hnot hs
    exact inLine_after hturn hslot hne (hline s (mem_cons_of_mem _ hs))

theorem passed_nil : Passed text network [] w w where
  get := fun _ => rfl
  self := by
    intro before slot after hsplit
    simp at hsplit
  idle := fun _ _ => rfl
  rest := fun _ _ => rfl
  frame := .refl w
  quiet := fun _ => rfl

/-- A stored intent that is not accepted has no turn. -/
theorem turnTaken_none (hd : w.derivation text network slot = none) :
    TurnTaken text network slot w w where
  get := by
    intro net
    simp only [turnAt, hd]
    exact (run_absent _).symm
  self := by
    intro derivation hd'
    rw [hd] at hd'
    cases hd'
  idle := fun _ => rfl
  other := fun _ _ => rfl
  frame := .refl w
  quiet := fun _ => rfl

/-- The same state, read again, does not change what a pass does. -/
theorem TurnTaken.reread (h : TurnTaken text network slot w v)
    (hsame : SameState v w') : TurnTaken text network slot w w' where
  get := fun net => by rw [hsame.table, h.get]
  self := fun derivation hd op => by rw [hsame.installed, h.self derivation hd]
  idle := fun hnone => by rw [hsame.installed, h.idle hnone]
  other := fun other hne => by rw [hsame.installed, h.other other hne]
  frame := h.frame.trans hsame.frame
  quiet := fun hline => by rw [hsame.commands, h.quiet hline]

theorem succeeds_reconcileSlots (hnodup : slots.Nodup) (hcalm : w.script = []) :
    Succeeds (reconcileSlots text network (routeEntries w.table) slots)
      (fun _ w' => Passed text network slots w w') w := by
  induction slots generalizing w with
  | nil => exact wp_pure passed_nil
  | cons slot rest ih =>
    rw [nodup_cons] at hnodup
    apply wp_read
    cases hd : w.derivation text network slot with
    | none =>
      refine wp_post (ih hnodup.2 hcalm) ?_
      exact fun _ w' hw' => Passed.cons hnodup.1 (turnTaken_none hd) hw'
    | some derivation =>
      apply wp_then (succeeds_applyDerivation hcalm hd)
      rintro changed v ⟨hturn, htable⟩
      have hvcalm : v.script = [] := hturn.frame.script.trans hcalm
      apply wp_then (succeeds_reread hvcalm fun hfalse => by rw [htable hfalse])
      rintro entries x ⟨rfl, hsame⟩
      rw [← hsame.table]
      refine wp_post (ih hnodup.2 (hsame.frame.script.trans hvcalm)) ?_
      exact fun _ w' hw' => Passed.cons hnodup.1 (hturn.reread hsame) hw'

theorem nodup_slots (w : IntentWorld) : w.slots.Nodup := by
  unfold IntentWorld.slots
  rw [nodup_append]
  refine ⟨nodup_range.map fun _ _ h => Slot.intent.inj h,
    nodup_range.map fun _ _ h => Slot.rule.inj h, ?_⟩
  rintro a ha b hb rfl
  obtain ⟨i, _, rfl⟩ := mem_map.mp ha
  obtain ⟨j, _, hj⟩ := mem_map.mp hb
  cases hj

theorem mem_slots : slot ∈ w.slots ↔ w.Has slot := by
  cases slot with
  | intent index => simp [IntentWorld.slots, IntentWorld.Has]
  | rule index => simp [IntentWorld.slots, IntentWorld.Has]

theorem Passed.reread (h : Passed text network slots w v)
    (hsame : SameState v w') : Passed text network slots w w' where
  get := fun net => by rw [hsame.table, h.get]
  self := fun before s after hsplit derivation hd op => by
    rw [hsame.installed, h.self before s after hsplit derivation hd]
  idle := fun s hnone => by rw [hsame.installed, h.idle s hnone]
  rest := fun s hs => by rw [hsame.installed, h.rest s hs]
  frame := h.frame.trans hsame.frame
  quiet := fun hline => by rw [hsame.commands, h.quiet hline]

/-- What a pass does depends on the state alone. -/
theorem Passed.start (h : Passed text network slots v w')
    (hsame : SameState w v) : Passed text network slots w w' := by
  have hturn : ∀ s net, turnAt text network v s net = turnAt text network w s net := by
    intro s net
    unfold turnAt
    rw [hsame.frame.derivation, hsame.installed, hsame.frame.deviceOf]
  have hturns : ∀ l net, turnsAt text network v l net = turnsAt text network w l net :=
    fun l net => map_congr_left fun s _ => hturn s net
  constructor
  · intro net
    rw [h.get, hturns, hsame.table]
  · intro before s after hsplit derivation hd op
    rw [h.self before s after hsplit derivation (by rw [hsame.frame.derivation]; exact hd), hturn,
      hturns, hsame.table, hsame.installed]
  · intro s hnone
    rw [h.idle s (by rw [hsame.frame.derivation]; exact hnone), hsame.installed]
  · intro s hs
    rw [h.rest s hs, hsame.installed]
  · exact hsame.frame.trans h.frame
  · intro hline
    rw [h.quiet, hsame.commands]
    intro s hs derivation hd
    rw [hsame.frame.derivation] at hd
    rw [hsame.installed, hsame.table]
    exact hline s hs derivation hd

/-- An undisturbed reconcile is a pass of all the slots. -/
theorem succeeds_reconcileLocked (hcalm : w.script = []) :
    Succeeds (reconcileLocked text) (fun _ w' => Passed text w.view w.slots w w') w := by
  apply wp_then (succeeds_probeView hcalm)
  rintro network v ⟨rfl, rfl⟩
  apply wp_then (succeeds_probeRoutes hcalm)
  rintro entries u ⟨rfl, rfl⟩
  apply wp_read
  apply wp_bind
  have hread : SameState v { v with dump := some (routeEntries v.table) } :=
    ⟨rfl, rfl, rfl, rfl, rfl, rfl, rfl, rfl, rfl⟩
  generalize ({ v with dump := some (routeEntries v.table) } : IntentWorld) = u at hread
  rw [← hread.table]
  have hucalm : u.script = [] := hread.frame.script.trans hcalm
  refine wp_post (succeeds_reconcileSlots (nodup_slots u) hucalm) ?_
  intro _ x hx
  have hx : Passed text v.view v.slots v x := by
    rw [hread.frame.slots] at hx
    exact hx.start hread
  apply wp_modify
  exact hx.reread ⟨rfl, rfl, rfl, rfl, rfl, rfl, rfl, rfl, rfl⟩

theorem succeeds_reconcile (hcalm : w.script = []) :
    Succeeds (reconcile text) (fun _ w' => Passed text w.view w.slots w w') w := by
  apply wp_then (succeeds_reconcileLocked hcalm)
  intro _ x hx
  apply wp_bind
  apply wp_discard
  apply wp_attempt
  apply wp_syscall_calm (hx.frame.script.trans hcalm)
  · intro _ w' hrun
    cases hrun
    exact wp_pure (hx.reread ⟨rfl, rfl, rfl, rfl, rfl, rfl, rfl, rfl, rfl⟩)
  · intro e w' hrun
    cases hrun

end

/-! ### Convergence -/

/-- A stored intent or rule wants the route, given the network as it is. -/
def Wants (slot : Slot) (route : WantedRoute) : Prop :=
  ∃ derivation, w.derivation text w.view slot = some derivation ∧ route ∈ derivation.wanted

/-- The destination has a route that is on nobody's record. -/
def HeldByOther (net : IpNet) : Prop :=
  ∃ row, w.table.get net = some row ∧ ∀ slot, ∀ op ∈ w.installed slot, op.net = net →
    op.target.matches row.entry = false

/-- `w'` is in line with what is stored, as far as others allow it. -/
structure Converged (text : NetText) (w w' : IntentWorld) : Prop where
  wanted : ∀ slot route, Wants text w slot route → ¬HeldByOther w route.destination →
    ∃ slot' route' row, Wants text w slot' route' ∧ route'.destination = route.destination ∧
      w'.table.get route.destination = some row ∧ route'.target.matches row.entry = true ∧
      opOf route' ∈ w'.installed slot'
  unwanted : ∀ net row, w'.table.get net = some row →
    w.table.get net = some row ∧ HeldByOther w net ∨
      ∃ slot route, Wants text w slot route ∧ route.destination = net ∧
        route.target.matches row.entry = true
  records : ∀ slot, ∀ op ∈ w'.installed slot, ∃ route, Wants text w slot route ∧ opOf route = op

/-- One undisturbed reconcile brings everything in line, and a second one runs no command. -/
def ConvergesAtOnce : Prop :=
  ∃ answer w' rest, reconcile text w [] = (.ok answer, w', rest) ∧ Converged text w w' ∧
    ∃ answer' w'' rest', reconcile text w' [] = (.ok answer', w'', rest') ∧
      w''.commands = w'.commands

/-- At no wanted destination does anyone behind the last that wants it drop the route which is
there by then. -/
def NotUndercut : Prop :=
  ∀ slot route, Wants text w slot route → ¬HeldByOther w route.destination →
    ¬Undercut (turnsAt text w.view w w.slots route.destination)
      (w.table.get route.destination)

/-- Whatever has a record has a derivation: the helper accepts a stored intent that has one. -/
def Recognized : Prop :=
  ∀ slot, ∀ op ∈ w.installed slot, ∃ derivation, w.derivation text w.view slot = some derivation

section
variable {text : NetText} {w w' : IntentWorld}
variable {slot : Slot} {op : RouteOp} {route : WantedRoute} {net : IpNet} {row : RouteRow RouteOp}

theorem has_of_mem_installed (h : op ∈ w.installed slot) : w.Has slot := by
  cases slot with
  | intent index =>
    by_contra hnot
    have hnone : w.intents[index]? = none := getElem?_eq_none (Nat.le_of_not_lt hnot)
    simp [IntentWorld.installed, hnone] at h
  | rule index =>
    by_contra hnot
    have hnone : w.rules[index]? = none := getElem?_eq_none (Nat.le_of_not_lt hnot)
    simp [IntentWorld.installed, hnone] at h

/-- A turn that does not come leaves its records as they are. -/
theorem Passed.derivation_of_recorded (h : Passed text w.view w.slots w w')
    (hknown : Recognized text w) (hop : op ∈ w'.installed slot) :
    ∃ derivation, w.derivation text w.view slot = some derivation := by
  cases hd : w.derivation text w.view slot with
  | some derivation => exact ⟨derivation, rfl⟩
  | none =>
    rw [h.idle slot hd] at hop
    obtain ⟨derivation, hd'⟩ := hknown slot op hop
    exact ⟨derivation, hd.symm.trans hd'⟩

theorem wants_trunc (h : Wants text w slot route) :
    route.destination.trunc = route.destination := by
  obtain ⟨derivation, hd, hroute⟩ := h
  exact (derivation_some hd).2.2 route hroute

/-- The turns that take a destination are those of the routes to it. -/
theorem takes_eq_some (h : (turnAt text w.view w slot net).takes = some row) :
    ∃ route, Wants text w slot route ∧ route.destination = net ∧
      row = (opOf route).row w.deviceOf := by
  unfold turnAt at h
  cases hd : w.derivation text w.view slot with
  | none => simp [hd, Lib.Turn.absent] at h
  | some derivation =>
    simp only [hd] at h
    obtain ⟨route, hfind, rfl⟩ := map_eq_some_iff.mp h
    exact ⟨route, ⟨derivation, hd, mem_of_find?_eq_some hfind⟩,
      by simpa using find?_some hfind, rfl⟩

theorem takes_isSome (h : Wants text w slot route) :
    (turnAt text w.view w slot route.destination).takes.isSome = true := by
  obtain ⟨derivation, hd, hroute⟩ := h
  simp only [turnAt, hd, isSome_map, find?_isSome]
  exact ⟨route, hroute, by simp⟩

theorem exists_taker (h : Wants text w slot route) :
    ∃ turn ∈ turnsAt text w.view w w.slots route.destination, turn.takes.isSome = true := by
  have htakes := takes_isSome h
  obtain ⟨derivation, hd, _⟩ := h
  exact ⟨_, mem_map_of_mem (mem_slots.mpr (derivation_some hd).1), htakes⟩

/-- A record that its own turn does not drop is wanted. -/
theorem wants_of_kept (hknown : Recognized text w) (hop : op ∈ w.installed slot)
    (hmatch : op.target.matches row.entry = true)
    (hkept : (turnAt text w.view w slot op.net).drops row = false) :
    ∃ route, Wants text w slot route ∧ opOf route = op := by
  obtain ⟨derivation, hd⟩ := hknown slot op hop
  by_cases hwanted : op ∈ derivation.wanted.map opOf
  · obtain ⟨route, hroute, rfl⟩ := mem_map.mp hwanted
    exact ⟨route, ⟨derivation, hd, hroute⟩, rfl⟩
  · have hdrops : (turnAt text w.view w slot op.net).drops row = true := by
      simp only [turnAt, hd, List.any_eq_true]
      refine ⟨op, List.mem_filter.mpr ⟨hop, by simpa using hwanted⟩, by simp [hmatch]⟩
    exact absurd (hkept.symm.trans hdrops) (by decide)

/-- Nobody drops a route that is on nobody's record. -/
theorem not_drops_of_heldByOther
    (hrow : w.table.get net = some row) (h : HeldByOther w net) (slot : Slot) :
    (turnAt text w.view w slot net).drops row = false := by
  obtain ⟨row', hrow', hforeign⟩ := h
  obtain rfl : row' = row := Option.some.inj (hrow'.symm.trans hrow)
  rw [Bool.eq_false_iff]
  intro hdrops
  unfold turnAt at hdrops
  cases hd : w.derivation text w.view slot with
  | none => simp [hd, Lib.Turn.absent] at hdrops
  | some derivation =>
    simp only [hd, List.any_eq_true] at hdrops
    obtain ⟨op, hop, hboth⟩ := hdrops
    rw [Bool.and_eq_true, beq_iff_eq] at hboth
    have hno := hforeign slot op (List.mem_filter.mp hop).1 hboth.1
    exact absurd (hno.symm.trans hboth.2) (by decide)

section
variable (h : Passed text w.view w.slots w w')
include h

/-- Where the route of a destination comes from after a pass. -/
theorem Passed.origin (hknown : Recognized text w) (hrow : w'.table.get net = some row) :
    w.table.get net = some row ∧ HeldByOther w net ∨
      ∃ slot route, Wants text w slot route ∧ route.destination = net ∧
        route.target.matches row.entry = true ∧ opOf route ∈ w'.installed slot := by
  rw [h.get] at hrow
  rcases runTurns_origin hrow with ⟨before, turn, after, hsplit, htakes, hfree⟩ | ⟨hheld, hkept⟩
  · -- Somebody added it in this pass, and recorded it.
    obtain ⟨slotsBefore, slotsRest, hslots, rfl, hrest⟩ := map_eq_append_iff.mp hsplit
    obtain ⟨slot, slotsAfter, rfl, rfl, rfl⟩ := map_eq_cons_iff.mp hrest
    obtain ⟨route, hwants, rfl, rfl⟩ := takes_eq_some htakes
    refine .inr ⟨slot, route, hwants, rfl, matches_entry (opOf route) w.deviceOf, ?_⟩
    obtain ⟨derivation, hd, hroute⟩ := hwants
    rw [h.self slotsBefore slot slotsAfter hslots derivation hd]
    refine ⟨route, hroute, rfl, .inl ?_⟩
    rw [opOf_net ((derivation_some hd).2.2 route hroute)]
    exact hfree
  · by_cases hother : HeldByOther w net
    · exact .inl ⟨hheld, hother⟩
    · -- It was there, and whoever recorded it still wants it.
      have hrecord : ∃ slot, ∃ op ∈ w.installed slot, op.net = net ∧
          op.target.matches row.entry = true := by
        by_contra hnone
        refine hother ⟨row, hheld, ?_⟩
        intro slot op hop hnet
        rw [Bool.eq_false_iff]
        exact fun hmatch => hnone ⟨slot, op, hop, hnet, hmatch⟩
      obtain ⟨slot, op, hop, rfl, hmatch⟩ := hrecord
      have hmem : slot ∈ w.slots := mem_slots.mpr (has_of_mem_installed hop)
      have hslot := hkept _ (mem_map_of_mem hmem)
      obtain ⟨route, hwants, rfl⟩ := wants_of_kept hknown hop hmatch hslot
      refine .inr ⟨slot, route, hwants, (opOf_net (wants_trunc hwants)).symm, hmatch, ?_⟩
      obtain ⟨slotsBefore, slotsAfter, hslots⟩ := append_of_mem hmem
      obtain ⟨derivation, hd, hroute⟩ := hwants
      rw [h.self slotsBefore slot slotsAfter hslots derivation hd]
      refine ⟨route, hroute, rfl, .inr ⟨hop, row, ?_, hmatch⟩⟩
      have hstill : runTurns (turnsAt text w.view w slotsBefore (opOf route).net) (some row) =
          some row := by
        apply runTurns_of_not_drops
        intro turn hturn
        obtain ⟨s, hs, rfl⟩ := mem_map.mp hturn
        exact hkept _ (mem_map_of_mem (by rw [hslots]; simp [hs]))
      rw [hheld, hstill]
      simp [Lib.Turn.left, hslot]

theorem Passed.records (hknown : Recognized text w) (slot : Slot) :
    ∀ op ∈ w'.installed slot, ∃ route, Wants text w slot route ∧ opOf route = op := by
  intro op hop
  obtain ⟨derivation, hd⟩ := h.derivation_of_recorded hknown hop
  obtain ⟨before, after, hslots⟩ := append_of_mem (mem_slots.mpr (derivation_some hd).1)
  rw [h.self before slot after hslots derivation hd] at hop
  obtain ⟨route, hroute, heq, _⟩ := hop
  exact ⟨route, ⟨derivation, hd, hroute⟩, heq⟩

/-- A record that no derivation goes with stays, although nobody wants its route. -/
theorem Passed.recognized (hconv : Converged text w w') : Recognized text w := by
  intro slot op hop
  cases hd : w.derivation text w.view slot with
  | some derivation => exact ⟨derivation, rfl⟩
  | none =>
    rw [← h.idle slot hd] at hop
    obtain ⟨_, ⟨derivation, hd', _⟩, _⟩ := hconv.records slot op hop
    exact ⟨derivation, hd.symm.trans hd'⟩

/-- Unless it is undercut, a destination that is wanted and not held by others has a route. -/
theorem Passed.isSome_iff (hwants : Wants text w slot route) :
    (w'.table.get route.destination).isSome = true ↔
      ¬Undercut (turnsAt text w.view w w.slots route.destination)
        (w.table.get route.destination) := by
  rw [h.get]
  exact runTurns_isSome_iff _ (exists_taker hwants)

/-- A destination that others hold keeps its route. -/
theorem Passed.heldByOther (hother : HeldByOther w net) : w'.table.get net ≠ none := by
  obtain ⟨row, hrow, _⟩ := id hother
  have hstays : runTurns (turnsAt text w.view w w.slots net) (some row) = some row := by
    apply runTurns_of_not_drops
    intro turn hturn
    obtain ⟨slot, _, rfl⟩ := mem_map.mp hturn
    exact not_drops_of_heldByOther hrow hother slot
  rw [h.get, hrow, hstays]
  simp

theorem Passed.converged (hknown : Recognized text w) (hnot : NotUndercut text w) :
    Converged text w w' where
  wanted := by
    intro slot route hwants hother
    have hsome := (h.isSome_iff hwants).mpr (hnot slot route hwants hother)
    obtain ⟨row, hrow⟩ := isSome_iff_exists.mp hsome
    rcases h.origin hknown hrow with ⟨_, hheld⟩ | ⟨slot', route', hwants', hnet, hmatch, hin⟩
    · exact absurd hheld hother
    · exact ⟨slot', route', row, hwants', hnet, hrow, hmatch, hin⟩
  unwanted := by
    intro net row hrow
    rcases h.origin hknown hrow with hheld | ⟨slot, route, hwants, hnet, hmatch, _⟩
    · exact .inl hheld
    · exact .inr ⟨slot, route, hwants, hnet, hmatch⟩
  records := h.records hknown

end

/-- Once converged, everybody is in line. -/
theorem Converged.inLine (hconv : Converged text w w') (h : Passed text w.view w.slots w w')
    (slot : Slot) : InLine text w'.view w' slot := by
  intro derivation hd
  rw [h.frame.derivation, h.frame.view] at hd
  constructor
  · apply filter_eq_nil_iff.mpr
    intro op hop
    obtain ⟨route, ⟨derivation', hd', hroute⟩, rfl⟩ := hconv.records slot op hop
    obtain rfl : derivation' = derivation := Option.some.inj (hd'.symm.trans hd)
    have hmem : opOf route ∈ derivation'.wanted.map opOf := mem_map_of_mem hroute
    simp [hmem]
  · intro route hroute
    by_cases hother : HeldByOther w route.destination
    · exact h.heldByOther hother
    · obtain ⟨_, _, row, _, _, hrow, _⟩ :=
        hconv.wanted slot route ⟨derivation, hd, hroute⟩ hother
      simp [hrow]

/-- One reconcile converges exactly when every record has a derivation and no wanted destination
is undercut. -/
theorem reconcile_converges_iff (text : NetText) (w : IntentWorld) (hcalm : w.script = []) :
    ConvergesAtOnce text w ↔ Recognized text w ∧ NotUndercut text w := by
  obtain ⟨answer, w', rest, hrun, hpassed⟩ := run_of_succeeds (succeeds_reconcile hcalm)
  constructor
  · rintro ⟨answer₁, w₁, rest₁, hrun₁, hconv, _⟩
    obtain rfl : w₁ = w' := congrArg (fun r => r.2.1) (hrun₁.symm.trans hrun)
    refine ⟨hpassed.recognized hconv, ?_⟩
    intro slot route hwants hother
    obtain ⟨_, _, row, _, _, hrow, _⟩ := hconv.wanted slot route hwants hother
    exact (hpassed.isSome_iff hwants).mp (by simp [hrow])
  · rintro ⟨hknown, hnot⟩
    have hconv := hpassed.converged hknown hnot
    have hcalm' : w'.script = [] := hpassed.frame.script.trans hcalm
    obtain ⟨answer', w'', rest', hrun', hagain⟩ := run_of_succeeds (succeeds_reconcile hcalm')
    exact ⟨answer, w', rest, hrun, hconv, answer', w'', rest', hrun',
      hagain.quiet fun slot _ => hconv.inLine hpassed slot⟩

end

/-! ### A chalet with two gateways -/

def chaletNet : IpNet := .v4 0x0a1e0000 16

def chaletText : NetText where
  parse raw := if raw = "10.30.0.0/16" then some chaletNet else none
  render net := if net = chaletNet then "10.30.0.0/16" else ""

/-- The chalet's network through a gateway. -/
def chaletParams (id gateway : String) (enabled : Bool) : NetIntentSetParams :=
  { id
    destinations := ["10.30.0.0/16"]
    path := ⟨"gateway", none, some gateway⟩
    metric := none
    enabled := some enabled }

def chaletOld : RouteOp :=
  { destination := chaletNet
    target := .gateway (.v4 0xc0a801fe)
    optional := false }

/-- The route through the old gateway stands. -/
def chaletWorld (intents : List Stored) : IntentWorld :=
  { table := Table.empty.insert (chaletOld.row fun _ => "en0")
    view := ⟨none, ["en0"], [⟨4, "en0", .v4 0xc0a80105 24⟩]⟩
    deviceOf := fun _ => "en0"
    intents
    rules := []
    lastView := none
    document := ([], [])
    script := []
    commands := []
    deleted := []
    dump := none
    withdrawing := []
    clean := true }

/-- The intent was edited: it records the route through the old gateway. -/
def chaletEdited : IntentWorld :=
  chaletWorld [⟨501, chaletParams "chalet" "192.168.1.1" true, [chaletOld]⟩]

/-- One reconcile replaces the route. -/
theorem chalet_converges : ConvergesAtOnce chaletText chaletEdited := by
  refine (reconcile_converges_iff chaletText chaletEdited rfl).mpr ⟨?_, ?_⟩
  · intro slot op hop
    cases slot with
    | intent index =>
      cases index with
      | zero => exact ⟨_, rfl⟩
      | succ index =>
        exact absurd hop (by simp [IntentWorld.installed, chaletEdited, chaletWorld])
    | rule index =>
      exact absurd hop (by simp [IntentWorld.installed, chaletEdited, chaletWorld])
  · rintro slot route _ _ ⟨before, last, after, hsplit, _, _, _, _, turn, hturn, _⟩
    -- There is one turn only, so nobody comes behind the last.
    have hlength := congrArg List.length hsplit
    have hslots : chaletEdited.slots.length = 1 := by decide
    rw [turnsAt, List.length_map, hslots, List.length_append, List.length_cons] at hlength
    obtain rfl : after = [] := List.eq_nil_of_length_eq_zero (by omega)
    cases hturn

/-- The first intent wants the network; the second was disabled and records the old route. -/
def chaletHandover : IntentWorld :=
  chaletWorld [⟨501, chaletParams "new" "192.168.1.1" true, []⟩,
    ⟨501, chaletParams "old" "192.168.1.254" false, [chaletOld]⟩]

def chaletHandedOver : IntentWorld := (reconcile chaletText chaletHandover []).2.1

/-- The first intent takes the old route for a rival, and then the second one withdraws it. -/
theorem chalet_left_without_a_route :
    ¬∀ (text : NetText) (w : IntentWorld), w.script = [] → ConvergesAtOnce text w := by
  intro h
  obtain ⟨answer, w', rest, hrun, hconv, _⟩ := h chaletText chaletHandover rfl
  have hw' : w' = chaletHandedOver := (congrArg (fun r => r.2.1) hrun).symm
  have hwants : Wants chaletText chaletHandover (.intent 0)
      ⟨chaletNet, .gateway (.v4 0xc0a80101)⟩ :=
    ⟨.routes [⟨chaletNet, .gateway (.v4 0xc0a80101)⟩] [], by decide +kernel,
      by simp [Derivation.wanted]⟩
  have hours : ¬HeldByOther chaletHandover chaletNet := by
    rintro ⟨row, hrow, hnobody⟩
    have hold : row = chaletOld.row fun _ => "en0" :=
      Option.some.inj (hrow.symm.trans (by decide +kernel))
    have hmatch := hnobody (.intent 1) chaletOld (by decide) (by decide)
    rw [hold] at hmatch
    exact absurd hmatch (by decide)
  obtain ⟨_, _, row, _, _, hrow, _⟩ := hconv.wanted _ _ hwants hours
  have hempty : chaletHandedOver.table.get chaletNet = none := by decide +kernel
  rw [hw'] at hrow
  exact absurd (hrow.symm.trans hempty) (by simp)

end NetOrchestrator.Macos
