import NetOrchestrator.Lib.Schedules
import NetOrchestrator.Proofs.IntentConverges

/-!
# `Proofs.IntentEdits`: edits that end in an error

`set`, `delete` and `put_rule` change the intents in memory, bring the route table in line and
save last. When the save is refused they report an error and undo nothing. `edits_atomic_iff`
says which edits leave everything as it was whenever they report an error: those that the checks
reject, and those that store what is stored already while every intent and rule has exactly the
routes it wants (`AllServed`).

An edit runs on a table that nobody else changes meanwhile, and the readings with which it starts
are answered (`Granted`). Any route command and the save may be refused. The condition is enough
under every such schedule, and where it fails a refused save alone does the damage
(`commit_refused`).
-/

namespace NetOrchestrator.Macos

open Net Lib Lib.Call List Option Bool Verdict
open Daemon (NetIntentSetParams ConditionalRouteRule)
open NetOrchestrator.Core (NetText NetworkView WantedRoute Derivation RouteEntry judge normalize
  validateRule maxRules)

/-! ### AllServed intents -/

variable (text : NetText)

/-- A stored intent or rule has the routes it wants: what it recorded is wanted and in place, and
no wanted destination is free. -/
def Served (w : IntentWorld) (slot : Slot) : Prop :=
  ∀ derivation, w.derivation text w.view slot = some derivation →
    (∀ op ∈ w.installed slot, op ∈ derivation.wanted.map opOf ∧ hit w.table op = true) ∧
      ∀ route ∈ derivation.wanted, w.table.get route.destination ≠ none

def AllServed (w : IntentWorld) : Prop := ∀ slot ∈ w.slots, Served text w slot

/-- The edit left the intents, the rules, the document and the route table alone. -/
structure AsBefore (w w' : IntentWorld) : Prop where
  intents : w'.intents = w.intents
  rules : w'.rules = w.rules
  document : w'.document = w.document
  table : w'.table = w.table

variable (w : IntentWorld)

theorem AsBefore.refl : AsBefore w w := ⟨rfl, rfl, rfl, rfl⟩

/-! ### A reconcile with nothing to do -/

theorem setInstalled_self (slot : Slot) : w.setInstalled slot (w.installed slot) = w := by
  have hintents : ∀ index, w.intents.modify index
      (fun stored => { stored with installed := w.installed (.intent index) }) = w.intents := by
    intro index
    apply ext_getElem?
    intro i
    rw [getElem?_modify]
    by_cases hi : index = i
    · subst hi
      cases hindex : w.intents[index]? <;> simp [IntentWorld.installed, hindex]
    · simp [hi]
  have hrules : ∀ index, w.rules.modify index
      (fun stored => { stored with installed := w.installed (.rule index) }) = w.rules := by
    intro index
    apply ext_getElem?
    intro i
    rw [getElem?_modify]
    by_cases hi : index = i
    · subst hi
      cases hindex : w.rules[index]? <;> simp [IntentWorld.installed, hindex]
    · simp [hi]
  cases slot with
  | intent index => simp only [IntentWorld.setInstalled, hintents]
  | rule index => simp only [IntentWorld.setInstalled, hrules]

/-- The same state but for the bookkeeping of the readings. -/
structure Idled (w w' : IntentWorld) : Prop where
  same : SameState w w'
  document : w'.document = w.document

theorem Idled.refl : Idled w w := ⟨⟨rfl, rfl, rfl, rfl, .refl w⟩, rfl⟩

theorem Idled.trans {w w' w'' : IntentWorld} (h : Idled w w') (h' : Idled w' w'') :
    Idled w w'' where
  same :=
    { table := h'.same.table.trans h.same.table
      intents := h'.same.intents.trans h.same.intents
      rules := h'.same.rules.trans h.same.rules
      commands := h'.same.commands.trans h.same.commands
      frame := h.same.frame.trans h'.same.frame }
  document := h'.document.trans h.document

theorem Idled.asBefore {w w' : IntentWorld} (h : Idled w w') : AsBefore w w' :=
  ⟨h.same.intents, h.same.rules, h.document, h.same.table⟩

section
variable {text : NetText} {w w' : IntentWorld} {slot : Slot}

theorem Served.of_same (h : Served text w slot) (hsame : SameState w w') : Served text w' slot := by
  intro derivation hd
  rw [hsame.frame.derivation, hsame.frame.view] at hd
  rw [hsame.installed, hsame.table]
  exact h derivation hd

/-- Whether or not a wanted route is on record, there is nothing to do for it. -/
theorem returns_installWanted_served {routes : List WantedRoute} (changed : Bool)
    (hwf : WellFormed routes) (hin : ∀ op ∈ w.installed slot, hit w.table op = true)
    (htaken : ∀ route ∈ routes, w.table.get route.destination ≠ none) :
    wp Any (installWanted slot (routeEntries w.table) changed routes)
      (fun changed' w' => changed' = changed ∧ w' = w) (fun _ _ => False) (fun _ => False) w := by
  induction routes with
  | nil => exact wp_pure ⟨rfl, rfl⟩
  | cons route rest ih =>
    have hnext := ih hwf.tail fun r hr => htaken r (mem_cons_of_mem _ hr)
    have hnet : (opOf route).net = route.destination := opOf_net (hwf.2 route (by simp))
    obtain ⟨row, hrow⟩ := ne_none_iff_exists'.mp (htaken route (by simp))
    apply wp_read
    rw [judge_reading rfl, hrow]
    by_cases hours : opOf route ∈ w.installed slot
    · -- On record: the row at the destination is what the route asks for.
      obtain ⟨row', hrow', hmatch⟩ := hit_iff.mp (hin _ hours)
      rw [hnet, hrow] at hrow'
      obtain rfl := Option.some.inj hrow'
      have hmatch : route.target.matches row.entry = true := hmatch
      have hcontains : (w.installed slot).contains (opOf route) = true := by simpa using hours
      simp only [hmatch, hcontains, if_true]
      exact hnext
    · -- Not on record: the row belongs to somebody else, and forgetting changes nothing.
      have hcontains : (w.installed slot).contains (opOf route) = false := by simpa using hours
      have hforget : w.forget slot (opOf route) = w := by
        have hkeep : (w.installed slot).filter (· ≠ opOf route) = w.installed slot := by
          apply filter_eq_self.mpr
          intro op hop
          have hne : op ≠ opOf route := fun heq => hours (heq ▸ hop)
          simpa using hne
        rw [IntentWorld.forget, hkeep, setInstalled_self]
      by_cases hmatch : route.target.matches row.entry = true
      · simp only [hmatch, hcontains, if_true, false_eq_true, if_false]
        apply wp_write
        rw [hforget]
        exact hnext
      · simp only [hmatch]
        apply wp_write
        rw [hforget]
        exact hnext

theorem returns_applyDerivation_served {derivation : Derivation}
    (hd : w.derivation text w.view slot = some derivation) (h : Served text w slot) :
    wp Any (applyDerivation slot derivation (routeEntries w.table))
      (fun changed w' => changed = false ∧ Idled w w') (fun _ _ => False) (fun _ => False) w := by
  obtain ⟨hrecorded, htaken⟩ := h derivation hd
  obtain ⟨-, hwf⟩ := derivation_some hd
  have hkept : (w.installed slot).filter (derivation.wanted.map opOf).contains =
      w.installed slot := by
    apply filter_eq_self.mpr
    intro op hop
    simpa using (hrecorded op hop).1
  have hstale : (w.installed slot).filter (fun op => !(derivation.wanted.map opOf).contains op) =
      [] := by
    apply filter_eq_nil_iff.mpr
    intro op hop
    simpa using (hrecorded op hop).1
  apply wp_read
  apply wp_write
  rw [hkept, setInstalled_self, hstale]
  apply wp_bind
  apply wp_write
  apply wp_pure
  apply wp_bind
  apply wp_pure
  have hbegun : Idled w (w.beginWithdrawal []) := by
    refine ⟨⟨rfl, rfl, rfl, rfl, rfl, rfl, rfl, rfl, rfl⟩, rfl⟩
  have hhit : ∀ op ∈ (w.beginWithdrawal []).installed slot,
      hit (w.beginWithdrawal []).table op = true := by
    intro op hop
    rw [hbegun.same.installed] at hop
    exact (hrecorded op hop).2
  refine wp_post (returns_installWanted_served false hwf hhit htaken) ?_
  rintro changed w' ⟨hchanged, rfl⟩
  exact ⟨hchanged, hbegun⟩

theorem returns_reconcileSlots_served {slots : List Slot} (h : ∀ slot ∈ slots, Served text w slot) :
    wp Any (reconcileSlots text w.view (routeEntries w.table) slots)
      (fun _ w' => Idled w w') (fun _ _ => False) (fun _ => False) w := by
  induction slots generalizing w with
  | nil => exact wp_pure (.refl w)
  | cons slot rest ih =>
    apply wp_read
    cases hd : w.derivation text w.view slot with
    | none => exact ih fun s hs => h s (mem_cons_of_mem _ hs)
    | some derivation =>
      apply wp_then (returns_applyDerivation_served hd (h slot (by simp)))
      rintro changed v ⟨rfl, hv⟩
      apply wp_bind
      apply wp_pure
      rw [← hv.same.table, ← hv.same.frame.view]
      refine wp_post (ih fun s hs => (h s (mem_cons_of_mem _ hs)).of_same hv.same) ?_
      exact fun _ w' hw' => hv.trans hw'

end

/-! ### The common end of `set` and `put_rule` -/

/-- What `set` and `put_rule` do once their checks passed. -/
def commitEdit (edit : IntentWorld → IntentWorld) (message answer : String) :
    IntentProg String := do
  Call.modify edit
  reconcileLocked text
  unsaved message saveIntents
  pure answer

section
variable {text : NetText} {w w' : IntentWorld} {vs : List (Verdict Unit)}

theorem under_probeView (hcalm : w.script = []) (hgranted : Granted vs 1) :
    under vs probeView (fun view v vs' => view = w.view ∧ v = w ∧ vs' = vs.tail)
      (fun _ _ _ => False) w := by
  apply under_bind
  apply under_attempt
  apply under_step
  · intro fault hfail
    exact absurd hfail (hgranted.next fault)
  · intro view v _ hact
    rw [interfere_calm hcalm] at hact
    cases hact
    exact ⟨rfl, rfl, rfl⟩
  · intro e v _ hact
    cases hact

theorem under_probeRoutes (hcalm : w.script = []) (hgranted : Granted vs 1) :
    under vs probeRoutes (fun entries v _ => entries = routeEntries w.table ∧ Idled w v)
      (fun _ _ _ => False) w := by
  apply under_bind
  apply under_attempt
  apply under_step
  · intro fault hfail
    exact absurd hfail (hgranted.next fault)
  · intro entries v _ hact
    rw [interfere_calm hcalm] at hact
    cases hact
    exact ⟨rfl, ⟨rfl, rfl, rfl, rfl, rfl, rfl, rfl, rfl, rfl⟩, rfl⟩
  · intro e v _ hact
    cases hact

theorem under_reconcileLocked_served (hcalm : w.script = []) (h : AllServed text w)
    (hgranted : Granted vs 2) :
    under vs (reconcileLocked text) (fun _ v _ => Idled w v) (fun _ _ _ => False) w := by
  apply under_bind
  refine under_mono (under_probeView hcalm (hgranted.mono (by decide))) ?_ (fun _ _ _ he => he)
  rintro network v vs' ⟨rfl, rfl, rfl⟩
  apply under_bind
  refine under_mono (under_probeRoutes hcalm hgranted.tail) ?_ (fun _ _ _ he => he)
  rintro entries u vs' ⟨rfl, hu⟩
  apply under_bind
  apply under_gets
  apply under_bind
  have hslots : ∀ slot ∈ u.slots, Served text u slot := by
    intro slot hslot
    rw [hu.same.frame.slots] at hslot
    exact (h slot hslot).of_same hu.same
  have hrun := returns_reconcileSlots_served hslots
  rw [hu.same.table, hu.same.frame.view] at hrun
  have hany := wp_post hrun (fun _ _ hq => hq)
  refine under_mono (under_of_wp hany) ?_ (fun _ _ _ he => he)
  intro _ x _ hx
  apply under_modify
  have hlast : Idled x { x with lastView := some v.view } :=
    ⟨⟨rfl, rfl, rfl, rfl, rfl, rfl, rfl, rfl, rfl⟩, rfl⟩
  exact (hu.trans hx).trans hlast

/-- An edit of settled intents that changes none of them: its error leaves everything alone. -/
theorem under_commit_served {edit : IntentWorld → IntentWorld} {message answer : String}
    (hcalm : w.script = []) (hedit : edit w = w) (h : AllServed text w) (hgranted : Granted vs 2) :
    under vs (commitEdit text edit message answer) (fun _ _ _ => True)
      (fun _ v _ => AsBefore w v) w := by
  apply under_bind
  apply under_modify
  rw [hedit]
  apply under_bind
  refine under_mono (under_reconcileLocked_served hcalm h hgranted) ?_ (fun _ _ _ he => he.elim)
  intro _ v vs' hv
  apply under_bind
  apply under_bind
  apply under_attempt
  unfold saveIntents syscall
  apply under_step
  · intro fault _
    exact hv.asBefore
  · intro _ x _ _
    trivial
  · intro e x _ hact
    cases hact

end

/-! ### Counting steps -/

section

theorem paced_syscall {α : Type} (act : IntentWorld → Except HelperError α × IntentWorld) :
    Paced (syscall act) := .step _ _

theorem paced_probeRoutes : Paced probeRoutes := by
  apply Paced.bind (.attempt (paced_syscall _))
  intro reading
  cases reading with
  | ok entries => exact .pure _
  | error e => exact .bind (.modify _) fun _ => .pure _

variable (slot : Slot) (op : RouteOp)

theorem paced_add : Paced op.add := .bind (.modify _) fun _ => paced_syscall _

theorem paced_delete : Paced op.delete := by
  apply Paced.bind (.modify _)
  intro _
  apply Paced.bind (.attempt (paced_syscall _))
  intro result
  cases result with
  | ok _ => exact .pure _
  | error e => exact .modify _

theorem paced_withdrawEach (table : List RouteEntry) (ops : List RouteOp) :
    Paced (withdrawEach table ops) := by
  induction ops with
  | nil => exact .pure _
  | cons op rest ih =>
    have hnext : Paced (do
        Call.modify fun w => { w with withdrawing := rest }
        withdrawEach table rest : IntentProg Unit) := .bind (.modify _) fun _ => ih
    show Paced (do
      if judge (wantedOf op) true table = .present then op.delete
      Call.modify fun w => { w with withdrawing := rest }
      withdrawEach table rest)
    by_cases hpresent : judge (wantedOf op) true table = .present
    · rw [if_pos hpresent]
      exact .bind (paced_delete op) fun _ => hnext
    · rw [if_neg hpresent]
      exact hnext

theorem paced_withdraw (ops : List RouteOp) (table : List RouteEntry) :
    Paced (withdraw ops table) :=
  .bind (.modify _) fun _ => paced_withdrawEach table ops

theorem paced_addRecorded (ours : Bool) : Paced (addRecorded slot op ours) := by
  apply Paced.bind (.attempt (paced_add op))
  intro result
  cases result with
  | ok _ =>
    cases ours with
    | true => exact .pure _
    | false => exact .modify _
  | error e => exact .pure _

theorem paced_installWanted (table : List RouteEntry) (changed : Bool)
    (routes : List WantedRoute) : Paced (installWanted slot table changed routes) := by
  induction routes generalizing changed with
  | nil => exact .pure _
  | cons route rest ih =>
    apply Paced.bind (.gets _)
    intro ours
    cases judge route ours table with
    | present => exact ih changed
    | missing => exact .bind (paced_addRecorded slot _ ours) fun _ => ih true
    | conflicted rival => exact .bind (.modify _) fun _ => ih changed

theorem paced_reread (changed : Bool) (table : List RouteEntry) : Paced (reread changed table) :=
  .ite paced_probeRoutes (.pure _)

theorem paced_reconcileSlots (text : NetText) (network : NetworkView) (table : List RouteEntry)
    (slots : List Slot) : Paced (reconcileSlots text network table slots) := by
  induction slots generalizing table with
  | nil => exact .pure _
  | cons slot rest ih =>
    apply Paced.bind (.gets _)
    intro derivation
    cases derivation with
    | none => exact ih table
    | some derivation =>
      have happly : Paced (applyDerivation slot derivation table) := by
        apply Paced.bind (.gets _)
        intro installed
        apply Paced.bind (.modify _)
        intro _
        apply Paced.bind (paced_withdraw _ table)
        intro _
        apply Paced.bind (paced_reread _ table)
        intro table'
        exact paced_installWanted slot table' _ derivation.wanted
      apply Paced.bind happly
      intro changed
      apply Paced.bind (paced_reread changed table)
      exact ih

end

/-! ### A refused save -/

section
variable {text : NetText} {w w' : IntentWorld}

/-- A pass that leaves the table and the records as they were found everything settled. -/
theorem Passed.served (h : Passed text w.view w.slots w w') (hsame : AsBefore w w') :
    AllServed text w := by
  have hrecords : ∀ slot, w'.installed slot = w.installed slot := by
    intro slot
    cases slot <;> simp only [IntentWorld.installed, hsame.intents, hsame.rules]
  have hwanted : ∀ slot ∈ w.slots, ∀ derivation, w.derivation text w.view slot = some derivation →
      ∀ op ∈ w.installed slot, ∃ route ∈ derivation.wanted, opOf route = op := by
    intro slot hslot derivation hd op hop
    obtain ⟨before, after, hsplit⟩ := append_of_mem hslot
    rw [← hrecords, h.self before slot after hsplit derivation hd] at hop
    obtain ⟨route, hroute, hop, -⟩ := hop
    exact ⟨route, hroute, hop⟩
  -- Nothing is stale, so no turn drops anything.
  have hkeeps : ∀ net, ∀ turn ∈ turnsAt text w.view w w.slots net, ∀ row,
      turn.drops row = false := by
    intro net turn hturn row
    obtain ⟨slot, hslot, rfl⟩ := mem_map.mp hturn
    unfold turnAt
    cases hd : w.derivation text w.view slot with
    | none => rfl
    | some derivation =>
      have hstale : staleOps derivation.wanted (w.installed slot) = [] := by
        apply filter_eq_nil_iff.mpr
        intro op hop
        obtain ⟨route, hroute, rfl⟩ := hwanted slot hslot derivation hd op hop
        have hmem : opOf route ∈ derivation.wanted.map opOf := mem_map_of_mem hroute
        simp [hmem]
      simp [hstale]
  have htaken : ∀ slot route, Wants text w slot route →
      w.table.get route.destination ≠ none := by
    intro slot route hwants hfree
    have hend := h.get route.destination
    rw [hsame.table, hfree] at hend
    have hsome := (runTurns_isSome_iff none (exists_taker hwants)).mpr (by
      rintro ⟨before, last, after, hsplit, -, -, row, -, turn, hturn, hdrops⟩
      have hmem : turn ∈ turnsAt text w.view w w.slots route.destination := by
        rw [hsplit]
        simp [hturn]
      rw [hkeeps _ turn hmem row] at hdrops
      cases hdrops)
    rw [← hend] at hsome
    cases hsome
  intro slot hslot derivation hd
  refine ⟨?_, fun route hroute => htaken slot route ⟨derivation, hd, hroute⟩⟩
  intro op hop
  obtain ⟨route, hroute, hopOf⟩ := hwanted slot hslot derivation hd op hop
  refine ⟨hopOf ▸ mem_map_of_mem hroute, ?_⟩
  have hnet : op.net = route.destination := by
    rw [← hopOf]
    exact opOf_net ((derivation_some hd).2.2 route hroute)
  obtain ⟨row, hrow⟩ := ne_none_iff_exists'.mp (htaken slot route ⟨derivation, hd, hroute⟩)
  rw [← hnet] at hrow
  obtain ⟨before, after, hsplit⟩ := append_of_mem hslot
  have hbefore : runTurns (turnsAt text w.view w before op.net) (some row) = some row := by
    apply runTurns_of_not_drops
    intro turn hturn
    obtain ⟨s, hs, rfl⟩ := mem_map.mp hturn
    exact hkeeps op.net _ (mem_map_of_mem (by rw [hsplit]; simp [hs])) row
  have hleft : (turnAt text w.view w slot op.net).left (some row) = some row := by
    have hkeep := hkeeps op.net _ (mem_map_of_mem hslot) row
    simp [Lib.Turn.left, hkeep]
  rw [← hrecords, h.self before slot after hsplit derivation hd, hrow, hbefore, hleft] at hop
  obtain ⟨-, -, -, hnone | ⟨-, row', hrow', hmatch⟩⟩ := hop
  · cases hnone
  · exact hit_iff.mpr ⟨row', hrow.trans hrow', hmatch⟩

theorem run_unsaved_refused {message answer : String} : (do
      unsaved message saveIntents
      pure answer : IntentProg String) w [.fail ()] = (.err (.unavailable message), w, []) := rfl

/-- The schedule under which a save behind `n` steps is refused, and nothing else. -/
def saveRefused (n : Nat) : List (Verdict Unit) := List.replicate n .proceed ++ [.fail ()]

theorem granted_saveRefused {n k : Nat} (h : k ≤ n) : Granted (saveRefused n) k := by
  intro v hv f
  have htake : (saveRefused n).take k = List.replicate k .proceed := by
    rw [saveRefused, take_append_of_le_length (by simpa using h), take_replicate, Nat.min_eq_left h]
  rw [htake] at hv
  rw [(mem_replicate.mp hv).2]
  simp

theorem takes_probeView (hcalm : w.script = []) : Takes 1 probeView w w.view w := by
  have hstep : Takes 1 (syscall fun w => (.ok w.view, w)) w w.view w := by
    apply Takes.step
    rw [interfere_calm hcalm]
  show Takes (1 + 0) (_ >>= _) w w.view w
  apply Takes.bind hstep.attempt
  exact Takes.pure w.view

theorem takes_probeRoutes (hcalm : w.script = []) : Takes 1 probeRoutes w (routeEntries w.table)
      { w with dump := some (routeEntries w.table) } := by
  have hstep : Takes 1 (syscall fun w =>
      (.ok (routeEntries w.table), { w with dump := some (routeEntries w.table) })) w
      (routeEntries w.table) { w with dump := some (routeEntries w.table) } := by
    apply Takes.step
    rw [interfere_calm hcalm]
  show Takes (1 + 0) (_ >>= _) w _ _
  apply Takes.bind hstep.attempt
  exact Takes.pure _

theorem takes_reconcileLocked (hcalm : w.script = []) :
    ∃ n w', Takes (n + 2) (reconcileLocked text) w () w' ∧
      Passed text w.view w.slots w w' := by
  let u : IntentWorld := { w with dump := some (routeEntries w.table) }
  have hslots : Succeeds (reconcileSlots text w.view (routeEntries u.table) u.slots)
      (fun _ v => Passed text w.view u.slots u v) u :=
    succeeds_reconcileSlots (nodup_slots u) hcalm
  obtain ⟨n, _, x, htakes, -⟩ := (paced_reconcileSlots _ _ _ _).takes hslots
  have hrun : Takes (1 + (1 + (0 + (n + 0)))) (reconcileLocked text) w ()
      { x with lastView := some w.view } := by
    apply Takes.bind (takes_probeView hcalm)
    apply Takes.bind (takes_probeRoutes hcalm)
    apply Takes.bind (Takes.gets _)
    apply Takes.bind htakes
    exact Takes.modify _
  have hcount : 1 + (1 + (0 + (n + 0))) = n + 2 := by omega
  rw [hcount] at hrun
  exact ⟨n, _, hrun, hrun.of_succeeds (succeeds_reconcileLocked hcalm)⟩

/-- Where only the save is refused, the edit and the whole reconcile stand. -/
theorem commit_refused (edit : IntentWorld → IntentWorld) (message answer : String)
    (hcalm : (edit w).script = []) :
    ∃ n w', commitEdit text edit message answer w (saveRefused (n + 2)) =
        (.err (.unavailable message), w', []) ∧
      Passed text (edit w).view (edit w).slots (edit w) w' := by
  obtain ⟨n, w', hrun, hpassed⟩ := @takes_reconcileLocked text _ hcalm
  refine ⟨n, w', ?_, hpassed⟩
  unfold commitEdit
  rw [bind_of_ok (modify_apply w _ edit), saveRefused, bind_of_ok (hrun [.fail ()])]
  exact run_unsaved_refused

end

/-! ### Which edits are atomic -/

/-- Whenever the request reports an error, everything is as before it. It starts with so many
readings, which are answered. -/
def AtomicOnError (request : IntentProg String) (readings : Nat) (w : IntentWorld) : Prop :=
  ∀ vs e w' vs', Granted vs readings → request w vs = (.err e, w', vs') → AsBefore w w'

section
variable (text : NetText) (w : IntentWorld) (uid : Nat)

def intentAt (id : String) : Option Nat :=
  w.intents.findIdx? fun stored => stored.uid == uid && stored.params.id == id

def ruleAt (id : String) : Option Nat :=
  w.rules.findIdx? fun stored => stored.uid == uid && stored.rule.id == id

/-- The intent is not accepted, or there are too many intents or networks with it. -/
def SetRejected (params : NetIntentSetParams) : Prop :=
  ∀ intent, normalize text params = .ok intent →
    intentAt w uid intent.id = none ∧
        maxIntentsPerUid ≤ (w.intents.filter fun stored => stored.uid == uid).length ∨
      maxDestinationsTotal <
        destinationsBeside w (intentAt w uid intent.id) none + intent.destinations.length

/-- The params of an accepted intent, as they are stored. -/
def storedParams (params : NetIntentSetParams) (intent : Core.Intent) : NetIntentSetParams :=
  { id := intent.id
    destinations := intent.destinations.map text.render
    path := params.path
    metric := some intent.metric
    enabled := some intent.enabled }

/-- The intent is stored already. -/
def SetRestates (params : NetIntentSetParams) : Prop :=
  ∃ intent index stored, normalize text params = .ok intent ∧
    intentAt w uid intent.id = some index ∧ w.intents[index]? = some stored ∧
    stored.params = storedParams text params intent

/-- The rule is not accepted, or there are too many rules or networks with it. -/
def PutRejected (rule : ConditionalRouteRule) : Prop :=
  validateRule rule = .ok () →
    ruleAt w uid rule.id = none ∧
        maxRules ≤ (w.rules.filter fun stored => stored.uid == uid).length ∨
      maxDestinationsTotal < destinationsBeside w none (ruleAt w uid rule.id) + rule.routes.length

/-- The rule is stored already. -/
def PutRestates (rule : ConditionalRouteRule) : Prop :=
  ∃ index stored, ruleAt w uid rule.id = some index ∧ w.rules[index]? = some stored ∧
    stored.rule = rule

end

section
variable {text : NetText} {w : IntentWorld} {uid : Nat}
variable {m : IntentProg String} {index : Nat} {id : String} {params : NetIntentSetParams}
    {intent : Core.Intent} {rule : ConditionalRouteRule} {accepted : validateRule rule = .ok ()}

theorem atomic_of_throw {readings : Nat} {e : HelperError}
    (h : ∀ vs, m w vs = (.err e, w, vs)) : AtomicOnError m readings w := by
  intro vs e' w' vs' _ hrun
  rw [h] at hrun
  cases hrun
  exact .refl w

section
variable {edit : IntentWorld → IntentWorld} {message answer : String} (hcalm : w.script = [])
  (hscript : (edit w).script = [])
include hcalm hscript

/-- An edit that is carried out is atomic if it changes nothing. -/
theorem commit_atomic_iff (h : ∀ vs, m w vs = commitEdit text edit message answer w vs)
    (hedit : ∀ w', Framed (edit w) w' → AsBefore w w' → edit w = w) :
    AtomicOnError m 2 w ↔ edit w = w ∧ AllServed text w := by
  constructor
  · intro hatomic
    obtain ⟨n, w', hrun, hpassed⟩ := @commit_refused text w edit message answer hscript
    have hsame : AsBefore w w' := by
      apply hatomic (saveRefused (n + 2)) (.unavailable message) w' []
      · exact granted_saveRefused (by omega)
      · rw [h, hrun]
    have hid := hedit w' hpassed.frame hsame
    rw [hid] at hpassed
    exact ⟨hid, hpassed.served hsame⟩
  · rintro ⟨hid, hserved⟩ vs e w' vs' hgranted hrun
    have hunder := @under_commit_served text w vs edit message answer hcalm hid hserved hgranted
    unfold under at hunder
    rw [← h, hrun] at hunder
    exact hunder

/-- The same behind two limits. -/
theorem limited_atomic_iff {full wide : Prop} [Decidable full] [Decidable wide]
    {e e' : HelperError} (hrun : ∀ vs, m w vs = if full then (.err e, w, vs)
      else if wide then (.err e', w, vs) else commitEdit text edit message answer w vs)
    (hedit : ∀ w', Framed (edit w) w' → AsBefore w w' → edit w = w) :
    AtomicOnError m 2 w ↔ (full ∨ wide) ∨ edit w = w ∧ AllServed text w := by
  by_cases hfull : full
  · simp only [hfull, if_true] at hrun
    exact iff_of_true (atomic_of_throw hrun) (.inl (.inl hfull))
  · by_cases hwide : wide
    · simp only [hfull, hwide, if_true, if_false] at hrun
      exact iff_of_true (atomic_of_throw hrun) (.inl (.inr hwide))
    · simp only [hfull, hwide, if_false] at hrun
      rw [commit_atomic_iff hcalm hscript hrun hedit]
      exact (or_iff_right (fun h => h.elim hfull hwide)).symm

end

/-- What was written in place of an element, or added, is what was there. -/
theorem upsert_restates {α β : Type} {f : α → β} {position : Option Nat} {new : α} {l : List α}
    (hposition : ∀ index, position = some index → index < l.length)
    (h : (upsert position new l).map f = l.map f) :
    ∃ index old, position = some index ∧ l[index]? = some old ∧ f old = f new := by
  cases position with
  | none =>
    have hlength := congrArg List.length h
    simp [upsert] at hlength
  | some index =>
    have hlt := hposition index rfl
    refine ⟨index, l[index], rfl, getElem?_eq_getElem hlt, ?_⟩
    have hget := congrArg (fun xs => xs[index]?) h
    simp only [upsert, getElem?_map, getElem?_set_self hlt,
      getElem?_eq_getElem hlt, map_some] at hget
    exact (Option.some.inj hget).symm

theorem upsert_self {α : Type} {old : α} {l : List α} (h : l[index]? = some old) :
    upsert (some index) old l = l := by
  obtain ⟨hlt, rfl⟩ := List.getElem?_eq_some_iff.mp h
  exact set_getElem_self hlt

/-! ### `set` -/

/-- The record that `set` stores. -/
def setRecord (text : NetText) (w : IntentWorld) (uid : Nat) (params : NetIntentSetParams)
    (intent : Core.Intent) : Stored :=
  { uid
    params := storedParams text params intent
    installed := (intentAt w uid intent.id).elim [] fun index => w.installed (.intent index) }

def setEdit (text : NetText) (w : IntentWorld) (uid : Nat) (params : NetIntentSetParams)
    (intent : Core.Intent) (v : IntentWorld) : IntentWorld :=
  { v with
    intents := upsert (intentAt w uid intent.id) (setRecord text w uid params intent) v.intents }

theorem intentAt_spec (h : intentAt w uid id = some index) :
    ∃ stored, w.intents[index]? = some stored ∧ stored.uid = uid ∧ stored.params.id = id := by
  obtain ⟨hlt, hmine, -⟩ := findIdx?_eq_some_iff_getElem.mp h
  rw [and_eq_true, beq_iff_eq, beq_iff_eq] at hmine
  exact ⟨_, getElem?_eq_getElem hlt, hmine⟩

theorem setEdit_eq_self {stored : Stored} (hposition : intentAt w uid intent.id = some index)
    (hstored : w.intents[index]? = some stored)
    (hparams : stored.params = storedParams text params intent) :
    setEdit text w uid params intent w = w := by
  obtain ⟨stored', hstored', huid, -⟩ := intentAt_spec hposition
  obtain rfl := Option.some.inj (hstored.symm.trans hstored')
  have hrecord : setRecord text w uid params intent = stored := by
    rw [setRecord, hposition, elim_some, ← hparams, ← huid]
    simp only [IntentWorld.installed, hstored, elim_some]
  rw [setEdit, hrecord, hposition, upsert_self hstored]

section
variable (hok : normalize text params = .ok intent)
include hok

theorem set_restates_of_params (h : (setEdit text w uid params intent w).intents.map Stored.params =
      w.intents.map Stored.params) : SetRestates text w uid params := by
  have hposition : ∀ index, intentAt w uid intent.id = some index → index < w.intents.length := by
    intro index hindex
    obtain ⟨stored, hstored, -⟩ := intentAt_spec hindex
    exact (List.getElem?_eq_some_iff.mp hstored).1
  obtain ⟨index, stored, hindex, hstored, hparams⟩ := upsert_restates hposition h
  exact ⟨intent, index, stored, hok, hindex, hstored, hparams⟩

theorem set_restates_iff :
    SetRestates text w uid params ↔ setEdit text w uid params intent w = w := by
  constructor
  · rintro ⟨intent', index, stored, hok', hposition, hstored, hparams⟩
    obtain rfl : intent' = intent := by simpa [hok] using hok'.symm
    exact setEdit_eq_self hposition hstored hparams
  · intro hid
    apply set_restates_of_params hok
    rw [hid]

theorem setIntent_run (vs : List (Verdict Unit)) :
    setIntent text uid params w vs = if (intentAt w uid intent.id).isNone &&
          maxIntentsPerUid ≤ (w.intents.filter fun stored => stored.uid == uid).length then
        (.err (.conflict s!"There can be at most {maxIntentsPerUid} intents"), w, vs)
      else if maxDestinationsTotal <
          destinationsBeside w (intentAt w uid intent.id) none + intent.destinations.length then
        (.err (.conflict
          s!"All intents together can route at most {maxDestinationsTotal} networks"), w, vs) else
        commitEdit text (setEdit text w uid params intent) "The intents could not be saved"
          intent.id w vs := by
  unfold setIntent
  rw [hok]
  show (if _ then Call.throw _ else if _ then Call.throw _ else _ : IntentProg String) w vs = _
  split
  · rename_i hfull
    exact (if_pos hfull).symm
  · rename_i hroom
    split
    · rename_i hwide
      exact ((if_neg hroom).trans (if_pos hwide)).symm
    · rename_i hnarrow
      exact ((if_neg hroom).trans (if_neg hnarrow)).symm

end

theorem set_atomic_iff (params : NetIntentSetParams) (hcalm : w.script = []) :
    AtomicOnError (setIntent text uid params) 2 w ↔
      SetRejected text w uid params ∨ SetRestates text w uid params ∧ AllServed text w := by
  cases hok : normalize text params with
  | error reason =>
    have hrejected : SetRejected text w uid params := by
      intro intent hintent
      rw [hok] at hintent
      cases hintent
    have hrun : ∀ vs, setIntent text uid params w vs = (.err (.invalid reason), w, vs) := by
      intro vs
      unfold setIntent
      rw [hok]
      rfl
    exact iff_of_true (atomic_of_throw hrun) (.inl hrejected)
  | ok intent =>
    have hedit : ∀ w', Framed (setEdit text w uid params intent w) w' → AsBefore w w' →
        setEdit text w uid params intent w = w := by
      intro w' hframe hsame
      have hparams := hframe.params
      rw [hsame.intents] at hparams
      exact (set_restates_iff hok).mp (set_restates_of_params hok hparams.symm)
    rw [limited_atomic_iff hcalm hcalm (setIntent_run hok) hedit, set_restates_iff hok]
    have hrejected : SetRejected text w uid params ↔ ((intentAt w uid intent.id).isNone &&
          decide (maxIntentsPerUid ≤
            (w.intents.filter fun stored => stored.uid == uid).length)) = true ∨
          maxDestinationsTotal < destinationsBeside w (intentAt w uid intent.id) none +
              intent.destinations.length := by
      rw [and_eq_true, isNone_iff_eq_none, decide_eq_true_eq]
      constructor
      · exact fun h => h intent hok
      · intro h intent' hok'
        obtain rfl : intent' = intent := by simpa [hok] using hok'.symm
        exact h
    rw [hrejected]

/-! ### `put_rule` -/

/-- The record that `put_rule` stores. -/
def putRecord (w : IntentWorld) (uid : Nat) (rule : ConditionalRouteRule)
    (accepted : validateRule rule = .ok ()) : StoredRule :=
  { uid
    rule
    installed := (ruleAt w uid rule.id).elim [] fun index => w.installed (.rule index)
    accepted }

def putEdit (w : IntentWorld) (uid : Nat) (rule : ConditionalRouteRule)
    (accepted : validateRule rule = .ok ()) (v : IntentWorld) : IntentWorld :=
  { v with rules := upsert (ruleAt w uid rule.id) (putRecord w uid rule accepted) v.rules }

theorem ruleAt_spec (h : ruleAt w uid id = some index) :
    ∃ stored, w.rules[index]? = some stored ∧ stored.uid = uid ∧ stored.rule.id = id := by
  obtain ⟨hlt, hmine, -⟩ := findIdx?_eq_some_iff_getElem.mp h
  rw [and_eq_true, beq_iff_eq, beq_iff_eq] at hmine
  exact ⟨_, getElem?_eq_getElem hlt, hmine⟩

theorem putEdit_eq_self (h : PutRestates w uid rule) : putEdit w uid rule accepted w = w := by
  obtain ⟨index, stored, hposition, hstored, rfl⟩ := h
  obtain ⟨stored', hstored', huid, -⟩ := ruleAt_spec hposition
  obtain rfl := Option.some.inj (hstored.symm.trans hstored')
  have hrecord : putRecord w uid stored.rule accepted = stored := by
    rw [putRecord, hposition, elim_some]
    simp only [IntentWorld.installed, hstored, elim_some, ← huid]
  rw [putEdit, hrecord, hposition, upsert_self hstored]

theorem put_restates_of_rules (h : (putEdit w uid rule accepted w).rules.map StoredRule.rule =
      w.rules.map StoredRule.rule) : PutRestates w uid rule := by
  have hposition : ∀ index, ruleAt w uid rule.id = some index → index < w.rules.length := by
    intro index hindex
    obtain ⟨stored, hstored, -⟩ := ruleAt_spec hindex
    exact (List.getElem?_eq_some_iff.mp hstored).1
  exact upsert_restates hposition h

theorem putRule_run (accepted : validateRule rule = .ok ()) (vs : List (Verdict Unit)) :
    putRule text uid rule w vs = if (ruleAt w uid rule.id).isNone &&
          maxRules ≤ (w.rules.filter fun stored => stored.uid == uid).length then
        (.err (.conflict s!"There can be at most {maxRules} conditional rules"), w, vs)
      else if maxDestinationsTotal <
          destinationsBeside w none (ruleAt w uid rule.id) + rule.routes.length then
        (.err (.conflict
          s!"All intents and rules together can route at most {maxDestinationsTotal} networks"),
          w, vs) else
        commitEdit text (putEdit w uid rule accepted) "The rules could not be saved" rule.id w
          vs := by
  generalize hm : putRule text uid rule = m
  rw [putRule] at hm
  split at hm
  · rename_i reason hreason
    rw [accepted] at hreason
    cases hreason
  · subst hm
    show (if _ then Call.throw _ else if _ then Call.throw _ else _ : IntentProg String) w vs = _
    split
    · rename_i hfull
      exact (if_pos hfull).symm
    · rename_i hroom
      split
      · rename_i hwide
        exact ((if_neg hroom).trans (if_pos hwide)).symm
      · rename_i hnarrow
        exact ((if_neg hroom).trans (if_neg hnarrow)).symm

theorem put_atomic_iff (rule : ConditionalRouteRule) (hcalm : w.script = []) :
    AtomicOnError (putRule text uid rule) 2 w ↔
      PutRejected w uid rule ∨ PutRestates w uid rule ∧ AllServed text w := by
  cases haccepted : validateRule rule with
  | error reason =>
    have hrejected : PutRejected w uid rule := by
      intro hok
      rw [haccepted] at hok
      cases hok
    have hrun : ∀ vs, putRule text uid rule w vs = (.err (.invalid reason), w, vs) := by
      intro vs
      generalize hm : putRule text uid rule = m
      rw [putRule] at hm
      split at hm
      · rename_i reason' hreason
        obtain rfl : reason = reason' := by simpa [haccepted] using hreason
        rw [← hm]
        rfl
      · rename_i hok
        rw [haccepted] at hok
        cases hok
    exact iff_of_true (atomic_of_throw hrun) (.inl hrejected)
  | ok =>
    have hrestates : PutRestates w uid rule ↔ putEdit w uid rule haccepted w = w := by
      constructor
      · exact putEdit_eq_self
      · intro hid
        apply put_restates_of_rules
        rw [hid]
    have hedit : ∀ w', Framed (putEdit w uid rule haccepted w) w' → AsBefore w w' →
        putEdit w uid rule haccepted w = w := by
      intro w' hframe hsame
      have hrules := hframe.ruleList
      rw [hsame.rules] at hrules
      exact hrestates.mp (put_restates_of_rules hrules.symm)
    rw [limited_atomic_iff hcalm hcalm (putRule_run haccepted) hedit, hrestates]
    have hrejected : PutRejected w uid rule ↔ ((ruleAt w uid rule.id).isNone && decide (maxRules ≤
            (w.rules.filter fun stored => stored.uid == uid).length)) = true ∨
          maxDestinationsTotal <
            destinationsBeside w none (ruleAt w uid rule.id) + rule.routes.length := by
      rw [and_eq_true, isNone_iff_eq_none, decide_eq_true_eq]
      exact ⟨fun h => h haccepted, fun h _ => h⟩
    rw [hrejected]

/-! ### `delete` -/

/-- A withdrawal changes no intent but the one it is for. -/
theorem takes_withdraw (table : RouteTable RouteOp) (ops : List RouteOp) (hcalm : w.script = []) :
    ∃ n w', Takes n (withdraw ops (routeEntries table)) w () w' ∧ w'.intents = w.intents := by
  have hsucceeds : Succeeds (withdraw ops (routeEntries table))
      (fun _ w' => w'.intents = w.intents) w := by
    apply wp_write
    have hbegun : (w.beginWithdrawal ops).script = [] := hcalm
    refine wp_post (succeeds_withdrawEach table ops hbegun) ?_
    exact fun _ w' hw' => hw'.2.1
  obtain ⟨n, _, w', htakes, hintents⟩ := (paced_withdraw ops (routeEntries table)).takes hsucceeds
  exact ⟨n, w', htakes, hintents⟩

/-- The intent is gone from memory, and its routes from the table, before the save. -/
theorem delete_refused (hcalm : w.script = []) (h : intentAt w uid id = some index) :
    ∃ n e w', deleteIntent uid id w (saveRefused (n + 1)) = (.err e, w', []) ∧
      w'.intents = w.intents.eraseIdx index := by
  let u : IntentWorld :=
    { w with dump := some (routeEntries w.table), intents := w.intents.eraseIdx index }
  have hucalm : u.script = [] := hcalm
  obtain ⟨n, w', htakes, hintents⟩ := takes_withdraw w.table (w.installed (.intent index)) hucalm
  refine ⟨n, .unavailable "The intents could not be saved", w', ?_, hintents⟩
  have hposition : (Call.gets fun w : IntentWorld => w.intents.findIdx? fun stored =>
      stored.uid == uid && stored.params.id == id : IntentProg (Option Nat)) w
        (saveRefused (n + 1)) = (.ok (some index), w, saveRefused (n + 1)) :=
    congrArg (fun position => (Outcome.ok position, w, saveRefused (n + 1))) h
  unfold deleteIntent
  rw [bind_of_ok hposition]
  have hschedule : saveRefused (n + 1) =
      List.replicate 1 .proceed ++ (List.replicate n .proceed ++ [.fail ()]) := rfl
  show (_ >>= _ : IntentProg String) w _ = _
  rw [hschedule, bind_of_ok (takes_probeRoutes hcalm _), bind_of_ok (gets_apply _ _ _),
    bind_of_ok (modify_apply _ _ _)]
  exact (bind_of_ok (htakes [.fail ()])).trans run_unsaved_refused

theorem delete_atomic_iff (id : String) (hcalm : w.script = []) :
    AtomicOnError (deleteIntent uid id) 1 w ↔ intentAt w uid id = none := by
  constructor
  · intro hatomic
    rw [eq_none_iff_forall_ne_some]
    intro index hindex
    obtain ⟨n, e, w', hrun, hintents⟩ := delete_refused hcalm hindex
    have hsame := hatomic _ _ _ _ (granted_saveRefused (by omega)) hrun
    obtain ⟨stored, hstored, -⟩ := intentAt_spec hindex
    have hlt := (List.getElem?_eq_some_iff.mp hstored).1
    have hlength := congrArg List.length (hintents.symm.trans hsame.intents)
    rw [length_eraseIdx_of_lt hlt] at hlength
    omega
  · intro hnone
    apply atomic_of_throw (e := .notFound "There is no intent with that name")
    intro vs
    have hposition : (Call.gets fun w : IntentWorld => w.intents.findIdx? fun stored =>
        stored.uid == uid && stored.params.id == id : IntentProg (Option Nat)) w vs =
          (.ok none, w, vs) :=
      congrArg (fun position => (Outcome.ok position, w, vs)) hnone
    unfold deleteIntent
    rw [bind_of_ok hposition]
    rfl

end

/-- An edit leaves everything as it was whenever it reports an error exactly when its checks
reject it, or it stores what is stored already and everything stored has the routes it wants. A
`delete` of a stored intent never does. -/
theorem edits_atomic_iff (text : NetText) (w : IntentWorld) (hcalm : w.script = []) :
    (∀ uid params, AtomicOnError (setIntent text uid params) 2 w ↔
      SetRejected text w uid params ∨ SetRestates text w uid params ∧ AllServed text w) ∧
    (∀ uid id, AtomicOnError (deleteIntent uid id) 1 w ↔ intentAt w uid id = none) ∧
    ∀ uid rule, AtomicOnError (putRule text uid rule) 2 w ↔
      PutRejected w uid rule ∨ PutRestates w uid rule ∧ AllServed text w :=
  ⟨fun _ params => set_atomic_iff params hcalm, fun _ id => delete_atomic_iff id hcalm,
    fun _ rule => put_atomic_iff rule hcalm⟩

/-- The chalet's intent, in memory and in the document, with its route in place. -/
def chaletSaved : IntentWorld :=
  let stored : Stored := ⟨501, chaletParams "chalet" "192.168.1.254" true, [chaletOld]⟩
  { chaletWorld [stored] with document := ([stored], []) }

/-- The chalet's intent as a set stores it, with the default metric. -/
def chaletServed : IntentWorld :=
  chaletWorld [⟨501, { chaletParams "chalet" "192.168.1.254" true with
    metric := some Core.defaultMetric }, [chaletOld]⟩]

theorem chaletServed_allServed : AllServed chaletText chaletServed := by
  intro slot hslot derivation hderivation
  obtain rfl : slot = .intent 0 := List.mem_singleton.mp hslot
  cases hderivation
  exact ⟨by decide, by decide⟩

/-- Setting the intent as it is stored has no effect that an error could leave behind, and neither
has deleting one that is not stored. -/
theorem chalet_edits_atomic :
    AtomicOnError (setIntent chaletText 501 (chaletParams "chalet" "192.168.1.254" true)) 2
        chaletServed ∧ AtomicOnError (deleteIntent 501 "barn") 1 chaletServed := by
  have hiff := edits_atomic_iff chaletText chaletServed rfl
  refine ⟨(hiff.1 501 _).mpr (.inr ⟨?_, chaletServed_allServed⟩), (hiff.2.1 501 "barn").mpr (by decide)⟩
  exact ⟨_, 0, _, rfl, rfl, rfl, by decide⟩

/-- The delete reports that it could not be saved. The intent and its route are gone, and the
document still has the intent. -/
theorem chalet_delete_not_atomic :
    ¬∀ (text : NetText) (w : IntentWorld), w.script = [] →
      (∀ uid params, AtomicOnError (setIntent text uid params) 2 w) ∧
      (∀ uid id, AtomicOnError (deleteIntent uid id) 1 w) ∧
      ∀ uid rule, AtomicOnError (putRule text uid rule) 2 w := by
  intro h
  have hrun : (deleteIntent 501 "chalet" chaletSaved [.proceed, .proceed, .fail ()]).1 =
      .err (.unavailable "The intents could not be saved") := by decide
  have hgone : (deleteIntent 501 "chalet" chaletSaved
      [.proceed, .proceed, .fail ()]).2.1.table.get chaletNet = none := by decide
  have hstood : chaletSaved.table.get chaletNet ≠ none := by decide
  have hgranted : Granted ([.proceed, .proceed, .fail ()] : List (Verdict Unit)) 1 := by
    simp [Granted]
  have hsame := (h chaletText chaletSaved rfl).2.1 501 "chalet" _ _ _ _ hgranted
    (eq_of_outcome hrun)
  rw [hsame.table] at hgone
  exact hstood hgone

end NetOrchestrator.Macos
