import Mathlib.Data.List.Perm.Subperm
import NetOrchestrator.Lib.Steps
import NetOrchestrator.Proofs.CondFrame

/-!
# `Proofs.CondConverges`: what one undisturbed pass over the rules leaves

A pass decides by one snapshot of the kernel, which it takes before it withdraws anything. An entry
that was in sync with the snapshot is kept, and a route that it lists may be withdrawn in the same
pass with another entry that lists it too (`harbor_route_taken_back`).

`Settled` is the state that a pass is for. `rules_settled` is the condition on the state before an
undisturbed pass under which it is reached, for every state that passes with any failures leave
behind. `StaysUp` says which keys the evaluations of a pass leave in the kernel, and `RulesPass` is
the invariant of the loop over the rules.
-/

namespace NetOrchestrator.Daemon

open Net Lib Lib.Call List Verdict

/-! ### Undisturbed removals -/

/-- The rows that a removal of the entry takes along. -/
def JournalEntry.Takes (e : JournalEntry) (row : KernelRoute) : Prop :=
  e.Lists row.key ∧ row.route.protocol = rtprotNetworkOrchestrator

theorem eraseIdx_eq_filter {α : Type} {l : List α} {p : α → Bool} {i : Nat} {a : α}
    (ha : l[i]? = some a) (hp : p a = false)
    (hothers : ∀ i' b, i' ≠ i → l[i']? = some b → p b = true) : l.eraseIdx i = l.filter p := by
  induction l generalizing i with
  | nil => rfl
  | cons b l ih =>
    cases i with
    | zero =>
      obtain rfl : b = a := by simpa using ha
      rw [eraseIdx_cons_zero, filter_cons_of_neg (by simp [hp])]
      refine (filter_eq_self.mpr fun c hc => ?_).symm
      obtain ⟨n, hn⟩ := mem_iff_getElem?.mp hc
      exact hothers (n + 1) c (by omega) (by simpa using hn)
    | succ i =>
      rw [eraseIdx_cons_succ, filter_cons_of_pos (hothers 0 b (by omega) (by simp))]
      refine congrArg _ (ih (by simpa using ha) fun i' c hne hc => ?_)
      exact hothers (i' + 1) c (by omega) (by simpa using hc)

theorem not_quiet_crash : ¬Quiet (.crash : Verdict Fault) := by
  intro hquiet
  cases hquiet

variable (core : DaemonCore)

/-- The core after an undisturbed removal of the entry. -/
def Removes (entry : JournalEntry) (c : DaemonCore) : Prop :=
  (∀ row, row ∈ c.kernel.routes ↔ row ∈ core.kernel.routes ∧ ¬entry.Takes row) ∧
    c.journal = core.journal.filter fun e => e.origin != entry.origin

section
variable {core : DaemonCore} {entry : JournalEntry} {uid : Nat} {ruleId : String}

section
variable (h : RuleShape core.journal core.kernel) (hentry : entry ∈ core.journal)
include h hentry

theorem RuleShape.wp_removeOwnerInner (horigin : entry.origin = .daemon uid (.cond ruleId)) :
    Succeeds (removeOwnerInner uid (.cond ruleId)) (fun _ => Removes core entry) core := by
  have hcond : entry.isCond = true := JournalEntry.isCond_of_origin horigin
  obtain ⟨huid, howner⟩ := Origin.daemon.inj horigin
  refine wp_bind (wp_position ?_)
  cases hposition : core.journal.position uid (.cond ruleId) with
  | none => exact absurd ⟨huid, howner⟩ (Journal.position_eq_none.mp hposition entry hentry)
  | some index =>
    obtain ⟨found, hfound, hsame⟩ := Journal.position_eq_some hposition
    obtain ⟨i, hi⟩ := mem_iff_getElem?.mp hentry
    have heq : entry.origin = found.origin := by
      rw [horigin, JournalEntry.origin, hsame.1, hsame.2]
    obtain rfl := h.eq_index hi hfound hcond heq
    obtain rfl : found = entry := Option.some.inj (hfound.symm.trans hi)
    have hroutes := h.routes found hentry hcond
    -- The entry of the owner is the only one, so the position does not matter.
    have herase : core.journal.eraseIdx i =
        core.journal.filter fun e => e.origin != found.origin := by
      refine eraseIdx_eq_filter hi (by simp) fun i' b hne hb => ?_
      rw [bne_iff_ne]
      exact fun hb' => hne (h.eq_index hi hb hcond hb'.symm).symm
    have hteardown : Succeeds (teardownEntry i) (fun _ c => c =
          { core with
            journal := core.journal.eraseIdx i
            kernel := core.kernel.releaseAll found.resources.reverse }) core := by
      refine wp_atEntry hi ?_
      rw [howner]
      refine wp_teardownGenericEntry_quiet hi fun x hx hneeds => ?_
      obtain ⟨r, rfl⟩ := hroutes x hx
      cases hneeds
    have hremoves : ∀ disk, Removes core found
        { core with
          journal := core.journal.eraseIdx i
          kernel := core.kernel.releaseAll found.resources.reverse
          disk } := by
      intro disk
      refine ⟨fun row => ?_, herase⟩
      rw [mem_releaseAll fun x hx => .inr (hroutes x (mem_reverse.mp hx))]
      refine and_congr_right fun _ => ⟨?_, fun h r hr hsel => h ⟨⟨r, ?_, hsel.1.symm⟩, hsel.2⟩⟩
      · rintro h ⟨⟨r, hr, hkey⟩, hprotocol⟩
        exact h r (mem_reverse.mpr hr) ⟨hkey.symm, hprotocol⟩
      · exact mem_reverse.mp hr
    refine wp_bind (wp_entryAt (fun _ _ => ?_) fun hnone => by rw [hi] at hnone; cases hnone)
    refine wp_tried (wp_ends hteardown ?_ (fun _ _ hf => hf.elim))
    rintro _ _ rfl
    exact wp_bind (wp_persist (fun hquiet => not_quiet_crash hquiet)
      (wp_ofExcept (fun _ _ => hremoves _) (fun _ he => by cases he))
      (wp_ofExcept (fun _ _ => hremoves _) (fun _ he => by cases he)))

/-- An undisturbed removal keeps the shape. -/
theorem RuleShape.removes {c : DaemonCore} (hremoves : Removes core entry c) :
    RuleShape c.journal c.kernel := by
  obtain ⟨hrows, hjournal⟩ := hremoves
  rw [hjournal]
  refine ⟨h.apart.filter _, fun e he => h.routes e (mem_of_mem_filter he), ?_⟩
  intro row hrow uid ruleId horigin
  obtain ⟨hold, hkept⟩ := (hrows row).mp hrow
  obtain ⟨hprotocol, e, he, heq, hlists⟩ := h.listed row hold uid ruleId horigin
  refine ⟨hprotocol, e, mem_filter.mpr ⟨he, bne_iff_ne.mpr fun hsame => ?_⟩, heq, hlists⟩
  have hcond : e.isCond = true := JournalEntry.isCond_of_origin (heq.trans horigin)
  obtain rfl := h.eq_of_origin he hentry hcond hsame
  exact hkept ⟨hlists, hprotocol⟩

end

/-- The core after the orphans down to the `n`-th entry have been removed. -/
structure WithoutOrphans (core : DaemonCore) (rules : List UserRule) (n : Nat) (c : DaemonCore) :
    Prop where
  shape : RuleShape c.journal c.kernel
  bound : n ≤ core.journal.length
  journal : c.journal =
    core.journal.take n ++ (core.journal.drop n).filter fun e => !condOrphan rules e
  rows : ∀ row, row ∈ c.kernel.routes ↔ row ∈ core.kernel.routes ∧
    ∀ e ∈ core.journal.drop n, condOrphan rules e = true → ¬e.Takes row

theorem WithoutOrphans.wp_removeOrphans {rules : List UserRule} {n : Nat} {c : DaemonCore}
    (h : WithoutOrphans core rules n c) (changed : List OwnerKey) :
    Succeeds (removeOrphans rules n changed) (fun _ => WithoutOrphans core rules 0) c := by
  induction n generalizing c changed with
  | zero => exact wp_pure h
  | succ n ih =>
    have hlt : n < core.journal.length := h.bound
    have htake : core.journal.take (n + 1) = core.journal.take n ++ [core.journal[n]] := by simp
    have hdrop : core.journal.drop n = core.journal[n] :: core.journal.drop (n + 1) := by simp
    have hentry : c.journal[n]? = some core.journal[n] := by
      rw [h.journal, getElem?_append_left (by simp; omega)]
      simp [hlt]
    refine wp_atEntry hentry ?_
    split
    · rename_i horphan
      -- The entry of a rule that is gone, and the only one of its owner.
      obtain ⟨ruleId, howner⟩ : ∃ ruleId, core.journal[n].owner = .cond ruleId := by
        unfold condOrphan at horphan
        split at horphan
        · exact ⟨_, ‹_›⟩
        · cases horphan
      have horigin : core.journal[n].origin = .daemon core.journal[n].uid (.cond ruleId) := by
        rw [JournalEntry.origin, howner]
      have hmem := mem_of_getElem? hentry
      rw [howner]
      refine wp_tried (wp_ends (h.shape.wp_removeOwnerInner hmem horigin) ?_
        (fun _ _ hf => hf.elim))
      intro _ c' hc'
      refine ih ⟨h.shape.removes hmem hc', by omega, ?_, fun row => ?_⟩ _
      · have hapart := h.shape.apart
        rw [h.journal, htake, append_assoc, singleton_append,
          pairwise_middle fun hab hb ha heq => hab ha hb heq.symm] at hapart
        have hcond : core.journal[n].isCond = true := JournalEntry.isCond_of_origin horigin
        have hothers : ∀ e ∈ core.journal.take n ++
            (core.journal.drop (n + 1)).filter fun e => !condOrphan rules e,
            (e.origin != core.journal[n].origin) = true := by
          intro e he
          rw [bne_iff_ne]
          intro heq
          have hcond' := JournalEntry.isCond_of_origin (heq.trans horigin)
          exact (pairwise_cons.mp hapart).1 e he hcond hcond' heq.symm
        rw [hc'.2, h.journal, htake, hdrop, filter_cons_of_neg (by simp [horphan]),
          append_assoc, filter_append, singleton_append,
          filter_cons_of_neg (by simp), ← filter_append]
        exact filter_eq_self.mpr hothers
      · rw [hc'.1, h.rows, hdrop]
        simp only [mem_cons, forall_eq_or_imp, horphan, forall_const]
        tauto
    · rename_i hkeep
      simp only [Bool.not_eq_true] at hkeep
      refine ih ⟨h.shape, by omega, ?_, fun row => ?_⟩ changed
      · rw [h.journal, htake, hdrop, filter_cons_of_pos (by simp [hkeep]),
          append_assoc, singleton_append]
      · rw [h.rows, hdrop]
        simp only [mem_cons, forall_eq_or_imp, hkeep, Bool.false_eq_true, false_implies, true_and]

end

/-! ### An undisturbed evaluation -/

/-- What the evaluation of a rule does where it succeeds. -/
inductive Evaluated (core : DaemonCore) (observed : List AppliedRoute) (rule : UserRule)
    (desired : Option (List AppliedRoute)) : DaemonCore → Prop
  | idle (hnone : ∀ e ∈ core.journal, e.origin ≠ rule.origin) (hdesired : desired = none) :
      Evaluated core observed rule desired core
  | kept (routes : List AppliedRoute) (e : JournalEntry) (he : e ∈ core.journal)
      (horigin : e.origin = rule.origin) (hdesired : desired = some routes)
      (hsync : e.inSync routes observed = true) : Evaluated core observed rule desired core
  | withdrawn (c : DaemonCore) (e : JournalEntry) (he : e ∈ core.journal)
      (horigin : e.origin = rule.origin) (hdesired : desired = none) (hc : Removes core e c) :
      Evaluated core observed rule desired c
  | applied (c : DaemonCore) (routes : List AppliedRoute) (hdesired : desired = some routes)
      (hout : ∀ e ∈ core.journal, e.origin = rule.origin → e.inSync routes observed = false)
      (hrows : ∀ row, row ∈ c.kernel.routes ↔
        (row ∈ core.kernel.routes ∧ ∀ e ∈ core.journal, e.origin = rule.origin → ¬e.Takes row) ∨
          ∃ r ∈ routes, row = r.system.install rule.origin)
      (hjournal : c.journal = (core.journal.filter fun e => e.origin != rule.origin) ++
        [routeEntry rule.1 (.cond rule.2.id) .applied none routes]) :
      Evaluated core observed rule desired c

section
variable {core : DaemonCore} {observed : List AppliedRoute} {rule : UserRule}

/-- A successful apply, where the owner has no entry. -/
theorem RuleShape.wp_applyRoutesInner (h : RuleShape core.journal core.kernel)
    (routes : List AppliedRoute) : wp Quiet (applyRoutesInner rule.1 rule.key.2 routes none)
      (fun _ c => RuleShape c.journal c.kernel ∧
        (∀ row, row ∈ c.kernel.routes ↔ row ∈ core.kernel.routes ∨
          ∃ r ∈ routes, row = r.system.install rule.origin) ∧
        c.journal = core.journal ++ [routeEntry rule.1 (.cond rule.2.id) .applied none routes])
      (fun _ c => RuleShape c.journal c.kernel) (fun _ => False) core := by
  refine wp_mono (Daemon.wp_applyRoutesInner core rule.1 (.cond rule.2.id) routes none) ?_
    (fun _ _ hfails => h.applyFails hfails) fun c hc => not_quiet_crash hc.1
  rintro _ c ⟨-, hfree, k, disk, hk, -, rfl⟩
  refine ⟨h.push hfree hk fun r hr => mem_reverse.mp hr, fun row => ?_, rfl⟩
  rw [hk.mem]
  simp only [mem_reverse]
  rfl

theorem RuleShape.wp_evaluateRule (h : RuleShape core.journal core.kernel)
    (desired : Option (List AppliedRoute)) : wp Quiet (evaluateRule observed rule desired)
      (fun _ c => RuleShape c.journal c.kernel ∧ Evaluated core observed rule desired c)
      (fun _ c => RuleShape c.journal c.kernel) (fun _ => False) core := by
  refine wp_bind (wp_position ?_)
  cases hposition : core.journal.position rule.1 rule.key.2 with
  | none =>
    have hnone : ∀ e ∈ core.journal, e.origin ≠ rule.origin := origin_ne_of_position hposition
    cases hdesired : desired with
    | none => exact wp_pure ⟨h, .idle hnone rfl⟩
    | some routes =>
      refine wp_bind (wp_post (h.wp_applyRoutesInner routes) ?_)
      rintro _ c ⟨hshape, hrows, hjournal⟩
      refine wp_pure ⟨hshape, .applied c routes rfl (fun e he heq => absurd heq (hnone e he))
        (fun row => ?_) ?_⟩
      · have hvacuous : ∀ e ∈ core.journal, e.origin = rule.origin → ¬e.Takes row :=
          fun e he heq => absurd heq (hnone e he)
        rw [hrows, and_iff_left hvacuous]
      · rw [hjournal, filter_eq_self.mpr fun e he => bne_iff_ne.mpr (hnone e he)]
  | some index =>
    obtain ⟨entry, hentry, huid, howner⟩ := Journal.position_eq_some hposition
    have he : entry ∈ core.journal := mem_of_getElem? hentry
    have horigin : entry.origin = rule.origin := by
      rw [JournalEntry.origin, huid, howner]
      rfl
    cases hdesired : desired with
    | none =>
      refine wp_bind (wp_ends (h.wp_removeOwnerInner he horigin) ?_ (fun _ _ hf => hf.elim))
      intro _ c hc
      exact wp_pure ⟨h.removes he hc, .withdrawn c entry he horigin rfl hc⟩
    | some routes =>
      refine wp_atEntry hentry ?_
      split
      · rename_i hsync
        exact wp_pure ⟨h, .kept routes entry he horigin rfl hsync⟩
      rename_i hout
      have hcond := JournalEntry.isCond_of_origin horigin
      have honly : ∀ e ∈ core.journal, e.origin = rule.origin → e = entry :=
        fun e hmem heq => (h.eq_of_origin he hmem hcond (horigin.trans heq.symm)).symm
      refine wp_bind (wp_ends (h.wp_removeOwnerInner he horigin) ?_ (fun _ _ hf => hf.elim))
      intro _ c hc
      refine wp_bind (wp_post ((h.removes he hc).wp_applyRoutesInner routes) ?_)
      rintro _ c' ⟨hshape, hrows, hjournal⟩
      refine wp_pure ⟨hshape, .applied c' routes rfl (fun e hmem heq => ?_) (fun row => ?_) ?_⟩
      · rw [honly e hmem heq]
        simpa using hout
      · have htakes : (∀ e ∈ core.journal, e.origin = rule.origin → ¬e.Takes row) ↔
            ¬entry.Takes row :=
          ⟨fun hall => hall entry he horigin, fun hno e hmem heq => honly e hmem heq ▸ hno⟩
        rw [hrows, hc.1, htakes]
      · rw [hjournal, hc.2, horigin]

end

/-! ### What the pass does to a key -/

/-- Some row of the daemon's protocol has this key. -/
def Kernel.HasOwn (k : Kernel) (key : RouteKey) : Prop :=
  ∃ row ∈ k.routes, row.key = key ∧ row.route.protocol = rtprotNetworkOrchestrator ∧
    row.route.kind = .unicast

/-- The routes that the rule derives, for a core with these tunnels. -/
def DaemonCore.derived (addrs : List IfaceAddr) (rule : UserRule) : Option (List AppliedRoute) :=
  rule.2.desired addrs (ownedIfindices core.journal)

section
variable (core : DaemonCore) (addrs : List IfaceAddr)

/-- The rule has no entry that is just what it derives. -/
def DaemonCore.OutOfSync (rule : UserRule) : Prop :=
  ∀ routes, core.derived addrs rule = some routes → ∀ e ∈ core.journal, e.origin = rule.origin →
    e.inSync routes core.kernel.ownedRoutesSnapshot = false

/-- The evaluation of the rule withdraws a route with this key. -/
def DaemonCore.Withdraws (rule : UserRule) (key : RouteKey) : Prop :=
  core.OutOfSync addrs rule ∧ ∃ e ∈ core.journal, e.origin = rule.origin ∧ e.Lists key

/-- The evaluation of the rule installs a route with this key. -/
def DaemonCore.Installs (rule : UserRule) (key : RouteKey) : Prop :=
  core.OutOfSync addrs rule ∧
    ∃ routes, core.derived addrs rule = some routes ∧ ∃ r ∈ routes, r.key = key

/-- After the orphans of `rules` have been removed and `done` have been evaluated, a route with
this key is in the kernel. -/
inductive DaemonCore.StaysUp (rules done : List UserRule) (key : RouteKey) : Prop
  | kept (hhas : core.kernel.HasOwn key)
      (horphan : ∀ e ∈ core.journal, condOrphan rules e = true → ¬e.Lists key)
      (hno : ∀ rule ∈ done, ¬core.Withdraws addrs rule key)
  | installed (earlier : List UserRule) (rule : UserRule) (later : List UserRule)
      (hdone : done = earlier ++ rule :: later) (hin : core.Installs addrs rule key)
      (hno : ∀ other ∈ later, ¬core.Withdraws addrs other key)

end

section
variable {core : DaemonCore} {addrs : List IfaceAddr} {rules done : List UserRule}
  {rule : UserRule} {key : RouteKey}

theorem DaemonCore.StaysUp.nil_iff : core.StaysUp addrs rules [] key ↔ core.kernel.HasOwn key ∧
      ∀ e ∈ core.journal, condOrphan rules e = true → ¬e.Lists key := by
  constructor
  · rintro (⟨hhas, horphan, -⟩ | ⟨earlier, rule, later, hdone, -, -⟩)
    · exact ⟨hhas, horphan⟩
    · simp at hdone
  · rintro ⟨hhas, horphan⟩
    exact .kept hhas horphan (by simp)

/-- One more rule. -/
theorem DaemonCore.StaysUp.snoc_iff : core.StaysUp addrs rules (done ++ [rule]) key ↔
      (core.StaysUp addrs rules done key ∧ ¬core.Withdraws addrs rule key) ∨
        core.Installs addrs rule key := by
  constructor
  · rintro (⟨hhas, horphan, hno⟩ | ⟨earlier, rule', later, hdone, hin, hno⟩)
    · exact .inl ⟨.kept hhas horphan fun other hother => hno other (by simp [hother]),
        hno rule (by simp)⟩
    · rcases eq_nil_or_concat later with rfl | ⟨later, last, rfl⟩
      · obtain ⟨-, heq⟩ := append_inj' hdone rfl
        obtain rfl : rule = rule' := by simpa using heq
        exact .inr hin
      · rw [concat_eq_append, ← cons_append, ← append_assoc] at hdone
        obtain ⟨rfl, heq⟩ := append_inj' hdone rfl
        obtain rfl : rule = last := by simpa using heq
        refine .inl ⟨.installed earlier rule' later rfl hin fun other hother => hno other ?_,
          hno rule ?_⟩
        · simp [hother]
        · simp
  · rintro (⟨⟨hhas, horphan, hno⟩ | ⟨earlier, rule', later, rfl, hin, hno⟩, hnot⟩ | hin)
    · refine .kept hhas horphan fun other hother => ?_
      rcases mem_append.mp hother with hold | hlast
      · exact hno other hold
      · exact mem_singleton.mp hlast ▸ hnot
    · refine .installed earlier rule' (later ++ [rule]) (by simp) hin fun other hother => ?_
      rcases mem_append.mp hother with hold | hlast
      · exact hno other hold
      · exact mem_singleton.mp hlast ▸ hnot
    · exact .installed done rule [] rfl hin (by simp)

theorem hasOwn_iff_of_removes {c : DaemonCore} {e : JournalEntry} (hc : Removes core e c) :
    c.kernel.HasOwn key ↔ core.kernel.HasOwn key ∧ ¬e.Lists key := by
  constructor
  · rintro ⟨row, hrow, rfl, hprotocol, hkind⟩
    obtain ⟨hold, hkept⟩ := (hc.1 row).mp hrow
    exact ⟨⟨row, hold, rfl, hprotocol, hkind⟩, fun hlists => hkept ⟨hlists, hprotocol⟩⟩
  · rintro ⟨⟨row, hrow, rfl, hprotocol, hkind⟩, hno⟩
    exact ⟨row, (hc.1 row).mpr ⟨hrow, fun htakes => hno htakes.1⟩, rfl, hprotocol, hkind⟩

end

/-! ### The loop over the rules -/

variable {rules : List UserRule} {e : JournalEntry}

theorem condOrphan_iff :
    condOrphan rules e = true ↔ e.isCond = true ∧ ∀ rule ∈ rules, rule.origin ≠ e.origin := by
  cases howner : e.owner with
  | cond ruleId =>
    simp only [condOrphan, JournalEntry.isCond, howner, Bool.not_eq_true', contains_eq_mem,
      decide_eq_false_iff_not, mem_map, not_exists, not_and, true_and]
    refine forall₂_congr fun rule _ => not_congr ?_
    simp only [UserRule.key, UserRule.origin, JournalEntry.origin, howner, Prod.mk.injEq,
      Origin.daemon.injEq, Owner.cond.injEq]
  | _ => simp [condOrphan, JournalEntry.isCond, howner]

theorem UserRule.isCond_of_origin {rule : UserRule}
    (h : e.origin = rule.origin) : e.isCond = true :=
  JournalEntry.isCond_of_origin h

/-- A pass that has removed the orphans and evaluated `done`. -/
structure RulesPass (before : DaemonCore) (addrs : List IfaceAddr) (rules done : List UserRule)
    (c : DaemonCore) : Prop where
  shape : RuleShape c.journal c.kernel
  others : (c.journal.filter fun e => !e.isCond) = before.journal.filter fun e => !e.isCond
  known : ∀ e ∈ c.journal, e.isCond = true → ∃ rule ∈ rules, rule.origin = e.origin
  ahead : ∀ rule ∈ rules, rule ∉ done → ∀ e, e.origin = rule.origin →
    (e ∈ c.journal ↔ e ∈ before.journal)
  entries : ∀ rule ∈ done, ∀ e ∈ c.journal, e.origin = rule.origin →
    ∃ routes, before.derived addrs rule = some routes ∧ e.state = .applied ∧
      e.resources.Perm (routes.map OwnedResource.route)
  present : ∀ rule ∈ done, (before.derived addrs rule).isSome = true →
    ∃ e ∈ c.journal, e.origin = rule.origin
  has : ∀ key, c.kernel.HasOwn key ↔ before.StaysUp addrs rules done key

namespace RulesPass

variable {before c : DaemonCore} {addrs : List IfaceAddr} {rules done : List UserRule}
  {rule : UserRule}

theorem start (h : WithoutOrphans before rules 0 c) : RulesPass before addrs rules [] c := by
  have hjournal : c.journal = before.journal.filter fun e => !condOrphan rules e := h.journal
  constructor
  · exact h.shape
  · rw [hjournal, filter_filter]
    refine filter_congr fun e _ => ?_
    cases horphan : condOrphan rules e with
    | false => simp
    | true => simp [(condOrphan_iff.mp horphan).1]
  · intro e he hcond
    rw [hjournal, mem_filter] at he
    by_contra hno
    push Not at hno
    simp [condOrphan_iff.mpr ⟨hcond, hno⟩] at he
  · intro rule hrule _ e heq
    rw [hjournal, mem_filter, Bool.not_eq_true']
    refine and_iff_left (Bool.eq_false_iff.mpr fun horphan => ?_)
    exact (condOrphan_iff.mp horphan).2 rule hrule heq.symm
  · simp
  · simp
  · intro key
    rw [DaemonCore.StaysUp.nil_iff]
    constructor
    · rintro ⟨row, hrow, rfl, hprotocol, hkind⟩
      obtain ⟨hold, hkept⟩ := (h.rows row).mp hrow
      exact ⟨⟨row, hold, rfl, hprotocol, hkind⟩,
        fun e he horphan hlists => hkept e he horphan ⟨hlists, hprotocol⟩⟩
    · rintro ⟨⟨row, hrow, rfl, hprotocol, hkind⟩, hno⟩
      exact ⟨row, (h.rows row).mpr ⟨hrow, fun e he horphan htakes => hno e he horphan htakes.1⟩,
        rfl, hprotocol, hkind⟩

theorem eq_map_ownedRoutes {l : List OwnedResource} (hl : ∀ x ∈ l, ∃ r, x = .route r) :
    l = (ownedRoutes l).map OwnedResource.route := by
  induction l with
  | nil => rfl
  | cons x rest ih =>
    obtain ⟨r, rfl⟩ := hl x (by simp)
    have hrest := ih fun y hy => hl y (mem_cons_of_mem _ hy)
    show OwnedResource.route r :: rest = .route r :: (ownedRoutes rest).map OwnedResource.route
    rw [← hrest]

/-- An entry in sync lists exactly what the rule derives. -/
theorem perm_of_inSync {e : JournalEntry} {routes observed : List AppliedRoute}
    (hroutes : ∀ x ∈ e.resources, ∃ r, x = .route r) (hnodup : routes.Nodup)
    (h : e.inSync routes observed = true) :
    e.state = .applied ∧ e.resources.Perm (routes.map OwnedResource.route) := by
  simp only [JournalEntry.inSync, Bool.and_eq_true, beq_iff_eq, all_eq_true,
    contains_eq_mem, decide_eq_true_eq] at h
  obtain ⟨⟨⟨hstate, hlength⟩, hsub⟩, -⟩ := h
  have hperm : routes.Perm (ownedRoutes e.resources) :=
    (subperm_of_subset hnodup hsub).perm_of_length_le (le_of_eq hlength)
  rw [eq_map_ownedRoutes hroutes]
  exact ⟨hstate, (hperm.map OwnedResource.route).symm⟩

section
variable (h : RulesPass before addrs rules done c) (hkeys : (rules.map UserRule.origin).Nodup)
  (hrule : rule ∈ rules) (hnew : rule ∉ done) (hsub : done ⊆ rules)

include h hrule hnew in
/-- What the evaluation withdraws, read off the journal that it finds. -/
theorem withdraws_iff (key : RouteKey) : before.Withdraws addrs rule key ↔
      before.OutOfSync addrs rule ∧ ∃ e ∈ c.journal, e.origin = rule.origin ∧ e.Lists key := by
  refine and_congr_right fun _ => exists_congr fun e => ?_
  constructor
  · rintro ⟨he, heq, hlists⟩
    exact ⟨(h.ahead rule hrule hnew e heq).mpr he, heq, hlists⟩
  · rintro ⟨he, heq, hlists⟩
    exact ⟨(h.ahead rule hrule hnew e heq).mp he, heq, hlists⟩

include h in
/-- The journal stays. -/
theorem skipped (hentries : ∀ e ∈ c.journal, e.origin = rule.origin →
      ∃ routes, before.derived addrs rule = some routes ∧ e.state = .applied ∧
        e.resources.Perm (routes.map OwnedResource.route))
    (hpresent : (before.derived addrs rule).isSome = true → ∃ e ∈ c.journal, e.origin = rule.origin)
    (hhas : ∀ key, c.kernel.HasOwn key ↔ before.StaysUp addrs rules (done ++ [rule]) key) :
    RulesPass before addrs rules (done ++ [rule]) c :=
  { h with
    ahead other hother hnot := h.ahead other hother fun hdone => hnot (by simp [hdone])
    entries other hother := by
      rcases mem_append.mp hother with hold | hlast
      · exact h.entries other hold
      · exact mem_singleton.mp hlast ▸ hentries
    present other hother := by
      rcases mem_append.mp hother with hold | hlast
      · exact h.present other hold
      · exact mem_singleton.mp hlast ▸ hpresent
    has := hhas }

variable {c' : DaemonCore}

include h hkeys hrule hnew hsub in
/-- The rule's entry is replaced by `added`. -/
theorem replaced (hshape : RuleShape c'.journal c'.kernel) {added : List JournalEntry}
    (hjournal : c'.journal = (c.journal.filter fun e => e.origin != rule.origin) ++ added)
    (hadded : ∀ e ∈ added, e.origin = rule.origin ∧
      ∃ routes, before.derived addrs rule = some routes ∧ e.state = .applied ∧
        e.resources.Perm (routes.map OwnedResource.route))
    (hpresent : (before.derived addrs rule).isSome = true → added ≠ [])
    (hhas : ∀ key, c'.kernel.HasOwn key ↔ before.StaysUp addrs rules (done ++ [rule]) key) :
    RulesPass before addrs rules (done ++ [rule]) c' := by
  have hmem : ∀ e, e.origin ≠ rule.origin → (e ∈ c'.journal ↔ e ∈ c.journal) := by
    intro e hne
    rw [hjournal, mem_append, mem_filter, bne_iff_ne]
    exact ⟨fun he => he.elim And.left fun he => absurd (hadded e he).1 hne,
      fun he => .inl ⟨he, hne⟩⟩
  have hown : ∀ e ∈ c'.journal, e.origin = rule.origin → e ∈ added := by
    intro e he heq
    rw [hjournal, mem_append, mem_filter, bne_iff_ne] at he
    exact he.resolve_left fun hold => hold.2 heq
  have hapart : ∀ other ∈ rules, other ≠ rule → other.origin ≠ rule.origin :=
    fun other hother hne heq => hne (inj_on_of_nodup_map hkeys hother hrule heq)
  constructor
  · exact hshape
  · rw [← h.others, hjournal, filter_append, filter_filter]
    have hnone : (added.filter fun e => !e.isCond) = [] := by
      refine filter_eq_nil_iff.mpr fun e he => ?_
      simp [UserRule.isCond_of_origin (hadded e he).1]
    rw [hnone, append_nil]
    refine filter_congr fun e _ => ?_
    by_cases heq : e.origin = rule.origin
    · simp [heq, UserRule.isCond_of_origin heq]
    · simp [heq]
  · intro e he hcond
    by_cases heq : e.origin = rule.origin
    · exact ⟨rule, hrule, heq.symm⟩
    · exact h.known e ((hmem e heq).mp he) hcond
  · intro other hother hnot e heq
    have hne : other ≠ rule := fun hsame => hnot (by simp [hsame])
    rw [hmem e (heq ▸ hapart other hother hne)]
    exact h.ahead other hother (fun hdone => hnot (by simp [hdone])) e heq
  · intro other hother e he heq
    rcases mem_append.mp hother with hold | hlast
    · have hne : other ≠ rule := fun hsame => hnew (hsame ▸ hold)
      exact h.entries other hold e ((hmem e (heq ▸ hapart other (hsub hold) hne)).mp he) heq
    · obtain rfl := mem_singleton.mp hlast
      exact (hadded e (hown e he heq)).2
  · intro other hother hsome
    rcases mem_append.mp hother with hold | hlast
    · have hne : other ≠ rule := fun hsame => hnew (hsame ▸ hold)
      obtain ⟨e, he, heq⟩ := h.present other hold hsome
      exact ⟨e, (hmem e (heq ▸ hapart other (hsub hold) hne)).mpr he, heq⟩
    · obtain rfl := mem_singleton.mp hlast
      obtain ⟨e, he⟩ := exists_mem_of_ne_nil added (hpresent hsome)
      exact ⟨e, hjournal ▸ mem_append_right _ he, (hadded e he).1⟩
  · exact hhas

include h hkeys hrule hnew hsub in
theorem evaluated (hnodup : ∀ routes, before.derived addrs rule = some routes → routes.Nodup)
    (hshape : RuleShape c'.journal c'.kernel)
    (hc : Evaluated c before.kernel.ownedRoutesSnapshot rule (before.derived addrs rule) c') :
    RulesPass before addrs rules (done ++ [rule]) c' := by
  have hiff := h.withdraws_iff hrule hnew
  cases hc with
  | idle hnone hdesired =>
    have hwithdraws : ∀ key, ¬before.Withdraws addrs rule key := by
      intro key hkey
      obtain ⟨e, he, heq, -⟩ := ((hiff key).mp hkey).2
      exact hnone e he heq
    have hinstalls : ∀ key, ¬before.Installs addrs rule key := by
      rintro key ⟨-, routes, hroutes, -⟩
      rw [hdesired] at hroutes
      cases hroutes
    refine h.skipped (fun e he heq => absurd heq (hnone e he)) (by simp [hdesired]) fun key => ?_
    rw [h.has, DaemonCore.StaysUp.snoc_iff, or_iff_left (hinstalls key),
      and_iff_left (hwithdraws key)]
  | kept routes e he horigin hdesired hsync =>
    have hin : ¬before.OutOfSync addrs rule := by
      intro hout
      rw [hout routes hdesired e ((h.ahead rule hrule hnew e horigin).mp he) horigin] at hsync
      cases hsync
    have honly : ∀ e' ∈ c.journal, e'.origin = rule.origin → e' = e := fun e' he' heq =>
      (h.shape.eq_of_origin he he' (UserRule.isCond_of_origin horigin)
        (horigin.trans heq.symm)).symm
    refine h.skipped (fun e' he' heq => ?_) (fun _ => ⟨e, he, horigin⟩) fun key => ?_
    · rw [honly e' he' heq]
      have hroutes := h.shape.routes e he (UserRule.isCond_of_origin horigin)
      obtain ⟨hstate, hperm⟩ := perm_of_inSync hroutes (hnodup routes hdesired) hsync
      exact ⟨routes, hdesired, hstate, hperm⟩
    · rw [h.has, DaemonCore.StaysUp.snoc_iff, or_iff_left fun hinstalls => hin hinstalls.1,
        and_iff_left fun hwithdraws => hin hwithdraws.1]
  | withdrawn _ e he horigin hdesired hc =>
    have hout : before.OutOfSync addrs rule := by
      intro routes hroutes
      rw [hdesired] at hroutes
      cases hroutes
    have hinstalls : ∀ key, ¬before.Installs addrs rule key := by
      rintro key ⟨-, routes, hroutes, -⟩
      rw [hdesired] at hroutes
      cases hroutes
    have honly : ∀ e' ∈ c.journal, e'.origin = rule.origin → e' = e := fun e' he' heq =>
      (h.shape.eq_of_origin he he' (UserRule.isCond_of_origin horigin)
        (horigin.trans heq.symm)).symm
    have hwithdraws : ∀ key, before.Withdraws addrs rule key ↔ e.Lists key := by
      intro key
      rw [hiff]
      exact ⟨fun ⟨_, e', he', heq, hlists⟩ => honly e' he' heq ▸ hlists,
        fun hlists => ⟨hout, e, he, horigin, hlists⟩⟩
    have hjournal : c'.journal =
        (c.journal.filter fun e => e.origin != rule.origin) ++ [] := by
      rw [append_nil, hc.2, horigin]
    refine h.replaced hkeys hrule hnew hsub hshape hjournal (by simp) (by simp [hdesired])
      fun key => ?_
    rw [hasOwn_iff_of_removes hc, h.has, DaemonCore.StaysUp.snoc_iff,
      or_iff_left (hinstalls key), hwithdraws]
  | applied _ routes hdesired hout hrows hjournal =>
    have hout : before.OutOfSync addrs rule := by
      intro routes' hroutes' e he heq
      rw [hdesired] at hroutes'
      cases hroutes'
      exact hout e ((h.ahead rule hrule hnew e heq).mpr he) heq
    refine h.replaced hkeys hrule hnew hsub hshape hjournal ?_ (by simp) fun key => ?_
    · intro e he
      rw [mem_singleton.mp he]
      exact ⟨rfl, routes, hdesired, rfl, List.Perm.refl _⟩
    rw [DaemonCore.StaysUp.snoc_iff, hiff, ← h.has, and_iff_right hout]
    constructor
    · rintro ⟨row, hrow, rfl, hprotocol, hkind⟩
      rcases (hrows row).mp hrow with ⟨hold, hkept⟩ | ⟨r, hr, rfl⟩
      · exact .inl ⟨⟨row, hold, rfl, hprotocol, hkind⟩,
          fun ⟨e, he, heq, hlists⟩ => hkept e he heq ⟨hlists, hprotocol⟩⟩
      · exact .inr ⟨hout, routes, hdesired, r, hr, (r.key_install rule.origin).symm⟩
    · rintro (⟨⟨row, hrow, rfl, hprotocol, hkind⟩, hno⟩ | ⟨-, routes', hroutes', r, hr, rfl⟩)
      · exact ⟨row, (hrows row).mpr (.inl ⟨hrow, fun e he heq htakes =>
          hno ⟨e, he, heq, htakes.1⟩⟩), rfl, hprotocol, hkind⟩
      · rw [hdesired] at hroutes'
        cases hroutes'
        exact ⟨r.system.install rule.origin, (hrows _).mpr (.inr ⟨r, hr, rfl⟩),
          r.key_install rule.origin, rfl, rfl⟩

end

/-- The loop. A failure stays in the outcome. -/
theorem wp_evaluateRules {rest : List UserRule} {pass : CondPass} {owned : List Nat}
    (hkeys : (rules.map UserRule.origin).Nodup) (hsplit : done ++ rest = rules)
    (howned : ∀ rule, rule.2.desired addrs owned = before.derived addrs rule)
    (hnodup : ∀ rule ∈ rules, ∀ routes, before.derived addrs rule = some routes → routes.Nodup)
    (hshape : RuleShape c.journal c.kernel)
    (h : (∀ eval ∈ pass.evals, eval.2.error = none) → RulesPass before addrs rules done c) :
    Succeeds (evaluateRules addrs before.kernel.ownedRoutesSnapshot owned rest pass)
      (fun pass c => (∀ eval ∈ pass.evals, eval.2.error = none) →
        RulesPass before addrs rules rules c) c := by
  induction rest generalizing done pass c with
  | nil =>
    rw [append_nil] at hsplit
    exact wp_pure (hsplit ▸ h)
  | cons rule rest ih =>
    have hrule : rule ∈ rules := hsplit ▸ by simp
    have hsub : done ⊆ rules := hsplit ▸ subset_append_left ..
    have hnew : rule ∉ done := by
      intro hdone
      rw [← hsplit, map_append, nodup_append] at hkeys
      exact hkeys.2.2 rule.origin (mem_map_of_mem hdone) rule.origin (by simp) rfl
    have hnext : done ++ [rule] ++ rest = rules := by simpa using hsplit
    refine wp_tried (wp_ends (hshape.wp_evaluateRule _) ?_ ?_)
    · rintro touched c' ⟨hshape', hc⟩
      rw [howned] at hc
      refine ih hnext hshape' fun hevals => ?_
      have hbefore : ∀ eval ∈ pass.evals, eval.2.error = none :=
        fun eval heval => hevals eval (mem_append_left _ heval)
      exact (h hbefore).evaluated hkeys hrule hnew hsub (hnodup rule hrule) hshape' hc
    · intro e c' hshape'
      refine ih hnext hshape' fun hevals => ?_
      have hlast := hevals (rule.key, ⟨(rule.2.matched addrs owned).map Prod.snd, some e⟩)
        (mem_append_right _ (mem_singleton.mpr rfl))
      cases hlast

end RulesPass

/-! ### Valid rules -/

section
variable {rule : ConditionalRouteRule} {routes : List PolicyRoute} {seen : List (IpNet × Nat)}

theorem validateRuleRoutes_ok (h : validateRuleRoutes seen routes = .ok ()) :
    (∀ r ∈ routes, r.destination.trunc = r.destination ∧ (r.destination, r.metric) ∉ seen) ∧
      (routes.map fun r => (r.destination, r.metric)).Nodup := by
  induction routes generalizing seen with
  | nil => simp
  | cons route rest ih =>
    unfold validateRuleRoutes at h
    cases hroute : validatePolicyRoute route with
    | error e =>
      rw [hroute] at h
      cases h
    | ok u =>
      have htrunc : route.destination.trunc = route.destination := by
        unfold validatePolicyRoute at hroute
        split at hroute
        · cases hroute
        · exact not_not.mp ‹_›
      rw [hroute] at h
      change (if _ then _ else _) = _ at h
      split at h
      · cases h
      rename_i hfresh
      have hnot : (route.destination, route.metric) ∉ seen := by simpa using hfresh
      obtain ⟨hrest, hnodup⟩ := ih h
      refine ⟨fun r hr => ?_, ?_⟩
      · rcases mem_cons.mp hr with rfl | hr
        · exact ⟨htrunc, hnot⟩
        · exact ⟨(hrest r hr).1, fun hseen => (hrest r hr).2 (mem_cons_of_mem _ hseen)⟩
      · rw [map_cons, nodup_cons]
        refine ⟨fun hmem => ?_, hnodup⟩
        obtain ⟨r, hr, heq⟩ := mem_map.mp hmem
        exact (hrest r hr).2 (heq ▸ mem_cons_self)

theorem validateRule_routes (h : validateRule rule = .ok ()) :
    validateRuleRoutes [] rule.routes = .ok () := by
  unfold validateRule at h
  split at h
  · cases h
  split at h
  · cases h
  split at h
  split at h
  · cases h
  split at h
  · cases h
  exact h

theorem planRoutes_spec (h : validateRule rule = .ok ()) (ifindex : Nat) :
    (planRoutes rule ifindex).Nodup ∧ ∀ r ∈ planRoutes rule ifindex, r.Normal := by
  obtain ⟨htrunc, hnodup⟩ := validateRuleRoutes_ok (validateRule_routes h)
  constructor
  · refine List.Nodup.of_map (fun r : AppliedRoute => (r.destination, r.metric)) ?_
    rw [planRoutes, map_map]
    exact hnodup
  · intro r hr
    obtain ⟨route, hroute, rfl⟩ := mem_map.mp hr
    exact ⟨rfl, (htrunc route hroute).1⟩

theorem derived_spec {core : DaemonCore} {addrs : List IfaceAddr} {rule : UserRule}
    (h : validateRule rule.2 = .ok ()) {routes : List AppliedRoute}
    (hroutes : core.derived addrs rule = some routes) : routes.Nodup ∧ ∀ r ∈ routes, r.Normal := by
  obtain ⟨link, -, rfl⟩ := Option.map_eq_some_iff.mp hroutes
  exact planRoutes_spec h link.1

end

/-! ### A settled state -/

/-- One entry for each rule that derives routes, with these routes and all of them in the kernel;
no other entry and no other route of a rule; and a pass that does nothing. -/
structure Settled (addrs : List IfaceAddr) (rules : List UserRule) (c : DaemonCore) : Prop where
  single : c.journal.Pairwise fun a b => a.isCond = true → b.isCond = true → a.origin ≠ b.origin
  present : ∀ rule ∈ rules, (c.derived addrs rule).isSome = true →
    ∃ e ∈ c.journal, e.origin = rule.origin
  entries : ∀ e ∈ c.journal, e.isCond = true →
    ∃ rule ∈ rules, ∃ routes, rule.origin = e.origin ∧ c.derived addrs rule = some routes ∧
      e.state = .applied ∧ e.resources.Perm (routes.map OwnedResource.route)
  installed : ∀ rule ∈ rules, ∀ routes, c.derived addrs rule = some routes →
    ∀ r ∈ routes, c.kernel.HasOwn r.key
  rows : ∀ row ∈ c.kernel.routes, ∀ uid ruleId, row.origin = .daemon uid (.cond ruleId) →
    ∃ rule ∈ rules, ∃ routes, rule.origin = row.origin ∧ c.derived addrs rule = some routes ∧
      ∃ r ∈ routes, r.key = row.key
  rests : ∀ vs, ∃ pass, reconcileConditional addrs c.kernel.ownedRoutesSnapshot rules c vs =
    (.ok pass, c, vs)

/-- The condition: each route that a rule derives is in the kernel after what the pass does
to it. -/
def DaemonCore.NoneTakenBack (addrs : List IfaceAddr) (rules : List UserRule) : Prop :=
  ∀ rule ∈ rules, ∀ routes, core.derived addrs rule = some routes →
    ∀ r ∈ routes, core.StaysUp addrs rules rules r.key

section
variable {c : DaemonCore} {addrs : List IfaceAddr} {rules : List UserRule}
  {vs : List (Verdict Fault)} {observed : List AppliedRoute}

/-- A route in the kernel is in the dump, whatever metric the kernel files it under. -/
theorem hasRoute_ownedRoutesSnapshot {k : Kernel} {r : AppliedRoute} (hr : r.Normal)
    (h : k.HasOwn r.key) : hasRoute k.ownedRoutesSnapshot r = true := by
  obtain ⟨row, hrow, hkey, hprotocol, hkind⟩ := h
  have hfamily : row.route.family = r.destination.family := congrArg RouteKey.family hkey
  have hdestination : row.route.destination.trunc = r.destination.trunc :=
    congrArg RouteKey.destination hkey
  have htable : row.route.table = r.table.getD rtTableMain := congrArg RouteKey.table hkey
  have hmetric : kernelMetric row.route.family (row.route.metric.getD 0) =
      kernelMetric r.destination.family r.metric := congrArg RouteKey.metric hkey
  have hindex : row.route.interfaceIndex = some r.interfaceIndex :=
    congrArg RouteKey.interfaceIndex hkey
  have hgateway : row.route.gateway = r.gateway := congrArg RouteKey.gateway hkey
  rw [hr.table] at htable
  rw [hr.trunc] at hdestination
  -- The row as the dump shows it.
  let seen : AppliedRoute :=
    { destination := r.destination
      interfaceIndex := r.interfaceIndex
      metric := row.route.metric.getD 0
      gateway := r.gateway
      table := none }
  have hsnapshot : row.ownedSnapshot = some seen := by
    unfold KernelRoute.ownedSnapshot
    rw [if_pos ⟨hprotocol, hkind⟩, hindex, Option.map_some, hdestination, hgateway,
      if_pos (by rw [htable]; rfl)]
  have hseen : seen.Normal := ⟨rfl, hr.trunc⟩
  have hsame : seen.key = r.key := by
    rw [hfamily] at hmetric
    simp only [seen, AppliedRoute.key, AppliedRoute.system, SystemRoute.key, Option.getD_some,
      hmetric, hr.table]
  refine any_eq_true.mpr ⟨seen, mem_filterMap.mpr ⟨row, hrow, hsnapshot⟩, ?_⟩
  exact beq_iff_eq.mpr ((hseen.key_eq_iff hr).mp hsame)

theorem removeOrphans_run (h : ∀ e ∈ c.journal, condOrphan rules e = false) {n : Nat}
    (hn : n ≤ c.journal.length) (changed : List OwnerKey) :
    removeOrphans rules n changed c vs = (.ok changed, c, vs) := by
  induction n with
  | zero => rfl
  | succ n ih =>
    have hentry : c.journal[n]? = some c.journal[n] := by simp
    unfold removeOrphans
    rw [bind_of_ok (entryAt_run hentry), if_neg (by simp [h _ (getElem_mem hn)])]
    exact ih (by omega)

/-- Nothing to do for a rule: it derives nothing and has no entry, or its entry is in sync. -/
theorem evaluateRule_run {rule : UserRule} {desired : Option (List AppliedRoute)}
    (hnone : desired = none → ∀ e ∈ c.journal, e.origin ≠ rule.origin)
    (hsome : ∀ routes, desired = some routes → (∃ e ∈ c.journal, e.origin = rule.origin) ∧
      ∀ e ∈ c.journal, e.origin = rule.origin → e.inSync routes observed = true) :
    evaluateRule observed rule desired c vs = (.ok false, c, vs) := by
  have hentry : ∀ index, c.journal.position rule.1 rule.key.2 = some index →
      ∃ e, c.journal[index]? = some e ∧ e.origin = rule.origin := by
    intro index hposition
    obtain ⟨e, he, huid, howner⟩ := Journal.position_eq_some hposition
    refine ⟨e, he, ?_⟩
    rw [JournalEntry.origin, huid, howner]
    rfl
  unfold evaluateRule position
  rw [bind_of_ok (gets_apply ..)]
  cases hposition : c.journal.position rule.1 rule.key.2 with
  | none =>
    cases desired with
    | none => rfl
    | some routes =>
      obtain ⟨⟨e, he, heq⟩, -⟩ := hsome routes rfl
      exact absurd heq (origin_ne_of_position hposition e he)
  | some index =>
    obtain ⟨e, he, heq⟩ := hentry index hposition
    cases desired with
    | none => exact absurd heq (hnone rfl e (mem_of_getElem? he))
    | some routes =>
      have hsync := (hsome routes rfl).2 e (mem_of_getElem? he) heq
      show (entryAt index >>= fun entry => _) c vs = _
      rw [bind_of_ok (entryAt_run he), if_pos hsync]
      rfl

theorem evaluateRules_run {owned : List Nat} {rest : List UserRule} (h : ∀ rule ∈ rest,
      evaluateRule observed rule (rule.2.desired addrs owned) c vs = (.ok false, c, vs))
    (pass : CondPass) :
    ∃ pass', evaluateRules addrs observed owned rest pass c vs = (.ok pass', c, vs) := by
  induction rest generalizing pass with
  | nil => exact ⟨pass, rfl⟩
  | cons rule rest ih =>
    unfold evaluateRules
    rw [bind_of_ok (attempt_of_ok (h rule (by simp)))]
    exact ih (fun rule hrule => h rule (mem_cons_of_mem _ hrule)) _

/-- What the entry of a rule lists is in sync with the kernel. -/
theorem inSync_of_perm {e : JournalEntry} {routes : List AppliedRoute}
    (hnormal : ∀ r ∈ routes, r.Normal) (hstate : e.state = .applied)
    (hperm : e.resources.Perm (routes.map OwnedResource.route))
    (hhas : ∀ r ∈ routes, c.kernel.HasOwn r.key) :
    e.inSync routes c.kernel.ownedRoutesSnapshot = true := by
  have howned : (ownedRoutes e.resources).Perm routes := by
    have hself : ownedRoutes (routes.map OwnedResource.route) = routes := by
      rw [ownedRoutes, filterMap_map]
      exact filterMap_some
    have hlisted : (ownedRoutes e.resources).Perm
        (ownedRoutes (routes.map OwnedResource.route)) := hperm.filterMap _
    rwa [hself] at hlisted
  simp only [JournalEntry.inSync, Bool.and_eq_true, beq_iff_eq, all_eq_true,
    contains_eq_mem, decide_eq_true_eq]
  exact ⟨⟨⟨hstate, howned.length_eq⟩, fun r hr => howned.mem_iff.mpr hr⟩,
    fun r hr => hasRoute_ownedRoutesSnapshot (hnormal r hr) (hhas r hr)⟩

/-- The tunnels are not in the entries of rules. -/
theorem ownedIfindices_others {j : Journal} {k : Kernel} (h : RuleShape j k) :
    ownedIfindices j = ownedIfindices (j.filter fun e => !e.isCond) := by
  have hroutes := h.routes
  clear h
  unfold ownedIfindices
  refine congrArg _ ?_
  induction j with
  | nil => rfl
  | cons e rest ih =>
    have hrest := ih fun e' he' => hroutes e' (mem_cons_of_mem _ he')
    cases hcond : e.isCond with
    | false => rw [filter_cons_of_pos (by simp [hcond]), flatMap_cons, flatMap_cons, hrest]
    | true =>
      rw [filter_cons_of_neg (by simp [hcond]), flatMap_cons, ← hrest]
      refine (congrArg (· ++ _) (filterMap_eq_nil_iff.mpr fun x hx => ?_)).trans
        (nil_append _)
      obtain ⟨r, rfl⟩ := hroutes e (by simp) hcond x hx
      rfl

end

/-! ### The pass -/

section
variable {before c : DaemonCore} {addrs : List IfaceAddr} {rules : List UserRule}

theorem WithoutOrphans.start (h : RuleShape before.journal before.kernel) (rules : List UserRule) :
    WithoutOrphans before rules before.journal.length before where
  shape := h
  bound := le_refl _
  journal := by simp
  rows row := by simp

theorem RulesPass.derived_eq {done : List UserRule} (h : RulesPass before addrs rules done c)
    (hbefore : RuleShape before.journal before.kernel) (rule : UserRule) :
    rule.2.desired addrs (ownedIfindices c.journal) = before.derived addrs rule := by
  rw [DaemonCore.derived, ownedIfindices_others h.shape, h.others, ← ownedIfindices_others hbefore]

/-- An undisturbed pass comes to its end. -/
theorem RuleShape.wp_reconcileConditional (h : RuleShape before.journal before.kernel)
    (hkeys : (rules.map UserRule.origin).Nodup)
    (hnodup : ∀ rule ∈ rules, ∀ routes, before.derived addrs rule = some routes → routes.Nodup) :
    Succeeds (reconcileConditional addrs before.kernel.ownedRoutesSnapshot rules)
      (fun pass c => (∀ eval ∈ pass.evals, eval.2.error = none) →
        RulesPass before addrs rules rules c) before := by
  refine wp_read (wp_bind (wp_post
    ((WithoutOrphans.start h rules).wp_removeOrphans []) ?_))
  intro changed c hc
  have hstart : RulesPass before addrs rules [] c := .start hc
  refine wp_read ?_
  exact RulesPass.wp_evaluateRules hkeys (nil_append rules) (hstart.derived_eq h) hnodup
    hstart.shape fun _ => hstart

/-- After the pass, the condition and the settled state are one. -/
theorem RulesPass.settled_iff (h : RulesPass before addrs rules rules c)
    (hbefore : RuleShape before.journal before.kernel)
    (hvalid : ∀ rule ∈ rules, validateRule rule.2 = .ok ()) :
    Settled addrs rules c ↔ before.NoneTakenBack addrs rules := by
  have hderived : ∀ rule, c.derived addrs rule = before.derived addrs rule := h.derived_eq hbefore
  constructor
  · intro hsettled rule hrule routes hroutes r hr
    exact (h.has r.key).mp (hsettled.installed rule hrule routes ((hderived rule).trans hroutes) r hr)
  intro hcondition
  have hinstalled : ∀ rule ∈ rules, ∀ routes, before.derived addrs rule = some routes →
      ∀ r ∈ routes, c.kernel.HasOwn r.key :=
    fun rule hrule routes hroutes r hr => (h.has r.key).mpr (hcondition rule hrule routes hroutes r hr)
  constructor
  · exact h.shape.apart
  · intro rule hrule hsome
    exact h.present rule hrule (hderived rule ▸ hsome)
  · intro e he hcond
    obtain ⟨rule, hrule, heq⟩ := h.known e he hcond
    obtain ⟨routes, hroutes, hstate, hperm⟩ := h.entries rule hrule e he heq.symm
    exact ⟨rule, hrule, routes, heq, (hderived rule).trans hroutes, hstate, hperm⟩
  · intro rule hrule routes hroutes
    exact hinstalled rule hrule routes ((hderived rule).symm.trans hroutes)
  · intro row hrow uid ruleId horigin
    obtain ⟨-, e, he, heq, r, hr, hkey⟩ := h.shape.listed row hrow uid ruleId horigin
    have hcond : e.isCond = true := JournalEntry.isCond_of_origin (heq.trans horigin)
    obtain ⟨rule, hrule, hsame⟩ := h.known e he hcond
    obtain ⟨routes, hroutes, -, hperm⟩ := h.entries rule hrule e he hsame.symm
    obtain ⟨r', hr', hreq⟩ := mem_map.mp (hperm.mem_iff.mp hr)
    cases hreq
    exact ⟨rule, hrule, routes, hsame.trans heq, (hderived rule).trans hroutes, r, hr', hkey⟩
  · intro vs
    have horphans : ∀ e ∈ c.journal, condOrphan rules e = false := by
      intro e he
      refine Bool.eq_false_iff.mpr fun horphan => ?_
      obtain ⟨hcond, hgone⟩ := condOrphan_iff.mp horphan
      obtain ⟨rule, hrule, heq⟩ := h.known e he hcond
      exact hgone rule hrule heq
    have hidle : ∀ rule ∈ rules, evaluateRule c.kernel.ownedRoutesSnapshot rule
        (rule.2.desired addrs (ownedIfindices c.journal)) c vs = (.ok false, c, vs) := by
      intro rule hrule
      rw [h.derived_eq hbefore]
      refine evaluateRule_run (fun hnone e he heq => ?_) fun routes hroutes => ⟨?_, ?_⟩
      · obtain ⟨routes, hroutes, -⟩ := h.entries rule hrule e he heq
        rw [hnone] at hroutes
        cases hroutes
      · exact h.present rule hrule (by rw [hroutes]; rfl)
      · intro e he heq
        obtain ⟨routes', hroutes', hstate, hperm⟩ := h.entries rule hrule e he heq
        rw [hroutes] at hroutes'
        cases hroutes'
        exact inSync_of_perm (derived_spec (hvalid rule hrule) hroutes).2 hstate hperm
          (hinstalled rule hrule routes hroutes)
    obtain ⟨pass, hpass⟩ := evaluateRules_run hidle ⟨[], []⟩
    refine ⟨pass, ?_⟩
    unfold reconcileConditional
    rw [bind_of_ok (gets_apply ..), bind_of_ok (removeOrphans_run horphans (le_refl _) []),
      bind_of_ok (gets_apply ..)]
    exact hpass

end

/-! ### Every state that passes leave behind -/

/-- What may happen between two passes. `other` is any other request and what the machine does
to the kernel. -/
inductive CondEvent where
  | pass (addrs : List IfaceAddr) (observed : List AppliedRoute) (rules : List UserRule)
      (schedule : List (Verdict Fault))
  | restart
  | other (core : DaemonCore)

/-- A daemon that starts again knows what is on disk. -/
def DaemonCore.restarted : DaemonCore := { core with journal := core.disk }

/-- A pass that is cut off ends with a restart. -/
def DaemonCore.event : CondEvent → Option DaemonCore
  | .pass addrs observed rules schedule =>
    match reconcileConditional addrs observed rules core schedule with
    | (.crash, c, _) => some c.restarted
    | (_, c, _) => some c
  | .restart => some core.restarted
  | .other c => some c

/-- Neither the entries of rules nor their routes are anybody else's business, except that a route
may go away and that a save takes the entries along. -/
structure LeavesRules (core c : DaemonCore) : Prop where
  journal : c.journal.filter JournalEntry.isCond = core.journal.filter JournalEntry.isCond
  disk : c.disk.filter JournalEntry.isCond = core.disk.filter JournalEntry.isCond ∨
    c.disk.filter JournalEntry.isCond = core.journal.filter JournalEntry.isCond
  rows : ∀ row ∈ c.kernel.routes, ∀ uid ruleId, row.origin = .daemon uid (.cond ruleId) →
    row ∈ core.kernel.routes

def CondEvent.Admitted : CondEvent → Prop
  | .other c => LeavesRules core c
  | _ => True

section
variable {core c : DaemonCore}

theorem Shaped.restarted (h : ShapedDisk core) : Shaped core.restarted := ⟨h, h⟩

theorem Shaped.other (h : Shaped core) (hleaves : LeavesRules core c) : Shaped c := by
  refine ⟨(h.journal.of_filter hleaves.journal).shrink hleaves.rows, ?_⟩
  rcases hleaves.disk with hsame | hsaved
  · exact (h.disk.of_filter hsame).shrink hleaves.rows
  · exact (h.journal.of_filter hsaved).shrink hleaves.rows

theorem Shaped.event (h : Shaped core) {event : CondEvent} (hok : event.Admitted core)
    (hstep : core.event event = some c) : Shaped c := by
  cases event with
  | pass addrs observed rules schedule =>
    have hend := keepsUntil_reconcileConditional_shaped addrs observed rules core h schedule
      fun _ _ => (trivial : Any _)
    simp only [DaemonCore.event] at hstep
    generalize reconcileConditional addrs observed rules core schedule = r at hend hstep
    obtain ⟨o, c', vs⟩ := r
    cases o with
    | ok pass =>
      cases hstep
      exact hend.2
    | err e =>
      cases hstep
      exact hend.2
    | crash =>
      cases hstep
      exact Shaped.restarted hend
  | restart =>
    cases hstep
    exact Shaped.restarted h.disk
  | other c' =>
    cases hstep
    exact h.other hok

/-- From every state that passes with any failures leave, an undisturbed pass comes to its end.
If no rule reports an error, the state is settled exactly when the condition held before it. -/
theorem rules_settled {kernel : Kernel} {view : View} {executors : Executors}
    (hkernel : ∀ row ∈ kernel.routes, row.origin = .foreign)
    (h : Steps DaemonCore.event (fun core event => event.Admitted core)
      (.fresh kernel view executors) core) (addrs : List IfaceAddr) {rules : List UserRule}
    (hvalid : ∀ rule ∈ rules, validateRule rule.2 = .ok ())
    (hkeys : (rules.map UserRule.key).Nodup) :
    ∃ pass c vs,
      reconcileConditional addrs core.kernel.ownedRoutesSnapshot rules core [] = (.ok pass, c, vs) ∧
        ((∀ eval ∈ pass.evals, eval.2.error = none) →
          (Settled addrs rules c ↔ core.NoneTakenBack addrs rules)) := by
  have hshaped : Shaped core := h.invariant (I := Shaped) ⟨.fresh hkernel, .fresh hkernel⟩
    fun _ _ _ hs hok hstep => hs.event hok hstep
  have horigins : (rules.map UserRule.origin).Nodup := by
    have hmap : rules.map UserRule.origin =
        (rules.map UserRule.key).map fun key => Origin.daemon key.1 key.2 := by
      rw [List.map_map]
      rfl
    rw [hmap]
    exact hkeys.map fun a b heq => Prod.ext (Origin.daemon.inj heq).1 (Origin.daemon.inj heq).2
  have hnodup : ∀ rule ∈ rules, ∀ routes, core.derived addrs rule = some routes → routes.Nodup :=
    fun rule hrule routes hroutes => (derived_spec (hvalid rule hrule) hroutes).1
  have hend := hshaped.journal.wp_reconcileConditional horigins hnodup [] (by simp)
  generalize hrun : reconcileConditional addrs core.kernel.ownedRoutesSnapshot rules core [] = r
    at hend
  obtain ⟨o, c, vs⟩ := r
  cases o with
  | ok pass =>
    exact ⟨pass, c, vs, rfl, fun hevals =>
      (hend.2 hevals).settled_iff hshaped.journal hvalid⟩
  | err e => exact hend.2.elim
  | crash => exact hend.elim

end

/-! ### Two rules with one route -/

/-- A route through the router of the harbor's network. -/
def harborRoute : PolicyRoute :=
  { destination := .v4 0x0a140000 16, metric := 50, via := some (.v4 0xc0a80201) }

def harborRule (id : String) (enabled : Bool) : UserRule :=
  (1000,
    { id
      name := id
      enabled
      condition := .interfaceAddressIn (.v4 0xc0a80200 24)
      routes := [harborRoute] })

def harborAddrs : List IfaceAddr := [⟨2, "eth0", .v4 0xc0a80207 24, 0⟩]

def harbor : DaemonCore := .fresh .empty .bare .all

/-- An undisturbed pass with these rules. -/
def DaemonCore.harborPass (rules : List UserRule) : DaemonCore :=
  (reconcileConditional harborAddrs core.kernel.ownedRoutesSnapshot rules core []).2.1

/-- One rule is in force. -/
def harborOne : DaemonCore := harbor.harborPass [harborRule "cranes" true]

/-- The kernel loses the route, and a pass over two rules installs it twice. -/
def harborTwo : DaemonCore :=
  DaemonCore.harborPass { harborOne with kernel := .empty }
    [harborRule "pilots" true, harborRule "cranes" true]

/-- The first rule is disabled. -/
def harborRules : List UserRule := [harborRule "pilots" false, harborRule "cranes" true]

/-- What the rules of the harbor derive while the machine is there. -/
def harborApplied : AppliedRoute :=
  { destination := .v4 0x0a140000 16
    interfaceIndex := 2
    metric := 50
    gateway := some (.v4 0xc0a80201)
    table := none }

theorem event_harborPass {core : DaemonCore}
    (h : (reconcileConditional harborAddrs core.kernel.ownedRoutesSnapshot rules core []).1 ≠
      .crash) : core.event (.pass harborAddrs core.kernel.ownedRoutesSnapshot rules []) =
      some (core.harborPass rules) := by
  simp only [DaemonCore.event, DaemonCore.harborPass]

/-- The kernel may lose a route at any time. -/
theorem leavesRules_empty : LeavesRules core { core with kernel := .empty } :=
  ⟨rfl, .inl rfl, fun row hrow => by cases hrow⟩

theorem steps_harborOne :
    Steps DaemonCore.event (fun core event => event.Admitted core) harbor harborOne :=
  .single ⟨.pass harborAddrs harbor.kernel.ownedRoutesSnapshot [harborRule "cranes" true] [],
    trivial, event_harborPass (by decide +kernel)⟩

theorem steps_harborTwo :
    Steps DaemonCore.event (fun core event => event.Admitted core) harbor harborTwo :=
  (steps_harborOne.tail ⟨.other { harborOne with kernel := .empty }, leavesRules_empty _, rfl⟩).tail
    ⟨.pass harborAddrs _ [harborRule "pilots" true, harborRule "cranes" true] [], trivial,
      event_harborPass (by decide +kernel)⟩

/-- What the pass reports: the one rule has been withdrawn, and there is no error. -/
def harborOutcome : CondPass :=
  { changed := [(1000, .cond "pilots")]
    evals :=
      [ ((1000, .cond "pilots"), ⟨none, none⟩),
        ((1000, .cond "cranes"), ⟨some "eth0", none⟩) ] }

/-- The pass withdraws the route of the disabled rule, and takes the entry of the other rule, which
lists the same route, for in sync with a kernel that has it. -/
theorem harbor_route_taken_back :
    Steps DaemonCore.event (fun core event => event.Admitted core) harbor harborTwo ∧
      (∀ rule ∈ harborRules, validateRule rule.2 = .ok ()) ∧
      (harborRules.map UserRule.key).Nodup ∧
      ∃ pass c vs, reconcileConditional harborAddrs harborTwo.kernel.ownedRoutesSnapshot harborRules
          harborTwo [] = (.ok pass, c, vs) ∧
        (∀ eval ∈ pass.evals, eval.2.error = none) ∧ ¬Settled harborAddrs harborRules c := by
  have hpass : (reconcileConditional harborAddrs harborTwo.kernel.ownedRoutesSnapshot harborRules
      harborTwo []).1 = .ok harborOutcome := by decide +kernel
  have hderived : (harborTwo.harborPass harborRules).derived harborAddrs (harborRule "cranes" true) =
      some [harborApplied] := by decide +kernel
  have hempty : (harborTwo.harborPass harborRules).kernel.routes.rows = [] := by decide +kernel
  have hunsettled : ¬Settled harborAddrs harborRules (harborTwo.harborPass harborRules) := by
    intro hsettled
    obtain ⟨row, hrow, -⟩ := hsettled.installed (harborRule "cranes" true) (by simp [harborRules])
      [harborApplied] hderived harborApplied (by simp)
    rw [Table.mem_def, hempty] at hrow
    cases hrow
  exact ⟨steps_harborTwo, by decide +kernel, by decide +kernel, harborOutcome,
    harborTwo.harborPass harborRules, _, eq_of_outcome hpass, by decide, hunsettled⟩

/-- With the one rule, a second pass finds all in place. -/
theorem harbor_settled :
    ∃ pass c vs, reconcileConditional harborAddrs harborOne.kernel.ownedRoutesSnapshot
        [harborRule "cranes" true] harborOne [] = (.ok pass, c, vs) ∧
      Settled harborAddrs [harborRule "cranes" true] c := by
  have hvalid : ∀ rule ∈ [harborRule "cranes" true], validateRule rule.2 = .ok () := by
    decide +kernel
  have hkeys : ([harborRule "cranes" true].map UserRule.key).Nodup := by decide +kernel
  obtain ⟨pass, c, vs, hrun, hiff⟩ := rules_settled (by intro row hrow; cases hrow) steps_harborOne
    harborAddrs hvalid hkeys
  refine ⟨pass, c, vs, hrun, (hiff ?_).mpr ?_⟩
  · have hpass : (reconcileConditional harborAddrs harborOne.kernel.ownedRoutesSnapshot
        [harborRule "cranes" true] harborOne []).1 =
        .ok ⟨[], [((1000, .cond "cranes"), ⟨some "eth0", none⟩)]⟩ := by decide +kernel
    rw [hrun] at hpass
    cases hpass
    decide
  · intro rule hrule routes hroutes r hr
    obtain rfl := List.mem_singleton.mp hrule
    have hderived : harborOne.derived harborAddrs (harborRule "cranes" true) =
        some [harborApplied] := by decide +kernel
    rw [hderived] at hroutes
    cases hroutes
    obtain rfl := List.mem_singleton.mp hr
    -- The entry is in sync, so the pass leaves the route alone.
    have hrow : ∃ row ∈ harborOne.kernel.routes.rows, row.key = harborApplied.key ∧
        row.route.protocol = rtprotNetworkOrchestrator ∧ row.route.kind = .unicast := by
      decide +kernel
    have horphan : ∀ e ∈ harborOne.journal, condOrphan [harborRule "cranes" true] e = false := by
      decide +kernel
    have hsync : ∃ e ∈ harborOne.journal, e.origin = (harborRule "cranes" true).origin ∧
        e.inSync [harborApplied] harborOne.kernel.ownedRoutesSnapshot = true := by decide +kernel
    obtain ⟨e, he, heq, hsynced⟩ := hsync
    refine .kept hrow (fun e he horphaned => ?_) fun rule hrule hwithdraws => ?_
    · rw [horphan e he] at horphaned
      cases horphaned
    · obtain rfl := List.mem_singleton.mp hrule
      have hout := hwithdraws.1 [harborApplied] hderived e he heq
      rw [hsynced] at hout
      cases hout

/-! ### Written ahead -/

/-- Whatever fails and wherever the daemon is cut off, both journals have one entry at most for a
rule, and list the routes that are in the kernel in the name of rules. -/
theorem rules_written_ahead {core : DaemonCore} {kernel : Kernel} {view : View}
    {executors : Executors} (hkernel : ∀ row ∈ kernel.routes, row.origin = .foreign)
    (h : Steps DaemonCore.event (fun core event => event.Admitted core)
      (.fresh kernel view executors) core) : Shaped core :=
  h.invariant (I := Shaped) ⟨.fresh hkernel, .fresh hkernel⟩
    fun _ _ _ hs hok hstep => hs.event hok hstep

/-- The daemon is cut off before the pass saves that the route is there. -/
def harborCut : DaemonCore :=
  (reconcileConditional harborAddrs [] [harborRule "cranes" true] harbor
    [.proceed, .proceed, .crash]).2.1.restarted

theorem harborCut_shaped : harborApplied.system.install (.daemon 1000 (.cond "cranes")) ∈
    harborCut.kernel.routes ∧ Shaped harborCut :=
  ⟨by decide +kernel, @rules_written_ahead harborCut .empty .bare .all
    (by intro row hrow; cases hrow)
    (.single ⟨.pass harborAddrs [] [harborRule "cranes" true] [.proceed, .proceed, .crash],
      trivial, rfl⟩)⟩

end NetOrchestrator.Daemon
