import NetOrchestrator.Core.Policy
import NetOrchestrator.Lib.Runs

/-!
# `Proofs.PolicyManager`: transactions and tracked routes

`transactions_exact` is the exact effect of the two loops over the executor, for every table,
every list of routes and every pattern of refusals. A transaction that fails leaves the table
it started from and the routes that its rollback could not remove, and it names these routes.

The manager drops that list with the error. `policy_tracked` says which refusals that leaves
unharmed: a run in which every rollback goes through tracks every route it installed. That
every tracked route was installed needs no condition.
-/

namespace NetOrchestrator.Core

open Net Lib Lib.Call List
open Daemon (AppliedRoute)

/-! ### Removing -/

section
variable {V : Lib.Verdict ExecError → Prop} {E : ExecError → RouteTable → Prop}
  {C : RouteTable → Prop} {t : RouteTable} {route : AppliedRoute} {l : List AppliedRoute}
  {failed : List (AppliedRoute × ExecError)}

theorem wp_attempt_removeRoute {Q : Except ExecError Unit → RouteTable → Prop}
    (hcrash : C (t.attempt route)) (hok : Q (.ok ()) ((t.attempt route).remove route))
    (hfail : ∀ e, Q (.error e) (t.attempt route)) :
    wp V (Call.attempt (tableExecutor.removeRoute route)) Q E C t := by
  have hstep : wp V (Call.step id fun t => (.ok (), t.remove route)) (fun a => Q (.ok a))
      (fun e => Q (.error e)) C (t.attempt route) := by
    refine wp_step (fun _ => hcrash) (fun f _ => hfail f) ?_ ?_
    · intro a t' h
      cases h
      exact hok
    · intro e t' h
      cases h
  exact wp_attempt (wp_write hstep)

/-- What is asked for and still there afterwards was refused. Nothing else goes away. -/
structure Removed (t : RouteTable) (l : List AppliedRoute)
    (failed : List (AppliedRoute × ExecError)) (t' : RouteTable) : Prop where
  attempted : t'.attempted = t.attempted ++ l
  added : t'.added = t.added
  sub : t'.installed ⊆ t.installed
  spared : ∀ r ∈ t.installed, r ∉ l → r ∈ t'.installed
  asked : failed.map Prod.fst ⊆ l
  named : ∀ r ∈ l, r ∈ t'.installed → r ∈ failed.map Prod.fst

theorem Removed.nil (t : RouteTable) : Removed t [] [] t where
  attempted := by simp
  added := rfl
  sub := fun _ h => h
  spared := fun _ h _ => h
  asked := by simp
  named := by simp

variable {t' : RouteTable}

theorem Removed.gone (h : Removed ((t.attempt route).remove route) l failed t') :
    Removed t (route :: l) failed t' where
  attempted := by
    rw [h.attempted]
    simp [RouteTable.remove, RouteTable.attempt]
  added := h.added
  sub := fun r hr => Finset.mem_of_mem_erase (h.sub hr)
  spared := by
    intro r hr hnot
    rw [mem_cons, not_or] at hnot
    exact h.spared r (Finset.mem_erase.mpr ⟨hnot.1, hr⟩) hnot.2
  asked := fun r hr => mem_cons_of_mem route (h.asked hr)
  named := by
    intro r hr hin
    -- A later removal of the same route may be refused; then it names it, though it is gone.
    have hne : r ≠ route := (Finset.mem_erase.mp (h.sub hin)).1
    exact h.named r (mem_of_ne_of_mem hne hr) hin

theorem Removed.refused (h : Removed (t.attempt route) l failed t')
    (e : ExecError) : Removed t (route :: l) ((route, e) :: failed) t' where
  attempted := by
    rw [h.attempted]
    simp [RouteTable.attempt]
  added := h.added
  sub := h.sub
  spared := by
    intro r hr hnot
    rw [mem_cons, not_or] at hnot
    exact h.spared r hr hnot.2
  asked := by
    rw [map_cons]
    exact cons_subset_cons route h.asked
  named := by
    intro r hr hin
    rw [map_cons, mem_cons]
    rcases mem_cons.mp hr with heq | hr
    · exact .inl heq
    · exact .inr (h.named r hr hin)

/-- The removal loop, for any list. -/
theorem wp_removeEach (t : RouteTable) (l : List AppliedRoute) :
    wp V (removeEach tableExecutor l) (Removed t l) E
      (fun t' => ∀ r ∈ t.installed, r ∉ l → r ∈ t'.installed) t := by
  induction l generalizing t with
  | nil => exact wp_pure (.nil t)
  | cons route rest ih =>
    refine wp_bind (wp_attempt_removeRoute (fun r hr _ => hr) ?_ fun e => ?_)
    · refine wp_mono (ih _) (fun _ _ h => h.gone) (fun _ _ h => h) ?_
      intro t' h r hr hnot
      rw [mem_cons, not_or] at hnot
      exact h r (Finset.mem_erase.mpr ⟨hnot.1, hr⟩) hnot.2
    · refine wp_bind (wp_mono (ih _) (fun _ _ h => wp_pure (h.refused e)) (fun _ _ h => h) ?_)
      intro t' h r hr hnot
      rw [mem_cons, not_or] at hnot
      exact h r hr hnot.2

end

/-! ### Adding -/

/-- The table is `base` with these routes added, each where nothing was. -/
structure Grown (base : Finset AppliedRoute) (t : RouteTable) (new : List AppliedRoute) : Prop where
  installed : t.installed = base ∪ new.toFinset
  nodup : new.Nodup
  fresh : ∀ r ∈ new, r ∉ base

section
variable {V : Lib.Verdict ExecError → Prop} {E : ExecError → RouteTable → Prop}
  {base : Finset AppliedRoute} {t : RouteTable} {new front back : List AppliedRoute}
  {route : AppliedRoute}

theorem Grown.refl (t : RouteTable) : Grown t.installed t [] := by
  refine ⟨?_, nodup_nil, ?_⟩
  · simp
  · simp

theorem Grown.sub (h : Grown base t new) : base ⊆ t.installed := by
  rw [h.installed]
  exact Finset.subset_union_left

theorem Grown.add (h : Grown base t new) (hfree : route ∉ t.installed) :
    Grown base (t.add route) (route :: new) := by
  rw [h.installed, Finset.mem_union, mem_toFinset, not_or] at hfree
  refine ⟨?_, ?_, ?_⟩
  · show insert route t.installed = _
    rw [h.installed, toFinset_cons]
    ext r
    simp only [Finset.mem_insert, Finset.mem_union]
    rw [or_left_comm]
  · exact nodup_cons.mpr ⟨hfree.2, h.nodup⟩
  · intro r hr
    rcases mem_cons.mp hr with heq | hr
    · rw [heq]
      exact hfree.1
    · exact h.fresh r hr

/-- Taking one of the added routes back leaves the others. -/
theorem Grown.remove (h : Grown base t (front ++ route :: back)) :
    Grown base (t.remove route) (front ++ back) := by
  have hsub : (front ++ back).Sublist (front ++ route :: back) :=
    (sublist_cons_self route back).append_left front
  have hfresh : route ∉ base := h.fresh route (by simp)
  have hnodup := h.nodup
  rw [nodup_append, nodup_cons] at hnodup
  obtain ⟨-, ⟨hback, -⟩, hapart⟩ := hnodup
  refine ⟨?_, h.nodup.sublist hsub, fun r hr => h.fresh r (hsub.subset hr)⟩
  show t.installed.erase route = _
  rw [h.installed]
  ext r
  simp only [Finset.mem_erase, Finset.mem_union, mem_toFinset, mem_append, mem_cons]
  constructor
  · rintro ⟨hne, hr⟩
    tauto
  · intro hr
    refine ⟨?_, by tauto⟩
    rintro rfl
    rcases hr with hr | hr | hr
    · exact hfresh hr
    · exact hapart r hr r (by simp) rfl
    · exact hback hr

/-- The rollback removes what the transaction added, or names it. -/
theorem wp_rollback {l : List AppliedRoute} (h : Grown base t (front ++ l)) :
    wp V (removeEach tableExecutor l)
      (fun failed t' => Grown base t' (front ++ failed.map Prod.fst) ∧
        failed.map Prod.fst ⊆ l ∧ t'.added = t.added) E (fun t' => base ⊆ t'.installed) t := by
  induction l generalizing t front with
  | nil =>
    refine wp_pure ⟨h, ?_, rfl⟩
    simp
  | cons route rest ih =>
    have hkept : Grown base (t.attempt route) (front ++ [route] ++ rest) := by
      rw [append_assoc]
      exact ⟨h.installed, h.nodup, h.fresh⟩
    refine wp_bind (wp_attempt_removeRoute h.sub ?_ fun e => ?_)
    · have hgone : Grown base ((t.attempt route).remove route) (front ++ rest) :=
        Grown.remove ⟨h.installed, h.nodup, h.fresh⟩
      refine wp_post (ih hgone) ?_
      rintro failed t' ⟨hgrown, hsub, hadded⟩
      exact ⟨hgrown, fun r hr => mem_cons_of_mem route (hsub hr), hadded⟩
    · refine wp_bind (wp_post (ih hkept) ?_)
      rintro failed t' ⟨hgrown, hsub, hadded⟩
      refine wp_pure ⟨?_, ?_, hadded⟩
      · rw [append_assoc] at hgrown
        exact hgrown
      · rw [map_cons]
        exact cons_subset_cons route hsub

/-- The end of a transaction that had added `new` to `base` before the rest. -/
def TransactionEnd (base : Finset AppliedRoute) (t : RouteTable) (new rest : List AppliedRoute) :
    Except (PolicyError × List AppliedRoute) Unit → RouteTable → Prop
  | .ok (), t' => Grown base t' (rest.reverse ++ new) ∧ t'.added = t.added ++ rest
  | .error (_, left), t' => ∃ more, more <+: rest ∧ Grown base t' left ∧
      left ⊆ more.reverse ++ new ∧ t'.added = t.added ++ more

theorem wp_applyFrom (h : Grown base t new) (rest : List AppliedRoute) :
    wp V (applyFrom tableExecutor new rest) (TransactionEnd base t new rest) E
      (fun t' => base ⊆ t'.installed) t := by
  induction rest generalizing t new with
  | nil =>
    refine wp_pure ⟨?_, ?_⟩
    · simpa using h
    · simp
  | cons route rest ih =>
    -- Whatever refuses the add, the rollback starts from the table as it is.
    have hrefused : ∀ e : ExecError, wp V (do
          let failed ← removeEach tableExecutor new
          pure (.error (⟨e.kind, .applyFailed e.text (refusals failed)⟩, failed.map Prod.fst)))
        (TransactionEnd base t new (route :: rest)) E (fun t' => base ⊆ t'.installed) t := by
      intro e
      have hback := wp_rollback (V := V) (E := E) (show Grown base t ([] ++ new) from h)
      refine wp_bind (wp_post hback ?_)
      rintro failed t' ⟨hgrown, hsub, hadded⟩
      refine wp_pure ⟨[], nil_prefix, hgrown, ?_, ?_⟩
      · simpa using hsub
      · simpa using hadded
    refine wp_tried (wp_step (fun _ => h.sub) (fun f _ => hrefused f) ?_ ?_)
    · intro a t' hact
      split at hact
      · cases hact
      rename_i hfree
      cases hact
      refine wp_post (ih (h.add hfree)) ?_
      intro result t' hend
      cases result with
      | ok u =>
        obtain ⟨hgrown, hadded⟩ := hend
        refine ⟨?_, ?_⟩
        · simpa using hgrown
        · rw [hadded]
          simp [RouteTable.add]
      | error x =>
        obtain ⟨more, hprefix, hgrown, hsub, hadded⟩ := hend
        refine ⟨route :: more, ?_, hgrown, ?_, ?_⟩
        · exact (prefix_cons_inj route).mpr hprefix
        · simpa using hsub
        · rw [hadded]
          simp [RouteTable.add]
    · intro e t' hact
      split at hact
      · cases hact
        exact hrefused _
      · cases hact

end

/-- The exact effect of both loops on every table. A cut-off stands for any instant inside
them. -/
theorem transactions_exact (t : RouteTable) (routes : List AppliedRoute) :
    wp Lib.Verdict.Any (applyRoutesTransactional tableExecutor routes)
      (fun result t' =>
        match result with
        | .ok () => t'.installed = t.installed ∪ routes.toFinset
        | .error (_, stillApplied) =>
          t'.installed = t.installed ∪ stillApplied.toFinset ∧
            ∃ new, t'.added = t.added ++ new ∧ new <+: routes ∧ stillApplied ⊆ new)
      (fun _ _ => False) (fun t' => t.installed ⊆ t'.installed) t ∧
    wp Lib.Verdict.Any (removeRoutesBestEffort tableExecutor routes)
      (fun result t' =>
        t'.attempted = t.attempted ++ routes.reverse ∧
          (∀ r ∈ t.installed, r ∉ routes → r ∈ t'.installed) ∧
          match result with
          | .ok () => ∀ r ∈ routes, r ∉ t'.installed
          | .error (failed, _) => ∀ r ∈ routes, r ∈ t'.installed → r ∈ failed)
      (fun _ _ => False) (fun t' => ∀ r ∈ t.installed, r ∉ routes → r ∈ t'.installed) t := by
  constructor
  · refine wp_post (wp_applyFrom (.refl t) routes) ?_
    intro result t' hend
    cases result with
    | ok u =>
      have hall := hend.1.installed
      rw [List.append_nil, List.toFinset_reverse] at hall
      exact hall
    | error x =>
      obtain ⟨more, hprefix, hgrown, hsub, hadded⟩ := hend
      refine ⟨hgrown.installed, more, hadded, hprefix, fun r hr => ?_⟩
      simpa using hsub hr
  · refine wp_bind (wp_mono (wp_removeEach t routes.reverse) ?_ (fun _ _ h => h) ?_)
    · intro failed t' h
      have hspared : ∀ r ∈ t.installed, r ∉ routes → r ∈ t'.installed :=
        fun r hr hnot => h.spared r hr (by simpa using hnot)
      have hnamed : ∀ r ∈ routes, r ∈ t'.installed → r ∈ failed.map Prod.fst :=
        fun r hr hin => h.named r (List.mem_reverse.mpr hr) hin
      split
      · rename_i hempty
        rw [List.isEmpty_iff] at hempty
        refine wp_pure ⟨h.attempted, hspared, fun r hr hin => ?_⟩
        have hbad := hnamed r hr hin
        rw [hempty] at hbad
        cases hbad
      · exact wp_pure ⟨h.attempted, hspared, hnamed⟩
    · intro t' h r hr hnot
      exact h r hr (by simpa using hnot)

/-! ### Rollbacks that go through -/

/-- The adds before the `i`-th go through and the `i`-th is refused. -/
structure FirstRefused (installed : Finset AppliedRoute) (routes : List AppliedRoute)
    (vs : List (Lib.Verdict ExecError)) (i : Nat) : Prop where
  granted : Granted vs i
  nodup : (routes.take i).Nodup
  fresh : ∀ r ∈ routes.take i, r ∉ installed
  refused : (∃ f, nextVerdict (vs.drop i) = .fail f) ∨
    ∃ r, routes[i]? = some r ∧ (r ∈ installed ∨ r ∈ routes.take i)

/-- Wherever the first refused add is, none of the removals that follow it is refused. -/
def RollsBack (installed : Finset AppliedRoute) (routes : List AppliedRoute)
    (vs : List (Lib.Verdict ExecError)) : Prop :=
  ∀ i < routes.length, FirstRefused installed routes vs i → Granted (vs.drop (i + 1)) i

section
variable {vs : List (Lib.Verdict ExecError)}
  {E : ExecError → RouteTable → List (Lib.Verdict ExecError) → Prop}
  {t : RouteTable} {route : AppliedRoute} {rest : List AppliedRoute}
  {installed : Finset AppliedRoute}

/-- An add that went through moves the first refusal one place on. -/
theorem FirstRefused.cons {i : Nat} (hg : Granted vs 1) (hfree : route ∉ installed)
    (h : FirstRefused (insert route installed) rest vs.tail i) :
    FirstRefused installed (route :: rest) vs (i + 1) where
  granted := hg.append h.granted
  nodup := by
    rw [take_succ_cons, nodup_cons]
    refine ⟨fun hin => ?_, h.nodup⟩
    exact h.fresh route hin (Finset.mem_insert_self route installed)
  fresh := by
    intro r hr
    rw [take_succ_cons, mem_cons] at hr
    rcases hr with heq | hr
    · rw [heq]
      exact hfree
    · exact fun hin => h.fresh r hr (Finset.mem_insert_of_mem hin)
  refused := by
    rcases h.refused with ⟨f, hf⟩ | ⟨r, hr, hin⟩
    · refine .inl ⟨f, ?_⟩
      rw [← drop_tail]
      exact hf
    · refine .inr ⟨r, ?_, ?_⟩
      · simpa using hr
      · rw [take_succ_cons, mem_cons]
        rw [Finset.mem_insert] at hin
        tauto

/-- A removal loop in which nothing is refused names nothing and leaves none of its routes. -/
theorem under_removeEach_granted {l : List AppliedRoute}
    {Q : List (AppliedRoute × ExecError) → RouteTable → List (Lib.Verdict ExecError) → Prop}
    (hg : Granted vs l.length)
    (h : ∀ t', (∀ r ∈ t'.installed, r ∈ t.installed ∧ r ∉ l) → t'.added = t.added →
      Q [] t' (vs.drop l.length)) : under vs (removeEach tableExecutor l) Q E t := by
  induction l generalizing t vs with
  | nil =>
    refine h t ?_ rfl
    simp
  | cons route rest ih =>
    refine under_bind (under_attempt (under_bind (under_modify (under_step ?_ ?_ ?_))))
    · intro f hf
      exact absurd hf (hg.next f)
    · intro a t' _ hact
      cases hact
      refine ih hg.tail fun t' hgone hadded => ?_
      rw [drop_tail]
      refine h t' (fun r hr => ?_) hadded
      obtain ⟨hin, hnot⟩ := hgone r hr
      obtain ⟨hne, hin⟩ := Finset.mem_erase.mp hin
      rw [mem_cons, not_or]
      exact ⟨hin, hne, hnot⟩
    · intro e t' _ hact
      cases hact

/-- A transaction whose rollback goes through: all its routes are installed, or none is. `new`
is what it has added so far, newest first. -/
theorem under_applyFrom {base : Finset AppliedRoute} {old new rest : List AppliedRoute}
    {Q : Except (PolicyError × List AppliedRoute) Unit → RouteTable →
      List (Lib.Verdict ExecError) → Prop} (hgrown : Grown base t new)
    (hold : ∀ r ∈ t.added, r ∈ base → r ∈ old)
    (hback : ∀ i < rest.length, FirstRefused t.installed rest vs i →
      Granted (vs.drop (i + 1)) (i + new.length))
    (hok : ∀ t' vs', t'.installed = base ∪ (rest.reverse ++ new).toFinset →
      t'.added = t.added ++ rest → Q (.ok ()) t' vs')
    (herr : ∀ x t' vs', (∀ r ∈ t'.added, r ∈ t'.installed → r ∈ base ∧ r ∈ old) →
      Q (.error x) t' vs') : under vs (applyFrom tableExecutor new rest) Q E t := by
  induction rest generalizing t new vs with
  | nil =>
    refine hok t vs ?_ (by simp)
    simpa using hgrown.installed
  | cons route rest ih =>
    -- The rollback of a refused add: nothing of it is refused, so only `base` is left.
    have hrefused : ∀ e : ExecError, (∃ f, nextVerdict vs = .fail f) ∨ route ∈ t.installed →
        under vs.tail (do
          let failed ← removeEach tableExecutor new
          pure (.error (⟨e.kind, .applyFailed e.text (refusals failed)⟩, failed.map Prod.fst)))
        Q E t := by
      intro e hno
      have hfirst : FirstRefused t.installed (route :: rest) vs 0 := by
        refine ⟨by simp [Granted], by simp, by simp, ?_⟩
        rcases hno with hfail | hin
        · exact .inl hfail
        · exact .inr ⟨route, rfl, .inl hin⟩
      have hg := hback 0 (by simp) hfirst
      rw [Nat.zero_add, Nat.zero_add, drop_one] at hg
      refine under_bind (under_removeEach_granted hg fun t' hgone hadded => ?_)
      refine herr _ t' _ fun r hr hin => ?_
      obtain ⟨hin, hnot⟩ := hgone r hin
      rw [hgrown.installed, Finset.mem_union, mem_toFinset] at hin
      have hbase : r ∈ base := hin.resolve_right hnot
      rw [hadded] at hr
      exact ⟨hbase, hold r hr hbase⟩
    refine under_bind (under_attempt (under_step ?_ ?_ ?_))
    · intro f hf
      exact hrefused f (.inl ⟨f, hf⟩)
    · intro a t' hg hact
      split at hact
      · cases hact
      rename_i hfree
      cases hact
      refine ih (hgrown.add hfree) ?_ ?_ ?_
      · intro r hr hbase
        rcases mem_append.mp hr with hr | hr
        · exact hold r hr hbase
        · obtain rfl := mem_singleton.mp hr
          exact absurd (hgrown.sub hbase) hfree
      · intro i hi hfirst
        have hstep := hback (i + 1) (by simpa using hi) (hfirst.cons hg hfree)
        rw [drop_tail, length_cons]
        rw [show i + (new.length + 1) = i + 1 + new.length by omega]
        exact hstep
      · intro t' vs' hinstalled hadded
        refine hok t' vs' ?_ ?_
        · rw [hinstalled]
          simp
        · rw [hadded]
          simp [RouteTable.add]
    · intro e t' _ hact
      split at hact
      · rename_i hin
        cases hact
        exact hrefused _ (.inr hin)
      · cases hact

end

/-! ### Runs of the manager -/

abbrev Manager := PolicyManager RouteTable

inductive PolicyRequest where
  | applyProfile (profile : Profile) (interfaces : List NetworkInterface)
  | removeProfile (profileId : String)

/-- A request with the verdicts that its steps meet. -/
structure PolicyCall where
  request : PolicyRequest
  schedule : List (Lib.Verdict ExecError)

def PolicyRequest.exec : PolicyRequest → Call Manager ExecError PolicyError Unit
  | .applyProfile profile interfaces =>
    Call.discard (PolicyManager.applyProfile tableExecutor profile interfaces)
  | .removeProfile profileId => PolicyManager.removeProfile tableExecutor profileId

def PolicyCall.exec (call : PolicyCall) : Call Manager ExecError PolicyError Unit :=
  Call.scheduled call.schedule call.request.exec

/-- The condition: no rollback is refused. -/
def PolicyCall.Admitted (m : Manager) (call : PolicyCall) : Prop :=
  match call.request with
  | .applyProfile profile interfaces =>
    m.find profile.id = none → ∀ routes, planProfileRoutes profile interfaces = .ok routes →
      RollsBack m.executor.installed routes call.schedule
  | .removeProfile _ => True

/-- Every listed route was installed by the manager. -/
def OnlyInstalled (m : Manager) : Prop :=
  ∀ entry ∈ m.applied, ∀ r ∈ entry.routes, r ∈ m.executor.added

/-- Every route that the manager installed and that is still there is listed. -/
def NoneOrphaned (m : Manager) : Prop :=
  ∀ r ∈ m.executor.added, r ∈ m.executor.installed → ∃ entry ∈ m.snapshot, r ∈ entry.routes

/-- A manager with one entry for each profile that lists what it installed. -/
structure Tracked (m : Manager) : Prop where
  ids : (m.applied.map AppliedProfileRoutes.profileId).Nodup
  kept : ∀ r ∈ m.executor.added, r ∈ m.executor.installed → ∃ entry ∈ m.applied, r ∈ entry.routes

section
variable {m : Manager} {profileId : String} {routes : List AppliedRoute} {t : RouteTable}
  {entry : AppliedProfileRoutes}

theorem mem_insert_applied : entry ∈ (PolicyManager.insert profileId routes m).applied ↔
      (entry ∈ m.applied ∧ entry.profileId ≠ profileId) ∨ entry = ⟨profileId, routes⟩ := by
  simp [PolicyManager.insert]

theorem mem_forget_applied : entry ∈ (PolicyManager.forget profileId m).applied ↔
      entry ∈ m.applied ∧ entry.profileId ≠ profileId := by
  simp [PolicyManager.forget]

theorem nodup_forget (profileId : String) (h : (m.applied.map AppliedProfileRoutes.profileId).Nodup) :
    ((PolicyManager.forget profileId m).applied.map AppliedProfileRoutes.profileId).Nodup :=
  h.sublist (filter_sublist.map _)

theorem nodup_insert (h : (m.applied.map AppliedProfileRoutes.profileId).Nodup) :
    ((PolicyManager.insert profileId routes m).applied.map
      AppliedProfileRoutes.profileId).Nodup := by
  have hkept := nodup_forget profileId h
  have happlied : (PolicyManager.insert profileId routes m).applied =
      (PolicyManager.forget profileId m).applied ++ [⟨profileId, routes⟩] := rfl
  rw [happlied, map_append, nodup_append]
  refine ⟨hkept, by simp, fun a ha b hb => ?_⟩
  obtain ⟨entry, hentry, rfl⟩ := mem_map.mp ha
  have hb : b = profileId := by simpa using hb
  rw [hb]
  exact (mem_forget_applied.mp hentry).2

/-- With one entry for each profile, the entry that is found is the only one. -/
theorem Tracked.find_unique (h : Tracked m) {entry other : AppliedProfileRoutes}
    (hfind : m.find profileId = some entry) (hother : other ∈ m.applied)
    (hid : other.profileId = profileId) : other = entry := by
  have hmem := mem_of_find?_eq_some hfind
  have hentry : entry.profileId = profileId := by simpa using find?_some hfind
  exact inj_on_of_nodup_map h.ids hother hmem (hid.trans hentry.symm)

theorem Tracked.noneOrphaned (h : Tracked m) : NoneOrphaned m := by
  intro r hr hin
  obtain ⟨entry, hentry, hlist⟩ := h.kept r hr hin
  refine ⟨entry, ?_, hlist⟩
  rw [PolicyManager.snapshot, mem_mergeSort]
  exact hentry

theorem Tracked.fresh (installed : Finset AppliedRoute) :
    Tracked (PolicyManager.withExecutor ⟨installed, [], []⟩) where
  ids := nodup_nil
  kept := fun r hr => by cases hr

/-- A route that is listed stays listed when the log of additions grows. -/
theorem OnlyInstalled.grow (h : OnlyInstalled m) (hadded : m.executor.added ⊆ t.added) :
    OnlyInstalled { m with executor := t } :=
  fun entry hentry r hr => hadded (h entry hentry r hr)

theorem OnlyInstalled.insert (h : OnlyInstalled m) (hroutes : routes ⊆ m.executor.added) :
    OnlyInstalled (m.insert profileId routes) := by
  intro entry hentry r hr
  rcases mem_insert_applied.mp hentry with ⟨hold, -⟩ | rfl
  · exact h entry hold r hr
  · exact hroutes hr

theorem OnlyInstalled.forget (h : OnlyInstalled m) : OnlyInstalled (m.forget profileId) :=
  fun entry hentry => h entry (mem_forget_applied.mp hentry).1

/-- The effect of the removal loop as the manager sees it. -/
theorem wp_removeRoutesBestEffort {E : ExecError → RouteTable → Prop} :
    wp Lib.Verdict.Any (removeRoutesBestEffort tableExecutor routes)
      (fun result t' => t'.added = t.added ∧ t'.installed ⊆ t.installed ∧
        match result with
        | .ok () => ∀ r ∈ routes, r ∉ t'.installed
        | .error (failed, _) => failed ⊆ routes ∧ ∀ r ∈ routes, r ∈ t'.installed → r ∈ failed)
      E (fun _ => True) t := by
  refine wp_bind (wp_mono (wp_removeEach t routes.reverse) ?_ (fun _ _ h => h) fun _ _ => trivial)
  intro failed t' h
  have hnamed : ∀ r ∈ routes, r ∈ t'.installed → r ∈ failed.map Prod.fst :=
    fun r hr hin => h.named r (mem_reverse.mpr hr) hin
  split
  · rename_i hempty
    rw [List.isEmpty_iff] at hempty
    refine wp_pure ⟨h.added, h.sub, fun r hr hin => ?_⟩
    have hbad := hnamed r hr hin
    rw [hempty] at hbad
    cases hbad
  · refine wp_pure ⟨h.added, h.sub, fun r hr => ?_, hnamed⟩
    exact mem_reverse.mp (h.asked hr)

/-- Whatever is refused, a request lists only routes that the manager installed. -/
theorem wp_exec_onlyInstalled (request : PolicyRequest) (h : OnlyInstalled m) :
    wp Lib.Verdict.Any request.exec (fun _ => OnlyInstalled) (fun _ => OnlyInstalled)
      (fun _ => True) m := by
  cases request with
  | applyProfile profile interfaces =>
    refine wp_discard (wp_read ?_)
    split
    · exact wp_throw h
    refine wp_bind (wp_ofExcept ?_ fun _ _ => h)
    intro routes hplan
    refine wp_bind (wp_within ?_)
    have happly := wp_applyFrom (V := Lib.Verdict.Any) (E := fun _ _ => False)
      (.refl m.executor) routes
    refine wp_mono happly ?_ (fun _ _ h => h.elim) fun _ _ => trivial
    intro result t' hend
    cases result with
    | ok u =>
      have hgrow : OnlyInstalled { m with executor := t' } := h.grow (by simp [hend.2])
      refine wp_write (wp_pure (hgrow.insert ?_))
      show routes ⊆ t'.added
      simp [hend.2]
    | error x =>
      obtain ⟨more, -, -, -, hadded⟩ := hend
      exact wp_throw (h.grow (by simp [hadded]))
  | removeProfile profileId =>
    refine wp_read ?_
    cases hfind : m.find profileId with
    | none => exact wp_throw h
    | some entry =>
      have hentry := h entry (mem_of_find?_eq_some hfind)
      refine wp_write (wp_bind (wp_within ?_))
      refine wp_mono wp_removeRoutesBestEffort (E := fun _ _ => False) ?_
        (fun _ _ h => h.elim) fun _ _ => trivial
      intro result t' hend
      have hadded : t'.added = m.executor.added := hend.1
      have hforgot : OnlyInstalled { m.forget profileId with executor := t' } :=
        h.forget.grow fun r hr => hadded ▸ hr
      cases result with
      | ok u => exact wp_pure hforgot
      | error x =>
        refine wp_write (wp_throw (hforgot.insert fun r hr => ?_))
        show r ∈ t'.added
        rw [hadded]
        exact hentry r (hend.2.2.1 hr)

/-- A request whose rollback goes through leaves no route untracked. -/
theorem under_exec_tracked {request : PolicyRequest} {vs : List (Lib.Verdict ExecError)}
    (h : Tracked m) (hok : PolicyCall.Admitted m ⟨request, vs⟩) :
    under vs request.exec (fun _ m' _ => Tracked m') (fun _ m' _ => Tracked m') m := by
  cases request with
  | applyProfile profile interfaces =>
    refine under_discard (under_bind (under_gets ?_))
    cases hfind : m.find profile.id with
    | some entry => exact under_throw h
    | none =>
      refine under_bind ?_
      cases hplan : planProfileRoutes profile interfaces with
      | error e => exact under_throw h
      | ok routes =>
        refine under_pure (under_bind (under_within ?_))
        have hback := hok hfind routes hplan
        refine under_applyFrom (.refl m.executor) (fun r hr _ => hr) hback ?_ ?_
        · intro t' vs' hinstalled hadded
          refine under_bind (under_modify (under_pure ⟨nodup_insert h.ids, ?_⟩))
          intro r hr hin
          by_cases hnew : r ∈ routes
          · exact ⟨⟨profile.id, routes⟩, mem_insert_applied.mpr (.inr rfl), hnew⟩
          -- Nothing was listed for this profile, so every old entry is still there.
          have hr : r ∈ t'.added := hr
          have hin : r ∈ t'.installed := hin
          rw [hadded, mem_append] at hr
          rw [hinstalled] at hin
          have hin : r ∈ m.executor.installed := by simpa [hnew] using hin
          obtain ⟨entry, hentry, hlist⟩ := h.kept r (hr.resolve_right hnew) hin
          refine ⟨entry, mem_insert_applied.mpr (.inl ⟨hentry, fun hid => ?_⟩), hlist⟩
          have hnone := find?_eq_none.mp hfind entry hentry
          simp [hid] at hnone
        · intro x t' vs' hleft
          refine under_throw ⟨h.ids, fun r hr hin => ?_⟩
          obtain ⟨hbase, hold⟩ := hleft r hr hin
          exact h.kept r hold hbase
  | removeProfile profileId =>
    refine under_bind (under_gets ?_)
    cases hfind : m.find profileId with
    | none => exact under_throw h
    | some entry =>
      refine under_bind (under_modify (under_bind (under_within ?_)))
      refine under_mono (under_of_wp wp_removeRoutesBestEffort (E := fun _ _ => False)) ?_
        fun _ _ _ h => h.elim
      intro result t' vs' hend
      have hadded : t'.added = m.executor.added := hend.1
      have hsub : t'.installed ⊆ m.executor.installed := hend.2.1
      -- A route that is still there was listed; if the entry listed it, its removal failed.
      have hlisted : ∀ r ∈ t'.added, r ∈ t'.installed →
          r ∈ entry.routes ∨ ∃ other ∈ (m.forget profileId).applied, r ∈ other.routes := by
        intro r hr hin
        rw [hadded] at hr
        obtain ⟨other, hother, hlist⟩ := h.kept r hr (hsub hin)
        by_cases hid : other.profileId = profileId
        · rw [h.find_unique hfind hother hid] at hlist
          exact .inl hlist
        · exact .inr ⟨other, mem_forget_applied.mpr ⟨hother, hid⟩, hlist⟩
      cases result with
      | ok u =>
        refine under_pure ⟨nodup_forget profileId h.ids, fun r hr hin => ?_⟩
        exact (hlisted r hr hin).resolve_left fun hr => hend.2.2 r hr hin
      | error x =>
        refine under_bind (under_modify (under_throw ⟨?_, fun r hr hin => ?_⟩))
        · exact nodup_insert (nodup_forget profileId h.ids)
        rcases hlisted r hr hin with hr | ⟨other, hother, hlist⟩
        · exact ⟨_, mem_insert_applied.mpr (.inr rfl), hend.2.2.2 r hr hin⟩
        · have hne := (mem_forget_applied.mp hother).2
          exact ⟨other, mem_insert_applied.mpr (.inl ⟨hother, hne⟩), hlist⟩

end

/-- From an empty manager over any table: what is listed was installed by the manager, in
every run. In every run whose rollbacks go through, what the manager installed and is still
there is listed. -/
theorem policy_tracked (installed : Finset AppliedRoute) (m : Manager) :
    (Reaches PolicyCall.exec (fun _ _ => True) (PolicyManager.withExecutor ⟨installed, [], []⟩) m →
      OnlyInstalled m) ∧
    (Reaches PolicyCall.exec PolicyCall.Admitted
        (PolicyManager.withExecutor ⟨installed, [], []⟩) m →
      NoneOrphaned m) := by
  constructor
  · intro hreach
    refine hreach.invariant (C := fun _ => True) (fun entry hentry => by cases hentry) ?_
    intro m call h _
    exact wp_scheduled (under_of_wp (wp_exec_onlyInstalled call.request h))
  · intro hreach
    refine Tracked.noneOrphaned (hreach.invariant (C := fun _ => True) (Tracked.fresh installed) ?_)
    intro m call h hok
    exact wp_scheduled (under_exec_tracked h hok)

/-! ### A refused rollback -/

def officeTunnel : NetworkInterface :=
  { name := "tun7", friendlyName := "Office", ifIndex := 7, gateway := none, ipv6Gateway := none,
    category := .vpn }

def officeProfile : Profile :=
  { id := "office", interfaceName := "tun7",
    routes := [⟨.v4 0x0a020000 16, 100, none⟩, ⟨.v4 0x0a030000 16, 100, none⟩],
    waitForInterface := false, endpointBypasses := [] }

def emptyManager : Manager := PolicyManager.withExecutor ⟨∅, [], []⟩

def officeRoute (destination : IpNet) : AppliedRoute :=
  { destination, interfaceIndex := 7, metric := 100, gateway := none, table := none }

def refusal : Lib.Verdict ExecError := .fail ⟨.other, "Operation not permitted"⟩

/-- The second add and the removal of the first route are refused. -/
def officeOrphan : PolicyCall := ⟨.applyProfile officeProfile [officeTunnel],
  [.proceed, refusal, refusal]⟩

/-- The profile is not applied and nothing is listed, but its first route is installed. -/
theorem refused_rollback_orphans :
    ∃ m, Reaches PolicyCall.exec (fun _ _ => True) emptyManager m ∧ m.snapshot = [] ∧
      officeRoute (.v4 0x0a020000 16) ∈ m.executor.added ∧
      officeRoute (.v4 0x0a020000 16) ∈ m.executor.installed ∧ ¬NoneOrphaned m := by
  have hrun := eq_of_outcome (o := .err ⟨.other, .applyFailed "Operation not permitted"
      [(.v4 0x0a020000 16, "Operation not permitted")]⟩)
    (r := officeOrphan.exec emptyManager []) (by decide)
  have hreach : Reaches PolicyCall.exec (fun _ _ => True) emptyManager _ :=
    .call .start trivial hrun (by simp)
  have hsnapshot : (officeOrphan.exec emptyManager []).2.1.snapshot = [] := by
    have happlied : (officeOrphan.exec emptyManager []).2.1.applied = [] := by decide
    rw [PolicyManager.snapshot, happlied, List.mergeSort_nil]
  have hadded : officeRoute (.v4 0x0a020000 16) ∈
      (officeOrphan.exec emptyManager []).2.1.executor.added := by decide
  have hin : officeRoute (.v4 0x0a020000 16) ∈
      (officeOrphan.exec emptyManager []).2.1.executor.installed := by decide
  refine ⟨_, hreach, hsnapshot, hadded, hin, fun h => ?_⟩
  obtain ⟨entry, hentry, -⟩ := h _ hadded hin
  rw [hsnapshot] at hentry
  cases hentry

/-- The second add is refused and the removal of the first route goes through. -/
def officeRolledBack : PolicyCall := ⟨.applyProfile officeProfile [officeTunnel],
  [.proceed, refusal]⟩

theorem officeRolledBack_admitted : PolicyCall.Admitted emptyManager officeRolledBack := by
  intro _ routes hplan i hi hfirst
  have hlen : routes.length = 2 := by
    have hplan' : planProfileRoutes officeProfile [officeTunnel] =
        .ok [officeRoute (.v4 0x0a020000 16), officeRoute (.v4 0x0a030000 16)] := by
      decide
    rw [hplan] at hplan'
    rw [Except.ok.inj hplan']
    rfl
  -- After the first two verdicts nothing is refused, and before that the first is granted.
  match i, hi, hfirst with
  | 0, _, _ => simp [Granted]
  | 1, _, _ => simp [Granted, officeRolledBack]
  | i + 2, hi, _ => omega

theorem rolled_back_tracked :
    ∃ m, Reaches PolicyCall.exec PolicyCall.Admitted emptyManager m ∧
      officeRoute (.v4 0x0a020000 16) ∈ m.executor.added ∧ OnlyInstalled m ∧ NoneOrphaned m := by
  have hrun := eq_of_outcome (o := .err ⟨.other, .applyFailed "Operation not permitted" []⟩)
    (r := officeRolledBack.exec emptyManager []) (by decide)
  have hreach : Reaches PolicyCall.exec PolicyCall.Admitted emptyManager _ :=
    .call .start officeRolledBack_admitted hrun (by simp)
  have hany : Reaches PolicyCall.exec (fun _ _ => True) emptyManager _ :=
    .call .start trivial hrun (by simp)
  refine ⟨_, hreach, by decide, ?_, ?_⟩
  · exact (policy_tracked ∅ _).1 hany
  · exact (policy_tracked ∅ _).2 hreach

end NetOrchestrator.Core
