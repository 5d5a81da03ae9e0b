import NetOrchestrator.Lib.Schedules
import NetOrchestrator.Proofs.Primitives

/-!
# `Proofs.GenericTeardown`: the teardown of a generic entry

The one specification of the generic routine. Releasing a resource either does what
`Kernel.release` says or leaves the kernel as it was; the sweep visits the resources newest
first and leaves those it could not release. `wp_teardownGenericEntry` turns any invariant
of the kernel and of the work left into the three ends of the routine, and
`wp_teardownGenericEntry_quiet` says that an undisturbed routine releases everything.

Where the place of a refusal matters, the `under` lemmas count the verdicts off.
-/

namespace NetOrchestrator.Daemon

open Net Lib Lib.Call

/-- The kernel after a resource of a generic entry has been released. -/
def Kernel.release (k : Kernel) : OwnedResource → Kernel
  | .route r => (k.removeRoute r).2
  | .netRoute r => (k.removeSystemRoute r).2
  | .netRule r => (k.removeSystemRule r).2
  | .suppressedRoute r => (k.addSystemRoute .foreign r).2
  | .suppressedRule r => (k.addSystemRule .foreign r).2
  | _ => k

/-- The resources that are released through the policy executor. -/
def OwnedResource.needsPolicy : OwnedResource → Bool
  | .netRule _ | .suppressedRule _ => true
  | _ => false

/-- What can keep a resource from being released. -/
def Disturbed (V : Verdict Fault → Prop) (x : Executors) (resource : OwnedResource) : Prop :=
  (∃ f, V (.fail f)) ∨ (resource.needsPolicy = true ∧ x.policy = false)

section
variable {V : Verdict Fault → Prop} {core : DaemonCore} {E : IoError → DaemonCore → Prop}
variable {k : Kernel} {e : IoError} {resource : OwnedResource}

/-- The end of one release. -/
inductive Released (V : Verdict Fault → Prop) (core : DaemonCore) (resource : OwnedResource) :
    Bool → DaemonCore → Prop
  | done : Released V core resource true { core with kernel := core.kernel.release resource }
  | left (h : Disturbed V core.executors resource) : Released V core resource false core

/-- A tolerated request: the tolerated error means that there is nothing to do. -/
theorem wp_tolerate_onKernel {request : Kernel → Reply Unit} {p : IoError → Bool}
    {Q : Unit → DaemonCore → Prop} {C : DaemonCore → Prop}
    (hp : ∀ k e, (request k).1 = .error e → p e = true)
    (hok : Q () { core with kernel := (request core.kernel).2 })
    (hfail : (∃ f, V (.fail f)) → ∀ e, E e core) (hcrash : V .crash → C core)
    (hfault : ∀ f : Fault, p f.report = false) :
    wp V (Call.tolerate p (onKernel request)) Q E C core := by
  refine wp_tolerate (wp_onKernel hcrash ?_ (fun _ _ => hok) ?_)
  · intro f hf
    rw [hfault f]
    exact hfail ⟨f, hf⟩ _
  · intro e he
    rw [if_pos (hp _ e he)]
    exact hok

theorem isNotFound_of_removeRouteRows {selects : KernelRoute → Bool}
    (h : (k.removeRouteRows selects).1 = .error e) : isNotFound e = true := by
  unfold Kernel.removeRouteRows at h
  split at h
  · cases h
  · cases h
    rfl

theorem isNotFound_of_removeRuleRows {selects : KernelRule → Bool}
    (h : (k.removeRuleRows selects).1 = .error e) : isNotFound e = true := by
  unfold Kernel.removeRuleRows at h
  split at h
  · cases h
  · cases h
    rfl

theorem isAlreadyExists_of_addRouteRow {row : KernelRoute}
    (h : (k.addRouteRow row).1 = .error e) : isAlreadyExists e = true := by
  unfold Kernel.addRouteRow at h
  split at h
  · cases h
    rfl
  · cases h

theorem isAlreadyExists_of_addRuleRow {row : KernelRule}
    (h : (k.addRuleRow row).1 = .error e) : isAlreadyExists e = true := by
  unfold Kernel.addRuleRow at h
  split at h
  · cases h
    rfl
  · cases h

theorem isNotFound_report (f : Fault) : isNotFound f.report = false := by
  cases f <;> rfl

theorem isAlreadyExists_report (f : Fault) : isAlreadyExists f.report = false := by
  cases f <;> rfl

/-- The ends of a request that releases the resource. -/
abbrev ReleasedBy (V : Verdict Fault → Prop) (core : DaemonCore) (resource : OwnedResource)
    (m : Prog Unit) : Prop :=
  wp V m (fun _ c => c = { core with kernel := core.kernel.release resource })
    (fun _ c => c = core ∧ Disturbed V core.executors resource) (fun c => V .crash ∧ c = core) core

theorem wp_releaseGeneric : ReleasedBy V core resource (releaseGeneric resource) := by
  have hroute : ∀ {request : Kernel → Reply Unit} {p : IoError → Bool},
      (∀ k e, (request k).1 = .error e → p e = true) → (∀ f : Fault, p f.report = false) →
      core.kernel.release resource = (request core.kernel).2 →
      ReleasedBy V core resource (Call.tolerate p (onKernel request)) :=
    fun hp hfault heq => wp_tolerate_onKernel hp (by rw [heq])
      (fun hf _ => ⟨rfl, .inl hf⟩) (fun hcrash => ⟨hcrash, rfl⟩) hfault
  have hrule : ∀ {request : Kernel → Reply Unit} {p : IoError → Bool},
      resource.needsPolicy = true → p policyUnavailable = false →
      ReleasedBy V core resource (Call.tolerate p (onKernel request)) →
      ReleasedBy V core resource (Call.tolerate p (withPolicy (onKernel request))) := by
    intro request p hneeds hp hserved
    by_cases hpolicy : core.executors.policy = true
    · intro vs hvs
      have hsame : withPolicy (onKernel request) core vs = onKernel request core vs := by
        unfold withPolicy
        rw [bind_of_ok (gets_apply ..), if_pos hpolicy]
      have hrun := hserved vs hvs
      unfold Call.tolerate at hrun ⊢
      rw [bind_apply, attempt_apply] at hrun ⊢
      rw [hsame]
      exact hrun
    · refine wp_tolerate (wp_read ?_)
      rw [if_neg hpolicy]
      refine wp_throw ?_
      rw [hp]
      exact ⟨rfl, .inr ⟨hneeds, by simpa using hpolicy⟩⟩
  cases resource with
  | route r => exact hroute (fun k e => isNotFound_of_removeRouteRows) isNotFound_report rfl
  | netRoute r => exact hroute (fun k e => isNotFound_of_removeRouteRows) isNotFound_report rfl
  | netRule r =>
    exact hrule rfl rfl (hroute (fun k e => isNotFound_of_removeRuleRows) isNotFound_report rfl)
  | suppressedRoute r =>
    exact hroute (fun k e => isAlreadyExists_of_addRouteRow) isAlreadyExists_report rfl
  | suppressedRule r =>
    exact hrule rfl rfl (hroute (fun k e => isAlreadyExists_of_addRuleRow) isAlreadyExists_report rfl)
  | _ => exact wp_pure rfl

theorem wp_releasedGeneric {left : List OwnedResource} :
    wp V (releasedGeneric left resource) (Released V core resource) E
      (fun c => V .crash ∧ c = core) core := by
  refine wp_tried (wp_ends wp_releaseGeneric ?_ ?_)
  · rintro _ _ rfl
    exact wp_pure .done
  · rintro _ _ ⟨rfl, h⟩
    exact wp_pure (.left h)

end

section
variable {V : Verdict Fault → Prop} {core : DaemonCore} {index : Nat} {entry : JournalEntry}
  {J : List OwnedResource → List OwnedResource → Kernel → Prop} {E : IoError → DaemonCore → Prop}

/-- The sweep touches the kernel only, and each step of it is a release or a resource left. -/
theorem wp_sweepGeneric {l : List OwnedResource} (hstart : J [] l core.kernel)
    (hdone : ∀ left resource rest k, J left (resource :: rest) k →
      J left rest (k.release resource))
    (hleft : ∀ left resource rest k, Disturbed V core.executors resource →
      J left (resource :: rest) k → J (left ++ [resource]) rest k) :
    wp V (Call.sweep releasedGeneric [] l)
      (fun failed c => ∃ k, J failed [] k ∧ c = { core with kernel := k }) E
      (fun c => V .crash ∧ ∃ left rest k, J left rest k ∧ c = { core with kernel := k }) core := by
  refine wp_sweep (J := fun left rest c => ∃ k, J left rest k ∧ c = { core with kernel := k })
    ?_ ⟨core.kernel, hstart, rfl⟩
  rintro left resource rest _ ⟨k, hJ, rfl⟩
  refine wp_mono wp_releasedGeneric ?_ (fun _ _ h => h) ?_
  · intro done c hc
    cases hc with
    | done => exact ⟨_, hdone left resource rest k hJ, rfl⟩
    | left h => exact ⟨k, hleft left resource rest k h hJ, rfl⟩
  · rintro _ ⟨hcrash, rfl⟩
    exact ⟨hcrash, left, resource :: rest, k, hJ, rfl⟩

/-- The journal after a teardown that left something behind. -/
def Journal.leftBehind (j : Journal) (index : Nat) (failed : List OwnedResource) : Journal :=
  j.modify index fun entry => (entry.setState .stale).setResources failed.reverse

/-- The ends of a generic teardown. -/
theorem wp_teardownGenericEntry (hentry : core.journal[index]? = some entry)
    (hstart : J [] entry.resources.reverse core.kernel)
    (hdone : ∀ left resource rest k, J left (resource :: rest) k →
      J left rest (k.release resource))
    (hleft : ∀ left resource rest k, Disturbed V core.executors resource →
      J left (resource :: rest) k → J (left ++ [resource]) rest k) :
    wp V (teardownGenericEntry index) (fun _ c => ∃ k, J [] [] k ∧
        c = { core with journal := core.journal.eraseIdx index, kernel := k })
      (fun _ c => ∃ failed k, failed ≠ [] ∧ J failed [] k ∧
        c = { core with journal := core.journal.leftBehind index failed, kernel := k })
      (fun c => V .crash ∧ ∃ left rest k, J left rest k ∧ c = { core with kernel := k }) core := by
  refine wp_atEntry hentry ?_
  refine wp_then (wp_sweepGeneric hstart hdone hleft) ?_
  rintro failed _ ⟨k, hJ, rfl⟩
  unfold settle
  split
  · rename_i hempty
    rw [List.isEmpty_iff] at hempty
    exact wp_removeEntry ⟨k, hempty ▸ hJ, rfl⟩
  · rename_i hempty
    rw [List.isEmpty_iff] at hempty
    exact wp_bind (wp_updateEntry (wp_throw ⟨failed, k, hempty, hJ, rfl⟩))

/-! ### Under one schedule -/

section
variable {vs : List (Verdict Fault)}
  {E : IoError → DaemonCore → List (Verdict Fault) → Prop}

theorem under_entryAt {Q : JournalEntry → DaemonCore → List (Verdict Fault) → Prop}
    (hentry : core.journal[index]? = some entry) (h : Q entry core vs) :
    under vs (entryAt index) Q E core := by
  refine under_bind (under_gets ?_)
  rw [hentry]
  exact h

/-- A request that only the schedule keeps from being done. -/
theorem under_tolerated {request : Kernel → Reply Unit} {p : IoError → Bool}
    {Q : Unit → DaemonCore → List (Verdict Fault) → Prop}
    (hp : ∀ k e, (request k).1 = .error e → p e = true) (hfault : ∀ f : Fault, p f.report = false)
    (hok : Q () { core with kernel := (request core.kernel).2 } vs.tail)
    (hfail : ∀ f, nextVerdict vs = .fail f → E f.report core vs.tail) :
    under vs (onKernel request) Q (fun e s vs => if p e then Q () s vs else E e s vs) core := by
  refine under_step ?_ ?_ ?_
  · intro f hf
    rw [hfault f]
    exact hfail f hf
  · intro _ _ _ hs
    obtain ⟨-, rfl⟩ := Prod.mk.inj hs
    exact hok
  · intro e _ _ hs
    obtain ⟨he, rfl⟩ := Prod.mk.inj hs
    rw [if_pos (hp _ e he)]
    exact hok

end

/-- The kernel after an undisturbed sweep. -/
def Kernel.releaseAll (k : Kernel) (resources : List OwnedResource) : Kernel :=
  resources.foldl Kernel.release k

/-- Undisturbed, a generic teardown releases every resource and drops the entry. -/
theorem wp_teardownGenericEntry_quiet {C : DaemonCore → Prop}
    (hentry : core.journal[index]? = some entry)
    (hpolicy : ∀ r ∈ entry.resources, r.needsPolicy = true → core.executors.policy = true) :
    wp Verdict.Quiet (teardownGenericEntry index) (fun _ c => c =
        { core with
          journal := core.journal.eraseIdx index
          kernel := core.kernel.releaseAll entry.resources.reverse })
      E C core := by
  -- Nothing is left, and what the rest of the sweep makes of the kernel does not change.
  refine wp_mono (wp_teardownGenericEntry
    (J := fun left rest k => left = [] ∧ (∀ r ∈ rest, r ∈ entry.resources) ∧
      k.releaseAll rest = core.kernel.releaseAll entry.resources.reverse)
    hentry ⟨rfl, by simp, rfl⟩ ?_ ?_) ?_ ?_ ?_
  · rintro left resource rest k ⟨rfl, hrest, hk⟩
    exact ⟨rfl, fun r hr => hrest r (by simp [hr]), hk⟩
  · rintro left resource rest k (⟨f, hf⟩ | ⟨hneeds, hnone⟩) ⟨-, hrest, -⟩
    · cases hf
    · rw [hpolicy resource (hrest resource (by simp)) hneeds] at hnone
      cases hnone
  · rintro _ _ ⟨k, ⟨-, -, hk⟩, rfl⟩
    rw [← hk]
    rfl
  · rintro _ _ ⟨failed, k, hne, ⟨rfl, -⟩, -⟩
    exact absurd rfl hne
  · rintro _ ⟨hcrash, -⟩
    cases hcrash

end

end NetOrchestrator.Daemon
