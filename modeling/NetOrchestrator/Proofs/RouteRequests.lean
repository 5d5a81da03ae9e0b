import NetOrchestrator.Lib.Runs
import NetOrchestrator.Proofs.RouteOwners

/-!
# `Proofs.RouteRequests`: requests for route owners

The requests that hold routes for an owner, as one type, and the rules that reduce each of
them to its two moves: tearing the owner's entry down, and applying routes for it. A property
that both moves keep, and that does not look at the disk or the intent store, is kept by the
requests.
-/

namespace NetOrchestrator.Daemon

open Net Lib Lib.Call

/-- The requests that hold routes for an owner, and what the machine does in between. -/
inductive RouteRequest where
  | applyRoutes (uid : Nat) (owner : String) (routes : List AppliedRoute)
  | applyAttach (uid : Nat) (owner : String) (spec : AttachSpecParams) (routes : List AppliedRoute)
  | netIntentSet (uid : Nat) (params : NetIntentSetParams)
  | netIntentDel (uid : Nat) (id : String)
  | removeOwner (uid : Nat) (owner : String)
  | reconcileNetwork (observed : List AppliedRoute)
  | machine (kernel : Kernel) (view : View)

def RouteRequest.exec (lib : Crates) : RouteRequest → Prog Unit
  | .applyRoutes uid owner routes => Call.discard (Daemon.applyRoutes uid owner routes)
  | .applyAttach uid owner spec routes => Call.discard (Daemon.applyAttach uid owner spec routes)
  | .netIntentSet uid params => Call.discard (Daemon.netIntentSet lib uid params)
  | .netIntentDel uid id => Daemon.netIntentDel lib uid id
  | .removeOwner uid owner => Call.discard (Daemon.removeOwner uid owner)
  | .reconcileNetwork observed => Call.discard (Daemon.reconcileNetwork observed)
  | .machine kernel view => Call.modify fun core => { core with kernel, view }

/-- Run requests one after another, undisturbed. -/
def RouteRequest.runAll (lib : Crates) (core : DaemonCore) : List RouteRequest → DaemonCore
  | [] => core
  | request :: rest => runAll lib (request.exec lib core []).2.1 rest

/-- Owners that hold routes and nothing else. -/
def Owner.holdsRoutes : Owner → Bool
  | .client _ | .intent _ => true
  | _ => false

section
variable {V : Verdict Fault → Prop} {core : DaemonCore} {E : IoError → DaemonCore → Prop}
  {C : DaemonCore → Prop} {Q : Unit → DaemonCore → Prop}

theorem wp_checkClientOwner {name : String}
    (hok : (Owner.parse name).holdsRoutes = true → Q () core) (herr : ∀ e, E e core) :
    wp V (checkClientOwner name) Q E C core := by
  refine wp_bind (wp_demand (fun _ => ?_) fun _ _ => herr _)
  split
  · rename_i heq
    exact wp_pure (hok (by rw [heq]; rfl))
  · exact wp_throw (herr _)

theorem intentOwner_ok {id : String} {owner : Owner} (h : intentOwner id = .ok owner) :
    owner = .intent id := by
  unfold intentOwner at h
  split at h
  · cases h
  · cases hv : validateOwner (Owner.intent id).render with
    | error m => rw [hv] at h; cases h
    | ok u =>
      rw [hv] at h
      cases h
      rfl

theorem wp_orInvalid {α : Type} {check : Except Message α} {Q : α → DaemonCore → Prop}
    (hok : ∀ a, check = .ok a → Q a core) (herr : ∀ m, check = .error m → E (invalidInput m) core) :
    wp V (orInvalid check) Q E C core := by
  cases check with
  | ok a => exact wp_pure (hok a rfl)
  | error m => exact wp_throw (herr m rfl)

theorem wp_requireIntents (hok : core.executors.intents = true → Q () core)
    (herr : E intentStoreUnavailable core) : wp V requireIntents Q E C core := by
  refine wp_read ?_
  split
  · exact wp_pure (hok ‹_›)
  · exact wp_throw herr

end

/-! ### The rules -/

/-- A property of journal and kernel that says nothing about the intent store and survives a
save. `C` is what it guarantees at a cut-off. -/
structure Bookkept (V : Verdict Fault → Prop) (K C : DaemonCore → Prop) : Prop where
  saved : ∀ c, K c → K { c with disk := c.journal }
  stored : ∀ c intents, K c → K { c with intents }
  cut : ∀ c, K c → V .crash → C c

namespace Bookkept

variable {V : Verdict Fault → Prop} {K L C : DaemonCore → Prop} {core : DaemonCore}
  {uid : Nat} {owner : Owner} {lib : Crates}

theorem wp_persist (B : Bookkept V K C) (h : K core) {E : IoError → DaemonCore → Prop} :
    wp V persist (fun _ => K) E C core :=
  Daemon.wp_persist (B.cut core h) h (B.saved core h)

theorem wp_saveIntents (B : Bookkept V K C) (h : K core) {intents : List NetIntentSetParams} :
    wp V (saveIntents lib uid intents) (fun _ => K) (fun _ => K) C core := by
  refine wp_commit (B.cut core h) (fun _ _ => h) (fun _ _ s' _ _ hs => ?_) (fun _ s' hs => ?_)
    (fun _ s' hs => ?_)
  all_goals
    split at hs
    all_goals cases hs
  · exact B.stored core _ h
  · exact B.stored core _ h
  · exact h

theorem wp_upsertIntent (B : Bookkept V K C) (h : K core) {intent : NetIntentSetParams} :
    wp V (upsertIntent lib uid intent) (fun _ => K) (fun _ => K) C core := by
  refine wp_bind (wp_query (B.cut core h) (fun _ _ => h) (fun intents _ => ?_) fun _ _ => h)
  split
  · exact wp_throw h
  · exact B.wp_saveIntents h

theorem wp_removeIntent (B : Bookkept V K C) (h : K core) {id : String} :
    wp V (removeIntent lib uid id) (fun _ => K) (fun _ => K) C core := by
  refine wp_bind (wp_query (B.cut core h) (fun _ _ => h) (fun intents _ => ?_) fun _ _ => h)
  dsimp only
  split
  · exact wp_pure h
  · exact wp_bind (wp_post (B.wp_saveIntents h) fun _ _ h' => wp_pure h')

theorem wp_removeEntryAt (B : Bookkept V K C) {index : Nat} (h : K core)
    (hentry : ∃ entry, core.journal[index]? = some entry)
    (hretire : wp V (teardownEntry index) (fun _ => K) (fun _ => K) C core) :
    wp V (removeEntryAt index) (fun _ => K) (fun _ => K) C core := by
  obtain ⟨entry, hentry⟩ := hentry
  refine wp_bind (wp_entryAt (fun _ _ => ?_) fun _ => h)
  refine wp_either hretire ?_ ?_
  · exact fun _ c hc =>
      wp_then (B.wp_persist hc) fun _ _ h' => wp_ofExcept (fun _ _ => h') fun _ _ => h'
  · exact fun _ c hc =>
      wp_then (B.wp_persist hc) fun _ _ h' => wp_ofExcept (fun _ _ => h') fun _ _ => h'

/-- Removing an owner is its teardown and a save. -/
theorem wp_removeOwner (B : Bookkept V K C) {name : String} (h : K core)
    (hretire : ∀ index, core.journal.position uid (Owner.parse name) = some index →
      wp V (teardownEntry index) (fun _ => K) (fun _ => K) C core) :
    wp V (removeOwner uid name) (fun _ => K) (fun _ => K) C core := by
  refine wp_bind (wp_demand (fun _ => ?_) fun _ _ => h)
  refine wp_bind (wp_position ?_)
  cases hpos : core.journal.position uid (Owner.parse name) with
  | none => exact wp_throw h
  | some index =>
    obtain ⟨entry, hentry, -⟩ := Journal.position_eq_some hpos
    simp only
    split
    all_goals first
      | exact wp_throw h
      | exact B.wp_removeEntryAt h ⟨entry, hentry⟩ (hretire index hpos)

/-- Deleting an intent takes its record out of the store, then its entry down. -/
theorem wp_netIntentDel (B : Bookkept V K C) {id : String} (h : K core)
    (hretire : ∀ c index, K c → c.journal.position uid (.intent id) = some index →
      wp V (teardownEntry index) (fun _ => K) (fun _ => K) C c) :
    wp V (netIntentDel lib uid id) (fun _ => K) (fun _ => K) C core := by
  refine wp_bind (wp_orInvalid (fun owner howner => ?_) fun _ _ => h)
  obtain rfl := intentOwner_ok howner
  refine wp_bind (wp_requireIntents (fun _ => ?_) h)
  refine wp_bind (wp_ends (B.wp_removeIntent h) ?_ (fun _ _ he => he))
  intro _ c hc
  refine wp_bind (wp_position ?_)
  split
  · refine wp_discard (wp_bind (wp_position ?_))
    cases hpos : c.journal.position uid (.intent id) with
    | none => exact wp_throw hc
    | some index =>
      obtain ⟨entry, hentry, -⟩ := Journal.position_eq_some hpos
      exact B.wp_removeEntryAt hc ⟨entry, hentry⟩ (hretire c index hc hpos)
  · exact wp_pure hc

/-- Setting an intent takes an earlier version down, applies the new one, and takes that down
again when the store refuses it. `K` holds up to the apply and `L` from there on. -/
theorem wp_netIntentSet (B : Bookkept V K C) (B' : Bookkept V L C) {params : NetIntentSetParams}
    (h : K core) (hKL : ∀ c, K c → L c)
    (hretire : ∀ index, core.journal.position uid (.intent params.id) = some index →
      wp V (teardownEntry index) (fun _ => K) (fun _ => L) C core)
    (happly : ∀ c spec, K c → intentSpec lib params = .ok spec →
      wp V (applyRoutesInner uid (.intent params.id) (attachDesired core.view spec) (some spec))
        (fun _ => L) (fun _ => L) C c)
    (hundo : ∀ c index, L c → c.journal.position uid (.intent params.id) = some index →
      wp V (teardownEntry index) (fun _ => L) (fun _ => L) C c) :
    wp V (netIntentSet lib uid params) (fun _ => L) (fun _ => L) C core := by
  refine wp_bind (wp_orInvalid (fun owner howner => ?_) fun _ _ => hKL core h)
  obtain rfl := intentOwner_ok howner
  refine wp_bind (wp_orInvalid (fun spec hspec => ?_) fun _ _ => hKL core h)
  refine wp_bind (wp_requireIntents (fun _ => ?_) (hKL core h))
  refine wp_read ?_
  have hretired : wp V (retireIntent uid (.intent params.id)) (fun _ => K) (fun _ => L) C core := by
    refine wp_bind (wp_position ?_)
    cases hpos : core.journal.position uid (.intent params.id) with
    | none => exact wp_pure h
    | some index =>
      exact wp_bind (wp_ends (hretire index hpos) (fun _ _ hc => B.wp_persist hc)
        (fun _ _ he => he))
  refine wp_bind (wp_ends hretired ?_ (fun _ _ he => he))
  intro _ c₁ hc₁
  have harm : wp V (armIntent uid (.intent params.id) spec (attachDesired core.view spec)
      (params.enabled.getD true)) (fun _ => L) (fun _ => L) C c₁ := by
    unfold armIntent
    split
    · exact wp_discard (happly c₁ spec hc₁ hspec)
    · exact wp_pure (hKL c₁ hc₁)
  refine wp_bind (wp_ends harm ?_ (fun _ _ he => he))
  intro _ c₂ hc₂
  refine wp_either (B'.wp_upsertIntent hc₂) (fun _ _ hc => wp_pure hc) ?_
  intro e c₃ hc₃
  have hundone : wp V (undoIntent uid (.intent params.id)) (fun _ => L) (fun _ => L) C c₃ := by
    refine wp_bind (wp_position ?_)
    cases hpos : c₃.journal.position uid (.intent params.id) with
    | none => exact wp_pure hc₃
    | some index =>
      exact wp_either (hundo c₃ index hc₃ hpos)
        (fun _ _ hc => B'.wp_persist hc) (fun _ _ hc => B'.wp_persist hc)
  exact wp_bind (wp_ends hundone (fun _ _ hc => wp_throw hc) (fun _ _ he => he))

end Bookkept

end NetOrchestrator.Daemon
