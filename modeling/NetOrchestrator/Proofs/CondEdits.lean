import NetOrchestrator.Lib.Steps
import NetOrchestrator.Daemon.CondRequests
import NetOrchestrator.Proofs.CondFrame

/-!
# `Proofs.CondEdits`: edits of conditional rules

A request that saves a document that it loaded before another request saved takes that request's
edit back, and an evaluation that loaded a rule before the rule was removed installs the rule's
routes after the removal has returned (`studio_edits_lost`). While no action is of these two kinds,
the stored document is what the requests leave when they are served in the order in which they
took effect, and no evaluation installs a route of a removed rule (`edits_kept`).

`Serialized` is the invariant: the history of the requests next to the stored document.
-/

namespace NetOrchestrator.Daemon

open Net Lib Lib.Call List Option

/-! ### Serial orders and installed rules -/

namespace CondWorld

/-- The requests of an order. -/
def served (w : CondWorld) (order : List Nat) : List CondRequest :=
  order.filterMap fun n => w.requests[n]?

/-- An order of all the requests in which none comes before one that had returned when it
arrived. -/
structure Serial (w : CondWorld) (order : List Nat) : Prop where
  nodup : order.Nodup
  complete : ∀ n, n ∈ order ↔ n < w.requests.length
  respects : order.Pairwise fun a b => b ∉ (w.after[a]?).getD []

/-- Once all requests have returned, the document is what some serial order of them leaves. -/
def EditsKept (uid : Nat) (start : CondRulesDocument) (w : CondWorld) : Prop :=
  (∀ n < w.requests.length, n ∈ w.returned) →
    ∃ order, w.Serial order ∧ CondRequest.serve start (w.served order) = .ok (w.store.loadUid uid)

/-- The removal of the rule has returned and no put of it took effect later. -/
def Removed (w : CondWorld) (ruleId : String) : Prop :=
  ∃ earlier n later, w.order = earlier ++ n :: later ∧ n ∈ w.returned ∧
    w.requests[n]? = some (.remove ruleId) ∧
    ∀ rule, .put rule ∈ w.served later → rule.id ≠ ruleId

/-- A step that installs no route of a removed rule. -/
def RemovalsHold (uid : Nat) (w w' : CondWorld) : Prop :=
  ∀ ruleId, w.Removed ruleId → ∀ row ∈ w'.core.kernel.routes,
    row.origin = .daemon uid (.cond ruleId) → row ∈ w.core.kernel.routes

/-- A document that is saved is the request's edit of the document that is stored, and a rule of
the user that is evaluated is one that is stored. -/
def ThreadUpToDate (uid : Nat) (w : CondWorld) (x : CondStep) (request : Option Nat) :
    CondStage → Prop
  | .save edited =>
    x.storeFails = true ∨
      (request.bind fun n => w.requests[n]?).map (CondRequest.apply (w.store.loadUid uid)) =
        some (.ok edited)
  | .reconcile rules _ _ =>
    ∀ rule ∈ rules, rule.1 = uid → ∃ stored ∈ (w.store.loadUid uid).rules, stored.id = rule.2.id
  | _ => True

instance decidableThreadUpToDate (uid : Nat) (w : CondWorld) (x : CondStep)
    (request : Option Nat) : (stage : CondStage) → Decidable (w.ThreadUpToDate uid x request stage)
  | .save edited =>
    inferInstanceAs (Decidable (x.storeFails = true ∨
      (request.bind fun n => w.requests[n]?).map (CondRequest.apply (w.store.loadUid uid)) =
        some (.ok edited)))
  | .reconcile rules _ _ =>
    inferInstanceAs (Decidable (∀ rule ∈ rules, rule.1 = uid →
      ∃ stored ∈ (w.store.loadUid uid).rules, stored.id = rule.2.id))
  | .load => .isTrue trivial
  | .loadRules => .isTrue trivial
  | .observe _ => .isTrue trivial

/-- The actions that meet the condition. -/
def UpToDate (uid : Nat) (w : CondWorld) : CondAction → Prop
  | .advance i x => ∀ thread ∈ w.threads[i]?, w.ThreadUpToDate uid x thread.request thread.stage
  | _ => True

instance decidableUpToDate (uid : Nat) (w : CondWorld) :
    (action : CondAction) → Decidable (w.UpToDate uid action)
  | .advance i x =>
    inferInstanceAs (Decidable
      (∀ thread ∈ w.threads[i]?, w.ThreadUpToDate uid x thread.request thread.stage))
  | .arrive _ => .isTrue trivial
  | .evaluate => .isTrue trivial
  | .deny _ => .isTrue trivial
  | .drift _ => .isTrue trivial

end CondWorld

/-! ### Serving requests one after another -/

section
variable {document document' : CondRulesDocument} {request : CondRequest} {ruleId : String}
  {rule : ConditionalRouteRule}

def CondRulesDocument.Lacks (document : CondRulesDocument) (ruleId : String) : Prop :=
  ∀ rule ∈ document.rules, rule.id ≠ ruleId

theorem CondRulesDocument.mem_remove :
    rule ∈ (document.remove ruleId).2.rules ↔ rule ∈ document.rules ∧ rule.id ≠ ruleId := by
  have hkept : rule ∈ document.rules.filter (fun rule => rule.id != ruleId) ↔
      rule ∈ document.rules ∧ rule.id ≠ ruleId := by
    rw [mem_filter, bne_iff_ne]
  simp only [CondRulesDocument.remove]
  split
  · -- Nothing was filtered out.
    rename_i hlength
    rw [length_filter_eq_length_iff] at hlength
    refine ⟨fun hrule => ⟨hrule, bne_iff_ne.mp (hlength rule hrule)⟩, And.left⟩
  · exact hkept

theorem CondRulesDocument.lacks_remove (ruleId : String) (document : CondRulesDocument) :
    (document.remove ruleId).2.Lacks ruleId :=
  fun _ hrule => (CondRulesDocument.mem_remove.mp hrule).2

theorem CondRulesDocument.Lacks.remove (h : document.Lacks ruleId) (otherId : String) :
    (document.remove otherId).2.Lacks ruleId :=
  fun rule hrule => h rule (CondRulesDocument.mem_remove.mp hrule).1

theorem CondRulesDocument.Lacks.upsert (h : document.Lacks ruleId) {changed : Bool}
    (hne : rule.id ≠ ruleId) (hok : document.upsert rule = .ok (changed, document')) :
    document'.Lacks ruleId := by
  intro item hitem
  unfold CondRulesDocument.upsert at hok
  split at hok
  · split at hok
    · cases hok
      exact h item hitem
    · cases hok
      rcases mem_or_eq_of_mem_set hitem with hold | rfl
      · exact h item hold
      · exact hne
  · split at hok
    · cases hok
    · cases hok
      rcases mem_append.mp hitem with hold | hnew
      · exact h item hold
      · rw [mem_singleton.mp hnew]
        exact hne

theorem CondRulesDocument.Lacks.apply (h : document.Lacks ruleId)
    (hput : ∀ rule, request = .put rule → rule.id ≠ ruleId)
    (hok : request.apply document = .ok document') : document'.Lacks ruleId := by
  cases request with
  | remove otherId =>
    cases hok
    exact h.remove otherId
  | put rule =>
    unfold CondRequest.apply at hok
    simp only [CondRequest.edit] at hok
    cases hupsert : document.upsert rule with
    | error e =>
      rw [hupsert] at hok
      cases hok
    | ok change =>
      rw [hupsert] at hok
      cases hok
      exact h.upsert (hput rule rfl) hupsert

/-- What is not a change is not saved. -/
theorem CondRequest.eq_of_edit (h : request.edit document = .ok (false, document')) :
    document' = document := by
  cases request with
  | remove ruleId =>
    simp only [CondRequest.edit, CondRulesDocument.remove] at h
    split at h
    · cases h
      rfl
    · cases h
  | put rule =>
    simp only [CondRequest.edit, CondRulesDocument.upsert] at h
    split at h
    · split at h
      · cases h
        rfl
      · cases h
    · split at h
      · cases h
      · cases h

theorem serve_append {requests rest : List CondRequest} :
    CondRequest.serve document (requests ++ rest) =
      CondRequest.serve document requests >>= fun d => CondRequest.serve d rest :=
  foldlM_append

theorem serve_singleton : CondRequest.serve document [request] = request.apply document := by
  show (request.apply document >>= fun d => pure d) = request.apply document
  exact bind_pure _

theorem CondRulesDocument.Lacks.serve {requests : List CondRequest} (h : document.Lacks ruleId)
    (hput : ∀ rule, .put rule ∈ requests → rule.id ≠ ruleId)
    (hok : CondRequest.serve document requests = .ok document') : document'.Lacks ruleId := by
  induction requests generalizing document with
  | nil =>
    cases hok
    exact h
  | cons request rest ih =>
    have hsplit : (request.apply document >>= fun d => CondRequest.serve d rest) = .ok document' :=
      hok
    cases happly : request.apply document with
    | error e =>
      rw [happly] at hsplit
      cases hsplit
    | ok next =>
      rw [happly] at hsplit
      have hnext : next.Lacks ruleId :=
        h.apply (fun rule heq => hput rule (heq ▸ mem_cons_self)) happly
      exact ih hnext (fun rule hrule => hput rule (mem_cons_of_mem _ hrule)) hsplit

/-- After a removal, and no later put of the rule, the rule is not in the document. -/
theorem lacks_of_serve {start : CondRulesDocument} {earlier later : List CondRequest}
    (hput : ∀ rule, .put rule ∈ later → rule.id ≠ ruleId)
    (hok : CondRequest.serve start (earlier ++ .remove ruleId :: later) = .ok document) :
    document.Lacks ruleId := by
  rw [serve_append] at hok
  cases hearlier : CondRequest.serve start earlier with
  | error e =>
    rw [hearlier] at hok
    cases hok
  | ok before =>
    rw [hearlier] at hok
    exact (before.lacks_remove ruleId).serve hput hok

end

/-! ### Routes of one owner -/

/-- The kernel has no route of this origin but those of `k`. -/
def NoneBut (origin : Origin) (k : Kernel) (core : DaemonCore) : Prop :=
  ∀ row ∈ core.kernel.routes, row.origin = origin → row ∈ k.routes

section
variable {V : Verdict Fault → Prop} {origin : Origin} {k : Kernel}
variable {core : DaemonCore} {uid : Nat} {ruleId : String}

theorem NoneBut.release (h : NoneBut origin k core)
    (hforeign : origin ≠ .foreign) (resource : OwnedResource) :
    NoneBut origin k { core with kernel := core.kernel.release resource } := by
  intro row hrow ho
  cases resource with
  | route r => exact h row (mem_removeRouteRows.mp hrow).1 ho
  | netRoute r => exact h row (mem_removeRouteRows.mp hrow).1 ho
  | netRule r =>
    have hsame : row ∈ core.kernel.routes := by
      simpa [Kernel.release, Kernel.removeSystemRule] using hrow
    exact h row hsame ho
  | suppressedRoute r =>
    -- What is put back belongs to somebody else.
    rcases mem_addRouteRow.mp hrow with hold | ⟨-, rfl⟩
    · exact h row hold ho
    · exact absurd ho.symm hforeign
  | suppressedRule r =>
    have hsame : row ∈ core.kernel.routes := by
      simpa [Kernel.release, Kernel.addSystemRule] using hrow
    exact h row hsame ho
  | _ => exact h row hrow ho

theorem keeps_rollbackRoutes (l : List AppliedRoute) :
    Keeps V (NoneBut origin k) (rollbackRoutes l) := by
  induction l with
  | nil => exact Keeps.pure _
  | cons route rest ih =>
    have hremove : Keeps V (NoneBut origin k) (removeRoute route) :=
      keeps_onKernel fun core hcore row hrow => hcore row (mem_removeRouteRows.mp hrow).1
    refine Keeps.bind hremove.attempt fun removed => Keeps.bind ih fun left => ?_
    cases removed with
    | ok _ => exact Keeps.pure _
    | error e => exact Keeps.pure _

theorem keeps_applyRoutesTransactional {other : Origin} (hne : other ≠ origin)
    (added l : List AppliedRoute) :
    Keeps V (NoneBut origin k) (applyRoutesTransactional other added l) := by
  induction l generalizing added with
  | nil => exact Keeps.pure _
  | cons route rest ih =>
    have hadd : Keeps V (NoneBut origin k) (addRoute other route) := by
      refine keeps_onKernel fun core hcore row hrow ho => ?_
      rcases mem_addRouteRow.mp hrow with hold | ⟨-, rfl⟩
      · exact hcore row hold ho
      · exact absurd ho hne
    refine Keeps.bind hadd.attempt fun result => ?_
    cases result with
    | ok _ => exact ih _
    | error e => exact Keeps.bind (keeps_rollbackRoutes added) fun _ => Keeps.pure _

theorem keeps_setJournal (f : Journal → Journal) : Keeps V (NoneBut origin k) (setJournal f) :=
  Keeps.modify fun _ h => h

theorem keeps_save : Keeps V (NoneBut origin k) save := Keeps.commit fun _ h => h

theorem keeps_persist : Keeps V (NoneBut origin k) persist :=
  Keeps.bind keeps_save.attempt fun _ => Keeps.pure _

theorem keeps_finishApply {index count : Nat} {attach : Option AttachSpecParams}
    (result : Except (IoError × List AppliedRoute) Unit) :
    Keeps V (NoneBut origin k) (finishApply index attach count result) := by
  cases result with
  | ok _ =>
    exact Keeps.bind (keeps_setJournal _) fun _ => Keeps.bind keeps_persist fun _ => Keeps.pure _
  | error e =>
    refine Keeps.bind ?_ fun _ => Keeps.bind keeps_persist fun _ => Keeps.throw _
    exact Keeps.ite (keeps_setJournal _) (keeps_setJournal _)

/-- Another owner's routes are applied. -/
theorem keeps_applyRoutesInner {owner : Owner} (hne : .daemon uid owner ≠ origin)
    (routes : List AppliedRoute) (attach : Option AttachSpecParams) :
    Keeps V (NoneBut origin k) (applyRoutesInner uid owner routes attach) := by
  have hdemand : Keeps V (NoneBut origin k) (demand (validateApply routes)) :=
    fun core h => wp_demand (fun _ => h) fun _ _ => h
  refine Keeps.bind hdemand fun _ => Keeps.bind (Keeps.gets _) fun found => ?_
  refine Keeps.ite (Keeps.throw _) (Keeps.bind (keeps_setJournal _) fun _ => ?_)
  refine Keeps.bind (Keeps.gets _) fun length => Keeps.bind keeps_save.attempt fun saved => ?_
  cases saved with
  | error e => exact Keeps.bind (keeps_setJournal _) fun _ => Keeps.throw _
  | ok _ =>
    exact Keeps.bind (keeps_applyRoutesTransactional hne [] routes) fun result =>
      keeps_finishApply result

variable (hforeign : origin ≠ .foreign)
include hforeign

/-- The entry of a conditional rule is withdrawn. -/
theorem wp_teardownEntry_noneBut {index : Nat} {entry : JournalEntry}
    (hentry : core.journal[index]? = some entry)
    (howner : entry.owner = .cond ruleId) (h : NoneBut origin k core) :
    wp V (teardownEntry index) (fun _ => NoneBut origin k) (fun _ => NoneBut origin k)
      (NoneBut origin k) core := by
  refine wp_atEntry hentry ?_
  rw [howner]
  -- The journal does not matter, so the kernel alone carries the invariant through the sweep.
  refine wp_mono (wp_teardownGenericEntry
    (J := fun _ _ k' => NoneBut origin k { core with kernel := k' }) hentry h ?_ ?_) ?_ ?_ ?_
  · exact fun _ resource _ k' hk' => NoneBut.release hk' hforeign resource
  · exact fun _ _ _ _ _ hk' => hk'
  · rintro _ _ ⟨k', hk', rfl⟩
    exact hk'
  · rintro _ _ ⟨_, k', -, hk', rfl⟩
    exact hk'
  · rintro _ ⟨-, _, _, k', hk', rfl⟩
    exact hk'

theorem keeps_removeOwnerInner :
    Keeps V (NoneBut origin k) (removeOwnerInner uid (.cond ruleId)) :=
  keepsUntil_removeOwnerInner keeps_persist fun h hentry howner =>
    wp_teardownEntry_noneBut hforeign hentry howner h

/-- A pass over rules of other owners. -/
theorem keeps_otherRules {rules : List UserRule} (hne : ∀ rule ∈ rules, rule.origin ≠ origin)
    (addrs : List IfaceAddr) (observed : List AppliedRoute) :
    Keeps V (NoneBut origin k) (reconcileConditional addrs observed rules) :=
  keepsUntil_reconcileConditional (C := NoneBut origin k) (fun _ _ => keeps_removeOwnerInner hforeign)
    (fun rule hrule routes => keeps_applyRoutesInner (hne rule hrule) routes none) addrs observed

end

/-! ### The history of the requests -/

/-- Whether the request of a thread at this stage has yet to take effect. -/
def CondStage.pending : CondStage → Bool
  | .load | .save _ => true
  | _ => false

/-- Two threads serve different requests. -/
def CondThread.Apart (a b : CondThread) : Prop := ∀ n, a.request = some n → b.request ≠ some n

theorem CondThread.Apart.symm {a b : CondThread} (h : a.Apart b) : b.Apart a :=
  fun n hb ha => h n ha hb

/-- The history next to the document that is stored. -/
structure Serialized (uid : Nat) (start : CondRulesDocument) (w : CondWorld) : Prop where
  document : CondRequest.serve start (w.served w.order) = .ok (w.store.loadUid uid)
  nodup : w.order.Nodup
  bound : ∀ n ∈ w.order, n < w.requests.length
  logged : w.after.length = w.requests.length
  respects : w.order.Pairwise fun a b => b ∉ (w.after[a]?).getD []
  past : ∀ seen ∈ w.after, ∀ n ∈ seen, n ∈ w.order
  returned : ∀ n ∈ w.returned, n ∈ w.order
  arrived : ∀ thread ∈ w.threads, ∀ n, thread.request = some n → n < w.requests.length
  waiting : ∀ thread ∈ w.threads, ∀ n, thread.request = some n →
    (n ∈ w.order ↔ thread.stage.pending = false)
  apart : w.threads.Pairwise CondThread.Apart

namespace Serialized

variable {uid i : Nat} {start : CondRulesDocument} {w : CondWorld} {thread : CondThread}
variable {x : CondStep} {w' : CondWorld}

theorem fresh (uid : Nat) (store : CondRuleStore) (core : DaemonCore) :
    Serialized uid (store.loadUid uid) (.fresh store core) where
  document := rfl
  nodup := .nil
  bound := by simp [CondWorld.fresh]
  logged := rfl
  respects := .nil
  past := by simp [CondWorld.fresh]
  returned := by simp [CondWorld.fresh]
  arrived := by simp [CondWorld.fresh]
  waiting := by simp [CondWorld.fresh]
  apart := .nil

section
variable (h : Serialized uid start w)
include h

variable (request : CondRequest)

/-- No request is numbered past the last. -/
theorem served_requests :
    w.order.filterMap (fun n => (w.requests ++ [request])[n]?) = w.served w.order := by
  refine filterMap_congr fun n hn => ?_
  exact getElem?_append_left (h.bound n hn)

theorem arrive : Serialized uid start
      { w with
        threads := w.threads ++ [⟨some w.requests.length, .load⟩]
        requests := w.requests ++ [request]
        after := w.after ++ [w.returned] } where
  document := by
    show CondRequest.serve start (w.order.filterMap fun n => (w.requests ++ [request])[n]?) = _
    rw [h.served_requests request]
    exact h.document
  nodup := h.nodup
  bound n hn := by
    have hlt := h.bound n hn
    simp only [length_append, length_singleton]
    omega
  logged := by simp [h.logged]
  respects := by
    refine h.respects.imp_of_mem fun {a b} ha _ hab => ?_
    have hlt : a < w.after.length := h.logged ▸ h.bound a ha
    rwa [getElem?_append_left hlt]
  past seen hseen := by
    rcases mem_append.mp hseen with hold | hnew
    · exact h.past seen hold
    · rw [mem_singleton.mp hnew]
      exact h.returned
  returned := h.returned
  arrived thread hthread n hn := by
    simp only [length_append, length_singleton]
    rcases mem_append.mp hthread with hold | hnew
    · have hlt := h.arrived thread hold n hn
      omega
    · rw [mem_singleton.mp hnew] at hn
      cases hn
      omega
  waiting thread hthread n hn := by
    rcases mem_append.mp hthread with hold | hnew
    · exact h.waiting thread hold n hn
    · -- The new request is numbered past all that took effect.
      rw [mem_singleton.mp hnew] at hn ⊢
      cases hn
      refine ⟨fun hmem => absurd (h.bound _ hmem) (Nat.lt_irrefl _), fun hpending => ?_⟩
      cases hpending
  apart := by
    refine pairwise_append.mpr ⟨h.apart, pairwise_singleton .., ?_⟩
    intro a ha b hb n han hbn
    rw [mem_singleton.mp hb] at hbn
    cases hbn
    exact Nat.lt_irrefl _ (h.arrived a ha _ han)

theorem evaluate :
    Serialized uid start { w with threads := w.threads ++ [⟨none, .loadRules⟩] } :=
  { h with
    arrived thread hthread n hn := by
      rcases mem_append.mp hthread with hold | hnew
      · exact h.arrived thread hold n hn
      · rw [mem_singleton.mp hnew] at hn
        cases hn
    waiting thread hthread n hn := by
      rcases mem_append.mp hthread with hold | hnew
      · exact h.waiting thread hold n hn
      · rw [mem_singleton.mp hnew] at hn
        cases hn
    apart := by
      refine pairwise_append.mpr ⟨h.apart, pairwise_singleton .., ?_⟩
      intro a ha b hb n han hbn
      rw [mem_singleton.mp hb] at hbn
      cases hbn }

/-- The core is not part of the history. -/
theorem withCore (core : DaemonCore) : Serialized uid start { w with core } := { h with }

theorem fail (i : Nat) : Serialized uid start (w.fail i) :=
  { h with
    arrived thread hthread := h.arrived thread (mem_of_mem_eraseIdx hthread)
    waiting thread hthread := h.waiting thread (mem_of_mem_eraseIdx hthread)
    apart := h.apart.sublist (eraseIdx_sublist ..) }

theorem finish (hthread : w.threads[i]? = some thread) (hstage : thread.stage.pending = false) :
    Serialized uid start (w.finish i thread) :=
  { h.fail i with
    returned := fun n hn => by
      rcases mem_append.mp hn with hold | hnew
      · exact h.returned n hold
      · have hmem : thread ∈ w.threads := mem_iff_getElem?.mpr ⟨i, hthread⟩
        exact (h.waiting thread hmem n (mem_toList.mp hnew)).mpr hstage }

end

section
variable (h : Serialized uid start w) (hthread : w.threads[i]? = some thread) (stage : CondStage)
include h hthread

theorem arrived_set : ∀ other ∈ w.threads.set i { thread with stage }, ∀ n,
    other.request = some n → n < w.requests.length := by
  intro other hother n hn
  rcases mem_or_eq_of_mem_set hother with hold | rfl
  · exact h.arrived other hold n hn
  · exact h.arrived thread (mem_of_getElem? hthread) n hn

theorem apart_set : (w.threads.set i { thread with stage }).Pairwise CondThread.Apart := by
  rw [set_eq_modify]
  refine pairwise_modify (fun _ _ => CondThread.Apart.symm) h.apart ?_
  intro a _ i' b hne hb
  have hapart : thread.Apart b :=
    pairwise_getElem? (fun _ _ => CondThread.Apart.symm) h.apart hne.symm hthread hb
  exact hapart

/-- The other threads serve other requests. -/
theorem mem_set {other : CondThread} (hother : other ∈ w.threads.set i { thread with stage }) :
    other = { thread with stage } ∨ (other ∈ w.threads ∧ thread.Apart other) := by
  obtain ⟨i', hi'⟩ := mem_iff_getElem?.mp hother
  by_cases hne : i = i'
  · subst hne
    have hlt := (List.getElem?_eq_some_iff.mp hthread).1
    rw [getElem?_set_self hlt] at hi'
    exact .inl (Option.some.inj hi').symm
  · rw [getElem?_set_ne hne] at hi'
    exact .inr ⟨mem_of_getElem? hi',
      pairwise_getElem? (fun _ _ => CondThread.Apart.symm) h.apart hne hthread hi'⟩

end

section
variable (h : Serialized uid start w) (hthread : w.threads[i]? = some thread)
include h hthread

variable {stage : CondStage} {n : Nat} {request : CondRequest}

/-- A stage that says the same about the request. -/
theorem goto (hstage : stage.pending = thread.stage.pending) :
    Serialized uid start (w.goto i thread stage) :=
  { h with
    arrived := h.arrived_set hthread stage
    waiting other hother n hn := by
      rcases h.mem_set hthread stage hother with rfl | ⟨hold, -⟩
      · show n ∈ w.order ↔ stage.pending = false
        rw [hstage]
        exact h.waiting thread (mem_of_getElem? hthread) n hn
      · exact h.waiting other hold n hn
    apart := h.apart_set hthread stage }

/-- The request takes effect: the store has what it makes of the document. -/
theorem effect (hpending : thread.stage.pending = true)
    (hn : thread.request = some n) (hrequest : w.requests[n]? = some request)
    {store : CondRuleStore} (happly : request.apply (w.store.loadUid uid) = .ok (store.loadUid uid))
    (hstage : stage.pending = false) :
    Serialized uid start ((CondWorld.takeEffect thread { w with store }).goto i thread stage) := by
  have hmem : thread ∈ w.threads := mem_iff_getElem?.mpr ⟨i, hthread⟩
  have hnew : n ∉ w.order := fun hn' => by
    rw [h.waiting thread hmem n hn, hpending] at hn'
    cases hn'
  have horder : w.order ++ thread.request.toList = w.order ++ [n] := by
    rw [hn]
    rfl
  have hlt : n < w.requests.length := (List.getElem?_eq_some_iff.mp hrequest).1
  exact
    { document := by
        have hlast : [n].filterMap (fun n => w.requests[n]?) = [request] := by simp [hrequest]
        have hdocument : CondRequest.serve start (w.order.filterMap fun n => w.requests[n]?) =
            .ok (w.store.loadUid uid) := h.document
        show CondRequest.serve start
          ((w.order ++ thread.request.toList).filterMap fun n => w.requests[n]?) = _
        rw [horder, filterMap_append, hlast, serve_append, hdocument]
        show CondRequest.serve (w.store.loadUid uid) [request] = _
        rw [serve_singleton]
        exact happly
      nodup := by
        show (w.order ++ thread.request.toList).Nodup
        rw [horder]
        exact nodup_append.mpr ⟨h.nodup, by simp, fun a ha b hb => by
          rw [mem_singleton.mp hb]
          rintro rfl
          exact hnew ha⟩
      bound := by
        show ∀ m ∈ w.order ++ thread.request.toList, m < w.requests.length
        rw [horder]
        intro m hm
        rcases mem_append.mp hm with hold | hlast
        · exact h.bound m hold
        · rw [mem_singleton.mp hlast]
          exact hlt
      logged := h.logged
      respects := by
        show (w.order ++ thread.request.toList).Pairwise fun a b => b ∉ (w.after[a]?).getD []
        rw [horder]
        refine pairwise_append.mpr ⟨h.respects, pairwise_singleton .., ?_⟩
        intro a ha b hb hseen
        rw [mem_singleton.mp hb] at hseen
        -- What had returned before another request arrived took effect long ago.
        cases hafter : w.after[a]? with
        | none =>
          rw [hafter] at hseen
          cases hseen
        | some seen =>
          rw [hafter] at hseen
          exact hnew (h.past seen (mem_of_getElem? hafter) n hseen)
      past := fun seen hseen m hm => mem_append_left _ (h.past seen hseen m hm)
      returned := fun m hm => mem_append_left _ (h.returned m hm)
      arrived := h.arrived_set hthread stage
      waiting := by
        intro other hother m hm
        show m ∈ w.order ++ thread.request.toList ↔ _
        rw [horder, mem_append, mem_singleton]
        rcases h.mem_set hthread stage hother with rfl | ⟨hold, hapart⟩
        · have hsame : m = n := Option.some.inj (hm.symm.trans hn)
          exact ⟨fun _ => hstage, fun _ => .inr hsame⟩
        · have hother : m ≠ n := fun heq => hapart n hn (heq ▸ hm)
          rw [or_iff_left hother]
          exact h.waiting other hold m hm
      apart := h.apart_set hthread stage }

theorem loadStep (hpending : thread.stage.pending = true)
    (hn : thread.request = some n) (hrequest : w.requests[n]? = some request) :
    Serialized uid start (w.loadStep uid i thread request) := by
  simp only [CondWorld.loadStep]
  cases hedit : request.edit (w.store.loadUid uid) with
  | error e => exact h.fail i
  | ok change =>
    obtain ⟨changed, edited⟩ := change
    cases changed with
    | true => exact h.goto hthread (by rw [hpending]; rfl)
    | false =>
      obtain rfl := CondRequest.eq_of_edit hedit
      have happly : request.apply (w.store.loadUid uid) = .ok (w.store.loadUid uid) := by
        rw [CondRequest.apply, hedit]
        rfl
      exact h.effect hthread hpending hn hrequest happly rfl

/-- A step of a thread. Only a save relies on the condition. -/
theorem advance (hok : w.UpToDate uid (.advance i x)) (hstep : w.advance uid i x thread = some w') :
    Serialized uid start w' := by
  obtain ⟨number, stage⟩ := thread
  cases stage with
  | load =>
    cases hrequest : number.bind fun n => w.requests[n]? with
    | none => simp [CondWorld.advance, hrequest] at hstep
    | some request =>
      obtain ⟨n, hn, hget⟩ := bind_eq_some_iff.mp hrequest
      simp only [CondWorld.advance, hrequest] at hstep
      split at hstep
      · cases hstep
        exact h.fail i
      · cases hstep
        exact h.loadStep hthread rfl hn hget
  | save edited =>
    simp only [CondWorld.advance] at hstep
    split at hstep
    · cases hstep
      exact h.fail i
    · rename_i hanswers
      cases hstep
      have happly := (hok _ hthread).resolve_left hanswers
      obtain ⟨request, hrequest, hedited⟩ := map_eq_some_iff.mp happly
      obtain ⟨n, hn, hget⟩ := bind_eq_some_iff.mp hrequest
      refine h.effect hthread rfl hn hget ?_ rfl
      rw [hedited]
      simp [CondRuleStore.loadUid]
  | loadRules =>
    simp only [CondWorld.advance] at hstep
    split at hstep
    · cases hstep
      exact h.goto hthread rfl
    · cases hstep
      exact h.finish hthread rfl
  | observe rules =>
    simp only [CondWorld.advance] at hstep
    split at hstep
    · cases hstep
      exact h.goto hthread rfl
    · cases hstep
      exact h.finish hthread rfl
  | reconcile rules addrs observed =>
    simp only [CondWorld.advance] at hstep
    split at hstep
    · cases hstep
    · cases hstep
      exact (h.withCore _).finish hthread rfl

end

theorem step (h : Serialized uid start w) {action : CondAction} (hok : w.UpToDate uid action)
    (hstep : w.step uid action = some w') : Serialized uid start w' := by
  cases action with
  | arrive request =>
    simp only [CondWorld.step] at hstep
    split at hstep
    · cases hstep
      exact h
    · cases hstep
      exact h.arrive request
  | evaluate =>
    cases hstep
    exact h.evaluate
  | deny i =>
    simp only [CondWorld.step] at hstep
    split at hstep
    · cases hstep
      exact h.fail i
    · cases hstep
  | advance i x =>
    simp only [CondWorld.step] at hstep
    split at hstep
    · rename_i thread hthread
      exact h.advance hthread hok hstep
    · cases hstep
  | drift core =>
    cases hstep
    exact h.withCore core

/-- Once every request has returned, the order in which they took effect is serial. -/
theorem editsKept (h : Serialized uid start w) : w.EditsKept uid start := by
  intro hall
  refine ⟨w.order, ⟨h.nodup, fun n => ⟨h.bound n, fun hn => ?_⟩, h.respects⟩, h.document⟩
  exact h.returned n (hall n hn)

/-- A rule whose removal has returned is not stored. -/
theorem lacks_removed (h : Serialized uid start w) {ruleId : String} (hremoved : w.Removed ruleId) :
    (w.store.loadUid uid).Lacks ruleId := by
  obtain ⟨earlier, n, later, horder, -, hrequest, hput⟩ := hremoved
  have hserved : w.served w.order = w.served earlier ++ .remove ruleId :: w.served later := by
    rw [horder]
    simp [CondWorld.served, hrequest]
  have hdocument := h.document
  rw [hserved] at hdocument
  exact lacks_of_serve hput hdocument

/-- Only the last stage of an evaluation changes the core. -/
theorem core_advance (hstep : w.advance uid i x thread = some w') :
    w'.core = w.core ∨ ∃ rules addrs observed, thread.stage = .reconcile rules addrs observed ∧
      w'.core = (reconcileConditional addrs observed rules w.core x.schedule).2.1 := by
  obtain ⟨number, stage⟩ := thread
  cases stage with
  | load =>
    simp only [CondWorld.advance] at hstep
    split at hstep
    · split at hstep
      · cases hstep
        exact .inl rfl
      · cases hstep
        simp only [CondWorld.loadStep]
        split <;> exact .inl rfl
    · cases hstep
  | save edited =>
    simp only [CondWorld.advance] at hstep
    split at hstep <;> (cases hstep; exact .inl rfl)
  | loadRules =>
    simp only [CondWorld.advance] at hstep
    split at hstep <;> (cases hstep; exact .inl rfl)
  | observe rules =>
    simp only [CondWorld.advance] at hstep
    split at hstep <;> (cases hstep; exact .inl rfl)
  | reconcile rules addrs observed =>
    simp only [CondWorld.advance] at hstep
    split at hstep
    · cases hstep
    · rename_i hrun
      cases hstep
      exact .inr ⟨rules, addrs, observed, rfl, by rw [hrun]; rfl⟩

/-- An evaluation installs routes of stored rules only. -/
theorem removalsHold (h : Serialized uid start w) (hok : w.UpToDate uid (.advance i x))
    (hstep : w.step uid (.advance i x) = some w') : w.RemovalsHold uid w' := by
  intro ruleId hremoved row hrow horigin
  have hlacks := h.lacks_removed hremoved
  simp only [CondWorld.step] at hstep
  split at hstep
  · rename_i thread hthread
    rcases core_advance hstep with hsame | ⟨rules, addrs, observed, hstage, hcore⟩
    · rw [hsame] at hrow
      exact hrow
    · obtain ⟨number, stage⟩ := thread
      obtain rfl : stage = .reconcile rules addrs observed := hstage
      have hstored := hok _ hthread
      -- The removed rule is not stored, so it is not evaluated.
      have hne : ∀ rule ∈ rules, rule.origin ≠ .daemon uid (.cond ruleId) := by
        intro rule hrule heq
        obtain ⟨huid, hid⟩ : rule.1 = uid ∧ rule.2.id = ruleId := by
          simpa [UserRule.origin] using heq
        obtain ⟨stored, hmem, hsame⟩ := hstored rule hrule huid
        exact hlacks stored hmem (hsame.trans hid)
      have hkeeps : Keeps Verdict.Any (NoneBut (.daemon uid (.cond ruleId)) w.core.kernel)
          (reconcileConditional addrs observed rules) :=
        keeps_otherRules (by simp) hne addrs observed
      have hend := hkeeps.after (fun _ hrow _ => hrow) x.schedule
      rw [hcore] at hrow
      exact hend row hrow horigin
  · cases hstep

end Serialized

/-- Serving the requests of a user in turns. -/
theorem edits_kept (uid : Nat) (store : CondRuleStore) (core : DaemonCore) {w : CondWorld}
    (h : Steps (CondWorld.step uid) (CondWorld.UpToDate uid) (.fresh store core) w) :
    w.EditsKept uid (store.loadUid uid) ∧
      ∀ i x w', w.UpToDate uid (.advance i x) → w.step uid (.advance i x) = some w' →
        w.RemovalsHold uid w' := by
  have hserialized : Serialized uid (store.loadUid uid) w :=
    h.invariant (.fresh uid store core) fun _ _ _ hs hok hstep => hs.step hok hstep
  exact ⟨hserialized.editsKept, fun i x w' hok hstep => hserialized.removalsHold hok hstep⟩

/-! ### Two interleavings -/

/-- A route to a private network through the router of the studio. -/
def studioRoute : PolicyRoute :=
  { destination := .v4 0x0a090000 16, metric := 50, via := some (.v4 0xc0a80101) }

def studioRule (id : String) : ConditionalRouteRule :=
  { id
    name := id
    enabled := true
    condition := .interfaceAddressIn (.v4 0xc0a80100 24)
    routes := [studioRoute] }

/-- The machine is at the studio. -/
def studioStep : CondStep :=
  { storeFails := false
    root := true
    readable := fun _ => true
    addrs := .ok [⟨2, "eth0", .v4 0xc0a80107 24, 0⟩]
    schedule := [] }

def studio : CondWorld := .fresh .empty (.fresh .empty .bare .all)

def studioAfter (actions : List CondAction) : CondWorld :=
  (runActions (CondWorld.step 1000) studio actions).getD studio

/-- Two puts load the same document. -/
def studioPuts : List CondAction :=
  [ .arrive (.put (studioRule "printers")), .arrive (.put (studioRule "scanners")) ] ++
    [0, 1, 0, 1, 0, 0, 0, 0, 0, 0].map fun i => .advance i studioStep

/-- An evaluation starts before a removal and is about to end after it. -/
def studioRemoval : List CondAction :=
  .arrive (.put (studioRule "printers")) :: List.replicate 5 (.advance 0 studioStep) ++
    [.evaluate, .advance 0 studioStep, .advance 0 studioStep] ++
    .arrive (.remove "printers") :: List.replicate 5 (.advance 1 studioStep)

theorem steps_studioAfter {ok : CondWorld → CondAction → Prop} {actions : List CondAction}
    (hok : AllAdmitted (CondWorld.step 1000) ok studio actions)
    (h : (runActions (CondWorld.step 1000) studio actions).isSome = true) :
    Steps (CondWorld.step 1000) ok studio (studioAfter actions) := by
  obtain ⟨w, hw⟩ := isSome_iff_exists.mp h
  refine steps_of_run hok ?_
  rw [studioAfter, hw]
  rfl

/-- The evaluation ends. -/
def studioLate : CondWorld :=
  ((studioAfter studioRemoval).step 1000 (.advance 0 studioStep)).getD studio

/-- The second save takes the first edit back, and the removed rule's route is installed. -/
theorem studio_edits_lost :
    (Steps (CondWorld.step 1000) (fun _ _ => True) studio (studioAfter studioPuts) ∧
      ¬(studioAfter studioPuts).EditsKept 1000 .blank) ∧
    Steps (CondWorld.step 1000) (fun _ _ => True) studio (studioAfter studioRemoval) ∧
      (studioAfter studioRemoval).step 1000 (.advance 0 studioStep) = some studioLate ∧
        ¬(studioAfter studioRemoval).RemovalsHold 1000 studioLate := by
  refine ⟨⟨steps_studioAfter (allAdmitted_true _ _) (by decide +kernel), fun hkept => ?_⟩,
    steps_studioAfter (allAdmitted_true _ _) (by decide +kernel), ?_, fun hhold => ?_⟩
  · have hreturned : ∀ n < (studioAfter studioPuts).requests.length,
        n ∈ (studioAfter studioPuts).returned := by decide +kernel
    have hlength : (studioAfter studioPuts).requests.length = 2 := by decide +kernel
    obtain ⟨order, hserial, hserve⟩ := hkept hreturned
    -- Either order of the two puts leaves two rules.
    have hperm : order.Perm [0, 1] := by
      rw [List.perm_ext_iff_of_nodup hserial.nodup (by decide)]
      intro n
      rw [hserial.complete, hlength]
      simp only [List.mem_cons, List.not_mem_nil, or_false]
      omega
    obtain ⟨a, b, rfl⟩ := List.length_eq_two.mp hperm.length_eq
    have hboth : ∀ a ∈ [0, 1], ∀ b ∈ [0, 1], a ≠ b →
        CondRequest.serve .blank ((studioAfter studioPuts).served [a, b]) ≠
          .ok ((studioAfter studioPuts).store.loadUid 1000) := by
      decide +kernel
    have hne : a ≠ b := by simpa using hserial.nodup
    exact hboth a (hperm.mem_iff.mp (by simp)) b (hperm.mem_iff.mp (by simp)) hne hserve
  · have hsome : ((studioAfter studioRemoval).step 1000 (.advance 0 studioStep)).isSome = true := by
      decide +kernel
    obtain ⟨w', hw'⟩ := Option.isSome_iff_exists.mp hsome
    rw [studioLate, hw']
    rfl
  · have hnone : (studioAfter studioRemoval).core.kernel.routes.rows = [] := by decide +kernel
    have hinstalled : ∃ row ∈ studioLate.core.kernel.routes.rows,
        row.origin = .daemon 1000 (.cond "printers") := by decide +kernel
    obtain ⟨row, hrow, horigin⟩ := hinstalled
    have hremoved : (studioAfter studioRemoval).Removed "printers" :=
      ⟨[0], 1, [], by decide +kernel, by decide +kernel, by decide +kernel,
        by simp [CondWorld.served]⟩
    have hold := hhold "printers" hremoved row hrow horigin
    rw [Table.mem_def, hnone] at hold
    cases hold

/-- A put, an evaluation and a removal, one after another. -/
def studioTurns : List CondAction :=
  .arrive (.put (studioRule "printers")) :: List.replicate 5 (.advance 0 studioStep) ++
    .evaluate :: List.replicate 3 (.advance 0 studioStep) ++
    .arrive (.remove "printers") :: List.replicate 5 (.advance 0 studioStep)

/-- In turns, nothing is lost. -/
theorem studio_edits_kept :
    (studioAfter studioTurns).EditsKept 1000 .blank ∧
      ∀ i x w', (studioAfter studioTurns).UpToDate 1000 (.advance i x) →
        (studioAfter studioTurns).step 1000 (.advance i x) = some w' →
        (studioAfter studioTurns).RemovalsHold 1000 w' := by
  have hadmitted : AllAdmitted (CondWorld.step 1000) (CondWorld.UpToDate 1000) studio
      studioTurns := by decide +kernel
  have hsteps : Steps (CondWorld.step 1000) (CondWorld.UpToDate 1000) studio
      (studioAfter studioTurns) :=
    steps_studioAfter hadmitted (by decide +kernel)
  exact edits_kept 1000 .empty (.fresh .empty .bare .all) hsteps

end NetOrchestrator.Daemon
