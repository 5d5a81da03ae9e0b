import NetOrchestrator.Macos.Intents

/-!
# `Proofs.IntentRecords`: wanted routes, verdicts and records

Small facts that the results about the helper's intents share: what `judge` says about a
reading of the table, that an accepted intent or rule wants one route a destination, and what
is recorded after one record was rewritten.
-/

namespace NetOrchestrator.Macos

open Net Lib List
open Daemon (NetIntentSetParams ConditionalRouteRule)
open NetOrchestrator.Core (NetText NetworkView WantedRoute Derivation RouteTarget RouteEntry judge)

/-! ### Verdicts -/

variable {entries : List RouteEntry}

theorem judge_present_iff {wanted : WantedRoute} : judge wanted true entries = .present ↔
      ∃ entry ∈ entries, entry.destination.trunc = wanted.destination ∧
        wanted.target.matches entry = true := by
  have hmem : ∀ entry, entry ∈ (entries.filter fun entry =>
      entry.destination.trunc == wanted.destination) ↔
      entry ∈ entries ∧ entry.destination.trunc = wanted.destination := by
    simp
  simp only [judge, ← and_assoc, ← hmem]
  cases entries.filter fun entry => entry.destination.trunc == wanted.destination with
  | nil => simp
  | cons first rest =>
    have hany : (first :: rest).any wanted.target.matches = true ↔
        ∃ entry, entry ∈ first :: rest ∧ wanted.target.matches entry = true :=
      any_eq_true
    rw [← hany]
    by_cases h : (first :: rest).any wanted.target.matches = true
    · simp only [h, if_true]
    · simp only [h, if_false, reduceCtorEq]

variable {route : WantedRoute} {op : RouteOp} {slot : Slot} {intent : Core.Intent}
  {rule : ConditionalRouteRule} (network : NetworkView)

theorem judge_missing {ours : Bool} (h : judge route ours entries = .missing) :
    ∀ entry ∈ entries, entry.destination.trunc ≠ route.destination := by
  intro entry hentry hdest
  have hmem : entry ∈ entries.filter fun entry => entry.destination.trunc == route.destination :=
    mem_filter.mpr ⟨hentry, by simpa using hdest⟩
  unfold judge at h
  dsimp only at h
  split at h
  · rename_i hnil
    simp [hnil] at hmem
  · split at h
    · split at h <;> cases h
    · cases h

theorem judge_conflicted {rival : Core.Rival} (h : judge route true entries = .conflicted rival) :
    (∃ entry ∈ entries, entry.destination.trunc = route.destination) ∧
      ∀ entry ∈ entries, entry.destination.trunc = route.destination →
        route.target.matches entry = false := by
  have hpresent : judge route true entries ≠ .present := by simp [h]
  rw [ne_eq, judge_present_iff] at hpresent
  refine ⟨?_, ?_⟩
  · by_contra hnone
    have hnil : (entries.filter fun entry => entry.destination.trunc == route.destination) = [] := by
      rw [filter_eq_nil_iff]
      intro entry hentry hdest
      exact hnone ⟨entry, hentry, by simpa using hdest⟩
    simp [judge, hnil] at h
  · intro entry hentry hdest
    rw [Bool.eq_false_iff]
    exact fun hmatch => hpresent ⟨entry, hentry, hdest, hmatch⟩

/-! ### Records by their place -/

/-- There is such an intent or rule. -/
def IntentWorld.Has (w : IntentWorld) : Slot → Prop
  | .intent index => index < w.intents.length
  | .rule index => index < w.rules.length

variable {w : IntentWorld}

theorem mem_recorded : op ∈ w.recorded ↔ ∃ slot, op ∈ w.installed slot := by
  simp only [IntentWorld.recorded, mem_append, mem_flatMap]
  constructor
  · rintro (⟨stored, hstored, hop⟩ | ⟨stored, hstored, hop⟩)
    · obtain ⟨index, hindex⟩ := mem_iff_getElem?.mp hstored
      exact ⟨.intent index, by simpa [IntentWorld.installed, hindex] using hop⟩
    · obtain ⟨index, hindex⟩ := mem_iff_getElem?.mp hstored
      exact ⟨.rule index, by simpa [IntentWorld.installed, hindex] using hop⟩
  · rintro ⟨slot, hop⟩
    cases slot with
    | intent index =>
      cases hindex : w.intents[index]? with
      | none => simp [IntentWorld.installed, hindex] at hop
      | some stored =>
        exact .inl ⟨stored, mem_of_getElem? hindex,
          by simpa [IntentWorld.installed, hindex] using hop⟩
    | rule index =>
      cases hindex : w.rules[index]? with
      | none => simp [IntentWorld.installed, hindex] at hop
      | some stored =>
        exact .inr ⟨stored, mem_of_getElem? hindex,
          by simpa [IntentWorld.installed, hindex] using hop⟩

theorem installed_setInstalled (hhas : w.Has slot) (ops : List RouteOp)
    (other : Slot) : (w.setInstalled slot ops).installed other =
      if other = slot then ops else w.installed other := by
  cases slot with
  | intent index =>
    cases other with
    | intent index' =>
      by_cases hindex : index' = index
      · subst hindex
        have hlt : index' < w.intents.length := hhas
        simp [IntentWorld.setInstalled, IntentWorld.installed, hlt]
      · simp [IntentWorld.setInstalled, IntentWorld.installed, hindex, Ne.symm hindex]
    | rule index' => simp [IntentWorld.setInstalled, IntentWorld.installed]
  | rule index =>
    cases other with
    | intent index' => simp [IntentWorld.setInstalled, IntentWorld.installed]
    | rule index' =>
      by_cases hindex : index' = index
      · subst hindex
        have hlt : index' < w.rules.length := hhas
        simp [IntentWorld.setInstalled, IntentWorld.installed, hlt]
      · simp [IntentWorld.setInstalled, IntentWorld.installed, hindex, Ne.symm hindex]

theorem has_setInstalled {slot other : Slot} (ops : List RouteOp) :
    (w.setInstalled slot ops).Has other ↔ w.Has other := by
  cases slot <;> cases other <;> simp [IntentWorld.setInstalled, IntentWorld.Has]

theorem setInstalled_frame (w : IntentWorld) (slot : Slot) (ops : List RouteOp) :
    (w.setInstalled slot ops).table = w.table ∧ (w.setInstalled slot ops).dump = w.dump ∧
      (w.setInstalled slot ops).deleted = w.deleted ∧
      (w.setInstalled slot ops).clean = w.clean ∧
      (w.setInstalled slot ops).withdrawing = w.withdrawing := by
  cases slot <;> exact ⟨rfl, rfl, rfl, rfl, rfl⟩

/-- What is recorded after one record was rewritten. -/
theorem mem_recorded_setInstalled (hhas : w.Has slot) {ops : List RouteOp} :
    op ∈ (w.setInstalled slot ops).recorded ↔
      op ∈ ops ∨ ∃ other, other ≠ slot ∧ op ∈ w.installed other := by
  rw [mem_recorded]
  simp only [installed_setInstalled hhas]
  constructor
  · rintro ⟨other, hop⟩
    by_cases hother : other = slot
    · rw [if_pos hother] at hop
      exact .inl hop
    · rw [if_neg hother] at hop
      exact .inr ⟨other, hother, hop⟩
  · rintro (hop | ⟨other, hother, hop⟩)
    · exact ⟨slot, by rwa [if_pos rfl]⟩
    · exact ⟨other, by rwa [if_neg hother]⟩

/-! ### What is wanted -/

variable {text : NetText}

theorem parseDestination_trunc {raw : String} {net : IpNet}
    (h : Core.parseDestination text raw = .ok net) : net.trunc = net := by
  unfold Core.parseDestination at h
  dsimp only at h
  split at h
  · cases h
  · rename_i parsed hparsed
    cases hroutable : Core.checkRoutable parsed.trunc with
    | error refusal => simp [hroutable, bind, Except.bind] at h
    | ok _ =>
      obtain rfl : parsed.trunc = net := by simpa [hroutable, bind, Except.bind] using h
      exact IpNet.trunc_trunc parsed

theorem parseDestinations_spec {raws : List String} {seen nets : List IpNet}
    (hseen : seen.Nodup ∧ ∀ net ∈ seen, net.trunc = net)
    (h : Core.parseDestinations text seen raws = .ok nets) :
    nets.Nodup ∧ ∀ net ∈ nets, net.trunc = net := by
  induction raws generalizing seen with
  | nil =>
    obtain rfl : seen = nets := by simpa [Core.parseDestinations] using h
    exact hseen
  | cons raw rest ih =>
    unfold Core.parseDestinations at h
    cases hraw : Core.parseDestination text raw with
    | error refusal => simp [hraw, bind, Except.bind] at h
    | ok net =>
      simp only [hraw, bind, Except.bind] at h
      have htrunc := parseDestination_trunc hraw
      by_cases hmem : seen.contains net = true
      · rw [if_pos hmem] at h
        exact ih hseen h
      · rw [if_neg hmem] at h
        refine ih ⟨?_, ?_⟩ h
        · rw [nodup_append]
          refine ⟨hseen.1, by simp, ?_⟩
          rintro a ha b hb rfl
          obtain rfl : a = net := by simpa using hb
          exact hmem (by simpa using ha)
        · intro other hother
          rcases mem_append.mp hother with hold | hnew
          · exact hseen.2 other hold
          · obtain rfl : other = net := by simpa using hnew
            exact htrunc

theorem normalize_spec {params : NetIntentSetParams} (h : Core.normalize text params = .ok intent) :
    intent.destinations.Nodup ∧ ∀ net ∈ intent.destinations, net.trunc = net := by
  obtain ⟨-, -, -, _, _, hnets, -, rfl⟩ := Core.normalize_eq_ok.mp h
  exact parseDestinations_spec ⟨nodup_nil, by simp⟩ hnets

theorem validateRuleRoutes_spec {routes : List Daemon.PolicyRoute} {seen : List IpNet}
    (h : Core.validateRuleRoutes seen routes = .ok ()) :
    (routes.map Daemon.PolicyRoute.destination).Nodup ∧
      (∀ route ∈ routes, route.destination ∉ seen) ∧
      ∀ route ∈ routes, route.destination.trunc = route.destination := by
  induction routes generalizing seen with
  | nil => simp
  | cons route rest ih =>
    unfold Core.validateRuleRoutes at h
    cases hroute : Core.validateRuleRoute route with
    | error refusal => simp [hroute, bind, Except.bind] at h
    | ok _ =>
      simp only [hroute, bind, Except.bind] at h
      by_cases hmem : seen.contains route.destination = true
      · rw [if_pos hmem] at h
        cases h
      · rw [if_neg hmem] at h
        obtain ⟨hnodup, hfresh, htrunc⟩ := ih h
        have hhead : route.destination.trunc = route.destination := by
          unfold Core.validateRuleRoute at hroute
          by_contra hne
          rw [if_pos hne] at hroute
          cases hroute
        refine ⟨?_, ?_, ?_⟩
        · rw [map_cons, nodup_cons]
          refine ⟨?_, hnodup⟩
          intro hin
          obtain ⟨other, hother, hsame⟩ := mem_map.mp hin
          exact hfresh other hother (by simp [hsame])
        · intro other hother
          rcases mem_cons.mp hother with rfl | hother
          · simpa using hmem
          · exact fun hin => hfresh other hother (mem_cons_of_mem _ hin)
        · intro other hother
          rcases mem_cons.mp hother with rfl | hother
          · exact hhead
          · exact htrunc other hother

theorem validateRule_spec (h : Core.validateRule rule = .ok ()) :
    (rule.routes.map Daemon.PolicyRoute.destination).Nodup ∧
      ∀ route ∈ rule.routes, route.destination.trunc = route.destination := by
  unfold Core.validateRule at h
  split at h
  · cases h
  · split at h
    · cases h
    · split at h
      split at h
      · cases h
      · split at h
        · cases h
        · obtain ⟨hnodup, _, htrunc⟩ := validateRuleRoutes_spec h
          exact ⟨hnodup, htrunc⟩

/-- What is wanted has one route a destination, without host bits. -/
def WellFormed (routes : List WantedRoute) : Prop :=
  (routes.map WantedRoute.destination).Nodup ∧
    ∀ route ∈ routes, route.destination.trunc = route.destination

theorem wellFormed_derivation {protect : Option IpAddr} {routes : List WantedRoute}
    (h : WellFormed routes) : WellFormed (Core.derivation protect routes).wanted :=
  ⟨h.1.sublist (filter_sublist.map _), fun route hroute =>
    h.2 route (mem_filter.mp hroute).1⟩

theorem wellFormed_nil : WellFormed [] := ⟨nodup_nil, by simp⟩

theorem wellFormed_toward {destinations : List IpNet} (target : RouteTarget)
    (h : destinations.Nodup ∧ ∀ net ∈ destinations, net.trunc = net) :
    WellFormed (destinations.map fun destination => ⟨destination, target⟩) := by
  constructor
  · rw [map_map]
    exact (map_id _).symm ▸ h.1
  · intro route hroute
    obtain ⟨net, hnet, rfl⟩ := mem_map.mp hroute
    exact h.2 net hnet

theorem wellFormed_derive
    (h : intent.destinations.Nodup ∧ ∀ net ∈ intent.destinations, net.trunc = net) :
    WellFormed (Core.derive intent network).wanted := by
  have htoward : ∀ target protect, WellFormed (Core.derivation protect
      (intent.destinations.map fun destination => ⟨destination, target⟩)).wanted :=
    fun target protect => wellFormed_derivation (wellFormed_toward target h)
  unfold Core.derive
  dsimp only
  split
  · exact wellFormed_nil
  · split
    · split
      · exact wellFormed_nil
      · split
        · exact htoward _ _
        · exact htoward _ _
    · split
      · exact wellFormed_nil
      · exact htoward _ _
    · split
      · exact wellFormed_nil
      · exact htoward _ _

theorem wellFormed_deriveRule
    (h : Core.validateRule rule = .ok ()) : WellFormed (Core.deriveRule rule network).wanted := by
  obtain ⟨hnodup, htrunc⟩ := validateRule_spec h
  unfold Core.deriveRule
  split
  · exact wellFormed_nil
  · split
    · split
      exact wellFormed_nil
    · rename_i matched hmatched
      apply wellFormed_derivation
      constructor
      · rw [map_map]
        exact hnodup
      · intro route hroute
        obtain ⟨policy, hpolicy, rfl⟩ := mem_map.mp hroute
        exact htrunc policy hpolicy

theorem derivation_some {network : NetworkView} {derivation : Derivation}
    (h : w.derivation text network slot = some derivation) :
    w.Has slot ∧ WellFormed derivation.wanted := by
  cases slot with
  | intent index =>
    obtain ⟨stored, hstored, hrest⟩ := Option.bind_eq_some_iff.mp h
    obtain ⟨intent, hintent, hderive⟩ := Option.bind_eq_some_iff.mp hrest
    obtain rfl := Option.some.inj hderive
    refine ⟨(List.getElem?_eq_some_iff.mp hstored).1, ?_⟩
    cases hnormalize : Core.normalize text stored.params with
    | error refusal => simp [hnormalize, Except.toOption] at hintent
    | ok accepted =>
      obtain rfl : accepted = intent := by simpa [hnormalize, Except.toOption] using hintent
      exact wellFormed_derive network (normalize_spec hnormalize)
  | rule index =>
    obtain ⟨stored, hstored, hderive⟩ := Option.bind_eq_some_iff.mp h
    obtain rfl := Option.some.inj hderive
    exact ⟨(List.getElem?_eq_some_iff.mp hstored).1, wellFormed_deriveRule network stored.accepted⟩

end NetOrchestrator.Macos
