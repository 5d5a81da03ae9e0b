import Mathlib.Data.List.Pairwise
import NetOrchestrator.Core.RoutePlan
import NetOrchestrator.Net.Cover

/-!
# `Proofs.RoutePlan`: the parent of a planned route

A prefix that contains another network stands before its routes in a plan (`compareNets_of_above`),
and of several such prefixes the longest stands last. That is the one the scan backwards finds first
(`parentPrefix_spec`).
-/

namespace NetOrchestrator.Core.RoutePlan

open Net Net.IpNet List Bool

variable {a b : IpNet} {ip : IpAddr}

theorem compareNets_v4 (x y : BitVec 32) (l m : Fin 33) (hx : IpNet.trunc (.v4 x l) = .v4 x l)
    (hy : IpNet.trunc (.v4 y m) = .v4 y m) :
    compareNets (.v4 x l) (.v4 y m) = (compare x.toNat y.toNat).then (compare l.val m.val) := by
  simp only [compareNets, compareNetworks, hx, hy]
  rfl

theorem compareNets_v6 (x y : BitVec 128) (l m : Fin 129) (hx : IpNet.trunc (.v6 x l) = .v6 x l)
    (hy : IpNet.trunc (.v6 y m) = .v6 y m) :
    compareNets (.v6 x l) (.v6 y m) = (compare x.toNat y.toNat).then (compare l.val m.val) := by
  simp only [compareNets, compareNetworks, hx, hy]
  rfl

theorem then_gt {x x' l l' : Nat} (hle : x ≤ x') (hlt : l < l') :
    (compare x' x).then (compare l' l) = .gt := by
  rcases Nat.lt_or_eq_of_le hle with h | rfl
  · rw [Nat.compare_eq_gt.mpr h]
    rfl
  · rw [Nat.compare_eq_eq.mpr rfl, Nat.compare_eq_gt.mpr hlt]
    rfl

/-- A prefix of another's network comes first. -/
theorem compareNets_of_above (ha : a.trunc = a) (hb : b.trunc = b) (hlen : a.len < b.len)
    (hin : a.containsAddr b.trunc.addr = true) : compareNets b a = .gt := by
  rw [hb] at hin
  cases a <;> cases b <;>
    simp only [IpNet.containsAddr, IpNet.containsNet, IpNet.addr, IpAddr.toNet, and_eq_true,
      beq_iff_eq, false_eq_true] at hin
  case v4.v4 x l y m =>
    rw [compareNets_v4 _ _ _ _ hb ha]
    refine then_gt ?_ hlen
    have hx : x = y &&& IpNet.mask 32 l := by
      rw [hin.2]
      exact (IpNet.v4.inj ha).1.symm
    rw [hx, BitVec.toNat_and]
    exact Nat.and_le_left
  case v6.v6 x l y m =>
    rw [compareNets_v6 _ _ _ _ hb ha]
    refine then_gt ?_ hlen
    have hx : x = y &&& IpNet.mask 128 l := by
      rw [hin.2]
      exact (IpNet.v6.inj ha).1.symm
    rw [hx, BitVec.toNat_and]
    exact Nat.and_le_left

theorem len_le_of_containsNet (h : a.containsNet b = true) : a.len ≤ b.len := by
  cases a <;> cases b <;> simp only [IpNet.containsNet, and_eq_true, decide_eq_true_eq,
    false_eq_true] at h
  · exact h.1
  · exact h.1

/-- Of two prefixes with a common address the shorter one contains the other's network. -/
theorem contains_of_shorter (ha : a.containsAddr ip = true) (hb : b.containsAddr ip = true)
    (hlen : a.len < b.len) : a.containsAddr b.trunc.addr = true := by
  rcases nested_of_containsAddr ha hb with h | h
  · exact containsAddr_of_containsNet h (containsAddr_network b)
  · exact absurd (len_le_of_containsNet h) (Nat.not_le.mpr hlen)

section
variable {plan : Plan} {i j : Nat} {route target : PlannedRoute}

theorem above_iff : above target route = true ↔
    route.destination.len < target.destination.len ∧
      route.destination.containsAddr target.destination.trunc.addr = true := by
  rw [above, and_eq_true, decide_eq_true_eq]

/-- A route above another one stands before it. -/
theorem Plan.before (hi : plan.routes[i]? = some target) (hj : plan.routes[j]? = some route)
    (h : above target route = true) : j < i := by
  obtain ⟨hlen, hin⟩ := above_iff.mp h
  have hgt := compareNets_of_above (plan.truncated route (mem_of_getElem? hj))
    (plan.truncated target (mem_of_getElem? hi)) hlen hin
  obtain ⟨hil, rfl⟩ := List.getElem?_eq_some_iff.mp hi
  obtain ⟨hjl, rfl⟩ := List.getElem?_eq_some_iff.mp hj
  rcases Nat.lt_trichotomy j i with h | rfl | h
  · exact h
  · exact absurd hlen (Nat.lt_irrefl _)
  · have hsorted := pairwise_iff_getElem.mp plan.sorted i j hil hjl h
    rw [compareRoutes, hgt] at hsorted
    exact absurd rfl hsorted

/-- The scan backwards stops at the last index in question. -/
theorem find?_reverse_range {p : Nat → Bool} (h : (List.range i).reverse.find? p = some j) :
    p j = true ∧ ∀ k < i, p k = true → k ≤ j := by
  obtain ⟨hp, front, back, hsplit, hfront⟩ := find?_eq_some_iff_append.mp h
  have hdown : (front ++ j :: back).Pairwise fun a b => b < a := by
    rw [← hsplit]
    exact pairwise_reverse.mpr pairwise_lt_range
  refine ⟨hp, fun k hk hpk => ?_⟩
  have hmem : k ∈ front ++ j :: back := by
    rw [← hsplit]
    simpa using hk
  rcases mem_append.mp hmem with hk | hk
  · simpa [hpk] using hfront k hk
  · rcases mem_cons.mp hk with rfl | hk
    · exact Nat.le_refl k
    · have hbehind := (pairwise_append.mp hdown).2.1
      exact Nat.le_of_lt ((pairwise_cons.mp hbehind).1 k hk)

end

/-- No parent is found exactly where no route of the plan has a shorter prefix that contains the
network, and the parent that is found has the longest such prefix. -/
theorem parentPrefix_spec (plan : Plan) (i : Fin plan.routes.length) :
    (parentPrefix i plan.routes = none ↔
      ∀ route ∈ plan.routes, above plan.routes[i] route = false) ∧
    ∀ j, parentPrefix i plan.routes = some j → ∃ parent, plan.routes[j]? = some parent ∧
      above plan.routes[i] parent = true ∧
      parent.destination.family = plan.routes[i].destination.family ∧
      ∀ route ∈ plan.routes, above plan.routes[i] route = true →
        route.destination.len ≤ parent.destination.len := by
  have htarget : plan.routes[i.val]? = some plan.routes[i] := List.getElem?_eq_getElem i.isLt
  have hscan : parentPrefix i plan.routes =
      (List.range i).reverse.find? fun k => plan.routes[k]?.any (above plan.routes[i]) := by
    rw [parentPrefix, htarget]
    rfl
  rw [hscan]
  constructor
  · rw [List.find?_eq_none]
    constructor
    · intro hnone route hroute
      rw [Bool.eq_false_iff]
      intro habove
      obtain ⟨j, hj⟩ := List.mem_iff_getElem?.mp hroute
      have hbefore := Plan.before htarget hj habove
      refine hnone j (by simpa using hbefore) ?_
      rw [hj]
      exact habove
    · intro hnone k _ hany
      obtain ⟨route, hk, habove⟩ := (Option.any_eq_true ..).mp hany
      exact absurd ((hnone route (List.mem_of_getElem? hk)).symm.trans habove) (by decide)
  · intro j hj
    obtain ⟨hany, hlast⟩ := find?_reverse_range hj
    obtain ⟨parent, hparent, habove⟩ := (Option.any_eq_true ..).mp hany
    obtain ⟨hlen, hin⟩ := above_iff.mp habove
    refine ⟨parent, hparent, habove, ?_, fun route hroute hother => ?_⟩
    · rw [← family_of_containsAddr hin, ← IpNet.family_trunc plan.routes[i].destination]
      cases plan.routes[i].destination.trunc <;> rfl
    · obtain ⟨k, hk⟩ := List.mem_iff_getElem?.mp hroute
      have hbehind := hlast k (Plan.before htarget hk hother) (by rw [hk]; exact hother)
      by_contra hlonger
      have hshorter := Nat.not_le.mp hlonger
      -- A longer container would stand behind the parent.
      have hnested := contains_of_shorter hin (above_iff.mp hother).2 hshorter
      have := Plan.before hk hparent (above_iff.mpr ⟨hshorter, hnested⟩)
      omega

/-- Three routes of two profiles. The first contains the second, and not the third. -/
def fieldPlan : Plan where
  routes := [⟨.v4 0x0a000000 8, "field"⟩, ⟨.v4 0x0a140000 16, "barn"⟩, ⟨.v4 0x0b200000 16, "field"⟩]
  truncated := by decide
  sorted := by decide

theorem fieldPlan_parents :
    parentPrefix 1 fieldPlan.routes = some 0 ∧ (∃ parent, fieldPlan.routes[0]? = some parent ∧
      ∀ route ∈ fieldPlan.routes, above fieldPlan.routes[1] route = true →
        route.destination.len ≤ parent.destination.len) ∧
    parentPrefix 2 fieldPlan.routes = none := by
  have hfound : parentPrefix 1 fieldPlan.routes = some 0 := by decide
  obtain ⟨parent, hparent, -, -, hlongest⟩ := (parentPrefix_spec fieldPlan ⟨1, by decide⟩).2 0 hfound
  exact ⟨hfound, ⟨parent, hparent, hlongest⟩, (parentPrefix_spec fieldPlan ⟨2, by decide⟩).1.mpr (by decide)⟩

end NetOrchestrator.Core.RoutePlan
