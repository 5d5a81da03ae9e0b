import Mathlib.Data.List.Nodup
import Mathlib.Data.List.Perm.Subperm

/-!
# `Lib.Names`: items with names, and names that are free

A list of items, some of which have a name. `named xs n` are the items with the name `n`;
`Sole xs n P` says that there is just one and that `P` holds of it. Items are renamed in
place, added at the end and rewritten without touching their names; the lemmas say what
each does to the items of one name.

`firstFree` tries the candidates in turn until one is not in use. As many tries as there are
names in use are enough (`firstFree_not_mem`). The usual candidates are a name and then the name
with a number behind it (`numbered`).
-/

namespace NetOrchestrator.Lib

open List Nat

section
variable {α ν : Type} [DecidableEq ν] (name : α → Option ν)

def named (xs : List α) (n : ν) : List α := xs.filter fun x => name x = some n

/-- Just one item has the name, and the property. -/
def Sole (xs : List α) (n : ν) (P : α → Prop) : Prop := ∃ x, named name xs n = [x] ∧ P x

variable {name} {xs ys : List α} {n m : ν} {x y : α} {i : Nat} {P Q : α → Prop}
  {R : α → α → Prop}

theorem named_eq_nil : named name xs n = [] ↔ ∀ x ∈ xs, name x ≠ some n := by
  simp [named]

theorem mem_named : x ∈ named name xs n ↔ x ∈ xs ∧ name x = some n := by
  simp [named]

theorem named_append : named name (xs ++ ys) n = named name xs n ++ named name ys n := by
  simp [named]

/-- A new item without the name. -/
theorem named_concat_of_ne (h : name y ≠ some n) : named name (xs ++ [y]) n = named name xs n := by
  simp [named, h]

/-- A new item that takes a free name. -/
theorem named_concat_of_eq (hfree : named name xs n = []) (h : name y = some n) :
    named name (xs ++ [y]) n = [y] := by
  rw [named_append, hfree, nil_append]
  simp [named, h]

/-- Rewriting the items without touching the names. -/
theorem named_forall₂ (h : List.Forall₂ R xs ys) (hname : ∀ x y, R x y → name y = name x) :
    List.Forall₂ R (named name xs n) (named name ys n) := by
  induction h with
  | nil => exact .nil
  | cons hxy hrest ih =>
    rename_i x y xs ys
    simp only [named] at ih ⊢
    rw [filter_cons, filter_cons, hname x y hxy]
    split
    · exact .cons hxy ih
    · exact ih

/-- Renaming an item leaves the other names alone. -/
theorem named_set_of_ne (hx : xs[i]? = some x) (hold : name x ≠ some n) (hnew : name y ≠ some n) :
    named name (xs.set i y) n = named name xs n := by
  induction xs generalizing i with
  | nil => rfl
  | cons first rest ih =>
    cases i with
    | zero =>
      obtain rfl : first = x := by simpa using hx
      simp [named, hold, hnew]
    | succ i =>
      have hrest := ih (i := i) (by simpa using hx)
      simp only [named, set_cons_succ] at hrest ⊢
      rw [filter_cons, filter_cons, hrest]

/-- Renaming an item to a free name. -/
theorem named_set_of_eq (hx : xs[i]? = some x) (hfree : named name xs n = [])
    (hnew : name y = some n) : named name (xs.set i y) n = [y] := by
  induction xs generalizing i with
  | nil => simp at hx
  | cons first rest ih =>
    have hfirst : name first ≠ some n := named_eq_nil.mp hfree first (by simp)
    have hrest : named name rest n = [] :=
      named_eq_nil.mpr fun x h => named_eq_nil.mp hfree x (by simp [h])
    cases i with
    | zero =>
      simp only [named] at hrest
      simp [named, hnew, hrest]
    | succ i =>
      have hset := ih (i := i) (by simpa using hx) hrest
      simp only [named, set_cons_succ] at hset ⊢
      rw [filter_cons, hset]
      simp [hfirst]

/-- Renaming an item away adds none to the other names. -/
theorem length_named_set_le (hnew : name y ≠ some n) :
    (named name (xs.set i y) n).length ≤ (named name xs n).length := by
  induction xs generalizing i with
  | nil => simp
  | cons first rest ih =>
    cases i with
    | zero => by_cases hfirst : name first = some n <;> simp [named, hnew, hfirst]
    | succ i =>
      have hrest := ih (i := i)
      simp only [named, set_cons_succ] at hrest ⊢
      by_cases hfirst : name first = some n <;> simp [hfirst, hrest]

theorem length_named (xs : List α) (n : ν) :
    (named name xs n).length = (xs.filterMap name).count n := by
  induction xs with
  | nil => rfl
  | cons x xs ih =>
    simp only [named] at ih ⊢
    cases hx : name x with
    | none => simp [hx, ih]
    | some m => by_cases hm : m = n <;> simp [hx, hm, ih]

variable (h : Sole name xs n P)
include h

theorem Sole.imp (hpq : ∀ x, P x → Q x) : Sole name xs n Q := by
  obtain ⟨x, hx, hp⟩ := h
  exact ⟨x, hx, hpq x hp⟩

theorem Sole.forall₂ (hxs : List.Forall₂ R xs ys) (hname : ∀ x y, R x y → name y = name x)
    (hpq : ∀ x y, R x y → P x → Q y) : Sole name ys n Q := by
  obtain ⟨x, hx, hp⟩ := h
  have hall := named_forall₂ (n := n) hxs hname
  rw [hx] at hall
  obtain ⟨y, rest, hxy, hrest, hy⟩ := forall₂_cons_left_iff.mp hall
  obtain rfl := forall₂_nil_left_iff.mp hrest
  exact ⟨y, hy, hpq x y hxy hp⟩

theorem Sole.length : (named name xs n).length = 1 := by
  obtain ⟨x, hx, -⟩ := h
  rw [hx]
  rfl

theorem Sole.of_mem (hx : x ∈ xs) (hname : name x = some n) : P x := by
  obtain ⟨y, hy, hp⟩ := h
  obtain rfl : x = y := by simpa [hy] using mem_named.mpr ⟨hx, hname⟩
  exact hp

end

/-- What a relation carries over holds of all items on the other side. -/
theorem forall_mem_of_forall₂ {α β : Type} {R : α → β → Prop} {P : α → Prop} {Q : β → Prop}
    {xs : List α} {ys : List β} (h : List.Forall₂ R xs ys) (hR : ∀ a b, P a → R a b → Q b)
    (hP : ∀ a ∈ xs, P a) : ∀ b ∈ ys, Q b := by
  induction h with
  | nil => simp
  | cons hab _ ih =>
    rw [forall_mem_cons] at hP ⊢
    exact ⟨hR _ _ hP.1 hab, ih hP.2⟩

variable {α : Type} (base : String)

theorem forall₂_trans {R : α → α → Prop} (hR : ∀ a b c, R a b → R b c → R a c)
    {xs ys zs : List α} (hxy : List.Forall₂ R xs ys) (hyz : List.Forall₂ R ys zs) :
    List.Forall₂ R xs zs := by
  induction hxy generalizing zs with
  | nil => exact hyz
  | cons h hrest ih =>
    obtain ⟨z, rest, hz, hzs, rfl⟩ := forall₂_cons_left_iff.mp hyz
    exact .cons (hR _ _ _ h hz) (ih hzs)

section
variable {α : Type} {p : α → Bool} {l : List α} {i : Nat} {a b : α}

/-- A search does not see an item that it passes over, before and after it is rewritten. -/
theorem find?_set_of_not (ha : l[i]? = some a) (hp : p a = false) (hb : p b = false) :
    (l.set i b).find? p = l.find? p := by
  induction l generalizing i with
  | nil => rfl
  | cons first rest ih =>
    cases i with
    | zero =>
      obtain rfl : first = a := by simpa using ha
      simp [hp, hb]
    | succ i => rw [set_cons_succ, find?_cons, find?_cons, ih (by simpa using ha)]

/-- The item at the index that a search finds. -/
theorem getElem?_findIdx? (h : l.findIdx? p = some i) : l[i]? = l.find? p := by
  obtain ⟨hlt, hp, hbefore⟩ := findIdx?_eq_some_iff_getElem.mp h
  rw [getElem?_eq_getElem hlt, eq_comm, find?_eq_some_iff_getElem]
  exact ⟨hp, i, hlt, rfl, fun j hj => by simpa using hbefore j hj⟩

/-- What is found in the first part is found in the whole. -/
theorem findIdx?_append_eq_some_iff {first rest : List α} (hi : i < first.length) :
    (first ++ rest).findIdx? p = some i ↔ first.findIdx? p = some i := by
  rw [List.findIdx?_append]
  cases first.findIdx? p with
  | some j => rfl
  | none =>
    simp only [Option.none_or, Option.map_eq_some_iff, reduceCtorEq, iff_false]
    rintro ⟨j, -, rfl⟩
    omega

/-- The first item that is found is of the middle part just where the part before has none and it
has some. -/
theorem findIdx?_middle_iff {first middle rest : List α} :
    (∃ i, (first ++ (middle ++ rest)).findIdx? p = some i ∧ first.length ≤ i ∧
        i < first.length + middle.length) ↔ first.find? p = none ∧ ∃ a ∈ middle, p a = true := by
  rw [List.findIdx?_append, List.findIdx?_append]
  cases hfirst : first.findIdx? p with
  | some j =>
    obtain ⟨hlt, hp, -⟩ := findIdx?_eq_some_iff_getElem.mp hfirst
    have hfound : first.find? p ≠ none := by
      rw [← getElem?_findIdx? hfirst, getElem?_eq_getElem hlt]
      exact Option.some_ne_none _
    simp [hfound]
    omega
  | none =>
    have hnone : first.find? p = none := by
      rw [findIdx?_eq_none_iff] at hfirst
      simpa using hfirst
    cases hmiddle : middle.findIdx? p with
    | some j =>
      obtain ⟨hlt, hp, -⟩ := findIdx?_eq_some_iff_getElem.mp hmiddle
      simp only [Option.none_or, Option.some_or, Option.map_some, Option.some.injEq,
        exists_eq_left', hnone, true_and]
      exact ⟨fun _ => ⟨_, getElem_mem hlt, hp⟩, fun _ => by omega⟩
    | none =>
      rw [findIdx?_eq_none_iff] at hmiddle
      simp only [Option.none_or, Option.map_map, Option.map_eq_some_iff, hnone, true_and]
      constructor
      · rintro ⟨_, ⟨j, -, rfl⟩, -, hlt⟩
        simp at hlt
        omega
      · rintro ⟨a, ha, hpa⟩
        rw [hmiddle a ha] at hpa
        cases hpa

end

section
variable {ν : Type} [DecidableEq ν]

/-- The candidate with the least number from `i` on that is not in use. -/
def firstFree (candidate : Nat → ν) (used : List ν) : Nat → Nat → ν
  | i, 0 => candidate i
  | i, tries + 1 =>
    if candidate i ∈ used then firstFree candidate used (i + 1) tries else candidate i

variable {candidate : Nat → ν} {used : List ν}

theorem exists_firstFree_eq (candidate : Nat → ν) (used : List ν) (i tries : Nat) :
    ∃ k, i ≤ k ∧ firstFree candidate used i tries = candidate k := by
  induction tries generalizing i with
  | zero => exact ⟨i, Nat.le_refl i, rfl⟩
  | succ tries ih =>
    unfold firstFree
    split
    · obtain ⟨k, hk, heq⟩ := ih (i + 1)
      exact ⟨k, by omega, heq⟩
    · exact ⟨i, Nat.le_refl i, rfl⟩

/-- A search that ends on a name in use has met only names in use. -/
theorem used_of_firstFree_mem {i tries : Nat} (h : firstFree candidate used i tries ∈ used) :
    ∀ k ≤ tries, candidate (i + k) ∈ used := by
  induction tries generalizing i with
  | zero =>
    intro k hk
    obtain rfl : k = 0 := by omega
    exact h
  | succ tries ih =>
    intro k hk
    unfold firstFree at h
    split at h
    · rename_i hmem
      cases k with
      | zero => exact hmem
      | succ k =>
        have hrest := ih h k (by omega)
        rwa [show i + (k + 1) = i + 1 + k by omega]
    · rename_i hmem
      exact absurd h hmem

/-- Different candidates cannot all be in use. -/
theorem firstFree_not_mem (hinj : Function.Injective candidate) (i : Nat) :
    firstFree candidate used i used.length ∉ used := by
  intro h
  have hall := used_of_firstFree_mem h
  have hnodup : ((List.range (used.length + 1)).map fun k => candidate (i + k)).Nodup := by
    refine List.Nodup.map ?_ nodup_range
    intro a b hab
    have hsum : i + a = i + b := hinj hab
    omega
  have hsubset : ((List.range (used.length + 1)).map fun k => candidate (i + k)) ⊆ used := by
    intro n hn
    obtain ⟨k, hk, rfl⟩ := mem_map.mp hn
    exact hall k (by simpa [Nat.lt_succ_iff] using hk)
  have hlength := (hnodup.subperm hsubset).length_le
  rw [length_map, length_range] at hlength
  omega

/-- Where the first candidate is free, it is the one taken. -/
theorem firstFree_of_not_mem {i : Nat} (h : candidate i ∉ used) (tries : Nat) :
    firstFree candidate used i tries = candidate i := by
  cases tries with
  | zero => rfl
  | succ tries => rw [firstFree, if_neg h]

/-- The candidate that a search ends on: all the ones before it are in use. -/
theorem firstFree_spec (hinj : Function.Injective candidate) :
    ∃ k, firstFree candidate used 0 used.length = candidate k ∧ candidate k ∉ used ∧
      ∀ j < k, candidate j ∈ used := by
  have hfind : ∀ tries i, ∃ k, i ≤ k ∧ firstFree candidate used i tries = candidate k ∧
      ∀ j, i ≤ j → j < k → candidate j ∈ used := by
    intro tries
    induction tries with
    | zero => exact fun i => ⟨i, Nat.le_refl i, rfl, fun j hj hlt => by omega⟩
    | succ tries ih =>
      intro i
      unfold firstFree
      split
      · rename_i hmem
        obtain ⟨k, hk, heq, hbefore⟩ := ih (i + 1)
        refine ⟨k, by omega, heq, ?_⟩
        intro j hj hlt
        by_cases hij : j = i
        · rw [hij]
          exact hmem
        · exact hbefore j (by omega) hlt
      · exact ⟨i, Nat.le_refl i, rfl, fun j hj hlt => by omega⟩
  obtain ⟨k, -, heq, hbefore⟩ := hfind used.length 0
  have hfree := @firstFree_not_mem ν _ candidate used hinj 0
  rw [heq] at hfree
  exact ⟨k, heq, hfree, fun j hj => hbefore j (by omega) hj⟩

end

/-! ### Numbered names -/

/-- A name, then the name with `-2`, `-3` and so on behind it. -/
def numbered (base : String) (i : Nat) : String := if i = 0 then base else s!"{base}-{i + 1}"

theorem numbered_zero : numbered base 0 = base := rfl

theorem toList_numbered_succ (i : Nat) :
    (numbered base (i + 1)).toList = base.toList ++ '-' :: Nat.toDigits 10 (i + 2) := by
  have htext : numbered base (i + 1) = base ++ "-" ++ (i + 2).repr := rfl
  rw [htext]
  simp

theorem toDigits_injective {radix : Nat} (hradix : 1 < radix) {m n : Nat} (hm : radix ≤ 10)
    (h : Nat.toDigits radix m = Nat.toDigits radix n) : m = n := by
  have hread := congrArg (fun ds => Nat.ofDigitChars radix ds 0) h
  simpa only [ofDigitChars_toDigits hradix hm] using hread

/-- Texts that are cut at the last place where `x` stands. -/
theorem append_cons_inj {x : α} {front front' back back' : List α} (hback : x ∉ back)
    (hback' : x ∉ back') (h : front ++ x :: back = front' ++ x :: back') :
    front = front' ∧ back = back' := by
  rcases append_eq_append_iff.mp h with ⟨more, hfront, hrest⟩ | ⟨more, hfront, hrest⟩
  · cases more with
    | nil => exact ⟨by simp [hfront], (List.cons.inj hrest).2⟩
    | cons y more => exact absurd (by simp [(List.cons.inj hrest).2]) hback
  · cases more with
    | nil => exact ⟨by simp [hfront], (List.cons.inj hrest).2.symm⟩
    | cons y more => exact absurd (by simp [(List.cons.inj hrest).2]) hback'

theorem dash_not_mem_toDigits (n : Nat) : '-' ∉ Nat.toDigits 10 n := by
  intro h
  have hdigit := isDigit_of_mem_toDigits (by omega) (by omega) h
  exact absurd hdigit (by decide)

/-- A number behind a name can be told from the name. -/
theorem numbered_succ_inj {base base' : String} {i j : Nat}
    (h : numbered base (i + 1) = numbered base' (j + 1)) : base = base' ∧ i = j := by
  have hlist := congrArg String.toList h
  rw [toList_numbered_succ, toList_numbered_succ] at hlist
  obtain ⟨hbase, hdigits⟩ := append_cons_inj (dash_not_mem_toDigits _) (dash_not_mem_toDigits _)
    hlist
  have hsum := toDigits_injective (by omega) (by omega) hdigits
  exact ⟨String.toList_injective hbase, by omega⟩

theorem numbered_injective : Function.Injective (numbered base) := by
  have hlonger : ∀ j, numbered base 0 ≠ numbered base (j + 1) := by
    intro j h
    have hlist := congrArg String.toList h
    rw [toList_numbered_succ] at hlist
    simp [numbered_zero] at hlist
  intro i j h
  cases i with
  | zero =>
    cases j with
    | zero => rfl
    | succ j => exact absurd h (hlonger j)
  | succ i =>
    cases j with
    | zero => exact absurd h.symm (hlonger i)
    | succ j => rw [(numbered_succ_inj h).2]

end NetOrchestrator.Lib
