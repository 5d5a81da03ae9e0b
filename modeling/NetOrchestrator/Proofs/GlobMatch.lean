import NetOrchestrator.Core.RouteCheck
import NetOrchestrator.Daemon.Text

/-!
# `Proofs.GlobMatch`: which texts a pattern stands for

`globMatch` looks for the parts of a pattern from left to right and takes the first place of each.
No other choice finds more: what it leaves over ends with whatever any choice leaves over
(`globParts_greedy`). The last part is looked for in the same way, and that the value ends with it
is asked apart. Both hold exactly if the last part ends what the parts before it leave over
(`ended_iff`).
-/

namespace NetOrchestrator.Core

open Daemon (splitChars splitChars_append splitChars_ne_nil splitChars_of_not_mem)

/-- The value is the pattern with some text in the place of each `*`. -/
inductive Expands : List Char → List Char → Prop where
  | nil : Expands [] []
  | char {c : Char} {pattern value : List Char} (hc : c ≠ '*') (h : Expands pattern value) :
      Expands (c :: pattern) (c :: value)
  | star {pattern value : List Char} (gap : List Char) (h : Expands pattern value) :
      Expands ('*' :: pattern) (gap ++ value)

/-- The value consists of these parts with a gap before each. -/
def Gapped : List (List Char) → List Char → Prop
  | [], value => value = []
  | part :: parts, value => ∃ gap rest, value = gap ++ (part ++ rest) ∧ Gapped parts rest

variable {parts : List (List Char)}

theorem expands_iff {pattern value first : List Char}
    (h : splitChars '*' pattern = first :: parts) :
    Expands pattern value ↔ ∃ rest, value = first ++ rest ∧ Gapped parts rest := by
  induction pattern generalizing value first parts with
  | nil =>
    cases h
    constructor
    · intro hexpands
      cases hexpands
      exact ⟨[], rfl, rfl⟩
    · rintro ⟨rest, rfl, rfl⟩
      exact .nil
  | cons c pattern ih =>
    obtain ⟨front, others, hsplit⟩ := List.exists_cons_of_ne_nil (splitChars_ne_nil '*' pattern)
    rw [splitChars, hsplit] at h
    by_cases hc : c = '*'
    · subst hc
      cases h
      constructor
      · intro hexpands
        cases hexpands with
        | char hne => exact absurd rfl hne
        | star gap hrest =>
          obtain ⟨rest, rfl, hparts⟩ := (ih hsplit).mp hrest
          exact ⟨_, rfl, gap, rest, rfl, hparts⟩
      · rintro ⟨_, rfl, gap, rest, rfl, hparts⟩
        exact .star gap ((ih hsplit).mpr ⟨rest, rfl, hparts⟩)
    · rw [if_neg hc] at h
      cases h
      constructor
      · intro hexpands
        cases hexpands with
        | char _ hrest =>
          obtain ⟨rest, rfl, hparts⟩ := (ih hsplit).mp hrest
          exact ⟨rest, rfl, hparts⟩
        | star => exact absurd rfl hc
      · rintro ⟨rest, rfl, hparts⟩
        exact .char hc ((ih hsplit).mpr ⟨rest, rfl, hparts⟩)

/-- Something stands before the first `*` exactly if the pattern does not start with it. -/
theorem head_of_split {front last first : List Char} (h : splitChars '*' front = first :: parts) :
    ((front ++ '*' :: last).head? != some '*') = !first.isEmpty := by
  cases front with
  | nil =>
    cases h
    rfl
  | cons c front =>
    rw [splitChars] at h
    by_cases hc : c = '*'
    · rw [if_pos hc] at h
      cases h
      simp [hc]
    · rw [if_neg hc] at h
      split at h <;> cases h <;> simp [hc]

/-! ### The search -/

section
variable {part value rest last : List Char} {parts more : List (List Char)}

theorem of_afterFirst (h : afterFirst part value = some rest) : ∃ gap, value = gap ++ (part ++ rest) := by
  induction value with
  | nil =>
    rw [afterFirst] at h
    split at h
    · rename_i hempty
      cases h
      exact ⟨[], by simpa using hempty⟩
    · cases h
  | cons c value ih =>
    rw [afterFirst] at h
    split at h
    · rename_i hpart
      cases h
      obtain ⟨tail, htail⟩ := List.isPrefixOf_iff_prefix.mp hpart
      exact ⟨[], by rw [← htail, List.drop_left, List.nil_append]⟩
    · obtain ⟨gap, hgap⟩ := ih h
      exact ⟨c :: gap, by rw [hgap, List.cons_append]⟩

/-- The first place leaves the most. -/
theorem afterFirst_greedy (h : part ++ rest <:+ value) :
    ∃ found, afterFirst part value = some found ∧ rest <:+ found := by
  induction value with
  | nil =>
    obtain ⟨rfl, rfl⟩ := List.append_eq_nil_iff.mp (List.suffix_nil.mp h)
    exact ⟨[], rfl, List.suffix_rfl⟩
  | cons c value ih =>
    rw [afterFirst]
    split
    · rename_i hpart
      obtain ⟨tail, htail⟩ := List.isPrefixOf_iff_prefix.mp hpart
      refine ⟨tail, by rw [← htail, List.drop_left], ?_⟩
      -- Both stand at the end of the value, and the part takes as much of it in both places.
      have hrest : rest <:+ c :: value := (List.suffix_append part rest).trans h
      have hlength := h.length_le
      rw [← htail, List.length_append, List.length_append] at hlength
      exact List.suffix_of_suffix_length_le hrest ⟨part, htail⟩ (by omega)
    · rename_i hpart
      rcases List.suffix_cons_iff.mp h with heq | h
      · exact absurd (List.isPrefixOf_iff_prefix.mpr ⟨rest, heq⟩) hpart
      · exact ih h

theorem globParts_suffix (h : globParts parts false value = some rest) : rest <:+ value := by
  induction parts generalizing value with
  | nil =>
    cases h
    exact List.suffix_rfl
  | cons part parts ih =>
    obtain ⟨found, hfound, hrest⟩ := Option.bind_eq_some_iff.mp h
    obtain ⟨gap, rfl⟩ := of_afterFirst hfound
    rw [← List.append_assoc]
    exact (ih hrest).trans (List.suffix_append _ _)

/-- More text does not hide a part. -/
theorem globParts_greedy {longer : List Char} (hvalue : value <:+ longer)
    (h : globParts parts false value = some rest) :
    ∃ found, globParts parts false longer = some found ∧ rest <:+ found := by
  induction parts generalizing value longer with
  | nil =>
    cases h
    exact ⟨longer, rfl, hvalue⟩
  | cons part parts ih =>
    obtain ⟨found, hfound, hrest⟩ := Option.bind_eq_some_iff.mp h
    obtain ⟨gap, rfl⟩ := of_afterFirst hfound
    obtain ⟨first, hfirst, hbehind⟩ := afterFirst_greedy ((List.suffix_append gap _).trans hvalue)
    obtain ⟨found, hrest⟩ := ih hbehind hrest
    rw [globParts, hfirst]
    exact ⟨found, hrest⟩

theorem globParts_append : globParts (parts ++ more) false value =
      (globParts parts false value).bind (globParts more false) := by
  induction parts generalizing value with
  | nil => rfl
  | cons part parts ih =>
    rw [List.cons_append, globParts, globParts, Option.bind_assoc]
    exact congrArg _ (funext fun _ => ih)

/-- The parts before the last one are found, and the last one ends what they leave over. -/
theorem gapped_iff : Gapped (parts ++ [last]) value ↔
      ∃ rest, globParts (parts.filter fun part => !part.isEmpty) false value = some rest ∧
        last <:+ rest := by
  induction parts generalizing value with
  | nil =>
    constructor
    · rintro ⟨gap, _, rfl, rfl⟩
      exact ⟨_, rfl, by simp⟩
    · rintro ⟨rest, hrest, gap, rfl⟩
      cases hrest
      exact ⟨gap, [], by simp, rfl⟩
  | cons part parts ih =>
    constructor
    · rintro ⟨gap, rest, rfl, hparts⟩
      obtain ⟨left, hleft, hlast⟩ := ih.mp hparts
      by_cases hpart : part = []
      · obtain ⟨found, hfound, hmore⟩ :=
          globParts_greedy (List.suffix_append (gap ++ part) rest) hleft
        rw [List.filter_cons_of_neg (by simp [hpart]), ← List.append_assoc]
        exact ⟨found, hfound, hlast.trans hmore⟩
      · obtain ⟨first, hfirst, hbehind⟩ := afterFirst_greedy (List.suffix_append gap (part ++ rest))
        obtain ⟨found, hfound, hmore⟩ := globParts_greedy hbehind hleft
        rw [List.filter_cons_of_pos (by simp [hpart]), globParts, hfirst]
        exact ⟨found, hfound, hlast.trans hmore⟩
    · rintro ⟨left, hleft, hlast⟩
      by_cases hpart : part = []
      · rw [List.filter_cons_of_neg (by simp [hpart])] at hleft
        exact ⟨[], value, by simp [hpart], ih.mpr ⟨left, hleft, hlast⟩⟩
      · rw [List.filter_cons_of_pos (by simp [hpart])] at hleft
        obtain ⟨first, hfirst, hleft⟩ := Option.bind_eq_some_iff.mp hleft
        obtain ⟨gap, hgap⟩ := of_afterFirst hfirst
        exact ⟨gap, first, hgap, ih.mpr ⟨left, hleft, hlast⟩⟩

/-- Of a part that is found and ends the value, the end is not in use already. -/
theorem ended_iff (hrest : rest <:+ value) :
    (∃ left, afterFirst last rest = some left ∧ (left = [] ∨ last <:+ value)) ↔ last <:+ rest := by
  constructor
  · rintro ⟨left, hleft, hend⟩
    obtain ⟨gap, rfl⟩ := of_afterFirst hleft
    rcases hend with rfl | hend
    · exact ⟨gap, by simp⟩
    · exact List.suffix_of_suffix_length_le hend hrest (by simp; omega)
  · intro hlast
    have hplace : last ++ [] <:+ rest := by simpa using hlast
    obtain ⟨left, hleft, -⟩ := afterFirst_greedy hplace
    exact ⟨left, hleft, .inr (hlast.trans hrest)⟩

theorem globParts_last {tail : List Char} (htail : tail <:+ value) :
    (∃ left, globParts ((parts ++ [last]).filter fun part => !part.isEmpty) false tail = some left ∧
        (last = [] ∨ left = [] ∨ last <:+ value)) ↔
      ∃ rest, globParts (parts.filter fun part => !part.isEmpty) false tail = some rest ∧
        last <:+ rest := by
  rw [List.filter_append, globParts_append]
  by_cases hlast : last = []
  · simp [hlast, globParts]
  · have hfilter : [last].filter (fun part => !part.isEmpty) = [last] := by simp [hlast]
    simp only [hfilter, hlast, false_or, Option.bind_eq_some_iff]
    constructor
    · rintro ⟨left, ⟨rest, hrest, hleft⟩, hend⟩
      obtain ⟨found, hfound, hleft⟩ := Option.bind_eq_some_iff.mp hleft
      cases hleft
      exact ⟨rest, hrest, (ended_iff ((globParts_suffix hrest).trans htail)).mp ⟨left, hfound, hend⟩⟩
    · rintro ⟨rest, hrest, hend⟩
      obtain ⟨left, hleft, hend⟩ := (ended_iff ((globParts_suffix hrest).trans htail)).mpr hend
      exact ⟨left, ⟨rest, hrest, by rw [globParts, hleft]; rfl⟩, hend⟩

/-- Only the first part stands where it has to. -/
theorem globParts_anchored :
    globParts ((part :: parts).filter fun part => !part.isEmpty) (!part.isEmpty) value = some rest ↔
      ∃ tail, value = part ++ tail ∧
        globParts (parts.filter fun part => !part.isEmpty) false tail = some rest := by
  cases part with
  | nil => simp
  | cons c part =>
    rw [List.filter_cons_of_pos rfl]
    show (if _ then _ else _) = _ ↔ _
    constructor
    · intro h
      split at h
      · rename_i hpart
        obtain ⟨tail, rfl⟩ := List.isPrefixOf_iff_prefix.mp hpart
        rw [List.drop_left] at h
        exact ⟨tail, rfl, h⟩
      · cases h
    · rintro ⟨tail, rfl, h⟩
      rw [if_pos (List.isPrefixOf_iff_prefix.mpr (List.prefix_append _ _)), List.drop_left]
      exact h

end

theorem globMatch_iff (pattern value : String) :
    globMatch pattern value = true ↔ Expands pattern.toList value.toList := by
  unfold globMatch
  by_cases hstar : '*' ∈ pattern.toList
  · -- The last part is what stands behind the last `*`.
    obtain ⟨tail, front, hreverse, hnot⟩ :=
      List.eq_append_cons_of_mem (List.mem_reverse.mpr hstar)
    have hpattern : pattern.toList = front.reverse ++ '*' :: tail.reverse := by
      simpa using congrArg List.reverse hreverse
    obtain ⟨first, parts, hfront⟩ :=
      List.exists_cons_of_ne_nil (splitChars_ne_nil '*' front.reverse)
    have hsplit : splitChars '*' pattern.toList = first :: (parts ++ [tail.reverse]) := by
      rw [hpattern, splitChars_append, hfront, splitChars_of_not_mem (by simpa using hnot)]
      rfl
    have hanchor : (pattern.toList.head? != some '*') = !first.isEmpty := by
      rw [hpattern]
      exact head_of_split hfront
    have hlast : (pattern.toList.reverse.takeWhile (· != '*')).reverse = tail.reverse := by
      have hplain : ∀ c ∈ tail, (c != '*') = true := by
        intro c hc
        rw [bne_iff_ne]
        rintro rfl
        exact hnot hc
      rw [hreverse, List.takeWhile_append_of_pos hplain]
      simp
    have hclosed : pattern.toList.getLast? = some '*' ↔ tail = [] := by
      rw [hpattern, ← List.head?_reverse]
      cases tail with
      | nil => simp
      | cons c tail =>
        have hc : c ≠ '*' := fun heq => hnot (by simp [heq])
        simp [hc]
    rw [if_neg (by simpa using hstar), expands_iff hsplit, hsplit, hanchor, hlast]
    simp only [gapped_iff]
    constructor
    · intro h
      split at h
      · cases h
      · rename_i left hleft
        obtain ⟨rest, hvalue, hparts⟩ := globParts_anchored.mp hleft
        have hsuffix : rest <:+ value.toList := hvalue ▸ List.suffix_append first rest
        refine ⟨rest, hvalue, (globParts_last hsuffix).mp ⟨left, hparts, ?_⟩⟩
        have hend : tail = [] ∨ left = [] ∨ tail ≠ [] ∧ tail.reverse <:+ value.toList := by
          simpa [hclosed, or_assoc] using h
        rw [List.reverse_eq_nil_iff]
        exact hend.imp_right (.imp_right And.right)
    · rintro ⟨rest, hvalue, hparts⟩
      have hsuffix : rest <:+ value.toList := hvalue ▸ List.suffix_append first rest
      obtain ⟨left, hleft, hend⟩ := (globParts_last hsuffix).mpr hparts
      rw [globParts_anchored.mpr ⟨rest, hvalue, hleft⟩]
      by_cases hempty : tail = []
      · simp [hclosed.mpr hempty]
      · simpa [hclosed, hempty] using hend
  · rw [if_pos (by simpa using hstar), beq_iff_eq, expands_iff (splitChars_of_not_mem hstar)]
    constructor
    · rintro rfl
      exact ⟨[], by simp, rfl⟩
    · rintro ⟨rest, hvalue, hrest⟩
      cases hrest
      rw [← String.toList_inj, hvalue, List.append_nil]

end NetOrchestrator.Core
