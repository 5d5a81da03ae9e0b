import NetOrchestrator.Daemon.Failover
import NetOrchestrator.Net.IpText
import Mathlib.Data.List.DropRight

/-!
# `Daemon.Text`: facts about trimmed and split texts

`trim` takes the blanks off both ends. What it returns has none there, so that trimming again
changes nothing, and a text without blanks at its ends is returned as it is. `trim_eq_core` says
what is left of a text with blanks around it.

`splitChars` splits at each separator, so that the pieces hold everything but the separators.
-/

namespace NetOrchestrator.Daemon

open List

variable (s : String) {lines : List (List Char)} (net : Net.IpNet)

theorem toList_trim :
    (trim s).toList = (s.toList.dropWhile isWhitespace).rdropWhile isWhitespace := by
  simp [trim, List.rdropWhile]

/-- There is no blank at either end. -/
def NoEdgeBlank (cs : List Char) : Prop :=
  (∀ c, cs.head? = some c → isWhitespace c = false) ∧
    ∀ c, cs.getLast? = some c → isWhitespace c = false

instance (cs : List Char) : Decidable (NoEdgeBlank cs) :=
  decidable_of_iff
    (cs.head?.all (fun c => !isWhitespace c) ∧ cs.getLast?.all (fun c => !isWhitespace c)) (by
      simp [NoEdgeBlank, Option.all_eq_true])

theorem trim_eq_self {s : String} (h : NoEdgeBlank s.toList) : trim s = s := by
  have hfront : s.toList.dropWhile isWhitespace = s.toList := by
    refine dropWhile_eq_self_iff.mpr fun hl => ?_
    have hhead := h.1 _ (head?_eq_getElem? ▸ getElem?_eq_getElem hl)
    simp [hhead]
  have hback : s.toList.rdropWhile isWhitespace = s.toList := by
    refine rdropWhile_eq_self_iff.mpr fun hl => ?_
    have hlast := h.2 _ (getLast?_eq_some_getLast hl)
    simp [hlast]
  rw [← String.toList_inj, toList_trim, hfront, hback]

theorem noEdgeBlank_trim : NoEdgeBlank (trim s).toList := by
  rw [toList_trim]
  set front := s.toList.dropWhile isWhitespace with hfront
  constructor
  · intro c hc
    obtain ⟨tail, htail⟩ := rdropWhile_prefix (p := isWhitespace) (l := front)
    -- the first character is the one that the front ends at
    have hhead : front.head? = some c := by
      rw [← htail]
      cases hkept : front.rdropWhile isWhitespace with
      | nil => simp [hkept] at hc
      | cons d rest =>
        rw [hkept] at hc
        simpa using hc
    have hne : front ≠ [] := by
      intro hnil
      rw [hnil] at hhead
      cases hhead
    have hnot := head_dropWhile_not isWhitespace hne
    have hc' : front.head hne = c := by
      rw [head?_eq_some_head hne] at hhead
      exact Option.some.inj hhead
    rw [← hc']
    exact hnot
  · intro c hc
    have hne : front.rdropWhile isWhitespace ≠ [] := by
      intro hnil
      rw [hnil] at hc
      cases hc
    have hnot := rdropWhile_last_not isWhitespace front hne
    rw [getLast?_eq_some_getLast hne] at hc
    rw [← Option.some.inj hc]
    simpa using hnot

@[simp]
theorem trim_trim : trim (trim s) = trim s := trim_eq_self (noEdgeBlank_trim s)

/-! ### Blanks around a text -/

section
variable {cs front back : List Char} {s : String} {c : Char}

/-- A list of blanks. -/
def Blank (cs : List Char) : Prop := ∀ c ∈ cs, isWhitespace c = true

theorem blank_nil : Blank [] := by simp [Blank]

theorem dropWhile_blank (h : Blank front) (cs : List Char) :
    (front ++ cs).dropWhile isWhitespace = cs.dropWhile isWhitespace := by
  rw [dropWhile_append_of_pos h]

theorem rdropWhile_blank (h : Blank back) (cs : List Char) :
    (cs ++ back).rdropWhile isWhitespace = cs.rdropWhile isWhitespace := by
  rw [List.rdropWhile, reverse_append, dropWhile_blank (by simpa [Blank] using h)]
  rfl

/-- What is left of a text once the blanks around it are cut off. -/
theorem trim_eq_core {core : List Char} (hfront : Blank front) (hcore : NoEdgeBlank core)
    (hback : Blank back) : trim (String.ofList (front ++ core ++ back)) = String.ofList core := by
  rw [← String.toList_inj, toList_trim, String.toList_ofList, String.toList_ofList,
    append_assoc, dropWhile_blank hfront]
  cases core with
  | nil =>
    rw [nil_append, dropWhile_eq_nil_iff.mpr hback]
    rfl
  | cons c rest =>
    have hc : isWhitespace c = false := hcore.1 c rfl
    have hdrop : (c :: rest ++ back).dropWhile isWhitespace = c :: rest ++ back := by
      simp [hc]
    rw [hdrop, rdropWhile_blank hback, rdropWhile_eq_self_iff]
    intro hne
    simp [hcore.2 _ (getLast?_eq_some_getLast hne)]

/-- A text is what trimming leaves, with blanks around it. -/
theorem exists_trim (s : String) :
    ∃ front back, Blank front ∧ Blank back ∧ s.toList = front ++ (trim s).toList ++ back := by
  refine ⟨s.toList.takeWhile isWhitespace, (s.toList.dropWhile isWhitespace).rtakeWhile isWhitespace,
    fun c hc => mem_takeWhile_imp hc, fun c hc => mem_rtakeWhile_imp hc, ?_⟩
  rw [toList_trim, append_assoc, rdropWhile_append_rtakeWhile, takeWhile_append_dropWhile]

/-- Blanks at the ends do not count. -/
theorem trim_blank (hfront : Blank front) (hback : Blank back) (cs : List Char) :
    trim (String.ofList (front ++ cs ++ back)) = trim (String.ofList cs) := by
  obtain ⟨front', back', hfront', hback', hcs⟩ := exists_trim (String.ofList cs)
  have hcore := noEdgeBlank_trim (String.ofList cs)
  rw [String.toList_ofList] at hcs
  have hall : front ++ cs ++ back =
      (front ++ front') ++ (trim (String.ofList cs)).toList ++ (back' ++ back) := by
    calc front ++ cs ++ back
        = front ++ (front' ++ (trim (String.ofList cs)).toList ++ back') ++ back := by rw [← hcs]
      _ = _ := by simp only [append_assoc]
  have hfronts : Blank (front ++ front') := by
    simpa [Blank, or_imp, forall_and] using And.intro hfront hfront'
  have hbacks : Blank (back' ++ back) := by
    simpa [Blank, or_imp, forall_and] using And.intro hback' hback
  rw [hall, trim_eq_core hfronts hcore hbacks, String.ofList_toList]

theorem trim_cons_blank (hc : isWhitespace c = true) (cs : List Char) :
    trim (String.ofList (c :: cs)) = trim (String.ofList cs) := by
  have hblank : Blank [c] := by simpa [Blank] using hc
  simpa using trim_blank hblank blank_nil cs

theorem trim_concat_blank (hc : isWhitespace c = true) (cs : List Char) :
    trim (String.ofList (cs ++ [c])) = trim (String.ofList cs) := by
  have hblank : Blank [c] := by simpa [Blank] using hc
  simpa using trim_blank blank_nil hblank cs

theorem mem_of_mem_trim (h : c ∈ (trim s).toList) : c ∈ s.toList := by
  obtain ⟨front, back, -, -, hs⟩ := exists_trim s
  rw [hs]
  simp [h]

/-- A text that starts with a character keeps it in front. -/
theorem head?_trim (hc : isWhitespace c = false) (h : s.toList.head? = some c) :
    (trim s).toList.head? = some c := by
  obtain ⟨front, back, hfront, hback, hs⟩ := exists_trim s
  cases front with
  | nil =>
    cases hcore : (trim s).toList with
    | nil =>
      rw [hs, hcore, nil_append, nil_append] at h
      have hblank := hback c (mem_of_mem_head? h)
      simp [hblank] at hc
    | cons d rest =>
      rw [hs, hcore] at h
      exact h
  | cons d rest =>
    rw [hs, cons_append, cons_append, head?_cons, Option.some.injEq] at h
    have hblank := hfront d (by simp)
    rw [h] at hblank
    simp [hblank] at hc

/-- A carriage return at the end of a line is a blank. -/
theorem trim_stripCr (line : List Char) :
    trim (String.ofList (if line.getLast? = some '\r' then line.dropLast else line)) =
      trim (String.ofList line) := by
  split
  · rename_i hlast
    have hline : line.dropLast ++ ['\r'] = line := dropLast_append_getLast? _ hlast
    have hblank : isWhitespace '\r' = true := by decide
    have htrim := trim_concat_blank hblank line.dropLast
    rw [hline] at htrim
    exact htrim.symm
  · rfl

/-- The first character that is no blank is the first of the trimmed text. -/
theorem head?_trim_iff (hc : isWhitespace c = false) :
    (trim s).toList.head? = some c ↔ (s.toList.dropWhile isWhitespace).head? = some c := by
  have hblank : Blank (s.toList.takeWhile isWhitespace) := fun d hd => mem_takeWhile_imp hd
  have htrim : trim s = trim (String.ofList (s.toList.dropWhile isWhitespace)) := by
    have hsplit := trim_blank hblank (fun d hd => absurd hd (not_mem_nil (a := d)))
      (s.toList.dropWhile isWhitespace)
    rw [append_nil, takeWhile_append_dropWhile, String.ofList_toList] at hsplit
    exact hsplit
  constructor
  · intro h
    rw [toList_trim] at h
    obtain ⟨tail, htail⟩ := rdropWhile_prefix (p := isWhitespace)
      (l := s.toList.dropWhile isWhitespace)
    rw [← htail]
    cases hkept : (s.toList.dropWhile isWhitespace).rdropWhile isWhitespace with
    | nil => simp [hkept] at h
    | cons d rest =>
      rw [hkept] at h
      exact h
  · intro h
    rw [htrim]
    exact head?_trim hc (by rwa [String.toList_ofList])

end

/-! ### Splitting -/

section
variable {sep : Char} {cs : List Char}

theorem splitOnce_append (h : sep ∉ cs) (ds : List Char) :
    splitOnce sep (cs ++ sep :: ds) = some (cs, ds) := by
  induction cs with
  | nil => simp [splitOnce]
  | cons c cs ih =>
    simp only [mem_cons, not_or] at h
    rw [cons_append, splitOnce, if_neg (Ne.symm h.1), ih h.2]
    rfl

theorem splitOnce_eq_some {parts : List Char × List Char} (h : splitOnce sep cs = some parts) :
    sep ∉ parts.1 ∧ cs = parts.1 ++ sep :: parts.2 := by
  induction cs generalizing parts with
  | nil => cases h
  | cons c cs ih =>
    rw [splitOnce] at h
    split at h
    · rename_i hsep
      cases h
      simp [hsep]
    · rename_i hne
      obtain ⟨rest, hrest, rfl⟩ := Option.map_eq_some_iff.mp h
      obtain ⟨hnot, rfl⟩ := ih hrest
      simp [hnot, Ne.symm hne]

theorem splitChars_eq_splitOn (sep : Char) (cs : List Char) : splitChars sep cs = cs.splitOn sep := by
  induction cs with
  | nil => rfl
  | cons c cs ih =>
    rw [splitChars, splitOn_cons_eq_if_modifyHead]
    by_cases hc : c = sep
    · simp [hc, ih]
    · rw [if_neg hc, if_neg (by simpa using hc), ih]
      cases hsplit : cs.splitOn sep with
      | nil => exact absurd hsplit (splitOn_ne_nil sep cs)
      | cons first rest => rfl

theorem splitChars_append (sep : Char) (cs ds : List Char) :
    splitChars sep (cs ++ sep :: ds) = splitChars sep cs ++ splitChars sep ds := by
  simp only [splitChars_eq_splitOn, splitOn_append_cons_self]

theorem splitChars_of_not_mem (h : sep ∉ cs) : splitChars sep cs = [cs] := by
  rw [splitChars_eq_splitOn, splitOn_eq_singleton h]

theorem splitChars_ne_nil (sep : Char) (cs : List Char) : splitChars sep cs ≠ [] := by
  rw [splitChars_eq_splitOn]
  exact splitOn_ne_nil sep cs

/-- No piece holds the separator, and no piece holds anything new. -/
theorem of_mem_splitChars {piece : List Char} (h : piece ∈ splitChars sep cs) :
    sep ∉ piece ∧ ∀ c ∈ piece, c ∈ cs := by
  induction cs generalizing piece with
  | nil =>
    have hpiece : piece = [] := by simpa [splitChars] using h
    simp [hpiece]
  | cons c cs ih =>
    rw [splitChars] at h
    split at h
    · rcases mem_cons.mp h with rfl | h
      · simp
      · exact ⟨(ih h).1, fun d hd => mem_cons_of_mem _ ((ih h).2 d hd)⟩
    · rename_i hne
      split at h
      · rename_i hnil
        exact absurd hnil (splitChars_ne_nil sep cs)
      · rename_i first rest hsplit
        rw [hsplit] at ih
        rcases mem_cons.mp h with rfl | h
        · have hfirst := @ih first (by simp)
          simp only [mem_cons, not_or, forall_eq_or_imp, true_or, true_and]
          exact ⟨⟨Ne.symm hne, hfirst.1⟩, fun d hd => .inr (hfirst.2 d hd)⟩
        · have hrest := @ih piece (by simp [h])
          exact ⟨hrest.1, fun d hd => mem_cons_of_mem _ (hrest.2 d hd)⟩

/-- Each character but the separator is in a piece. -/
theorem exists_mem_splitChars {c : Char} (hc : c ∈ cs) (hne : c ≠ sep) :
    ∃ piece ∈ splitChars sep cs, c ∈ piece := by
  induction cs with
  | nil => cases hc
  | cons d cs ih =>
    rw [splitChars]
    split
    · rename_i hsep
      have htail : c ∈ cs := (mem_cons.mp hc).resolve_left (hsep ▸ hne)
      obtain ⟨piece, hpiece, hmem⟩ := ih htail
      exact ⟨piece, mem_cons_of_mem _ hpiece, hmem⟩
    · split
      · rename_i hnil
        exact absurd hnil (splitChars_ne_nil sep cs)
      · rename_i first rest hsplit
        rcases mem_cons.mp hc with rfl | hc
        · exact ⟨c :: first, by simp, by simp⟩
        · obtain ⟨piece, hpiece, hmem⟩ := ih hc
          rw [hsplit] at hpiece
          rcases mem_cons.mp hpiece with rfl | hpiece
          · exact ⟨d :: piece, by simp, by simp [hmem]⟩
          · exact ⟨piece, by simp [hpiece], hmem⟩

end

/-! ### Trimmed pieces -/

section
variable {sep : Char} {cs front back : List Char}

/-- The pieces between the separators, trimmed. -/
def pieces (sep : Char) (cs : List Char) : List String :=
  (splitChars sep cs).map fun piece => trim (String.ofList piece)

theorem pieces_append (sep : Char) (cs ds : List Char) :
    pieces sep (cs ++ sep :: ds) = pieces sep cs ++ pieces sep ds := by
  simp only [pieces, splitChars_append, map_append]

theorem pieces_of_not_mem (h : sep ∉ cs) : pieces sep cs = [trim (String.ofList cs)] := by
  simp only [pieces, splitChars_of_not_mem h, map_cons, map_nil]

theorem pieces_cons_blank {c : Char} (hsep : isWhitespace sep = false) (hc : isWhitespace c = true)
    (cs : List Char) : pieces sep (c :: cs) = pieces sep cs := by
  have hne : c ≠ sep := by
    rintro rfl
    simp [hc] at hsep
  rw [pieces, pieces, splitChars, if_neg hne]
  cases hsplit : splitChars sep cs with
  | nil => exact absurd hsplit (splitChars_ne_nil sep cs)
  | cons first rest => rw [map_cons, map_cons, trim_cons_blank hc]

end

/-! ### Lines -/

/-- Lines, each with its end. -/
def unlines (lines : List (List Char)) : List Char := lines.flatMap (· ++ ['\n'])

theorem unlines_append (lines more : List (List Char)) :
    unlines (lines ++ more) = unlines lines ++ unlines more := flatMap_append

/-- The pieces between line ends are the lines, where no line holds an end or ends in a carriage
return. -/
theorem textLines_unlines (h : ∀ line ∈ lines, '\n' ∉ line ∧ line.getLast? ≠ some '\r') :
    textLines (String.ofList (unlines lines)) = lines := by
  have hsplit : splitChars '\n' (unlines lines) = lines ++ [[]] := by
    induction lines with
    | nil => rfl
    | cons line lines ih =>
      have hrest := ih fun l hl => h l (by simp [hl])
      show splitChars '\n' (line ++ ['\n'] ++ unlines lines) = _
      rw [append_assoc, singleton_append, splitChars_append,
        splitChars_of_not_mem (h line (by simp)).1, hrest]
      rfl
  have hstrip : lines.map (fun line => if line.getLast? = some '\r' then line.dropLast else line) =
      lines := by
    refine (map_congr_left fun line hline => ?_).trans (map_id lines)
    rw [if_neg]
    · rfl
    · exact (h line hline).2
  rw [textLines, String.toList_ofList, hsplit, dropLast_concat, getLast?_concat]
  exact hstrip

theorem textLines_unlines_clean (h : ∀ line ∈ lines, '\n' ∉ line ∧ '\r' ∉ line) :
    textLines (String.ofList (unlines lines)) = lines :=
  textLines_unlines fun line hline =>
    ⟨(h line hline).1, fun hlast => (h line hline).2 (mem_of_getLast? hlast)⟩

theorem of_mem_textLines {s : String} {line : List Char} (h : line ∈ textLines s) :
    '\n' ∉ line := by
  have hpiece : ∀ piece ∈ splitChars '\n' s.toList, '\n' ∉ piece :=
    fun piece hpiece => (of_mem_splitChars hpiece).1
  have hclosed : line ∈ (splitChars '\n' s.toList).dropLast.map (fun line =>
      if line.getLast? = some '\r' then line.dropLast else line) → '\n' ∉ line := by
    intro hmem
    obtain ⟨piece, hin, rfl⟩ := mem_map.mp hmem
    have hno := hpiece piece (dropLast_subset _ hin)
    split
    · exact fun hc => hno (dropLast_subset _ hc)
    · exact hno
  simp only [textLines] at h
  split at h
  · exact hclosed h
  · exact hclosed h
  · rename_i last _ hlast
    rcases mem_append.mp h with h | h
    · exact hclosed h
    · rw [mem_singleton.mp h]
      exact hpiece _ (mem_of_getLast? hlast)

/-! ### Addresses and prefixes -/

/-- No address is written with a blank. -/
theorem foreign_of_isWhitespace {c : Char} (h : isWhitespace c = true) : Net.Foreign c := by
  have hrange : c.toNat < 33 ∨ 127 < c.toNat := by
    simp only [isWhitespace, Bool.or_eq_true, Bool.and_eq_true, decide_eq_true_eq, beq_iff_eq] at h
    omega
  have hval : c.val.toNat = c.toNat := rfl
  have hdigit : c.isDigit = false := by
    rw [Char.isDigit, Bool.eq_false_iff]
    simp only [ge_iff_le, ne_eq, Bool.and_eq_true, decide_eq_true_eq, UInt32.le_iff_toNat_le,
      Char.reduceVal, UInt32.reduceToNat]
    omega
  have hlower : ¬('a' ≤ c ∧ c ≤ 'f') := by
    simp only [Char.le_def, UInt32.le_iff_toNat_le, Char.reduceVal, UInt32.reduceToNat]
    omega
  have hupper : ¬('A' ≤ c ∧ c ≤ 'F') := by
    simp only [Char.le_def, UInt32.le_iff_toNat_le, Char.reduceVal, UInt32.reduceToNat]
    omega
  have hvalue : ∀ radix, Net.digitValue radix c = none := by
    intro radix
    simp [Net.digitValue, hdigit, hlower, hupper]
  refine ⟨hvalue 10, hvalue 16, ?_, ?_⟩
  · rintro rfl
    exact absurd h (by decide)
  · rintro rfl
    exact absurd h (by decide)

/-- The text of a prefix has no blank in it. -/
theorem noEdgeBlank_renderNet : NoEdgeBlank (Net.renderNet net).toList := by
  have hno : ∀ c, c ∈ (Net.renderNet net).toList → isWhitespace c = false := by
    intro c hc
    by_contra hblank
    rw [Bool.not_eq_false] at hblank
    have hslash : c ≠ '/' := by
      rintro rfl
      exact absurd hblank (by decide)
    exact Net.not_mem_renderNet (foreign_of_isWhitespace hblank) hslash net hc
  exact ⟨fun c hc => hno c (mem_of_head? hc), fun c hc => hno c (mem_of_getLast? hc)⟩

@[simp]
theorem trim_renderNet : trim (Net.renderNet net) = Net.renderNet net :=
  trim_eq_self (noEdgeBlank_renderNet net)

end NetOrchestrator.Daemon
