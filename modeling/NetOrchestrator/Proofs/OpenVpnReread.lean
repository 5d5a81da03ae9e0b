import NetOrchestrator.Core.OpenVpnReader
import NetOrchestrator.Daemon.Text

/-!
# `Proofs.OpenVpnReread`: what OpenVPN reads of a sanitized configuration

The sanitizer and OpenVPN read the same text with different parsers. The bridge is a list of
`ConfigItem`s: what the sanitizer wrote is their text, line by line (`Written`), and OpenVPN reads
the text of permitted items as those items (`readOpenvpnConfig_text`).

A directive is read back because its words hold no byte that OpenVPN treats specially, and a
block because none of its lines starts with an angle bracket.
-/

namespace NetOrchestrator.Core

open Lib List
open Daemon

/-! ### Plain words -/

/-- A character that the sanitizer lets into an argument. -/
def wordChar (c : Char) : Bool := asciiAlphanumericOr "._:+,=@/-" c

variable {c : Char}

theorem wordChar_ascii (h : wordChar c = true) : c.toNat < 128 := by
  rw [wordChar, asciiAlphanumericOr, Bool.or_eq_true] at h
  rcases h with halnum | hother
  · exact lt_of_isAlphanum halnum
  · have hall : ("._:+,=@/-".toList.all fun d => d.toNat < 128) = true := by decide
    exact of_decide_eq_true (all_eq_true.mp hall c (by simpa using hother))

/-- The byte of a word character has no meaning of its own to OpenVPN. -/
structure PlainByte (b : UInt8) : Prop where
  space : isSpaceByte b = false
  comment : isCommentByte b = false
  quote : (b == quoteByte) = false
  singleQuote : (b == singleQuoteByte) = false
  backslash : (b == backslashByte) = false
  newline : b ≠ newline

instance (b : UInt8) : Decidable (PlainByte b) :=
  decidable_of_iff (isSpaceByte b = false ∧ isCommentByte b = false ∧ (b == quoteByte) = false ∧
    (b == singleQuoteByte) = false ∧ (b == backslashByte) = false ∧ b ≠ newline)
    ⟨fun ⟨h₁, h₂, h₃, h₄, h₅, h₆⟩ => ⟨h₁, h₂, h₃, h₄, h₅, h₆⟩,
      fun h => ⟨h.1, h.2, h.3, h.4, h.5, h.6⟩⟩

/-- A character of a word or of a tag. -/
def tokenChar (c : Char) : Bool := wordChar c || c == '<' || c == '>'

theorem tokenChar_ascii (h : tokenChar c = true) : c.toNat < 128 := by
  simp only [tokenChar, Bool.or_eq_true, beq_iff_eq] at h
  rcases h with (hword | rfl) | rfl
  · exact wordChar_ascii hword
  · decide
  · decide

theorem plainByte_of_tokenChar (h : tokenChar c = true) : PlainByte (asciiByte c) := by
  have hall : ∀ n, n < 128 → tokenChar (Char.ofNat n) = true →
      PlainByte (asciiByte (Char.ofNat n)) := by
    decide
  have hc := hall c.toNat (tokenChar_ascii h)
  rw [Char.ofNat_toNat] at hc
  exact hc h

/-- A word that needs no quotes. -/
structure PlainWord (word : List Char) : Prop where
  ne_nil : word ≠ []
  plain : ∀ c ∈ word, tokenChar c = true

/-! ### One directive line -/

variable {word : List Char} {words : List (List Char)} {tag : List Char}

theorem parametersFrom_plain (parameter : List UInt8)
    (h : ∀ c ∈ word, tokenChar c = true) (rest : List UInt8) :
    parametersFrom .unquoted false parameter (utf8Bytes word ++ rest) =
      parametersFrom .unquoted false (parameter ++ utf8Bytes word) rest := by
  induction word generalizing parameter with
  | nil => simp
  | cons c word ih =>
      have hc : tokenChar c = true := h c (by simp)
      have hplain := plainByte_of_tokenChar hc
      rw [utf8Bytes_cons_ascii (tokenChar_ascii hc), cons_append, parametersFrom]
      simp only [hplain.backslash, hplain.space, escapable, Bool.not_false, Bool.true_and,
        Bool.true_or, Bool.false_and, Bool.false_eq_true, if_false, if_true]
      rw [ih _ fun d hd => h d (by simp [hd]), append_assoc, singleton_append]

/-- A word starts a parameter. -/
theorem parametersFrom_word (h : PlainWord word) (rest : List UInt8) :
    parametersFrom .initial false [] (utf8Bytes word ++ rest) =
      parametersFrom .unquoted false (utf8Bytes word) rest := by
  obtain ⟨hne, hplain⟩ := h
  cases word with
  | nil => exact absurd rfl hne
  | cons c word =>
      have hc : tokenChar c = true := hplain c (by simp)
      have hbyte := plainByte_of_tokenChar hc
      have hword : ∀ d ∈ word, tokenChar d = true := fun d hd => hplain d (by simp [hd])
      have hrest := parametersFrom_plain [asciiByte c] hword rest
      rw [utf8Bytes_cons_ascii (tokenChar_ascii hc), cons_append, parametersFrom]
      simp only [hbyte.backslash, hbyte.space, hbyte.comment, hbyte.quote, hbyte.singleQuote,
        escapable, Bool.not_false, Bool.true_and, Bool.true_or, Bool.false_and,
        Bool.false_eq_true, if_false, if_true]
      simpa using hrest

/-- Words between blanks are read as they are. -/
theorem parametersFrom_words (hne : words ≠ []) (h : ∀ word ∈ words, PlainWord word) :
    parametersFrom .initial false [] (utf8Bytes ([' '].intercalate words) ++ [newline]) =
      some (words.map utf8Bytes) := by
  have hspace : isSpaceByte (asciiByte ' ') = true ∧ (asciiByte ' ' == backslashByte) = false := by
    decide
  have hnewline : isSpaceByte newline = true ∧ (newline == backslashByte) = false := by decide
  induction words with
  | nil => exact absurd rfl hne
  | cons word words ih =>
      cases words with
      | nil =>
          rw [intercalate_singleton, parametersFrom_word (h word (by simp)), parametersFrom]
          simp [hnewline, parametersFrom]
      | cons next words =>
          have hrest := ih (by simp) fun w hw => h w (by simp [mem_cons.mp hw])
          rw [intercalate_cons_cons, utf8Bytes_append, utf8Bytes_append, append_assoc,
            append_assoc, parametersFrom_word (h word (by simp)),
            utf8Bytes_cons_ascii (by decide), utf8Bytes_nil, cons_append, nil_append,
            parametersFrom]
          simp only [hspace, Bool.not_false, Bool.true_and, Bool.false_and, Bool.false_eq_true,
            if_false, if_true]
          rw [hrest]
          rfl

/-! ### Lines -/

/-- A line that fits the buffer comes in one piece. -/
theorem physicalLinesFrom_line {line bytes : List UInt8} (hno : newline ∉ bytes)
    (hfit : line.length + bytes.length + 2 ≤ lineBufferSize) (rest : List UInt8) :
    physicalLinesFrom line (bytes ++ newline :: rest) =
      (line ++ bytes ++ [newline]) :: physicalLinesFrom [] rest := by
  induction bytes generalizing line with
  | nil => simp [physicalLinesFrom]
  | cons b bytes ih =>
      simp only [mem_cons, not_or] at hno
      rw [length_cons] at hfit
      have hcut : ¬(b = newline ∨ lineBufferSize ≤ line.length + 2) := by
        rintro (heq | hfull)
        · exact hno.1 heq.symm
        · omega
      have hfit' : (line ++ [b]).length + bytes.length + 2 ≤ lineBufferSize := by
        simp only [length_append, length_singleton]
        omega
      rw [cons_append, physicalLinesFrom, if_neg hcut, ih hno.2 hfit']
      simp

theorem physicalLines_unlines {lines : List (List Char)}
    (h : ∀ line ∈ lines, '\n' ∉ line ∧ (utf8Bytes line).length ≤ maxLineBytes) :
    physicalLines (utf8Bytes (unlines lines)) =
      lines.map fun line => utf8Bytes line ++ [newline] := by
  induction lines with
  | nil => rfl
  | cons line lines ih =>
      obtain ⟨hno, hlen⟩ := h line (by simp)
      have hbyte : newline ∉ utf8Bytes line := by
        intro hmem
        exact hno ((asciiByte_mem_utf8Bytes (by decide)).mp (show asciiByte '\n' ∈ _ from hmem))
      have hfit : ([] : List UInt8).length + (utf8Bytes line).length + 2 ≤ lineBufferSize := by
        simp only [maxLineBytes] at hlen
        simp only [length_nil, lineBufferSize]
        omega
      have hcons : utf8Bytes (unlines (line :: lines)) =
          utf8Bytes line ++ newline :: utf8Bytes (unlines lines) := by
        show utf8Bytes (line ++ ['\n'] ++ unlines lines) = _
        rw [utf8Bytes_append, utf8Bytes_append, append_assoc]
        rfl
      have hfirst := physicalLinesFrom_line hbyte hfit (utf8Bytes (unlines lines))
      have hrest := ih fun line hline => h line (by simp [hline])
      rw [hcons, physicalLines, hfirst, map_cons, ← hrest]
      simp [physicalLines]

/-! ### Items -/

/-- What the sanitizer writes: a directive, or an inline block with its lines. -/
inductive ConfigItem where
  | directive (name : String) (args : List String)
  | block (tag : String) (content : List String)
  deriving DecidableEq

namespace ConfigItem

def lines : ConfigItem → List (List Char)
  | .directive name args => [[' '].intercalate ((name :: args).map String.toList)]
  | .block tag content =>
      ('<' :: tag.toList ++ ['>']) :: (content.map String.toList ++ ['<' :: '/' :: tag.toList ++ ['>']])

/-- The item as OpenVPN has it. -/
def read : ConfigItem → ReadItem
  | .directive name args =>
      .directive (utf8Bytes name.toList) (args.map fun arg => utf8Bytes arg.toList)
  | .block tag content =>
      .block (utf8Bytes tag.toList) (content.map fun line => utf8Bytes line.toList ++ [newline])

/-- The words of a directive are plain and its name starts with a letter. The tag of a block is a
plain word, and no line of it starts with an angle bracket. -/
def Readable : ConfigItem → Prop
  | .directive name args =>
      (∀ c, name.toList.head? = some c → c.isLower = true) ∧
        ∀ word ∈ name :: args, PlainWord word.toList
  | .block tag content =>
      PlainWord tag.toList ∧
        ∀ line ∈ content, (line.toList.dropWhile isWhitespace).head? ≠ some '<'

end ConfigItem

/-- What OpenVPN takes for a blank is one to the sanitizer, too. -/
theorem isWhitespace_of_isSpaceByte (hc : c.toNat < 128) (h : isSpaceByte (asciiByte c) = true) :
    isWhitespace c = true := by
  have hall : ∀ n, n < 128 → isSpaceByte (asciiByte (Char.ofNat n)) = true →
      isWhitespace (Char.ofNat n) = true := by
    decide
  have hn := hall c.toNat hc
  rw [Char.ofNat_toNat] at hn
  exact hn h

/-- A line that does not start with an angle bracket after its blanks does not start with one
after the blanks of OpenVPN, which are fewer. -/
theorem head?_dropWhile_space {line : List Char}
    (h : (line.dropWhile isWhitespace).head? ≠ some '<') :
    ((utf8Bytes line ++ [newline]).dropWhile isSpaceByte).head? ≠ some lessByte := by
  induction line with
  | nil => decide
  | cons c line ih =>
      rcases Nat.lt_or_ge c.toNat 128 with hc | hc
      · rw [utf8Bytes_cons_ascii hc, cons_append, dropWhile_cons]
        split
        · rename_i hspace
          rw [dropWhile_cons, if_pos (isWhitespace_of_isSpaceByte hc hspace)] at h
          exact ih h
        · intro hhead
          have hless : c = '<' := (asciiByte_inj hc (by decide)).mp (Option.some.inj hhead)
          subst hless
          exact h (by simp [isWhitespace])
      · -- The first byte of the character is no ASCII byte.
        obtain ⟨b, bs, hbs⟩ := exists_cons_of_ne_nil (String.utf8EncodeChar_ne_nil (c := c))
        have hb : 128 ≤ b.toNat := le_of_mem_utf8EncodeChar hc (by rw [hbs]; simp)
        have hspace : isSpaceByte b = false := by
          have hle : b ≤ 0x0d ↔ b.toNat ≤ 13 := UInt8.le_iff_toNat_le
          have hne : b ≠ 0x20 := by
            rintro rfl
            exact absurd hb (by decide)
          simp only [isSpaceByte, hle, beq_eq_false_iff_ne.mpr hne, Bool.false_or,
            Bool.and_eq_false_iff, decide_eq_false_iff_not]
          right
          omega
        rw [utf8Bytes_cons, hbs, cons_append, cons_append, dropWhile_cons, hspace]
        intro hhead
        rw [Option.some.inj hhead] at hb
        exact absurd hb (by decide)

/-! ### Reading the items -/

theorem parameters_line (hne : words ≠ []) (h : ∀ word ∈ words, PlainWord word) :
    parameters (utf8Bytes ([' '].intercalate words) ++ [newline]) = some (words.map utf8Bytes) :=
  parametersFrom_words hne h

/-- A tag is one word. -/
theorem parameters_tag (h : PlainWord tag) :
    parameters (utf8Bytes ('<' :: tag ++ ['>']) ++ [newline]) =
      some [lessByte :: utf8Bytes tag ++ [greaterByte]] := by
  have hword : PlainWord ('<' :: tag ++ ['>']) := by
    refine ⟨by simp, fun c hc => ?_⟩
    simp only [cons_append, mem_cons, mem_append, not_mem_nil, or_false] at hc
    rcases hc with rfl | hc | rfl
    · decide
    · exact h.plain c hc
    · decide
  have hone : ∀ word ∈ ['<' :: tag ++ ['>']], PlainWord word := by simpa using hword
  have hline := parameters_line (by simp) hone
  rw [intercalate_singleton] at hline
  rw [hline, cons_append, map_singleton, utf8Bytes_cons_ascii (by decide), utf8Bytes_append]
  rfl

/-- The content of a block is read up to its closing tag. -/
theorem readItems_block {content : List String}
    (h : ∀ line ∈ content, (line.toList.dropWhile isWhitespace).head? ≠ some '<')
    (before : List (List UInt8)) (more : List (List UInt8)) :
    readItems (some (utf8Bytes tag, before))
        ((content.map fun line => utf8Bytes line.toList ++ [newline]) ++
          (utf8Bytes ('<' :: '/' :: tag ++ ['>']) ++ [newline]) :: more) =
      (readItems none more).map fun items =>
        .block (utf8Bytes tag) (before ++ content.map fun line => utf8Bytes line.toList ++ [newline])
          :: items := by
  induction content generalizing before with
  | nil =>
      have hbytes : utf8Bytes ('<' :: '/' :: tag ++ ['>']) ++ [newline] =
          closingTag (utf8Bytes tag) ++ [newline] := by
        show utf8Bytes ("</".toList ++ tag ++ ['>']) ++ [newline] = _
        rw [utf8Bytes_append, utf8Bytes_append]
        rfl
      have hhead : ∃ rest, closingTag (utf8Bytes tag) ++ [newline] = lessByte :: rest := ⟨_, rfl⟩
      obtain ⟨rest, hrest⟩ := hhead
      have hdrop : (closingTag (utf8Bytes tag) ++ [newline]).dropWhile isSpaceByte =
          closingTag (utf8Bytes tag) ++ [newline] := by
        rw [hrest, dropWhile_cons, if_neg (by decide)]
      rw [map_nil, nil_append, readItems, hbytes, hdrop, if_pos]
      · simp
      · simp
  | cons line content ih =>
      have hline := head?_dropWhile_space (h line (by simp))
      have hnot : ¬(closingTag (utf8Bytes tag)).isPrefixOf
          ((utf8Bytes line.toList ++ [newline]).dropWhile isSpaceByte) = true := by
        intro hprefix
        obtain ⟨rest, hrest⟩ := isPrefixOf_iff_prefix.mp hprefix
        rw [← hrest] at hline
        exact hline rfl
      rw [map_cons, cons_append, readItems, if_neg hnot, ih (fun l hl => h l (by simp [hl]))]
      simp

theorem openingTag_tag (tag : List UInt8) :
    openingTag [lessByte :: tag ++ [greaterByte]] = some tag := by
  simp [openingTag]

/-- A name that starts with a letter is no tag and has no dashes in front. -/
theorem directive_name {name : List Char} (hword : PlainWord name)
    (hlower : ∀ c, name.head? = some c → c.isLower = true) (args : List (List UInt8)) :
    openingTag (utf8Bytes name :: args) = none ∧ bypassDoubledash (utf8Bytes name) = utf8Bytes name := by
  cases name with
  | nil => exact absurd rfl hword.ne_nil
  | cons c name =>
      have hc := hlower c rfl
      have hascii := tokenChar_ascii (hword.plain c (by simp))
      have hall : ∀ n, n < 128 → (Char.ofNat n).isLower = true →
          asciiByte (Char.ofNat n) ≠ lessByte ∧ asciiByte (Char.ofNat n) ≠ dashByte := by
        decide
      have hbyte := hall c.toNat hascii
      rw [Char.ofNat_toNat] at hbyte
      obtain ⟨hless, hdash⟩ := hbyte hc
      rw [utf8Bytes_cons_ascii hascii]
      constructor
      · cases args <;> simp [openingTag, hless]
      · cases utf8Bytes name <;> simp [bypassDoubledash, hdash]

section
variable {items : List ConfigItem} (h : ∀ item ∈ items, item.Readable)
include h

/-- OpenVPN reads the text of readable items as these items. -/
theorem readItems_lines :
    readItems none ((items.flatMap ConfigItem.lines).map fun line => utf8Bytes line ++ [newline]) =
      some (items.map ConfigItem.read) := by
  induction items with
  | nil => rfl
  | cons item items ih =>
      have hrest := ih fun i hi => h i (by simp [hi])
      rw [flatMap_cons, map_append]
      cases item with
      | directive name args =>
          obtain ⟨hlower, hwords⟩ := h (.directive name args) (by simp)
          have hplain : ∀ word ∈ (name :: args).map String.toList, PlainWord word := by
            simpa using hwords
          have hline := parameters_line (by simp) hplain
          obtain ⟨hopen, hname⟩ := directive_name (hwords name (by simp)) hlower
            ((args.map String.toList).map utf8Bytes)
          rw [ConfigItem.lines, map_singleton, singleton_append, readItems, hline]
          simp only [map_cons, hopen, hrest, hname]
          simp [ConfigItem.read]
      | block tag content =>
          obtain ⟨htag, hcontent⟩ := h (.block tag content) (by simp)
          have hblock := @readItems_block tag.toList content hcontent []
            ((items.flatMap ConfigItem.lines).map fun line => utf8Bytes line ++ [newline])
          rw [ConfigItem.lines, map_cons, map_append, map_map, map_singleton,
            cons_append, append_assoc, singleton_append, readItems,
            parameters_tag htag]
          simp only [openingTag_tag]
          rw [hrest] at hblock
          exact hblock

/-- The text of readable items whose lines fit is read as the items. -/
theorem readOpenvpnConfig_text (hfit : ∀ line ∈ items.flatMap ConfigItem.lines,
      '\n' ∉ line ∧ (utf8Bytes line).length ≤ maxLineBytes) :
    readOpenvpnConfig (utf8Bytes (unlines (items.flatMap ConfigItem.lines))) =
      some (items.map ConfigItem.read) := by
  rw [readOpenvpnConfig, physicalLines_unlines hfit, readItems_lines h]

end

end NetOrchestrator.Core
