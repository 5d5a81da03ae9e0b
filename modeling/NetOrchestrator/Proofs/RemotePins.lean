import NetOrchestrator.Macos.RemotePins
import NetOrchestrator.Proofs.OpenVpnSanitized

/-!
# `Proofs.RemotePins`: what pins change in a config

`PinsExactly` is what `pin_remotes` is for: in the tokens of the lines, the pinned hosts of the
`remote` directives become their addresses, and nothing else changes. `pins_exactly_iff` says when a
sanitized config comes out so.

`pin_remotes` keeps each line where it is and begins or ends no block (`flagged_pinned`), so that
the two configs can be compared line by line. A line of a block is changed where it looks like a
`remote` line (`inside_iff`). A directive comes out wrong where the host is a part of the word
`remote`, since it is that part that is replaced (`directive_iff`).
-/

namespace NetOrchestrator.Macos

open Lib Net NetOrchestrator.Core List Option
open Daemon (isWhitespace textLines textLines_unlines_clean)

/-! ### What is promised -/

/-- A line as it counts: the tokens of a directive, or a line of an inline block. -/
inductive ConfigLine where
  | directive (tokens : Except OpenVpnConfigError (List String))
  | inside (line : List Char)
  deriving DecidableEq

def ConfigLine.of : Bool × List Char → ConfigLine
  | (true, line) => .inside line
  | (false, line) => .directive (tokenize line)

def configLines (config : String) : List ConfigLine :=
  (flagged false (textLines config)).map ConfigLine.of

/-- The line with the address of its host, if that is pinned. -/
def ConfigLine.pin (pinned : Pins) : ConfigLine → ConfigLine
  | .directive (.ok ("remote" :: host :: rest)) =>
    .directive (.ok ("remote" :: (pinned.lookup host).elim host renderIp :: rest))
  | line => line

structure PinsExactly (pinned : Pins) (config out : String) : Prop where
  lines : configLines out = (configLines config).map (·.pin pinned)
  dialed : ∀ host rest, .directive (.ok ("remote" :: host :: rest)) ∈ configLines out →
    pinned.lookup host = none

/-- No pinned host is a part of the word `remote`, and no line of a block reads like a `remote` line
with a pinned host. -/
structure Pinnable (pinned : Pins) (config : String) : Prop where
  apart : ∀ host ip, (host, ip) ∈ pinned → ¬host.toList <:+: "remote".toList
  spared : ∀ line, .inside line ∈ configLines config → ∀ host, remoteHost line = some host →
    pinned.lookup host = none

/-! ### Words -/

section
variable {c : Char} {cs word line : List Char} {words : List (List Char)}

theorem splitWhitespaceFrom_eq (hne : word ≠ []) (cs : List Char) :
    splitWhitespaceFrom word cs = (word ++ cs.takeWhile (!isWhitespace ·)) ::
      splitWhitespace (cs.dropWhile (!isWhitespace ·)) := by
  induction cs generalizing word with
  | nil =>
    rw [splitWhitespaceFrom, if_neg hne]
    simp [splitWhitespace, splitWhitespaceFrom]
  | cons c cs ih =>
    rw [splitWhitespaceFrom]
    by_cases hc : isWhitespace c = true
    · rw [if_pos hc, if_neg hne, takeWhile_cons, dropWhile_cons]
      simp [hc, splitWhitespace, splitWhitespaceFrom]
    · rw [if_neg hc, ih (by simp), takeWhile_cons, dropWhile_cons]
      simp [hc]

theorem splitWhitespace_dropWhile (cs : List Char) :
    splitWhitespace (cs.dropWhile isWhitespace) = splitWhitespace cs := by
  induction cs with
  | nil => rfl
  | cons c cs ih =>
    by_cases hc : isWhitespace c = true
    · rw [dropWhile_cons, if_pos hc, ih, splitWhitespace, splitWhitespace,
        splitWhitespaceFrom, if_pos hc, if_pos rfl]
    · rw [dropWhile_cons, if_neg hc]

/-- The first word stands right behind the blanks. -/
theorem of_splitWhitespace (h : splitWhitespace line = word :: words) :
    word ≠ [] ∧ ∃ rest, line.dropWhile isWhitespace = word ++ rest ∧
      splitWhitespace rest = words := by
  rw [← splitWhitespace_dropWhile] at h
  cases hline : line.dropWhile isWhitespace with
  | nil =>
    rw [hline] at h
    cases h
  | cons c cs =>
    have hc : ¬isWhitespace c = true := by
      have hhead := head?_dropWhile_not isWhitespace line
      rw [hline] at hhead
      simpa using hhead
    rw [hline, splitWhitespace, splitWhitespaceFrom, if_neg hc, nil_append,
      splitWhitespaceFrom_eq (by simp)] at h
    obtain ⟨rfl, rfl⟩ := List.cons.inj h
    refine ⟨by simp, cs.dropWhile (!isWhitespace ·), ?_, rfl⟩
    rw [append_assoc, takeWhile_append_dropWhile]
    rfl

/-- A character of a plain word means nothing to a reader of lines. -/
theorem plain_of_tokenChar (h : tokenChar c = true) :
    isWhitespace c = false ∧ isAsciiWhitespace c = false ∧ isCommentChar c = false ∧
      isQuote c = false ∧ badInToken none c = false := by
  have hall : ∀ n, n < 128 → tokenChar (Char.ofNat n) = true →
      isWhitespace (Char.ofNat n) = false ∧ isAsciiWhitespace (Char.ofNat n) = false ∧
        isCommentChar (Char.ofNat n) = false ∧ isQuote (Char.ofNat n) = false ∧
          badInToken none (Char.ofNat n) = false := by
    decide
  have hc := hall c.toNat (tokenChar_ascii h)
  rw [Char.ofNat_toNat] at hc
  exact hc h

theorem tokenizeFrom_plain (h : ∀ c ∈ cs, tokenChar c = true) (token rest : List Char) :
    tokenizeFrom (.inside none token) (cs ++ rest) =
      tokenizeFrom (.inside none (token ++ cs)) rest := by
  induction cs generalizing token with
  | nil => simp
  | cons c cs ih =>
    obtain ⟨-, hblank, -, -, hfine⟩ := plain_of_tokenChar (h c (by simp))
    rw [cons_append, tokenizeFrom]
    simp only [reduceCtorEq, if_false, isNone_none, hblank, hfine, Bool.and_false,
      Bool.false_eq_true]
    rw [ih fun d hd => h d (by simp [hd]), append_assoc, singleton_append]

theorem tokenizeFrom_word (h : PlainWord word) (rest : List Char) :
    tokenizeFrom .between (word ++ rest) = tokenizeFrom (.inside none word) rest := by
  obtain ⟨hne, hplain⟩ := h
  cases word with
  | nil => exact absurd rfl hne
  | cons c cs =>
    obtain ⟨-, hblank, hcomment, hquote, hfine⟩ := plain_of_tokenChar (hplain c (by simp))
    rw [cons_append, tokenizeFrom]
    simp only [hblank, hcomment, hquote, hfine, Bool.false_eq_true, if_false]
    exact tokenizeFrom_plain (fun d hd => hplain d (by simp [hd])) [c] rest

/-- Plain words between blanks are the tokens. -/
theorem tokenize_words (h : ∀ word ∈ words, PlainWord word) :
    tokenize ([' '].intercalate words) = .ok (words.map String.ofList) := by
  induction words with
  | nil => rfl
  | cons word words ih =>
    have hword := h word mem_cons_self
    have htail := ih fun w hw => h w (mem_cons_of_mem _ hw)
    cases words with
    | nil =>
      have hone := tokenizeFrom_word hword []
      rw [append_nil] at hone
      rw [intercalate_singleton, tokenize, hone]
      rfl
    | cons next words =>
      rw [intercalate_cons_cons, tokenize, append_assoc, tokenizeFrom_word hword,
        singleton_append, tokenizeFrom]
      simp only [reduceCtorEq, if_false, show isAsciiWhitespace ' ' = true by decide,
        isNone_none, Bool.and_self, if_true]
      rw [tokenize] at htail
      rw [htail]
      rfl

theorem splitWhitespace_word (h : PlainWord word) {rest : List Char}
    (hrest : rest.head?.all isWhitespace = true) :
    splitWhitespace (word ++ rest) = word :: splitWhitespace rest := by
  have hsolid : ∀ c ∈ word, isWhitespace c = false :=
    fun c hc => (plain_of_tokenChar (h.plain c hc)).1
  have hcut : rest.takeWhile (!isWhitespace ·) = [] ∧ rest.dropWhile (!isWhitespace ·) = rest := by
    cases rest with
    | nil => exact ⟨rfl, rfl⟩
    | cons c cs =>
      have hc : isWhitespace c = true := by simpa using hrest
      simp [hc]
  cases word with
  | nil => exact absurd rfl h.ne_nil
  | cons c cs =>
    have hcs : ∀ d ∈ cs, (!isWhitespace d) = true := fun d hd => by
      simp [hsolid d (mem_cons_of_mem _ hd)]
    rw [cons_append, splitWhitespace, splitWhitespaceFrom,
      if_neg (by simp [hsolid c mem_cons_self]), nil_append,
      splitWhitespaceFrom_eq (by simp), takeWhile_append_of_pos hcs,
      dropWhile_append_of_pos hcs, hcut.1, hcut.2]
    simp

/-- Plain words between blanks are the words. -/
theorem splitWhitespace_words (h : ∀ word ∈ words, PlainWord word) :
    splitWhitespace ([' '].intercalate words) = words := by
  induction words with
  | nil => rfl
  | cons word words ih =>
    have hword := h word mem_cons_self
    have htail := ih fun w hw => h w (mem_cons_of_mem _ hw)
    cases words with
    | nil =>
      have hone : splitWhitespace (word ++ []) = word :: splitWhitespace [] :=
        splitWhitespace_word hword rfl
      rw [append_nil] at hone
      rw [intercalate_singleton, hone]
      rfl
    | cons next words =>
      have hblank : isWhitespace ' ' = true := by decide
      rw [intercalate_cons_cons, append_assoc, singleton_append,
        splitWhitespace_word hword (by simp [hblank]), splitWhitespace, splitWhitespaceFrom,
        if_pos hblank, if_pos rfl]
      rw [splitWhitespace] at htail
      rw [htail]

end

/-! ### Blocks -/

section
variable {line : List Char} {lines : List (List Char)} {items : List ConfigItem} {staging : String}

theorem noTag_of_head (h : (line.dropWhile isWhitespace).head? ≠ some '<') :
    opensBlock line = false ∧ closesBlock line = false := by
  unfold opensBlock closesBlock
  cases hline : line.dropWhile isWhitespace with
  | nil => exact ⟨rfl, rfl⟩
  | cons c cs =>
    have hne : '<' ≠ c := by
      rintro rfl
      exact h (by rw [hline]; rfl)
    simp [hne]

/-- A change that keeps the lines with tags keeps the blocks. -/
theorem flagged_map {f : List Char → List Char} (hopens : ∀ line, opensBlock (f line) = opensBlock line)
    (hcloses : ∀ line, closesBlock (f line) = closesBlock line) (inBlock : Bool) :
    flagged inBlock (lines.map f) = (flagged inBlock lines).map fun x => (x.1, f x.2) := by
  induction lines generalizing inBlock with
  | nil => rfl
  | cons line lines ih =>
    rw [map_cons, flagged, flagged, hopens, hcloses]
    split
    · rw [ih, map_cons]
    · split
      · rw [ih, map_cons]
      · rw [ih, map_cons]

theorem flagged_content {content : List (List Char)} {close : List Char}
    (hcontent : ∀ line ∈ content, closesBlock line = false) (hclose : closesBlock close = true)
    (rest : List (List Char)) : flagged true (content ++ close :: rest) =
      (content ++ [close]).map (true, ·) ++ flagged false rest := by
  induction content with
  | nil => simp [flagged, hclose]
  | cons line content ih =>
    rw [cons_append, flagged, if_pos rfl, hcontent line mem_cons_self, Bool.not_false,
      ih fun l hl => hcontent l (mem_cons_of_mem _ hl)]
    rfl

def isBlock : ConfigItem → Bool
  | .directive _ _ => false
  | .block _ _ => true

theorem tags_of_mem_inlineTags {tag : String} (h : tag ∈ inlineTags) :
    opensBlock ('<' :: tag.toList ++ ['>']) = true ∧
      closesBlock ('<' :: '/' :: tag.toList ++ ['>']) = true := by
  have hall : ∀ tag ∈ inlineTags, opensBlock ('<' :: tag.toList ++ ['>']) = true ∧
      closesBlock ('<' :: '/' :: tag.toList ++ ['>']) = true := by
    decide
  exact hall tag h

theorem directive_line (hdir : safeStagingDir staging = true) {name : String} {args : List String}
    (h : ConfigItem.Permitted staging (.directive name args)) :
    ∀ word ∈ (name :: args).map String.toList, PlainWord word := by
  intro word hword
  obtain ⟨w, hw, rfl⟩ := mem_map.mp hword
  exact (readable_of_permitted hdir h).2 w hw

/-- The lines of a sanitized config are flagged as they were written. -/
theorem flagged_items (hdir : safeStagingDir staging = true)
    (h : ∀ item ∈ items, item.Permitted staging) : flagged false (items.flatMap ConfigItem.lines) =
      items.flatMap fun item => item.lines.map (isBlock item, ·) := by
  induction items with
  | nil => rfl
  | cons item items ih =>
    have hitem := h item mem_cons_self
    have hrest := ih fun i hi => h i (mem_cons_of_mem _ hi)
    rw [flatMap_cons, flatMap_cons, ← hrest]
    cases item with
    | directive name args =>
      have hplain := directive_line hdir hitem
      have hwords := splitWhitespace_words hplain
      obtain ⟨hne, rest, hline, -⟩ := of_splitWhitespace hwords
      have htag : opensBlock ([' '].intercalate ((name :: args).map String.toList)) = false := by
        refine (noTag_of_head ?_).1
        rw [hline]
        cases hname : name.toList with
        | nil => exact absurd hname hne
        | cons c cs =>
          intro hhead
          have hlower := (readable_of_permitted hdir hitem).1 c (by rw [hname]; rfl)
          cases Option.some.inj hhead
          exact absurd hlower (by decide)
      simp only [ConfigItem.lines, singleton_append, flagged, htag, Bool.false_eq_true, if_false]
      rfl
    | block tag content =>
      obtain ⟨hopens, hcloses⟩ := tags_of_mem_inlineTags hitem.1
      have hcontent : ∀ line ∈ content.map String.toList, closesBlock line = false := by
        intro line hline
        obtain ⟨l, hl, rfl⟩ := mem_map.mp hline
        exact (noTag_of_head (hitem.2 l hl).noTag).2
      have hblock := flagged_content hcontent hcloses (items.flatMap ConfigItem.lines)
      simp only [ConfigItem.lines, cons_append, append_assoc, flagged,
        Bool.false_eq_true, if_false] at hblock ⊢
      rw [if_pos (by simpa using hopens), nil_append, hblock]
      rfl

end

/-! ### Pinned lines -/

section
variable {c : Char} {line : List Char} {host : String} {ip : IpAddr} {pinned : Pins}

theorem tokenChar_of_mem_renderIp (h : c ∈ (renderIp ip).toList) : tokenChar c = true := by
  by_contra htoken
  simp only [tokenChar, wordChar, asciiAlphanumericOr, Daemon.isAsciiAlphanumeric, isAlphanum_iff,
    Bool.or_eq_true, not_or] at htoken
  obtain ⟨⟨⟨⟨hupper, hlower, hdigit⟩, hother⟩, -⟩, -⟩ := htoken
  have hsmall : ¬('a' ≤ c ∧ c ≤ 'f') := by
    rintro ⟨hle, hge⟩
    exact hlower (isLower_iff.mpr ⟨hle, Nat.le_trans hge (by decide)⟩)
  have hlarge : ¬('A' ≤ c ∧ c ≤ 'F') := by
    rintro ⟨hle, hge⟩
    exact hupper (isUpper_iff.mpr ⟨hle, Nat.le_trans hge (by decide)⟩)
  have hvalue : ∀ radix, digitValue radix c = none := fun radix => by
    simp [digitValue, hdigit, hsmall, hlarge]
  refine not_mem_renderIp ⟨hvalue 10, hvalue 16, ?_, ?_⟩ ip h
  · rintro rfl
    exact absurd hother (by decide)
  · rintro rfl
    exact absurd hother (by decide)

theorem plainWord_renderIp (ip : IpAddr) : PlainWord (renderIp ip).toList := by
  refine ⟨fun hempty => ?_, fun c hc => tokenChar_of_mem_renderIp hc⟩
  have hread := parseIpAddr_renderIp ip
  have hnone : parseIpAddr "" = none := by decide
  rw [String.toList_eq_nil_iff.mp hempty, hnone] at hread
  cases hread

theorem mem_of_lookup (h : pinned.lookup host = some ip) : (host, ip) ∈ pinned := by
  obtain ⟨before, after, hsplit, -⟩ := lookup_eq_some_iff.mp h
  rw [hsplit]
  simp

theorem pinLine_of_pinned (hhost : remoteHost line = some host)
    (hip : pinned.lookup host = some ip) : pinLine pinned line = line.takeWhile isWhitespace ++
      replaceFirst host.toList (renderIp ip).toList (line.dropWhile isWhitespace) := by
  simp [pinLine, hhost, hip]

theorem pinLine_of_free (h : ∀ host, remoteHost line = some host → pinned.lookup host = none) :
    pinLine pinned line = line := by
  unfold pinLine
  cases hhost : remoteHost line with
  | none => rfl
  | some host => simp [h host hhost]

/-- The host stands behind the word `remote`. -/
theorem of_remoteHost (h : remoteHost line = some host) :
    host.toList ≠ [] ∧ ∃ rest, line.dropWhile isWhitespace = "remote".toList ++ rest ∧
      host.toList <:+: rest := by
  unfold remoteHost at h
  split at h
  · rename_i first word words hwords
    split at h
    · rename_i hfirst
      cases h
      obtain ⟨-, rest, hline, hrest⟩ := of_splitWhitespace hwords
      obtain ⟨hne, behind, hbehind, -⟩ := of_splitWhitespace hrest
      rw [String.toList_ofList]
      refine ⟨hne, rest, by rw [hline, hfirst], ?_⟩
      have hinfix : word <:+: rest.dropWhile isWhitespace := ⟨[], behind, hbehind.symm⟩
      exact List.IsInfix.trans hinfix (dropWhile_suffix _).isInfix
    · cases h
  · cases h

/-- A line that pins change is no tag, before and after. -/
theorem pinLine_noTag (hhost : remoteHost line = some host) (hip : pinned.lookup host = some ip) :
    (line.dropWhile isWhitespace).head? ≠ some '<' ∧
      ((pinLine pinned line).dropWhile isWhitespace).head? ≠ some '<' := by
  obtain ⟨hne, rest, hline, -⟩ := of_remoteHost hhost
  have hbefore : (line.dropWhile isWhitespace).head? = some 'r' := by
    rw [hline]
    rfl
  refine ⟨by rw [hbefore]; decide, ?_⟩
  obtain ⟨c, cs, hcs, hc⟩ : ∃ c cs, replaceFirst host.toList (renderIp ip).toList
      (line.dropWhile isWhitespace) = c :: cs ∧ tokenChar c = true ∧ c ≠ '<' := by
    rw [hline]
    show ∃ c cs, replaceFirst _ _ ('r' :: ("emote".toList ++ rest)) = c :: cs ∧ _
    rw [replaceFirst]
    split
    · cases hcs : (renderIp ip).toList with
      | nil => exact absurd hcs (plainWord_renderIp ip).ne_nil
      | cons c cs =>
        have hc : c ∈ (renderIp ip).toList := by simp [hcs]
        refine ⟨c, _, rfl, tokenChar_of_mem_renderIp hc, ?_⟩
        rintro rfl
        exact not_mem_renderIp ⟨by decide, by decide, by decide, by decide⟩ ip hc
    · exact ⟨'r', _, rfl, by decide, by decide⟩
  have hblank : ∀ d ∈ line.takeWhile isWhitespace, isWhitespace d = true :=
    fun d hd => mem_takeWhile_imp hd
  rw [pinLine_of_pinned hhost hip, dropWhile_append_of_pos hblank, hcs, dropWhile_cons,
    (plain_of_tokenChar hc.1).1]
  simpa using hc.2

/-- Pins keep the lines and the blocks. -/
theorem flagged_pinned (pinned : Pins) (lines : List (List Char)) :
    flagged false (lines.map (pinLine pinned)) =
      (flagged false lines).map fun x => (x.1, pinLine pinned x.2) := by
  have htags : ∀ line, opensBlock (pinLine pinned line) = opensBlock line ∧
      closesBlock (pinLine pinned line) = closesBlock line := by
    intro line
    by_cases hfree : ∀ host, remoteHost line = some host → pinned.lookup host = none
    · rw [pinLine_of_free hfree]
      exact ⟨rfl, rfl⟩
    · push Not at hfree
      obtain ⟨host, hhost, hsome⟩ := hfree
      obtain ⟨ip, hip⟩ := ne_none_iff_exists'.mp hsome
      obtain ⟨hbefore, hafter⟩ := pinLine_noTag hhost hip
      rw [(noTag_of_head hbefore).1, (noTag_of_head hbefore).2, (noTag_of_head hafter).1,
        (noTag_of_head hafter).2]
      exact ⟨rfl, rfl⟩
  exact flagged_map (fun line => (htags line).1) (fun line => (htags line).2) false

/-- A line of a block stays as it is unless it looks like a pinned `remote` line. -/
theorem inside_iff (hnames : ∀ host ip, (host, ip) ∈ pinned → parseIpAddr host = none) :
    pinLine pinned line = line ↔
      ∀ host, remoteHost line = some host → pinned.lookup host = none := by
  refine ⟨fun hsame host hhost => ?_, pinLine_of_free⟩
  by_contra hsome
  obtain ⟨ip, hip⟩ := ne_none_iff_exists'.mp hsome
  obtain ⟨hne, rest, hline, hinfix⟩ := of_remoteHost hhost
  have hdiffers : (renderIp ip).toList ≠ host.toList := by
    intro heq
    have hname := hnames host ip (mem_of_lookup hip)
    rw [← String.toList_inj.mp heq, parseIpAddr_renderIp] at hname
    cases hname
  have hwhole : host.toList <:+: line.dropWhile isWhitespace := by
    rw [hline]
    exact List.IsInfix.trans hinfix (suffix_append _ _).isInfix
  rw [pinLine_of_pinned hhost hip] at hsame
  refine replaceFirst_ne hne hdiffers hwhole (append_cancel_left (hsame.trans ?_))
  exact (takeWhile_append_dropWhile ..).symm

end

/-! ### Directives -/

section
variable {name host : String} {args rest : List String} {ip : IpAddr} {pinned : Pins}
  {staging : String}

/-- The line of a directive. -/
def directiveText (name : String) (args : List String) : List Char :=
  [' '].intercalate ((name :: args).map String.toList)

theorem tokenize_directive (h : ∀ word ∈ name :: args, PlainWord word.toList) :
    tokenize (directiveText name args) = .ok (name :: args) := by
  have hwords : ∀ word ∈ (name :: args).map String.toList, PlainWord word := by
    intro word hword
    obtain ⟨w, hw, rfl⟩ := mem_map.mp hword
    exact h w hw
  rw [directiveText, tokenize_words hwords, List.map_map]
  simp

theorem remoteHost_directive (h : ∀ word ∈ name :: args, PlainWord word.toList) :
    remoteHost (directiveText name args) = if name = "remote" then args.head? else none := by
  have hwords : ∀ word ∈ (name :: args).map String.toList, PlainWord word := by
    intro word hword
    obtain ⟨w, hw, rfl⟩ := mem_map.mp hword
    exact h w hw
  rw [remoteHost, directiveText, splitWhitespace_words hwords]
  cases args with
  | nil => simp
  | cons host rest =>
    have hname : name.toList = "remote".toList ↔ name = "remote" := String.toList_inj
    simp only [map_cons, hname, String.ofList_toList, head?_cons]

/-- The text with the first argument taken out. -/
theorem directiveText_cons (rest : List String) :
    ∃ more, ∀ name host, directiveText name (host :: rest) =
      name.toList ++ ' ' :: (host.toList ++ more) := by
  cases rest with
  | nil => exact ⟨[], fun name host => by simp [directiveText]⟩
  | cons next rest =>
    refine ⟨' ' :: [' '].intercalate ((next :: rest).map String.toList), fun name host => ?_⟩
    simp [directiveText, intercalate_cons_cons]

theorem plainWord_replaced (hword : PlainWord "remote".toList) (ip : IpAddr) (old : List Char) :
    PlainWord (replaceFirst old (renderIp ip).toList "remote".toList) := by
  constructor
  · show replaceFirst old _ ('r' :: "emote".toList) ≠ []
    rw [replaceFirst]
    split
    · exact append_ne_nil_of_left_ne_nil (plainWord_renderIp ip).ne_nil _
    · exact cons_ne_nil _ _
  · intro c hc
    rcases mem_replaceFirst hc with hc | hc
    · exact tokenChar_of_mem_renderIp hc
    · exact hword.plain c hc

/-- A directive comes out right unless the host is found in the word `remote`. -/
theorem directive_iff (hnames : ∀ host ip, (host, ip) ∈ pinned → parseIpAddr host = none)
    (hplain : ∀ word ∈ name :: args, PlainWord word.toList) :
    ConfigLine.of (false, pinLine pinned (directiveText name args)) =
        (ConfigLine.of (false, directiveText name args)).pin pinned ↔
      ∀ host ip, remoteHost (directiveText name args) = some host → pinned.lookup host = some ip →
        ¬host.toList <:+: "remote".toList := by
  have htokens := tokenize_directive hplain
  have hhost := remoteHost_directive hplain
  by_cases hfree : ∀ host, remoteHost (directiveText name args) = some host →
      pinned.lookup host = none
  · rw [pinLine_of_free hfree]
    refine iff_of_true ?_ fun host ip hremote hip => ?_
    · show ConfigLine.directive _ = (ConfigLine.directive _).pin pinned
      rw [htokens]
      unfold ConfigLine.pin
      split
      · rename_i host rest heq
        cases heq
        rw [hfree host (by rw [hhost]; rfl)]
        rfl
      · rfl
    · rw [hfree host hremote] at hip
      cases hip
  · push Not at hfree
    obtain ⟨host, hremote, hsome⟩ := hfree
    obtain ⟨ip, hip⟩ := ne_none_iff_exists'.mp hsome
    obtain ⟨rfl, rest, rfl⟩ : name = "remote" ∧ ∃ rest, args = host :: rest := by
      rw [hhost] at hremote
      split at hremote
      · exact ⟨‹_›, (head?_eq_some_iff.mp hremote)⟩
      · cases hremote
    obtain ⟨more, hmore⟩ := directiveText_cons rest
    have hline : pinLine pinned (directiveText "remote" (host :: rest)) =
        replaceFirst host.toList (renderIp ip).toList (directiveText "remote" (host :: rest)) := by
      rw [pinLine_of_pinned hremote hip, hmore]
      rfl
    have hword := hplain "remote" mem_cons_self
    have hhostWord := hplain host (by simp)
    have hrest : ∀ word ∈ rest, PlainWord word.toList := fun w hw => hplain w (by simp [hw])
    have hpinned : (ConfigLine.of (false, directiveText "remote" (host :: rest))).pin pinned =
        .directive (.ok ("remote" :: renderIp ip :: rest)) := by
      show (ConfigLine.directive _).pin pinned = _
      rw [htokens, ConfigLine.pin, hip]
      rfl
    rw [hpinned, hline]
    by_cases hinside : host.toList <:+: "remote".toList
    · have hout : replaceFirst host.toList (renderIp ip).toList
          (directiveText "remote" (host :: rest)) = directiveText (String.ofList
            (replaceFirst host.toList (renderIp ip).toList "remote".toList)) (host :: rest) := by
        rw [hmore, hmore, replaceFirst_append hhostWord.ne_nil hinside]
        simp
      have hwords : ∀ word ∈ String.ofList (replaceFirst host.toList (renderIp ip).toList
          "remote".toList) :: host :: rest, PlainWord word.toList := by
        intro word hw
        rcases mem_cons.mp hw with rfl | hw
        · rw [String.toList_ofList]
          exact plainWord_replaced hword ip host.toList
        · exact hplain word (mem_cons_of_mem _ hw)
      refine iff_of_false (fun heq => ?_) fun hapart => hapart host ip hremote hip hinside
      rw [hout] at heq
      have hread : (.directive (tokenize _) : ConfigLine) = _ := heq
      rw [tokenize_directive hwords] at hread
      -- The host is still there, and it is no address.
      injection hread with hread
      injection hread with hread
      obtain ⟨-, hread⟩ := List.cons.inj hread
      have hname := hnames host ip (mem_of_lookup hip)
      rw [(List.cons.inj hread).1, parseIpAddr_renderIp] at hname
      cases hname
    · have hblank : ' ' ∉ host.toList := fun hc => absurd (hhostWord.plain _ hc) (by decide)
      have hout : replaceFirst host.toList (renderIp ip).toList
          (directiveText "remote" (host :: rest)) = directiveText "remote" (renderIp ip :: rest) := by
        rw [hmore, hmore, replaceFirst_separated hhostWord.ne_nil hblank hinside]
      have hwords : ∀ word ∈ "remote" :: renderIp ip :: rest, PlainWord word.toList := by
        intro word hw
        simp only [mem_cons] at hw
        rcases hw with rfl | rfl | hw
        · exact hword
        · exact plainWord_renderIp ip
        · exact hrest word hw
      refine iff_of_true ?_ fun other ip' hother _ => ?_
      · rw [hout]
        show ConfigLine.directive _ = _
        rw [tokenize_directive hwords]
      · rw [hremote] at hother
        cases hother
        exact hinside

end

/-! ### The whole config -/

variable {config : String} {pinned : Pins}

theorem remoteHosts_found {host : String} (h : host ∈ remoteHosts config) :
    ∃ line, (false, line) ∈ flagged false (textLines config) ∧ remoteHost line = some host := by
  have hfold : ∀ (lines : List (Bool × List Char)) (hosts : List String),
      host ∈ lines.foldl pushRemote hosts →
        host ∈ hosts ∨ ∃ line, (false, line) ∈ lines ∧ remoteHost line = some host := by
    intro lines
    induction lines with
    | nil => exact fun hosts h => .inl h
    | cons first lines ih =>
      intro hosts h
      obtain ⟨inBlock, line⟩ := first
      rcases ih _ h with hknown | ⟨other, hother, hremote⟩
      · unfold pushRemote at hknown
        split at hknown
        · exact .inl hknown
        · rename_i heq
          cases heq
          split at hknown
          · rename_i found hfound
            split at hknown
            · rcases mem_append.mp hknown with hknown | hnew
              · exact .inl hknown
              · exact .inr ⟨line, mem_cons_self, by rw [hfound, mem_singleton.mp hnew]⟩
            · exact .inl hknown
          · exact .inl hknown
      · exact .inr ⟨other, mem_cons_of_mem _ hother, hremote⟩
  rcases hfold _ [] h with hnone | hfound
  · cases hnone
  · exact hfound

/-- Pins are for hosts of the config that are no addresses. -/
theorem resolveRemotes_pins {answers : NameAnswers} {config host : String} {ip : IpAddr}
    (h : (host, ip) ∈ (answers.resolveRemotes config).2) :
    host ∈ remoteHosts config ∧ parseIpAddr host = none := by
  have hfold : ∀ (hosts : List String) (found : List IpAddr × Pins),
      (host, ip) ∈ (hosts.foldl answers.resolveRemote found).2 →
        (host, ip) ∈ found.2 ∨ host ∈ hosts ∧ parseIpAddr host = none := by
    intro hosts
    induction hosts with
    | nil => exact fun found h => .inl h
    | cons first hosts ih =>
      intro found h
      rcases ih _ h with hknown | ⟨hmem, hname⟩
      · unfold NameAnswers.resolveRemote at hknown
        split at hknown
        · exact .inl hknown
        · rename_i hname
          simp only at hknown
          split at hknown
          · exact .inl hknown
          · rcases mem_append.mp hknown with hknown | hnew
            · exact .inl hknown
            · obtain ⟨address, -, heq⟩ := mem_map.mp hnew
              cases heq
              exact .inr ⟨mem_cons_self, hname⟩
      · exact .inr ⟨mem_cons_of_mem _ hmem, hname⟩
  rcases hfold _ _ h with hnone | hfound
  · cases hnone
  · exact hfound

theorem configLines_pinRemotes
    (hclean : ∀ line ∈ (textLines config).map (pinLine pinned), '\n' ∉ line ∧ '\r' ∉ line) :
    configLines (pinRemotes config pinned) =
      (flagged false (textLines config)).map fun x => ConfigLine.of (x.1, pinLine pinned x.2) := by
  unfold configLines pinRemotes
  split
  · rename_i hempty
    rw [List.isEmpty_iff] at hempty
    refine map_congr_left fun x _ => ?_
    rw [hempty, pinLine_of_free fun _ _ => rfl]
  · rw [textLines_unlines_clean hclean, flagged_pinned, List.map_map]
    rfl

theorem clean_pinLine {line : List Char} (h : '\n' ∉ line ∧ '\r' ∉ line) :
    '\n' ∉ pinLine pinned line ∧ '\r' ∉ pinLine pinned line := by
  have hplain : ∀ c, tokenChar c = false → c ∉ line → c ∉ pinLine pinned line := by
    intro c hc hline hmem
    unfold pinLine at hmem
    split at hmem
    · rename_i host ip _
      rcases mem_append.mp hmem with hfront | hback
      · exact hline ((takeWhile_sublist _).subset hfront)
      · rcases mem_replaceFirst hback with hip | hback
        · rw [tokenChar_of_mem_renderIp hip] at hc
          cases hc
        · exact hline ((dropWhile_sublist _).subset hback)
    · exact hline hmem
  exact ⟨hplain _ (by decide) h.1, hplain _ (by decide) h.2⟩

/-- A sanitized config comes out with nothing but its pinned hosts replaced exactly where it is
`Pinnable`. -/
theorem pins_exactly_iff {input staging : String} {managed : AssetMap}
    {result : SanitizedOpenVpnConfig} (answers : NameAnswers)
    (h : sanitizeOpenvpnConfig input managed staging = .ok result) :
    let pinned := (answers.resolveRemotes result.config).2
    PinsExactly pinned result.config (pinRemotes result.config pinned) ↔
      Pinnable pinned result.config := by
  intro pinned
  obtain ⟨items, hdir, htext, hpermitted, -⟩ := sanitized_items h
  have hclean := clean_lines hdir hpermitted
  have hlines : textLines result.config = items.flatMap ConfigItem.lines := by
    rw [← String.ofList_toList (s := result.config), htext, textLines_unlines_clean hclean]
  have hnames : ∀ host ip, (host, ip) ∈ pinned → parseIpAddr host = none :=
    fun host ip hmem => (resolveRemotes_pins hmem).2
  have hout : configLines (pinRemotes result.config pinned) =
      (flagged false (textLines result.config)).map
        fun x => ConfigLine.of (x.1, pinLine pinned x.2) := by
    refine configLines_pinRemotes fun line hline => ?_
    obtain ⟨source, hsource, rfl⟩ := List.mem_map.mp hline
    rw [hlines] at hsource
    exact clean_pinLine (hclean source hsource)
  have hdirective : ∀ line, (false, line) ∈ flagged false (textLines result.config) →
      (ConfigLine.of (false, pinLine pinned line) = (ConfigLine.of (false, line)).pin pinned ↔
        ∀ host ip, remoteHost line = some host → pinned.lookup host = some ip →
          ¬host.toList <:+: "remote".toList) := by
    intro line hline
    rw [hlines, flagged_items hdir hpermitted] at hline
    obtain ⟨item, hitem, hline⟩ := List.mem_flatMap.mp hline
    obtain ⟨text, htext, heq⟩ := List.mem_map.mp hline
    cases item with
    | block tag content => cases heq
    | directive name args =>
      cases heq
      obtain rfl := List.mem_singleton.mp htext
      exact directive_iff hnames (readable_of_permitted hdir (hpermitted _ hitem)).2
  have hpointwise : configLines (pinRemotes result.config pinned) =
        (configLines result.config).map (·.pin pinned) ↔
      ∀ x ∈ flagged false (textLines result.config),
        ConfigLine.of (x.1, pinLine pinned x.2) = (ConfigLine.of x).pin pinned := by
    rw [hout, configLines, List.map_map]
    exact List.map_inj_left
  constructor
  · intro hexact
    have hall := hpointwise.mp hexact.lines
    constructor
    · intro host ip hmem
      obtain ⟨line, hline, hhost⟩ := remoteHosts_found (resolveRemotes_pins hmem).1
      cases hip : pinned.lookup host with
      | none =>
        have hother := List.lookup_eq_none_iff.mp hip (host, ip) hmem
        simp at hother
      | some other => exact (hdirective line hline).mp (hall _ hline) host other hhost hip
    · intro line hline host hhost
      obtain ⟨⟨inBlock, source⟩, hsource, heq⟩ := List.mem_map.mp hline
      cases inBlock with
      | false => cases heq
      | true =>
        cases heq
        exact (inside_iff hnames).mp (ConfigLine.inside.inj (hall _ hsource)) host hhost
  · intro hpinnable
    have hall : configLines (pinRemotes result.config pinned) =
        (configLines result.config).map (·.pin pinned) := by
      refine hpointwise.mpr ?_
      rintro ⟨inBlock, line⟩ hline
      cases inBlock with
      | false =>
        exact (hdirective line hline).mpr fun host ip _ hip => hpinnable.apart host ip (mem_of_lookup hip)
      | true =>
        have hsame := (inside_iff hnames).mpr
          (hpinnable.spared line (List.mem_map.mpr ⟨_, hline, rfl⟩))
        exact congrArg ConfigLine.inside hsame
    refine ⟨hall, fun host rest hread => ?_⟩
    rw [hall] at hread
    obtain ⟨source, -, heq⟩ := List.mem_map.mp hread
    unfold ConfigLine.pin at heq
    split at heq
    · rename_i old more
      cases heq
      cases hip : pinned.lookup old with
      | none => exact hip
      | some ip =>
        -- An address is no name that is pinned.
        cases hagain : pinned.lookup (renderIp ip) with
        | none => exact hagain
        | some other =>
          have hname := hnames _ _ (mem_of_lookup hagain)
          rw [parseIpAddr_renderIp] at hname
          cases hname
    · rename_i hother
      exact absurd heq (hother host rest)

/-- Every name is in the fake pool of another tunnel, and at 203.0.113.9 for the uplink. -/
def fakeAnswers : NameAnswers where
  resolve _ := [.v4 0xc6120707]
  localResolvers := [.v4 0x01010101]
  resolveDirect _ _ := [.v4 0xcb007109]

theorem harbor_pinned :
    PinsExactly (fakeAnswers.resolveRemotes harborResult.config).2 harborResult.config
      (pinRemotes harborResult.config (fakeAnswers.resolveRemotes harborResult.config).2) := by
  have haccepted : sanitizeOpenvpnConfig harborProfile harborAssets harborStaging =
      .ok harborResult := by decide +kernel
  have hpins : (fakeAnswers.resolveRemotes harborResult.config).2 =
      [("vpn.example", .v4 0xcb007109)] := by decide +kernel
  have hblocks : ∀ x ∈ flagged false (textLines harborResult.config), x.1 = true →
      remoteHost x.2 = none := by decide +kernel
  refine (pins_exactly_iff fakeAnswers haccepted).mpr ⟨?_, ?_⟩
  · rw [hpins]
    intro host ip hmem
    cases List.mem_singleton.mp hmem
    decide
  · intro line hline host hhost
    obtain ⟨⟨inBlock, source⟩, hsource, heq⟩ := List.mem_map.mp hline
    cases inBlock with
    | false => cases heq
    | true =>
      cases heq
      rw [hblocks _ hsource rfl] at hhost
      cases hhost

/-- A server that is called `remote`. -/
def namesakeConfig : String := "client\nremote remote 1194\n"

/-- The directive is replaced, and the name stays. -/
theorem namesake_not_pinned :
    sanitizeOpenvpnConfig namesakeConfig ⟨[], List.nodup_nil⟩ harborStaging =
        .ok ⟨namesakeConfig, []⟩ ∧
      ¬PinsExactly (fakeAnswers.resolveRemotes namesakeConfig).2 namesakeConfig
        (pinRemotes namesakeConfig (fakeAnswers.resolveRemotes namesakeConfig).2) := by
  refine ⟨by decide +kernel, fun h => absurd h.lines ?_⟩
  decide +kernel

end NetOrchestrator.Macos
