import Mathlib.Data.List.Infix
import NetOrchestrator.Daemon.OpenVpnPrepare
import NetOrchestrator.Proofs.OpenVpnSanitized

/-!
# `Proofs.OpenVpnCredentials`: two readings of what a profile asks for

The client scans the imported text by words, the daemon compares whole lines of the sanitized
text. `sourceLines` cuts the imported text into its directive lines and its blocks. Each accepted
line is written as at most one line (`Emits`), so that both readings are predicates of the source
lines, and `credentials_agree_iff` says exactly for which texts they agree.

They part where a directive is quoted or commented, where `auth-user-pass` has the argument
`username-only`, where a passphrase file comes with an encrypted key, where a line of a block
reads like a directive, and where the marker of an encrypted key stands outside the key.
-/

namespace NetOrchestrator.Core

open Lib List Checks
open Daemon

/-! ### The source lines -/

/-- A line of the imported text. Outside the blocks a directive has its name and its arguments as
the sanitizer cuts them. -/
inductive SourceLine where
  | blank
  | directive (line : List Char) (name : String) (args : List String)
  | opening (tag : String)
  | content (line : List Char)
  | closing
  deriving DecidableEq

/-- The line, and whether the next one is inside a block. -/
def sourceLine (inBlock : Bool) (raw : List Char) : SourceLine × Bool :=
  let line := SanitizerState.stripCr raw
  if inBlock then
    if (line.dropWhile isWhitespace).head? = some '<' then (.closing, false)
    else (.content line, true)
  else
    match tokenize line with
    | .ok (token :: args) =>
      if token.toList.head? = some '<' then
        (.opening (String.ofList (token.toList.drop 1).dropLast), true)
      else (.directive line (asciiLower (trimStartDashes token)) args, false)
    | _ => (.blank, false)

def sourceLinesFrom (inBlock : Bool) : List (List Char) → List SourceLine
  | [] => []
  | raw :: rest =>
    (sourceLine inBlock raw).1 :: sourceLinesFrom (sourceLine inBlock raw).2 rest

def sourceLines (input : String) : List SourceLine := sourceLinesFrom false (textLines input)

namespace SourceLine

/-- A directive without arguments. A line of a block counts where it reads so. -/
def bare (word : String) : SourceLine → Bool
  | .directive _ name args => name = word && args = []
  | .content line => line = word.toList
  | _ => false

/-- A private key, in a file or in a block. -/
def namesKey : SourceLine → Bool
  | .directive _ name _ => name = "key" || name = "pkcs12"
  | .opening tag => tag = "key" || tag = "pkcs12"
  | _ => false

/-- A line of a block that reads like the directive of a private key. -/
def looksLikeKey : SourceLine → Bool
  | .content line => "key ".toList.isPrefixOf line || "pkcs12 ".toList.isPrefixOf line
  | _ => false

/-- The asset that the line names. -/
def namedAsset (managed : AssetMap) : SourceLine → Option (List UInt8)
  | .directive _ name (source :: rest) =>
    if checkDirective name (source :: rest) = .ok .staged then managed.get source else none
  | _ => none

/-- The marker of an encrypted key in a line of a block, or in the words of a directive. -/
def textMarker : SourceLine → Bool
  | .content line => hasEncryptedKey (utf8Bytes line)
  | .directive _ name args =>
    checkDirective name args = .ok .plain &&
      hasEncryptedKey (utf8Bytes ([' '].intercalate ((name :: args).map String.toList)))
  | _ => false

/-- The marker is in the line or in the asset that the line names. -/
def holdsMarker (managed : AssetMap) (line : SourceLine) : Bool :=
  line.textMarker || (line.namedAsset managed).any hasEncryptedKey

/-- The words of a directive line, quotes and comments included. -/
def words : SourceLine → List String
  | .directive line _ _ => (splitWhitespace line).map String.ofList
  | _ => []

def wordIs (expected word : String) : Bool := asciiLower (trimStartDashes word) = expected

/-- The words are `auth-user-pass` alone or with `username-only`. -/
def asksUser (line : SourceLine) : Bool :=
  match line.words with
  | [] => false
  | word :: rest =>
    wordIs "auth-user-pass" word && (rest.head?.map trimQuotes).all (· = "username-only")

/-- The words are `askpass` alone. -/
def asksPassphrase (line : SourceLine) : Bool :=
  match line.words with
  | [] => false
  | word :: rest => wordIs "askpass" word && rest.isEmpty

/-- The words are `askpass` and more. -/
def namesPassphrase (line : SourceLine) : Bool :=
  match line.words with
  | [] => false
  | word :: rest => wordIs "askpass" word && !rest.isEmpty

end SourceLine

/-! ### What each line writes -/

/-- The lines that an accepted source line is written as. -/
inductive Emits (staging : String) : SourceLine → List (List Char) → Prop
  | blank : Emits staging .blank []
  | content (line : List Char) (h : BlockText line) : Emits staging (.content line) [line]
  | closing (tag : String) (h : tag ∈ inlineTags) :
      Emits staging .closing ['<' :: '/' :: tag.toList ++ ['>']]
  | opening (tag : String) (h : tag ∈ inlineTags) :
      Emits staging (.opening tag) ['<' :: tag.toList ++ ['>']]
  | plain (line : List Char) (name : String) (args : List String)
      (h : checkDirective name args = .ok .plain) :
      Emits staging (.directive line name args)
        [[' '].intercalate ((name :: args).map String.toList)]
  | staged (line : List Char) (name source : String) (rest : List String) (index : Nat)
      (h : checkDirective name (source :: rest) = .ok .staged)
      (hsource : managedReference source = true) :
      Emits staging (.directive line name (source :: rest))
        [[' '].intercalate
          ((name :: joinPath staging (assetName index) :: rest).map String.toList)]

section
variable {managed : AssetMap} {staging : String} {st st' : SanitizerState} {raw line : List Char}
  {c : Char} {tag : String} {token : String} {args : List String}

theorem not_mem_stripCr (h : c ∉ raw) : c ∉ SanitizerState.stripCr raw := by
  rw [SanitizerState.stripCr]
  split
  · exact fun hmem => h (dropLast_subset _ hmem)
  · exact h

/-- What one accepted line does: it writes its line, stages its asset and opens or closes a
block. -/
structure LineStep (staging : String) (managed : AssetMap) (st : SanitizerState) (line : SourceLine)
    (inBlock : Bool) (st' : SanitizerState) : Prop where
  emits : ∃ emitted, Emits staging line emitted ∧
    st'.output.toList = st.output.toList ++ unlines emitted
  assets : st'.assets.map (·.bytes) = st.assets.map (·.bytes) ++ (line.namedAsset managed).toList
  block : st'.inline.isSome = inBlock
  tag : ∀ tag, st'.inline = some tag → tag ∈ inlineTags

theorem step_blockLine (htag : st.inline = some tag) (hallowed : tag ∈ inlineTags)
    (hno : '\n' ∉ line ∧ '\r' ∉ line) (hstep : st.blockLine tag line = .ok st') :
    LineStep staging managed st
      (if (line.dropWhile isWhitespace).head? = some '<' then .closing else .content line)
      (decide ((line.dropWhile isWhitespace).head? ≠ some '<')) st' := by
  rw [SanitizerState.blockLine] at hstep
  split at hstep
  · rename_i hclose
    cases hstep
    have hhead : (line.dropWhile isWhitespace).head? = some '<' := by
      have hiff := head?_trim_iff (s := String.ofList line) (c := '<') (by decide)
      rw [String.toList_ofList] at hiff
      exact hiff.mp (by rw [hclose]; simp)
    rw [if_pos hhead]
    constructor
    case emits => exact ⟨_, .closing tag hallowed, by rw [toList_push]; simp⟩
    case assets => simp [SourceLine.namedAsset, SanitizerState.push]
    case block => simp [hhead]
    case tag => simp
  · obtain ⟨hhead, hstep⟩ := Checks.passed hstep
    cases hstep
    rw [if_neg hhead]
    constructor
    case emits => exact ⟨_, .content line ⟨hno.1, hno.2, hhead⟩, by rw [toList_push]; simp⟩
    case assets => simp [SourceLine.namedAsset, SanitizerState.push]
    case block => simp [hhead, SanitizerState.push, htag]
    case tag =>
      intro tag' htag'
      rw [SanitizerState.push, htag] at htag'
      cases htag'
      exact hallowed

theorem step_openBlock (hstep : st.openBlock line token args = .ok st') :
    LineStep staging managed st (.opening (String.ofList (token.toList.drop 1).dropLast)) true st' := by
  rw [SanitizerState.openBlock] at hstep
  obtain ⟨-, hstep⟩ := Checks.passed hstep
  simp only at hstep
  obtain ⟨-, hstep⟩ := Checks.passed hstep
  split at hstep
  · rename_i htag
    have hmem : String.ofList (token.toList.drop 1).dropLast ∈ inlineTags := by simpa using htag
    cases hstep
    constructor
    case emits => exact ⟨_, .opening _ hmem, by rw [toList_push]; simp⟩
    case assets => simp [SourceLine.namedAsset, SanitizerState.push]
    case block => rfl
    case tag =>
      intro tag htag'
      cases htag'
      exact hmem
  · cases hstep

theorem step_stagedLine {name : String} (hopen : st.inline = none)
    (hcheck : checkDirective name args = .ok .staged)
    (hstep : st.stagedAssetLine managed staging name args = .ok st') :
    LineStep staging managed st (.directive line name args) false st' := by
  obtain ⟨-, -, source, rest, rfl, hlen, -⟩ := checkDirective_staged hcheck
  have htake : rest.take 1 = rest := take_of_length_le hlen
  rw [SanitizerState.stagedAssetLine] at hstep
  simp only [head?_cons, Option.getD_some, drop_succ_cons, drop_zero, htake] at hstep
  split at hstep
  · cases hstep
  · rename_i hsource
    split at hstep
    · cases hstep
    · rename_i bytes hget
      split at hstep
      · cases hstep
      · split at hstep
        · cases hstep
        · cases hstep
          constructor
          case emits =>
            refine ⟨_, .staged line name source rest st.assets.length hcheck (by simpa using hsource), ?_⟩
            show (st.push _).output.toList = _
            rw [toList_push, assetName]
            simp
          case assets => simp [SourceLine.namedAsset, hcheck, hget]
          case block => simp [SanitizerState.push, hopen]
          case tag => simp [SanitizerState.push, hopen]

theorem step_directiveLine (hopen : st.inline = none)
    (hstep : st.directiveLine managed staging token args = .ok st') :
    asciiLower (trimStartDashes token) ∈ knownDirectives ∧
      LineStep staging managed st (.directive line (asciiLower (trimStartDashes token)) args) false
        st' := by
  rw [SanitizerState.directiveLine] at hstep
  obtain ⟨kind, hcheck, hstep⟩ := bind_eq_ok.mp hstep
  cases kind with
  | staged => exact ⟨(checkDirective_staged hcheck).1, step_stagedLine hopen hcheck hstep⟩
  | plain =>
    cases hstep
    refine ⟨(checkDirective_plain hcheck).1, ?_⟩
    constructor
    case emits =>
      refine ⟨_, .plain line _ args hcheck, ?_⟩
      show (st.push _).output.toList = _
      rw [toList_push]
      simp
    case assets =>
      cases args <;> simp [SourceLine.namedAsset, hcheck, SanitizerState.push]
    case block => simp [SanitizerState.push, hopen]
    case tag => simp [SanitizerState.push, hopen]

/-! ### Lines and the client's scan -/

variable {cs : List Char} (scan : CredentialScan) {name word : List Char}

theorem inside_prefix {quote : Option Char} {token : List Char}
    {tokens : List String} (h : tokenizeFrom (.inside quote token) cs = .ok tokens) :
    ∃ first rest, tokens = first :: rest ∧ token <+: first.toList := by
  induction cs generalizing token with
  | nil =>
    rw [tokenizeFrom] at h
    split at h
    · cases h
      exact ⟨_, [], rfl, by simp⟩
    · cases h
  | cons c cs ih =>
    have hend : ∀ more : Except OpenVpnConfigError (List String),
        (more.map fun tokens => String.ofList token :: tokens) = .ok tokens →
        ∃ first rest, tokens = first :: rest ∧ token <+: first.toList := by
      intro more hmore
      cases more with
      | error e => cases hmore
      | ok rest =>
        cases hmore
        exact ⟨_, rest, rfl, by simp⟩
    rw [tokenizeFrom] at h
    split at h
    · split at h
      · exact hend _ h
      · cases h
    · split at h
      · exact hend _ h
      · split at h
        · cases h
        · obtain ⟨first, rest, rfl, hprefix⟩ := ih h
          exact ⟨first, rest, rfl, (prefix_append token [c]).trans hprefix⟩

theorem isWhitespace_of_isAsciiWhitespace (h : isAsciiWhitespace c = true) :
    isWhitespace c = true := by
  have hall : ([' ', '\t', '\n', '\x0c', '\r'].all isWhitespace) = true := by decide
  exact all_eq_true.mp hall c (by simpa [isAsciiWhitespace] using h)

/-- The first character of an accepted directive is no blank. -/
theorem not_isWhitespace_of_known (hhead : token.toList.head? = some c)
    (h : asciiLower (trimStartDashes token) ∈ knownDirectives) : isWhitespace c = false := by
  by_cases hdash : c = '-'
  · subst hdash
    decide
  · obtain ⟨rest, htoken⟩ : ∃ rest, token.toList = c :: rest := by
      cases hlist : token.toList with
      | nil => simp [hlist] at hhead
      | cons d rest => exact ⟨rest, by simpa [hlist] using hhead⟩
    obtain ⟨-, hlower⟩ := knownDirective_spec h
    have hfirst := hlower c.toLower (by simp [asciiLower, trimStartDashes, htoken, hdash])
    have halpha : c.isAlphanum = true := by
      rw [isAlphanum_iff]
      by_cases hupper : c.isUpper = true
      · exact .inl hupper
      · rw [toLower_of_not_isUpper hupper] at hfirst
        exact .inr (.inl hfirst)
    have hall : ∀ n, n < 128 → (Char.ofNat n).isAlphanum = true →
        isWhitespace (Char.ofNat n) = false := by
      decide
    have hc := hall c.toNat (lt_of_isAlphanum halpha)
    rw [Char.ofNat_toNat] at hc
    exact hc halpha

/-- A line whose first token is a known directive does not start with an angle bracket. -/
theorem head?_of_directive (h : tokenizeFrom .between line = .ok (token :: args))
    (hno : token.toList.head? ≠ some '<')
    (hknown : asciiLower (trimStartDashes token) ∈ knownDirectives) :
    (line.dropWhile isWhitespace).head? ≠ some '<' := by
  induction line with
  | nil => simp
  | cons c line ih =>
    rw [tokenizeFrom] at h
    split at h
    · rename_i hblank
      rw [dropWhile_cons, if_pos (isWhitespace_of_isAsciiWhitespace hblank)]
      exact ih h
    · split at h
      · cases h
      · split at h
        · rename_i hquote
          have hc : c = '"' ∨ c = '\'' := by simpa [isQuote] using hquote
          rcases hc with rfl | rfl <;> simp [isWhitespace]
        · obtain ⟨-, h⟩ := Checks.passed h
          obtain ⟨first, rest, heq, hprefix⟩ := inside_prefix h
          cases heq
          have hhead : token.toList.head? = some c := by
            obtain ⟨tail, htail⟩ := hprefix
            rw [← htail]
            rfl
          rw [dropWhile_cons, not_isWhitespace_of_known hhead hknown]
          rw [hhead] at hno
          exact hno

theorem splitWhitespaceFrom_head {word cs : List Char} (hne : word ≠ []) :
    ∃ first rest, splitWhitespaceFrom word cs = first :: rest ∧ word <+: first := by
  induction cs generalizing word with
  | nil => exact ⟨word, [], by rw [splitWhitespaceFrom, if_neg hne], prefix_rfl⟩
  | cons c cs ih =>
    rw [splitWhitespaceFrom]
    split
    · exact ⟨word, splitWhitespaceFrom [] cs, rfl, prefix_rfl⟩
    · obtain ⟨first, rest, hsplit, hprefix⟩ := @ih (word ++ [c]) (by simp)
      exact ⟨first, rest, hsplit, (prefix_append word [c]).trans hprefix⟩

/-- A line without tokens is blank or a comment. -/
theorem of_no_tokens (h : tokenizeFrom .between line = .ok []) :
    (line.dropWhile isWhitespace).head? ≠ some '<' ∧
      ∀ word ∈ (splitWhitespace line).head?, word.head?.any isCommentChar = true := by
  induction line with
  | nil => simp [splitWhitespace, splitWhitespaceFrom]
  | cons c line ih =>
    rw [tokenizeFrom] at h
    split at h
    · rename_i hblank
      have hwhite := isWhitespace_of_isAsciiWhitespace hblank
      rw [dropWhile_cons, if_pos hwhite, splitWhitespace, splitWhitespaceFrom, if_pos hwhite,
        if_pos rfl]
      exact ih h
    · split at h
      · rename_i hcomment
        have hc : c = '#' ∨ c = ';' := by simpa [isCommentChar] using hcomment
        have hwhite : isWhitespace c = false := by rcases hc with rfl | rfl <;> decide
        constructor
        · rcases hc with rfl | rfl <;> simp [isWhitespace]
        · obtain ⟨first, rest, hsplit, hprefix⟩ :=
            @splitWhitespaceFrom_head [c] line (by simp)
          rw [splitWhitespace, splitWhitespaceFrom, if_neg (by simp [hwhite]), nil_append, hsplit]
          intro word hword
          cases hword
          obtain ⟨tail, htail⟩ := hprefix
          rw [← htail]
          simpa using hcomment
      · -- Any other character starts a token.
        split at h
        · obtain ⟨first, rest, heq, -⟩ := inside_prefix h
          cases heq
        · split at h
          · cases h
          · obtain ⟨first, rest, heq, -⟩ := inside_prefix h
            cases heq

theorem splitWhitespaceFrom_blank {word cs : List Char} (hc : isWhitespace c = true) :
    splitWhitespaceFrom word (cs ++ [c]) = splitWhitespaceFrom word cs := by
  induction cs generalizing word with
  | nil =>
    show splitWhitespaceFrom word [c] = if word = [] then [] else [word]
    rw [splitWhitespaceFrom.eq_def]
    simp only [hc, if_true, splitWhitespaceFrom]
  | cons d cs ih => rw [cons_append, splitWhitespaceFrom, splitWhitespaceFrom, ih, ih]

/-- A carriage return at the end of a line is no part of a word. -/
theorem splitWhitespace_stripCr (raw : List Char) :
    splitWhitespace (SanitizerState.stripCr raw) = splitWhitespace raw := by
  rw [SanitizerState.stripCr]
  split
  · rename_i hlast
    have hraw := dropLast_append_getLast? _ hlast
    have hblank : isWhitespace '\r' = true := by decide
    conv_rhs => rw [← hraw]
    exact (splitWhitespaceFrom_blank hblank).symm
  · rfl

theorem prefix_trim_iff : "<".toList.isPrefixOf (trim (String.ofList raw)).toList = true ↔
      ((SanitizerState.stripCr raw).dropWhile isWhitespace).head? = some '<' := by
  have hiff := head?_trim_iff (s := String.ofList (SanitizerState.stripCr raw)) (c := '<')
    (by decide)
  rw [String.toList_ofList, SanitizerState.stripCr, trim_stripCr] at hiff
  rw [SanitizerState.stripCr, ← hiff]
  cases (trim (String.ofList raw)).toList with
  | nil => simp
  | cons c rest => simp [List.isPrefixOf, beq_iff_eq, eq_comm (a := '<')]

/-- The scan after a source line. -/
def CredentialScan.see (scan : CredentialScan) (line : SourceLine) (inBlock : Bool) :
    CredentialScan :=
  { userPass := scan.userPass || line.asksUser
    askpassPrompt := scan.askpassPrompt || line.asksPassphrase
    askpassFile := scan.askpassFile || line.namesPassphrase
    inBlock }

theorem scan_words (line : List Char) (name : String) (args : List String) :
    scan.words ((splitWhitespace line).map String.ofList) =
      scan.see (.directive line name args) scan.inBlock := by
  have hwords : (SourceLine.directive line name args).words =
      (splitWhitespace line).map String.ofList := rfl
  simp only [CredentialScan.see, SourceLine.asksUser, SourceLine.asksPassphrase,
    SourceLine.namesPassphrase, hwords]
  generalize (splitWhitespace line).map String.ofList = words
  cases words with
  | nil => simp [CredentialScan.words]
  | cons word rest =>
    by_cases hauth : asciiLower (trimStartDashes word) = "auth-user-pass"
    · cases harg : rest.head?.map trimQuotes with
      | none => simp [CredentialScan.words, SourceLine.wordIs, hauth, harg]
      | some arg =>
        by_cases honly : arg = "username-only"
        · simp [CredentialScan.words, SourceLine.wordIs, hauth, harg, honly]
        · simp [CredentialScan.words, SourceLine.wordIs, hauth, harg, honly]
    · by_cases hask : asciiLower (trimStartDashes word) = "askpass"
      · cases rest <;> simp [CredentialScan.words, SourceLine.wordIs, hask]
      · simp [CredentialScan.words, SourceLine.wordIs, hauth, hask]

/-- The words of a comment ask for nothing. -/
theorem scan_comment
    (h : ∀ word ∈ (splitWhitespace line).head?, word.head?.any isCommentChar = true) :
    scan.words ((splitWhitespace line).map String.ofList) = scan := by
  cases hwords : splitWhitespace line with
  | nil => rfl
  | cons word rest =>
    have hcomment := h word (by simp [hwords])
    cases word with
    | nil => simp at hcomment
    | cons c word =>
      have hc : c = '#' ∨ c = ';' := by simpa [isCommentChar] using hcomment
      have hlower : ∃ cs, (asciiLower (trimStartDashes (String.ofList (c :: word)))).toList =
          c :: cs := by
        rcases hc with rfl | rfl <;>
          exact ⟨word.map Char.toLower, by simp [asciiLower, trimStartDashes]⟩
      obtain ⟨cs, hcs⟩ := hlower
      have hne : ∀ expected : String, expected.toList.head? ≠ some c →
          asciiLower (trimStartDashes (String.ofList (c :: word))) ≠ expected := by
        rintro _ hhead rfl
        exact hhead (by rw [hcs]; rfl)
      rw [map_cons, CredentialScan.words]
      rw [if_neg (hne _ (by rcases hc with rfl | rfl <;> decide)),
        if_neg (hne _ (by rcases hc with rfl | rfl <;> decide))]

theorem not_prefix_of_not_less (h : ¬"<".toList.isPrefixOf cs = true) :
    ¬"</".toList.isPrefixOf cs = true := by
  intro hprefix
  have hshort : "<".toList <+: "</".toList := by decide
  exact h (List.isPrefixOf_iff_prefix.mpr (hshort.trans (List.isPrefixOf_iff_prefix.mp hprefix)))

/-- A line of a block that starts with an angle bracket is its closing tag. -/
theorem closing_of_head (hstep : st.blockLine tag line = .ok st')
    (hhead : (line.dropWhile isWhitespace).head? = some '<') :
    trim (String.ofList line) = "</" ++ tag ++ ">" := by
  rw [SanitizerState.blockLine] at hstep
  split at hstep
  · assumption
  · cases hstep

/-- The tag that an accepted line opens is the whole line. -/
theorem opening_of_step (hhead : token.toList.head? = some '<')
    (hstep : st.openBlock line token args = .ok st') :
    ∃ tag ∈ inlineTags, (trim (String.ofList line)).toList = '<' :: tag.toList ++ ['>'] := by
  rw [SanitizerState.openBlock] at hstep
  obtain ⟨hwhole, hstep⟩ := Checks.passed hstep
  simp only [not_or, not_not] at hwhole
  simp only at hstep
  obtain ⟨hend, hstep⟩ := Checks.passed hstep
  split at hstep
  · rename_i htag
    refine ⟨String.ofList (token.toList.drop 1).dropLast, by simpa using htag, ?_⟩
    obtain ⟨inner, hinner⟩ : ∃ inner, token.toList = '<' :: inner := by
      cases hlist : token.toList with
      | nil => simp [hlist] at hhead
      | cons c rest => exact ⟨rest, by simpa [hlist] using hhead⟩
    have hlast : (token.toList.drop 1).getLast? = some '>' := by simpa using hend
    rw [hinner, drop_succ_cons, drop_zero] at hlast
    have hdrop : token.toList.drop 1 = inner := by
      rw [hinner]
      rfl
    rw [hwhole.2, hdrop, String.toList_ofList, cons_append,
      dropLast_append_getLast? _ hlast, hinner]
  · cases hstep

theorem not_prefix_tag (h : tag ∈ inlineTags) :
    ¬"</".toList.isPrefixOf ('<' :: tag.toList ++ ['>']) = true := by
  have hall : ∀ tag ∈ inlineTags, ¬"</".toList.isPrefixOf ('<' :: tag.toList ++ ['>']) = true := by
    decide
  exact hall tag h

/-- An accepted line, as the sanitizer and as the scan see it. -/
theorem step_readLine (htag : ∀ tag, st.inline = some tag → tag ∈ inlineTags) (hraw : '\n' ∉ raw)
    (h : SanitizerState.readLine managed staging st raw = .ok st') :
    LineStep staging managed st (sourceLine st.inline.isSome raw).1
        (sourceLine st.inline.isSome raw).2 st' ∧
      ∀ scan : CredentialScan, scan.inBlock = st.inline.isSome →
        scan.line raw = scan.see (sourceLine st.inline.isSome raw).1
          (sourceLine st.inline.isSome raw).2 := by
  have hline : '\n' ∉ SanitizerState.stripCr raw := not_mem_stripCr hraw
  have hless := @prefix_trim_iff raw
  have htrim : trim (String.ofList (SanitizerState.stripCr raw)) = trim (String.ofList raw) := by
    rw [SanitizerState.stripCr, trim_stripCr]
  have hwords := splitWhitespace_stripCr raw
  have hno : ((SanitizerState.stripCr raw).dropWhile isWhitespace).head? ≠ some '<' →
      ¬("<".toList.isPrefixOf (trim (String.ofList raw)).toList &&
        !"</".toList.isPrefixOf (trim (String.ofList raw)).toList) = true := by
    intro hhead hboth
    rw [Bool.and_eq_true] at hboth
    exact hhead (hless.mp hboth.1)
  rw [SanitizerState.readLine] at h
  obtain ⟨hbad, h⟩ := Checks.passed h
  simp only [not_or] at hbad
  cases hinline : st.inline with
  | some tag =>
    rw [hinline] at h
    have hstep := @step_blockLine managed staging _ _ _ _ hinline
      (htag tag hinline) ⟨hline, hbad.2.2⟩ h
    rw [Option.isSome_some]
    by_cases hhead : ((SanitizerState.stripCr raw).dropWhile isWhitespace).head? = some '<'
    · have hclose := closing_of_head h hhead
      have hsource : sourceLine true raw = (.closing, false) := by simp [sourceLine, hhead]
      refine ⟨by simpa [hsource, hhead] using hstep, fun scan hscan => ?_⟩
      have hprefix : "</".toList.isPrefixOf (trim (String.ofList raw)).toList = true := by
        rw [← htrim, hclose, String.toList_append, String.toList_append]
        simp
      rw [CredentialScan.line, if_pos hscan, if_pos hprefix, hsource]
      simp [CredentialScan.see, SourceLine.asksUser, SourceLine.asksPassphrase,
        SourceLine.namesPassphrase, SourceLine.words]
    · have hsource : sourceLine true raw = (.content (SanitizerState.stripCr raw), true) := by
        simp [sourceLine, hhead]
      refine ⟨by simpa [hsource, hhead] using hstep, fun scan hscan => ?_⟩
      have hopen := not_prefix_of_not_less (mt hless.mp hhead)
      rw [CredentialScan.line, if_pos hscan, if_neg hopen, hsource]
      simp [CredentialScan.see, SourceLine.asksUser, SourceLine.asksPassphrase,
        SourceLine.namesPassphrase, SourceLine.words, ← hscan]
  | none =>
    rw [hinline] at h
    obtain ⟨tokens, htokens, h⟩ := bind_eq_ok.mp h
    rw [Option.isSome_none]
    cases tokens with
    | nil =>
      cases h
      obtain ⟨hhead, hcomment⟩ := of_no_tokens htokens
      have hsource : sourceLine false raw = (.blank, false) := by
        simp [sourceLine, htokens]
      constructor
      · rw [hsource]
        exact ⟨⟨[], .blank, by simp [unlines]⟩, by simp [SourceLine.namedAsset],
          by simp [hinline], by simp [hinline]⟩
      · intro scan hscan
        rw [CredentialScan.line, if_neg (by simp [hscan]), if_neg (hno hhead), hsource,
          ← hwords, scan_comment scan hcomment]
        obtain ⟨userPass, askpassPrompt, askpassFile, inBlock⟩ := scan
        simp only at hscan
        simp [CredentialScan.see, SourceLine.asksUser, SourceLine.asksPassphrase,
          SourceLine.namesPassphrase, SourceLine.words, hscan]
    | cons token args =>
      simp only at h
      split at h
      · rename_i hopen
        have hsource : sourceLine false raw =
            (.opening (String.ofList (token.toList.drop 1).dropLast), true) := by
          simp [sourceLine, htokens, hopen]
        refine ⟨by rw [hsource]; exact step_openBlock h, fun scan hscan => ?_⟩
        obtain ⟨tag, hmem, hwhole⟩ := opening_of_step hopen h
        rw [htrim] at hwhole
        have htagged : ("<".toList.isPrefixOf ('<' :: tag.toList ++ ['>']) &&
            !"</".toList.isPrefixOf ('<' :: tag.toList ++ ['>'])) = true := by
          rw [Bool.and_eq_true, Bool.not_eq_true']
          exact ⟨by simp, Bool.eq_false_iff.mpr (not_prefix_tag hmem)⟩
        rw [CredentialScan.line, if_neg (by simp [hscan]), hwhole, if_pos htagged, hsource]
        simp [CredentialScan.see, SourceLine.asksUser, SourceLine.asksPassphrase,
          SourceLine.namesPassphrase, SourceLine.words]
      · rename_i hopen
        have hsource : sourceLine false raw = (.directive (SanitizerState.stripCr raw)
            (asciiLower (trimStartDashes token)) args, false) := by
          simp [sourceLine, htokens, hopen]
        obtain ⟨hknown, hstep⟩ :=
          @step_directiveLine _ _ _ _ (SanitizerState.stripCr raw) _ _ hinline h
        refine ⟨by rw [hsource]; exact hstep, fun scan hscan => ?_⟩
        have hhead := head?_of_directive htokens hopen hknown
        rw [CredentialScan.line, if_neg (by simp [hscan]), if_neg (hno hhead), hsource,
          ← hwords, scan_words scan _ (asciiLower (trimStartDashes token)) args, hscan]

/-- The whole loop, as the sanitizer and as the scan see it. -/
theorem run_lines {lines : List (List Char)} (htag : ∀ tag, st.inline = some tag → tag ∈ inlineTags)
    (hlines : ∀ raw ∈ lines, '\n' ∉ raw)
    (h : lines.foldlM (SanitizerState.readLine managed staging) st = .ok st') :
    (∃ emitted, List.Forall₂ (Emits staging) (sourceLinesFrom st.inline.isSome lines) emitted ∧
      st'.output.toList = st.output.toList ++ unlines emitted.flatten) ∧
    st'.assets.map (·.bytes) = st.assets.map (·.bytes) ++
      (sourceLinesFrom st.inline.isSome lines).filterMap (SourceLine.namedAsset managed) ∧
    ∀ scan : CredentialScan, scan.inBlock = st.inline.isSome →
      ∃ inBlock, lines.foldl CredentialScan.line scan =
        { userPass := scan.userPass ||
            (sourceLinesFrom st.inline.isSome lines).any SourceLine.asksUser
          askpassPrompt := scan.askpassPrompt ||
            (sourceLinesFrom st.inline.isSome lines).any SourceLine.asksPassphrase
          askpassFile := scan.askpassFile ||
            (sourceLinesFrom st.inline.isSome lines).any SourceLine.namesPassphrase
          inBlock } := by
  induction lines generalizing st with
  | nil =>
    cases h
    refine ⟨⟨[], .nil, by simp [unlines]⟩, by simp [sourceLinesFrom], fun scan _ => ⟨scan.inBlock, ?_⟩⟩
    simp [sourceLinesFrom]
  | cons raw lines ih =>
    rw [foldlM_cons] at h
    obtain ⟨next, hfirst, hrest⟩ := bind_eq_ok.mp h
    obtain ⟨⟨⟨emitted, hemits, houtput⟩, hassets, hblock, htag'⟩, hscan⟩ :=
      step_readLine htag (hlines raw (by simp)) hfirst
    obtain ⟨⟨later, hlater, houtput'⟩, hassets', hscan'⟩ :=
      ih htag' (fun r hr => hlines r (by simp [hr])) hrest
    rw [hblock] at hlater hassets' hscan'
    rw [sourceLinesFrom]
    refine ⟨⟨emitted :: later, .cons hemits hlater, ?_⟩, ?_, fun scan hin => ?_⟩
    · rw [houtput', houtput, flatten_cons, unlines_append, append_assoc]
    · rw [hassets', hassets, append_assoc, filterMap_cons]
      cases (sourceLine st.inline.isSome raw).1.namedAsset managed <;> rfl
    · rw [foldl_cons, hscan scan hin]
      obtain ⟨inBlock, hfold⟩ := hscan' (scan.see _ _) rfl
      refine ⟨inBlock, ?_⟩
      rw [hfold]
      simp only [CredentialScan.see, any_cons, Bool.or_assoc]

/-! ### Words of a written line -/

theorem intercalate_eq_word {args : List (List Char)} (hword : ' ' ∉ word) :
    [' '].intercalate (name :: args) = word ↔ name = word ∧ args = [] := by
  cases args with
  | nil => simp
  | cons arg args =>
    rw [intercalate_cons_cons]
    constructor
    · rintro rfl
      exact absurd hword (by simp)
    · rintro ⟨-, hargs⟩
      cases hargs

/-- A line of words starts with a word and a blank where that is its first word and there are
more. -/
theorem prefix_intercalate {args : List (List Char)} (hname : ' ' ∉ name)
    (hword : ' ' ∉ word) : (word ++ [' ']).isPrefixOf ([' '].intercalate (name :: args)) = true ↔
      name = word ∧ args ≠ [] := by
  rw [List.isPrefixOf_iff_prefix]
  cases args with
  | nil =>
    rw [intercalate_singleton]
    constructor
    · rintro ⟨tail, rfl⟩
      exact absurd hname (by simp)
    · rintro ⟨-, hargs⟩
      exact absurd rfl hargs
  | cons arg args =>
    rw [intercalate_cons_cons, append_assoc, singleton_append]
    constructor
    · rintro ⟨tail, htail⟩
      rw [append_assoc, singleton_append] at htail
      have hsplit := splitOnce_append hname ([' '].intercalate (arg :: args))
      rw [← htail, splitOnce_append hword] at hsplit
      exact ⟨(Prod.mk.inj (Option.some.inj hsplit)).1.symm, by simp⟩
    · rintro ⟨rfl, -⟩
      exact ⟨[' '].intercalate (arg :: args), by simp⟩

theorem not_mem_of_known {name : String} (h : name ∈ knownDirectives) : ' ' ∉ name.toList := by
  have hall : ∀ name ∈ knownDirectives, ' ' ∉ name.toList := by decide
  exact hall name h

end

/-! ### Predicates of the written lines -/

section
variable {staging : String} {line : SourceLine} {emitted : List (List Char)}
  {words : List (List Char)}

/-- A written line is a bare directive where the source line is one. -/
theorem emits_bare {word : String} (hword : ' ' ∉ word.toList) (htag : word.toList.head? ≠ some '<')
    (h : Emits staging line emitted) : emitted.any (· = word.toList) = true ↔
      (∃ text, line = .directive text word []) ∨ line = .content word.toList := by
  cases h with
  | blank => simp
  | content text htext => simp
  | closing tag _ =>
    have hne : '<' :: '/' :: tag.toList ++ ['>'] ≠ word.toList := by
      intro heq
      rw [← heq] at htag
      exact htag rfl
    simpa using hne
  | opening tag _ =>
    have hne : '<' :: tag.toList ++ ['>'] ≠ word.toList := by
      intro heq
      rw [← heq] at htag
      exact htag rfl
    simpa using hne
  | plain text name args hcheck =>
    have hiff := @intercalate_eq_word name.toList _ (args.map String.toList) hword
    simp only [map_cons, any_cons, any_nil, Bool.or_false, decide_eq_true_eq, hiff,
      map_eq_nil_iff, String.toList_inj, reduceCtorEq, or_false,
      SourceLine.directive.injEq]
    constructor
    · rintro ⟨rfl, rfl⟩
      exact ⟨text, rfl, rfl, rfl⟩
    · rintro ⟨_, -, hname, hargs⟩
      exact ⟨hname, hargs⟩
  | staged text name source rest index hcheck _ =>
    have hiff := @intercalate_eq_word name.toList _
      ((joinPath staging (assetName index) :: rest).map String.toList) hword
    simp only [map_cons] at hiff
    simp only [map_cons, any_cons, any_nil, Bool.or_false, decide_eq_true_eq, hiff,
      reduceCtorEq, and_false, or_false, SourceLine.directive.injEq, false_iff, not_exists,
      not_false_eq_true, implies_true]

theorem bare_iff (line : SourceLine) (word : String) :
    (∃ text, line = .directive text word []) ∨ line = .content word.toList ↔
      line.bare word = true := by
  cases line <;> simp [SourceLine.bare]

theorem emits_bare_eq {word : String} (hword : ' ' ∉ word.toList)
    (htag : word.toList.head? ≠ some '<') (h : Emits staging line emitted) :
    emitted.any (· = word.toList) = line.bare word := by
  rw [Bool.eq_iff_iff, emits_bare hword htag h]
  exact bare_iff line word

theorem keyLine_directive {name : String} (hname : name ∈ knownDirectives) (args : List String) :
    keyLine ([' '].intercalate ((name :: args).map String.toList)) = true ↔
      (name = "key" ∨ name = "pkcs12") ∧ args ≠ [] := by
  have hspace := not_mem_of_known hname
  have hkey := @prefix_intercalate _ "key".toList (args.map String.toList) hspace (by decide)
  have hpkcs := @prefix_intercalate _ "pkcs12".toList (args.map String.toList) hspace (by decide)
  -- No directive starts with an angle bracket.
  have htag : ∀ tag : String, tag.toList.head? = some '<' → ' ' ∉ tag.toList →
      [' '].intercalate (name.toList :: args.map String.toList) ≠ tag.toList := by
    intro tag htag hno heq
    obtain ⟨hsame, -⟩ := (intercalate_eq_word hno).mp heq
    have hlower := (knownDirective_spec hname).2 '<' (by rw [hsame, htag])
    exact absurd hlower (by decide)
  simp only [keyLine, map_cons, Bool.or_eq_true, decide_eq_true_eq,
    htag "<key>" (by decide) (by decide), htag "<pkcs12>" (by decide) (by decide), false_or]
  rw [show "key ".toList = "key".toList ++ [' '] by decide,
    show "pkcs12 ".toList = "pkcs12".toList ++ [' '] by decide, hkey, hpkcs, String.toList_inj,
    String.toList_inj, ne_eq, ne_eq, map_eq_nil_iff]
  tauto

theorem emits_key (h : Emits staging line emitted) :
    emitted.any keyLine = (line.namesKey || line.looksLikeKey) := by
  have htags : ∀ tag ∈ inlineTags, keyLine ('<' :: '/' :: tag.toList ++ ['>']) = false ∧
        keyLine ('<' :: tag.toList ++ ['>']) = (tag = "key" || tag = "pkcs12") := by
    decide
  -- A key is always a file: the directive has an argument.
  have hbare : ∀ name : String, name = "key" ∨ name = "pkcs12" →
      checkDirective name [] ≠ .ok .plain := by
    rintro _ (rfl | rfl) <;> decide
  cases h with
  | blank => rfl
  | content text htext =>
    have hnotag : ∀ tag : List Char, tag.head? = some '<' → text ≠ tag := by
      rintro tag htag rfl
      refine htext.noTag ?_
      cases text with
      | nil => cases htag
      | cons c rest =>
        cases htag
        simp [isWhitespace]
    have hkey := decide_eq_false (hnotag "<key>".toList (by decide))
    have hpkcs := decide_eq_false (hnotag "<pkcs12>".toList (by decide))
    rw [any_cons, any_nil, Bool.or_false, keyLine, hkey, hpkcs, Bool.false_or]
    rfl
  | closing tag hmem =>
    rw [any_cons, any_nil, Bool.or_false, (htags tag hmem).1]
    rfl
  | opening tag hmem =>
    rw [any_cons, any_nil, Bool.or_false, (htags tag hmem).2]
    simp [SourceLine.namesKey, SourceLine.looksLikeKey]
  | plain text name args hcheck =>
    obtain ⟨hname, -, hfile⟩ := checkDirective_plain hcheck
    rw [Bool.eq_iff_iff]
    simp only [any_cons, any_nil, Bool.or_false, keyLine_directive hname,
      SourceLine.namesKey, SourceLine.looksLikeKey, Bool.or_eq_true, decide_eq_true_eq]
    constructor
    · exact fun hboth => hboth.1
    · intro hkey
      refine ⟨hkey, ?_⟩
      rintro rfl
      exact hbare name hkey hcheck
  | staged text name source rest index hcheck _ =>
    obtain ⟨hname, -⟩ := checkDirective_staged hcheck
    rw [Bool.eq_iff_iff]
    simp only [any_cons, any_nil, Bool.or_false, keyLine_directive hname,
      SourceLine.namesKey, SourceLine.looksLikeKey, Bool.or_eq_true, decide_eq_true_eq]
    simp

theorem count_intercalate (h : ∀ word ∈ words, ' ' ∉ word) :
    ([' '].intercalate words).count ' ' ≤ words.length - 1 := by
  induction words with
  | nil => simp
  | cons word words ih =>
    have hword := count_eq_zero_of_not_mem (h word (by simp))
    cases words with
    | nil => simp [hword]
    | cons next words =>
      have hrest := ih fun w hw => h w (mem_cons_of_mem _ hw)
      rw [intercalate_cons_cons, count_append, count_append, hword]
      simp only [length_cons, count_singleton_self] at hrest ⊢
      omega

theorem hasEncryptedKey_iff {bytes : List UInt8} :
    hasEncryptedKey bytes = true ↔ ∃ marker ∈ encryptedKeyMarkers, marker <:+: bytes := by
  simp only [hasEncryptedKey, any_eq_true, mem_tails, isPrefixOf_iff_prefix,
    infix_iff_prefix_suffix, and_comm]

/-- No marker crosses a line end. -/
theorem hasEncryptedKey_unlines (lines : List (List Char)) :
    hasEncryptedKey (utf8Bytes (unlines lines)) =
      lines.any fun line => hasEncryptedKey (utf8Bytes line) := by
  have hno : ∀ marker ∈ encryptedKeyMarkers, newline ∉ marker := by decide
  induction lines with
  | nil => decide
  | cons line lines ih =>
    have hbytes : utf8Bytes (unlines (line :: lines)) =
        utf8Bytes line ++ newline :: utf8Bytes (unlines lines) := by
      show utf8Bytes (line ++ ['\n'] ++ unlines lines) = _
      rw [utf8Bytes_append, utf8Bytes_append, append_assoc]
      rfl
    rw [any_cons, ← ih, Bool.eq_iff_iff, Bool.or_eq_true, hasEncryptedKey_iff,
      hasEncryptedKey_iff, hasEncryptedKey_iff, hbytes]
    constructor
    · rintro ⟨marker, hmarker, hinfix⟩
      rcases (infix_append_cons (hno marker hmarker)).mp hinfix with hinfix | hinfix
      · exact .inl ⟨marker, hmarker, hinfix⟩
      · exact .inr ⟨marker, hmarker, hinfix⟩
    · rintro (⟨marker, hmarker, hinfix⟩ | ⟨marker, hmarker, hinfix⟩)
      · exact ⟨marker, hmarker, (infix_append_cons (hno marker hmarker)).mpr (.inl hinfix)⟩
      · exact ⟨marker, hmarker, (infix_append_cons (hno marker hmarker)).mpr (.inr hinfix)⟩

/-- One marker has three blanks and the other a comma. The line of a staged file has neither. -/
theorem not_hasEncryptedKey (hlen : words.length ≤ 3)
    (h : ∀ word ∈ words, ' ' ∉ word ∧ ',' ∉ word) :
    hasEncryptedKey (utf8Bytes ([' '].intercalate words)) = false := by
  have hmarkers : ∀ marker ∈ encryptedKeyMarkers,
      3 ≤ marker.count (asciiByte ' ') ∨ asciiByte ',' ∈ marker := by
    decide
  have hcount := count_intercalate fun word hword => (h word hword).1
  rw [Bool.eq_false_iff]
  intro hfound
  obtain ⟨marker, hmarker, hinfix⟩ := hasEncryptedKey_iff.mp hfound
  rcases hmarkers marker hmarker with hblanks | hcomma
  · have hle := hinfix.sublist.count_le (asciiByte ' ')
    rw [count_utf8Bytes (by decide)] at hle
    omega
  · have hmem := (asciiByte_mem_utf8Bytes (by decide)).mp (List.IsInfix.subset hinfix hcomma)
    exact not_mem_intercalate (by decide) (fun word hword => (h word hword).2) hmem

theorem emits_marker (hdir : safeStagingDir staging = true) (h : Emits staging line emitted) :
    emitted.any (fun text => hasEncryptedKey (utf8Bytes text)) = line.textMarker := by
  have htags : ∀ tag ∈ inlineTags,
      (' ' ∉ '<' :: '/' :: tag.toList ++ ['>'] ∧ ',' ∉ '<' :: '/' :: tag.toList ++ ['>']) ∧
        ' ' ∉ '<' :: tag.toList ++ ['>'] ∧ ',' ∉ '<' :: tag.toList ++ ['>'] := by
    decide
  cases h with
  | blank => rfl
  | content text _ => simp [SourceLine.textMarker]
  | closing tag hmem =>
    have hnone := @not_hasEncryptedKey ['<' :: '/' :: tag.toList ++ ['>']] (by simp)
      (by simpa using (htags tag hmem).1)
    rw [intercalate_singleton] at hnone
    rw [any_cons, any_nil, Bool.or_false, hnone]
    rfl
  | opening tag hmem =>
    have hnone := @not_hasEncryptedKey ['<' :: tag.toList ++ ['>']] (by simp)
      (by simpa using (htags tag hmem).2)
    rw [intercalate_singleton] at hnone
    rw [any_cons, any_nil, Bool.or_false, hnone]
    rfl
  | plain text name args hcheck => simp [SourceLine.textMarker, hcheck]
  | staged text name source rest index hcheck _ =>
    obtain ⟨hname, -, source', rest', heq, hlen, hdirection⟩ := checkDirective_staged hcheck
    cases heq
    have hnone := @not_hasEncryptedKey
      ((name :: joinPath staging (assetName index) :: rest).map String.toList)
      (by simp only [length_map, length_cons]; omega) (by
        intro word hword
        rw [map_cons, map_cons, mem_cons, mem_cons] at hword
        rcases hword with rfl | rfl | hword
        · have hall : ∀ name ∈ knownDirectives, ' ' ∉ name.toList ∧ ',' ∉ name.toList := by decide
          exact hall name hname
        · have hpath := pathChar_of_mem_stagedPath hdir index
          exact ⟨fun hc => absurd (hpath _ hc) (by decide),
            fun hc => absurd (hpath _ hc) (by decide)⟩
        · obtain ⟨arg, harg, rfl⟩ := mem_map.mp hword
          rcases hdirection arg harg with rfl | rfl <;> decide)
    rw [any_cons, any_nil, Bool.or_false, hnone, SourceLine.textMarker, hcheck]
    rfl

end

/-! ### Both readings of an accepted text -/

section
variable {input staging : String} {managed : AssetMap} {config : SanitizedOpenVpnConfig}
  {lines : List SourceLine} {emitted : List (List (List Char))}

theorem any_of_emits {p : List Char → Bool} {q : SourceLine → Bool}
    (h : List.Forall₂ (Emits staging) lines emitted)
    (hpq : ∀ line written, Emits staging line written → written.any p = q line) :
    emitted.flatten.any p = lines.any q := by
  induction h with
  | nil => rfl
  | cons hfirst _ ih => rw [flatten_cons, any_append, hpq _ _ hfirst, ih, any_cons]

/-- A written line is one line. -/
theorem emits_clean (hdir : safeStagingDir staging = true) {line : SourceLine}
    {written : List (List Char)} (h : Emits staging line written) :
    ∀ text ∈ written, '\n' ∉ text ∧ '\r' ∉ text := by
  cases h with
  | blank => simp
  | content text htext => simpa using ⟨htext.noNewline, htext.noReturn⟩
  | closing tag hmem =>
    have hclean := @not_mem_lines _ hdir (.block tag []) ⟨hmem, by simp⟩
    exact fun text htext => hclean text (by simp_all [ConfigItem.lines])
  | opening tag hmem =>
    have hclean := @not_mem_lines _ hdir (.block tag []) ⟨hmem, by simp⟩
    exact fun text htext => hclean text (by simp_all [ConfigItem.lines])
  | plain text name args hcheck => exact @not_mem_lines _ hdir (.directive name args) (.inl hcheck)
  | staged text name source rest index hcheck hsource =>
    exact @not_mem_lines _ hdir (.directive name (joinPath staging (assetName index) :: rest))
      (.inr ⟨source, rest, index, hcheck, hsource, rfl⟩)

theorem clean_of_emits (hdir : safeStagingDir staging = true)
    (h : List.Forall₂ (Emits staging) lines emitted) :
    ∀ text ∈ emitted.flatten, '\n' ∉ text ∧ '\r' ∉ text := by
  induction h with
  | nil => simp
  | cons hfirst _ ih =>
    intro text htext
    rw [flatten_cons, mem_append] at htext
    exact htext.elim (emits_clean hdir hfirst text) (ih text)

/-- The text that is written, and what both sides find in it, by source lines. -/
theorem sanitized_lines (h : sanitizeOpenvpnConfig input managed staging = .ok config) :
    (textLines config.config).any (· = "auth-user-pass".toList) =
        (sourceLines input).any (SourceLine.bare "auth-user-pass") ∧
    (textLines config.config).any (· = "askpass".toList) =
        (sourceLines input).any (SourceLine.bare "askpass") ∧
    (textLines config.config).any keyLine =
        (sourceLines input).any (fun line => line.namesKey || line.looksLikeKey) ∧
    hasEncryptedKey (utf8Bytes config.config.toList) =
        (sourceLines input).any SourceLine.textMarker ∧
    config.assets.map (·.bytes) = (sourceLines input).filterMap (SourceLine.namedAsset managed) ∧
    ∃ inBlock, (textLines input).foldl CredentialScan.line .blank =
      { userPass := (sourceLines input).any SourceLine.asksUser
        askpassPrompt := (sourceLines input).any SourceLine.asksPassphrase
        askpassFile := (sourceLines input).any SourceLine.namesPassphrase
        inBlock } := by
  rw [sanitizeOpenvpnConfig] at h
  obtain ⟨-, h⟩ := Checks.passed h
  obtain ⟨ hunsafe, h⟩ := Checks.passed h
  have hdir : safeStagingDir staging = true := by simpa using hunsafe
  obtain ⟨st, hrun, hend⟩ := bind_eq_ok.mp h
  obtain ⟨⟨emitted, hemits, houtput⟩, hassets, hscan⟩ :=
    run_lines (by simp [SanitizerState.blank]) (fun raw hraw => of_mem_textLines hraw) hrun
  have hconfig : config = { config := st.output, assets := st.assets } := by
    split at hend
    · cases hend
    · split at hend <;> cases hend
      rfl
  rw [hconfig]
  have houtput' : st.output.toList = unlines emitted.flatten := by
    rw [houtput]
    rfl
  have hclean := clean_of_emits hdir hemits
  have hlines : textLines st.output = emitted.flatten := by
    rw [← String.ofList_toList (s := st.output), houtput', textLines_unlines_clean hclean]
  refine ⟨?_, ?_, ?_, ?_, ?_, ?_⟩
  · rw [hlines, any_of_emits hemits fun _ _ => emits_bare_eq (by decide) (by decide)]
    rfl
  · rw [hlines, any_of_emits hemits fun _ _ => emits_bare_eq (by decide) (by decide)]
    rfl
  · rw [hlines, any_of_emits hemits fun _ _ => emits_key]
    rfl
  · rw [houtput', hasEncryptedKey_unlines, any_of_emits hemits fun _ _ => emits_marker hdir]
    rfl
  · rw [hassets]
    rfl
  · obtain ⟨inBlock, hfold⟩ := hscan .blank rfl
    refine ⟨inBlock, hfold.trans ?_⟩
    simp only [CredentialScan.blank, Bool.false_or]
    rfl

/-- A profile whose two readings agree.

* A line of a block reads like a key directive only where there is a key.
* A bare `askpass` (or a line of a block that reads so) or the marker of an encrypted key in a line
  of a block, in a directive or in a named asset is there exactly when the words of the text ask for
  a passphrase: an `askpass` without more words, or a marker anywhere in the text or the assets, and
  no `askpass` with more words.
* A bare `auth-user-pass` (or a line of a block that reads so) is there exactly when the words of a
  line are `auth-user-pass` alone or with `username-only`. This does not matter where a passphrase is
  asked for and there is no key, since both sides refuse everything then. -/
structure PromptsAgree (input : String) (managed : AssetMap) : Prop where
  key : (sourceLines input).any SourceLine.looksLikeKey = true →
    (sourceLines input).any SourceLine.namesKey = true
  passphrase :
    ((sourceLines input).any (SourceLine.bare "askpass") ||
        (sourceLines input).any (SourceLine.holdsMarker managed)) =
      (((sourceLines input).any SourceLine.asksPassphrase ||
          (hasEncryptedKey (utf8Bytes input.toList) || managed.values.any hasEncryptedKey)) &&
        !(sourceLines input).any SourceLine.namesPassphrase)
  userPass :
    (sourceLines input).any (SourceLine.bare "auth-user-pass") =
        (sourceLines input).any SourceLine.asksUser ∨
      ((sourceLines input).any (SourceLine.bare "askpass") ||
        (sourceLines input).any (SourceLine.holdsMarker managed)) = true ∧
      (sourceLines input).any SourceLine.namesKey = false

/-- The credentials are what the requirements ask for: a user name and a password exactly when
asked, a passphrase when asked, and one only when there is a key. -/
def CredentialsMatch (requirements : CredentialRequirements) (hasKey : Bool)
    (credentials : Option OpenVpnCredentials) : Prop :=
  ((credentials.any fun value => value.authUserPass.isSome) = true ↔
      requirements.userPass = true) ∧
    (requirements.keyPassphrase = true →
      (credentials.any fun value => value.privateKeyPassphrase.isSome) = true) ∧
    ((credentials.any fun value => value.privateKeyPassphrase.isSome) = true → hasKey = true)

/-- Some credentials with or without each of the two parts. -/
def sampleCredentials (user passphrase : Bool) : Option OpenVpnCredentials :=
  if user || passphrase then
    some
      { authUserPass := if user then some ⟨"user", "password"⟩ else none
        privateKeyPassphrase := if passphrase then some "passphrase" else none }
  else none

/-- The test, with the two flags that follow from the others left out. -/
theorem accepted_iff (auth ask textMarker assetMarker hasKey suppliedAuth suppliedKey : Bool) :
    (!(auth != suppliedAuth || (ask && !hasKey) || ((ask || textMarker) && !suppliedKey) ||
        (suppliedKey && !hasKey)) && !(assetMarker && !suppliedKey)) = true ↔
      suppliedAuth = auth ∧ ((ask || (textMarker || assetMarker)) = true → suppliedKey = true) ∧
        (suppliedKey = true → hasKey = true) := by
  cases ask <;> cases hasKey <;> cases suppliedKey <;> cases textMarker <;>
    simp [eq_comm (a := auth)]

/-- The test and the requirements over all four kinds of credentials. -/
theorem agree_table (auth user prompt key likeKey asked : Bool) :
    (∀ suppliedAuth suppliedKey : Bool,
      (suppliedAuth = auth ∧ (prompt = true → suppliedKey = true) ∧
          (suppliedKey = true → (key || likeKey) = true) ↔
        (suppliedAuth = true ↔ user = true) ∧ (asked = true → suppliedKey = true) ∧
          (suppliedKey = true → key = true))) ↔
    (likeKey = true → key = true) ∧ prompt = asked ∧
      (auth = user ∨ prompt = true ∧ key = false) := by
  cases prompt <;> cases key <;> cases likeKey <;> cases asked <;> cases auth <;> cases user <;> simp

theorem any_or {α : Type} (lines : List α) (p q : α → Bool) :
    (lines.any fun line => p line || q line) = (lines.any p || lines.any q) := by
  induction lines with
  | nil => rfl
  | cons line lines ih =>
    rw [any_cons, any_cons, any_cons, ih]
    cases p line <;> simp [Bool.or_left_comm]

variable (user passphrase : Bool)

theorem sampleCredentials_valid :
    ∀ value ∈ sampleCredentials user passphrase, validateOpenvpnCredentials value = .ok () := by
  cases user <;> cases passphrase <;> decide

/-- The sample credentials have the parts that they are made with. -/
theorem sampleCredentials_parts :
    ((sampleCredentials user passphrase).any fun value => value.authUserPass.isSome) = user ∧
      ((sampleCredentials user passphrase).any fun value => value.privateKeyPassphrase.isSome) =
        passphrase := by
  cases user <;> cases passphrase <;> decide

/-- The test of an accepted text, by its source lines. -/
theorem credentialsAccepted_iff (h : sanitizeOpenvpnConfig input managed staging = .ok config)
    (credentials : Option OpenVpnCredentials) : credentialsAccepted config credentials = true ↔
      (credentials.any fun value => value.authUserPass.isSome) =
          (sourceLines input).any (SourceLine.bare "auth-user-pass") ∧
        (((sourceLines input).any (SourceLine.bare "askpass") ||
            (sourceLines input).any (SourceLine.holdsMarker managed)) = true →
          (credentials.any fun value => value.privateKeyPassphrase.isSome) = true) ∧
        ((credentials.any fun value => value.privateKeyPassphrase.isSome) = true →
          ((sourceLines input).any SourceLine.namesKey ||
            (sourceLines input).any SourceLine.looksLikeKey) = true) := by
  obtain ⟨hauth, hask, hkey, hmarker, hassets, -⟩ := sanitized_lines h
  have hnamed : (config.assets.any fun asset => hasEncryptedKey asset.bytes) =
      (sourceLines input).any fun line => (line.namedAsset managed).any hasEncryptedKey := by
    have hbytes : (config.assets.any fun asset => hasEncryptedKey asset.bytes) =
        (config.assets.map (·.bytes)).any hasEncryptedKey := by
      rw [any_map]
      rfl
    rw [hbytes, hassets, any_filterMap]
    refine congrArg (sourceLines input).any (funext fun line => ?_)
    cases line.namedAsset managed <;> rfl
  have hholds : (sourceLines input).any (SourceLine.holdsMarker managed) =
      ((sourceLines input).any SourceLine.textMarker ||
        (sourceLines input).any fun line => (line.namedAsset managed).any hasEncryptedKey) :=
    any_or ..
  rw [credentialsAccepted]
  simp only [hauth, hask, hkey, hnamed, encryptedKey, hmarker, any_or _ SourceLine.namesKey]
  rw [accepted_iff, hholds]

/-- The daemon's test accepts exactly the credentials that the scan asks for, for all valid
credentials, where the two readings of the profile agree. -/
theorem credentials_agree_iff (h : sanitizeOpenvpnConfig input managed staging = .ok config) :
    (∀ credentials : Option OpenVpnCredentials,
      (∀ value ∈ credentials, validateOpenvpnCredentials value = .ok ()) →
      (credentialsAccepted config credentials = true ↔
        CredentialsMatch (credentialRequirements input managed)
          ((sourceLines input).any SourceLine.namesKey) credentials)) ↔
    PromptsAgree input managed := by
  obtain ⟨-, -, -, -, -, inBlock, hscan⟩ := sanitized_lines h
  have hrequirements : credentialRequirements input managed =
      { userPass := (sourceLines input).any SourceLine.asksUser
        keyPassphrase := ((sourceLines input).any SourceLine.asksPassphrase ||
            (hasEncryptedKey (utf8Bytes input.toList) || managed.values.any hasEncryptedKey)) &&
          !(sourceLines input).any SourceLine.namesPassphrase } := by
    rw [credentialRequirements, hscan]
  have htable := agree_table ((sourceLines input).any (SourceLine.bare "auth-user-pass"))
    ((sourceLines input).any SourceLine.asksUser)
    ((sourceLines input).any (SourceLine.bare "askpass") ||
      (sourceLines input).any (SourceLine.holdsMarker managed))
    ((sourceLines input).any SourceLine.namesKey) ((sourceLines input).any SourceLine.looksLikeKey)
    (credentialRequirements input managed).keyPassphrase
  constructor
  · intro hall
    obtain ⟨hkey, hpassphrase, huser⟩ := htable.mp fun suppliedAuth suppliedKey => by
      have hsample := hall (sampleCredentials suppliedAuth suppliedKey)
        (sampleCredentials_valid suppliedAuth suppliedKey)
      obtain ⟨hpartAuth, hpartKey⟩ := sampleCredentials_parts suppliedAuth suppliedKey
      rw [credentialsAccepted_iff h, CredentialsMatch, hpartAuth, hpartKey, hrequirements] at hsample
      rw [hrequirements]
      exact hsample
    rw [hrequirements] at hpassphrase
    exact ⟨hkey, hpassphrase, huser⟩
  · intro hagree credentials _
    have hpassphrase := hagree.passphrase
    have hboth := htable.mpr ⟨hagree.key, by rw [hrequirements]; exact hpassphrase, hagree.userPass⟩
    rw [credentialsAccepted_iff h, CredentialsMatch, hboth, hrequirements]

/-- A profile with an encrypted key, which asks for a passphrase and for a user name with a
password. -/
def promptProfile : String :=
  "client\nremote harbor\nauth-user-pass\n<key>\nENCRYPTED PRIVATE KEY\n</key>\n"

def promptConfig : SanitizedOpenVpnConfig := { config := promptProfile, assets := [] }

theorem prompt_credentials_agree :
    credentialsAccepted promptConfig (sampleCredentials true true) = true ↔
      CredentialsMatch (credentialRequirements promptProfile ⟨[], by decide⟩)
        ((sourceLines promptProfile).any SourceLine.namesKey) (sampleCredentials true true) :=
  have haccepted : sanitizeOpenvpnConfig promptProfile ⟨[], by decide⟩ harborStaging =
      .ok promptConfig := by decide +kernel
  (credentials_agree_iff haccepted).mpr
    ⟨by decide +kernel, by decide +kernel, by decide +kernel⟩ (sampleCredentials true true)
    (sampleCredentials_valid true true)

/-- A profile whose `auth-user-pass` has an argument that still prompts. -/
def usernameOnlyProfile : String := "client\nremote harbor\nauth-user-pass username-only\n"

def usernameOnlyConfig : SanitizedOpenVpnConfig := { config := usernameOnlyProfile, assets := [] }

def userPassCredentials : OpenVpnCredentials :=
  { authUserPass := some ⟨"user", "password"⟩, privateKeyPassphrase := none }

/-- The scan asks for a user name and a password, and the test rejects them. -/
theorem username_only_rejected :
    sanitizeOpenvpnConfig usernameOnlyProfile ⟨[], by decide⟩ harborStaging =
        .ok usernameOnlyConfig ∧
      validateOpenvpnCredentials userPassCredentials = .ok () ∧
      CredentialsMatch (credentialRequirements usernameOnlyProfile ⟨[], by decide⟩)
        ((sourceLines usernameOnlyProfile).any SourceLine.namesKey) (some userPassCredentials) ∧
      credentialsAccepted usernameOnlyConfig (some userPassCredentials) = false := by
  unfold CredentialsMatch
  decide +kernel

end

end NetOrchestrator.Core
