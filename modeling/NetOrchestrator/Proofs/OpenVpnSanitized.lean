import NetOrchestrator.Lib.Checks
import NetOrchestrator.Proofs.OpenVpnReread

/-!
# `Proofs.OpenVpnSanitized`: what the sanitizer lets through

`Written` says what the loop over the lines has written: the text of permitted items, and the
start of a block that is still open. Every accepted line keeps it, so the whole output is the text
of permitted items, which OpenVPN reads back as they are (`reread_sanitized`).
-/

namespace NetOrchestrator.Core

open Lib List Option Checks
open Daemon
open Bool (and_eq_true or_eq_true not_eq_true' not_eq_false)

/-! ### Arguments -/

variable {arg : String}

theorem safeOptionValue_iff :
    safeOptionValue arg = true ↔ arg ≠ "" ∧ ∀ c ∈ arg.toList, wordChar c = true := by
  simp [safeOptionValue, wordChar]

theorem safeOptionValue_of_positiveNumber (h : positiveNumber arg = true) :
    safeOptionValue arg = true := by
  simp only [positiveNumber, and_eq_true, bne_iff_ne, ne_eq, List.all_eq_true] at h
  refine safeOptionValue_iff.mpr ⟨h.1, fun c hc => ?_⟩
  simp [wordChar, asciiAlphanumericOr, isAsciiAlphanumeric, Char.isAlphanum, h.2 c hc]

theorem safeOptionValue_of_isClientProto (h : isClientProto arg = true) :
    safeOptionValue arg = true := by
  simp only [isClientProto, contains_eq_mem, decide_eq_true_eq] at h
  revert arg
  decide

theorem safeOptionValue_of_mem {values : List String} (h : values.contains arg = true)
    (hvalues : ∀ value ∈ values, safeOptionValue value = true) : safeOptionValue arg = true :=
  hvalues arg (by simpa using h)

/-- The names of all directives that the sanitizer may write. -/
def knownDirectives : List String :=
  flagDirectives ++ ["auth-user-pass", "askpass", "remote"] ++ argumentDirectives

/-- The directives that take a file. -/
def fileTakers : List String := fileDirectives ++ ["tls-auth", "auth-user-pass", "askpass"]

theorem safeOptionValue_of_accepts {rule : ArgumentRule} (hrule : rule ∈ argumentRules)
    (h : rule.accepts arg = true) : safeOptionValue arg = true := by
  simp only [argumentRules, mem_cons, not_mem_nil, or_false] at hrule
  -- The rules that name their values, and those that check for a number, a protocol or a value.
  rcases hrule with rfl | rfl | rfl | rfl | rfl | rfl | rfl | rfl | rfl | rfl | rfl | rfl | rfl |
    rfl
  case inr.inr.inr.inl =>
    simp only [or_eq_true, decide_eq_true_eq] at h
    rcases h with rfl | hnumber
    · decide
    · exact safeOptionValue_of_positiveNumber hnumber
  all_goals first
    | exact h
    | exact safeOptionValue_of_positiveNumber h
    | exact safeOptionValue_of_isClientProto h
    | exact safeOptionValue_of_mem h (by decide)
    | (simp only [decide_eq_true_eq] at h; rw [h]; decide)

variable {directive : String} {args : List String}

theorem plainDirective_spec (h : plainDirective directive args = true) :
    directive ∈ argumentDirectives ∧ directive ∉ fileTakers ∧
      ∀ arg ∈ args, safeOptionValue arg = true := by
  have hnames : ∀ rule ∈ argumentRules, ∀ name ∈ rule.directives,
      name ∈ argumentDirectives ∧ name ∉ fileTakers := by
    decide
  rw [plainDirective, List.any_eq_true] at h
  obtain ⟨rule, hrule, hmatch⟩ := h
  simp only [and_eq_true, List.contains_eq_mem, decide_eq_true_eq, List.all_eq_true] at hmatch
  obtain ⟨⟨hname, -⟩, hargs⟩ := hmatch
  obtain ⟨hknown, hfile⟩ := hnames rule hrule directive hname
  exact ⟨hknown, hfile, fun arg harg => safeOptionValue_of_accepts hrule (hargs arg harg)⟩

theorem validateRemote_safe (h : validateRemote args = .ok ()) :
    ∀ arg ∈ args, safeOptionValue arg = true := by
  cases args with
  | nil => simp
  | cons host rest =>
    rw [validateRemote] at h
    obtain ⟨hhost, h⟩ := Checks.passed h
    simp only [or_eq_true, decide_eq_true_eq, not_eq_true', not_or, Nat.not_lt,
      not_eq_false] at hhost
    obtain ⟨hlen, hhost⟩ := hhost
    obtain ⟨hport, h⟩ := Checks.passed h
    obtain ⟨hproto, h⟩ := Checks.passed h
    simp only [not_eq_true', not_eq_false, Option.all_eq_true] at hport hproto
    rcases rest with _ | ⟨port, _ | ⟨proto, _ | ⟨more, rest⟩⟩⟩
    · simpa using hhost
    · have hsafePort := safeOptionValue_of_positiveNumber (hport port rfl)
      simp [hhost, hsafePort]
    · have hsafePort := safeOptionValue_of_positiveNumber (hport port rfl)
      have hsafeProto := safeOptionValue_of_isClientProto (hproto proto rfl)
      simp [hhost, hsafePort, hsafeProto]
    · simp at hlen

/-- A directive that is written as it is: its name is known, its arguments are safe, and it names
no file. -/
theorem checkDirective_plain (h : checkDirective directive args = .ok .plain) :
    directive ∈ knownDirectives ∧ (∀ arg ∈ args, safeOptionValue arg = true) ∧
      (directive ∉ fileTakers ∨ args = [] ∨
        directive = "auth-user-pass" ∧ args = ["username-only"]) := by
  unfold checkDirective at h
  split at h
  · rename_i hflag
    have hnames : ∀ name ∈ flagDirectives, name ∈ knownDirectives := by decide
    have hargs : args = [] := by
      rw [requireArgs] at h
      split at h
      · rename_i hlen
        exact eq_nil_of_length_eq_zero (by omega)
      · cases h
    exact ⟨hnames directive (by simpa using hflag), by simp [hargs], .inr (.inl hargs)⟩
  · split at h
    · rename_i hcredential
      have hknown : directive ∈ knownDirectives := by
        simp only [or_eq_true, decide_eq_true_eq] at hcredential
        rcases hcredential with rfl | rfl <;> decide
      split at h
      · exact ⟨hknown, by simp, .inr (.inl rfl)⟩
      · split at h
        · rename_i harg
          simp only [and_eq_true, decide_eq_true_eq] at harg
          obtain ⟨hname, rfl⟩ := harg
          exact ⟨hknown, by decide, .inr (.inr ⟨hname, rfl⟩)⟩
        · cases h
      · cases h
    · split at h
      · rename_i hremote
        have hcheck : validateRemote args = .ok () := by
          cases hvalid : validateRemote args with
          | ok u => rfl
          | error e =>
            rw [hvalid] at h
            cases h
        have hname : directive = "remote" := hremote
        exact ⟨by rw [hname]; decide, validateRemote_safe hcheck, .inl (by rw [hname]; decide)⟩
      · split at h
        · rename_i hplain
          obtain ⟨hargument, hfile, hsafe⟩ := plainDirective_spec hplain
          exact ⟨mem_append_right _ hargument, hsafe, .inl hfile⟩
        · split at h
          · cases h
          · split at h <;> cases h

/-- A directive that names a file: behind the file there is at most a key direction. -/
theorem checkDirective_staged (h : checkDirective directive args = .ok .staged) :
    directive ∈ knownDirectives ∧ directive ∈ fileTakers ∧
      ∃ source rest, args = source :: rest ∧ rest.length ≤ 1 ∧
        ∀ arg ∈ rest, arg = "0" ∨ arg = "1" := by
  unfold checkDirective at h
  split at h
  · cases hflag : requireArgs args 0 0 <;> rw [hflag] at h <;> cases h
  · split at h
    · rename_i hcredential
      have hknown : directive ∈ knownDirectives ∧ directive ∈ fileTakers := by
        simp only [or_eq_true, decide_eq_true_eq] at hcredential
        rcases hcredential with rfl | rfl <;> decide
      split at h
      · cases h
      · rename_i arg
        exact ⟨hknown.1, hknown.2, arg, [], rfl, by simp, by simp⟩
      · cases h
    · split at h
      · cases hremote : validateRemote args <;> rw [hremote] at h <;> cases h
      · split at h
        · cases h
        · split at h
          · rename_i hfile
            rw [fileDirective, or_eq_true] at hfile
            rcases hfile with hfile | htls
            · simp only [and_eq_true, List.contains_eq_mem, decide_eq_true_eq] at hfile
              have hnames : ∀ name ∈ fileDirectives,
                  name ∈ knownDirectives ∧ name ∈ fileTakers := by
                decide
              obtain ⟨source, hargs⟩ := List.length_eq_one_iff.mp hfile.2
              exact ⟨(hnames _ hfile.1).1, (hnames _ hfile.1).2, source, [], hargs, by simp, by simp⟩
            · simp only [and_eq_true, decide_eq_true_eq, Option.all_eq_true] at htls
              obtain ⟨⟨rfl, hmin, hmax⟩, hdirection⟩ := htls
              cases args with
              | nil => simp at hmin
              | cons source rest =>
                rw [List.length_cons] at hmax
                refine ⟨by decide, by decide, source, rest, rfl, by omega, fun arg harg => ?_⟩
                rcases rest with _ | ⟨direction, _ | ⟨more, rest⟩⟩
                · cases harg
                · have hvalue := hdirection direction rfl
                  have harg' : arg = direction := by simpa using harg
                  rw [harg']
                  simpa using hvalue
                · simp at hmax
          · split at h <;> cases h

/-! ### Paths of staged assets -/

def assetName (index : Nat) : String := "asset-" ++ Nat.repr index

/-- A character of a staging path. -/
def pathChar (c : Char) : Bool := asciiAlphanumericOr "._-/" c

variable {c : Char}

theorem asciiAlphanumericOr_mono {some more : String} (h : some.toList ⊆ more.toList)
    (hc : asciiAlphanumericOr some c = true) : asciiAlphanumericOr more c = true := by
  simp only [asciiAlphanumericOr, or_eq_true, contains_eq_mem, decide_eq_true_eq] at hc ⊢
  exact hc.imp_right fun hmem => h hmem

theorem wordChar_of_pathChar (h : pathChar c = true) : wordChar c = true :=
  asciiAlphanumericOr_mono (by decide) h

variable {staging : String}

/-- The characters of a staging directory: what its components may hold, and slashes. -/
theorem pathChar_of_safeStagingDir (h : safeStagingDir staging = true) :
    ∀ c ∈ staging.toList, pathChar c = true := by
  simp only [safeStagingDir, and_eq_true] at h
  have hall := List.all_eq_true.mp h.2
  intro c hc
  by_cases hslash : c = '/'
  · subst hslash
    decide
  · obtain ⟨part, hpart, hmem⟩ := exists_mem_splitChars hc hslash
    have hcomponent : ∀ component, pathPart part = some component →
        component ∈ pathComponents staging → pathChar c = true := by
      intro component hsome hin
      have hsafe := hall component hin
      rw [pathPart] at hsome
      split at hsome
      · cases hsome
      · split at hsome <;> cases hsome
        · cases hsafe
        · simp only [safePathComponent, and_eq_true, List.all_eq_true] at hsafe
          exact asciiAlphanumericOr_mono (by decide) (hsafe.2 c hmem)
    have hdot : part = ['.'] → pathChar c = true := by
      rintro rfl
      rw [List.mem_singleton] at hmem
      subst hmem
      decide
    have hne : part ≠ [] := List.ne_nil_of_mem hmem
    have hsome : part ≠ ['.'] → ∃ component, pathPart part = some component := by
      intro hpart'
      rw [pathPart, if_neg (by simp [hne, hpart'])]
      split <;> exact ⟨_, rfl⟩
    by_cases hpart' : part = ['.']
    · exact hdot hpart'
    · obtain ⟨component, hsome⟩ := hsome hpart'
      refine hcomponent component hsome ?_
      rw [pathComponents]
      cases hsplit : splitChars '/' staging.toList with
      | nil => exact absurd hsplit (splitChars_ne_nil _ _)
      | cons first rest =>
        rw [hsplit] at hpart
        rcases List.mem_cons.mp hpart with rfl | hpart
        · simp [hne, hpart', hsome]
        · exact List.mem_append_right _ (List.mem_filterMap.mpr ⟨part, hpart, hsome⟩)

theorem safeStagingDir_ne_empty (h : safeStagingDir staging = true) : staging ≠ "" := by
  rintro rfl
  exact absurd h (by decide)

theorem pathChar_of_mem_assetName (index : Nat) :
    ∀ c ∈ (assetName index).toList, pathChar c = true := by
  intro c hc
  rw [assetName, String.toList_append, mem_append] at hc
  rcases hc with hc | hc
  · have hall : ("asset-".toList.all pathChar) = true := by decide
    exact all_eq_true.mp hall c hc
  · have hdigit : c.isDigit = true := by
      rw [Nat.repr, String.toList_ofList] at hc
      exact Nat.isDigit_of_mem_toDigits (by decide) (by decide) hc
    simp [pathChar, asciiAlphanumericOr, isAsciiAlphanumeric, Char.isAlphanum, hdigit]

section
variable {staging : String} (h : safeStagingDir staging = true) (index : Nat)
include h

theorem pathChar_of_mem_stagedPath :
    ∀ c ∈ (joinPath staging (assetName index)).toList, pathChar c = true := by
  intro c hc
  rw [joinPath] at hc
  split at hc
  · rw [String.toList_append, mem_append] at hc
    exact hc.elim (pathChar_of_safeStagingDir h c) (pathChar_of_mem_assetName index c)
  · rw [String.toList_append, String.toList_append, mem_append, mem_append] at hc
    rcases hc with (hc | hc) | hc
    · exact pathChar_of_safeStagingDir h c hc
    · have hall : ("/".toList.all pathChar) = true := by decide
      exact all_eq_true.mp hall c hc
    · exact pathChar_of_mem_assetName index c hc

/-- The path of a staged asset needs no quotes, and it is not the keyword of `auth-user-pass`. -/
theorem stagedPath_spec : safeOptionValue (joinPath staging (assetName index)) = true ∧
      joinPath staging (assetName index) ≠ "username-only" := by
  have hne := safeStagingDir_ne_empty h
  have hslash : '/' ∈ (joinPath staging (assetName index)).toList := by
    rw [joinPath]
    split
    · rename_i hend
      have hlast := hend.resolve_left hne
      rw [String.toList_append]
      exact mem_append_left _ (mem_of_getLast? hlast)
    · simp
  constructor
  · refine safeOptionValue_iff.mpr ⟨?_, fun c hc => ?_⟩
    · intro hempty
      rw [hempty] at hslash
      simp at hslash
    · exact wordChar_of_pathChar (pathChar_of_mem_stagedPath h index c hc)
  · intro heq
    rw [heq] at hslash
    exact absurd hslash (by decide)

end

/-! ### What has been written -/

/-- The file that OpenVPN opens for the item. -/
def ConfigItem.fileArgument : ConfigItem → Option String
  | .directive name (arg :: rest) =>
    if name ∈ fileTakers ∧ ¬(name = "auth-user-pass" ∧ arg :: rest = ["username-only"]) then
      some arg
    else none
  | .directive _ [] => none
  | .block _ _ => none

/-- A line that may stand in a block. -/
structure BlockText (line : List Char) : Prop where
  noNewline : '\n' ∉ line
  noReturn : '\r' ∉ line
  noTag : (line.dropWhile isWhitespace).head? ≠ some '<'

/-- An item of the allow-list: a directive that passed the check of its arguments, with the path of
a staged asset where it names a file, or a block with an allowed tag. -/
def ConfigItem.Permitted (staging : String) : ConfigItem → Prop
  | .directive name args =>
    checkDirective name args = .ok .plain ∨
    ∃ source rest index, checkDirective name (source :: rest) = .ok .staged ∧
      managedReference source = true ∧ args = joinPath staging (assetName index) :: rest
  | .block tag content => tag ∈ inlineTags ∧ ∀ line ∈ content, BlockText line.toList

/-- The lines of a block that is still open. -/
def openLines (content : List String) : Option String → List (List Char)
  | none => []
  | some tag => ('<' :: tag.toList ++ ['>']) :: content.map String.toList

/-- What the loop has written after some lines: permitted items and a block that is still open. -/
structure Written (staging : String) (items : List ConfigItem) (content : List String)
    (st : SanitizerState) : Prop where
  output : st.output.toList =
    unlines (items.flatMap ConfigItem.lines ++ openLines content st.inline)
  permitted : ∀ item ∈ items, item.Permitted staging
  tag : ∀ tag, st.inline = some tag → tag ∈ inlineTags
  content : ∀ line ∈ content, BlockText line.toList
  files : items.filterMap ConfigItem.fileArgument =
    (List.range st.assets.length).map fun i => joinPath staging (assetName i)
  names : st.assets.map (·.name) = (List.range st.assets.length).map assetName
  client : st.hasClient = true → .directive "client" [] ∈ items
  remote : st.hasRemote = true → ∃ args, .directive "remote" args ∈ items

section
variable {managed : AssetMap} {staging token : String} {items : List ConfigItem}
  {content args : List String} {st st' : SanitizerState} {line : List Char}

theorem written_blank : Written staging [] [] .blank := by
  constructor <;> simp [SanitizerState.blank, unlines, openLines]

theorem toList_push (line : String) (st : SanitizerState) :
    (st.push line).output.toList = st.output.toList ++ unlines [line.toList] := by
  simp [SanitizerState.push, unlines]

section
variable (h : Written staging items content st)
include h

theorem Written.permitted_push {item : ConfigItem} (hitem : item.Permitted staging) :
    ∀ item' ∈ items ++ [item], item'.Permitted staging := by
  intro item' hmem
  rcases mem_append.mp hmem with hmem | hmem
  · exact h.permitted item' hmem
  · rwa [mem_singleton.mp hmem]

theorem Written.remote_push (item : ConfigItem) (hremote : st.hasRemote = true) :
    ∃ args, .directive "remote" args ∈ items ++ [item] :=
  (h.remote hremote).imp fun _ hargs => mem_append_left _ hargs

/-- A line of a block adds to its content or closes it. -/
theorem Written.blockLine {tag : String} (htag : st.inline = some tag)
    (hno : '\n' ∉ line ∧ '\r' ∉ line) (hstep : st.blockLine tag line = .ok st') :
    ∃ items' content', Written staging items' content' st' := by
  have hallowed := h.tag tag htag
  have houtput := h.output
  rw [htag] at houtput
  rw [SanitizerState.blockLine] at hstep
  split at hstep
  · cases hstep
    refine ⟨items ++ [.block tag content], [], ?_⟩
    constructor
    case output =>
      rw [toList_push, houtput, ← unlines_append]
      simp [ConfigItem.lines, openLines]
    case permitted => exact h.permitted_push ⟨hallowed, h.content⟩
    case tag => simp
    case content => simp
    case files =>
      have hblock : ConfigItem.fileArgument (.block tag content) = none := rfl
      simpa [hblock, SanitizerState.push] using h.files
    case names => exact h.names
    case client => exact fun hclient => mem_append_left _ (h.client hclient)
    case remote => exact h.remote_push _
  · obtain ⟨hhead, hstep⟩ := Checks.passed hstep
    cases hstep
    refine ⟨items, content ++ [String.ofList line], ?_⟩
    refine { h with output := ?_, content := ?_ }
    · rw [toList_push, houtput, ← unlines_append]
      simp [openLines, SanitizerState.push, htag]
    · intro l hl
      rcases mem_append.mp hl with hl | hl
      · exact h.content l hl
      · rw [mem_singleton.mp hl, String.toList_ofList]
        exact ⟨hno.1, hno.2, hhead⟩

/-- The line of a tag opens a block. -/
theorem Written.openBlock (hopen : st.inline = none)
    (hstep : st.openBlock line token args = .ok st') : Written staging items [] st' := by
  have houtput := h.output
  rw [hopen] at houtput
  rw [SanitizerState.openBlock] at hstep
  obtain ⟨-, hstep⟩ := Checks.passed hstep
  simp only at hstep
  obtain ⟨-, hstep⟩ := Checks.passed hstep
  split at hstep
  · rename_i htag
    cases hstep
    refine { h with output := ?_, tag := ?_, content := by simp }
    · rw [toList_push, houtput, ← unlines_append]
      simp [openLines]
    · intro tag heq
      cases heq
      simpa using htag
  · cases hstep

/-- A directive whose arguments passed is written as it is. -/
theorem Written.plainLine {directive : String} (hopen : st.inline = none)
    (hcheck : checkDirective directive args = .ok .plain) :
    Written staging (items ++ [.directive directive args]) content
      { st.push (" ".intercalate (directive :: args)) with
        hasClient := st.hasClient || directive = "client"
        hasRemote := st.hasRemote || directive = "remote" } := by
  have houtput := h.output
  rw [hopen] at houtput
  have hfile : ConfigItem.fileArgument (.directive directive args) = none := by
    obtain ⟨-, -, hno⟩ := checkDirective_plain hcheck
    cases args with
    | nil => rfl
    | cons arg rest =>
      rw [ConfigItem.fileArgument, if_neg]
      rintro ⟨hmem, hkeyword⟩
      rcases hno with hno | hno | hno
      · exact hno hmem
      · cases hno
      · exact hkeyword hno
  constructor
  case output =>
    show (st.push _).output.toList = unlines (_ ++ openLines content st.inline)
    rw [toList_push, houtput, ← unlines_append, hopen]
    simp [ConfigItem.lines, openLines]
  case permitted => exact h.permitted_push (.inl hcheck)
  case tag => exact h.tag
  case content => exact h.content
  case files => simpa [hfile, SanitizerState.push] using h.files
  case names => exact h.names
  case client =>
    intro hclient
    rcases Bool.or_eq_true_iff.mp hclient with hclient | hname
    · exact mem_append_left _ (h.client hclient)
    · have hname' : directive = "client" := of_decide_eq_true hname
      subst hname'
      -- `client` takes no arguments.
      have hargs : args = [] := by
        cases args with
        | nil => rfl
        | cons arg rest => simp [checkDirective, flagDirectives, requireArgs, Except.map] at hcheck
      simp [hargs]
  case remote =>
    intro hremote
    rcases Bool.or_eq_true_iff.mp hremote with hremote | hname
    · exact h.remote_push _ hremote
    · have hname' : directive = "remote" := of_decide_eq_true hname
      subst hname'
      exact ⟨args, by simp⟩

end

variable (hdir : safeStagingDir staging = true) (h : Written staging items content st)
include hdir h

/-- A directive that names a managed file is written with the path of the next asset. -/
theorem Written.stagedLine {directive : String} (hopen : st.inline = none)
    (hcheck : checkDirective directive args = .ok .staged)
    (hstep : st.stagedAssetLine managed staging directive args = .ok st') :
    ∃ items', Written staging items' content st' := by
  obtain ⟨-, hmem, source, rest, rfl, hlen, -⟩ := checkDirective_staged hcheck
  have htake : rest.take 1 = rest := take_of_length_le hlen
  have houtput := h.output
  rw [hopen] at houtput
  rw [SanitizerState.stagedAssetLine] at hstep
  simp only [head?_cons, getD_some, drop_succ_cons, drop_zero, htake] at hstep
  split at hstep
  · cases hstep
  · rename_i hsource
    split at hstep
    · cases hstep
    · rename_i bytes _
      split at hstep
      · cases hstep
      · split at hstep
        · cases hstep
        · cases hstep
          refine ⟨items ++ [.directive directive
            (joinPath staging (assetName st.assets.length) :: rest)], ?_⟩
          have hfile : ConfigItem.fileArgument (.directive directive
              (joinPath staging (assetName st.assets.length) :: rest)) =
                some (joinPath staging (assetName st.assets.length)) := by
            rw [ConfigItem.fileArgument, if_pos]
            refine ⟨hmem, fun hkeyword => ?_⟩
            exact (stagedPath_spec hdir st.assets.length).2 (List.cons.inj hkeyword.2).1
          constructor
          case output =>
            show (st.push _).output.toList = unlines (_ ++ openLines content st.inline)
            rw [toList_push, houtput, ← unlines_append, hopen]
            simp [ConfigItem.lines, openLines, assetName]
          case permitted =>
            exact h.permitted_push (.inr ⟨source, rest, _, hcheck, by simpa using hsource, rfl⟩)
          case tag => exact h.tag
          case content => exact h.content
          case files =>
            have hfiles := h.files
            simp [filterMap_append, hfile, hfiles, range_succ]
          case names =>
            have hnames := h.names
            simp [hnames, range_succ, assetName]
          case client => exact fun hclient => mem_append_left _ (h.client hclient)
          case remote => exact h.remote_push _

theorem Written.readLine {raw : List Char} (hraw : '\n' ∉ raw)
    (hstep : SanitizerState.readLine managed staging st raw = .ok st') :
    ∃ items' content', Written staging items' content' st' := by
  have hline : '\n' ∉ SanitizerState.stripCr raw := by
    rw [SanitizerState.stripCr]
    split
    · exact fun hmem => hraw (dropLast_subset _ hmem)
    · exact hraw
  rw [SanitizerState.readLine] at hstep
  obtain ⟨hbad, hstep⟩ := Checks.passed hstep
  simp only [not_or] at hbad
  cases hinline : st.inline with
  | some tag =>
    rw [hinline] at hstep
    exact h.blockLine hinline ⟨hline, hbad.2.2⟩ hstep
  | none =>
    rw [hinline] at hstep
    simp only at hstep
    obtain ⟨tokens, -, hstep⟩ := bind_eq_ok.mp hstep
    cases tokens with
    | nil =>
      cases hstep
      exact ⟨items, content, h⟩
    | cons token args =>
      simp only at hstep
      split at hstep
      · exact ⟨items, [], h.openBlock hinline hstep⟩
      · rw [SanitizerState.directiveLine] at hstep
        obtain ⟨kind, hcheck, hstep⟩ := bind_eq_ok.mp hstep
        cases kind with
        | plain =>
          cases hstep
          exact ⟨_, content, h.plainLine hinline hcheck⟩
        | staged =>
          obtain ⟨items', hwritten⟩ := h.stagedLine hdir hinline hcheck hstep
          exact ⟨items', content, hwritten⟩

/-- The loop over the lines writes permitted items. -/
theorem Written.readLines {lines : List (List Char)} (hlines : ∀ raw ∈ lines, '\n' ∉ raw)
    (hrun : lines.foldlM (SanitizerState.readLine managed staging) st = .ok st') :
    ∃ items' content', Written staging items' content' st' := by
  induction lines generalizing st items content with
  | nil =>
    cases hrun
    exact ⟨items, content, h⟩
  | cons raw lines ih =>
    rw [foldlM_cons] at hrun
    obtain ⟨next, hfirst, hrest⟩ := bind_eq_ok.mp hrun
    obtain ⟨items', content', hnext⟩ := h.readLine hdir (hlines raw (by simp)) hfirst
    exact ih hnext (fun r hr => hlines r (by simp [hr])) hrest

end

/-! ### Permitted items are read back -/

theorem plainWord_of_safe (h : safeOptionValue arg = true) : PlainWord arg.toList := by
  obtain ⟨hne, hall⟩ := safeOptionValue_iff.mp h
  refine ⟨by simpa using hne, fun c hc => ?_⟩
  simp [tokenChar, hall c hc]

theorem knownDirective_spec {name : String} (h : name ∈ knownDirectives) :
    safeOptionValue name = true ∧ ∀ c, name.toList.head? = some c → c.isLower = true := by
  have hall : ∀ name ∈ knownDirectives, safeOptionValue name = true ∧
      name.toList.head?.all Char.isLower = true := by
    decide
  obtain ⟨hsafe, hlower⟩ := hall name h
  exact ⟨hsafe, fun c hc => by simpa [hc] using hlower⟩

/-- The words of a permitted directive. -/
theorem permitted_words {staging name : String} (hdir : safeStagingDir staging = true)
    (h : ConfigItem.Permitted staging (.directive name args)) :
    name ∈ knownDirectives ∧ ∀ arg ∈ args, safeOptionValue arg = true := by
  rcases h with hplain | ⟨source, rest, index, hstaged, -, rfl⟩
  · obtain ⟨hname, hargs, -⟩ := checkDirective_plain hplain
    exact ⟨hname, hargs⟩
  · obtain ⟨hname, -, source', rest', heq, -, hdirection⟩ := checkDirective_staged hstaged
    cases heq
    refine ⟨hname, fun arg harg => ?_⟩
    rcases mem_cons.mp harg with rfl | harg
    · exact (stagedPath_spec hdir index).1
    · rcases hdirection arg harg with rfl | rfl <;> decide

theorem plainWord_of_mem_inlineTags {tag : String} (h : tag ∈ inlineTags) : PlainWord tag.toList := by
  have hall : ∀ tag ∈ inlineTags, safeOptionValue tag = true := by decide
  exact plainWord_of_safe (hall tag h)

theorem readable_of_permitted (hdir : safeStagingDir staging = true) {item : ConfigItem}
    (h : item.Permitted staging) : item.Readable := by
  cases item with
  | directive name args =>
    obtain ⟨hname, hargs⟩ := permitted_words hdir h
    obtain ⟨hsafe, hlower⟩ := knownDirective_spec hname
    refine ⟨hlower, fun word hword => plainWord_of_safe ?_⟩
    rcases mem_cons.mp hword with rfl | hword
    · exact hsafe
    · exact hargs word hword
  | block tag content =>
    exact ⟨plainWord_of_mem_inlineTags h.1, fun line hline => (h.2 line hline).noTag⟩

/-- A plain word holds no line end. -/
theorem PlainWord.not_mem {word : List Char} (h : PlainWord word) : '\n' ∉ word ∧ '\r' ∉ word :=
  ⟨fun hc => absurd (h.plain _ hc) (by decide), fun hc => absurd (h.plain _ hc) (by decide)⟩

theorem not_mem_intercalate {words : List (List Char)} (hc : c ≠ ' ')
    (h : ∀ word ∈ words, c ∉ word) : c ∉ [' '].intercalate words := by
  induction words with
  | nil => simp
  | cons word words ih =>
    cases words with
    | nil => simpa using h word (by simp)
    | cons next words =>
      rw [intercalate_cons_cons, mem_append, mem_append]
      rintro ((hmem | hmem) | hmem)
      · exact h word (by simp) hmem
      · exact hc (by simpa using hmem)
      · exact ih (fun w hw => h w (mem_cons_of_mem _ hw)) hmem

theorem not_mem_lines (hdir : safeStagingDir staging = true) {item : ConfigItem}
    (h : item.Permitted staging) : ∀ line ∈ item.lines, '\n' ∉ line ∧ '\r' ∉ line := by
  intro line hline
  cases item with
  | directive name args =>
    have hwords : ∀ word ∈ (name :: args).map String.toList, '\n' ∉ word ∧ '\r' ∉ word := by
      intro word hword
      obtain ⟨w, hw, rfl⟩ := mem_map.mp hword
      exact ((readable_of_permitted hdir h).2 w hw).not_mem
    rw [ConfigItem.lines, mem_singleton] at hline
    subst hline
    exact ⟨not_mem_intercalate (by decide) fun w hw => (hwords w hw).1,
      not_mem_intercalate (by decide) fun w hw => (hwords w hw).2⟩
  | block tag content =>
    have htag := (plainWord_of_mem_inlineTags h.1).not_mem
    rw [ConfigItem.lines, mem_cons, mem_append, mem_singleton] at hline
    rcases hline with rfl | hline | rfl
    · simp [htag]
    · obtain ⟨l, hl, rfl⟩ := mem_map.mp hline
      exact ⟨(h.2 l hl).noNewline, (h.2 l hl).noReturn⟩
    · simp [htag]

theorem clean_lines {items : List ConfigItem} (hdir : safeStagingDir staging = true)
    (h : ∀ item ∈ items, item.Permitted staging) :
    ∀ line ∈ items.flatMap ConfigItem.lines, '\n' ∉ line ∧ '\r' ∉ line := by
  intro line hline
  obtain ⟨item, hitem, hline⟩ := List.mem_flatMap.mp hline
  exact not_mem_lines hdir (h item hitem) line hline

/-! ### The whole text -/

/-- An accepted text is the text of permitted items, whose lines all fit OpenVPN's buffer. -/
theorem sanitized_items {input staging : String} {managed : AssetMap}
    {result : SanitizedOpenVpnConfig}
    (h : sanitizeOpenvpnConfig input managed staging = .ok result) :
    ∃ items : List ConfigItem, safeStagingDir staging = true ∧
      result.config.toList = unlines (items.flatMap ConfigItem.lines) ∧
      (∀ item ∈ items, item.Permitted staging) ∧
      (∀ line ∈ items.flatMap ConfigItem.lines,
        '\n' ∉ line ∧ (utf8Bytes line).length ≤ maxLineBytes) ∧
      items.filterMap ConfigItem.fileArgument =
        (List.range result.assets.length).map (fun i => joinPath staging (assetName i)) ∧
      result.assets.map (·.name) = (List.range result.assets.length).map assetName ∧
      .directive "client" [] ∈ items ∧ ∃ args, .directive "remote" args ∈ items := by
  rw [sanitizeOpenvpnConfig] at h
  obtain ⟨-, h⟩ := Checks.passed h
  obtain ⟨ hunsafe, h⟩ := Checks.passed h
  have hdir : safeStagingDir staging = true := by simpa using hunsafe
  obtain ⟨st, hrun, hend⟩ := bind_eq_ok.mp h
  obtain ⟨items, content, hwritten⟩ := Written.readLines hdir written_blank
    (fun raw hraw => of_mem_textLines hraw) hrun
  obtain ⟨hlong, hend⟩ := Checks.passed hend
  obtain ⟨hincomplete, hend⟩ := Checks.passed hend
  cases hend
  simp only [or_eq_true, not_eq_true', not_or, Bool.not_eq_true,
    not_eq_false, Option.isSome_eq_false_iff, Option.isNone_iff_eq_none] at hincomplete
  obtain ⟨⟨hclosed, hclient⟩, hremote⟩ := hincomplete
  have houtput := hwritten.output
  rw [hclosed, openLines, List.append_nil] at houtput
  have hclean := clean_lines hdir hwritten.permitted
  refine ⟨items, hdir, houtput, hwritten.permitted, fun line hline => ⟨(hclean line hline).1, ?_⟩,
    hwritten.files, hwritten.names, hwritten.client hclient, hwritten.remote hremote⟩
  -- The last check is about the lines of the output.
  rw [← String.ofList_toList (s := st.output), houtput, textLines_unlines_clean hclean,
    List.any_eq_true] at hlong
  by_contra hfit
  exact hlong ⟨line, hline, by simpa using hfit⟩

/-- OpenVPN reads the output of the sanitizer as permitted items: directives of the allow-list with
arguments that passed its check, and blocks with allowed tags. The files it opens are the staged
assets, each once and in order. No line is longer than its buffer, and there is a `client` and a
`remote`. -/
theorem reread_sanitized {input staging : String} {managed : AssetMap}
    {result : SanitizedOpenVpnConfig}
    (h : sanitizeOpenvpnConfig input managed staging = .ok result) :
    ∃ items : List ConfigItem,
      readOpenvpnConfig (utf8Bytes result.config.toList) = some (items.map ConfigItem.read) ∧
      (∀ item ∈ items, item.Permitted staging) ∧
      items.filterMap ConfigItem.fileArgument =
        (List.range result.assets.length).map (fun i => joinPath staging (assetName i)) ∧
      result.assets.map (·.name) = (List.range result.assets.length).map assetName ∧
      (∀ line ∈ textLines result.config, (utf8Bytes line).length + 2 ≤ lineBufferSize) ∧
      .directive "client" [] ∈ items ∧ ∃ args, .directive "remote" args ∈ items := by
  obtain ⟨items, hdir, htext, hpermitted, hfit, hfiles, hnames, hclient, hremote⟩ := sanitized_items h
  have hread := readOpenvpnConfig_text
    (fun item hitem => readable_of_permitted hdir (hpermitted item hitem)) hfit
  refine ⟨items, htext ▸ hread, hpermitted, hfiles, hnames, ?_, hclient, hremote⟩
  rw [← String.ofList_toList (s := result.config), htext,
    textLines_unlines_clean (clean_lines hdir hpermitted)]
  intro line hline
  have hlen := (hfit line hline).2
  simp only [maxLineBytes] at hlen
  simp only [lineBufferSize]
  omega

/-- A profile with a quoted managed file, a comment and a block. -/
def harborProfile : String :=
  "client\nremote 'vpn.example' 1194 # office\n--CERT \"assets/cert.pem\"\n<ca>\n  text\n</ca>\n"

def harborAssets : AssetMap := ⟨[("assets/cert.pem", [67])], by decide⟩

def harborStaging : String := "/run/network-orchestrator/harbor"

def harborResult : SanitizedOpenVpnConfig :=
  { config := "client\nremote vpn.example 1194\n" ++
      "cert /run/network-orchestrator/harbor/asset-0\n<ca>\n  text\n</ca>\n"
    assets := [{ name := "asset-0", bytes := [67] }] }

theorem reread_harbor :
    ∃ items : List ConfigItem, readOpenvpnConfig (utf8Bytes harborResult.config.toList) =
        some (items.map ConfigItem.read) ∧
      (∀ item ∈ items, item.Permitted harborStaging) ∧
      items.filterMap ConfigItem.fileArgument = (List.range harborResult.assets.length).map
          (fun i => joinPath harborStaging (assetName i)) ∧
      harborResult.assets.map (·.name) = (List.range harborResult.assets.length).map assetName ∧
      (∀ line ∈ textLines harborResult.config, (utf8Bytes line).length + 2 ≤ lineBufferSize) ∧
      .directive "client" [] ∈ items ∧ ∃ args, .directive "remote" args ∈ items :=
  have haccepted : sanitizeOpenvpnConfig harborProfile harborAssets harborStaging =
      .ok harborResult := by decide +kernel
  reread_sanitized haccepted

end NetOrchestrator.Core
