import NetOrchestrator.Daemon.Validate

/-!
# `Core.OpenVpnTokens`: the words of an OpenVPN line

`tokenize_line` reads a line as OpenVPN does, up to a comment, and `quote_token` writes a word so
that it is read back. The import of a configuration reads a line with the one and writes the
arguments of the line that it stages with the other.
-/

namespace NetOrchestrator.Core

open Daemon (isWhitespace)
open List

/-- What there is of a token, with one more character. -/
def pushed (current : Option (List Char)) (c : Char) : Option (List Char) :=
  some (current.getD [] ++ [c])

/-- The loop of `tokenize_line`: the quotation that is open, whether a backslash has just been
read, and what there is of a token. A backslash at the end of the line stands for itself. -/
def tokensFrom : Option Char → Bool → Option (List Char) → List Char → List (List Char)
  | _, false, current, [] => current.toList
  | _, true, current, [] => (pushed current '\\').toList
  | quote, true, current, c :: cs => tokensFrom quote false (pushed current c) cs
  | some quote, false, current, c :: cs =>
    if c = quote then tokensFrom none false current cs
    else if quote = '"' ∧ c = '\\' then tokensFrom (some quote) true current cs
    else tokensFrom (some quote) false (pushed current c) cs
  | none, false, current, c :: cs =>
    if c = ' ' ∨ c = '\t' then current.toList ++ tokensFrom none false none cs
    else if c = '#' ∨ c = ';' then current.toList
    else if c = '"' ∨ c = '\'' then tokensFrom (some c) false (some (current.getD [])) cs
    else if c = '\\' then tokensFrom none true current cs
    else tokensFrom none false (pushed current c) cs

def tokenizeLine (line : List Char) : List (List Char) := tokensFrom none false none line

def needsQuote (c : Char) : Bool := isWhitespace c || ['"', '\'', '#', ';', '\\'].contains c

/-- A character between double quotes. -/
def escaped (c : Char) : List Char := if c = '"' ∨ c = '\\' then ['\\', c] else [c]

def quoteToken (token : List Char) : List Char :=
  if token.isEmpty || token.any needsQuote then '"' :: (token.flatMap escaped ++ ['"'])
  else token

/-! ### Reading back -/

variable {token acc rest : List Char}

theorem tokensFrom_escaped :
    tokensFrom (some '"') false (some acc) (token.flatMap escaped ++ '"' :: rest) =
      tokensFrom none false (some (acc ++ token)) rest := by
  induction token generalizing acc with
  | nil => simp [tokensFrom]
  | cons c token ih =>
    have hmore := @ih (acc ++ [c])
    by_cases hspecial : c = '"' ∨ c = '\\'
    · simpa [escaped, hspecial, tokensFrom, pushed] using hmore
    · simpa [escaped, hspecial, not_or.mp hspecial, tokensFrom, pushed] using hmore

theorem tokensFrom_plain {current : Option (List Char)} (h : ∀ c ∈ token, needsQuote c = false) :
    tokensFrom none false current (token ++ rest) =
      tokensFrom none false (token.foldl pushed current) rest := by
  induction token generalizing current with
  | nil => rfl
  | cons c token ih =>
    have hc := h c mem_cons_self
    have hall : [' ', '\t', '#', ';', '"', '\'', '\\'].all needsQuote = true := by decide
    have hordinary : ∀ d ∈ [' ', '\t', '#', ';', '"', '\'', '\\'], c ≠ d := by
      rintro d hd rfl
      exact absurd (all_eq_true.mp hall c hd) (by rw [hc]; simp)
    simp only [mem_cons, not_mem_nil, or_false, forall_eq_or_imp, forall_eq] at hordinary
    simpa [tokensFrom, hordinary] using ih fun d hd => h d (mem_cons_of_mem c hd)

theorem foldl_pushed : token.foldl pushed (some acc) = some (acc ++ token) := by
  induction token generalizing acc with
  | nil => simp
  | cons c token ih => rw [foldl_cons, pushed, ih]; simp

/-- A quoted token is read as that token, whatever is behind it. -/
theorem tokensFrom_quoteToken :
    tokensFrom none false none (quoteToken token ++ rest) = tokensFrom none false (some token) rest := by
  unfold quoteToken
  split
  · rw [cons_append, append_assoc]
    exact @tokensFrom_escaped token [] rest
  · rename_i hplain
    simp only [Bool.or_eq_true, not_or, Bool.not_eq_true, any_eq_false] at hplain
    rw [tokensFrom_plain fun c hc => by simpa using hplain.2 c hc]
    cases token with
    | nil => cases hplain.1
    | cons c token => rw [foldl_cons, pushed, foldl_pushed]; rfl

/-- Tokens that are quoted and set apart by blanks are read as they are, whatever characters they
have and empty ones, too. A comment behind them is not read. -/
theorem tokenizeLine_quoted (tokens : List (List Char)) (comment : Option (List Char)) :
    tokenizeLine (tokens.flatMap (fun token => ' ' :: quoteToken token) ++
      comment.elim [] fun text => ' ' :: '#' :: text) = tokens := by
  -- The token in front is still open where the blank behind it is read.
  have hopen : ∀ current : Option (List Char), tokensFrom none false current
      (tokens.flatMap (fun token => ' ' :: quoteToken token) ++
        comment.elim [] fun text => ' ' :: '#' :: text) = current.toList ++ tokens := by
    induction tokens with
    | nil => intro current; cases comment <;> simp [tokensFrom]
    | cons token tokens ih =>
      intro current
      rw [flatMap_cons, cons_append, cons_append, append_assoc, tokensFrom, if_pos (.inl rfl),
        tokensFrom_quoteToken, ih]
      rfl
  exact hopen none

end NetOrchestrator.Core
