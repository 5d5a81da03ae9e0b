import NetOrchestrator.Core.OpenVpnConfig

/-!
# `Core.OpenVpnReader`: how OpenVPN reads a configuration

The daemon hands the sanitized text to OpenVPN, which reads it with its own reader: bytes in
physical lines of a fixed buffer, cut into parameters with quotes, backslashes and comments, and
inline blocks that run to their closing tag. The sanitizer's comments rely on this behaviour. It
is written down here as an assumption about OpenVPN, to be compared with what the sanitizer
meant.
-/

namespace NetOrchestrator.Core

open Lib

/-- `isspace` in the C locale. -/
def isSpaceByte (b : UInt8) : Bool := b == 0x20 || (0x09 ≤ b && b ≤ 0x0d)

def newline : UInt8 := 0x0a
def quoteByte : UInt8 := 0x22
def singleQuoteByte : UInt8 := 0x27
def backslashByte : UInt8 := 0x5c
def lessByte : UInt8 := 0x3c
def greaterByte : UInt8 := 0x3e
def dashByte : UInt8 := 0x2d

/-- `#` or `;`. -/
def isCommentByte (b : UInt8) : Bool := b == 0x23 || b == 0x3b

/-- The size of the buffer that `fgets` fills. Its last byte is the terminator. -/
def lineBufferSize : Nat := 256

/-- What `fgets` returns call after call, with the line so far. -/
def physicalLinesFrom (line : List UInt8) : List UInt8 → List (List UInt8)
  | [] => if line = [] then [] else [line]
  | b :: bs =>
    if b = newline ∨ lineBufferSize ≤ line.length + 2 then
      (line ++ [b]) :: physicalLinesFrom [] bs
    else physicalLinesFrom (line ++ [b]) bs

def physicalLines (bytes : List UInt8) : List (List UInt8) := physicalLinesFrom [] bytes

/-! ### Parameters of a line -/

inductive ParameterState where
  | initial
  | unquoted
  | quoted
  | singleQuoted
  deriving DecidableEq

/-- A byte becomes part of the parameter, if it may follow a backslash where one stands before
it. -/
def escapable (backslash : Bool) (b : UInt8) : Bool :=
  !backslash || b == backslashByte || b == quoteByte || isSpaceByte b

/-- The parameters of a line, from a state with the parameter so far. The end of the line counts
as a blank. A line that ends inside quotes or after a backslash is an error. -/
def parametersFrom : ParameterState → Bool → List UInt8 → List UInt8 → Option (List (List UInt8))
  | .initial, _, _, [] => some []
  | .unquoted, backslash, parameter, [] => if backslash then none else some [parameter]
  | .quoted, _, _, [] => none
  | .singleQuoted, _, _, [] => none
  | state, backslash, parameter, b :: bs =>
    if !backslash && b == backslashByte && state != .singleQuoted then
      parametersFrom state true parameter bs
    else
      match state with
      | .initial =>
        if isSpaceByte b then parametersFrom .initial false [] bs
        else if isCommentByte b then some []
        else if !backslash && b == quoteByte then parametersFrom .quoted false [] bs
        else if !backslash && b == singleQuoteByte then parametersFrom .singleQuoted false [] bs
        else if escapable backslash b then parametersFrom .unquoted false [b] bs
        else none
      | .unquoted =>
        if !backslash && isSpaceByte b then
          (parametersFrom .initial false [] bs).map fun rest => parameter :: rest
        else if escapable backslash b then
          parametersFrom .unquoted false (parameter ++ [b]) bs
        else none
      | .quoted =>
        if !backslash && b == quoteByte then
          (parametersFrom .initial false [] bs).map fun rest => parameter :: rest
        else if escapable backslash b then parametersFrom .quoted false (parameter ++ [b]) bs
        else none
      | .singleQuoted =>
        if b == singleQuoteByte then
          (parametersFrom .initial false [] bs).map fun rest => parameter :: rest
        else parametersFrom .singleQuoted false (parameter ++ [b]) bs

def parameters (line : List UInt8) : Option (List (List UInt8)) :=
  parametersFrom .initial false [] line

/-! ### Directives and blocks -/

/-- What OpenVPN acts on: a directive with its parameters, or an inline block with its lines. -/
inductive ReadItem where
  | directive (name : List UInt8) (args : List (List UInt8))
  | block (tag : List UInt8) (content : List (List UInt8))
  deriving DecidableEq

/-- Two dashes in front of a directive do not count. -/
def bypassDoubledash (name : List UInt8) : List UInt8 :=
  match name with
  | first :: second :: rest =>
    if first = dashByte ∧ second = dashByte ∧ rest ≠ [] then rest else name
  | _ => name

/-- The tag that a line opens: its only parameter is in angle brackets. -/
def openingTag : List (List UInt8) → Option (List UInt8)
  | [first :: rest] =>
    if first = lessByte ∧ rest.getLast? = some greaterByte then some rest.dropLast else none
  | _ => none

def closingTag (tag : List UInt8) : List UInt8 := utf8Bytes "</".toList ++ tag ++ [greaterByte]

/-- The items of the lines. Inside a block, only its closing tag counts, after blanks. -/
def readItems : Option (List UInt8 × List (List UInt8)) → List (List UInt8) →
    Option (List ReadItem)
  | none, [] => some []
  | some _, [] => none
  | none, line :: lines =>
    match parameters line with
    | none => none
    | some [] => readItems none lines
    | some (name :: args) =>
      match openingTag (name :: args) with
      | some tag => readItems (some (tag, [])) lines
      | none =>
        (readItems none lines).map fun items =>
          .directive (bypassDoubledash name) args :: items
  | some (tag, content), line :: lines =>
    if (closingTag tag).isPrefixOf (line.dropWhile isSpaceByte) then
      (readItems none lines).map fun items => .block tag content :: items
    else readItems (some (tag, content ++ [line])) lines

/-- What OpenVPN reads from a configuration file. -/
def readOpenvpnConfig (bytes : List UInt8) : Option (List ReadItem) :=
  readItems none (physicalLines bytes)

end NetOrchestrator.Core
