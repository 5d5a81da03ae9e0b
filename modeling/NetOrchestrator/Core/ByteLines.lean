import NetOrchestrator.Core.Errors
import NetOrchestrator.Core.OpenVpnReader

/-!
# `Core.ByteLines`: readers of lines

The management interface of OpenVPN and the socket of the daemon hand out bytes in chunks of any
length. `drainManagement` takes the lines out of what has come, and keeps the rest for the next
chunk. `readFrameFrom` asks for chunks until it has a line.
-/

namespace NetOrchestrator.Core

open List
open Errors (IoError invalidData)

/-! ### The management interface -/

def maxManagementLineBytes : Nat := 16 * 1024

/-- What a line says: `parse_management_line`, `none` for an error, and `state_failure_detail`. -/
structure ManagementParser (Event : Type) where
  parseLine : String → Option (Option Event)
  failureDetail : String → Option Event

section
variable {Event : Type} (parser : ManagementParser Event)

def managementEvents (line : List UInt8) : Except IoError (List Event) :=
  match String.fromUTF8? ⟨line.toArray⟩ with
  | none => .error (invalidData "OpenVPN management line is invalid")
  | some text =>
    match parser.parseLine text with
    | none => .error (invalidData "OpenVPN management event is invalid")
    | some none => .ok []
    | some (some event) => .ok ((parser.failureDetail text).toList ++ [event])

/-- The loop of `drain_management`, with the line so far. -/
def drainLines (line : List UInt8) : List UInt8 → Except IoError (List Event × List UInt8)
  | [] => .ok ([], line)
  | b :: rest =>
    if b = newline then
      if maxManagementLineBytes < line.length then
        .error (invalidData "OpenVPN management line too large")
      else do
        let events ← managementEvents parser line
        let (more, pending) ← drainLines [] rest
        .ok (events ++ more, pending)
    else drainLines (line ++ [b]) rest

def checkPending (drained : List Event × List UInt8) : Except IoError (List Event × List UInt8) :=
  if maxManagementLineBytes < drained.2.length then
    .error (invalidData "OpenVPN management line too large")
  else .ok drained

def drainManagement (pending input : List UInt8) : Except IoError (List Event × List UInt8) :=
  drainLines parser [] (pending ++ input) >>= checkPending

/-- One chunk after another, until there is an error. -/
def drainChunks : List UInt8 → List (List UInt8) → Except IoError (List Event × List UInt8)
  | pending, [] => .ok ([], pending)
  | pending, chunk :: rest => do
    let (events, pending) ← drainManagement parser pending chunk
    let (more, pending) ← drainChunks pending rest
    .ok (events ++ more, pending)

end

/-! ### The socket -/

/-- Chunks as `fill_buf` returns them. An empty one would be the end of the stream. -/
structure Delivery where
  chunks : List (List UInt8)
  nonempty : ∀ chunk ∈ chunks, chunk ≠ []

inductive FrameError where
  | tooLarge (max : Nat)
  | unexpectedEof
  deriving DecidableEq

abbrev FrameResult := Except FrameError (Option (List UInt8))

/-- `encode_line`, with what `serde_json::to_vec` writes. -/
def encodeLine {α ε : Type} (serialize : α → Except ε (List UInt8)) (frame : α) :
    Except ε (List UInt8) :=
  (serialize frame).map fun line => line ++ [newline]

section
variable (max : Nat)

/-- The loop of `read_frame`, with the line so far. Returns what is still to be delivered, too. -/
def readFrameFrom (line : List UInt8) : List (List UInt8) → FrameResult × List (List UInt8)
  | [] => (if line.isEmpty then .ok none else .error .unexpectedEof, [])
  | available :: later =>
    let chunk := available.takeWhile (· != newline)
    if max < line.length + chunk.length then (.error (.tooLarge max), available :: later)
    else
      match available.drop chunk.length with
      | [] => readFrameFrom (line ++ chunk) later
      | _ :: rest => (.ok (some (line ++ chunk)), if rest.isEmpty then later else rest :: later)

/-- The results of so many calls of `read_frame`. -/
def readFrames : Nat → List (List UInt8) → List FrameResult
  | 0, _ => []
  | calls + 1, chunks =>
    (readFrameFrom max [] chunks).1 :: readFrames calls (readFrameFrom max [] chunks).2

end

end NetOrchestrator.Core
