import NetOrchestrator.Core.ByteLines
import NetOrchestrator.Lib.Checks

/-!
# `Proofs.ByteLines`: lines that arrive in chunks

Both readers check the length of a line before it is complete and when it is. What is drained does
not depend on where the chunks end (`drain_independent_of_chunks`), and the results of reading
frames do not either, up to the first frame that is too large (`frames_independent_of_chunks`).

Behind such a frame they do: the reader has dropped the chunks of it that it took, and left the
last one (`split_frame_reads_on`).
-/

namespace NetOrchestrator.Core

open List Nat
open Errors (IoError)
open Lib.Checks (bind_eq_ok map_eq_ok mapM_eq_ok)

/-! ### The management interface -/

section
variable {Event : Type} {parser : ManagementParser Event} {line pending : List UInt8}
  {events : List Event}

theorem drainLines_append (first rest : List UInt8) : drainLines parser line (first ++ rest) = (do
      let (events, pending) ← drainLines parser line first
      let (more, pending) ← drainLines parser pending rest
      .ok (events ++ more, pending)) := by
  induction first generalizing line with
  | nil =>
    show drainLines parser line rest = drainLines parser line rest >>= _
    cases drainLines parser line rest <;> rfl
  | cons b first ih =>
    rw [cons_append, drainLines, drainLines]
    split
    · split
      · rfl
      · rw [ih]
        cases managementEvents parser line with
        | error e => rfl
        | ok events =>
          cases drainLines parser [] first with
          | error e => rfl
          | ok drained =>
            show (drainLines parser drained.2 rest >>= _) >>= _ = drainLines parser drained.2 rest >>= _
            cases drainLines parser drained.2 rest with
            | error e => rfl
            | ok more => simp [bind, Except.bind]
    · exact ih

/-- What is pending is not drained again. -/
def Drained (parser : ManagementParser Event) (pending : List UInt8) : Prop :=
  drainLines parser [] pending = .ok ([], pending)

theorem drained_of_drainLines (hline : Drained parser line) {input : List UInt8}
    (h : drainLines parser line input = .ok (events, pending)) : Drained parser pending := by
  induction input generalizing line events with
  | nil =>
    cases h
    exact hline
  | cons b rest ih =>
    rw [drainLines] at h
    split at h
    · split at h
      · cases h
      · obtain ⟨events, -, h⟩ := bind_eq_ok.mp h
        obtain ⟨⟨more, left⟩, hrest, h⟩ := bind_eq_ok.mp h
        cases h
        have hempty : Drained parser [] := rfl
        exact ih hempty hrest
    · rename_i hb
      have hlonger : Drained parser (line ++ [b]) := by
        rw [Drained, drainLines_append, hline]
        show drainLines parser line [b] >>= _ = _
        rw [drainLines, if_neg hb]
        rfl
      exact ih hlonger h

theorem drainManagement_of_drained (h : Drained parser pending) (input : List UInt8) :
    drainManagement parser pending input = drainLines parser pending input >>= checkPending := by
  rw [drainManagement, drainLines_append, h]
  show (drainLines parser pending input >>= _) >>= _ = _
  cases drainLines parser pending input <;> rfl

/-- A line that is too long already stays so. -/
theorem fails_of_long (hlong : maxManagementLineBytes < line.length) (input : List UInt8) :
    (drainLines parser line input >>= checkPending).toOption = none := by
  induction input generalizing line with
  | nil =>
    show (checkPending ([], line)).toOption = none
    rw [checkPending, if_pos hlong]
    rfl
  | cons b rest ih =>
    rw [drainLines, if_pos hlong]
    split
    · rfl
    · exact ih (by simpa using lt_succ_of_lt hlong)

/-- Events that are there already change nothing in the check of what is left. -/
theorem toOption_checked (events : List Event)
    (drained : Except IoError (List Event × List UInt8)) :
    ((do let (more, pending) ← drained; .ok (events ++ more, pending)) >>=
        checkPending).toOption =
      (drained >>= checkPending).toOption.map fun (more, pending) => (events ++ more, pending) := by
  cases drained with
  | error e => rfl
  | ok drained =>
    show (if _ then _ else _ : Except IoError _).toOption =
      (if _ then _ else _ : Except IoError _).toOption.map _
    split <;> rfl

/-- Draining the chunks one after another is draining the whole stream at once. -/
theorem drainChunks_eq (chunks : List (List UInt8)) (hdone : Drained parser pending)
    (hshort : pending.length ≤ maxManagementLineBytes) :
    (drainChunks parser pending chunks).toOption =
      (drainManagement parser pending chunks.flatten).toOption := by
  induction chunks generalizing pending with
  | nil =>
    rw [drainManagement_of_drained hdone]
    show _ = (checkPending ([], pending)).toOption
    rw [checkPending, if_neg (Nat.not_lt.mpr hshort)]
    rfl
  | cons chunk rest ih =>
    rw [drainChunks, drainManagement_of_drained hdone, drainManagement_of_drained hdone,
      flatten_cons, drainLines_append]
    cases heq : drainLines parser pending chunk with
    | error e => rfl
    | ok drained =>
      obtain ⟨events, left⟩ := drained
      have hleft := drained_of_drainLines hdone heq
      refine Eq.trans ?_ (toOption_checked events (drainLines parser left rest.flatten)).symm
      show (checkPending (events, left) >>= _).toOption = _
      by_cases hlong : maxManagementLineBytes < left.length
      · rw [checkPending, if_pos hlong, fails_of_long hlong]
        rfl
      · rw [checkPending, if_neg hlong, ← drainManagement_of_drained hleft,
          ← ih hleft (Nat.not_lt.mp hlong)]
        show (drainChunks parser left rest >>= _).toOption = _
        cases drainChunks parser left rest <;> rfl

theorem drain_independent_of_chunks (parser : ManagementParser Event) (chunks : List (List UInt8)) :
    (drainChunks parser [] chunks).toOption = (drainManagement parser [] chunks.flatten).toOption :=
  drainChunks_eq chunks rfl (Nat.zero_le _)

end

/-! ### The socket -/

/-- What one call returns of these bytes, and the bytes behind it. -/
def frameOf (max : Nat) (line : List UInt8) : List UInt8 → FrameResult × List UInt8
  | [] => (if line.isEmpty then .ok none else .error .unexpectedEof, [])
  | b :: rest =>
    if b = newline then (.ok (some line), rest)
    else if max < line.length + 1 then (.error (.tooLarge max), [])
    else frameOf max (line ++ [b]) rest

/-- The results of so many calls, told from the bytes alone. A frame that is too large is the
last. -/
def framesOf (max : Nat) : Nat → List UInt8 → List FrameResult
  | 0, _ => []
  | calls + 1, bytes =>
    match frameOf max [] bytes with
    | (.error (.tooLarge max), _) => [.error (.tooLarge max)]
    | (result, rest) => result :: framesOf max calls rest

/-- The results up to the first frame that is too large, with it. -/
def upToTooLarge : List FrameResult → List FrameResult
  | [] => []
  | .error (.tooLarge max) :: _ => [.error (.tooLarge max)]
  | result :: results => result :: upToTooLarge results

section
variable {max : Nat} {line : List UInt8}

/-- Where no frame is too large, nothing is cut off. -/
theorem upToTooLarge_eq_self {results : List FrameResult}
    (h : ∀ max, .error (.tooLarge max) ∉ upToTooLarge results) : upToTooLarge results = results := by
  fun_induction upToTooLarge results with
  | case1 => rfl
  | case2 max results => exact absurd mem_cons_self (h max)
  | case3 result results hresult ih => rw [ih fun max hmax => h max (mem_cons_of_mem _ hmax)]

theorem ne_newline {bytes : List UInt8} (h : newline ∉ bytes) : ∀ b ∈ bytes, (b != newline) = true := by
  intro b hb
  rw [bne_iff_ne]
  rintro rfl
  exact h hb

/-- A part of a line that has come in one chunk. -/
theorem frameOf_append {chunk rest : List UInt8} (hchunk : newline ∉ chunk)
    (hshort : line.length ≤ max) : frameOf max line (chunk ++ rest) =
      if max < line.length + chunk.length then (.error (.tooLarge max), [])
      else frameOf max (line ++ chunk) rest := by
  induction chunk generalizing line with
  | nil => simp [Nat.not_lt.mpr hshort]
  | cons b chunk ih =>
    rw [mem_cons, not_or] at hchunk
    rw [cons_append, frameOf, if_neg (Ne.symm hchunk.1), length_cons]
    split
    · rw [if_pos (by omega)]
    · rw [ih hchunk.2 (by simp; omega)]
      simp [Nat.add_right_comm, Nat.add_assoc]

/-- One call returns what the bytes say, and leaves the bytes behind it. -/
theorem readFrameFrom_eq (line : List UInt8) (d : Delivery) (hshort : line.length ≤ max) :
    ∃ later : Delivery, readFrameFrom max line d.chunks =
        ((frameOf max line d.chunks.flatten).1, later.chunks) ∧
      ((frameOf max line d.chunks.flatten).1 ≠ .error (.tooLarge max) →
        later.chunks.flatten = (frameOf max line d.chunks.flatten).2) := by
  obtain ⟨chunks, hne⟩ := d
  induction chunks generalizing line with
  | nil => exact ⟨⟨[], hne⟩, rfl, fun _ => rfl⟩
  | cons available chunks ih =>
    obtain ⟨-, hrest⟩ := forall_mem_cons.mp hne
    by_cases hline : newline ∈ available
    · obtain ⟨chunk, rest, rfl, hchunk⟩ := eq_append_cons_of_mem hline
      have htake : (chunk ++ newline :: rest).takeWhile (· != newline) = chunk := by
        rw [takeWhile_append_of_pos (ne_newline hchunk)]
        simp
      simp only [readFrameFrom, htake, flatten_cons, append_assoc, cons_append,
        frameOf_append hchunk hshort, drop_left]
      split
      · exact ⟨⟨_, hne⟩, rfl, fun h => absurd rfl h⟩
      · cases rest with
        | nil => exact ⟨⟨chunks, hrest⟩, rfl, fun _ => rfl⟩
        | cons b rest => exact ⟨⟨(b :: rest) :: chunks, by simpa using hrest⟩, rfl, fun _ => rfl⟩
    · have htake : (available ++ []).takeWhile (· != newline) = available :=
        (takeWhile_append_of_pos (ne_newline hline)).trans (append_nil _)
      rw [append_nil] at htake
      simp only [readFrameFrom, htake, flatten_cons, frameOf_append hline hshort, drop_length]
      split
      · exact ⟨⟨_, hne⟩, rfl, fun h => absurd rfl h⟩
      · exact ih _ (by simp; omega) hrest

variable (calls : Nat)

theorem readFrames_eq (d : Delivery) :
    upToTooLarge (readFrames max calls d.chunks) = framesOf max calls d.chunks.flatten := by
  induction calls generalizing d with
  | zero => rfl
  | succ calls ih =>
    obtain ⟨later, hread, hrest⟩ := readFrameFrom_eq [] d (zero_le max)
    rw [readFrames, framesOf, hread]
    cases hframe : frameOf max [] d.chunks.flatten with
    | mk result rest =>
    rw [hframe] at hrest
    rcases result with (_ | _) | frame
    · rfl
    · show _ :: _ = _ :: _
      rw [ih later, hrest (by simp)]
    · show _ :: _ = _ :: _
      rw [ih later, hrest (by simp)]

/-- Behind the last byte every call finds the end. -/
theorem framesOf_nil : framesOf max calls [] = replicate calls (.ok none) := by
  induction calls with
  | zero => rfl
  | succ calls ih =>
    rw [replicate_succ, ← ih]
    rfl

/-- Lines that are short enough are read one after another. -/
theorem framesOf_lines {lines : List (List UInt8)}
    (hplain : ∀ line ∈ lines, newline ∉ line) (hshort : ∀ line ∈ lines, line.length ≤ max) :
    framesOf max (lines.length + calls) (lines.map (· ++ [newline])).flatten =
      lines.map (fun line => .ok (some line)) ++ replicate calls (.ok none) := by
  induction lines with
  | nil => simpa using framesOf_nil calls
  | cons line lines ih =>
    obtain ⟨hline, hplain⟩ := forall_mem_cons.mp hplain
    obtain ⟨hfits, hshort⟩ := forall_mem_cons.mp hshort
    rw [length_cons, Nat.add_right_comm, framesOf, map_cons, flatten_cons, append_assoc,
      frameOf_append hline (zero_le max), if_neg (by simp; omega)]
    exact congrArg (List.cons _) (ih hplain hshort)

section
variable {α ε : Type} {serialize : α → Except ε (List UInt8)}
  (hserialize : ∀ frame line, serialize frame = .ok line → newline ∉ line)
include hserialize

theorem lines_of_encoded {frames : List α} {encoded : List (List UInt8)}
    (h : frames.mapM (encodeLine serialize) = .ok encoded) :
    ∃ lines : List (List UInt8), encoded = lines.map (· ++ [newline]) ∧
      lines.length = frames.length ∧ ∀ line ∈ lines, newline ∉ line := by
  have hall := mapM_eq_ok.mp h
  clear h
  induction hall with
  | nil => exact ⟨[], rfl, rfl, by simp⟩
  | cons hframe _ ih =>
    obtain ⟨line, hline, rfl⟩ := map_eq_ok.mp hframe
    obtain ⟨lines, rfl, hlength, hplain⟩ := ih
    exact ⟨line :: lines, rfl, by simp [hlength],
      forall_mem_cons.mpr ⟨hserialize _ _ hline, hplain⟩⟩

/-- What is read depends on the bytes alone, up to the first frame that is too large. And whatever
was encoded is read again, and then the end, by as many calls as are made. -/
theorem frames_independent_of_chunks (max : Nat) :
    (∀ calls (d : Delivery),
      upToTooLarge (readFrames max calls d.chunks) = framesOf max calls d.chunks.flatten) ∧
    ∀ (frames : List α) (encoded : List (List UInt8)) (d : Delivery) (calls : Nat),
      frames.mapM (encodeLine serialize) = .ok encoded →
        (∀ line ∈ encoded, line.length ≤ max + 1) → d.chunks.flatten = encoded.flatten →
          readFrames max (frames.length + calls) d.chunks =
            encoded.map (fun line => .ok (some line.dropLast)) ++ replicate calls (.ok none) := by
  refine ⟨readFrames_eq, ?_⟩
  intro frames encoded d calls hencoded hshort hbytes
  obtain ⟨lines, rfl, hlength, hplain⟩ := lines_of_encoded hserialize hencoded
  have hfits : ∀ line ∈ lines, line.length ≤ max := by
    intro line hline
    simpa using hshort _ (List.mem_map_of_mem hline)
  have hread := @readFrames_eq max (frames.length + calls) d
  rw [hbytes, ← hlength, framesOf_lines calls hplain hfits] at hread
  have hall : upToTooLarge (readFrames max (lines.length + calls) d.chunks) =
      readFrames max (lines.length + calls) d.chunks := by
    refine upToTooLarge_eq_self fun max' hmem => ?_
    rw [hread] at hmem
    simp at hmem
  rw [← hlength, ← hall, hread]
  simp

end

/-- Two flags, in chunks that end before and behind line ends. -/
theorem flags_read :
    (∀ calls (d : Delivery),
      upToTooLarge (readFrames 1 calls d.chunks) = framesOf 1 calls d.chunks.flatten) ∧
      readFrames 1 3 [[0x74], [0x0a, 0x66], [0x0a]] =
        [.ok (some [0x74]), .ok (some [0x66]), .ok none] := by
  let write : Bool → Except Unit (List UInt8) := fun b => .ok (if b then [0x74] else [0x66])
  have hwrite : ∀ frame line, write frame = .ok line → newline ∉ line := by
    rintro (_ | _) _ h <;> cases h <;> decide
  obtain ⟨hread, hencoded⟩ := frames_independent_of_chunks hwrite 1
  exact ⟨hread, hencoded [true, false] _ ⟨[[0x74], [0x0a, 0x66], [0x0a]], by simp⟩ 1 rfl
    (by decide) rfl⟩

/-- `abcdef` is too large for three bytes. In one chunk it stays so, and in two its end is read as a
frame. -/
theorem split_frame_reads_on : ¬∀ calls (d d' : Delivery), d.chunks.flatten = d'.chunks.flatten →
    readFrames 3 calls d.chunks = readFrames 3 calls d'.chunks := by
  intro h
  have hsame := h 2 ⟨[[0x61, 0x62, 0x63, 0x64, 0x65, 0x66, 0x0a]], by simp⟩
    ⟨[[0x61, 0x62, 0x63], [0x64, 0x65, 0x66, 0x0a]], by simp⟩ rfl
  revert hsame
  decide

end

end NetOrchestrator.Core
