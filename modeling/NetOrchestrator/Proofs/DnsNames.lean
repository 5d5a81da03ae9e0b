import NetOrchestrator.Core.DnsPackets

/-!
# `Proofs.DnsNames`: names are read as they were written

A host is read back in lower case (`readNameFrom_written`). A name that jumps has behind it what is
behind the first pointer, and otherwise what is behind the name itself, so its end is told from the
bytes there (`pieceOf_eq_some`).
-/

namespace NetOrchestrator.Core

open Daemon (splitChars_eq_splitOn)
open Lib List Option Bool Nat

/-! ### Reading what was written -/

section written
variable {labels : List (List Char)} {label host : List Char} {c : Char}

theorem toLower_ascii (hc : c.toNat < 128) : c.toLower.toNat < 128 := by
  by_cases hupper : c.isUpper = true
  · have hle := (isUpper_iff.mp hupper).2
    rw [toLower_of_isUpper hupper]
    omega
  · rwa [toLower_of_not_isUpper hupper]

theorem ascii_of_validLabel (h : validLabel label = true) (hc : c ∈ label) : c.toNat < 128 := by
  simp only [validLabel, and_eq_true, List.all_eq_true, or_eq_true, beq_iff_eq] at h
  rcases h.2 c hc with (hname | rfl) | rfl
  · exact lt_of_isAlphanum hname
  · decide
  · decide

theorem length_utf8Bytes (h : ∀ c ∈ label, c.toNat < 128) :
    (utf8Bytes label).length = label.length := by
  induction label with
  | nil => rfl
  | cons c label ih =>
    obtain ⟨hc, hlabel⟩ := forall_mem_cons.mp h
    rw [utf8Bytes_cons_ascii hc, length_cons, length_cons, ih hlabel]

theorem length_le_utf8Bytes (cs : List Char) : cs.length ≤ (utf8Bytes cs).length := by
  induction cs with
  | nil => exact zero_le _
  | cons c cs ih =>
    have hsize := Char.utf8Size_pos c
    rw [utf8Bytes_cons, length_append, String.length_utf8EncodeChar, length_cons]
    omega

theorem lossy_utf8Bytes (h : ∀ c ∈ label, c.toNat < 128) :
    lossy 0 0 0 0 (utf8Bytes label) = label := by
  induction label with
  | nil => rfl
  | cons c label ih =>
    obtain ⟨hc, hlabel⟩ := forall_mem_cons.mp h
    rw [utf8Bytes_cons_ascii hc, lossy]
    simp [asciiByte_toNat hc, hc, ih hlabel]

theorem ascii_lowered (h : validLabel label = true) :
    ∀ c ∈ label.map Char.toLower, c.toNat < 128 := by
  intro c hc
  obtain ⟨d, hd, rfl⟩ := mem_map.mp hc
  exact toLower_ascii (ascii_of_validLabel h hd)

theorem length_lowered (h : validLabel label = true) :
    (utf8Bytes (label.map Char.toLower)).length = label.length := by
  rw [length_utf8Bytes (ascii_lowered h), length_map]

/-- The lengths of the labels and the dots between them are the length of the host. -/
theorem length_intercalate (h : labels ≠ []) :
    (['.'].intercalate labels).length + 1 = (labels.map fun label => label.length + 1).sum := by
  induction labels with
  | nil => exact absurd rfl h
  | cons label labels ih =>
    cases labels with
    | nil => simp
    | cons next labels =>
      rw [intercalate_cons_cons, map_cons, sum_cons, ← ih (by simp)]
      simp
      omega

theorem map_intercalate (labels : List (List Char)) : (['.'].intercalate labels).map Char.toLower =
      ['.'].intercalate (labels.map (·.map Char.toLower)) := by
  have hdot : Char.toLower '.' = '.' := by decide
  induction labels with
  | nil => rfl
  | cons label labels ih =>
    cases labels with
    | nil => simp
    | cons next labels => simpa [intercalate_cons_cons, hdot] using ih

theorem labelBytes_written {name : List UInt8} (h : questionName labels = some name) :
    labelBytes (labels.map (·.map Char.toLower)) = (labels.map fun label => label.length + 1).sum := by
  induction labels generalizing name with
  | nil => rfl
  | cons label labels ih =>
    rw [questionName] at h
    split at h
    · rename_i hvalid
      obtain ⟨more, hmore, -⟩ := map_eq_some_iff.mp h
      have hrest := ih hmore
      simp only [labelBytes, map_cons, sum_cons, length_lowered hvalid] at hrest ⊢
      rw [hrest]
    · cases h

theorem readNameFrom_written {packet name behind : List UInt8} {read : List (List Char)}
    {position : Nat} (h : questionName labels = some name)
    (hpacket : packet.drop position = name ++ behind)
    (hshort : labelBytes (read ++ labels.map (·.map Char.toLower)) ≤ 255) :
    readNameFrom packet read none 0 position =
      some (['.'].intercalate (read ++ labels.map (·.map Char.toLower)), position + name.length) := by
  induction labels generalizing read position name with
  | nil =>
    cases h
    rw [readNameFrom, hpacket]
    simp [pieceOf]
  | cons label labels ih =>
    rw [questionName] at h
    split at h
    · rename_i hvalid
      obtain ⟨more, hmore, rfl⟩ := map_eq_some_iff.mp h
      have hascii : ∀ c ∈ label, c.toNat < 128 := fun c hc => ascii_of_validLabel hvalid hc
      have hlength := length_lowered hvalid
      rw [length_utf8Bytes hascii] at hpacket ⊢
      obtain ⟨hpos, hle⟩ : 0 < label.length ∧ label.length ≤ 63 := by
        simp only [validLabel, length_utf8Bytes hascii, and_eq_true, decide_eq_true_eq] at hvalid
        exact ⟨length_pos_iff.mpr (by simpa using hvalid.1.1.1.1), hvalid.1.1.1.2⟩
      have hmask : label.length &&& 0xc0 ≠ 0xc0 := by
        have hand : label.length &&& 0xc0 ≤ label.length := and_le_left
        omega
      have hpiece : pieceOf (packet.drop position) =
          some (.label (utf8Bytes (label.map Char.toLower))) := by
        have hbyte : (UInt8.ofNat label.length).toNat = label.length := by
          rw [UInt8.toNat_ofNat']
          omega
        rw [hpacket, cons_append, pieceOf]
        have hroom : ¬(63 < label.length ∨
            (utf8Bytes (label.map Char.toLower) ++ more ++ behind).length < label.length) := by
          rw [length_append, length_append, hlength]
          omega
        simp only [hbyte, if_neg hpos.ne', if_neg hmask, if_neg hroom]
        rw [append_assoc, take_left' hlength]
      have hfits : labelBytes (read ++ [label.map Char.toLower]) ≤ 255 := by
        simp only [labelBytes, map_append, List.sum_append, map_cons, sum_cons, map_nil, sum_nil] at hshort ⊢
        omega
      have hdrop : packet.drop (position + 1 + label.length) = more ++ behind := by
        rw [← drop_drop, ← drop_drop, hpacket]
        simp [← hlength]
      rw [readNameFrom, hpiece]
      simp only [lossy_utf8Bytes (ascii_lowered hvalid), hlength]
      rw [if_neg (not_lt.mpr hfits), ih hmore hdrop (by simpa using hshort)]
      simp [hlength]
      omega
    · cases h

end written

/-! ### Names anywhere in a packet -/

section places
variable {packet packet' bytes : List UInt8} {piece : NamePiece} {labels : List (List Char)}
  {name : List Char} {after : Option Nat} {jumps position e : Nat}

theorem pieceOf_eq_some (h : pieceOf bytes = some piece) : piece.size ≤ bytes.length ∧
      ∀ others, others.take piece.size = bytes.take piece.size → pieceOf others = some piece := by
  cases bytes with
  | nil => cases h
  | cons b rest =>
    -- The first byte says how many more there are, so other bytes need to have that many, too.
    suffices hrest : ∃ k, piece.size = k + 1 ∧ k ≤ rest.length ∧
        ∀ others, others.take k = rest.take k → pieceOf (b :: others) = some piece by
      obtain ⟨k, hsize, hk, hothers⟩ := hrest
      rw [hsize]
      refine ⟨succ_le_succ hk, ?_⟩
      rintro (_ | ⟨c, others⟩) htake
      · cases htake
      · obtain ⟨rfl, hrest⟩ := List.cons.inj htake
        exact hothers others hrest
    simp only [pieceOf] at h ⊢
    split at h
    · rename_i hzero
      cases h
      exact ⟨0, rfl, zero_le _, fun _ _ => if_pos hzero⟩
    · rename_i hzero
      split at h
      · rename_i hmask
        obtain ⟨low, hlow, rfl⟩ := map_eq_some_iff.mp h
        obtain ⟨rest, rfl⟩ := head?_eq_some_iff.mp hlow
        refine ⟨1, rfl, by simp, ?_⟩
        rintro (_ | ⟨d, others⟩) htake
        · cases htake
        · obtain ⟨rfl, -⟩ := List.cons.inj htake
          rw [if_neg hzero, if_pos hmask]
          rfl
      · rename_i hmask
        split at h
        · cases h
        · rename_i hroom
          cases h
          have hlength : (rest.take b.toNat).length = b.toNat := length_take_of_le (by omega)
          refine ⟨b.toNat, congrArg (· + 1) hlength, by omega, ?_⟩
          intro others htake
          have hothers := congrArg List.length htake
          rw [hlength, length_take] at hothers
          rw [if_neg hzero, if_neg hmask, if_neg (by omega), htake]

theorem pieceOf_drop (h : pieceOf (packet.drop position) = some piece)
    (hsame : ∀ i, position ≤ i → i < position + piece.size → packet'[i]? = packet[i]?) :
    pieceOf (packet'.drop position) = some piece := by
  refine (pieceOf_eq_some h).2 _ (ext_getElem? fun i => ?_)
  rw [getElem?_take, getElem?_take]
  split
  · rw [getElem?_drop, getElem?_drop]
    exact hsame _ (by omega) (by omega)
  · rfl

theorem le_length_of_pieceOf (h : pieceOf (packet.drop position) = some piece) :
    position + piece.size ≤ packet.length := by
  have hle := (pieceOf_eq_some h).1
  rw [length_drop] at hle
  cases piece <;> simp only [NamePiece.size] at * <;> omega

/-- Once a pointer is followed, what is behind the name is settled. -/
theorem end_of_after {e' : Nat} (hafter : after = some e)
    (h : readNameFrom packet labels after jumps position = some (name, e')) : e' = e := by
  fun_induction readNameFrom packet labels after jumps position with
  | case1 => cases h
  | case2 => simp_all
  | case3 => cases h
  | case4 labels after jumps position target hpiece hjumps ih => exact ih (by rw [hafter]; rfl) h
  | case5 => cases h
  | case6 labels after jumps position bytes hpiece labels' hfits ih => exact ih hafter h

/-- A name ends behind its place, and where it ends is told from the bytes before. -/
theorem readNameFrom_end (hafter : after = none)
    (h : readNameFrom packet labels after jumps position = some (name, e)) :
    position < e ∧ e ≤ packet.length ∧
      ∀ packet' labels' jumps' name' e', (∀ i, position ≤ i → i < e → packet'[i]? = packet[i]?) →
        readNameFrom packet' labels' none jumps' position = some (name', e') → e' = e := by
  fun_induction readNameFrom packet labels after jumps position with
  | case1 => cases h
  | case2 labels after jumps position hpiece =>
    subst hafter
    cases h
    have hle := le_length_of_pieceOf hpiece
    refine ⟨lt_succ_self _, hle, ?_⟩
    intro packet' labels' jumps' name' e' hsame h'
    rw [readNameFrom, pieceOf_drop hpiece hsame] at h'
    cases h'
    rfl
  | case3 => cases h
  | case4 labels after jumps position target hpiece hjumps ih =>
    subst hafter
    obtain rfl := end_of_after rfl h
    have hle := le_length_of_pieceOf hpiece
    refine ⟨by omega, hle, ?_⟩
    intro packet' labels' jumps' name' e' hsame h'
    rw [readNameFrom, pieceOf_drop hpiece hsame] at h'
    simp only at h'
    split at h'
    · cases h'
    · exact end_of_after rfl h'
  | case5 => cases h
  | case6 labels after jumps position bytes hpiece labels' hfits ih =>
    obtain ⟨hlt, hle, hrest⟩ := ih hafter h
    refine ⟨by omega, hle, ?_⟩
    intro packet' labels' jumps' name' e' hsame h'
    have hpiece' : pieceOf (packet'.drop position) = some (.label bytes) :=
      pieceOf_drop hpiece fun i hi hlt' => hsame i hi (by simp only [NamePiece.size] at hlt'; omega)
    rw [readNameFrom, hpiece'] at h'
    simp only at h'
    split at h'
    · cases h'
    · exact hrest _ _ _ _ _ (fun i hi hlt' => hsame i (by omega) hlt') h'

/-- What is behind a packet is not read. -/
theorem readNameFrom_append (more : List UInt8)
    (h : readNameFrom packet labels after jumps position = some (name, e)) :
    readNameFrom (packet ++ more) labels after jumps position = some (name, e) := by
  have hmore : ∀ {position piece}, pieceOf (packet.drop position) = some piece →
      pieceOf ((packet ++ more).drop position) = some piece := by
    intro position piece hpiece
    refine pieceOf_drop hpiece fun i _ hi => ?_
    exact getElem?_append_left (lt_of_lt_of_le hi (le_length_of_pieceOf hpiece))
  fun_induction readNameFrom packet labels after jumps position with
  | case1 => cases h
  | case2 labels after jumps position hpiece =>
    rw [readNameFrom, hmore hpiece]
    exact h
  | case3 => cases h
  | case4 labels after jumps position target hpiece hjumps ih =>
    rw [readNameFrom, hmore hpiece]
    exact (if_neg hjumps).trans (ih h)
  | case5 => cases h
  | case6 labels after jumps position bytes hpiece labels' hfits ih =>
    rw [readNameFrom, hmore hpiece]
    exact (if_neg hfits).trans (ih h)

end places

/-- A host is read as it was written, in lower case. And wherever a name is read, what is behind it
is in the packet and told from the bytes at its place. -/
theorem dns_names :
    (∀ (host : String) (family : DnsFamily) (id : UInt16) (packet : List UInt8),
      buildQuery host family id = some packet →
        readName packet 12 = some ((queryHost host).map Char.toLower, packet.length - 4) ∧
        packet.drop (packet.length - 4) = beBytes family.qtype ++ [0, 1]) ∧
    ∀ (packet : List UInt8) (offset : Nat) (name : List Char) (e : Nat),
      readName packet offset = some (name, e) →
        offset < e ∧ e ≤ packet.length ∧
        (∀ more, readName (packet ++ more) offset = some (name, e)) ∧
        ∀ packet' name' e', (∀ i, offset ≤ i → i < e → packet'[i]? = packet[i]?) →
          readName packet' offset = some (name', e') → e' = e := by
  constructor
  · intro host family id packet h
    rw [buildQuery] at h
    split at h
    · cases h
    · rename_i hhost
      obtain ⟨name, hname, rfl⟩ := Option.map_eq_some_iff.mp h
      rw [splitChars_eq_splitOn] at hname
      have hjoin : ['.'].intercalate ((queryHost host).splitOn '.') = queryHost host :=
        List.intercalate_splitOn '.'
      have hlength := length_intercalate (List.splitOn_ne_nil '.' (queryHost host))
      have hbytes := length_le_utf8Bytes (queryHost host)
      rw [hjoin, ← labelBytes_written hname] at hlength
      have hfits : labelBytes ([] ++ ((queryHost host).splitOn '.').map (·.map Char.toLower)) ≤ 255 := by
        rw [List.nil_append]
        omega
      set front := beBytes id ++ [1, 0, 0, 1, 0, 0, 0, 0, 0, 0] ++ name with hfront
      set behind := beBytes family.qtype ++ [0, 1] with hbehind
      have hdrop : (front ++ behind).drop 12 = name ++ behind := by
        rw [hfront, List.append_assoc]
        rfl
      have hend : (front ++ behind).length - 4 = front.length := by
        rw [List.length_append, hbehind]
        rfl
      have hread := readNameFrom_written hname hdrop hfits
      rw [List.nil_append, ← map_intercalate, hjoin] at hread
      have hplace : front.length = 12 + name.length := by
        rw [hfront, List.length_append]
        rfl
      rw [hend, hplace]
      exact ⟨hread, by rw [← hplace]; exact List.drop_left⟩
  · intro packet offset name e h
    obtain ⟨hlt, hle, hsame⟩ := readNameFrom_end rfl h
    exact ⟨hlt, hle, fun more => readNameFrom_append more h,
      fun packet' name' e' hagree h' => hsame _ _ _ _ _ hagree h'⟩

/-- A host with a capital letter and a dot behind it. -/
theorem host_asked : ∃ packet, buildQuery "Relay.test." .aaaa 7 = some packet ∧
    readName packet 12 = some ("relay.test".toList, 24) ∧
    packet.drop 24 = beBytes DnsFamily.aaaa.qtype ++ [0, 1] := by
  have hasked : (buildQuery "Relay.test." .aaaa 7).map List.length = some 28 := by decide
  obtain ⟨packet, hpacket, hlength⟩ := Option.map_eq_some_iff.mp hasked
  obtain ⟨hread, hbehind⟩ := dns_names.1 _ _ _ _ hpacket
  rw [hlength] at hread hbehind
  have hname : (queryHost "Relay.test.").map Char.toLower = "relay.test".toList := by decide
  exact ⟨packet, hpacket, hname ▸ hread, hbehind⟩

end NetOrchestrator.Core
