import NetOrchestrator.Net.Ip
import Mathlib.Data.Nat.Basic

/-!
# `Net.IpText`: the text of an address

`renderIp` is the standard library's `to_string` of an address: four decimal octets, or
hexadecimal groups with the longest run of zero groups left out, an IPv4-mapped address with
its last two groups as octets. `parseIpAddr_renderIp` says that the parser reads back what it
prints.
-/

namespace NetOrchestrator.Net

/-! ### Printing -/

open List Option

/-- Four decimal octets. -/
def quadChars (v : Nat) : List Char :=
  Nat.toDigits 10 (v / 16777216) ++ '.' :: (Nat.toDigits 10 (v / 65536 % 256) ++
    '.' :: (Nat.toDigits 10 (v / 256 % 256) ++ '.' :: Nat.toDigits 10 (v % 256)))

/-- The lowest `count` groups of sixteen bits, the highest first. -/
def groupsOf : Nat → Nat → List Nat
  | 0, _ => []
  | count + 1, n => groupsOf count (n / 65536) ++ [n % 65536]

/-- Groups with a colon in front of each. -/
def colonGroups (gs : List Nat) : List Char := gs.flatMap fun g => ':' :: Nat.toDigits 16 g

/-- `fmt_subslice`: groups with colons between them. -/
def groupChars : List Nat → List Char
  | [] => []
  | g :: gs => Nat.toDigits 16 g ++ colonGroups gs

structure Span where
  start : Nat
  len : Nat
  deriving DecidableEq

/-- The run goes on at the index, or starts there. -/
def Span.grow (i : Nat) (run : Span) : Span :=
  if run.len = 0 then ⟨i, 1⟩ else ⟨run.start, run.len + 1⟩

/-- The loop that looks for the longest run of zeros: the run at the index and the longest
one so far. -/
def longestZeros : List Nat → Nat → Span → Span → Span
  | [], _, _, longest => longest
  | g :: gs, i, current, longest =>
    if g = 0 then
      let current := current.grow i
      longestZeros gs (i + 1) current (if longest.len < current.len then current else longest)
    else longestZeros gs (i + 1) ⟨0, 0⟩ longest

def ipv6Chars (n : Nat) : List Char :=
  let gs := groupsOf 8 n
  if gs.take 6 = [0, 0, 0, 0, 0, 0xffff] then
    ':' :: ':' :: (groupChars [0xffff] ++ ':' :: quadChars (n % 4294967296))
  else
    let zeroes := longestZeros gs 0 ⟨0, 0⟩ ⟨0, 0⟩
    if 1 < zeroes.len then
      groupChars (gs.take zeroes.start) ++
        ':' :: ':' :: groupChars (gs.drop (zeroes.start + zeroes.len))
    else groupChars gs

/-- `IpAddr::to_string`. -/
def renderIp : IpAddr → String
  | .v4 a => String.ofList (quadChars a.toNat)
  | .v6 a => String.ofList (ipv6Chars a.toNat)

example : renderIp (.v6 0x20010db8000000000001000000000001) = "2001:db8::1:0:0:1" := by
  decide
example : renderIp (.v6 0xffff01020304) = "::ffff:1.2.3.4" := by decide

/-! ### Numbers -/

variable {radix n g total i : Nat} {rest : List Char} {gs : List Nat} {current : Span}

/-- The digits of a number: they stand for it, and no number but a digit starts with zero. -/
theorem exists_digits (hradix : 1 < radix) (n : Nat) :
    ∃ ds : List Nat, Nat.toDigits radix n = ds.map Nat.digitChar ∧ (∀ d ∈ ds, d < radix) ∧
      ds.foldl (fun acc d => acc * radix + d) 0 = n ∧ (ds.head? = some 0 → n = 0) := by
  induction n using Nat.strongRecOn with
  | ind n ih =>
    by_cases hn : n < radix
    · refine ⟨[n], ?_, ?_, ?_, ?_⟩
      · rw [Nat.toDigits_of_lt_base hn]
        rfl
      · simpa using hn
      · simp
      · simp
    · have hdiv : n / radix < n := Nat.div_lt_self (by omega) hradix
      have hpos : 0 < n / radix := Nat.div_pos (by omega) (by omega)
      obtain ⟨ds, hds, hlt, hvalue, hhead⟩ := ih (n / radix) hdiv
      refine ⟨ds ++ [n % radix], ?_, ?_, ?_, ?_⟩
      · rw [Nat.toDigits_of_base_le hradix (by omega), hds]
        simp
      · intro d hd
        rcases mem_append.mp hd with hd | hd
        · exact hlt d hd
        · rw [mem_singleton.mp hd]
          exact Nat.mod_lt n (by omega)
      · rw [foldl_append, hvalue]
        show n / radix * radix + n % radix = n
        rw [Nat.mul_comm]
        exact Nat.div_add_mod n radix
      · intro h
        have hne : ds ≠ [] := by
          rintro rfl
          simp at hds
        rw [head?_append_of_ne_nil _ hne] at h
        have hzero := hhead h
        omega

/-- The text does not go on with a digit. -/
def NoDigit (radix : Nat) (rest : List Char) : Prop :=
  ∀ c, rest.head? = some c → digitValue radix c = none

theorem noDigit_nil (radix : Nat) : NoDigit radix [] := by
  intro c h
  simp at h

variable {c : Char} {v : Nat} {left : Nat} {longest : Span} (ip : IpAddr) (net : IpNet)

theorem noDigit_cons (h : digitValue radix c = none) : NoDigit radix (c :: rest) := by
  intro d hd
  obtain rfl : c = d := by simpa using hd
  exact h

section
variable {radix : Nat} (hchar : ∀ d < radix, digitValue radix (Nat.digitChar d) = some d)
include hchar

theorem takeDigits_map {ds : List Nat} {rest : List Char} (hds : ∀ d ∈ ds, d < radix)
    (hrest : NoDigit radix rest) {limit : Nat} (hlimit : ds.length < limit) :
    takeDigits radix limit (ds.map Nat.digitChar ++ rest) = (ds, rest) := by
  induction ds generalizing limit with
  | nil =>
    obtain ⟨limit, rfl⟩ : ∃ l, limit = l + 1 := ⟨limit - 1, by simp at hlimit; omega⟩
    cases rest with
    | nil => rfl
    | cons c rest => rw [map_nil, nil_append, takeDigits, hrest c rfl]
  | cons d ds ih =>
    simp only [length_cons] at hlimit
    obtain ⟨limit, rfl⟩ : ∃ l, limit = l + 1 := ⟨limit - 1, by omega⟩
    rw [map_cons, cons_append, takeDigits, hchar d (hds d (by simp))]
    have hlength : ds.length < limit := by omega
    rw [ih (fun d hd => hds d (by simp [hd])) hlength]

theorem readNumber_toDigits (hradix : 1 < radix) {limit bound n : Nat} {zeroPrefix : Bool}
    {rest : List Char} (hn : n < bound) (hlen : (Nat.toDigits radix n).length ≤ limit)
    (hrest : NoDigit radix rest) :
    readNumber radix limit bound zeroPrefix (Nat.toDigits radix n ++ rest) = some (n, rest) := by
  obtain ⟨ds, hds, hlt, hvalue, hhead⟩ := exists_digits hradix n
  have hlength : ds.length ≤ limit := by simpa [hds] using hlen
  have htake : takeDigits radix (limit + 1) (Nat.toDigits radix n ++ rest) = (ds, rest) := by
    rw [hds]
    exact takeDigits_map hchar hlt hrest (by omega)
  have hne : ds ≠ [] := by
    rintro rfl
    simp at hds
  rw [readNumber, htake]
  have hbad : ¬(ds = [] ∨ limit < ds.length ∨ bound ≤ n) := by
    simp only [hne, false_or, not_or]
    omega
  have hzero : (!zeroPrefix && ds.head? == some 0 && decide (1 < ds.length)) = false := by
    by_cases h : ds.head? = some 0
    · -- a number that starts with a zero is zero, which has one digit
      have hone : (Nat.toDigits radix n).length = 1 := by
        rw [hhead h, Nat.toDigits_of_lt_base (by omega)]
        rfl
      have hnot : ¬1 < ds.length := by
        rw [hds, length_map] at hone
        omega
      simp [hnot]
    · simp [h]
  simp only [hvalue, if_neg hbad, hzero]
  rfl

end

theorem digitValue_digitChar :
    ∀ radix ≤ 16, ∀ d < radix, digitValue radix (Nat.digitChar d) = some d := by decide

/-! ### Octets -/

theorem readOctet (hn : n < 256) (hrest : NoDigit 10 rest) :
    readNumber 10 3 256 false (Nat.toDigits 10 n ++ rest) = some (n, rest) := by
  refine readNumber_toDigits (digitValue_digitChar 10 (by decide)) (by omega) hn ?_ hrest
  exact (Nat.length_toDigits_le_iff (by omega) (by omega)).mpr (by omega)

theorem noDigit_dot (rest : List Char) : NoDigit 10 ('.' :: rest) := noDigit_cons (by decide)

theorem readIpv4_quadChars (hv : v < 4294967296)
    (hrest : NoDigit 10 rest) : readIpv4 (quadChars v ++ rest) = some (v, rest) := by
  have hvalue : ((v / 16777216 * 256 + v / 65536 % 256) * 256 + v / 256 % 256) * 256 + v % 256 = v := by
    omega
  unfold readIpv4 quadChars
  simp only [append_assoc, cons_append, readSeparator, reduceIte, Nat.succ_ne_zero]
  rw [readOctet (by omega) (noDigit_dot _)]
  simp only [bind_eq_bind, bind_some, readChar, reduceIte]
  rw [readOctet (by omega) (noDigit_dot _)]
  simp only [bind_some, reduceIte]
  rw [readOctet (by omega) (noDigit_dot _)]
  simp only [bind_some, reduceIte]
  rw [readOctet (by omega) hrest]
  simp only [bind_some, hvalue]

/-- What is left after the digits ends in the text behind the number. -/
theorem takeDigits_append (hrest : NoDigit radix rest) (limit : Nat) (cs : List Char) :
    ∃ left, (takeDigits radix limit (cs ++ rest)).2 = left ++ rest ∧ ∀ c ∈ left, c ∈ cs := by
  induction limit generalizing cs with
  | zero => exact ⟨cs, rfl, fun c hc => hc⟩
  | succ limit ih =>
    cases cs with
    | nil =>
      refine ⟨[], ?_, by simp⟩
      cases rest with
      | nil => rfl
      | cons c rest => rw [nil_append, takeDigits, hrest c rfl]
    | cons c cs =>
      rw [cons_append, takeDigits]
      cases digitValue radix c with
      | none => exact ⟨c :: cs, rfl, fun c hc => hc⟩
      | some v =>
        obtain ⟨left, hleft, hmem⟩ := ih cs
        exact ⟨left, hleft, fun c hc => by simp [hmem c hc]⟩

theorem snd_readNumber {limit bound : Nat} {zeroPrefix : Bool} {cs left : List Char}
    (h : readNumber radix limit bound zeroPrefix cs = some (n, left)) :
    left = (takeDigits radix (limit + 1) cs).2 := by
  unfold readNumber at h
  simp only at h
  split at h
  · cases h
  · split at h
    · cases h
    · cases h
      rfl

/-- Characters without a dot do not start an address of octets. -/
theorem readIpv4_eq_none {cs : List Char} (hcs : '.' ∉ cs) (hdigit : NoDigit 10 rest)
    (hrest : rest.head? ≠ some '.') : readIpv4 (cs ++ rest) = none := by
  unfold readIpv4
  simp only [readSeparator, reduceIte, Nat.succ_ne_zero, bind_eq_bind]
  cases hread : readNumber 10 3 256 false (cs ++ rest) with
  | none => rfl
  | some octet =>
    obtain ⟨n, left⟩ := octet
    obtain ⟨behind, hbehind, hmem⟩ := takeDigits_append hdigit 4 cs
    have hleft : left = behind ++ rest := by rw [snd_readNumber hread, hbehind]
    have hdot : readChar '.' left = none := by
      rw [hleft]
      cases behind with
      | nil =>
        cases rest with
        | nil => rfl
        | cons c rest =>
          have hne : '.' ≠ c := by
            rintro rfl
            simp at hrest
          simp [readChar, hne]
      | cons c behind =>
        have hne : '.' ≠ c := by
          rintro rfl
          exact hcs (hmem '.' (by simp))
        simp [readChar, hne]
    simp [hdot]

/-! ### Groups -/

theorem dot_not_mem_toDigits (g : Nat) : '.' ∉ Nat.toDigits 16 g := by
  obtain ⟨ds, hds, hlt, -, -⟩ := exists_digits (show 1 < 16 by omega) g
  rw [hds]
  intro h
  obtain ⟨d, hd, hdot⟩ := mem_map.mp h
  have hne : ∀ d < 16, Nat.digitChar d ≠ '.' := by decide
  exact hne d (hlt d hd) hdot

theorem readGroup (hg : g < 65536) (hrest : NoDigit 16 rest) :
    readNumber 16 4 65536 true (Nat.toDigits 16 g ++ rest) = some (g, rest) := by
  refine readNumber_toDigits (digitValue_digitChar 16 (by decide)) (by omega) hg ?_ hrest
  exact (Nat.length_toDigits_le_iff (by omega) (by omega)).mpr (by omega)

/-- What may follow the groups of one side: the end, or the two colons. -/
inductive Ends : List Char → Prop
  | nil : Ends []
  | colons (rest : List Char) : Ends (':' :: ':' :: rest)

/-- What may follow one group: the end, or a colon. -/
def AfterGroup (rest : List Char) : Prop := rest = [] ∨ ∃ more, rest = ':' :: more

theorem Ends.afterGroup (h : Ends rest) : AfterGroup rest := by
  cases h with
  | nil => exact .inl rfl
  | colons rest => exact .inr ⟨_, rfl⟩

theorem afterGroup_colonGroups (gs : List Nat) (h : AfterGroup rest) :
    AfterGroup (colonGroups gs ++ rest) := by
  cases gs with
  | nil => exact h
  | cons g gs => exact .inr ⟨_, rfl⟩

theorem AfterGroup.noDigit (h : AfterGroup rest)
    (hcolon : digitValue radix ':' = none) : NoDigit radix rest := by
  rcases h with rfl | ⟨more, rfl⟩
  · exact noDigit_nil radix
  · exact noDigit_cons hcolon

theorem AfterGroup.head?_ne (h : AfterGroup rest) : rest.head? ≠ some '.' := by
  rcases h with rfl | ⟨more, rfl⟩ <;> simp

theorem readIpv4_toDigits (h : AfterGroup rest) : readIpv4 (Nat.toDigits 16 g ++ rest) = none :=
  readIpv4_eq_none (dot_not_mem_toDigits g) (h.noDigit (by decide)) h.head?_ne

theorem readIpv4_of_colon (rest : List Char) : readIpv4 (':' :: rest) = none := by
  rw [← nil_append (':' :: rest)]
  exact readIpv4_eq_none (by simp) (noDigit_cons (by decide)) (by simp)

/-- No group starts at the end of a side. -/
theorem readGroups_ends (h : Ends rest) : readGroups total left rest = ([], false, rest) := by
  cases left with
  | zero => rfl
  | succ left =>
    unfold readGroups
    cases h with
    | nil =>
      by_cases hi : total - (left + 1) = 0 <;>
        simp [readSeparator, hi, readChar, readIpv4, readNumber, takeDigits]
    | colons rest =>
      have hnumber : ∀ more, readNumber 16 4 65536 true (':' :: more) = none := by
        intro more
        have htake : takeDigits 16 5 (':' :: more) = ([], ':' :: more) := rfl
        simp [readNumber, htake]
      by_cases hi : total - (left + 1) = 0 <;>
        simp [readSeparator, hi, readChar, readIpv4_of_colon, hnumber]

theorem readGroups_colonGroups (h : Ends rest)
    (hgs : ∀ g ∈ gs, g < 65536) (hleft : left < total) (hlen : gs.length ≤ left) :
    readGroups total left (colonGroups gs ++ rest) = (gs, false, rest) := by
  induction gs generalizing left with
  | nil => exact readGroups_ends h
  | cons g gs ih =>
    simp only [length_cons] at hlen
    obtain ⟨left, rfl⟩ : ∃ l, left = l + 1 := ⟨left - 1, by omega⟩
    have hindex : total - (left + 1) ≠ 0 := by omega
    have hafter := afterGroup_colonGroups gs h.afterGroup
    have htext : colonGroups (g :: gs) ++ rest =
        ':' :: (Nat.toDigits 16 g ++ (colonGroups gs ++ rest)) := by
      simp [colonGroups]
    rw [htext, readGroups]
    simp only [readSeparator, if_neg hindex, readChar, reduceIte, bind_some,
      readIpv4_toDigits hafter, ite_self,
      readGroup (hgs g (by simp)) (hafter.noDigit (by decide))]
    rw [ih (fun g hg => hgs g (by simp [hg])) (by omega) (by omega)]

theorem readGroups_groupChars (h : Ends rest)
    (hgs : ∀ g ∈ gs, g < 65536) (hlen : gs.length ≤ total) :
    readGroups total total (groupChars gs ++ rest) = (gs, false, rest) := by
  cases gs with
  | nil => exact readGroups_ends h
  | cons g gs =>
    simp only [length_cons] at hlen
    obtain ⟨total, rfl⟩ : ∃ t, total = t + 1 := ⟨total - 1, by omega⟩
    have hafter := afterGroup_colonGroups gs h.afterGroup
    rw [groupChars, append_assoc, readGroups]
    simp only [Nat.sub_self, readSeparator, reduceIte, readIpv4_toDigits hafter, ite_self,
      readGroup (hgs g (by simp)) (hafter.noDigit (by decide))]
    rw [readGroups_colonGroups h (fun g hg => hgs g (by simp [hg])) (by omega) (by omega)]

/-! ### The longest run of zeros -/

/-- The run lies in the text and is made of zeros. -/
def ZeroSpan (gs : List Nat) (span : Span) : Prop :=
  ∀ k, span.start ≤ k → k < span.start + span.len → gs[k]? = some 0

theorem zeroSpan_grow (hcurrent : ZeroSpan gs current)
    (hend : current.len ≠ 0 → current.start + current.len = i) (hhere : gs[i]? = some 0) :
    ZeroSpan gs (current.grow i) := by
  intro k hstart hlt
  unfold Span.grow at hstart hlt
  split at hstart
  · rename_i hzero
    rw [if_pos hzero] at hlt
    obtain rfl : k = i := by
      simp only at hstart hlt
      omega
    exact hhere
  · rename_i hne
    rw [if_neg hne] at hlt
    simp only at hstart hlt
    have hsum := hend hne
    by_cases hk : k < current.start + current.len
    · exact hcurrent k hstart hk
    · obtain rfl : k = i := by omega
      exact hhere

theorem end_grow (hend : current.len ≠ 0 → current.start + current.len = i) :
    (current.grow i).start + (current.grow i).len = i + 1 := by
  unfold Span.grow
  split
  · rfl
  · rename_i hne
    have hsum := hend hne
    simp only
    omega

theorem zeroSpan_longestZeros {all seen : List Nat}
    (hall : all = seen ++ gs) (hcurrent : ZeroSpan all current)
    (hend : current.len ≠ 0 → current.start + current.len = seen.length)
    (hlongest : ZeroSpan all longest) :
    ZeroSpan all (longestZeros gs seen.length current longest) := by
  induction gs generalizing seen current longest with
  | nil => exact hlongest
  | cons g gs ih =>
    have hnext : all = (seen ++ [g]) ++ gs := by simp [hall]
    have hlength : seen.length + 1 = (seen ++ [g]).length := by simp
    unfold longestZeros
    split
    · rename_i hzero
      have hhere : all[seen.length]? = some 0 := by simp [hall, hzero]
      have hgrown := zeroSpan_grow hcurrent hend hhere
      rw [hlength]
      refine ih hnext hgrown ?_ ?_
      · intro _
        rw [← hlength, end_grow hend]
      · split
        · exact hgrown
        · exact hlongest
    · rw [hlength]
      refine ih hnext ?_ (by simp) hlongest
      intro k hstart hlt
      simp at hlt

/-- Cutting a run of zeros out and putting zeros back. -/
theorem cut_zeroSpan {span : Span} (h : ZeroSpan gs span)
    (hend : span.start + span.len ≤ gs.length) :
    gs.take span.start ++ List.replicate span.len 0 ++ gs.drop (span.start + span.len) = gs := by
  have hzeros : (gs.drop span.start).take span.len = List.replicate span.len 0 := by
    refine eq_replicate_iff.mpr ⟨?_, ?_⟩
    · rw [length_take, length_drop]
      omega
    · intro g hg
      obtain ⟨k, hk⟩ := mem_iff_getElem?.mp hg
      rw [getElem?_take] at hk
      split at hk
      · rename_i hlt
        rw [getElem?_drop, h (span.start + k) (by omega) (by omega)] at hk
        exact (Option.some.inj hk).symm
      · cases hk
  rw [← hzeros, ← drop_drop, append_assoc, take_append_drop, take_append_drop]

/-! ### Reading back what is printed -/

theorem length_groupsOf (count n : Nat) : (groupsOf count n).length = count := by
  induction count generalizing n with
  | zero => rfl
  | succ count ih => simp [groupsOf, ih]

theorem lt_of_mem_groupsOf {count : Nat} (h : g ∈ groupsOf count n) : g < 65536 := by
  induction count generalizing n with
  | zero => cases h
  | succ count ih =>
    rcases mem_append.mp h with h | h
    · exact ih h
    · rw [mem_singleton.mp h]
      exact Nat.mod_lt n (by omega)

theorem foldl_groupsOf (count n : Nat) :
    (groupsOf count n).foldl (fun acc g => acc * 65536 + g) 0 = n % 65536 ^ count := by
  induction count generalizing n with
  | zero => simp [groupsOf, Nat.mod_one]
  | succ count ih =>
    rw [groupsOf, foldl_append, ih]
    show n / 65536 % 65536 ^ count * 65536 + n % 65536 = n % 65536 ^ (count + 1)
    rw [Nat.pow_succ', Nat.mod_mul, Nat.mul_comm, Nat.add_comm]

theorem end_longestZeros (hend : current.len ≠ 0 → current.start + current.len = i)
    (hlongest : longest.start + longest.len ≤ i) :
    (longestZeros gs i current longest).start + (longestZeros gs i current longest).len ≤
      i + gs.length := by
  induction gs generalizing i current longest with
  | nil => exact hlongest
  | cons g gs ih =>
    rw [length_cons, show i + (gs.length + 1) = i + 1 + gs.length by omega]
    unfold longestZeros
    split
    · refine ih (fun _ => end_grow hend) ?_
      split
      · exact Nat.le_of_eq (end_grow hend)
      · omega
    · exact ih (by simp) (by omega)

/-- The last two groups as octets. -/
theorem readGroups_mapped (hv : v < 4294967296) :
    readGroups 7 7 (groupChars [0xffff] ++ ':' :: quadChars v) =
      ([0xffff, v / 65536, v % 65536], true, []) := by
  have hafter : AfterGroup (':' :: quadChars v) := .inr ⟨_, rfl⟩
  have hquad : readIpv4 (quadChars v) = some (v, []) := by
    have h := readIpv4_quadChars hv (noDigit_nil 10)
    rwa [append_nil] at h
  have htext : groupChars [0xffff] ++ ':' :: quadChars v =
      Nat.toDigits 16 0xffff ++ ':' :: quadChars v := by
    simp [groupChars, colonGroups]
  rw [htext, readGroups]
  simp only [Nat.sub_self, readSeparator, reduceIte, readIpv4_toDigits hafter, ite_self,
    readGroup (g := 0xffff) (by omega) (hafter.noDigit (by decide))]
  rw [readGroups]
  simp [readSeparator, readChar, hquad]

/-- The groups of an address are the text's groups with zeros where it has two colons. -/
theorem readIpv6_ipv6Chars (n : Nat) : readIpv6 (ipv6Chars n) = some (groupsOf 8 n, []) := by
  have hlength := length_groupsOf 8 n
  have hsmall : ∀ g ∈ groupsOf 8 n, g < 65536 := fun g hg => lt_of_mem_groupsOf hg
  unfold ipv6Chars
  simp only
  split
  · rename_i hmapped
    have hlast : groupsOf 8 n = [0, 0, 0, 0, 0, 0xffff] ++
        [n % 4294967296 / 65536, n % 4294967296 % 65536] := by
      rw [← take_append_drop 6 (groupsOf 8 n), hmapped]
      congr 1
      show [n / 65536 % 65536, n % 65536] = _
      rw [show n / 65536 % 65536 = n % 4294967296 / 65536 by omega,
        show n % 65536 = n % 4294967296 % 65536 by omega]
    have hhead : ∀ rest, readGroups 8 8 (':' :: ':' :: rest) = ([], false, ':' :: ':' :: rest) :=
      fun rest => readGroups_ends (.colons rest)
    have htail := readGroups_mapped (v := n % 4294967296) (by omega)
    rw [hlast, readIpv6, hhead]
    simp only [length_nil, readChar, reduceIte, bind_eq_bind, bind_some]
    rw [if_neg (by omega), if_neg (by simp), htail]
    rfl
  · set zeroes := longestZeros (groupsOf 8 n) 0 ⟨0, 0⟩ ⟨0, 0⟩ with hzeroes
    have hspan : ZeroSpan (groupsOf 8 n) zeroes :=
      zeroSpan_longestZeros (nil_append _).symm (fun k _ h => by simp at h) (by simp)
        (fun k _ h => by simp at h)
    have hend : zeroes.start + zeroes.len ≤ 8 := by
      have hle : zeroes.start + zeroes.len ≤ 0 + (groupsOf 8 n).length :=
        end_longestZeros (by simp) (by simp)
      rwa [hlength, Nat.zero_add] at hle
    split
    · rename_i hlong
      have hhead : ((groupsOf 8 n).take zeroes.start).length = zeroes.start := by
        rw [length_take]
        omega
      have htail : ((groupsOf 8 n).drop (zeroes.start + zeroes.len)).length =
          8 - (zeroes.start + zeroes.len) := by
        rw [length_drop, hlength]
      have hreadHead : ∀ rest, readGroups 8 8
          (groupChars ((groupsOf 8 n).take zeroes.start) ++ ':' :: ':' :: rest) =
            ((groupsOf 8 n).take zeroes.start, false, ':' :: ':' :: rest) :=
        fun rest => readGroups_groupChars (.colons rest)
          (fun g hg => hsmall g (mem_of_mem_take hg)) (by omega)
      have hreadTail : readGroups (8 - (zeroes.start + 1)) (8 - (zeroes.start + 1))
          (groupChars ((groupsOf 8 n).drop (zeroes.start + zeroes.len)) ++ []) =
            ((groupsOf 8 n).drop (zeroes.start + zeroes.len), false, []) :=
        readGroups_groupChars .nil (fun g hg => hsmall g (mem_of_mem_drop hg)) (by omega)
      rw [append_nil] at hreadTail
      rw [readIpv6, hreadHead]
      simp only [hhead, htail, readChar, reduceIte, bind_eq_bind, bind_some, hreadTail]
      rw [if_neg (by omega), if_neg (by simp),
        show 8 - zeroes.start - (8 - (zeroes.start + zeroes.len)) = zeroes.len by omega,
        cut_zeroSpan hspan (by omega)]
    · have hread : readGroups 8 8 (groupChars (groupsOf 8 n) ++ []) = (groupsOf 8 n, false, []) :=
        readGroups_groupChars .nil hsmall (by omega)
      rw [append_nil] at hread
      rw [readIpv6, hread]
      simp [hlength]

theorem readIpv4_ipv6Chars (n : Nat) : readIpv4 (ipv6Chars n) = none := by
  have hgroups : ∀ gs rest, AfterGroup rest → gs ≠ [] →
      readIpv4 (groupChars gs ++ rest) = none := by
    intro gs rest hrest hne
    cases gs with
    | nil => exact absurd rfl hne
    | cons g gs =>
      rw [groupChars, append_assoc]
      exact readIpv4_toDigits (afterGroup_colonGroups gs hrest)
  unfold ipv6Chars
  simp only
  split
  · exact readIpv4_of_colon _
  · split
    · cases hhead : (groupsOf 8 n).take (longestZeros (groupsOf 8 n) 0 ⟨0, 0⟩ ⟨0, 0⟩).start with
      | nil => exact readIpv4_of_colon _
      | cons g gs => exact hgroups (g :: gs) _ (.inr ⟨_, rfl⟩) (by simp)
    · have h := hgroups (groupsOf 8 n) [] (.inl rfl) (ne_nil_of_length_pos (by
        rw [length_groupsOf]
        omega))
      rwa [append_nil] at h

/-- The parser reads back what `to_string` prints. -/
theorem parseIpAddr_renderIp : parseIpAddr (renderIp ip) = some ip := by
  cases ip with
  | v4 a =>
    have hread := readIpv4_quadChars (v := a.toNat) a.isLt (noDigit_nil 10)
    rw [append_nil] at hread
    simp [parseIpAddr, renderIp, hread]
  | v6 a =>
    simp [parseIpAddr, renderIp, readIpv4_ipv6Chars, readIpv6_ipv6Chars, foldl_groupsOf,
      Nat.mod_eq_of_lt a.isLt]

theorem colon_not_mem_toDigits (hradix : 1 < radix) (hle : radix ≤ 16) (n : Nat) :
    ':' ∉ Nat.toDigits radix n := by
  obtain ⟨ds, hds, hlt, -, -⟩ := exists_digits hradix n
  rw [hds]
  intro h
  obtain ⟨d, hd, hchar⟩ := mem_map.mp h
  have hall : ∀ d < 16, Nat.digitChar d ≠ ':' := by decide
  exact hall d (Nat.lt_of_lt_of_le (hlt d hd) hle) hchar

/-- Colons tell the text of an IPv6 address from that of an IPv4 address. -/
theorem colon_mem_renderIp : ':' ∈ (renderIp ip).toList ↔ ip.isIpv4 = false := by
  cases ip with
  | v4 a =>
    have hdigits := colon_not_mem_toDigits (show 1 < 10 by omega) (by omega)
    simp [renderIp, quadChars, hdigits, IpAddr.isIpv4]
  | v6 a =>
    have hmem : ':' ∈ ipv6Chars a.toNat := by
      unfold ipv6Chars
      simp only
      split
      · simp
      · split
        · simp
        · -- eight groups have colons between them
          have hlength := length_groupsOf 8 a.toNat
          rcases hgroups : groupsOf 8 a.toNat with _ | ⟨g, _ | ⟨g', gs⟩⟩
          · rw [hgroups] at hlength
            cases hlength
          · rw [hgroups] at hlength
            cases hlength
          · simp [groupChars, colonGroups]
    simpa [renderIp, IpAddr.isIpv4] using hmem

/-! ### Prefixes -/

/-- An address and a prefix length. -/
def renderNet (net : IpNet) : String :=
  renderIp net.addr ++ String.ofList ('/' :: Nat.toDigits 10 net.len)

/-- The prefix of an address, with a length that its family has. -/
def netOf (ip : IpAddr) (len : Nat) : Option IpNet :=
  match ip with
  | .v4 a => if h : len < 33 then some (.v4 a ⟨len, h⟩) else none
  | .v6 a => if h : len < 129 then some (.v6 a ⟨len, h⟩) else none

def parseNet (s : String) : Option IpNet :=
  match parseIpAddr (String.ofList (s.toList.takeWhile (· != '/'))),
      s.toList.dropWhile (· != '/') with
  | some ip, '/' :: digits =>
    match readNumber 10 3 129 false digits with
    | some (len, []) => netOf ip len
    | _ => none
  | _, _ => none

/-! ### What an address is written with -/

/-- A character that no address is written with. -/
structure Foreign (c : Char) : Prop where
  ten : digitValue 10 c = none
  sixteen : digitValue 16 c = none
  ne_dot : c ≠ '.'
  ne_colon : c ≠ ':'

section
variable {c : Char} {cs rest : List Char}

theorem takeDigits_foreign {radix : Nat} (hc : digitValue radix c = none) {limit : Nat}
    (h : c ∈ cs) : c ∈ (takeDigits radix limit cs).2 := by
  induction limit generalizing cs with
  | zero => exact h
  | succ limit ih =>
    cases cs with
    | nil => cases h
    | cons d cs =>
      rw [takeDigits]
      cases hd : digitValue radix d with
      | none => exact h
      | some v =>
        have hne : c ≠ d := by
          rintro rfl
          rw [hc] at hd
          cases hd
        exact ih ((mem_cons.mp h).resolve_left hne)

theorem readNumber_foreign {radix limit bound n : Nat} {zeroPrefix : Bool}
    (hc : digitValue radix c = none) (hread : readNumber radix limit bound zeroPrefix cs = some (n, rest))
    (h : c ∈ cs) : c ∈ rest := by
  rw [snd_readNumber hread]
  exact takeDigits_foreign hc h

theorem readChar_foreign {sep : Char} (hne : c ≠ sep) (hread : readChar sep cs = some rest)
    (h : c ∈ cs) : c ∈ rest := by
  cases cs with
  | nil => cases hread
  | cons d cs =>
    simp only [readChar, ite_none_right_eq_some, Option.some.injEq] at hread
    obtain ⟨rfl, rfl⟩ := hread
    exact (mem_cons.mp h).resolve_left hne

theorem readSeparator_foreign {α : Type} {sep : Char} {index : Nat}
    {item : List Char → Option (α × List Char)} {a : α} (hne : c ≠ sep)
    (hitem : ∀ cs, c ∈ cs → ∀ a rest, item cs = some (a, rest) → c ∈ rest)
    (hread : readSeparator sep index item cs = some (a, rest)) (h : c ∈ cs) : c ∈ rest := by
  unfold readSeparator at hread
  split at hread
  · exact hitem cs h a rest hread
  · obtain ⟨more, hsep, hread⟩ := bind_eq_some_iff.mp hread
    exact hitem more (readChar_foreign hne hsep h) a rest hread

variable (hc : Foreign c)
include hc

theorem readIpv4_foreign {v : Nat} (hread : readIpv4 cs = some (v, rest)) (h : c ∈ cs) :
    c ∈ rest := by
  have hoctet : ∀ cs, c ∈ cs → ∀ a rest, readNumber 10 3 256 false cs = some (a, rest) → c ∈ rest :=
    fun cs h a rest hread => readNumber_foreign hc.ten hread h
  unfold readIpv4 at hread
  obtain ⟨⟨a, r₁⟩, h₁, hread⟩ := bind_eq_some_iff.mp hread
  obtain ⟨⟨b, r₂⟩, h₂, hread⟩ := bind_eq_some_iff.mp hread
  obtain ⟨⟨d, r₃⟩, h₃, hread⟩ := bind_eq_some_iff.mp hread
  obtain ⟨⟨e, r₄⟩, h₄, hread⟩ := bind_eq_some_iff.mp hread
  cases hread
  have m₁ := readSeparator_foreign hc.ne_dot hoctet h₁ h
  have m₂ := readSeparator_foreign hc.ne_dot hoctet h₂ m₁
  have m₃ := readSeparator_foreign hc.ne_dot hoctet h₃ m₂
  exact readSeparator_foreign hc.ne_dot hoctet h₄ m₃

theorem readGroups_foreign (total left : Nat) (h : c ∈ cs) :
    c ∈ (readGroups total left cs).2.2 := by
  induction left generalizing cs with
  | zero => exact h
  | succ left ih =>
    unfold readGroups
    simp only
    split
    · rename_i v rest hembedded
      split at hembedded
      · exact readSeparator_foreign hc.ne_colon
          (fun cs h a rest hread => readIpv4_foreign hc hread h) hembedded h
      · cases hembedded
    · split
      · exact h
      · rename_i g rest hgroup
        exact ih (readSeparator_foreign hc.ne_colon
          (fun cs h a rest hread => readNumber_foreign hc.sixteen hread h) hgroup h)

theorem readIpv6_foreign {gs : List Nat} (hread : readIpv6 cs = some (gs, rest)) (h : c ∈ cs) :
    c ∈ rest := by
  have hhead := readGroups_foreign hc 8 8 h
  unfold readIpv6 at hread
  split at hread
  rename_i head v4 left hgroups
  rw [hgroups] at hhead
  split at hread
  · cases hread
    exact hhead
  · split at hread
    · cases hread
    · obtain ⟨r₁, h₁, hread⟩ := bind_eq_some_iff.mp hread
      obtain ⟨r₂, h₂, hread⟩ := bind_eq_some_iff.mp hread
      have m₁ := readChar_foreign hc.ne_colon h₁ hhead
      have m₂ := readChar_foreign hc.ne_colon h₂ m₁
      have htail := readGroups_foreign hc (8 - (head.length + 1)) (8 - (head.length + 1)) m₂
      cases hread
      exact htail

/-- A text with such a character is no address. -/
theorem parseIpAddr_foreign {s : String} (h : c ∈ s.toList) : parseIpAddr s = none := by
  have hsix : ∀ gs, readIpv6 s.toList ≠ some (gs, []) := by
    intro gs hread
    exact absurd (readIpv6_foreign hc hread h) (by simp)
  have hfour : ∀ v, readIpv4 s.toList ≠ some (v, []) := by
    intro v hread
    exact absurd (readIpv4_foreign hc hread h) (by simp)
  -- neither reader comes to the end of the text
  simp only [parseIpAddr]

theorem not_mem_renderIp (ip : IpAddr) : c ∉ (renderIp ip).toList := by
  intro h
  have hnone := parseIpAddr_foreign hc h
  rw [parseIpAddr_renderIp] at hnone
  cases hnone

theorem not_mem_toDigits (n : Nat) : c ∉ Nat.toDigits 10 n := by
  obtain ⟨ds, hds, hlt, -, -⟩ := exists_digits (show 1 < 10 by omega) n
  rw [hds]
  intro h
  obtain ⟨d, hd, rfl⟩ := mem_map.mp h
  have hten := hc.ten
  rw [digitValue_digitChar 10 (by decide) d (hlt d hd)] at hten
  cases hten

end

theorem foreign_slash : Foreign '/' := ⟨by decide, by decide, by decide, by decide⟩

theorem foreign_g : Foreign 'g' := ⟨by decide, by decide, by decide, by decide⟩

theorem takeWhile_renderNet :
    (renderNet net).toList.takeWhile (· != '/') = (renderIp net.addr).toList ∧
      (renderNet net).toList.dropWhile (· != '/') = '/' :: Nat.toDigits 10 net.len := by
  have hall : ∀ c ∈ (renderIp net.addr).toList, (c != '/') = true := by
    intro c hc
    have hne : c ≠ '/' := by
      rintro rfl
      exact not_mem_renderIp foreign_slash net.addr hc
    simpa using hne
  rw [renderNet, String.toList_append, String.toList_ofList]
  exact ⟨by rw [takeWhile_append_of_pos hall]; simp, by
    rw [dropWhile_append_of_pos hall]
    simp⟩

theorem netOf_addr : netOf net.addr net.len = some net := by
  cases net with
  | v4 a l => simp [netOf, IpNet.addr, IpNet.len, l.isLt]
  | v6 a l => simp [netOf, IpNet.addr, IpNet.len, l.isLt]

/-- The parser reads back the prefix it prints. -/
theorem parseNet_renderNet : parseNet (renderNet net) = some net := by
  have hlen : net.len < 129 := by
    cases net with
    | v4 a l => exact Nat.lt_trans l.isLt (by omega)
    | v6 a l => exact l.isLt
  have hread : readNumber 10 3 129 false (Nat.toDigits 10 net.len) = some (net.len, []) := by
    have hlength : (Nat.toDigits 10 net.len).length ≤ 3 :=
      (Nat.length_toDigits_le_iff (by omega) (by omega)).mpr (by omega)
    rw [← append_nil (Nat.toDigits 10 net.len)]
    exact readNumber_toDigits (digitValue_digitChar 10 (by decide)) (by omega) hlen hlength (noDigit_nil 10)
  obtain ⟨htake, hdrop⟩ := takeWhile_renderNet net
  simp only [parseNet, htake, hdrop, String.ofList_toList, parseIpAddr_renderIp, hread, netOf_addr]

/-- A prefix is not an address. -/
theorem parseIpAddr_renderNet : parseIpAddr (renderNet net) = none := by
  refine parseIpAddr_foreign foreign_slash ?_
  simp [renderNet]

theorem not_mem_renderNet (hc : Foreign c) (hslash : c ≠ '/') (net : IpNet) :
    c ∉ (renderNet net).toList := by
  simp [renderNet, not_mem_renderIp hc, not_mem_toDigits hc, hslash]

end NetOrchestrator.Net
