import NetOrchestrator.Net.Ip

/-!
# `Net.Cover`: prefixes that cover a family

A list of prefixes covers a family where every address of the family is in one of them. Two
questions come up wherever a tunnel is about to carry everything: whether an aggregated list shows
the cover as a default route (`MinimalCover.whole_mem_iff`), and whether the default route and its
two halves show it alone (`covers_shortest_iff`).
-/

namespace NetOrchestrator.Net

open Bool (and_eq_true false_eq_true)

/-! ### The default route and its halves -/

namespace IpFamily

/-- `0.0.0.0/0` and `::/0`. -/
def whole : IpFamily → IpNet
  | .ipv4 => .v4 0 0
  | .ipv6 => .v6 0 0

/-- `0.0.0.0/1` and `::/1`. -/
def lowerHalf : IpFamily → IpNet
  | .ipv4 => .v4 0 1
  | .ipv6 => .v6 0 1

/-- `128.0.0.0/1` and `8000::/1`. -/
def upperHalf : IpFamily → IpNet
  | .ipv4 => .v4 0x80000000 1
  | .ipv6 => .v6 0x80000000000000000000000000000000 1

/-- The first address. -/
def zero : IpFamily → IpAddr
  | .ipv4 => .v4 0
  | .ipv6 => .v6 0

/-- The last address. -/
def ones : IpFamily → IpAddr
  | .ipv4 => .v4 (BitVec.allOnes 32)
  | .ipv6 => .v6 (BitVec.allOnes 128)

variable (family : IpFamily)

@[simp]
theorem family_zero : family.zero.family = family := by
  cases family <;> rfl

@[simp]
theorem family_ones : family.ones.family = family := by
  cases family <;> rfl

@[simp]
theorem family_whole : family.whole.family = family := by
  cases family <;> rfl

end IpFamily

/-! ### Masks -/

namespace IpNet

section
variable {w len : Nat}

theorem mask_zero (w : Nat) : mask w 0 = 0#w := by
  simp [mask]

/-- A mask has its first bits set. -/
theorem getLsbD_mask (len i : Nat) : (mask w len).getLsbD i = decide (i < w ∧ w - len ≤ i) := by
  rw [mask, BitVec.getLsbD_shiftLeft, BitVec.getLsbD_allOnes, Bool.eq_iff_iff]
  simp only [and_eq_true, Bool.not_eq_true', decide_eq_true_eq, decide_eq_false_iff_not]
  omega

/-- The first bit of an address is fixed by every prefix but the default route. -/
theorem eq_zero_of_mask (hw : 0 < w) (hlen : len ≤ w) (h : mask w len = 0#w) : len = 0 := by
  by_contra hne
  have hbit : (mask w len).getLsbD (w - 1) = true := by
    rw [getLsbD_mask, decide_eq_true_eq]
    omega
  rw [h] at hbit
  simp at hbit

/-- What a longer prefix fixes, a shorter one fixes, too. -/
theorem and_mask_of_le {len' : Nat} {x y : BitVec w} (hle : len ≤ len')
    (h : x &&& mask w len' = y &&& mask w len') : x &&& mask w len = y &&& mask w len := by
  have hmask : mask w len' &&& mask w len = mask w len := by
    apply BitVec.eq_of_getLsbD_eq
    intro i hi
    rw [BitVec.getLsbD_and, getLsbD_mask, getLsbD_mask, Bool.eq_iff_iff]
    simp only [and_eq_true, decide_eq_true_eq]
    omega
  rw [← hmask, ← BitVec.and_assoc, h, BitVec.and_assoc]

/-- Both ends of a family agree with an address only where nothing is fixed. -/
theorem eq_zero_of_ends {addr : BitVec w} (hw : 0 < w) (hlen : len ≤ w)
    (hzero : 0 &&& mask w len = addr &&& mask w len)
    (hones : BitVec.allOnes w &&& mask w len = addr &&& mask w len) :
    len = 0 ∧ addr &&& mask w len = 0#w := by
  have haddr : addr &&& mask w len = 0#w := hzero.symm.trans BitVec.zero_and
  rw [haddr, BitVec.allOnes_and] at hones
  exact ⟨eq_zero_of_mask hw hlen hones, haddr⟩

/-- A prefix of length one fixes the first bit alone. -/
theorem and_mask_one (hw : 0 < w) (bits : BitVec w) :
    bits &&& mask w 1 = if bits.msb then mask w 1 else 0#w := by
  have hmask : ∀ i, i < w → (mask w 1).getLsbD i = decide (i = w - 1) := by
    intro i hi
    rw [getLsbD_mask, Bool.eq_iff_iff, decide_eq_true_eq, decide_eq_true_eq]
    omega
  have hmsb : bits.msb = bits.getLsbD (w - 1) := BitVec.msb_eq_getLsbD_last bits
  apply BitVec.eq_of_getLsbD_eq
  intro i hi
  rw [BitVec.getLsbD_and, hmask i hi]
  by_cases hlast : i = w - 1
  · rw [hlast, ← hmsb]
    cases hbit : bits.msb with
    | false => simp
    | true => simp [hmask (w - 1) (by omega)]
  · cases hbit : bits.msb with
    | false => simp [hlast]
    | true => simp [hlast, hmask i hi]

end

/-! ### What a prefix contains -/

section
variable {net : IpNet} {ip : IpAddr}

theorem family_of_containsAddr (h : net.containsAddr ip = true) : ip.family = net.family := by
  cases net <;> cases ip <;> first | rfl | cases h

/-- A prefix contains the address it is written with. -/
theorem containsAddr_addr (net : IpNet) : net.containsAddr net.addr = true := by
  cases net with
  | v4 addr len =>
    show (decide (len.val ≤ 32) && addr &&& mask 32 len == addr &&& mask 32 len) = true
    rw [and_eq_true, decide_eq_true_eq]
    exact ⟨by omega, beq_self_eq_true _⟩
  | v6 addr len =>
    show (decide (len.val ≤ 128) && addr &&& mask 128 len == addr &&& mask 128 len) = true
    rw [and_eq_true, decide_eq_true_eq]
    exact ⟨by omega, beq_self_eq_true _⟩

/-- Host bits play no part in what a prefix contains. -/
@[simp]
theorem containsAddr_trunc (net : IpNet) (ip : IpAddr) :
    net.trunc.containsAddr ip = net.containsAddr ip := by
  cases net with
  | v4 addr len => cases ip <;> simp [trunc, containsAddr, containsNet, IpAddr.toNet, BitVec.and_assoc]
  | v6 addr len => cases ip <;> simp [trunc, containsAddr, containsNet, IpAddr.toNet, BitVec.and_assoc]

/-- The first address of a prefix. -/
theorem containsAddr_network (net : IpNet) : net.containsAddr net.trunc.addr = true := by
  have hself := containsAddr_addr net.trunc
  rw [containsAddr_trunc] at hself
  exact hself

theorem containsNet_self (net : IpNet) : net.containsNet net = true := by
  cases net <;> simp [containsNet]

theorem containsAddr_of_containsNet {inner : IpNet} (h : net.containsNet inner = true)
    (hinner : inner.containsAddr ip = true) : net.containsAddr ip = true := by
  cases net <;> cases inner <;> cases ip <;>
    simp only [containsNet, containsAddr, IpAddr.toNet, and_eq_true, decide_eq_true_eq,
      beq_iff_eq, false_eq_true] at h hinner ⊢
  case v4.v4.v4 => exact ⟨by omega, (and_mask_of_le h.1 hinner.2).trans h.2⟩
  case v6.v6.v6 => exact ⟨by omega, (and_mask_of_le h.1 hinner.2).trans h.2⟩

/-- Of two prefixes with a common address one contains the other. -/
theorem nested_of_containsAddr {other : IpNet} (h : net.containsAddr ip = true)
    (hother : other.containsAddr ip = true) :
    net.containsNet other = true ∨ other.containsNet net = true := by
  cases net <;> cases other <;> cases ip <;>
    simp only [containsNet, containsAddr, IpAddr.toNet, and_eq_true, decide_eq_true_eq,
      beq_iff_eq, false_eq_true] at h hother ⊢
  case v4.v4.v4 len _ len' _ =>
    rcases Nat.le_total len len' with hle | hle
    · exact .inl ⟨hle, (and_mask_of_le hle hother.2).symm.trans h.2⟩
    · exact .inr ⟨hle, (and_mask_of_le hle h.2).symm.trans hother.2⟩
  case v6.v6.v6 len _ len' _ =>
    rcases Nat.le_total len len' with hle | hle
    · exact .inl ⟨hle, (and_mask_of_le hle hother.2).symm.trans h.2⟩
    · exact .inr ⟨hle, (and_mask_of_le hle h.2).symm.trans hother.2⟩

/-- Of prefixes without host bits, at most one of each length contains an address. -/
theorem eq_of_containsAddr {other : IpNet} (htrunc : net.trunc = net)
    (htrunc' : other.trunc = other) (hlen : net.len = other.len) (h : net.containsAddr ip = true)
    (hother : other.containsAddr ip = true) : net = other := by
  rw [← htrunc, ← htrunc']
  cases net <;> cases other <;> cases ip <;>
    simp only [containsNet, containsAddr, IpAddr.toNet, and_eq_true, decide_eq_true_eq,
      beq_iff_eq, false_eq_true] at h hother ⊢
  case v4.v4.v4 addr len addr' len' bits =>
    obtain rfl : len = len' := Fin.ext hlen
    simp only [trunc, IpNet.v4.injEq, and_true]
    exact h.2.symm.trans hother.2
  case v6.v6.v6 addr len addr' len' bits =>
    obtain rfl : len = len' := Fin.ext hlen
    simp only [trunc, IpNet.v6.injEq, and_true]
    exact h.2.symm.trans hother.2

/-- A host prefix contains its address alone. -/
theorem eq_of_containsAddr_toNet {host : IpAddr} (h : host.toNet.containsAddr ip = true) :
    host = ip := by
  have hself : ip.toNet.containsAddr ip = true := containsNet_self ip.toNet
  have hlen : host.toNet.len = ip.toNet.len := by
    cases host <;> cases ip <;> first | rfl | cases h
  exact IpAddr.toNet_injective (eq_of_containsAddr host.trunc_toNet ip.trunc_toNet hlen h hself)

/-- The default route contains its family. -/
theorem containsAddr_whole (ip : IpAddr) : ip.family.whole.containsAddr ip = true := by
  cases ip with
  | v4 bits => simp [IpAddr.family, IpFamily.whole, containsAddr, IpAddr.toNet, containsNet, mask_zero]
  | v6 bits => simp [IpAddr.family, IpFamily.whole, containsAddr, IpAddr.toNet, containsNet, mask_zero]

/-- A prefix with its host bits cleared that contains both ends of its family is the default
route. -/
theorem eq_whole (htrunc : net.trunc = net) (hzero : net.containsAddr net.family.zero = true)
    (hones : net.containsAddr net.family.ones = true) : net = net.family.whole := by
  cases net with
  | v4 addr len =>
    simp only [family, IpFamily.zero, IpFamily.ones, containsAddr, IpAddr.toNet, containsNet,
      and_eq_true, beq_iff_eq] at hzero hones
    obtain ⟨hlen, haddr⟩ := eq_zero_of_ends (by decide) (by omega) hzero.2 hones.2
    simp only [trunc, v4.injEq, and_true] at htrunc
    rw [← htrunc, haddr, Fin.ext (b := 0) hlen]
    rfl
  | v6 addr len =>
    simp only [family, IpFamily.zero, IpFamily.ones, containsAddr, IpAddr.toNet, containsNet,
      and_eq_true, beq_iff_eq] at hzero hones
    obtain ⟨hlen, haddr⟩ := eq_zero_of_ends (by decide) (by omega) hzero.2 hones.2
    simp only [trunc, v6.injEq, and_true] at htrunc
    rw [← htrunc, haddr, Fin.ext (b := 0) hlen]
    rfl

/-- A short prefix is the default route of an address that it contains, or the half of its family
that contains the address as well. -/
theorem whole_or_half {half : IpNet} (htrunc : net.trunc = net) (hlen : net.len ≤ 1)
    (hhalf : half.trunc = half ∧ half.len = 1) (h : net.containsAddr ip = true)
    (hin : half.containsAddr ip = true) : net = ip.family.whole ∨ net = half := by
  have hwhole : ip.family.whole.trunc = ip.family.whole ∧ ip.family.whole.len = 0 := by
    cases ip.family <;> decide
  rcases Nat.le_one_iff_eq_zero_or_eq_one.mp hlen with hzero | hone
  · exact .inl (eq_of_containsAddr htrunc hwhole.1 (hzero.trans hwhole.2.symm) h
      (containsAddr_whole ip))
  · exact .inr (eq_of_containsAddr htrunc hhalf.1 (hone.trans hhalf.2.symm) h hin)

/-- Each address is in one of the halves. -/
theorem containsAddr_halves (ip : IpAddr) :
    ip.family.lowerHalf.containsAddr ip = true ∨ ip.family.upperHalf.containsAddr ip = true := by
  rcases ip with bits | bits
  all_goals
    have hone := and_mask_one (by decide) bits
    cases hmsb : bits.msb with
    | false =>
      rw [hmsb, if_neg (by decide)] at hone
      exact .inl (by
        simp only [IpAddr.family, IpFamily.lowerHalf, containsAddr, IpAddr.toNet, containsNet,
          Fin.val_one, hone]
        decide)
    | true =>
      rw [hmsb, if_pos rfl] at hone
      exact .inr (by
        simp only [IpAddr.family, IpFamily.upperHalf, containsAddr, IpAddr.toNet, containsNet,
          Fin.val_one, hone]
        decide)

end

end IpNet

/-! ### Covers -/

/-- The address is in one of the prefixes. -/
def Covered (nets : List IpNet) (ip : IpAddr) : Prop := ∃ net ∈ nets, net.containsAddr ip = true

/-- Every address of the family is in one of the prefixes. -/
def CoversFamily (family : IpFamily) (nets : List IpNet) : Prop :=
  ∀ ip : IpAddr, ip.family = family → Covered nets ip

/-- A shortest list of prefixes with the same addresses, host bits cleared: what an aggregation
returns. -/
structure MinimalCover (nets out : List IpNet) : Prop where
  same : ∀ ip, Covered out ip ↔ Covered nets ip
  least : ∀ other : List IpNet, (∀ ip, Covered other ip ↔ Covered nets ip) →
    out.length ≤ other.length
  truncated : ∀ net ∈ out, net.trunc = net

section
variable {family : IpFamily} {nets out : List IpNet}

theorem CoversFamily.of_whole_mem (h : family.whole ∈ nets) : CoversFamily family nets := by
  intro ip hip
  subst hip
  exact ⟨ip.family.whole, h, IpNet.containsAddr_whole ip⟩

/-- An aggregated list has one prefix at most for a covered family. -/
theorem MinimalCover.length_le_one (h : MinimalCover nets out) (hcovers : CoversFamily family nets) :
    (out.filter fun net => net.family = family).length ≤ 1 := by
  have hother : ∀ ip, Covered (family.whole :: out.filter fun net => ¬net.family = family) ip ↔
      Covered nets ip := by
    intro ip
    by_cases hip : ip.family = family
    · exact ⟨fun _ => hcovers ip hip, fun _ => CoversFamily.of_whole_mem (by simp) ip hip⟩
    · rw [← h.same]
      constructor
      · rintro ⟨net, hnet, hcontains⟩
        rcases List.mem_cons.mp hnet with rfl | hnet
        · have hsame := IpNet.family_of_containsAddr hcontains
          rw [IpFamily.family_whole] at hsame
          exact absurd hsame hip
        · exact ⟨net, List.mem_of_mem_filter hnet, hcontains⟩
      · rintro ⟨net, hnet, hcontains⟩
        have hfamily := IpNet.family_of_containsAddr hcontains
        refine ⟨net, List.mem_cons_of_mem _ (List.mem_filter.mpr ⟨hnet, ?_⟩), hcontains⟩
        rw [← hfamily]
        simpa using hip
  have hle := h.least _ hother
  have hsplit := List.length_eq_length_filter_add (l := out) fun net => net.family = family
  simp only [List.length_cons, decide_not] at hle hsplit ⊢
  omega

/-- An aggregated list shows a covered family as its default route. -/
theorem MinimalCover.whole_mem_iff (h : MinimalCover nets out) :
    family.whole ∈ out ↔ CoversFamily family nets := by
  constructor
  · intro hmem ip hip
    exact (h.same ip).mp (CoversFamily.of_whole_mem hmem ip hip)
  · intro hcovers
    have hlen := h.length_le_one hcovers
    obtain ⟨first, hfirst, hzero⟩ := (h.same _).mpr (hcovers _ family.family_zero)
    obtain ⟨last, hlast, hones⟩ := (h.same _).mpr (hcovers _ family.family_ones)
    have hfamily := IpNet.family_of_containsAddr hzero
    have hfamily' := IpNet.family_of_containsAddr hones
    rw [IpFamily.family_zero] at hfamily
    rw [IpFamily.family_ones] at hfamily'
    -- Both ends are in the only prefix of the family.
    have hsame : first = last := by
      have hmem : first ∈ out.filter fun net => net.family = family :=
        List.mem_filter.mpr ⟨hfirst, by simpa using hfamily.symm⟩
      have hmem' : last ∈ out.filter fun net => net.family = family :=
        List.mem_filter.mpr ⟨hlast, by simpa using hfamily'.symm⟩
      cases honly : out.filter fun net => net.family = family with
      | nil =>
        rw [honly] at hmem
        cases hmem
      | cons only rest =>
        have hrest : rest = [] := by
          rw [honly] at hlen
          simpa using hlen
        rw [honly, hrest, List.mem_singleton] at hmem hmem'
        exact hmem.trans hmem'.symm
    subst hsame
    subst hfamily
    rw [← IpNet.eq_whole (h.truncated first hfirst) hzero hones]
    exact hfirst

/-- The prefixes that can be a default route or a half of one, host bits cleared. -/
def shortest (nets : List IpNet) : List IpNet := nets.filter fun net => net.trunc = net ∧ net.len ≤ 1

/-- The short prefixes cover a family exactly where they hold the default route or both halves. -/
theorem covers_shortest_iff : CoversFamily family (shortest nets) ↔
      family.whole ∈ nets ∨ family.lowerHalf ∈ nets ∧ family.upperHalf ∈ nets := by
  constructor
  · intro hcovers
    obtain ⟨first, hfirst, hzero⟩ := hcovers _ family.family_zero
    obtain ⟨last, hlast, hones⟩ := hcovers _ family.family_ones
    obtain ⟨hfirst, hshort⟩ := List.mem_filter.mp hfirst
    obtain ⟨hlast, hshort'⟩ := List.mem_filter.mp hlast
    simp only [decide_eq_true_eq] at hshort hshort'
    have hhalves : ((family.lowerHalf.trunc = family.lowerHalf ∧ family.lowerHalf.len = 1) ∧
        family.lowerHalf.containsAddr family.zero = true) ∧
        (family.upperHalf.trunc = family.upperHalf ∧ family.upperHalf.len = 1) ∧
          family.upperHalf.containsAddr family.ones = true := by
      cases family <;> decide
    have hlower := IpNet.whole_or_half hshort.1 hshort.2 hhalves.1.1 hzero hhalves.1.2
    have hupper := IpNet.whole_or_half hshort'.1 hshort'.2 hhalves.2.1 hones hhalves.2.2
    rw [IpFamily.family_zero] at hlower
    rw [IpFamily.family_ones] at hupper
    rcases hlower with rfl | rfl
    · exact .inl hfirst
    · rcases hupper with rfl | rfl
      · exact .inl hlast
      · exact .inr ⟨hfirst, hlast⟩
  · rintro (hwhole | ⟨hlower, hupper⟩)
    · have hshort : family.whole.trunc = family.whole ∧ family.whole.len ≤ 1 := by
        cases family <;> decide
      exact CoversFamily.of_whole_mem (List.mem_filter.mpr ⟨hwhole, by simpa using hshort⟩)
    · intro ip hip
      have hshort : (family.lowerHalf.trunc = family.lowerHalf ∧ family.lowerHalf.len ≤ 1) ∧
          family.upperHalf.trunc = family.upperHalf ∧ family.upperHalf.len ≤ 1 := by
        cases family <;> decide
      have hhalves := IpNet.containsAddr_halves ip
      rw [hip] at hhalves
      rcases hhalves with hcontains | hcontains
      · exact ⟨_, List.mem_filter.mpr ⟨hlower, by simpa using hshort.1⟩, hcontains⟩
      · exact ⟨_, List.mem_filter.mpr ⟨hupper, by simpa using hshort.2⟩, hcontains⟩

end

end NetOrchestrator.Net
