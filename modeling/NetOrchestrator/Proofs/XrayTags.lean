import NetOrchestrator.Core.XrayRouting
import NetOrchestrator.Daemon.Text

/-!
# `Proofs.XrayTags`: the tags that a profile's rules name

Every rule that `apply_profile_routing` puts in front names an outbound by its tag. A
destination reuses the tag of an outbound of the base config where no other outbound has it,
and tags are counted once, trimmed, before any outbound is renamed.

The tags in use are the invariant (`Settled`): they cover the tags of all outbounds, so that a
new tag is free, and no tag of the base config gains an outbound. One step is the resolution
of one destination (`Resolved`). It names its outbound (`Resolved.named`) and leaves the names
of the other destinations alone (`Resolved.keeps`), since no outbound serves two of them.

A reused tag is returned trimmed, but the outbound keeps it as it was. Where it has blanks
around it, no outbound has the tag that is returned (`Outcome.lost`). `routedOutbounds_ok` is
what all the tags of a call name.
-/

namespace NetOrchestrator.Core

open Net Lib List Option Checks Nat
open Daemon (trim trim_trim trim_eq_self NoEdgeBlank)

/-! ### New tags -/

/-- A text that new tags can start with. -/
def TagBase (base : String) : Prop := base ≠ "" ∧ NoEdgeBlank base.toList

instance (base : String) : Decidable (TagBase base) := inferInstanceAs (Decidable (_ ∧ _))

theorem toList_tagCandidate_succ (base : String) (i : Nat) :
    (tagCandidate base (i + 1)).toList = base.toList ++ '-' :: Nat.toDigits 10 (i + 2) :=
  toList_numbered_succ base i

theorem repr_injective {m n : Nat} (h : m.repr = n.repr) : m = n := by
  have hdigits := congrArg String.toList h
  simp only [Nat.repr, String.toList_ofList] at hdigits
  exact toDigits_injective (by omega) (by omega) hdigits

theorem tagCandidate_injective (base : String) : Function.Injective (tagCandidate base) :=
  numbered_injective base

theorem isWhitespace_of_isDigit {c : Char} (h : c.isDigit = true) :
    Daemon.isWhitespace c = false := by
  have hrange : 48 ≤ c.toNat ∧ c.toNat ≤ 57 := by
    simpa [Char.isDigit, UInt32.le_iff_toNat_le] using h
  simp only [Daemon.isWhitespace, Bool.or_eq_false_iff, Bool.and_eq_false_iff,
    decide_eq_false_iff_not, beq_eq_false_iff_ne]
  omega

variable {base : String} {o o' : Json} {t : String} {counts : List String} {st st' : OutboundState}
  {r : String} (a : Json) {outbounds outbounds' : List Json} {options : ProfileRoutingOptions}
  {xs ys : List Json} (identity : InterfaceIdentity)

/-- A candidate has no blank at its ends, so that it is counted as it is. -/
theorem noEdgeBlank_tagCandidate (h : TagBase base) (i : Nat) :
    NoEdgeBlank (tagCandidate base i).toList := by
  cases i with
  | zero => exact h.2
  | succ i =>
    rw [toList_tagCandidate_succ]
    constructor
    · intro c hc
      have hne : base.toList ≠ [] := by
        intro hnil
        exact h.1 (String.toList_inj.mp hnil)
      rw [head?_append_of_ne_nil _ hne] at hc
      exact h.2.1 c hc
    · intro c hc
      have hmem : c ∈ Nat.toDigits 10 (i + 2) := by
        have hlast : (base.toList ++ '-' :: Nat.toDigits 10 (i + 2)).getLast? =
            (Nat.toDigits 10 (i + 2)).getLast? := by
          rw [getLast?_append, getLast?_cons]
          cases hdigits : (Nat.toDigits 10 (i + 2)).getLast? with
          | none => exact absurd (getLast?_eq_none_iff.mp hdigits) toDigits_ne_nil
          | some d => simp
        rw [hlast] at hc
        exact mem_of_getLast? hc
      exact isWhitespace_of_isDigit (isDigit_of_mem_toDigits (by omega) (by omega) hmem)

theorem tagCandidate_ne_empty (h : TagBase base) (i : Nat) : tagCandidate base i ≠ "" := by
  intro hempty
  cases i with
  | zero => exact h.1 hempty
  | succ i =>
    have hlist := toList_tagCandidate_succ base i
    rw [hempty] at hlist
    simp at hlist

/-! ### Tags and protocols of outbounds -/

/-- The interface that an outbound is bound to. -/
def boundInterface (outbound : Json) : Option String :=
  ((outbound.index "streamSettings").index "sockopt").text? "interface"

theorem rawTag_put {tag : String} (h : o.put "tag" (.str tag) = some o') :
    rawTag o' = some tag := by
  rw [rawTag, Json.text?, Json.index_put h, if_pos rfl, Json.asStr_str]

section
variable {o o' v : Json} {key : String} (h : o.put key v = some o')
include h

theorem protocolOf_put (hkey : "protocol" ≠ key) : protocolOf o' = protocolOf o := by
  rw [protocolOf, Json.text?, Json.index_put_of_ne h hkey]
  rfl

theorem rawTag_put_of_ne (hkey : "tag" ≠ key) : rawTag o' = rawTag o := by
  rw [rawTag, Json.text?, Json.index_put_of_ne h hkey]
  rfl

theorem boundInterface_put (hkey : "streamSettings" ≠ key) :
    boundInterface o' = boundInterface o := by
  rw [boundInterface, Json.index_put_of_ne h hkey]
  rfl

end

theorem countedTag_eq_some {o : Json} :
    countedTag o = some t ↔ ∃ tag, rawTag o = some tag ∧ t = trim tag ∧ t ≠ "" := by
  unfold countedTag
  cases rawTag o with
  | none => simp
  | some tag =>
    by_cases hblank : trim tag = ""
    · simp only [bind_some, hblank, reduceIte, reduceCtorEq, Option.some.injEq,
        exists_eq_left', false_iff]
      rintro ⟨rfl, hne⟩
      exact hne rfl
    · simp only [bind_some, hblank, reduceIte, Option.some.injEq, exists_eq_left']
      constructor
      · rintro rfl
        exact ⟨rfl, hblank⟩
      · rintro ⟨rfl, -⟩
        rfl

/-- A tag without blanks at its ends is counted as it is. -/
theorem countedTag_of_rawTag {o : Json} (h : rawTag o = some t) (htrim : trim t = t)
    (hne : t ≠ "") : countedTag o = some t :=
  countedTag_eq_some.mpr ⟨t, h, htrim.symm, hne⟩

theorem mem_countedTags {outbounds : List Json} :
    t ∈ countedTags outbounds ↔ ∃ o ∈ outbounds, countedTag o = some t := by
  simp [countedTags, mem_filterMap]

/-! ### One destination -/

/-- The outbound's own tag is taken, which no other outbound has. -/
structure Reused (counts : List String) (o : Json) (r : String) : Prop where
  counted : countedTag o = some r
  once : counts.count r = 1

/-- The outbound gets a tag that is not in use. -/
structure Renamed (used : List String) (o o' : Json) (r : String) : Prop where
  free : r ∉ used
  put : o.put "tag" (.str r) = some o'
  trimmed : trim r = r
  nonempty : r ≠ ""

theorem newTag_ok {base r : String} {used used' : List String}
    (hbase : TagBase base) (h : newTag o base used = .ok (o', used', r)) :
    Renamed used o o' r ∧ used' = r :: used := by
  obtain ⟨k, -, hk⟩ := exists_firstFree_eq (tagCandidate base) used 0 used.length
  have hfree : firstFree (tagCandidate base) used 0 used.length ∉ used :=
    firstFree_not_mem (tagCandidate_injective base) 0
  unfold newTag at h
  simp only at h
  split at h
  · rename_i outbound hput
    cases h
    refine ⟨⟨hfree, hput, ?_, ?_⟩, rfl⟩
    · rw [hk]
      exact trim_eq_self (noEdgeBlank_tagCandidate hbase k)
    · rw [hk]
      exact tagCandidate_ne_empty hbase k
  · cases h

theorem resolveOutboundTag_ok {base r : String} {counts used used' : List String}
    (hbase : TagBase base) (h : resolveOutboundTag o base counts used = .ok (o', used', r)) :
    (Reused counts o r ∧ o' = o ∧ used' = used) ∨
      ((∀ t, countedTag o = some t → counts.count t ≠ 1) ∧
        Renamed used o o' r ∧ used' = r :: used) := by
  unfold resolveOutboundTag at h
  split at h
  · rename_i tag htag
    split at h
    · rename_i honce
      cases h
      exact .inl ⟨⟨htag, honce⟩, rfl, rfl⟩
    · rename_i honce
      refine .inr ⟨fun t ht => ?_, newTag_ok hbase h⟩
      rw [htag] at ht
      cases ht
      exact honce
  · rename_i hnone
    refine .inr ⟨fun t ht => ?_, newTag_ok hbase h⟩
    rw [hnone] at ht
    cases ht

/-- The predicate asks for the protocol only. -/
def ByProtocol (p : Json → Bool) : Prop := ∀ a b, protocolOf a = protocolOf b → p a = p b

/-- What the resolution of a destination does: the first outbound that serves it keeps its tag
or is renamed, and where there is none, one with a new tag is added. -/
inductive Resolved (counts : List String) (p : Json → Bool) (st : OutboundState) :
    OutboundState → String → Prop
  | reused {o : Json} {r : String} (hfirst : st.outbounds.find? p = some o)
      (h : Reused counts o r) : Resolved counts p st st r
  | renamed {i : Nat} {o o' : Json} {r : String} (hi : st.outbounds[i]? = some o)
      (hfirst : st.outbounds.find? p = some o)
      (hcount : ∀ t, countedTag o = some t → counts.count t ≠ 1) (h : Renamed st.used o o' r) :
      Resolved counts p st ⟨st.outbounds.set i o', r :: st.used⟩ r
  | added {o o' : Json} {r : String} (hnone : st.outbounds.find? p = none) (hp : p o = true)
      (h : Renamed st.used o o' r) : Resolved counts p st ⟨st.outbounds ++ [o'], r :: st.used⟩ r

/-- The tags in use cover the tags of all outbounds, and no tag counted at the start has gained
an outbound. -/
structure Settled (counts : List String) (st : OutboundState) : Prop where
  used_of_counted : ∀ o ∈ st.outbounds, ∀ t, countedTag o = some t → t ∈ st.used
  used_of_counts : ∀ t ∈ counts, t ∈ st.used
  count_le : ∀ t ∈ counts, (named countedTag st.outbounds t).length ≤ counts.count t

theorem settled_start (outbounds : List Json) :
    Settled (countedTags outbounds) ⟨outbounds, countedTags outbounds⟩ where
  used_of_counted := fun o ho _ ht => mem_countedTags.mpr ⟨o, ho, ht⟩
  used_of_counts := fun _ ht => ht
  count_le := fun t _ => le_of_eq (length_named outbounds t)

/-- The tag is counted once, and the outbound has blanks around it. -/
def Padded (counts : List String) (o : Json) : Prop :=
  ∃ tag, rawTag o = some tag ∧ trim tag ≠ tag ∧ trim tag ≠ "" ∧ counts.count (trim tag) = 1

/-- The first outbound that serves a destination is padded. -/
def PaddedPick (p : Json → Bool) (base : List Json) : Prop :=
  ∃ o, base.find? p = some o ∧ Padded (countedTags base) o

/-- What a tag names: one outbound, of the protocol, or none where the tag was padded. -/
structure Outcome (base : List Json) (p : Json → Bool) (outbounds : List Json) (r : String) :
    Prop where
  nonempty : r ≠ ""
  sole : ¬PaddedPick p base → Sole rawTag outbounds r fun o => p o = true
  lost : PaddedPick p base → named rawTag outbounds r = []

section
variable {counts : List String} {p q : Json → Bool} {st st' : OutboundState} {r s : String}
  {base : List Json} {o o' : Json}

theorem Renamed.rawTag (h : Renamed st.used o o' r) : rawTag o' = some r := rawTag_put h.put

theorem Renamed.countedTag (h : Renamed st.used o o' r) : countedTag o' = some r :=
  countedTag_of_rawTag h.rawTag h.trimmed h.nonempty

theorem Renamed.serves (h : Renamed st.used o o' r) (hp : ByProtocol p) : p o' = p o :=
  hp o' o (protocolOf_put h.put (by decide))

/-- No outbound has a tag that is not in use. -/
theorem Settled.named_of_free (hs : Settled counts st) (hfree : r ∉ st.used) (htrim : trim r = r)
    (hne : r ≠ "") : named rawTag st.outbounds r = [] :=
  named_eq_nil.mpr fun o ho htag =>
    hfree (hs.used_of_counted o ho r (countedTag_of_rawTag htag htrim hne))

/-- One more outbound, with a tag that is not in use. -/
theorem Settled.add (hs : Settled counts st) (h : Renamed st.used o o' r) :
    Settled counts ⟨st.outbounds ++ [o'], r :: st.used⟩ where
  used_of_counted := by
    intro x hx t ht
    rcases mem_append.mp hx with hx | hx
    · exact mem_cons_of_mem _ (hs.used_of_counted x hx t ht)
    · rw [mem_singleton.mp hx, h.countedTag] at ht
      simp [← Option.some.inj ht]
  used_of_counts := fun t ht => mem_cons_of_mem _ (hs.used_of_counts t ht)
  count_le := by
    intro t ht
    have hne : Core.countedTag o' ≠ some t := by
      rw [h.countedTag]
      rintro heq
      exact h.free (Option.some.inj heq ▸ hs.used_of_counts t ht)
    rw [named_concat_of_ne hne]
    exact hs.count_le t ht

theorem Resolved.settled (h : Resolved counts p st st' r) (hs : Settled counts st) :
    Settled counts st' := by
  cases h with
  | reused => exact hs
  | @renamed i o o' r hi hfirst hcount h =>
    refine ⟨?_, ?_, ?_⟩
    · intro x hx t ht
      rcases mem_or_eq_of_mem_set hx with hx | rfl
      · exact mem_cons_of_mem _ (hs.used_of_counted x hx t ht)
      · rw [h.countedTag] at ht
        simp [← Option.some.inj ht]
    · intro t ht
      exact mem_cons_of_mem _ (hs.used_of_counts t ht)
    · intro t ht
      have hne : countedTag o' ≠ some t := by
        rw [h.countedTag]
        rintro heq
        exact h.free (Option.some.inj heq ▸ hs.used_of_counts t ht)
      exact le_trans (length_named_set_le hne) (hs.count_le t ht)
  | added hnone hp h => exact hs.add h

section
variable (h : Reused counts o r) (hs : Settled counts st) (ho : o ∈ st.outbounds)
include h hs ho

/-- The one outbound that a reused tag is counted for. -/
theorem Reused.named : named Core.countedTag st.outbounds r = [o] := by
  have hmem : r ∈ counts := count_pos_iff.mp (by rw [h.once]; omega)
  have hle := hs.count_le r hmem
  rw [h.once] at hle
  have ho' : o ∈ Lib.named Core.countedTag st.outbounds r := mem_named.mpr ⟨ho, h.counted⟩
  match hnamed : Lib.named Core.countedTag st.outbounds r, ho', hle with
  | [x], ho', _ => rw [mem_singleton.mp ho']

/-- The outbounds with a reused tag are among those it is counted for. -/
theorem named_rawTag_of_reused :
    named rawTag st.outbounds r = [o].filter fun x => rawTag x = some r := by
  obtain ⟨tag, htag, hr, hne⟩ := countedTag_eq_some.mp h.counted
  have htrim : trim r = r := by rw [hr, trim_trim]
  rw [← h.named hs ho]
  simp only [Lib.named, List.filter_filter]
  refine List.filter_congr fun x _ => ?_
  by_cases hx : rawTag x = some r
  · simp [hx, countedTag_of_rawTag hx htrim hne]
  · simp [hx]

end

/-- The tag names the first outbound of the base config that serves the destination, unless
its tag is padded. -/
theorem Resolved.named (h : Resolved (countedTags base) p st st' r)
    (hs : Settled (countedTags base) st) (hp : ByProtocol p)
    (hbase : st.outbounds.find? p = base.find? p) : Outcome base p st'.outbounds r := by
  cases h with
  | @reused o r hfirst h =>
    obtain ⟨tag, htag, hr, hne⟩ := countedTag_eq_some.mp h.counted
    have hserves : p o = true := by simpa using find?_some hfirst
    have hnamed := named_rawTag_of_reused h hs (mem_of_find?_eq_some hfirst)
    refine ⟨hne, fun hclean => ?_, fun hpadded => ?_⟩
    · have htrim : trim tag = tag := by
        by_contra hblank
        exact hclean ⟨o, hbase ▸ hfirst, tag, htag, hblank, hr ▸ hne, hr ▸ h.once⟩
      rw [← hr] at htrim
      exact ⟨o, by rw [hnamed]; simp [htag, htrim], hserves⟩
    · obtain ⟨x, hx, tag', htag', hblank, -, -⟩ := hpadded
      rw [← hbase, hfirst] at hx
      cases hx
      rw [htag] at htag'
      cases htag'
      rw [hnamed]
      simpa [htag, hr] using Ne.symm hblank
  | @renamed i o o' r hi hfirst hcount h =>
    have hserves : p o = true := by simpa using find?_some hfirst
    refine ⟨h.nonempty, fun _ => ?_, fun hpadded => ?_⟩
    · have hfree := hs.named_of_free h.free h.trimmed h.nonempty
      exact ⟨o', named_set_of_eq hi hfree h.rawTag, (h.serves hp).trans hserves⟩
    · obtain ⟨x, hx, tag, htag, -, hne, honce⟩ := hpadded
      rw [← hbase, hfirst] at hx
      cases hx
      exact absurd honce (hcount _ (countedTag_eq_some.mpr ⟨tag, htag, rfl, hne⟩))
  | @added o o' r hnone hserves h =>
    refine ⟨h.nonempty, fun _ => ?_, fun hpadded => ?_⟩
    · have hfree := hs.named_of_free h.free h.trimmed h.nonempty
      exact ⟨o', named_concat_of_eq hfree h.rawTag, (h.serves hp).trans hserves⟩
    · obtain ⟨x, hx, -⟩ := hpadded
      rw [← hbase, hnone] at hx
      cases hx

variable (h : Resolved counts p st st' r)
include h

theorem Resolved.used (hs : Settled counts st) : r ∈ st'.used := by
  cases h with
  | reused hfirst h => exact hs.used_of_counted _ (mem_of_find?_eq_some hfirst) r h.counted
  | renamed hi hfirst hcount h => simp
  | added hnone hp h => simp

theorem Resolved.used_mono (hu : s ∈ st.used) : s ∈ st'.used := by
  cases h with
  | reused => exact hu
  | renamed => exact mem_cons_of_mem _ hu
  | added => exact mem_cons_of_mem _ hu

/-- Another destination's tag names what it named. -/
theorem Resolved.keeps (hdisjoint : ∀ o, p o = true → q o = false) (hu : s ∈ st.used)
    (hout : Outcome base q st.outbounds s) : Outcome base q st'.outbounds s := by
  have hnamed : Lib.named rawTag st'.outbounds s = Lib.named rawTag st.outbounds s := by
    cases h with
    | reused => rfl
    | @renamed i o o' r hi hfirst hcount h =>
      have hserves : p o = true := by simpa using find?_some hfirst
      have hnew : rawTag o' ≠ some s := by
        rw [h.rawTag]
        rintro heq
        exact h.free (Option.some.inj heq ▸ hu)
      have hold : rawTag o ≠ some s := by
        intro htag
        have hmem := mem_of_find?_eq_some hfirst
        by_cases hpadded : PaddedPick q base
        · exact named_eq_nil.mp (hout.lost hpadded) o hmem htag
        · have hq := (hout.sole hpadded).of_mem hmem htag
          rw [hdisjoint o hserves] at hq
          cases hq
      exact named_set_of_ne hi hold hnew
    | @added o o' r hnone hserves h =>
      have hnew : rawTag o' ≠ some s := by
        rw [h.rawTag]
        rintro heq
        exact h.free (Option.some.inj heq ▸ hu)
      exact named_concat_of_ne hnew
  refine ⟨hout.nonempty, fun hclean => ?_, fun hpadded => ?_⟩
  · obtain ⟨o, ho, hq⟩ := hout.sole hclean
    exact ⟨o, hnamed.trans ho, hq⟩
  · exact hnamed.trans (hout.lost hpadded)

/-- The first outbound for another destination is the one it was. -/
theorem Resolved.find?_eq (hdisjoint : ∀ o, p o = true → q o = false) (hp : ByProtocol p) :
    st'.outbounds.find? q = st.outbounds.find? q := by
  cases h with
  | reused => rfl
  | @renamed i o o' r hi hfirst hcount h =>
    have hserves : p o = true := by simpa using find?_some hfirst
    exact find?_set_of_not hi (hdisjoint o hserves) (hdisjoint o' (by rw [h.serves hp, hserves]))
  | @added o o' r hnone hserves h =>
    have hq := hdisjoint o' (by rw [h.serves hp, hserves])
    simp [find?_append, hq]

end

/-! ### The destinations that outbounds are shared for -/

inductive Destination where
  | proxy
  | direct
  | block
  | dns
  deriving DecidableEq

/-- The outbounds that serve a destination. -/
def Destination.serves : Destination → Json → Bool
  | .proxy => eligibleProxy
  | .direct => hasProtocol "freedom"
  | .block => hasProtocol "blackhole"
  | .dns => hasProtocol "dns"

theorem Destination.byProtocol (d : Destination) : ByProtocol d.serves := by
  intro a b h
  cases d <;> simp only [Destination.serves, eligibleProxy, hasProtocol, h]

theorem hasProtocol_iff {protocol : String} {o : Json} :
    hasProtocol protocol o = true ↔ protocolOf o = some protocol := by
  simp [hasProtocol]

/-- No outbound serves two destinations. -/
theorem Destination.disjoint {d e : Destination} (hne : d ≠ e) {o : Json}
    (h : d.serves o = true) : e.serves o = false := by
  cases hprotocol : protocolOf o with
  | none => cases d <;> simp [Destination.serves, eligibleProxy, hasProtocol, hprotocol] at h
  | some protocol =>
    cases d <;> cases e <;> simp_all [Destination.serves, eligibleProxy, hasProtocol]

theorem resolveAt_ok {i : Nat} {o : Json} (hbase : TagBase base) (hi : st.outbounds[i]? = some o)
    (h : resolveAt counts base st i = .ok (st', r)) : (Reused counts o r ∧ st' = st) ∨
      ∃ o', (∀ t, countedTag o = some t → counts.count t ≠ 1) ∧ Renamed st.used o o' r ∧
        st' = ⟨st.outbounds.set i o', r :: st.used⟩ := by
  unfold resolveAt at h
  rw [hi] at h
  obtain ⟨⟨o', used, tag⟩, hresolve, h⟩ := bind_eq_ok.mp h
  cases h
  rcases resolveOutboundTag_ok hbase hresolve with ⟨hreused, rfl, rfl⟩ | ⟨hcount, hrenamed, rfl⟩
  · refine .inl ⟨hreused, ?_⟩
    obtain ⟨hlt, rfl⟩ := List.getElem?_eq_some_iff.mp hi
    rw [set_getElem_self]
  · exact .inr ⟨o', hcount, hrenamed, rfl⟩

/-- The first outbound that serves is reused or renamed. -/
theorem resolveFound_ok {i : Nat} {p : Json → Bool} (hbase : TagBase base)
    (hfind : st.outbounds.findIdx? p = some i) (h : resolveAt counts base st i = .ok (st', r)) :
    Resolved counts p st st' r := by
  have hfirst := getElem?_findIdx? hfind
  obtain ⟨o, ho⟩ : ∃ o, st.outbounds[i]? = some o := by
    obtain ⟨hlt, -⟩ := findIdx?_eq_some_iff_getElem.mp hfind
    exact ⟨_, getElem?_eq_getElem hlt⟩
  rw [ho] at hfirst
  rcases resolveAt_ok hbase ho h with ⟨hreused, rfl⟩ | ⟨o', hcount, hrenamed, rfl⟩
  · exact .reused hfirst.symm hreused
  · exact .renamed ho hfirst.symm hcount hrenamed

theorem resolveProxy_ok (h : resolveProxy counts st = .ok (st', r)) :
    Resolved counts Destination.proxy.serves st st' r := by
  unfold resolveProxy at h
  split at h
  · exact resolveFound_ok (by decide) ‹_› h
  · cases h

theorem resolveShared_ok {protocol base : String} (hbase : TagBase base)
    (h : resolveShared counts protocol base st = .ok (st', r)) :
    Resolved counts (hasProtocol protocol) st st' r := by
  unfold resolveShared at h
  split at h
  · exact resolveFound_ok hbase ‹_› h
  · rename_i hfind
    have hnone : st.outbounds.find? (hasProtocol protocol) = none := by
      rw [findIdx?_eq_none_iff] at hfind
      exact find?_eq_none.mpr fun o ho => by simp [hfind o ho]
    set new : Json := .object [("protocol", .str protocol)] with hnew
    have htag : countedTag new = none := rfl
    have hprotocol : hasProtocol protocol new = true := by
      rw [hasProtocol_iff]
      rfl
    rcases resolveAt_ok (o := new) hbase (by simp) h with ⟨hreused, rfl⟩ | ⟨o', hcount, hrenamed, rfl⟩
    · rw [hreused.counted] at htag
      cases htag
    · simp only [set_append_right _ _ (Nat.le_refl _), Nat.sub_self, set_cons_zero]
      exact .added hnone hprotocol hrenamed

/-- Where the resolution stands: the tags found so far name their outbounds, and the first
outbound for each other destination is the one of the base config. -/
structure Progress (base : List Json) (st : OutboundState) (tag : Destination → Option String) :
    Prop where
  settled : Settled (countedTags base) st
  found : ∀ d r, tag d = some r → r ∈ st.used ∧ Outcome base d.serves st.outbounds r
  pending : ∀ d, tag d = none → st.outbounds.find? d.serves = base.find? d.serves

theorem progress_start (base : List Json) :
    Progress base ⟨base, countedTags base⟩ fun _ => none where
  settled := settled_start base
  found := fun _ _ h => nomatch h
  pending := fun _ _ => rfl

section
variable {base : List Json} {st st' : OutboundState} {tag : Destination → Option String}
  {d : Destination} (h : Progress base st tag) (hnew : tag d = none)
include h hnew

theorem Progress.step {r : String} (hstep : Resolved (countedTags base) d.serves st st' r) :
    Progress base st' (Function.update tag d (some r)) where
  settled := hstep.settled h.settled
  found := by
    intro e s hs
    by_cases hed : e = d
    · subst hed
      rw [Function.update_self] at hs
      cases hs
      exact ⟨hstep.used h.settled, hstep.named h.settled e.byProtocol (h.pending e hnew)⟩
    · rw [Function.update_of_ne hed] at hs
      obtain ⟨hused, hout⟩ := h.found e s hs
      exact ⟨hstep.used_mono hused,
        hstep.keeps (fun o => Destination.disjoint (Ne.symm hed)) hused hout⟩
  pending := by
    intro e he
    have hed : e ≠ d := by
      rintro rfl
      rw [Function.update_self] at he
      cases he
    rw [Function.update_of_ne hed] at he
    rw [hstep.find?_eq (fun o => Destination.disjoint (Ne.symm hed)) d.byProtocol]
    exact h.pending e he

/-- A destination that only some options need. -/
theorem Progress.stepIf {needed : Bool} {found : Option String}
    {resolve : OutboundState → Except XrayError (OutboundState × String)}
    (hresolve : ∀ st' r, resolve st = .ok (st', r) → Resolved (countedTags base) d.serves st st' r)
    (hstep : resolveIf needed resolve st = .ok (st', found)) :
    Progress base st' (Function.update tag d found) ∧ found.isSome = needed := by
  unfold resolveIf at hstep
  split at hstep
  · rename_i hneeded
    obtain ⟨⟨st₁, r⟩, hok, heq⟩ := bind_eq_ok.mp hstep
    cases heq
    exact ⟨h.step hnew (hresolve _ r hok), hneeded.symm⟩
  · rename_i hneeded
    cases hstep
    have hsame : Function.update tag d none = tag := by
      rw [← hnew, Function.update_eq_self]
    rw [hsame]
    exact ⟨h, by simpa using hneeded⟩

end

/-! ### Settings leave tags and protocols alone -/

structure SameFace (a b : Json) : Prop where
  tag : rawTag b = rawTag a
  protocol : protocolOf b = protocolOf a

/-- The interface an outbound is bound to stays too. -/
structure SameBinding (a b : Json) : Prop extends SameFace a b where
  interface : boundInterface b = boundInterface a

theorem SameFace.refl : SameFace a a := ⟨rfl, rfl⟩

theorem SameBinding.refl : SameBinding a a := ⟨.refl a, rfl⟩

theorem SameFace.trans {a b c : Json} (hab : SameFace a b) (hbc : SameFace b c) : SameFace a c :=
  ⟨hbc.tag.trans hab.tag, hbc.protocol.trans hab.protocol⟩

theorem putFirst_ok {protocol key : String} {value : Json}
    (htag : "tag" ≠ key) (hprotocol : "protocol" ≠ key)
    (h : putFirst protocol key value outbounds = .ok outbounds') :
    List.Forall₂ SameFace outbounds outbounds' := by
  induction outbounds generalizing outbounds' with
  | nil =>
    cases h
    exact .nil
  | cons o rest ih =>
    unfold putFirst at h
    split at h
    · split at h
      · rename_i o' hput
        cases h
        have hface : SameFace o o' := ⟨rawTag_put_of_ne hput htag, protocolOf_put hput hprotocol⟩
        exact .cons hface (forall₂_same.mpr fun x _ => .refl x)
      · cases h
    · obtain ⟨rest', hrest, heq⟩ := bind_eq_ok.mp h
      cases heq
      exact .cons (.refl o) (ih hrest)

theorem rewriteSockopt_ok {notOutbound notStream notSockopt : String}
    {rewrite : List (String × Json) → List (String × Json)}
    (hrewrite : ∀ fields, getField "interface" (rewrite fields) = getField "interface" fields)
    (h : rewriteSockopt notOutbound notStream notSockopt rewrite o = .ok o') :
    SameBinding o o' := by
  unfold rewriteSockopt at h
  split at h
  · cases h
  · rename_i object hobject
    obtain rfl := Json.asObject_eq_some.mp hobject
    split at h
    · cases h
    · rename_i stream hstream
      split at h
      · cases h
      · rename_i sockopt hsockopt
        cases h
        refine ⟨⟨?_, ?_⟩, ?_⟩
        · simp [rawTag, getField_insertField]
        · simp [protocolOf, getField_insertField]
        · have hnew : boundInterface (.obj (insertField "streamSettings"
              (.obj (insertField "sockopt" (.obj (rewrite sockopt)) stream)) object)) =
              (getField "interface" sockopt).bind Json.asStr := by
            simp [boundInterface, hrewrite]
          -- a missing section reads like an empty one
          have hold : boundInterface (.obj object) =
              (getField "interface" sockopt).bind Json.asStr := by
            rw [boundInterface, Json.index_obj]
            cases hfield : getField "streamSettings" object with
            | none =>
              rw [hfield] at hstream
              cases hstream
              cases hsockopt
              rfl
            | some value =>
              rw [hfield, getD_some] at hstream
              obtain rfl := Json.asObject_eq_some.mp hstream
              rw [getD_some, Json.index_obj]
              cases hinner : getField "sockopt" stream with
              | none =>
                rw [hinner] at hsockopt
                cases hsockopt
                rfl
              | some value =>
                rw [hinner, getD_some] at hsockopt
                obtain rfl := Json.asObject_eq_some.mp hsockopt
                simp
          rw [hnew, hold]

theorem directStrategy_ok {strategy : String}
    (h : directStrategy strategy o = .ok o') : SameBinding o o' := by
  unfold directStrategy at h
  split at h
  · refine rewriteSockopt_ok (fun fields => ?_) h
    rw [getField_insertField_of_ne (by decide)]
  · cases h
    exact .refl o

theorem getField_sockoptFields (sockopts : XraySockopts) (fields : List (String × Json)) :
    getField "interface" ((sockoptFields sockopts).foldl (fun fs f => insertField f.1 f.2 fs) fields) =
      getField "interface" fields := by
  unfold sockoptFields
  cases sockopts.tcpKeepAliveIdle <;> cases sockopts.tcpKeepAliveInterval <;>
    cases sockopts.tcpUserTimeout <;> simp [optionField, getField_insertField]

theorem sockoptsOf_ok {sockopts : XraySockopts}
    (h : sockoptsOf sockopts o = .ok o') : SameBinding o o' := by
  unfold sockoptsOf at h
  split at h
  · cases h
    exact .refl o
  · obtain ⟨⟨⟩, -, h⟩ := bind_eq_ok.mp h
    exact rewriteSockopt_ok (getField_sockoptFields sockopts) h

theorem allSockopts_ok (h : allSockopts options outbounds = .ok outbounds') :
    List.Forall₂ SameBinding outbounds outbounds' := by
  unfold allSockopts at h
  split at h
  · exact (mapM_eq_ok.mp h).imp fun _ _ => sockoptsOf_ok
  · cases h
    exact forall₂_same.mpr fun o _ => .refl o

theorem outboundSettings_ok (h : outboundSettings options outbounds = .ok outbounds') :
    List.Forall₂ SameFace outbounds outbounds' := by
  obtain ⟨first, hfirst, h⟩ := bind_eq_ok.mp h
  obtain ⟨second, hsecond, h⟩ := bind_eq_ok.mp h
  have hsame : ∀ outbounds : List Json, List.Forall₂ SameFace outbounds outbounds :=
    fun outbounds => forall₂_same.mpr fun o _ => .refl o
  have h₁ : List.Forall₂ SameFace outbounds first := by
    unfold dnsSettings at hfirst
    split at hfirst
    · exact putFirst_ok (by decide) (by decide) hfirst
    · cases hfirst
      exact hsame _
  have h₂ : List.Forall₂ SameFace first second := by
    unfold dnsEgress at hsecond
    split at hsecond
    · exact putFirst_ok (by decide) (by decide) hsecond
    · cases hsecond
      exact hsame _
  have h₃ : List.Forall₂ SameFace second outbounds' := by
    unfold directSettings at h
    split at h
    · exact (mapM_eq_ok.mp h).imp fun _ _ hok => (directStrategy_ok hok).toSameFace
    · cases h
      exact hsame _
  have htrans : ∀ a b c, SameFace a b → SameFace b c → SameFace a c := fun _ _ _ => .trans
  exact forall₂_trans htrans (forall₂_trans htrans h₁ h₂) h₃

theorem Outcome.forall₂ {base xs ys : List Json} {p : Json → Bool}
    (h : Outcome base p xs r) (hp : ByProtocol p) (hxs : List.Forall₂ SameFace xs ys) :
    Outcome base p ys r where
  nonempty := h.nonempty
  sole := fun hclean => (h.sole hclean).forall₂ hxs (fun _ _ hface => hface.tag)
    fun x y hface hserves => (hp y x hface.protocol).trans hserves
  lost := fun hpadded => by
    have hnamed := named_forall₂ (n := r) hxs fun _ _ hface => hface.tag
    rw [h.lost hpadded] at hnamed
    exact forall₂_nil_left_iff.mp hnamed

theorem countedTag_of_sameFace {a b : Json} (h : SameFace a b) : countedTag b = countedTag a := by
  rw [countedTag, countedTag, h.tag]

theorem named_countedTag_of_sameFace (h : List.Forall₂ SameFace xs ys)
    (t : String) : List.Forall₂ SameFace (named countedTag xs t) (named countedTag ys t) :=
  named_forall₂ h fun _ _ => countedTag_of_sameFace

theorem Settled.forall₂ {counts used : List String}
    (h : Settled counts ⟨xs, used⟩) (hxs : List.Forall₂ SameFace xs ys) :
    Settled counts ⟨ys, used⟩ where
  used_of_counted := by
    intro o ho t ht
    have hnamed := named_countedTag_of_sameFace hxs t
    have hlength : 0 < (named countedTag xs t).length := by
      rw [hnamed.length_eq]
      exact length_pos_of_mem (mem_named.mpr ⟨ho, ht⟩)
    obtain ⟨x, hx⟩ := exists_mem_of_length_pos hlength
    obtain ⟨hmem, hcounted⟩ := mem_named.mp hx
    exact h.used_of_counted x hmem t hcounted
  used_of_counts := h.used_of_counts
  count_le := by
    intro t ht
    have hnamed := named_countedTag_of_sameFace hxs t
    have hlength := hnamed.length_eq
    have hle := h.count_le t ht
    simp only at hle ⊢
    omega

/-! ### Interfaces -/

/-- A direct outbound that is bound to the interface. -/
def BoundTo (identity : InterfaceIdentity) (o : Json) : Prop :=
  protocolOf o = some "freedom" ∧ boundInterface o = some identity.1

theorem boundTo_interfaceOutbound : BoundTo identity (interfaceOutbound identity) := by
  obtain ⟨name, strategy⟩ := identity
  cases strategy <;>
    simp [BoundTo, protocolOf, boundInterface, interfaceOutbound, Json.object, optionField,
      getField_insertField]

/-- The tags of the interfaces so far each name one outbound, bound to the interface. -/
def InterfacesFound (st : OutboundState) (tags : List (InterfaceIdentity × String)) : Prop :=
  ∀ identity t, tags.lookup identity = some t →
    t ∈ st.used ∧ t ≠ "" ∧ Sole rawTag st.outbounds t (BoundTo identity)

theorem countedTag_interfaceOutbound : countedTag (interfaceOutbound identity) = none := by
  simp [countedTag, rawTag, interfaceOutbound, Json.object, getField_insertField]
  simp [getField]

section
variable {counts : List String} {st st' : OutboundState}
  {tags tags' : List (InterfaceIdentity × String)}

/-- One more outbound, with a tag of its own. -/
theorem interface_step {route : XrayInterfaceRoute} {o : Json} {used : List String} {t : String}
    (hs : Settled counts st)
    (h : resolveOutboundTag (interfaceOutbound route.identity) "network-orchestrator-interface"
      counts st.used = .ok (o, used, t)) :
    Renamed st.used (interfaceOutbound route.identity) o t ∧ used = t :: st.used ∧
      BoundTo route.identity o ∧ Settled counts ⟨st.outbounds ++ [o], used⟩ := by
  have hbase : TagBase "network-orchestrator-interface" := by decide
  rcases resolveOutboundTag_ok hbase h with ⟨hreused, -, -⟩ | ⟨-, hrenamed, rfl⟩
  · have hcounted := hreused.counted
    rw [countedTag_interfaceOutbound] at hcounted
    cases hcounted
  · obtain ⟨hprotocol, hbound⟩ := boundTo_interfaceOutbound route.identity
    refine ⟨hrenamed, rfl, ⟨?_, ?_⟩, ?_⟩
    · rw [protocolOf_put hrenamed.put (by decide), hprotocol]
    · rw [boundInterface_put hrenamed.put (by decide), hbound]
    · exact hs.add hrenamed

/-- What the loop over the interface routes leaves. -/
structure InterfacesAdded (routes : List XrayInterfaceRoute) (st st' : OutboundState)
    (tags tags' : List (InterfaceIdentity × String)) : Prop where
  found : InterfacesFound st' tags'
  covered : ∀ route ∈ routes, (tags'.lookup route.identity).isSome = true
  kept : ∀ identity, (tags.lookup identity).isSome = true → (tags'.lookup identity).isSome = true
  named_eq : ∀ r ∈ st.used, named rawTag st'.outbounds r = named rawTag st.outbounds r

variable (hs : Settled counts st) (hfound : InterfacesFound st tags)
include hs hfound

theorem found_step {identity : InterfaceIdentity} {o o' : Json} {t : String}
    (hrenamed : Renamed st.used o o' t) (hbound : BoundTo identity o') :
    InterfacesFound ⟨st.outbounds ++ [o'], t :: st.used⟩ (tags ++ [(identity, t)]) := by
  intro other s hs'
  rw [lookup_append] at hs'
  cases hold : tags.lookup other with
  | some found =>
    rw [hold] at hs'
    cases hs'
    obtain ⟨hused, hne, hsole⟩ := hfound other s hold
    obtain ⟨x, hx, hbound'⟩ := hsole
    have hother : rawTag o' ≠ some s := by
      rw [hrenamed.rawTag]
      rintro heq
      exact hrenamed.free (Option.some.inj heq ▸ hused)
    exact ⟨mem_cons_of_mem _ hused, hne, x, (named_concat_of_ne hother).trans hx, hbound'⟩
  | none =>
    rw [hold, none_or, lookup_cons] at hs'
    split at hs'
    · rename_i heq
      cases hs'
      obtain rfl : other = identity := by simpa using heq
      have hfree := hs.named_of_free hrenamed.free hrenamed.trimmed hrenamed.nonempty
      exact ⟨by simp, hrenamed.nonempty, o', named_concat_of_eq hfree hrenamed.rawTag, hbound⟩
    · cases hs'

theorem addInterfaces_ok {routes : List XrayInterfaceRoute}
    (h : addInterfaces counts routes st tags = .ok (st', tags')) :
    InterfacesAdded routes st st' tags tags' := by
  induction routes generalizing st tags with
  | nil =>
    cases h
    exact ⟨hfound, by simp, fun _ h => h, fun _ _ => rfl⟩
  | cons route rest ih =>
    unfold addInterfaces at h
    split at h
    · rename_i hknown
      have hrest := ih hs hfound h
      refine ⟨hrest.found, ?_, hrest.kept, hrest.named_eq⟩
      intro x hx
      rcases mem_cons.mp hx with rfl | hx
      · exact hrest.kept _ hknown
      · exact hrest.covered x hx
    · obtain ⟨⟨o, used, t⟩, hresolve, h⟩ := bind_eq_ok.mp h
      obtain ⟨hrenamed, rfl, hbound, hsettled⟩ := interface_step hs hresolve
      have hrest := ih hsettled (found_step hs hfound hrenamed hbound) h
      refine ⟨hrest.found, ?_, ?_, ?_⟩
      · intro x hx
        rcases mem_cons.mp hx with rfl | hx
        · refine hrest.kept _ ?_
          rw [lookup_append]
          cases tags.lookup x.identity <;> simp
        · exact hrest.covered x hx
      · intro identity hidentity
        refine hrest.kept _ ?_
        rw [lookup_append]
        cases hold : tags.lookup identity with
        | none =>
          rw [hold] at hidentity
          cases hidentity
        | some found => rfl
      · intro r hr
        have hother : rawTag o ≠ some r := by
          rw [hrenamed.rawTag]
          rintro heq
          exact hrenamed.free (Option.some.inj heq ▸ hr)
        rw [hrest.named_eq r (mem_cons_of_mem _ hr)]
        exact named_concat_of_ne hother

end

/-! ### All destinations -/

/-- The tag of a destination. -/
def RouteTags.of (tags : RouteTags) : Destination → Option String
  | .proxy => tags.proxy
  | .direct => tags.direct
  | .block => tags.block
  | .dns => tags.dns

/-- The destinations that the options ask for. -/
def needs (policies : List DomainPolicy) (options : ProfileRoutingOptions) : Destination → Bool
  | .proxy => needsProxy policies options
  | .direct => needsDirect policies options
  | .block => rulesActive policies options
  | .dns => dnsActive options

/-- What the tags of the rules name. -/
structure TagsNamed (base : List Json) (policies : List DomainPolicy)
    (options : ProfileRoutingOptions) (outbounds : List Json) (tags : RouteTags) : Prop where
  needed : ∀ d, (tags.of d).isSome = needs policies options d
  shared : ∀ d r, tags.of d = some r → Outcome base d.serves outbounds r
  bound : ∀ route ∈ options.interfaceRoutes, ∃ t, tags.interfaces.lookup route.identity = some t ∧
    t ≠ "" ∧ Sole rawTag outbounds t (BoundTo route.identity)

theorem routedOutbounds_ok {policies : List DomainPolicy}
    {base outbounds : List Json} {tags : RouteTags}
    (h : routedOutbounds policies options base = .ok (outbounds, tags)) :
    TagsNamed base policies options outbounds tags := by
  unfold routedOutbounds at h
  obtain ⟨⟨st₁, proxy⟩, hproxy, h⟩ := bind_eq_ok.mp h
  obtain ⟨⟨st₂, direct⟩, hdirect, h⟩ := bind_eq_ok.mp h
  obtain ⟨⟨st₃, block⟩, hblock, h⟩ := bind_eq_ok.mp h
  obtain ⟨⟨st₄, dns⟩, hdns, h⟩ := bind_eq_ok.mp h
  obtain ⟨settings, hsettings, h⟩ := bind_eq_ok.mp h
  obtain ⟨⟨st₅, interfaces⟩, hinterfaces, h⟩ := bind_eq_ok.mp h
  obtain ⟨final, hfinal, h⟩ := bind_eq_ok.mp h
  cases h
  obtain ⟨h₁, n₁⟩ := (progress_start base).stepIf (d := .proxy) rfl
    (fun _ _ => resolveProxy_ok) hproxy
  obtain ⟨h₂, n₂⟩ := h₁.stepIf (d := .direct) rfl (fun _ _ => resolveShared_ok (by decide)) hdirect
  obtain ⟨h₃, n₃⟩ := h₂.stepIf (d := .block) rfl (fun _ _ => resolveShared_ok (by decide)) hblock
  obtain ⟨h₄, n₄⟩ := h₃.stepIf (d := .dns) rfl (fun _ _ => resolveShared_ok (by decide)) hdns
  have hface := outboundSettings_ok hsettings
  have hadded := addInterfaces_ok (h₄.settled.forall₂ hface) (fun _ _ h => by simp at h) hinterfaces
  have hsockopts := allSockopts_ok hfinal
  have hlast : List.Forall₂ SameFace st₅.outbounds outbounds := hsockopts.imp fun _ _ h => h.toSameFace
  refine ⟨?_, ?_, ?_⟩
  · intro d
    cases d
    · exact n₁
    · exact n₂
    · exact n₃
    · exact n₄
  · intro d r hr
    obtain ⟨hused, hout⟩ := h₄.found d r (by cases d <;> exact hr)
    have hsettled := hout.forall₂ d.byProtocol hface
    have hnamed := hadded.named_eq r hused
    have hkept : Outcome base d.serves st₅.outbounds r := by
      refine ⟨hsettled.nonempty, fun hclean => ?_, fun hpadded => ?_⟩
      · obtain ⟨o, ho, hserves⟩ := hsettled.sole hclean
        exact ⟨o, hnamed.trans ho, hserves⟩
      · exact hnamed.trans (hsettled.lost hpadded)
    exact hkept.forall₂ d.byProtocol hlast
  · intro route hroute
    obtain ⟨t, ht⟩ := isSome_iff_exists.mp (hadded.covered route hroute)
    obtain ⟨-, hne, hsole⟩ := hadded.found _ t ht
    refine ⟨t, ht, hne, hsole.forall₂ hsockopts (fun _ _ h => h.tag) ?_⟩
    rintro x y hxy ⟨hprotocol, hbound⟩
    exact ⟨hxy.protocol.trans hprotocol, hxy.interface.trans hbound⟩

end NetOrchestrator.Core
