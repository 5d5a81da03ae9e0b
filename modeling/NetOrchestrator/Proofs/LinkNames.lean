import NetOrchestrator.Daemon.LinkNames
import NetOrchestrator.Lib.Utf8

/-!
# `Proofs.LinkNames`: who takes the name of a tunnel link

A name is `Tagged` where it is the tag of its kind and a rest of letters, digits and dashes. All of
the consumers take such a name (`Tagged.accepted`), and every name is one but those of a hint like
`wg0`, which is kept as it is (`names_accepted_iff`).
-/

namespace NetOrchestrator.Daemon

open List

/-- The tunnels that get a link. -/
inductive TunnelKind where
  | wireguard | openvpn | xray
  deriving DecidableEq

namespace TunnelKind

def tag : TunnelKind → String
  | wireguard => "wg-"
  | openvpn => "ovpn-"
  | xray => "xray-"

/-- The tag without its dash. -/
def bare : TunnelKind → List Char
  | wireguard => ['w', 'g']
  | openvpn => ['o', 'v', 'p', 'n']
  | xray => ['x', 'r', 'a', 'y']

/-- The slug of the hint goes on with a digit where the tag has its dash. -/
def Numbered (kind : TunnelKind) (hint : Option String) : Prop :=
  ∃ slug digit rest, hint.bind (linkNameSlug · 15) = some slug ∧ digit.isDigit ∧
    slug = kind.bare ++ digit :: rest

/-- What is asked of a name where it is used. -/
structure Accepted (kind : TunnelKind) (name : String) : Prop where
  ascii : ∀ c ∈ name.toList, c.toNat < 128
  short : name.utf8ByteSize ≤ 15
  link : validateLink name = .ok ()
  tun : kind = openvpn → validTunName name
  owner : kind = xray → ∀ uid, ∃ owner, QuicOwner.new uid name = .ok owner

/-- A name of the kind, as far as the validators look. -/
structure Tagged (kind : TunnelKind) (name : List Char) : Prop where
  tagged : ∃ rest, rest ≠ [] ∧ name = kind.bare ++ '-' :: rest
  chars : ∀ c ∈ name, isNameChar c
  short : name.length ≤ 15

variable {kind : TunnelKind} {name slug : List Char} {hint : Option String} {c : Char}

theorem toList_tag (kind : TunnelKind) : kind.tag.toList = kind.bare ++ ['-'] := by
  cases kind <;> rfl

theorem trim_tag (kind : TunnelKind) : (trimDashes kind.tag.toList.reverse).reverse = kind.bare := by
  cases kind <;> decide

theorem ascii_of_isNameChar (h : isNameChar c = true) : c.toNat < 128 := by
  rw [isNameChar, Bool.or_eq_true, beq_iff_eq] at h
  rcases h with h | rfl
  · exact Lib.lt_of_isAlphanum h
  · decide

theorem utf8ByteSize_ofList (h : ∀ c ∈ name, c.toNat < 128) :
    (String.ofList name).utf8ByteSize = name.length := by
  induction name with
  | nil => rfl
  | cons c rest ih =>
    have hsize : (String.singleton c).utf8ByteSize = 1 := by
      have hsmall : c.val ≤ 0x7f := by
        rw [UInt32.le_iff_toNat_le]
        show c.toNat ≤ 127
        have := h c mem_cons_self
        omega
      rw [String.singleton, String.utf8ByteSize_push, Char.utf8Size_eq_one_iff.mpr hsmall]
      rfl
    rw [String.ofList_cons, String.utf8ByteSize_append, hsize,
      ih fun d hd => h d (mem_cons_of_mem c hd), length_cons, Nat.add_comm]

/-! ### What the consumers take -/

theorem Tagged.accepted (h : kind.Tagged name) : kind.Accepted (String.ofList name) := by
  have hascii : ∀ c ∈ name, c.toNat < 128 := fun c hc => ascii_of_isNameChar (h.chars c hc)
  have hsize := utf8ByteSize_ofList hascii
  have hshort : (String.ofList name).utf8ByteSize ≤ 15 := hsize ▸ h.short
  have hnames := all_eq_true.mpr h.chars
  obtain ⟨rest, hrest, hname⟩ := h.tagged
  have hall : rest.all isNameChar = true :=
    all_eq_true.mpr fun c hc => h.chars c (by simp [hname, hc])
  refine ⟨by simpa using hascii, hshort, ?_, ?_, ?_⟩
  · have hsuffix : (['w', 'g', '-'].isPrefixOf? name).or
        ((['o', 'v', 'p', 'n', '-'].isPrefixOf? name).or
          (['x', 'r', 'a', 'y', '-'].isPrefixOf? name)) = some rest := by
      rw [hname]
      cases kind <;> simp [bare, List.isPrefixOf?]
    unfold validateLink
    simp [hsuffix, hshort, hall, hrest]
  · rintro rfl
    have hlong := length_pos_iff.mpr hrest
    have hlead : "ovpn-".toList.isPrefixOf name = true := by simp [hname, bare]
    have hlen : 6 ≤ name.length := by
      rw [hname]
      simp [bare]
      omega
    unfold validTunName
    simp only [String.toList_ofList, hlead, hnames, hsize]
    simp [hlen, h.short]
  · rintro rfl uid
    have hnames : name.all (fun c => isNameChar c || c == '_') = true :=
      all_eq_true.mpr fun c hc => by simp [h.chars c hc]
    refine ⟨_, if_neg ?_⟩
    have hshort := h.short
    rw [String.toList_ofList, hnames, hsize]
    simp [hname] at hshort ⊢
    exact hshort

/-! ### The names -/

theorem chars_slugLoop {budget : Nat} (h : ∀ c ∈ slug, isNameChar c) (cs : List Char) :
    ∀ c ∈ slugLoop budget slug cs, isNameChar c := by
  induction cs generalizing slug with
  | nil => exact h
  | cons d rest ih =>
    unfold slugLoop
    split
    · exact h
    split
    · rename_i hd
      exact ih (forall_mem_cons.mpr ⟨by simp [isNameChar, hd], h⟩)
    split
    · exact ih h
    · exact ih (forall_mem_cons.mpr ⟨by decide, h⟩)

theorem length_slugLoop {budget : Nat} (h : slug.length ≤ budget) (cs : List Char) :
    (slugLoop budget slug cs).length ≤ budget := by
  induction cs generalizing slug with
  | nil => exact h
  | cons d rest ih =>
    unfold slugLoop
    split
    · exact h
    have hroom : slug.length + 1 ≤ budget := by omega
    split
    · exact ih hroom
    split
    · exact ih h
    · exact ih hroom

/-- A slug is short, has no other characters and does not end with a dash. -/
theorem slug_spec (h : hint.bind (linkNameSlug · 15) = some slug) :
    slug ≠ [] ∧ slug.length ≤ 15 ∧ (∀ c ∈ slug, isNameChar c) ∧ slug.getLast? ≠ some '-' := by
  obtain ⟨text, -, h⟩ := Option.bind_eq_some_iff.mp h
  simp only [linkNameSlug] at h
  split at h
  · cases h
  rename_i hne
  cases h
  have hsub : (trimDashes (slugLoop 15 [] (text.toList.flatMap lowercase))).Sublist
      (slugLoop 15 [] (text.toList.flatMap lowercase)) := dropWhile_sublist _
  refine ⟨by simpa using hne, ?_, fun c hc => ?_, ?_⟩
  · rw [length_reverse]
    exact Nat.le_trans hsub.length_le (length_slugLoop (by simp) _)
  · exact chars_slugLoop (by simp) _ c (hsub.mem (mem_reverse.mp hc))
  · rw [getLast?_reverse]
    intro hlast
    have := head?_dropWhile_not (· == '-') (slugLoop 15 [] (text.toList.flatMap lowercase))
    rw [trimDashes] at hlast
    simp [hlast] at this

theorem isNameChar_of_alphanumeric (h : isAsciiAlphanumeric c = true) : isNameChar c = true := by
  simp [isNameChar, h]

theorem chars_tag : ∀ c ∈ kind.tag.toList, isNameChar c := by
  have hall : kind.tag.toList.all isNameChar = true := by
    cases kind <;> decide
  exact all_eq_true.mp hall

theorem tagged_hashed (kind : TunnelKind) (value : Nat) :
    kind.Tagged (kind.tag.toList ++ hexPadded value (15 - kind.tag.toList.length)) := by
  have hlen : kind.tag.toList.length < 15 := by
    cases kind <;> decide
  refine ⟨⟨hexPadded value (15 - kind.tag.toList.length), ?_, by simp [toList_tag]⟩,
    fun c hc => ?_, by simp; omega⟩
  · rw [← length_pos_iff, length_hexPadded]
    omega
  · rcases mem_append.mp hc with hc | hc
    · exact chars_tag c hc
    · exact isNameChar_of_alphanumeric (isAsciiAlphanumeric_hexPadded hc)

/-- A name that is cut and marked keeps its tag. -/
theorem Tagged.fallback (h : kind.Tagged name) (value : Nat)
    (hlong : kind.tag.toList.length < (trimDashes (name.take 10).reverse).reverse.length) :
    kind.Tagged ((trimDashes (name.take 10).reverse).reverse ++ '-' :: hexPadded value 4) := by
  obtain ⟨rest, -, hname⟩ := h.tagged
  have hsub : (trimDashes (name.take 10).reverse).reverse <+: name := by
    have hsuffix : trimDashes (name.take 10).reverse <:+ (name.take 10).reverse :=
      dropWhile_suffix _
    exact ((List.reverse_prefix).mpr hsuffix |>.trans (by simp)).trans (List.take_prefix 10 name)
  have hlead : kind.tag.toList <+: (trimDashes (name.take 10).reverse).reverse :=
    prefix_of_prefix_length_le ⟨rest, by simp [hname, toList_tag]⟩ hsub (Nat.le_of_lt hlong)
  have hshort : (trimDashes (name.take 10).reverse).reverse.length ≤ 10 := by
    rw [length_reverse]
    refine Nat.le_trans (dropWhile_sublist _).length_le ?_
    rw [length_reverse]
    exact length_take_le 10 name
  obtain ⟨more, hmore⟩ := hlead
  refine ⟨⟨more ++ '-' :: hexPadded value 4, by simp, ?_⟩, fun c hc => ?_, ?_⟩
  · rw [← hmore, toList_tag]
    simp
  · rcases mem_append.mp hc with hc | hc
    · exact h.chars c (hsub.mem hc)
    · rcases mem_cons.mp hc with rfl | hc
      · decide
      · exact isNameChar_of_alphanumeric (isAsciiAlphanumeric_hexPadded hc)
  · rw [length_append, length_cons, length_hexPadded]
    omega

/-- The preferred name, unless the hint is one with a number. -/
theorem tagged_primary (h : hint.bind (linkNameSlug · 15) = some slug) (hbare : slug ≠ kind.bare)
    (hplain : ¬kind.Numbered hint) :
    kind.Tagged (if kind.tag.toList.isPrefixOf slug || (kind.bare.isPrefixOf slug &&
        (slug.drop kind.bare.length).head?.any Char.isDigit) then slug.take 15
      else kind.tag.toList ++ slug.take (15 - kind.tag.toList.length)) := by
  obtain ⟨hne, hlen, hchars, hlast⟩ := slug_spec h
  have hdigit : (kind.bare.isPrefixOf slug &&
      (slug.drop kind.bare.length).head?.any Char.isDigit) = false := by
    rw [Bool.eq_false_iff]
    intro hnumbered
    simp only [Bool.and_eq_true, isPrefixOf_iff_prefix, Option.any_eq_true] at hnumbered
    obtain ⟨⟨rest, rfl⟩, digit, hhead, hdigit⟩ := hnumbered
    rw [drop_left] at hhead
    obtain ⟨rest, rfl⟩ := head?_eq_some_iff.mp hhead
    exact hplain ⟨_, digit, rest, h, hdigit, rfl⟩
  rw [hdigit, Bool.or_false]
  have htag : kind.tag.toList.length < 15 := by
    cases kind <;> decide
  split
  · rename_i hlead
    obtain ⟨rest, rfl⟩ := isPrefixOf_iff_prefix.mp hlead
    rw [take_of_length_le hlen]
    refine ⟨⟨rest, ?_, by simp [toList_tag]⟩, hchars, hlen⟩
    rintro rfl
    simp [toList_tag] at hlast
  · refine ⟨⟨slug.take (15 - kind.tag.toList.length), ?_, by simp [toList_tag]⟩, fun c hc => ?_, ?_⟩
    · rw [← length_pos_iff, length_take]
      have := length_pos_iff.mpr hne
      omega
    · rcases mem_append.mp hc with hc | hc
      · exact chars_tag c hc
      · exact hchars c (mem_of_mem_take hc)
    · rw [length_append, length_take]
      omega

/-- A name that goes on with a digit has none of the tags. -/
theorem validateLink_numbered {digit : Char} {rest : List Char} (hdigit : digit.isDigit) :
    validateLink (String.ofList (kind.bare ++ digit :: rest)) ≠ .ok () := by
  have hdash : digit ≠ '-' := by
    rintro rfl
    cases hdigit
  have hnone : (['w', 'g', '-'].isPrefixOf? (kind.bare ++ digit :: rest)).or
      ((['o', 'v', 'p', 'n', '-'].isPrefixOf? (kind.bare ++ digit :: rest)).or
        (['x', 'r', 'a', 'y', '-'].isPrefixOf? (kind.bare ++ digit :: rest))) = none := by
    cases kind <;> simp [bare, List.isPrefixOf?, hdash.symm]
  unfold validateLink
  simp only [String.toList_ofList]
  rw [if_neg]
  · simp
  · simp [hnone]

/-- Every consumer takes both names, unless the slug of the hint goes on with a digit where the tag
has its dash. -/
theorem names_accepted_iff (kind : TunnelKind) (uid : Nat) (profileId : String)
    (hint : Option String) :
    (kind.Accepted (tunnelLinkNames kind.tag uid profileId hint).1 ∧
      kind.Accepted (tunnelLinkNames kind.tag uid profileId hint).2) ↔ ¬kind.Numbered hint := by
  have hhashed := fun value => (tagged_hashed kind value).accepted
  unfold tunnelLinkNames
  simp only [trim_tag]
  cases hslug : hint.bind (linkNameSlug · 15) with
  | none =>
    have hplain : ¬kind.Numbered hint := by
      rintro ⟨slug, digit, rest, hsome, -⟩
      simp [hslug] at hsome
    simpa only [hplain, not_false_eq_true, iff_true] using ⟨hhashed _, hhashed _⟩
  | some slug =>
    by_cases hbare : slug = kind.bare
    · have hplain : ¬kind.Numbered hint := by
        rintro ⟨other, digit, rest, hsome, -, hother⟩
        rw [hslug] at hsome
        simp [← Option.some.inj hsome, hbare] at hother
      simpa only [hbare, if_true, hplain, not_false_eq_true, iff_true] using ⟨hhashed _, hhashed _⟩
    · simp only [if_neg hbare]
      constructor
      · rintro ⟨hprimary, -⟩ ⟨other, digit, rest, hsome, hdigit, hother⟩
        rw [hslug] at hsome
        obtain rfl := Option.some.inj hsome
        have hnumbered : (kind.bare.isPrefixOf slug &&
            (slug.drop kind.bare.length).head?.any Char.isDigit) = true := by
          simp [hother, hdigit]
        rw [hnumbered, Bool.or_true, if_pos rfl,
          List.take_of_length_le (slug_spec hslug).2.1, hother] at hprimary
        exact validateLink_numbered hdigit hprimary.link
      · intro hplain
        have hprimary := tagged_primary hslug hbare hplain
        revert hprimary
        generalize (if kind.tag.toList.isPrefixOf slug || _ then _ else _) = primary
        intro hprimary
        refine ⟨hprimary.accepted, ?_⟩
        split
        · exact hhashed _
        · rename_i hlong
          exact (hprimary.fallback _ (Nat.lt_of_not_le hlong)).accepted

/-- A user calls a tunnel `ovpn0`, and neither OpenVPN's executor nor DNS takes its name. -/
theorem ovpn0_refused :
    (tunnelLinkNames openvpn.tag 1000 "work" (some "ovpn0")).1 = "ovpn0" ∧
      validTunName "ovpn0" = false ∧
      validateLink "ovpn0" = .error "invalid tunnel link name" ∧
      ¬(openvpn.Accepted (tunnelLinkNames openvpn.tag 1000 "work" (some "ovpn0")).1 ∧
        openvpn.Accepted (tunnelLinkNames openvpn.tag 1000 "work" (some "ovpn0")).2) := by
  have hname : (tunnelLinkNames openvpn.tag 1000 "work" (some "ovpn0")).1 = "ovpn0" := by
    decide
  refine ⟨hname, by decide, by rfl, fun h => ?_⟩
  rw [hname] at h
  cases h.1.tun rfl

end TunnelKind

end NetOrchestrator.Daemon
