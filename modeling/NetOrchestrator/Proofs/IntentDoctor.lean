import NetOrchestrator.Core.IntentDoctor
import NetOrchestrator.Daemon.Text
import NetOrchestrator.Lib.Utf8
import NetOrchestrator.Net.Cover

/-!
# `Proofs.IntentDoctor`: what the doctor's fixes are good for

A fix pins some servers under a free id that is made from the name of an interface. Each id is
looked for by itself, among the stored intents only, so that two fixes of one analysis can come
by the same id (`Clash`); and nothing looks at how many servers there are or whether
`net.intent.set` takes their addresses (`Fits`). `doctor_works_iff` says that there is no other
reason for a fix not to work.
-/

namespace NetOrchestrator.Core.IntentDoctor

open Net Lib String
open Daemon (NetIntentSetParams isAsciiAlphanumeric asciiLower trim_renderNet)

/-! ### Free ids -/

/-- The ids in question are those of the stored intents. -/
abbrev idsOf (intents : List NetIntentView) : List String := intents.map NetIntentView.id

/-- The ids that are tried for a slug. -/
def bypassName (slug : String) (k : Nat) : String := numbered ("bypass-" ++ slug) k

/-- The search for a free id ends at the `k`-th try. -/
def FreeAt (intents : List NetIntentView) (slug : String) (k : Nat) : Prop :=
  bypassName slug k ∉ idsOf intents ∧ ∀ j < k, bypassName slug j ∈ idsOf intents

/-- The stored ids push one slug on to a number, and the numbered name is the other one's. -/
def Pushed (intents : List NetIntentView) (slug other : String) : Prop :=
  ∃ k, FreeAt intents slug (k + 1) ∧ other = numbered slug (k + 1) ∧ FreeAt intents other 0

/-- Two slugs come by the same id. -/
def Clash (intents : List NetIntentView) (slug other : String) : Prop :=
  slug = other ∨ Pushed intents slug other ∨ Pushed intents other slug

section
variable {intents : List NetIntentView} {slug other via via' : String} {j k : Nat} {c : Char}

theorem FreeAt.unique (h : FreeAt intents slug j) (h' : FreeAt intents slug k) : j = k := by
  rcases Nat.lt_trichotomy j k with hlt | heq | hlt
  · exact absurd (h'.2 j hlt) h.1
  · exact heq
  · exact absurd (h.2 k hlt) h'.1

theorem bypassId_spec (via : String) (intents : List NetIntentView) :
    ∃ k, bypassId via intents [] = bypassName (bypassSlug via) k ∧
      FreeAt intents (bypassSlug via) k := by
  have hspec := @firstFree_spec _ _ _ (idsOf intents)
    (numbered_injective ("bypass-" ++ bypassSlug via))
  obtain ⟨k, heq, hfree, hbefore⟩ := hspec
  refine ⟨k, ?_, hfree, hbefore⟩
  unfold bypassId
  rw [List.append_nil]
  exact heq

theorem bypassId_fresh (via : String) (intents : List NetIntentView) :
    bypassId via intents [] ∉ idsOf intents := by
  obtain ⟨k, heq, hfree⟩ := bypassId_spec via intents
  rw [heq]
  exact hfree.1

/-- A number goes behind the slug. -/
theorem bypassName_eq (slug : String) (k : Nat) :
    bypassName slug k = "bypass-" ++ numbered slug k := by
  cases k with
  | zero => rfl
  | succ k =>
    show "bypass-" ++ slug ++ "-" ++ _ = "bypass-" ++ (slug ++ "-" ++ _)
    simp only [append_assoc]

theorem bypassName_inj (h : bypassName slug j = bypassName other k) :
    numbered slug j = numbered other k := by
  rw [bypassName_eq, bypassName_eq] at h
  have hlist := congrArg String.toList h
  rw [toList_append, toList_append] at hlist
  exact toList_injective (List.append_cancel_left hlist)

/-- Two slugs come by the same id where they are the same, or where the one is pushed on to the
other. -/
theorem bypassId_eq_iff : bypassId via intents [] = bypassId via' intents [] ↔
    Clash intents (bypassSlug via) (bypassSlug via') := by
  obtain ⟨j, hj, hfree⟩ := bypassId_spec via intents
  obtain ⟨k, hk, hfree'⟩ := bypassId_spec via' intents
  rw [hj, hk]
  constructor
  · intro h
    have hnumbered := bypassName_inj h
    cases j with
    | zero =>
      rw [numbered_zero] at hnumbered
      cases k with
      | zero =>
        rw [numbered_zero] at hnumbered
        exact .inl hnumbered
      | succ k => exact .inr (.inr ⟨k, hfree', hnumbered, hfree⟩)
    | succ j =>
      cases k with
      | zero =>
        rw [numbered_zero] at hnumbered
        exact .inr (.inl ⟨j, hfree, hnumbered.symm, hfree'⟩)
      | succ k => exact .inl (numbered_succ_inj hnumbered).1
  · rintro (hsame | ⟨i, hi, hother, hzero⟩ | ⟨i, hi, hother, hzero⟩)
    · rw [hsame] at hfree ⊢
      rw [hfree.unique hfree']
    · obtain rfl := hfree.unique hi
      obtain rfl := hfree'.unique hzero
      rw [bypassName_eq, bypassName_eq, ← hother, numbered_zero]
    · obtain rfl := hfree.unique hzero
      obtain rfl := hfree'.unique hi
      rw [bypassName_eq, bypassName_eq, ← hother, numbered_zero]

/-! ### The characters of an id -/

/-- A character that an id may have behind its first. -/
def IdChar (c : Char) : Prop :=
  (isAsciiLowercase c || isAsciiDigit c || c == '_' || c == '-') = true

instance (c : Char) : Decidable (IdChar c) := inferInstanceAs (Decidable (_ = true))

theorem idChar_iff : IdChar c ↔
    (97 ≤ c.toNat ∧ c.toNat ≤ 122) ∨ (48 ≤ c.toNat ∧ c.toNat ≤ 57) ∨ c = '_' ∨ c = '-' := by
  have hval : c.val.toNat = c.toNat := rfl
  simp only [IdChar, isAsciiLowercase, isAsciiDigit, Bool.or_eq_true, Bool.and_eq_true,
    decide_eq_true_eq, beq_iff_eq, Char.le_def, UInt32.le_iff_toNat_le, Char.reduceVal,
    UInt32.reduceToNat, hval, or_assoc]

theorem idChar_toLower (h : isAsciiAlphanumeric c.toLower = true) : IdChar c.toLower := by
  have hupper := not_isUpper_toLower c
  rw [isAsciiAlphanumeric, isAlphanum_iff, isLower_iff, isDigit_iff] at h
  rw [idChar_iff]
  exact (h.resolve_left hupper).imp_right .inl

theorem idChar_dash : IdChar '-' := by decide

theorem idChars_of_all {cs : List Char} (h : (cs.all fun c => decide (IdChar c)) = true) :
    ∀ c ∈ cs, IdChar c :=
  fun c hc => of_decide_eq_true (List.all_eq_true.mp h c hc)

theorem idChars_slugStep {state : List Char × Bool} (hstate : ∀ d ∈ state.1, IdChar d) :
    ∀ d ∈ (slugStep state c.toLower).1, IdChar d := by
  intro d hd
  unfold slugStep at hd
  split at hd
  · rename_i hkept
    rcases List.mem_append.mp hd with hd | hd
    · exact hstate d hd
    · rw [List.mem_singleton.mp hd]
      simp only [Bool.or_eq_true, beq_iff_eq, or_assoc] at hkept
      rcases hkept with halnum | hsign
      · exact idChar_toLower halnum
      · exact idChar_iff.mpr (.inr (.inr hsign))
  · split at hd
    · rcases List.mem_append.mp hd with hd | hd
      · exact hstate d hd
      · rw [List.mem_singleton.mp hd]
        exact idChar_dash
    · exact hstate d hd

theorem idChars_slug (base : List Char) :
    ∀ d ∈ ((base.map Char.toLower).foldl slugStep ([], false)).1, IdChar d := by
  have hfold : ∀ state : List Char × Bool, (∀ d ∈ state.1, IdChar d) →
      ∀ d ∈ ((base.map Char.toLower).foldl slugStep state).1, IdChar d := by
    induction base with
    | nil => exact fun state hstate => hstate
    | cons c base ih => exact fun state hstate => ih _ (idChars_slugStep hstate)
  exact hfold _ (by simp)

theorem mem_of_mem_trimDashes {cs : List Char} (h : c ∈ trimDashes cs) : c ∈ cs := by
  unfold trimDashes at h
  rw [List.mem_reverse] at h
  have hback := List.mem_reverse.mp ((List.dropWhile_sublist _).mem h)
  exact (List.dropWhile_sublist _).mem hback

theorem idChars_bypassSlug (base : String) : ∀ c ∈ (bypassSlug base).toList, IdChar c := by
  unfold bypassSlug
  simp only
  split
  · exact idChars_of_all (by decide)
  · rw [toList_ofList]
    intro c hc
    have hslug := mem_of_mem_trimDashes hc
    rw [asciiLower, toList_ofList] at hslug
    exact idChars_slug base.toList c hslug

theorem idChars_bypassName {slug : String} (h : ∀ c ∈ slug.toList, IdChar c) (k : Nat) :
    ∀ c ∈ (numbered slug k).toList, IdChar c := by
  cases k with
  | zero => exact h
  | succ k =>
    rw [toList_numbered_succ]
    intro c hc
    rcases List.mem_append.mp hc with hc | hc
    · exact h c hc
    · rcases List.mem_cons.mp hc with rfl | hc
      · exact idChar_dash
      · have hdigit := Nat.isDigit_of_mem_toDigits (by omega) (by omega) hc
        have hval : c.val.toNat = c.toNat := rfl
        simp only [Char.isDigit, Bool.and_eq_true, decide_eq_true_eq, ge_iff_le,
          UInt32.le_iff_toNat_le, Char.reduceVal, UInt32.reduceToNat, hval] at hdigit
        exact idChar_iff.mpr (.inr (.inl hdigit))

/-- Only its length can keep the id of a fix from being valid. -/
theorem validId_bypassId (via : String) (intents : List NetIntentView) :
    validId (bypassId via intents []) = true ↔
      (bypassId via intents []).utf8ByteSize ≤ maxIdLen := by
  obtain ⟨k, hk, -⟩ := bypassId_spec via intents
  have hlist : (bypassId via intents []).toList =
      'b' :: ("ypass-".toList ++ (numbered (bypassSlug via) k).toList) := by
    rw [hk, bypassName_eq, toList_append]
    rfl
  have hchars : ∀ c ∈ "ypass-".toList ++ (numbered (bypassSlug via) k).toList, IdChar c := by
    intro c hc
    rcases List.mem_append.mp hc with hc | hc
    · exact idChars_of_all (by decide) c hc
    · exact idChars_bypassName (idChars_bypassSlug via) k c hc
  rw [validId, hlist]
  have hrest : (isAsciiLowercase 'b' || isAsciiDigit 'b') = true ∧
      ("ypass-".toList ++ (numbered (bypassSlug via) k).toList).all
        (fun c => isAsciiLowercase c || isAsciiDigit c || c == '_' || c == '-') = true :=
    ⟨by decide, List.all_eq_true.mpr hchars⟩
  simp only [hrest.1, hrest.2, Bool.and_true, decide_eq_true_eq]

end

/-! ### The destinations of a fix -/

/-- An address that an intent may route. -/
def Routable (ip : IpAddr) : Prop :=
  ip.isLoopback = false ∧ ip.isMulticast = false ∧ isLinkLocal ip = false ∧
    ip.isUnspecified = false

instance (ip : IpAddr) : Decidable (Routable ip) := inferInstanceAs (Decidable (_ ∧ _))

section
variable {text : NetText} {ip : IpAddr} {ips : List IpAddr} {seen nets : List IpNet}
  {raws : List String}

theorem checkRoutable_toNet (ip : IpAddr) : checkRoutable ip.toNet = .ok () ↔ Routable ip := by
  have haddr : ip.toNet.trunc.addr = ip := by
    rw [IpAddr.trunc_toNet]
    cases ip <;> rfl
  have hhost : (ip.toNet.len == maxPrefixLen ip.toNet) = true := by
    cases ip <;> rfl
  unfold checkRoutable Routable
  simp only [haddr, hhost, Bool.and_true]
  split
  · rename_i hrefused
    simp only [Bool.or_eq_true] at hrefused
    refine iff_of_false (by simp) ?_
    rintro ⟨hloop, hmulti, hlink, hunspecified⟩
    simp [hloop, hmulti, hlink, hunspecified] at hrefused
  · rename_i hfine
    refine iff_of_true rfl ?_
    simpa [Bool.or_eq_true, not_or, and_assoc] using hfine

theorem parseDestination_host (htext : text.Lawful) (ip : IpAddr) :
    parseDestination text (renderNet ip.toNet) =
      (checkRoutable ip.toNet).map fun _ => ip.toNet := by
  have hparse := htext.parse_render ip.toNet
  rw [htext.render_eq] at hparse
  unfold parseDestination
  simp only [trim_renderNet, hparse, Option.some_or, IpAddr.trunc_toNet]
  cases checkRoutable ip.toNet <;> rfl

theorem parseDestinations_ok_iff : (∃ nets, parseDestinations text seen raws = .ok nets) ↔
    ∀ raw ∈ raws, ∃ net, parseDestination text raw = .ok net := by
  induction raws generalizing seen with
  | nil => simp [parseDestinations]
  | cons raw rest ih =>
    rw [List.forall_mem_cons]
    unfold parseDestinations
    cases hraw : parseDestination text raw with
    | error reason => simp [bind, Except.bind]
    | ok net =>
      simp only [bind, Except.bind]
      rw [ih]
      simp

theorem mem_of_parseDestinations (h : parseDestinations text seen raws = .ok nets) :
    (∀ net ∈ seen, net ∈ nets) ∧
      ∀ raw ∈ raws, ∀ net, parseDestination text raw = .ok net → net ∈ nets := by
  induction raws generalizing seen with
  | nil =>
    obtain rfl : seen = nets := by simpa [parseDestinations] using h
    exact ⟨fun _ hnet => hnet, by simp⟩
  | cons raw rest ih =>
    unfold parseDestinations at h
    cases hraw : parseDestination text raw with
    | error reason => simp [hraw, bind, Except.bind] at h
    | ok net =>
      simp only [hraw, bind, Except.bind] at h
      obtain ⟨hseen, hrest⟩ := ih h
      have hgrown : net ∈ nets ∧ ∀ old ∈ seen, old ∈ nets := by
        split at hseen
        · rename_i hmem
          exact ⟨hseen net (by simpa using hmem), hseen⟩
        · exact ⟨hseen net (by simp), fun old hold => hseen old (by simp [hold])⟩
      refine ⟨hgrown.2, ?_⟩
      rw [List.forall_mem_cons]
      refine ⟨?_, hrest⟩
      intro net' hnet'
      rw [hraw] at hnet'
      cases hnet'
      exact hgrown.1

/-! ### A fix -/

/-- The fix for servers under the id of an interface. -/
def fixFor (intents : List NetIntentView) (via : String) (ips : List IpAddr) : NetIntentSetParams :=
  bypassIntent (bypassId via intents []) ((ips.map renderIp).insertionSort (· ≤ ·))

theorem hostText (ip : IpAddr) :
    (renderIp ip ++ "/" ++ toString (if (renderIp ip).toList.contains ':' then 128 else 32)) =
      renderNet ip.toNet := by
  have hcolon : (renderIp ip).toList.contains ':' = !ip.isIpv4 := by
    rw [Bool.eq_iff_iff, List.contains_iff_mem, colon_mem_renderIp]
    simp
  have hlong : "/" ++ toString 128 = String.ofList ('/' :: Nat.toDigits 10 128) := by decide
  have hshort : "/" ++ toString 32 = String.ofList ('/' :: Nat.toDigits 10 32) := by decide
  rw [hcolon, append_assoc]
  cases ip with
  | v4 a =>
    show renderIp (.v4 a) ++ ("/" ++ toString 32) = _
    rw [hshort]
    rfl
  | v6 a =>
    show renderIp (.v6 a) ++ ("/" ++ toString 128) = _
    rw [hlong]
    rfl

/-- What a fix pins are the servers, each by its host prefix. -/
theorem destinations_fixFor (intents : List NetIntentView) (via : String) (ips : List IpAddr) :
    (fixFor intents via ips).destinations.Perm (ips.map fun ip => renderNet ip.toNet) := by
  have hsort : (((ips.map renderIp).insertionSort (· ≤ ·)).insertionSort (· ≤ ·)).Perm
      (ips.map renderIp) :=
    (List.perm_insertionSort _ _).trans (List.perm_insertionSort _ _)
  have hmap := hsort.map fun ip : String =>
    ip ++ "/" ++ toString (if ip.toList.contains ':' then 128 else 32)
  rw [List.map_map] at hmap
  have hhosts : (fun ip : String =>
      ip ++ "/" ++ toString (if ip.toList.contains ':' then 128 else 32)) ∘ renderIp =
        fun ip => renderNet ip.toNet := by
    funext ip
    exact hostText ip
  rw [hhosts] at hmap
  exact hmap

/-- `net.intent.set` takes a fix for these servers. -/
structure Fits (intents : List NetIntentView) (via : String) (ips : List IpAddr) : Prop where
  few : ips.length ≤ maxDestinations
  routable : ∀ ip ∈ ips, Routable ip
  short : ∀ k, FreeAt intents (bypassSlug via) k →
    (bypassName (bypassSlug via) k).utf8ByteSize ≤ maxIdLen

variable {intents : List NetIntentView} {via : String}

theorem short_iff : (∀ k, FreeAt intents (bypassSlug via) k →
    (bypassName (bypassSlug via) k).utf8ByteSize ≤ maxIdLen) ↔
      (bypassId via intents []).utf8ByteSize ≤ maxIdLen := by
  obtain ⟨k, hk, hfree⟩ := bypassId_spec via intents
  rw [hk]
  constructor
  · exact fun h => h k hfree
  · intro h j hj
    rw [hj.unique hfree]
    exact h

theorem length_destinations_fixFor (intents : List NetIntentView) (via : String)
    (ips : List IpAddr) : (fixFor intents via ips).destinations.length = ips.length := by
  rw [(destinations_fixFor intents via ips).length_eq, List.length_map]

variable (htext : text.Lawful)
include htext

/-- What the loop over the destinations of a fix comes to. -/
theorem parse_fixFor_iff :
    (∃ nets, parseDestinations text [] (fixFor intents via ips).destinations = .ok nets) ↔
      ∀ ip ∈ ips, Routable ip := by
  rw [parseDestinations_ok_iff]
  have hmem : ∀ raw, raw ∈ (fixFor intents via ips).destinations ↔
      raw ∈ ips.map fun ip => renderNet ip.toNet := by
    intro raw
    exact (destinations_fixFor intents via ips).mem_iff
  simp only [hmem, List.forall_mem_map, parseDestination_host htext]
  have hone : ∀ ip : IpAddr, (∃ net, ((checkRoutable ip.toNet).map fun _ => ip.toNet) =
      .ok net) ↔ Routable ip := by
    intro ip
    rw [← checkRoutable_toNet]
    cases checkRoutable ip.toNet <;> simp [Except.map]
  simp only [hone]

theorem normalize_fixFor_iff (hne : ips ≠ []) :
    (∃ intent, normalize text (fixFor intents via ips) = .ok intent) ↔ Fits intents via ips := by
  have hempty : (fixFor intents via ips).destinations.isEmpty = false := by
    rw [← Bool.not_eq_true, List.isEmpty_iff_length_eq_zero, length_destinations_fixFor]
    exact fun hzero => hne (List.length_eq_zero_iff.mp hzero)
  have hid : validId (fixFor intents via ips).id = true ↔
      (bypassId via intents []).utf8ByteSize ≤ maxIdLen := validId_bypassId via intents
  have hall : Fits intents via ips ↔ validId (fixFor intents via ips).id = true ∧
      ips.length ≤ maxDestinations ∧
      ∃ nets, parseDestinations text [] (fixFor intents via ips).destinations = .ok nets := by
    rw [hid, ← short_iff, parse_fixFor_iff htext]
    exact ⟨fun h => ⟨h.short, h.few, h.routable⟩, fun h => ⟨h.2.1, h.2.2, h.1⟩⟩
  have hpath : intentPath (fixFor intents via ips).path = .ok .direct := rfl
  simp only [hall, normalize_eq_ok, hpath, length_destinations_fixFor]
  rw [List.isEmpty_eq_false_iff] at hempty
  simp [hempty]

theorem normalize_fixFor {intent : Intent}
    (h : normalize text (fixFor intents via ips) = .ok intent) :
    intent.id = bypassId via intents [] ∧ intent.enabled = true ∧
      ∀ ip ∈ ips, ip.toNet ∈ intent.destinations := by
  obtain ⟨-, -, -, nets, path, hparse, -, rfl⟩ := normalize_eq_ok.mp h
  refine ⟨rfl, rfl, ?_⟩
  intro ip hip
  have hmem : renderNet ip.toNet ∈ (fixFor intents via ips).destinations :=
    (destinations_fixFor intents via ips).mem_iff.mpr (List.mem_map_of_mem hip)
  obtain ⟨net, hnet⟩ := parseDestinations_ok_iff.mp ⟨nets, hparse⟩ _ hmem
  have hsame : net = ip.toNet := by
    rw [parseDestination_host htext] at hnet
    cases hcheck : checkRoutable ip.toNet with
    | error reason => simp [hcheck, Except.map] at hnet
    | ok _ => simpa [hcheck, Except.map] using hnet.symm
  rw [← hsame]
  exact (mem_of_parseDestinations hparse).2 _ hmem net hnet

/-- An intent that routes the host prefix of a server covers the server. -/
theorem cidrCovers_render {net : IpNet} :
    cidrCovers text (text.render net) ip = net.containsAddr ip := by
  have hparse := htext.parse_render net
  rw [htext.render_eq] at hparse ⊢
  simp [cidrCovers, hparse]

end

/-! ### What an analysis proposes -/

section
variable (text : NetText) (intents : List NetIntentView) (routes : List RouteEntry)
  (interfaces : List NetworkInterface) (endpoints : List KnownEndpoint)

/-- The tunnel that the traffic to an unpinned server goes into now. -/
def tunnelOf (ip : IpAddr) : Option String :=
  if coveredByDirect text ip intents then none
  else ((longestPrefixMatch ip routes).map RouteEntry.interfaceName).filter fun name =>
    tunnelish name interfaces

/-- The servers whose traffic goes into the tunnel. -/
def swallowedBy (via : String) : List IpAddr :=
  (uniqueEndpoints endpoints).filter fun ip => tunnelOf text intents routes interfaces ip = some via

/-- The other servers that no intent pins. -/
def exposed : List IpAddr :=
  (uniqueEndpoints endpoints).filter fun ip =>
    tunnelOf text intents routes interfaces ip = none ∧ coveredByDirect text ip intents = false

/-- The interface of the first intent for half of all traffic or more. -/
def broadVia : Option String :=
  (intents.find? (isBroad text)).map fun broad => broad.path.interface.getD "?"

variable {text intents routes interfaces endpoints}

theorem swallowStep_eq (state : Swallowed) (ip : IpAddr) :
    swallowStep text intents routes interfaces state ip =
      match tunnelOf text intents routes interfaces ip with
      | none => state
      | some via => ⟨pushEntry via (renderIp ip) state.swallowed, ip :: state.claimed⟩ := by
  unfold swallowStep tunnelOf
  split
  · rfl
  · cases hroute : longestPrefixMatch ip routes with
    | none => rfl
    | some route =>
      cases htunnel : tunnelish route.interfaceName interfaces <;> simp [Option.filter, htunnel]

/-- The loop over the endpoints, after the first of them. -/
structure Found (text : NetText) (intents : List NetIntentView) (routes : List RouteEntry)
    (interfaces : List NetworkInterface) (ips : List IpAddr) (state : Swallowed) : Prop where
  sorted : state.swallowed.Pairwise fun a b => a.1 < b.1
  groups : ∀ via, (getField via state.swallowed).getD [] =
    (ips.filter fun ip => tunnelOf text intents routes interfaces ip = some via).map renderIp
  filled : ∀ via group, getField via state.swallowed = some group → group ≠ []
  claimed : ∀ ip, ip ∈ state.claimed ↔
    ip ∈ ips ∧ tunnelOf text intents routes interfaces ip ≠ none

theorem Found.step {ips : List IpAddr} {state : Swallowed}
    (h : Found text intents routes interfaces ips state) (ip : IpAddr) :
    Found text intents routes interfaces (ips ++ [ip])
      (swallowStep text intents routes interfaces state ip) := by
  rw [swallowStep_eq]
  cases htunnel : tunnelOf text intents routes interfaces ip with
  | none =>
    refine ⟨h.sorted, ?_, h.filled, ?_⟩
    · intro via
      simp [h.groups, List.filter_append, htunnel]
    · intro other
      rw [h.claimed, List.mem_append, List.mem_singleton]
      constructor
      · exact fun hother => ⟨.inl hother.1, hother.2⟩
      · rintro ⟨hmem | rfl, hsome⟩
        · exact ⟨hmem, hsome⟩
        · exact absurd htunnel hsome
  | some via =>
    refine ⟨pairwise_insertField h.sorted _ _, ?_, ?_, ?_⟩
    · intro other
      unfold pushEntry
      rw [getField_insertField, List.filter_append, List.map_append, ← h.groups]
      by_cases hother : other = via
      · subst hother
        simp [htunnel]
      · have hnot : ¬via = other := fun heq => hother heq.symm
        simp [hother, hnot, htunnel]
    · intro other group hgroup
      unfold pushEntry at hgroup
      rw [getField_insertField] at hgroup
      split at hgroup
      · cases hgroup
        simp
      · exact h.filled other group hgroup
    · intro other
      rw [List.mem_cons, h.claimed, List.mem_append, List.mem_singleton]
      constructor
      · rintro (rfl | hother)
        · exact ⟨.inr rfl, by simp [htunnel]⟩
        · exact ⟨.inl hother.1, hother.2⟩
      · rintro ⟨hmem | rfl, hsome⟩
        · exact .inr ⟨hmem, hsome⟩
        · exact .inl rfl

theorem found_foldl (ips : List IpAddr) : Found text intents routes interfaces ips
      (ips.foldl (swallowStep text intents routes interfaces) ⟨[], []⟩) := by
  induction ips using List.reverseRecOn with
  | nil => exact ⟨.nil, by simp [getField], by simp [getField], by simp⟩
  | append_singleton ips ip ih =>
    rw [List.foldl_append]
    exact ih.step ip

/-- All the fixes of the suggestions. -/
def fixesOf (suggestions : List IntentSuggestion) : List NetIntentSetParams :=
  suggestions.flatMap IntentSuggestion.fixes

variable {s : IntentSuggestion}

theorem conflictSuggestion_spec {intent : NetIntentView}
    (h : conflictSuggestion text routes intent = some s) : s.kind = .conflict ∧ s.fixes = [] := by
  obtain ⟨destination, -, hone⟩ := List.exists_of_findSome?_eq_some h
  obtain ⟨wanted, -, hrest⟩ := Option.bind_eq_some_iff.mp hone
  obtain ⟨foreign, -, hs⟩ := Option.bind_eq_some_iff.mp hrest
  cases hs
  exact ⟨rfl, rfl⟩

/-- The interfaces for which the second rule proposes a fix: at most one. -/
def broadVias (text : NetText) (intents : List NetIntentView) (routes : List RouteEntry)
    (interfaces : List NetworkInterface) (endpoints : List KnownEndpoint) : List String :=
  if exposed text intents routes interfaces endpoints = [] then []
  else (broadVia text intents).toList

section
variable {claimed : List IpAddr}
  (hclaimed : ∀ ip, ip ∈ claimed ↔ ip ∈ uniqueEndpoints endpoints ∧
    tunnelOf text intents routes interfaces ip ≠ none)
include hclaimed

/-- What the second rule looks at is what is exposed. -/
theorem uncovered_eq : ((uniqueEndpoints endpoints).filter fun ip =>
      !claimed.contains ip && !coveredByDirect text ip intents) =
        exposed text intents routes interfaces endpoints := by
  apply List.filter_congr
  intro ip hip
  have hcontains : claimed.contains ip = true ↔
      tunnelOf text intents routes interfaces ip ≠ none := by
    rw [List.contains_iff_mem, hclaimed, and_iff_right hip]
  rw [Bool.eq_iff_iff, Bool.and_eq_true, Bool.not_eq_true', Bool.not_eq_true', decide_eq_true_eq,
    ← Bool.not_eq_true, hcontains, not_not]

theorem uncoveredSuggestions_spec :
    fixesOf (uncoveredSuggestions text intents (uniqueEndpoints endpoints) claimed) =
        (broadVias text intents routes interfaces endpoints).map (fun via => fixFor intents via
          (exposed text intents routes interfaces endpoints)) ∧
      (broadVias text intents routes interfaces endpoints = [] →
        uncoveredSuggestions text intents (uniqueEndpoints endpoints) claimed = []) := by
  unfold uncoveredSuggestions broadVias broadVia
  rw [uncovered_eq hclaimed]
  cases hbroad : intents.find? (isBroad text) with
  | none => simp [fixesOf]
  | some broad =>
    have hempty : (((exposed text intents routes interfaces endpoints).map
        renderIp).insertionSort (· ≤ ·)).isEmpty = true ↔
        exposed text intents routes interfaces endpoints = [] := by
      rw [List.isEmpty_iff_length_eq_zero, List.length_insertionSort, List.length_map,
        List.length_eq_zero_iff]
    simp only [Option.map_some, Option.toList_some]
    by_cases hnone : exposed text intents routes interfaces endpoints = []
    · rw [if_pos (hempty.mpr hnone), if_pos hnone]
      exact ⟨rfl, fun _ => rfl⟩
    · rw [if_neg (fun h => hnone (hempty.mp h)), if_neg hnone]
      exact ⟨rfl, fun h => by cases h⟩

end

/-- The tunnels and the broad intent's interface, each with the servers that its fix pins. -/
theorem analyze_spec (text : NetText) (intents : List NetIntentView) (routes : List RouteEntry)
    (interfaces : List NetworkInterface) (endpoints : List KnownEndpoint) :
    ∃ keys : List String, keys.Nodup ∧
      (∀ via, via ∈ keys ↔ swallowedBy text intents routes interfaces endpoints via ≠ []) ∧
      fixesOf (analyze text intents routes interfaces endpoints) =
        (keys.map fun via => fixFor intents via
          (swallowedBy text intents routes interfaces endpoints via)) ++
        (broadVias text intents routes interfaces endpoints).map fun via => fixFor intents via
          (exposed text intents routes interfaces endpoints) := by
  have hfound := @found_foldl text intents routes interfaces (uniqueEndpoints endpoints)
  unfold analyze
  simp only
  generalize (uniqueEndpoints endpoints).foldl (swallowStep text intents routes interfaces)
    ⟨[], []⟩ = found at hfound ⊢
  have hgroup : ∀ group ∈ found.swallowed, group.2 =
      (swallowedBy text intents routes interfaces endpoints group.1).map renderIp := by
    intro group hmem
    have hget := hfound.groups group.1
    rw [getField_of_mem hfound.sorted hmem] at hget
    exact hget
  refine ⟨found.swallowed.map Prod.fst, ?_, ?_, ?_⟩
  · rw [List.nodup_iff_pairwise_ne, List.pairwise_map]
    apply hfound.sorted.imp
    intro group other hlt heq
    rw [heq] at hlt
    exact String.lt_irrefl _ hlt
  · intro via
    have hget := hfound.groups via
    constructor
    · intro hmem
      obtain ⟨group, hin, rfl⟩ := List.mem_map.mp hmem
      have hne := hfound.filled _ _ (getField_of_mem hfound.sorted hin)
      rw [hgroup group hin] at hne
      exact fun hnil => hne (by rw [hnil]; rfl)
    · intro hne
      cases hfield : getField via found.swallowed with
      | none =>
        rw [hfield] at hget
        exact absurd (List.map_eq_nil_iff.mp hget.symm) hne
      | some group => exact List.mem_map.mpr ⟨(via, group), mem_of_getField hfield, rfl⟩
  · have hconflicts : fixesOf ((intents.filter fun intent =>
        intent.status == .conflicted).filterMap (conflictSuggestion text routes)) = [] := by
      apply List.flatMap_eq_nil_iff.mpr
      intro s hs
      obtain ⟨intent, -, hone⟩ := List.mem_filterMap.mp hs
      exact (conflictSuggestion_spec hone).2
    have hfirst : fixesOf (found.swallowed.map (endpointSuggestion intents)) =
        (found.swallowed.map Prod.fst).map fun via => fixFor intents via
          (swallowedBy text intents routes interfaces endpoints via) := by
      rw [fixesOf, List.flatMap_map, List.map_map, List.map_eq_flatMap]
      apply List.flatMap_congr
      intro group hmem
      show [bypassIntent (bypassId group.1 intents []) (group.2.insertionSort (· ≤ ·))] =
        [fixFor intents group.1 (swallowedBy text intents routes interfaces endpoints group.1)]
      rw [hgroup group hmem]
      rfl
    rw [fixesOf, List.flatMap_append, List.flatMap_append]
    show fixesOf _ ++ fixesOf _ ++ fixesOf _ = _
    rw [hconflicts, hfirst, (uncoveredSuggestions_spec hfound.claimed).1, List.append_nil]

/-- With no server in danger, only conflicts are reported. -/
theorem kind_of_mem_analyze
    (hswallowed : ∀ via, swallowedBy text intents routes interfaces endpoints via = [])
    (hbroad : broadVias text intents routes interfaces endpoints = [])
    (h : s ∈ analyze text intents routes interfaces endpoints) : s.kind = .conflict := by
  have hfound := @found_foldl text intents routes interfaces (uniqueEndpoints endpoints)
  unfold analyze at h
  simp only at h
  generalize (uniqueEndpoints endpoints).foldl (swallowStep text intents routes interfaces)
    ⟨[], []⟩ = found at hfound h
  have hnone : found.swallowed = [] := by
    apply List.eq_nil_iff_forall_not_mem.mpr
    intro group hmem
    have hget := getField_of_mem hfound.sorted hmem
    have hitems := hfound.groups group.1
    rw [hget] at hitems
    apply hfound.filled _ _ hget
    have hall := hswallowed group.1
    unfold swallowedBy at hall
    rw [hall] at hitems
    exact hitems
  rw [hnone, (uncoveredSuggestions_spec hfound.claimed).2 hbroad] at h
  obtain ⟨intent, -, hone⟩ := List.mem_filterMap.mp h
  exact (conflictSuggestion_spec hone).1

end

/-! ### After the fixes are stored -/

section
variable {text : NetText} {status : String → ExplainStatus} {intents : List NetIntentView}
  {fixes : List NetIntentSetParams}
variable {intent : Intent}

theorem storeFix_new {fix : NetIntentSetParams}
    (hok : normalize text fix = .ok intent) (hfresh : intent.id ∉ idsOf intents) :
    storeFix text status intents fix = intents ++ [viewOf text status fix.path intent] := by
  have hnone : (intents.findIdx? fun stored => stored.id == intent.id) = none := by
    rw [List.findIdx?_eq_none_iff]
    intro stored hstored
    rw [beq_eq_false_iff_ne]
    exact fun heq => hfresh (List.mem_map.mpr ⟨stored, hstored, heq⟩)
  unfold storeFix
  rw [hok]
  simp only [hnone]

/-- Accepted fixes with new and different ids come behind what is stored. -/
theorem storeFixes_new
    (hfixes : ∀ fix ∈ fixes, ∃ intent, normalize text fix = .ok intent ∧ intent.id = fix.id)
    (hfresh : ∀ fix ∈ fixes, fix.id ∉ idsOf intents)
    (hnodup : (fixes.map NetIntentSetParams.id).Nodup) :
    ∃ views, storeFixes text status intents fixes = intents ++ views ∧
      (∀ view ∈ views, ∃ fix ∈ fixes, view.path = fix.path) ∧
      ∀ fix ∈ fixes, ∃ intent, normalize text fix = .ok intent ∧
        viewOf text status fix.path intent ∈ views := by
  induction fixes generalizing intents with
  | nil => exact ⟨[], by simp [storeFixes], by simp, by simp⟩
  | cons fix rest ih =>
    rw [List.map_cons, List.nodup_cons] at hnodup
    rw [List.forall_mem_cons] at hfixes hfresh
    obtain ⟨⟨intent, hok, hid⟩, hrest⟩ := hfixes
    have hone : storeFix text status intents fix =
        intents ++ [viewOf text status fix.path intent] :=
      storeFix_new hok (by rw [hid]; exact hfresh.1)
    have hgrown : ∀ f ∈ rest, f.id ∉ idsOf (intents ++ [viewOf text status fix.path intent]) := by
      intro f hf hmem
      rw [idsOf, List.map_append, List.mem_append] at hmem
      rcases hmem with hold | hnew
      · exact hfresh.2 f hf hold
      · have hsame : f.id = intent.id := List.mem_singleton.mp hnew
        rw [hid] at hsame
        exact hnodup.1 (List.mem_map.mpr ⟨f, hf, hsame⟩)
    obtain ⟨views, hstored, hpaths, hall⟩ := ih hrest hgrown hnodup.2
    refine ⟨viewOf text status fix.path intent :: views, ?_, ?_, ?_⟩
    · show storeFixes text status (storeFix text status intents fix) rest = _
      rw [hone, hstored, List.append_assoc, List.singleton_append]
    · rw [List.forall_mem_cons]
      refine ⟨⟨fix, by simp, rfl⟩, ?_⟩
      intro view hview
      obtain ⟨f, hf, hpath⟩ := hpaths view hview
      exact ⟨f, List.mem_cons_of_mem _ hf, hpath⟩
    · rw [List.forall_mem_cons]
      refine ⟨⟨intent, hok, by simp⟩, ?_⟩
      intro f hf
      obtain ⟨intent', hok', hmem⟩ := hall f hf
      exact ⟨intent', hok', List.mem_cons_of_mem _ hmem⟩

/-- A stored fix pins its servers. -/
theorem covered_of_stored {via : String} {ips : List IpAddr} {ip : IpAddr}
    {views : List NetIntentView} (htext : text.Lawful)
    (hok : normalize text (fixFor intents via ips) = .ok intent) (hip : ip ∈ ips)
    (hmem : viewOf text status (fixFor intents via ips).path intent ∈ views) :
    coveredByDirect text ip views = true := by
  obtain ⟨-, henabled, hdestinations⟩ := normalize_fixFor htext hok
  apply List.any_eq_true.mpr
  refine ⟨_, hmem, ?_⟩
  rw [Bool.and_eq_true, Bool.and_eq_true]
  refine ⟨⟨henabled, rfl⟩, ?_⟩
  apply List.any_eq_true.mpr
  refine ⟨text.render ip.toNet, List.mem_map_of_mem (hdestinations ip hip), ?_⟩
  rw [cidrCovers_render htext]
  exact IpNet.containsNet_self ip.toNet

theorem coveredByDirect_append (ip : IpAddr) (views : List NetIntentView) :
    coveredByDirect text ip (intents ++ views) =
      (coveredByDirect text ip intents || coveredByDirect text ip views) :=
  List.any_append

end

/-! ### When all fixes work -/

/-- The fixes have ids of their own, `net.intent.set` takes all of them, and once they are stored
no server is in danger any more. -/
structure DoctorWorks (text : NetText) (intents : List NetIntentView) (routes : List RouteEntry)
    (interfaces : List NetworkInterface) (endpoints : List KnownEndpoint) : Prop where
  distinct : ((fixesOf (analyze text intents routes interfaces endpoints)).map
    NetIntentSetParams.id).Nodup
  fresh : ∀ fix ∈ fixesOf (analyze text intents routes interfaces endpoints),
    ∀ intent ∈ intents, fix.id ≠ intent.id
  accepted : ∀ fix ∈ fixesOf (analyze text intents routes interfaces endpoints),
    ∃ intent, normalize text fix = .ok intent
  cured : ∀ status, ∀ s ∈ analyze text (storeFixes text status intents
    (fixesOf (analyze text intents routes interfaces endpoints))) routes interfaces endpoints,
      s.kind ≠ .endpointViaTunnel ∧ s.kind ≠ .uncoveredEndpoints

/-- The interfaces in question have slugs that do not clash, and each fix fits. -/
structure Treatable (text : NetText) (intents : List NetIntentView) (routes : List RouteEntry)
    (interfaces : List NetworkInterface) (endpoints : List KnownEndpoint) : Prop where
  apart : ∀ via via', swallowedBy text intents routes interfaces endpoints via ≠ [] →
    swallowedBy text intents routes interfaces endpoints via' ≠ [] → via ≠ via' →
      ¬Clash intents (bypassSlug via) (bypassSlug via')
  beside : ∀ via via', swallowedBy text intents routes interfaces endpoints via ≠ [] →
    exposed text intents routes interfaces endpoints ≠ [] → broadVia text intents = some via' →
      ¬Clash intents (bypassSlug via) (bypassSlug via')
  tunnels : ∀ via, swallowedBy text intents routes interfaces endpoints via ≠ [] →
    Fits intents via (swallowedBy text intents routes interfaces endpoints via)
  broad : ∀ via, exposed text intents routes interfaces endpoints ≠ [] →
    broadVia text intents = some via →
      Fits intents via (exposed text intents routes interfaces endpoints)

section
variable {text : NetText} {intents : List NetIntentView} {routes : List RouteEntry}
  {interfaces : List NetworkInterface} {endpoints : List KnownEndpoint} {fix : NetIntentSetParams}

theorem mem_broadVias {via : String} : via ∈ broadVias text intents routes interfaces endpoints ↔
      exposed text intents routes interfaces endpoints ≠ [] ∧ broadVia text intents = some via := by
  unfold broadVias
  split
  · rename_i hnone
    simp [hnone]
  · rename_i hsome
    simp [hsome]

theorem nodup_map_broadVias (f : String → String) :
    ((broadVias text intents routes interfaces endpoints).map f).Nodup := by
  unfold broadVias
  split
  · exact List.nodup_nil
  · cases broadVia text intents <;> simp

/-- The servers of a proposed fix, by the interface. -/
theorem mem_fixesOf : fix ∈ fixesOf (analyze text intents routes interfaces endpoints) ↔
      (∃ via, swallowedBy text intents routes interfaces endpoints via ≠ [] ∧
        fix = fixFor intents via (swallowedBy text intents routes interfaces endpoints via)) ∨
      ∃ via, via ∈ broadVias text intents routes interfaces endpoints ∧
        fix = fixFor intents via (exposed text intents routes interfaces endpoints) := by
  obtain ⟨keys, -, hkeys, hfixes⟩ := analyze_spec text intents routes interfaces endpoints
  rw [hfixes, List.mem_append, List.mem_map, List.mem_map]
  simp only [hkeys, eq_comm]

theorem distinct_iff :
    ((fixesOf (analyze text intents routes interfaces endpoints)).map NetIntentSetParams.id).Nodup ↔
      (∀ via via', swallowedBy text intents routes interfaces endpoints via ≠ [] →
        swallowedBy text intents routes interfaces endpoints via' ≠ [] → via ≠ via' →
          ¬Clash intents (bypassSlug via) (bypassSlug via')) ∧
      ∀ via via', swallowedBy text intents routes interfaces endpoints via ≠ [] →
        via' ∈ broadVias text intents routes interfaces endpoints →
          ¬Clash intents (bypassSlug via) (bypassSlug via') := by
  obtain ⟨keys, hnodup, hkeys, hfixes⟩ := analyze_spec text intents routes interfaces endpoints
  have hids : (fixesOf (analyze text intents routes interfaces endpoints)).map
      NetIntentSetParams.id = (keys ++ broadVias text intents routes interfaces endpoints).map
        fun via => bypassId via intents [] := by
    rw [hfixes, List.map_append, List.map_append, List.map_map, List.map_map]
    rfl
  rw [hids, List.map_append, List.nodup_append, List.nodup_map_iff_inj_on hnodup,
    and_iff_right (nodup_map_broadVias _)]
  simp only [List.forall_mem_map, ne_eq, bypassId_eq_iff, ← hkeys]
  constructor
  · rintro ⟨hinj, happart⟩
    refine ⟨?_, fun via via' hvia hvia' => happart via hvia via' hvia'⟩
    intro via via' hvia hvia' hne hclash
    exact hne (hinj via hvia via' hvia' hclash)
  · rintro ⟨happart, hbeside⟩
    refine ⟨?_, fun via hvia via' hvia' => hbeside via via' hvia hvia'⟩
    intro via hvia via' hvia' hclash
    by_contra hne
    exact happart via via' hvia hvia' hne hclash

theorem accepted_iff (htext : text.Lawful) :
    (∀ fix ∈ fixesOf (analyze text intents routes interfaces endpoints),
        ∃ intent, normalize text fix = .ok intent) ↔
      (∀ via, swallowedBy text intents routes interfaces endpoints via ≠ [] →
        Fits intents via (swallowedBy text intents routes interfaces endpoints via)) ∧
      ∀ via, via ∈ broadVias text intents routes interfaces endpoints →
        Fits intents via (exposed text intents routes interfaces endpoints) := by
  constructor
  · intro h
    constructor
    · intro via hvia
      exact (normalize_fixFor_iff htext hvia).mp (h _ (mem_fixesOf.mpr (.inl ⟨via, hvia, rfl⟩)))
    · intro via hvia
      exact (normalize_fixFor_iff htext (mem_broadVias.mp hvia).1).mp
        (h _ (mem_fixesOf.mpr (.inr ⟨via, hvia, rfl⟩)))
  · rintro ⟨htunnels, hbroad⟩ fix hfix
    rcases mem_fixesOf.mp hfix with ⟨via, hvia, rfl⟩ | ⟨via, hvia, rfl⟩
    · exact (normalize_fixFor_iff htext hvia).mpr (htunnels via hvia)
    · exact (normalize_fixFor_iff htext (mem_broadVias.mp hvia).1).mpr (hbroad via hvia)

theorem fresh_fixes (hfix : fix ∈ fixesOf (analyze text intents routes interfaces endpoints)) :
    fix.id ∉ idsOf intents := by
  rcases mem_fixesOf.mp hfix with ⟨via, -, rfl⟩ | ⟨via, -, rfl⟩
  · exact bypassId_fresh via intents
  · exact bypassId_fresh via intents

/-- Once all the fixes are stored, every server that was in danger is pinned, and no intent of
the fixes takes all traffic. -/
theorem cured_of_stored (htext : text.Lawful) (status : String → ExplainStatus)
    (hdistinct : ((fixesOf (analyze text intents routes interfaces endpoints)).map
      NetIntentSetParams.id).Nodup)
    (haccepted : ∀ fix ∈ fixesOf (analyze text intents routes interfaces endpoints),
      ∃ intent, normalize text fix = .ok intent) :
    ∀ s ∈ analyze text (storeFixes text status intents
      (fixesOf (analyze text intents routes interfaces endpoints))) routes interfaces endpoints,
        s.kind = .conflict := by
  have hok : ∀ fix ∈ fixesOf (analyze text intents routes interfaces endpoints),
      ∃ intent, normalize text fix = .ok intent ∧ intent.id = fix.id := by
    intro fix hfix
    obtain ⟨intent, hintent⟩ := haccepted fix hfix
    refine ⟨intent, hintent, ?_⟩
    rcases mem_fixesOf.mp hfix with ⟨via, -, rfl⟩ | ⟨via, -, rfl⟩
    · exact (normalize_fixFor htext hintent).1
    · exact (normalize_fixFor htext hintent).1
  obtain ⟨views, hstored, hpaths, hviews⟩ := @storeFixes_new text status intents _ hok
    (fun fix hfix => fresh_fixes hfix) hdistinct
  rw [hstored]
  have hpinned : ∀ via ips, fixFor intents via ips ∈
      fixesOf (analyze text intents routes interfaces endpoints) → ∀ ip ∈ ips,
        coveredByDirect text ip (intents ++ views) = true := by
    intro via ips hfix ip hip
    obtain ⟨intent, hintent, hmem⟩ := hviews _ hfix
    rw [coveredByDirect_append, covered_of_stored htext hintent hip hmem, Bool.or_true]
  -- A server that is still not pinned was neither swallowed nor pinned before.
  have hleft : ∀ ip ∈ uniqueEndpoints endpoints,
      coveredByDirect text ip (intents ++ views) = false → coveredByDirect text ip intents = false ∧
          tunnelOf text intents routes interfaces ip = none := by
    intro ip hip hfree
    rw [coveredByDirect_append, Bool.or_eq_false_iff] at hfree
    refine ⟨hfree.1, ?_⟩
    by_contra hsome
    obtain ⟨via, hvia⟩ := Option.ne_none_iff_exists'.mp hsome
    have hmem : ip ∈ swallowedBy text intents routes interfaces endpoints via :=
      List.mem_filter.mpr ⟨hip, by simpa using hvia⟩
    have hfix := mem_fixesOf.mpr (.inl ⟨via, List.ne_nil_of_mem hmem, rfl⟩)
    have hcovered := hpinned via _ hfix ip hmem
    rw [coveredByDirect_append, hfree.1, hfree.2] at hcovered
    cases hcovered
  have htunnel : ∀ ip ∈ uniqueEndpoints endpoints,
      tunnelOf text (intents ++ views) routes interfaces ip = none := by
    intro ip hip
    cases hcovered : coveredByDirect text ip (intents ++ views) with
    | true => simp [tunnelOf, hcovered]
    | false =>
      obtain ⟨hbefore, hnone⟩ := hleft ip hip hcovered
      rw [← hnone]
      simp [tunnelOf, hcovered, hbefore]
  have hbroadVia : broadVia text (intents ++ views) = broadVia text intents := by
    have hdirect : views.find? (isBroad text) = none := by
      rw [List.find?_eq_none]
      intro view hview
      obtain ⟨fix, hfix, hpath⟩ := hpaths view hview
      have hkind : view.path.kind = "direct" := by
        rw [hpath]
        rcases mem_fixesOf.mp hfix with ⟨via, -, rfl⟩ | ⟨via, -, rfl⟩ <;> rfl
      simp [isBroad, hkind]
    rw [broadVia, broadVia, List.find?_append, hdirect, Option.or_none]
  intro s hs
  refine kind_of_mem_analyze ?_ ?_ hs
  · intro via
    apply List.filter_eq_nil_iff.mpr
    intro ip hip
    simp [htunnel ip hip]
  · apply List.eq_nil_iff_forall_not_mem.mpr
    intro via hvia
    obtain ⟨hexposed, hvia⟩ := mem_broadVias.mp hvia
    rw [hbroadVia] at hvia
    obtain ⟨ip, hip⟩ := List.exists_mem_of_ne_nil _ hexposed
    obtain ⟨hmem, hboth⟩ := List.mem_filter.mp hip
    obtain ⟨-, hfree⟩ := of_decide_eq_true hboth
    obtain ⟨hbefore, hnone⟩ := hleft ip hmem hfree
    have hwas : ip ∈ exposed text intents routes interfaces endpoints :=
      List.mem_filter.mpr ⟨hmem, by simp [hbefore, hnone]⟩
    have hfix := mem_fixesOf.mpr
      (.inr ⟨via, mem_broadVias.mpr ⟨List.ne_nil_of_mem hwas, hvia⟩, rfl⟩)
    have hcovered := hpinned via _ hfix ip hwas
    rw [hfree] at hcovered
    cases hcovered

/-- All the fixes of an analysis work exactly when the interfaces have slugs that do not clash
and no fix is too large, too long in its name or for an address that cannot be routed. -/
theorem doctor_works_iff (text : NetText) (htext : text.Lawful) (intents : List NetIntentView)
    (routes : List RouteEntry) (interfaces : List NetworkInterface)
    (endpoints : List KnownEndpoint) :
    DoctorWorks text intents routes interfaces endpoints ↔
      Treatable text intents routes interfaces endpoints := by
  constructor
  · intro h
    obtain ⟨hapart, hbeside⟩ := distinct_iff.mp h.distinct
    obtain ⟨htunnels, hbroad⟩ := (accepted_iff htext).mp h.accepted
    exact
      { apart := hapart
        beside := fun via via' hvia hsome hvia' =>
          hbeside via via' hvia (mem_broadVias.mpr ⟨hsome, hvia'⟩)
        tunnels := htunnels
        broad := fun via hsome hvia => hbroad via (mem_broadVias.mpr ⟨hsome, hvia⟩) }
  · intro h
    have hdistinct := distinct_iff.mpr ⟨h.apart, fun via via' hvia hvia' =>
      h.beside via via' hvia (mem_broadVias.mp hvia').1 (mem_broadVias.mp hvia').2⟩
    have haccepted := (accepted_iff htext).mpr ⟨h.tunnels, fun via hvia =>
      h.broad via (mem_broadVias.mp hvia).1 (mem_broadVias.mp hvia).2⟩
    refine ⟨hdistinct, ?_, haccepted, ?_⟩
    · intro fix hfix intent hintent heq
      exact fresh_fixes hfix (List.mem_map.mpr ⟨intent, hintent, heq.symm⟩)
    · intro status s hs
      rw [cured_of_stored htext status hdistinct haccepted s hs]
      exact ⟨by simp, by simp⟩

end

/-! ### A tunnel that takes one server now and all traffic later -/

/-- `10.9.0.1`, whose network is behind the tunnel. -/
def officeServer : KnownEndpoint := ⟨.v4 0x0a090001, "office"⟩

/-- `203.0.113.7`, which no route leads to. -/
def cafeServer : KnownEndpoint := ⟨.v4 0xcb007107, "cafe"⟩

def officeRoutes : List RouteEntry := [⟨.v4 0x0a090000, 16, none, 12, "utun4", 0⟩]

/-- All traffic is to go through the tunnel. -/
def everything : NetIntentView :=
  { id := "everything"
    destinations := ["0.0.0.0/0"]
    path := ⟨"interface", some "utun4", none⟩
    enabled := true
    status := .effective }

/-- The one server behind the tunnel is pinned for good. -/
theorem office_server_pinned : DoctorWorks ipnetText [] officeRoutes [] [officeServer] := by
  have htunnel : tunnelOf ipnetText [] officeRoutes [] officeServer.ip = some "utun4" := by
    decide
  have hvia : ∀ via, swallowedBy ipnetText [] officeRoutes [] [officeServer] via ≠ [] →
      via = "utun4" ∧
        swallowedBy ipnetText [] officeRoutes [] [officeServer] via = [officeServer.ip] := by
    intro via hne
    have hone : uniqueEndpoints [officeServer] = [officeServer.ip] := rfl
    unfold swallowedBy at hne ⊢
    rw [hone] at hne ⊢
    by_cases heq : via = "utun4"
    · simp [htunnel, heq]
    · simp [htunnel, Ne.symm heq] at hne
  apply (doctor_works_iff ipnetText ipnetText_lawful [] officeRoutes [] [officeServer]).mpr
  constructor
  · intro via via' h h' hne
    exact absurd ((hvia via h).1.trans (hvia via' h').1.symm) hne
  · intro via via' _ _ hnone
    cases hnone
  · intro via h
    obtain ⟨rfl, hips⟩ := hvia via h
    rw [hips]
    exact ⟨by decide, by decide, short_iff.mpr (by decide)⟩
  · intro via _ hnone
    cases hnone

/-- Both fixes are for the same interface, and each looks for its id by itself. -/
theorem one_tunnel_two_fixes :
    ¬∀ (text : NetText), text.Lawful → ∀ intents routes interfaces endpoints,
      DoctorWorks text intents routes interfaces endpoints := by
  intro h
  have hworks := h ipnetText ipnetText_lawful [everything] officeRoutes []
    [officeServer, cafeServer]
  have hids : (fixesOf (analyze ipnetText [everything] officeRoutes []
      [officeServer, cafeServer])).map NetIntentSetParams.id =
        ["bypass-utun4", "bypass-utun4"] := by decide
  have hdistinct := hworks.distinct
  rw [hids] at hdistinct
  exact absurd hdistinct (by decide)

end NetOrchestrator.Core.IntentDoctor
