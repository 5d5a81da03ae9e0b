import NetOrchestrator.Core.GeoData
import NetOrchestrator.Lib.Wire

/-!
# `Proofs.GeoData`: the geo databases read what was written

`GeoSite` and `GeoIp` are what the writer of a database has: domains with attributes of a type of
their own, networks with a flag. The `Writes` relations say when the bytes of a message hold such
an entry: its own fields in any order, other fields anywhere between them.

The proof goes up the four levels of messages. `pbFields_encode` turns the bytes of a message into
its list of fields. On that list each loop is a fold, and `foldl_component` reads one component of
a fold off the values of one field.

An attribute without a name is dropped like a falsy one (`unnamed_attribute_dropped`).
-/

namespace NetOrchestrator.Core

open Lib List Option Bool Nat
open Net
open Daemon (asciiLower)

/-! ### The stepper undoes the encoding -/

section
variable {n value shift : Nat} {rest : List UInt8}

theorem low_bits_last (h : n < 128) :
    (UInt8.ofNat n &&& 0x7f).toNat = n ∧ UInt8.ofNat n &&& 0x80 = 0 := by
  have hall : ((List.range 128).all fun m =>
      (UInt8.ofNat m &&& 0x7f).toNat = m ∧ UInt8.ofNat m &&& 0x80 = 0) = true := by decide
  exact of_decide_eq_true (all_eq_true.mp hall n (mem_range.mpr h))

theorem low_bits_more (h : n < 128) :
    (UInt8.ofNat (n + 128) &&& 0x7f).toNat = n ∧ UInt8.ofNat (n + 128) &&& 0x80 ≠ 0 := by
  have hall : ((List.range 128).all fun m =>
      (UInt8.ofNat (m + 128) &&& 0x7f).toNat = m ∧ UInt8.ofNat (m + 128) &&& 0x80 ≠ 0) = true := by
    decide
  exact of_decide_eq_true (all_eq_true.mp hall n (mem_range.mpr h))

/-- One digit joins the ones below it. -/
theorem or_digit (hvalue : value < 2 ^ shift) (hfits : n * 2 ^ shift < 2 ^ 64) :
    value ||| (n <<< shift) % 2 ^ 64 = value + n * 2 ^ shift := by
  rw [Nat.shiftLeft_eq, Nat.mod_eq_of_lt hfits, Nat.or_comm, Nat.mul_comm,
    ← Nat.two_pow_add_eq_or_of_lt hvalue]
  omega

/-- A number above its lowest digit. -/
theorem split_digit (n shift : Nat) :
    n % 128 * 2 ^ shift + n / 128 * 2 ^ (shift + 7) = n * 2 ^ shift := by
  have hpow : n / 128 * 2 ^ (shift + 7) = n / 128 * 128 * 2 ^ shift := by
    rw [Nat.pow_add, Nat.mul_comm (2 ^ shift), ← Nat.mul_assoc]
  rw [hpow, ← Nat.add_mul, Nat.add_comm, Nat.div_add_mod']

/-- The loop, from the digits read so far. The induction is on the digits that are left. -/
theorem pbVarintFrom_varint (hvalue : value < 2 ^ shift) (hfits : n * 2 ^ shift < 2 ^ 64) :
    pbVarintFrom value shift (varint n ++ rest) = some (value + n * 2 ^ shift, rest) := by
  induction n using Nat.strongRecOn generalizing value shift with
  | ind n ih =>
    by_cases hlast : n < 128
    · obtain ⟨hlow, hhigh⟩ := low_bits_last hlast
      rw [varint_of_lt hlast, singleton_append, pbVarintFrom, hlow, or_digit hvalue hfits]
      exact if_pos hhigh
    · have hmore : 128 ≤ n := by omega
      have hsplit := split_digit n shift
      have hpow : 2 ^ (shift + 7) = 128 * 2 ^ shift := by rw [Nat.pow_add, Nat.mul_comm]
      have hdigit : n % 128 * 2 ^ shift ≤ 127 * 2 ^ shift := mul_le_mul_right _ (by omega)
      -- a further digit is a bit at `shift + 7`, and the value has no bit from 64 on
      have hroom : shift + 7 < 64 := by
        have hle : 128 * 2 ^ shift ≤ n * 2 ^ shift := mul_le_mul_right _ hmore
        have hlt : 2 ^ (shift + 7) < 2 ^ 64 := by omega
        exact (Nat.pow_lt_pow_iff_right (by decide)).mp hlt
      obtain ⟨hlow, hhigh⟩ := low_bits_more (mod_lt n (by decide : 0 < 128))
      rw [varint_of_le hmore, cons_append, pbVarintFrom, hlow, or_digit hvalue (by omega)]
      rw [if_neg hhigh, if_neg (by omega), ih (n / 128) (by omega) (by omega) (by omega),
        ← hsplit, add_assoc]

theorem pbVarint_varint (h : n < 2 ^ 64) : pbVarint (varint n ++ rest) = some (n, rest) := by
  rw [pbVarint, pbVarintFrom_varint (by decide) (by simpa using h)]
  simp

theorem pbSkip_append {size : Nat} {data : List UInt8} (h : data.length = size) :
    pbSkip size (data ++ rest) = some (data, rest) := by
  subst h
  rw [pbSkip, if_neg (by simp), take_left, drop_left]

/-- What the stepper makes of a value: one of fixed width is skipped. -/
def readValue : WireValue → PbField
  | .varint v => .varint v.toNat
  | .fixed64 _ => .varint 0
  | .len data => .len data
  | .fixed32 _ => .varint 0

theorem pbField_bytes {field : WireField}
    (hlen : ∀ data, field.value = .len data → data.length < 2 ^ 64) :
    pbField (field.bytes ++ rest) = some ((field.number.val, readValue field.value), rest) := by
  obtain ⟨number, value⟩ := field
  have hkind : value.kind < 8 := by cases value <;> simp [WireValue.kind]
  have hnumber := number.isLt
  have htag : 8 * number.val + value.kind < 2 ^ 64 := by omega
  have hfield : (8 * number.val + value.kind) >>> 3 = number := by
    rw [shiftRight_eq_div_pow]
    omega
  have hlow : (8 * number.val + value.kind) &&& 7 = value.kind := by
    rw [show (7 : Nat) = 2 ^ 3 - 1 from rfl, and_two_pow_sub_one_eq_mod]
    omega
  rw [pbField, WireField.bytes, append_assoc, pbVarint_varint htag]
  simp only [bind_eq_bind, bind_some, hfield, hlow]
  rw [if_neg (by omega)]
  cases value with
  | varint v =>
    show (pbVarint (varint v.toNat ++ rest)).bind _ = _
    rw [pbVarint_varint v.toNat_lt]
    rfl
  | fixed64 bytes =>
    show (pbSkip 8 (bytes.toList ++ rest)).bind _ = _
    rw [pbSkip_append Vector.length_toList]
    rfl
  | len data =>
    show (pbVarint (varint data.length ++ data ++ rest)).bind _ = _
    rw [append_assoc, pbVarint_varint (hlen data rfl), bind_some]
    show (pbSkip data.length (data ++ rest)).bind _ = _
    rw [pbSkip_append rfl]
    rfl
  | fixed32 bytes =>
    show (pbSkip 4 (bytes.toList ++ rest)).bind _ = _
    rw [pbSkip_append Vector.length_toList]
    rfl

theorem pbFields_nil : pbFields [] = [] := by
  rw [pbFields]
  rfl

theorem pbFields_of_pbField {buf : List UInt8} {field : Nat × PbField}
    (h : pbField buf = some (field, rest)) : pbFields buf = field :: pbFields rest := by
  rw [pbFields, h]

/-- The loop goes through the fields of a message, whatever they are. -/
theorem pbFields_encode {fields : List WireField} (h : (encode fields).length < 2 ^ 64) :
    pbFields (encode fields) = fields.map fun field => (field.number.val, readValue field.value) := by
  induction fields with
  | nil => exact pbFields_nil
  | cons field fields ih =>
    have hlen : ∀ data, field.value = .len data → data.length < 2 ^ 64 := fun data hvalue =>
      (length_le_of_mem (mem_cons_self ..) hvalue).trans_lt h
    have htail : (encode fields).length < 2 ^ 64 := by
      rw [encode_cons, length_append] at h
      omega
    rw [encode_cons, pbFields_of_pbField (pbField_bytes hlen), ih htail]
    rfl

end

/-! ### Loops over fields -/

section
variable {σ τ : Type} {fields : List WireField} {step : σ → Nat × PbField → σ}

/-- What is made of a field, by its kind. -/
def PbField.fold (onLen : List UInt8 → τ) (onVarint : Nat → τ) : PbField → τ
  | .len bytes => onLen bytes
  | .varint v => onVarint v

/-- The part of a loop's state that only the fields under `number` change. -/
theorem foldl_component (part : σ → τ) (number : Nat) (update : τ → PbField → τ)
    (hsame : ∀ state f, part (step state (number, f)) = update (part state) f)
    (hother : ∀ state field, field.1 ≠ number → part (step state field) = part state) (state : σ)
    (h : (encode fields).length < 2 ^ 64) : part ((pbFields (encode fields)).foldl step state) =
      ((valuesOf number fields).map readValue).foldl update (part state) := by
  rw [pbFields_encode h]
  clear h
  induction fields generalizing state with
  | nil => rfl
  | cons field fields ih =>
    rw [map_cons, foldl_cons, ih]
    by_cases hnumber : field.number.val = number
    · have hvalues : valuesOf number (field :: fields) = field.value :: valuesOf number fields := by
        simp [valuesOf, hnumber]
      rw [hvalues, hnumber, hsame]
      rfl
    · have hvalues : valuesOf number (field :: fields) = valuesOf number fields := by
        simp [valuesOf, hnumber]
      rw [hvalues, hother state _ hnumber]

/-- The part of a loop's state that collects what it makes of embedded messages. -/
theorem foldl_messages {α β : Type} {items : List α} {writes : α → List WireField → Prop}
    (part : σ → List β) (number : Nat) {parse : List UInt8 → List β} {out : α → List β}
    (h : WritesRepeated number writes items fields) (hlen : (encode fields).length < 2 ^ 64)
    (hparse : ∀ a body, writes a body → (encode body).length < 2 ^ 64 → parse (encode body) = out a)
    (hlens : ∀ state body, part (step state (number, .len body)) = part state ++ parse body)
    (hnumbers : ∀ state v, part (step state (number, .varint v)) = part state)
    (hother : ∀ state field, field.1 ≠ number → part (step state field) = part state) (state : σ) :
    part ((pbFields (encode fields)).foldl step state) = part state ++ items.flatMap out := by
  set update : List β → PbField → List β := fun acc f =>
    f.fold (fun body => acc ++ parse body) fun _ => acc
  have hsame : ∀ state f, part (step state (number, f)) = update (part state) f := by
    intro state f
    cases f with
    | len body => exact hlens state body
    | varint v => exact hnumbers state v
  rw [foldl_component part number update hsame hother state hlen]
  have hbodies : ∀ data, .len data ∈ valuesOf number fields → data.length < 2 ^ 64 :=
    fun data hmem => (length_le_of_mem_valuesOf hmem).trans_lt hlen
  rw [WritesRepeated] at h
  generalize part state = acc
  generalize valuesOf number fields = values at h hbodies
  induction h generalizing acc with
  | nil => simp
  | cons hfirst hrest ih =>
    obtain ⟨body, rfl, hwrites⟩ := hfirst
    have hbody : (encode body).length < 2 ^ 64 := hbodies _ (mem_cons_self ..)
    rw [map_cons, foldl_cons]
    show List.foldl update (acc ++ parse (encode body)) _ = _
    rw [hparse _ body hwrites hbody,
      ih _ (fun data hmem => hbodies data (mem_cons_of_mem _ hmem)), flatMap_cons,
      append_assoc]

end

/-! ### What a writer has -/

inductive AttributeValue where
  | unset
  | bool (b : Bool)
  | int (v : UInt64)
  deriving DecidableEq

structure SiteAttribute where
  key : String
  value : AttributeValue
  deriving DecidableEq

structure SiteDomain where
  kind : UInt64
  value : String
  attributes : List SiteAttribute
  deriving DecidableEq

structure GeoSite where
  category : String
  domains : List SiteDomain
  deriving DecidableEq

structure GeoIp where
  code : String
  cidrs : List IpNet
  reverse : Bool
  deriving DecidableEq

def boolNumber (b : Bool) : UInt64 := if b then 1 else 0

def AttributeValue.truthy : AttributeValue → Bool
  | .unset => false
  | .bool b => b
  | .int v => v != 0

/-- The value under the number of `bool_value`. -/
def AttributeValue.bools : AttributeValue → List WireValue
  | .bool b => [.varint (boolNumber b)]
  | _ => []

/-- The value under the number of `int_value`. -/
def AttributeValue.ints : AttributeValue → List WireValue
  | .int v => [.varint v]
  | _ => []

def WritesAttribute (a : SiteAttribute) (fields : List WireField) : Prop :=
  WritesText 1 a.key fields ∧ valuesOf 2 fields = a.value.bools ∧ valuesOf 3 fields = a.value.ints

def WritesDomain (d : SiteDomain) (fields : List WireField) : Prop :=
  WritesNumber 1 d.kind fields ∧ WritesText 2 d.value fields ∧
    WritesRepeated 3 WritesAttribute d.attributes fields

def WritesSite (site : GeoSite) (fields : List WireField) : Prop :=
  WritesText 1 site.category fields ∧ WritesRepeated 2 WritesDomain site.domains fields

/-- The last `size` bytes of a number, in network order. -/
def networkBytes : Nat → Nat → List UInt8
  | 0, _ => []
  | size + 1, n => networkBytes size (n / 256) ++ [UInt8.ofNat n]

def addrBytes : IpAddr → List UInt8
  | .v4 a => networkBytes 4 a.toNat
  | .v6 a => networkBytes 16 a.toNat

def WritesNet (net : IpNet) (fields : List WireField) : Prop :=
  valuesOf 1 fields = [.len (addrBytes net.addr)] ∧ WritesNumber 2 (UInt64.ofNat net.len) fields

def WritesIp (geo : GeoIp) (fields : List WireField) : Prop :=
  WritesText 1 geo.code fields ∧ WritesRepeated 2 WritesNet geo.cidrs fields ∧
    WritesNumber 3 (boolNumber geo.reverse) fields

/-- The bytes of a database. -/
def WritesGeoSites (sites : List GeoSite) (dat : List UInt8) : Prop :=
  ∃ fields, dat = encode fields ∧ WritesRepeated 1 WritesSite sites fields

def WritesGeoIps (geos : List GeoIp) (dat : List UInt8) : Prop :=
  ∃ fields, dat = encode fields ∧ WritesRepeated 1 WritesIp geos fields

/-! ### What a reader keeps -/

/-- An attribute counts if it is set and has a name. -/
def SiteAttribute.counts (a : SiteAttribute) : Bool := a.value.truthy && a.key != ""

section
variable (keeps : SiteAttribute → Bool)

def SiteDomain.read (d : SiteDomain) : GeoDomain :=
  { kind := d.kind.toNat
    value := asciiLower d.value
    attrs := (d.attributes.filter keeps).map fun a => asciiLower a.key }

def GeoSite.read (site : GeoSite) : GeoSiteEntry :=
  { category := asciiLower site.category
    domains := site.domains.map (SiteDomain.read keeps) }

end

def GeoIp.read (geo : GeoIp) : String × List IpNet :=
  (asciiLower geo.code, if geo.reverse then [] else geo.cidrs)

/-! ### Single fields -/

section
variable {number : Nat} {fields : List WireField}

theorem pbName_text (s : String) : pbName (.len (textBytes s)) = asciiLower s := by
  have hstr : pbStr (.len (textBytes s)) = some s := by
    show String.fromUTF8? ⟨s.toUTF8.data.toList.toArray⟩ = some s
    rw [Array.toArray_toList]
    show String.fromUTF8? s.toByteArray = some s
    rw [String.fromUTF8?, dif_pos s.isValidUTF8]
    rfl
  rw [pbName, hstr]
  rfl

theorem last_text {s : String} (h : WritesText number s fields) :
    ((valuesOf number fields).map readValue).foldl (fun _ f => pbName f) "" = asciiLower s := by
  rcases h with h | ⟨rfl, h⟩
  · rw [h]
    exact pbName_text s
  · rw [h]
    rfl

/-- The last number under a field of numbers. -/
def lastNumber (last : Nat) : PbField → Nat
  | .varint v => v
  | .len _ => last

theorem last_number {v : UInt64} (h : WritesNumber number v fields) :
    ((valuesOf number fields).map readValue).foldl lastNumber 0 = v.toNat := by
  rcases h with h | ⟨rfl, h⟩
  · rw [h]
    rfl
  · rw [h]
    rfl

end

/-! ### Attributes -/

variable {fields : List WireField}

theorem flatMap_toList_ite {α β : Type} {keeps : α → Bool} {f : α → β} (items : List α) :
    (items.flatMap fun a => (if keeps a then some (f a) else none).toList) =
      (items.filter keeps).map f := by
  induction items with
  | nil => rfl
  | cons a items ih =>
    rw [flatMap_cons, ih, filter_cons]
    cases keeps a <;> rfl

theorem asciiLower_eq_empty_iff {s : String} : asciiLower s = "" ↔ s = "" := by
  rw [asciiLower, ← String.toList_inj, String.toList_ofList, ← String.toList_inj]
  simp

/-- Whether a value of a message is a number other than zero. -/
def nonzero (value : WireValue) : Bool :=
  match readValue value with
  | .varint v => v != 0
  | .len _ => false

/-- The flag of the loop is set by a number under either of two fields. -/
theorem foldl_attrStep_snd (fields : List WireField) (state : String × Bool) :
    ((fields.map fun field => (field.number.val, readValue field.value)).foldl attrStep state).2 =
      (state.2 || (valuesOf 2 fields).any nonzero || (valuesOf 3 fields).any nonzero) := by
  induction fields generalizing state with
  | nil => simp [valuesOf]
  | cons field fields ih =>
    obtain ⟨key, truthy⟩ := state
    obtain ⟨number, value⟩ := field
    rw [map_cons, foldl_cons, ih]
    by_cases htwo : number.val = 2
    · cases value <;> simp [attrStep, htwo, valuesOf, nonzero, readValue, Bool.or_assoc]
    · by_cases hthree : number.val = 3
      · cases value <;>
          simp [attrStep, hthree, valuesOf, nonzero, readValue, Bool.or_assoc, Bool.or_left_comm]
      · by_cases hone : number.val = 1
        · cases value <;> simp [attrStep, hone, valuesOf]
        · cases value <;> simp [attrStep, hone, htwo, hthree, valuesOf]

theorem any_nonzero_attribute (value : AttributeValue) :
    (value.bools.any nonzero || value.ints.any nonzero) = value.truthy := by
  cases value with
  | unset => rfl
  | bool b => cases b <;> rfl
  | int v =>
    show (v.toNat != 0 || false) = (v != 0)
    rw [Bool.or_false, Bool.eq_iff_iff, bne_iff_ne, bne_iff_ne, Ne, Ne, ← UInt64.toNat_inj]
    rfl

theorem parseAttr_encode {a : SiteAttribute}
    (h : WritesAttribute a fields) (hlen : (encode fields).length < 2 ^ 64) :
    parseAttr (encode fields) = if a.counts then some (asciiLower a.key) else none := by
  obtain ⟨hkey, hbools, hints⟩ := h
  have hname : ((pbFields (encode fields)).foldl attrStep ("", false)).1 = asciiLower a.key := by
    rw [foldl_component Prod.fst 1 (fun _ f => pbName f) (fun _ _ => rfl) ?_ _ hlen, last_text hkey]
    intro state field hother
    unfold attrStep
    split <;> simp_all
  have htruthy : ((pbFields (encode fields)).foldl attrStep ("", false)).2 = a.value.truthy := by
    rw [pbFields_encode hlen, foldl_attrStep_snd, hbools, hints, Bool.false_or,
      any_nonzero_attribute]
  rw [parseAttr]
  dsimp only
  rw [hname, htruthy, SiteAttribute.counts]
  by_cases hempty : a.key = ""
  · have hlower : asciiLower "" = "" := rfl
    simp [hempty, hlower]
  · have hlower : asciiLower a.key ≠ "" := fun h => hempty (asciiLower_eq_empty_iff.mp h)
    cases a.value.truthy <;> simp [hempty, hlower]

/-! ### Sites -/

theorem parseDomain_encode {d : SiteDomain}
    (h : WritesDomain d fields) (hlen : (encode fields).length < 2 ^ 64) :
    parseDomain (encode fields) = d.read SiteAttribute.counts := by
  obtain ⟨hkind, hvalue, hattributes⟩ := h
  have hkinds : (parseDomain (encode fields)).kind = d.kind.toNat := by
    rw [parseDomain, foldl_component GeoDomain.kind 1 lastNumber ?_ ?_ _ hlen, last_number hkind]
    · intro record f
      cases f <;> rfl
    · intro record field hother
      unfold domainStep
      split <;> simp_all
  have hvalues : (parseDomain (encode fields)).value = asciiLower d.value := by
    rw [parseDomain, foldl_component GeoDomain.value 2 (fun _ f => pbName f) (fun _ _ => rfl) ?_ _
      hlen, last_text hvalue]
    intro record field hother
    unfold domainStep
    split <;> simp_all
  have hattrs : (parseDomain (encode fields)).attrs =
      (d.attributes.filter SiteAttribute.counts).map fun a => asciiLower a.key := by
    rw [parseDomain, foldl_messages GeoDomain.attrs 3 hattributes hlen
      (fun a body hwrites hbody => congrArg Option.toList (parseAttr_encode hwrites hbody))
      (fun _ _ => rfl) (fun _ _ => rfl) ?_ _, flatMap_toList_ite]
    · rfl
    · intro record field hother
      unfold domainStep
      split <;> simp_all
  generalize parseDomain (encode fields) = record at hkinds hvalues hattrs
  cases record
  cases hkinds
  cases hvalues
  cases hattrs
  rfl

theorem parseSiteEntry_encode {site : GeoSite}
    (h : WritesSite site fields) (hlen : (encode fields).length < 2 ^ 64) :
    parseSiteEntry (encode fields) = site.read SiteAttribute.counts := by
  obtain ⟨hcategory, hdomains⟩ := h
  have hcategories : (parseSiteEntry (encode fields)).category = asciiLower site.category := by
    rw [parseSiteEntry, foldl_component GeoSiteEntry.category 1 (fun _ f => pbName f)
      (fun _ _ => rfl) ?_ _ hlen, last_text hcategory]
    intro entry field hother
    unfold siteEntryStep
    split <;> simp_all
  have hrecords : (parseSiteEntry (encode fields)).domains =
      site.domains.map (SiteDomain.read SiteAttribute.counts) := by
    rw [parseSiteEntry, foldl_messages GeoSiteEntry.domains 2 hdomains hlen
      (fun d body hwrites hbody => congrArg List.singleton (parseDomain_encode hwrites hbody))
      (fun _ _ => rfl) (fun _ _ => rfl) ?_ _, map_eq_flatMap]
    · rfl
    · intro entry field hother
      unfold siteEntryStep
      split <;> simp_all
  generalize parseSiteEntry (encode fields) = entry at hcategories hrecords
  cases entry
  cases hcategories
  cases hrecords
  rfl

variable {dat : List UInt8} (size n : Nat) (net : IpNet)

theorem parse_geoSites {sites : List GeoSite}
    (h : WritesGeoSites sites dat) (hlen : dat.length < 2 ^ 64) :
    GeoSiteDb.parse dat = ⟨sites.map (GeoSite.read SiteAttribute.counts)⟩ := by
  obtain ⟨fields, rfl, hsites⟩ := h
  have hentries : (GeoSiteDb.parse (encode fields)).entries =
      sites.map (GeoSite.read SiteAttribute.counts) := by
    rw [GeoSiteDb.parse, foldl_messages GeoSiteDb.entries 1 hsites hlen
      (fun s body hwrites hbody => congrArg List.singleton (parseSiteEntry_encode hwrites hbody))
      (fun _ _ => rfl) (fun _ _ => rfl) ?_ _, map_eq_flatMap]
    · rfl
    · intro db field hother
      unfold siteStep
      split <;> simp_all
  rw [← hentries]

/-! ### Networks -/

theorem bigEndian_concat (bytes : List UInt8) (byte : UInt8) :
    bigEndian (bytes ++ [byte]) = 256 * bigEndian bytes + byte.toNat := by
  rw [bigEndian, foldl_append]
  rfl

theorem length_networkBytes : (networkBytes size n).length = size := by
  induction size generalizing n with
  | zero => rfl
  | succ size ih => rw [networkBytes, length_append, ih, length_singleton]

theorem bigEndian_networkBytes (h : n < 256 ^ size) : bigEndian (networkBytes size n) = n := by
  induction size generalizing n with
  | zero =>
    rw [pow_zero] at h
    show 0 = n
    omega
  | succ size ih =>
    have hdiv : n / 256 < 256 ^ size := by
      rw [pow_succ] at h
      omega
    rw [networkBytes, bigEndian_concat, ih _ hdiv, UInt8.toNat_ofNat']
    omega

theorem ipOfBytes_addrBytes (ip : IpAddr) : ipOfBytes (addrBytes ip) = some ip := by
  cases ip with
  | v4 a =>
    have hvalue : bigEndian (networkBytes 4 a.toNat) = a.toNat :=
      bigEndian_networkBytes 4 a.toNat a.isLt
    rw [ipOfBytes, addrBytes, if_pos (length_networkBytes 4 _), hvalue, BitVec.ofNat_toNat,
      BitVec.setWidth_eq]
  | v6 a =>
    have hvalue : bigEndian (networkBytes 16 a.toNat) = a.toNat :=
      bigEndian_networkBytes 16 a.toNat a.isLt
    rw [ipOfBytes, addrBytes, length_networkBytes, if_neg (by decide), if_pos rfl, hvalue,
      BitVec.ofNat_toNat, BitVec.setWidth_eq]

theorem len_lt : net.len < 256 := by
  cases net with
  | v4 a len =>
    show len.val < 256
    omega
  | v6 a len =>
    show len.val < 256
    omega

theorem parseCidr_encode {net : IpNet}
    (h : WritesNet net fields) (hlen : (encode fields).length < 2 ^ 64) :
    parseCidr (encode fields) = some net := by
  obtain ⟨haddr, hprefix⟩ := h
  have hip : ((pbFields (encode fields)).foldl cidrStep (none, 0)).1 = some net.addr := by
    rw [foldl_component Prod.fst 1 (fun ip f => f.fold ipOfBytes fun _ => ip) ?_ ?_ _ hlen, haddr]
    · exact ipOfBytes_addrBytes net.addr
    · intro state f
      cases f <;> rfl
    · intro state field hother
      unfold cidrStep
      split <;> simp_all
  have hlens : ((pbFields (encode fields)).foldl cidrStep (none, 0)).2 = net.len := by
    rw [foldl_component Prod.snd 2 lastNumber ?_ ?_ _ hlen, last_number hprefix,
      UInt64.toNat_ofNat']
    · have hlt := len_lt net
      omega
    · intro state f
      cases f <;> rfl
    · intro state field hother
      unfold cidrStep
      split <;> simp_all
  rw [parseCidr]
  dsimp only
  rw [hip, hlens, bind_some, if_pos (len_lt net), newNet_addr]

theorem parseIpEntry_encode {geo : GeoIp}
    (h : WritesIp geo fields) (hlen : (encode fields).length < 2 ^ 64) :
    parseIpEntry (encode fields) = geo.read := by
  obtain ⟨hcode, hcidrs, hreverse⟩ := h
  have hcodes : ((pbFields (encode fields)).foldl ipEntryStep ("", [], false)).1 =
      asciiLower geo.code := by
    rw [foldl_component Prod.fst 1 (fun _ f => pbName f) (fun _ _ => rfl) ?_ _ hlen,
      last_text hcode]
    intro state field hother
    unfold ipEntryStep
    split <;> simp_all
  have hnets : ((pbFields (encode fields)).foldl ipEntryStep ("", [], false)).2.1 = geo.cidrs := by
    rw [foldl_messages (fun state : String × List IpNet × Bool => state.2.1) 2 hcidrs hlen
      (fun net body hwrites hbody => congrArg Option.toList (parseCidr_encode hwrites hbody))
      (fun _ _ => rfl) (fun _ _ => rfl) ?_ _]
    · exact flatMap_singleton' geo.cidrs
    · intro state field hother
      unfold ipEntryStep
      split <;> simp_all
  have hflag : ((pbFields (encode fields)).foldl ipEntryStep ("", [], false)).2.2 =
      geo.reverse := by
    rw [foldl_component (fun state : String × List IpNet × Bool => state.2.2) 3
      (fun reverse f => f.fold (fun _ => reverse) (· != 0)) ?_ ?_ _ hlen]
    · rcases hreverse with hreverse | ⟨hfalse, hreverse⟩
      · rw [hreverse]
        cases geo.reverse <;> rfl
      · rw [hreverse]
        cases hcase : geo.reverse with
        | false => rfl
        | true =>
          rw [hcase] at hfalse
          cases hfalse
    · intro state f
      cases f <;> rfl
    · intro state field hother
      unfold ipEntryStep
      split <;> simp_all
  rw [parseIpEntry]
  dsimp only
  rw [hcodes, hnets, hflag]
  rfl

theorem parse_geoIps {geos : List GeoIp} (h : WritesGeoIps geos dat) (hlen : dat.length < 2 ^ 64) :
    GeoIpDb.parse dat = ⟨geos.map GeoIp.read⟩ := by
  obtain ⟨fields, rfl, hgeos⟩ := h
  have hentries : (GeoIpDb.parse (encode fields)).entries = geos.map GeoIp.read := by
    rw [GeoIpDb.parse, foldl_messages GeoIpDb.entries 1 hgeos hlen
      (fun g body hwrites hbody => congrArg List.singleton (parseIpEntry_encode hwrites hbody))
      (fun _ _ => rfl) (fun _ _ => rfl) ?_ _, map_eq_flatMap]
    · rfl
    · intro db field hother
      unfold ipStep
      split <;> simp_all
  rw [← hentries]

/-- Both databases are read back as they were written, up to the case of names, attributes that do
not count and the networks of reverse lists. -/
theorem geo_parse_written :
    (∀ sites dat, WritesGeoSites sites dat → dat.length < 2 ^ 64 →
      GeoSiteDb.parse dat = ⟨sites.map (GeoSite.read SiteAttribute.counts)⟩) ∧
    (∀ geos dat, WritesGeoIps geos dat → dat.length < 2 ^ 64 →
      GeoIpDb.parse dat = ⟨geos.map GeoIp.read⟩) :=
  ⟨fun _ _ h hlen => parse_geoSites h hlen, fun _ _ h hlen => parse_geoIps h hlen⟩

/-! ### Written databases -/

def messageField (number : Fin (2 ^ 29)) (fields : List WireField) : WireField :=
  ⟨number, .len (encode fields)⟩

def textField (number : Fin (2 ^ 29)) (s : String) : WireField := ⟨number, .len (textBytes s)⟩

def numberField (number : Fin (2 ^ 29)) (v : UInt64) : WireField := ⟨number, .varint v⟩

/-- A site with one domain and one attribute. A field that no reader knows stands first. -/
def siteFields (key : String) : List WireField :=
  [messageField 1
    [numberField 9 300, textField 1 "CN",
      messageField 2 [numberField 1 2, textField 2 "Example.CN",
        messageField 3 [textField 1 key, numberField 2 1]]]]

def siteWith (key : String) : GeoSite := ⟨"CN", [⟨2, "Example.CN", [⟨key, .bool true⟩]⟩]⟩

theorem writes_siteWith (key : String) : WritesGeoSites [siteWith key] (encode (siteFields key)) := by
  refine ⟨_, rfl, .cons ⟨_, rfl, .inl rfl, .cons ⟨_, rfl, .inl rfl, .inl rfl, ?_⟩ .nil⟩ .nil⟩
  exact .cons ⟨_, rfl, .inl rfl, rfl, rfl⟩ .nil

theorem length_siteFields_lt :
    (encode (siteFields "Ads")).length < 2 ^ 64 ∧ (encode (siteFields "")).length < 2 ^ 64 := by
  decide +kernel

def netFields (net : IpNet) : List WireField :=
  [⟨1, .len (addrBytes net.addr)⟩, numberField 2 (UInt64.ofNat net.len)]

/-- Two lists of one network each, of which the second is reversed. -/
def ipFields : List WireField :=
  [messageField 1 [textField 1 "PRIVATE", messageField 2 (netFields (.v4 0x0a000000 8))],
    messageField 1 [textField 1 "ELSE", messageField 2 (netFields (.v6 (0xfd <<< 120) 8)),
      numberField 3 1]]

def writtenIps : List GeoIp :=
  [⟨"PRIVATE", [.v4 0x0a000000 8], false⟩, ⟨"ELSE", [.v6 (0xfd <<< 120) 8], true⟩]

theorem writes_netFields : WritesNet net (netFields net) := ⟨rfl, .inl rfl⟩

theorem writes_writtenIps : WritesGeoIps writtenIps (encode ipFields) := by
  refine ⟨_, rfl, .cons ⟨_, rfl, .inl rfl, ?_, .inr ⟨rfl, rfl⟩⟩
    (.cons ⟨_, rfl, .inl rfl, ?_, .inl rfl⟩ .nil)⟩
  · exact .cons ⟨_, rfl, writes_netFields _⟩ .nil
  · exact .cons ⟨_, rfl, writes_netFields _⟩ .nil

theorem example_geo_parsed :
    GeoSiteDb.parse (encode (siteFields "Ads")) = ⟨[⟨"cn", [⟨2, "example.cn", ["ads"]⟩]⟩]⟩ ∧
      GeoIpDb.parse (encode ipFields) = ⟨[("private", [.v4 0x0a000000 8]), ("else", [])]⟩ := by
  constructor
  · rw [geo_parse_written.1 _ _ (writes_siteWith "Ads") length_siteFields_lt.1]
    decide
  · rw [geo_parse_written.2 _ _ writes_writtenIps (by decide +kernel)]
    decide

/-- An attribute that is set but has no name is left out, too. -/
theorem unnamed_attribute_dropped :
    WritesGeoSites [siteWith ""] (encode (siteFields "")) ∧
      (encode (siteFields "")).length < 2 ^ 64 ∧
      GeoSiteDb.parse (encode (siteFields "")) ≠
        ⟨[siteWith ""].map (GeoSite.read fun a => a.value.truthy)⟩ := by
  refine ⟨writes_siteWith "", length_siteFields_lt.2, ?_⟩
  rw [parse_geoSites (writes_siteWith "") length_siteFields_lt.2]
  decide

end NetOrchestrator.Core
