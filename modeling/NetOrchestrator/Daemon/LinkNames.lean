import Mathlib.Algebra.Group.Nat.Defs
import Mathlib.Data.List.Basic

/-!
# `Daemon.LinkNames`: tunnel link names

The kernel name of a tunnel link and the name to fall back on when the first is taken. Both
are functions of the uid, the profile and an optional hint, so a reconnect finds the same
names again.
-/

namespace NetOrchestrator.Daemon

/-- One round of the FNV-1a hash. -/
def fnvStep (hash : UInt64) (byte : UInt8) : UInt64 := (hash ^^^ byte.toUInt64) * 0x100000001b3

/-- `link_name_seed`: the uid's four bytes, low byte first, then the profile id. -/
def linkNameSeed (uid : Nat) (profileId : String) : UInt64 :=
  let uidBytes := [uid, uid / 2 ^ 8, uid / 2 ^ 16, uid / 2 ^ 24].map UInt8.ofNat
  (uidBytes ++ profileId.toUTF8.toList).foldl fnvStep 0xcbf29ce484222325

/-- `char::to_lowercase`, as far as it matters for a slug: besides the ASCII capitals, two
characters have an ASCII letter in their lower case. Any other character stays outside
ASCII. -/
def lowercase (c : Char) : List Char :=
  if c.toNat = 0x212a then ['k']
  else if c.toNat = 0x130 then ['i', Char.ofNat 0x307]
  else [c.toLower]

/-- `char::is_ascii_alphanumeric`. -/
def isAsciiAlphanumeric (c : Char) : Bool := c.isAlphanum

/-- The loop of `link_name_slug`, with the slug so far in reverse. -/
def slugLoop (budget : Nat) : List Char → List Char → List Char
  | slug, [] => slug
  | slug, c :: rest =>
    if budget ≤ slug.length then slug
    else if isAsciiAlphanumeric c then slugLoop budget (c :: slug) rest
    else if slug.isEmpty || slug.head? == some '-' then slugLoop budget slug rest
    else slugLoop budget ('-' :: slug) rest

/-- `trim_end_matches('-')`, on a reversed string. -/
def trimDashes (slug : List Char) : List Char := slug.dropWhile (· == '-')

def linkNameSlug (hint : String) (budget : Nat) : Option (List Char) :=
  let slug := (trimDashes (slugLoop budget [] (hint.toList.flatMap lowercase))).reverse
  if slug.isEmpty then none else some slug

def hexDigit (n : Nat) : Char := "0123456789abcdef".toList.getD n '0'

/-- `{:0width$x}` of a value that fits. -/
def hexPadded (value : Nat) : Nat → List Char
  | 0 => []
  | width + 1 => hexPadded (value / 16) width ++ [hexDigit (value % 16)]

theorem isAsciiAlphanumeric_hexDigit (n : Nat) : isAsciiAlphanumeric (hexDigit (n % 16)) := by
  have hall : ∀ d < 16, isAsciiAlphanumeric (hexDigit d) = true := by decide
  exact hall _ (Nat.mod_lt _ (by omega))

theorem isAsciiAlphanumeric_hexPadded {value width : Nat} {c : Char}
    (h : c ∈ hexPadded value width) : isAsciiAlphanumeric c := by
  induction width generalizing value with
  | zero => cases h
  | succ width ih =>
    rw [hexPadded, List.mem_append, List.mem_singleton] at h
    rcases h with hrest | rfl
    · exact ih hrest
    · exact isAsciiAlphanumeric_hexDigit value

@[simp]
theorem length_hexPadded (value width : Nat) : (hexPadded value width).length = width := by
  induction width generalizing value with
  | zero => rfl
  | succ width ih => rw [hexPadded, List.length_append, ih, List.length_singleton]

/-- `tunnel_link_names`: the preferred name and the fallback. -/
def tunnelLinkNames (tag : String) (uid : Nat) (profileId : String) (hint : Option String) :
    String × String :=
  let lead := tag.toList
  let hexDigits := 15 - lead.length
  let seed := (linkNameSeed uid profileId).toNat
  let hashed := lead ++ hexPadded (seed % 2 ^ (4 * hexDigits)) hexDigits
  match hint.bind (linkNameSlug · 15) with
  | none => (String.ofList hashed, String.ofList hashed)
  | some slug =>
    let bare := (trimDashes lead.reverse).reverse
    if slug = bare then (String.ofList hashed, String.ofList hashed)
    else
      let verbatim := lead.isPrefixOf slug ||
        (bare.isPrefixOf slug && (slug.drop bare.length).head?.any Char.isDigit)
      let primary :=
        if verbatim then slug.take 15 else lead ++ slug.take (15 - lead.length)
      let short := (trimDashes (primary.take 10).reverse).reverse
      let fallback :=
        if short.length ≤ lead.length then hashed
        else short ++ '-' :: hexPadded (seed % 2 ^ 16) 4
      (String.ofList primary, String.ofList fallback)

/-- `wireguard_name`. -/
def wireguardName (uid : Nat) (profileId : String) (hint : Option String) : String × String :=
  tunnelLinkNames "wg-" uid profileId hint

/-! ### Who takes a name -/

/-- What `is_ascii_alphanumeric() || b == b'-'` asks of a byte. -/
def isNameChar (c : Char) : Bool := isAsciiAlphanumeric c || c == '-'

/-- `valid_tun_name`. -/
def validTunName (name : String) : Bool :=
  "ovpn-".toList.isPrefixOf name.toList && 6 ≤ name.utf8ByteSize && name.utf8ByteSize ≤ 15 &&
    name.toList.all isNameChar

/-- `validate_link` of the DNS executor. -/
def validateLink (link : String) : Except String Unit :=
  let suffix := ("wg-".toList.isPrefixOf? link.toList).or
    (("ovpn-".toList.isPrefixOf? link.toList).or ("xray-".toList.isPrefixOf? link.toList))
  if link.utf8ByteSize ≤ 15 && suffix.any fun suffix => !suffix.isEmpty && suffix.all isNameChar
  then .ok ()
  else .error "invalid tunnel link name"

/-- The `Owner` of a QUIC rejection. -/
structure QuicOwner where
  table : String
  marker : String
  interface : String
  deriving DecidableEq

/-- `Owner::new`. -/
def QuicOwner.new (uid : Nat) (name : String) : Except String QuicOwner :=
  if name.isEmpty || 15 < name.utf8ByteSize ||
      !name.toList.all fun c => isNameChar c || c == '_' then
    .error "invalid QUIC rejection interface"
  else
    .ok {
      table := "netorch_quic_" ++ toString uid ++ "_" ++ name
      marker := "network-orchestrator:xray:" ++ toString uid ++ ":" ++ name
      interface := name }

end NetOrchestrator.Daemon
