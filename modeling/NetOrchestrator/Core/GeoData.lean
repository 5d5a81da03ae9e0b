import NetOrchestrator.Core.RouteCheck

/-!
# `Core.GeoData`: the readers of `geosite.dat` and `geoip.dat`

The databases are protobuf messages. One stepper reads field after field, and each message level
is a loop over its fields. A position in a buffer is kept as the bytes that are still unread. A
length that does not fit in the buffer stops the loop at that field. Nothing else fails, so that a
database is always returned.
-/

namespace NetOrchestrator.Core

open Net Option
open Daemon (asciiLower)

/-! ### The stepper -/

/-- The loop of `pb_varint`. A number takes at most ten bytes, and what the tenth one has above
bit 63 is shifted out. -/
def pbVarintFrom (value shift : Nat) : List UInt8 → Option (Nat × List UInt8)
  | [] => none
  | byte :: rest =>
    let value := value ||| ((byte &&& 0x7f).toNat <<< shift) % 2 ^ 64
    if byte &&& 0x80 = 0 then some (value, rest)
    else if 64 ≤ shift + 7 then none
    else pbVarintFrom value (shift + 7) rest

def pbVarint (buf : List UInt8) : Option (Nat × List UInt8) := pbVarintFrom 0 0 buf

inductive PbField where
  | varint (v : Nat)
  | len (data : List UInt8)
  deriving DecidableEq

/-- Step over the next `size` bytes. -/
def pbSkip (size : Nat) (rest : List UInt8) : Option (List UInt8 × List UInt8) :=
  if rest.length < size then none else some (rest.take size, rest.drop size)

def pbField (buf : List UInt8) : Option ((Nat × PbField) × List UInt8) := do
  let (tag, rest) ← pbVarint buf
  let field := tag >>> 3
  if 2 ^ 32 ≤ field then none
  else
    match tag &&& 7 with
    | 0 => do
        let (v, rest) ← pbVarint rest
        some ((field, .varint v), rest)
    | 1 => do
        let (_, rest) ← pbSkip 8 rest
        some ((field, .varint 0), rest)
    | 2 => do
        let (len, rest) ← pbVarint rest
        let (data, rest) ← pbSkip len rest
        some ((field, .len data), rest)
    | 5 => do
        let (_, rest) ← pbSkip 4 rest
        some ((field, .varint 0), rest)
    | _ => none

variable {buf rest : List UInt8}

theorem length_lt_of_pbVarintFrom {value shift v : Nat}
    (h : pbVarintFrom value shift buf = some (v, rest)) : rest.length < buf.length := by
  induction buf generalizing value shift with
  | nil => cases h
  | cons byte buf ih =>
    rw [pbVarintFrom] at h
    split at h
    · cases h
      exact Nat.lt_succ_self _
    · split at h
      · cases h
      · exact Nat.lt_succ_of_lt (ih h)

theorem length_le_of_pbSkip {size : Nat} {buf data rest : List UInt8}
    (h : pbSkip size buf = some (data, rest)) : rest.length ≤ buf.length := by
  rw [pbSkip] at h
  split at h
  · cases h
  · cases h
    rw [List.length_drop]
    omega

theorem length_lt_of_pbField {field : Nat × PbField}
    (h : pbField buf = some (field, rest)) : rest.length < buf.length := by
  rw [pbField, bind_eq_bind, bind_eq_some_iff] at h
  obtain ⟨⟨tag, tail⟩, htag, h⟩ := h
  have htail : tail.length < buf.length := length_lt_of_pbVarintFrom htag
  dsimp only at h
  split at h
  · cases h
  split at h
  · obtain ⟨⟨v, after⟩, hv, h⟩ := bind_eq_some_iff.mp h
    cases h
    exact (length_lt_of_pbVarintFrom hv).trans htail
  · obtain ⟨⟨data, after⟩, hskip, h⟩ := bind_eq_some_iff.mp h
    cases h
    exact (length_le_of_pbSkip hskip).trans_lt htail
  · obtain ⟨⟨len, middle⟩, hlen, h⟩ := bind_eq_some_iff.mp h
    obtain ⟨⟨data, after⟩, hskip, h⟩ := bind_eq_some_iff.mp h
    cases h
    exact (length_le_of_pbSkip hskip).trans_lt ((length_lt_of_pbVarintFrom hlen).trans htail)
  · obtain ⟨⟨data, after⟩, hskip, h⟩ := bind_eq_some_iff.mp h
    cases h
    exact (length_le_of_pbSkip hskip).trans_lt htail
  · cases h

/-- What `while let Some(..) = pb_field(..)` goes through. -/
def pbFields (buf : List UInt8) : List (Nat × PbField) :=
  match _h : pbField buf with
  | none => []
  | some (field, rest) => field :: pbFields rest
termination_by buf.length
decreasing_by exact length_lt_of_pbField _h

def pbStr : PbField → Option String
  | .len data => String.fromUTF8? ⟨data.toArray⟩
  | .varint _ => none

/-- `pb_str(f).unwrap_or_default().to_ascii_lowercase()`. -/
def pbName (field : PbField) : String := asciiLower ((pbStr field).getD "")

/-! ### `geosite.dat` -/

def attrStep : String × Bool → Nat × PbField → String × Bool
  | (_, truthy), (1, f) => (pbName f, truthy)
  | (key, truthy), (2, .varint v) => (key, truthy || v != 0)
  | (key, truthy), (3, .varint v) => (key, truthy || v != 0)
  | acc, _ => acc

/-- Keeps only truthy attributes. -/
def parseAttr (buf : List UInt8) : Option String :=
  let (key, truthy) := (pbFields buf).foldl attrStep ("", false)
  if key == "" || !truthy then none else some key

def domainStep (record : GeoDomain) : Nat × PbField → GeoDomain
  | (1, .varint v) => { record with kind := v }
  | (2, f) => { record with value := pbName f }
  | (3, .len body) => { record with attrs := record.attrs ++ (parseAttr body).toList }
  | _ => record

def parseDomain (buf : List UInt8) : GeoDomain := (pbFields buf).foldl domainStep ⟨0, "", []⟩

def siteEntryStep (entry : GeoSiteEntry) : Nat × PbField → GeoSiteEntry
  | (1, f) => { entry with category := pbName f }
  | (2, .len body) => { entry with domains := entry.domains ++ [parseDomain body] }
  | _ => entry

/-- `GeoSiteDb::parse_entry`. -/
def parseSiteEntry (buf : List UInt8) : GeoSiteEntry := (pbFields buf).foldl siteEntryStep ⟨"", []⟩

def siteStep (db : GeoSiteDb) : Nat × PbField → GeoSiteDb
  | (1, .len body) => { db with entries := db.entries ++ [parseSiteEntry body] }
  | _ => db

def GeoSiteDb.parse (dat : List UInt8) : GeoSiteDb := (pbFields dat).foldl siteStep ⟨[]⟩

/-! ### `geoip.dat` -/

/-- The number that bytes are in network order. -/
def bigEndian (bytes : List UInt8) : Nat := bytes.foldl (fun n byte => 256 * n + byte.toNat) 0

/-- An address of four or sixteen bytes. -/
def ipOfBytes (bytes : List UInt8) : Option IpAddr :=
  if bytes.length = 4 then some (.v4 (BitVec.ofNat 32 (bigEndian bytes)))
  else if bytes.length = 16 then some (.v6 (BitVec.ofNat 128 (bigEndian bytes)))
  else none

def cidrStep : Option IpAddr × Nat → Nat × PbField → Option IpAddr × Nat
  | (_, len), (1, .len bytes) => (ipOfBytes bytes, len)
  | (ip, _), (2, .varint v) => (ip, v)
  | acc, _ => acc

def parseCidr (buf : List UInt8) : Option IpNet :=
  let (ip, len) := (pbFields buf).foldl cidrStep (none, 0)
  -- `u8::try_from` refuses only what no family allows
  ip.bind fun ip => if len < 256 then newNet ip len else none

/-- The code, the networks and whether the list is a reverse one. -/
def ipEntryStep : String × List IpNet × Bool → Nat × PbField → String × List IpNet × Bool
  | (_, cidrs, reverse), (1, f) => (pbName f, cidrs, reverse)
  | (code, cidrs, reverse), (2, .len body) => (code, cidrs ++ (parseCidr body).toList, reverse)
  | (code, cidrs, _), (3, .varint v) => (code, cidrs, v != 0)
  | acc, _ => acc

/-- `GeoIpDb::parse_entry`. The networks of a reverse list are not kept. -/
def parseIpEntry (buf : List UInt8) : String × List IpNet :=
  let (code, cidrs, reverse) := (pbFields buf).foldl ipEntryStep ("", [], false)
  (code, if reverse then [] else cidrs)

def ipStep (db : GeoIpDb) : Nat × PbField → GeoIpDb
  | (1, .len body) => { db with entries := db.entries ++ [parseIpEntry body] }
  | _ => db

def GeoIpDb.parse (dat : List UInt8) : GeoIpDb := (pbFields dat).foldl ipStep ⟨[]⟩

end NetOrchestrator.Core
