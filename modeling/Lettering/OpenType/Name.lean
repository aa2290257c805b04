import Lettering.Text.Basic
import Lettering.OpenType.CharMap

/-!
# Names

The `name` table of a font file holds its names, each for a platform, an
encoding and a purpose. Names in Unicode are read as UTF-16.
-/

namespace Lettering

namespace OpenType

/-- A name as it stands in the file. -/
structure NameRecord where
  platform : Nat
  encoding : Nat
  /-- What the name is for. -/
  purpose : Nat
  content : Bytes

/-- The text of UTF-16 code units, if no surrogate stands alone. -/
def decodeUnits : List Nat → Option Text
  | [] => some []
  | u :: rest =>
    if u < 0xD800 ∨ 0xE000 ≤ u then (decodeUnits rest).map (Char.ofNat u :: ·)
    else if 0xDC00 ≤ u then none
    else match rest with
      | v :: rest =>
        if 0xDC00 ≤ v ∧ v < 0xE000 then
          (decodeUnits rest).map
            (Char.ofNat (0x10000 + 0x400 * (u - 0xD800) + (v - 0xDC00)) :: ·)
        else none
      | [] => none

namespace NameRecord

/-- Whether a name is in Unicode: always on the Unicode platform, and on Windows
    in the encodings 0 and 1. -/
def isUnicode (r : NameRecord) : Bool :=
  r.platform == 0 || (r.platform == 3 && (r.encoding == 0 || r.encoding == 1))

/-- The 16-bit units of a name; an odd byte at the end is dropped. -/
def units (r : NameRecord) : List Nat :=
  (List.range (r.content.size / 2)).filterMap fun i => r.content.uint16? (2 * i)

/-- A name as text. -/
def text? (r : NameRecord) : Option Text := if r.isUnicode then decodeUnits r.units else none

/-- The name at a record, its content lying in the storage. -/
def read? (table storage : Bytes) (place : Nat) : Option NameRecord := do
  let platform ← table.uint16? place
  let encoding ← table.uint16? (place + 2)
  let purpose ← table.uint16? (place + 6)
  let length ← table.uint16? (place + 8)
  let offset ← table.uint16? (place + 10)
  let content ← storage.slice? offset length
  if CharMap.isPlatform platform then some ⟨platform, encoding, purpose, content⟩ else none

/-- The names of `count` records from `place` on, up to the first one that
    cannot be read. -/
def readFrom (table storage : Bytes) : (count place : Nat) → List NameRecord
  | 0, _ => []
  | count + 1, place =>
    match read? table storage place with
    | some r => r :: readFrom table storage count (place + 12)
    | none => []

/-- The names of a `name` table, if it can be read. In version 1 a count of
    language tags and the tags precede the records. -/
def readTable? (table : Bytes) : Option (List NameRecord) := do
  let version ← table.uint16? 0
  let count ← table.uint16? 2
  let storageOffset ← table.uint16? 4
  let start ←
    match version with
    | 0 => some 6
    | 1 => do
      let tags ← table.uint16? 6
      if 4 * tags < 2 ^ 16 then some (8 + 4 * tags) else none
    | _ => none
  if !table.covers start (12 * count) then none
  else
    let storage ← table.tail? (max (start + 12 * count) storageOffset)
    some (readFrom table storage count start)

end NameRecord

end OpenType

end Lettering
