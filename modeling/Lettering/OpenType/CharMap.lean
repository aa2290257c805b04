import Lettering.OpenType.Bytes

/-!
# Character maps

The `cmap` table of a font file maps characters to glyphs. It has several maps,
each for a platform and an encoding and each in one of several formats; maps in
the formats 8 and 14 are present but map nothing.
-/

namespace Lettering

namespace OpenType

/-- How a character map stores its glyphs. -/
inductive CharMapFormat
  /-- Format 0: one byte for each of 256 codes. -/
  | bytes (data : Bytes)
  /-- Format 2: the first byte of a code chooses a header, which has an array of glyphs
      for a range of second bytes. -/
  | byteRanges (data : Bytes)
  /-- Format 4: segments of 16-bit codes, each shifted by a delta or looked up in
      an array. -/
  | segments (data : Bytes) (count : Nat)
  /-- Formats 6 and 10: an array of `count` glyphs at the byte `start`, for the
      codes from `first` on that are below `limit`. -/
  | array (data : Bytes) (start first count limit : Nat)
  /-- Format 12: groups of codes with consecutive glyphs. -/
  | groups (data : Bytes) (count : Nat)
  /-- Format 13: groups of codes with one glyph each. -/
  | sharedGroups (data : Bytes) (count : Nat)
  /-- Formats that map nothing here. -/
  | unusable

/-- A character map. -/
structure CharMap where
  platform : Nat
  encoding : Nat
  format : CharMapFormat

namespace CharMapFormat

/-- Reads a character map from its first byte on. -/
def read? (data : Bytes) : Option CharMapFormat := do
  match ← data.uint16? 0 with
  | 0 => if data.covers 6 256 then some (.bytes data) else none
  | 2 =>
    let keys := (List.range 256).filterMap fun i => data.uint16? (6 + 2 * i)
    let last := keys.foldl (fun last key => max last (key / 8)) 0
    if data.covers 518 (8 * (last + 1)) then some (.byteRanges data) else none
  | 4 =>
    let doubled ← data.uint16? 6
    let count := doubled / 2
    if 1 ≤ count && data.covers 16 (8 * count) then some (.segments data count) else none
  | 6 =>
    let first ← data.uint16? 6
    let count ← data.uint16? 8
    if data.covers 10 (2 * count) then some (.array data 10 first count (2 ^ 16)) else none
  | 8 => some .unusable
  | 10 =>
    let first ← data.uint32? 12
    let count ← data.uint32? 16
    if data.covers 20 (2 * count) then some (.array data 20 first count (2 ^ 32)) else none
  | 12 =>
    let count ← data.uint32? 12
    if data.covers 16 (12 * count) then some (.groups data count) else none
  | 13 =>
    let count ← data.uint32? 12
    if data.covers 16 (12 * count) then some (.sharedGroups data count) else none
  | 14 =>
    let count ← data.uint32? 6
    if data.covers 10 (11 * count) then some .unusable else none
  | _ => none

/-- The glyph of a code in format 2. Codes of one byte use the first header. -/
def byteRangeGlyph? (data : Bytes) (code : Nat) : Option Nat := do
  let key ← if code < 0xFF then some 0 else data.uint16? (6 + 2 * (code / 256))
  let header := 518 + 8 * (key / 8)
  let first ← data.uint16? header
  let count ← data.uint16? (header + 2)
  let delta ← data.int16? (header + 4)
  let offset ← data.uint16? (header + 6)
  let byte := code % 256
  if 2 ^ 16 ≤ code || 2 ^ 16 ≤ first + count || byte < first || first + count ≤ byte then none
  else
    let glyph ← data.uint16? (header + 6 + offset + 2 * (byte - first))
    let shifted := (glyph : Int) + delta
    if glyph = 0 || shifted < 0 then none else some (shifted.toNat % 2 ^ 16)

/-- The glyph of a code in format 4. The segments are searched by their last
    codes. -/
def segmentGlyph? (data : Bytes) (count code : Nat) : Option Nat :=
  if code < 2 ^ 16 then go 0 count else none
where
  /-- The glyph in the segment `index`, which starts at the code `first`. -/
  inSegment? (index first : Nat) : Option Nat := do
    let delta ← data.uint16? (16 + 4 * count + 2 * index)
    let offsetPlace := 16 + 6 * count + 2 * index
    let offset ← data.uint16? offsetPlace
    if offset = 0 then some ((code + delta) % 2 ^ 16)
    else if offset = 0xFFFF then none
    else if 2 ^ 16 ≤ 2 * (code - first) then none
    else
      let glyph ← data.uint16? ((offsetPlace + 2 * (code - first) + offset) % 2 ^ 16)
      if glyph = 0 then none
      else
        let shifted := (glyph + delta) % 2 ^ 16
        if shifted < 2 ^ 15 then some shifted else none
  /-- Looks among the segments from `low` up to `high`. -/
  go (low high : Nat) : Option Nat :=
    if low < high then
      let index := (low + high) / 2
      match data.uint16? (14 + 2 * index) with
      | none => none
      | some last =>
        if code ≤ last then
          match data.uint16? (16 + 2 * count + 2 * index) with
          | none => none
          | some first => if code < first then go low index else inSegment? index first
        else go (index + 1) high
    else none
  termination_by high - low

/-- The glyph of a code in format 12. -/
def groupGlyph? (data : Bytes) (count code : Nat) : Option Nat := do
  let index ← Bytes.search? (fun i => do
    let first ← data.uint32? (16 + 12 * i)
    let last ← data.uint32? (20 + 12 * i)
    some (if code < first then .gt else if last < code then .lt else .eq)) count
  let first ← data.uint32? (16 + 12 * index)
  let glyph ← data.uint32? (24 + 12 * index)
  let shifted := glyph + code
  if shifted < 2 ^ 32 && shifted - first < 2 ^ 16 then some (shifted - first) else none

/-- The glyph of a code in format 13: that of the first group with the code. -/
def sharedGlyph? (data : Bytes) (count code : Nat) : Option Nat := do
  let index ← (List.range count).find? fun i =>
    (data.uint32? (16 + 12 * i)).any (· ≤ code) && (data.uint32? (20 + 12 * i)).any (code ≤ ·)
  let glyph ← data.uint32? (24 + 12 * index)
  if glyph < 2 ^ 16 then some glyph else none

/-- The glyph of a code. -/
def glyph? (format : CharMapFormat) (code : Nat) : Option Nat :=
  match format with
  | bytes data => if code < 256 then (data.byte? (6 + code)).filter (· ≠ 0) else none
  | byteRanges data => byteRangeGlyph? data code
  | segments data count => segmentGlyph? data count code
  | array data start first count limit =>
    if first ≤ code ∧ code < limit ∧ code - first < count then
      data.uint16? (start + 2 * (code - first))
    else none
  | groups data count => groupGlyph? data count code
  | sharedGroups data count => sharedGlyph? data count code
  | unusable => none

end CharMapFormat

namespace CharMap

/-- The platforms of character maps and names: 0 Unicode, 1 Macintosh, 2 ISO,
    3 Windows, 4 custom. -/
def isPlatform (n : Nat) : Bool := n ≤ 4

/-- The glyph of a code. -/
def glyph? (m : CharMap) (code : Nat) : Option Nat := m.format.glyph? code

/-- Whether the codes of a map are Unicode code points: always on the Unicode
    platform, and on Windows in encoding 1, or in encoding 10 with groups. -/
def isUnicode (m : CharMap) : Bool :=
  m.platform == 0 || (m.platform == 3 &&
    (m.encoding == 1 || (m.encoding == 10 &&
      match m.format with
      | .groups .. | .sharedGroups .. => true
      | _ => false)))

/-- The map that record `index` of a `cmap` table leads to. -/
def read? (table : Bytes) (index : Nat) : Option CharMap := do
  let record := 4 + 8 * index
  let platform ← table.uint16? record
  let encoding ← table.uint16? (record + 2)
  let offset ← table.uint32? (record + 4)
  let data ← table.tail? offset
  let format ← CharMapFormat.read? data
  if isPlatform platform then some ⟨platform, encoding, format⟩ else none

/-- The maps of a `cmap` table up to the first one that cannot be read. -/
def readAll (table : Bytes) (count index : Nat) : List CharMap :=
  match count with
  | 0 => []
  | count + 1 =>
    match read? table index with
    | some m => m :: readAll table count (index + 1)
    | none => []

/-- The maps of a `cmap` table, if its records can be read. -/
def readTable? (table : Bytes) : Option (List CharMap) := do
  let count ← table.uint16? 2
  if table.covers 4 (8 * count) then some (readAll table count 0) else none

end CharMap

end OpenType

end Lettering
