import Lettering.OpenType.CharMap
import Lettering.OpenType.Kerning
import Lettering.OpenType.Name

/-!
# Faces

A font file starts with a directory of tables. Three of them are required, the
header, the horizontal header and the maximum profile; of the others a face uses
the horizontal metrics, the character maps, the kerning and the names, as far as
they can be read.
-/

namespace Lettering

namespace OpenType

/-- Why font data holds no face. -/
inductive FaceError
  | malformed
  | unknownMagic
  | indexOutOfBounds
  | noHeader
  | noHorizontalHeader
  | noMaximumProfile
deriving DecidableEq, Repr

/-- The message of an error. -/
def FaceError.message : FaceError → String
  | malformed => "malformed font"
  | unknownMagic => "unknown magic"
  | indexOutOfBounds => "face index is out of bounds"
  | noHeader => "the head table is missing or malformed"
  | noHorizontalHeader => "the hhea table is missing or malformed"
  | noMaximumProfile => "the maxp table is missing or malformed"

/-- Horizontal metrics: `count` advances in the data; glyphs below `glyphs`
    without one of their own have the last one. -/
structure HorizontalMetrics where
  data : Bytes
  count : Nat
  glyphs : Nat

/-- What is used of a font file. -/
structure Face where
  unitsPerEm : Nat
  metrics : Option HorizontalMetrics
  charMaps : List CharMap
  /-- The kerning subtables, if there is a kerning table. -/
  kerning : Option (List KernSubtable)
  names : List NameRecord

namespace Face

/-! ## The directory -/

/-- The signatures of a file that holds one face. -/
def isFaceMagic (n : Nat) : Bool := n == 0x00010000 || n == 0x74727565 || n == 0x4F54544F

/-- The signature of a collection of faces. -/
def collectionMagic : Nat := 0x74746366

/-- Where the directory of the first face starts, behind its signature. -/
def directoryStart (data : Bytes) : Except FaceError Nat := do
  let some magic := data.uint32? 0 | throw .unknownMagic
  if isFaceMagic magic then return 4
  else if magic ≠ collectionMagic then throw .unknownMagic
  else
    let some count := data.uint32? 8 | throw .malformed
    if !data.covers 12 (4 * count) then throw .malformed
    else if count = 0 then throw .indexOutOfBounds
    else
      let some offset := data.uint32? 12 | throw .malformed
      if offset < 12 + 4 * count || data.size < offset then throw .malformed
      else
        let some magic := data.uint32? offset | throw .unknownMagic
        if isFaceMagic magic then return offset + 4 else throw .unknownMagic

/-- The places of the table records. -/
def recordPlaces (data : Bytes) : Except FaceError (List Nat) := do
  let start ← directoryStart data
  let some count := data.uint16? start | throw .malformed
  if data.covers (start + 8) (16 * count) then
    return (List.range count).map fun i => start + 8 + 16 * i
  else throw .malformed

/-- The tag of a table as a number. -/
def tagNumber (tag : String) : Nat := tag.toList.foldl (fun n c => 256 * n + c.toNat) 0

/-- The table at a record, if it lies in the data. -/
def tableAt? (data : Bytes) (place : Nat) : Option Bytes := do
  data.slice? (← data.uint32? (place + 8)) (← data.uint32? (place + 12))

/-- The table with the given tag. Of several records with the tag the last one
    counts, also when its table does not lie in the data. -/
def findTable? (data : Bytes) (places : List Nat) (tag : String) : Option Bytes :=
  (places.filter fun place => data.uint32? place == some (tagNumber tag)).getLast?.bind
    (tableAt? data)

/-! ## The tables -/

/-- The units per em in a header table. They lie between 16 and 16384, and the
    format of glyph locations is one of two. -/
def readHeader? (table : Bytes) : Option Nat := do
  let unitsPerEm ← table.uint16? 18
  let locations ← table.uint16? 50
  if 54 ≤ table.size && locations ≤ 1 && 16 ≤ unitsPerEm && unitsPerEm ≤ 16384 then
    some unitsPerEm
  else none

/-- The number of horizontal advances in a horizontal header table. -/
def readHorizontalHeader? (table : Bytes) : Option Nat := table.uint16? 34

/-- The number of glyphs in a maximum profile table; there is at least one. -/
def readMaximumProfile? (table : Bytes) : Option Nat := do
  let version ← table.uint32? 0
  let glyphs ← table.uint16? 4
  if (version = 0x00005000 || version = 0x00010000) && glyphs ≠ 0 then some glyphs else none

/-- The horizontal metrics in their table. -/
def readMetrics? (table : Bytes) (count glyphs : Nat) : Option HorizontalMetrics :=
  if count ≠ 0 && table.covers 0 (4 * count) then some ⟨table, count, max count glyphs⟩ else none

/-- The first face of a font file. -/
def read (data : Bytes) : Except FaceError Face := do
  let places ← recordPlaces data
  let table? := findTable? data places
  let some unitsPerEm := (table? "head").bind readHeader? | throw .noHeader
  let some advances := (table? "hhea").bind readHorizontalHeader? | throw .noHorizontalHeader
  let some glyphs := (table? "maxp").bind readMaximumProfile? | throw .noMaximumProfile
  return {
    unitsPerEm
    metrics := (table? "hmtx").bind fun t => readMetrics? t advances glyphs
    charMaps := ((table? "cmap").bind CharMap.readTable?).getD []
    kerning := (table? "kern").bind KernSubtable.readTable?
    names := ((table? "name").bind NameRecord.readTable?).getD []
  }

/-! ## Glyphs -/

/-- The advance of a glyph in units of the em. -/
def advance? (face : Face) (glyph : Nat) : Option Nat := do
  let metrics ← face.metrics
  if glyph < metrics.glyphs then metrics.data.uint16? (4 * min glyph (metrics.count - 1)) else none

/-- The glyph of a code in the first Unicode map that has one. -/
def unicodeGlyph? (face : Face) (code : Nat) : Option Nat :=
  (face.charMaps.filter CharMap.isUnicode).findSome? (·.glyph? code)

end Face

end OpenType

end Lettering
