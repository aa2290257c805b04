import Lettering.OpenType.Bytes

/-!
# Kerning

The `kern` table of a font file moves pairs of glyphs together or apart. It
comes with one of two headers and has several subtables, each in one of several
formats; a subtable with a state machine (format 1) is recognised but has no
values for pairs.
-/

namespace Lettering

namespace OpenType

/-- How a kerning subtable stores its values; its data starts after the header
    of the subtable, whose length some offsets include. -/
inductive KernFormat
  /-- Format 0: `count` pairs in ascending order. -/
  | pairs (data : Bytes) (count : Nat)
  /-- Format 1: a state machine. -/
  | stateMachine
  /-- Format 2: a two-dimensional array of classes. -/
  | classes (data : Bytes) (headerLength : Nat)
  /-- Format 3: classes in bytes, and an index of values. -/
  | indexedClasses (data : Bytes)

/-- A kerning subtable. -/
structure KernSubtable where
  horizontal : Bool
  /-- Whether the values hold for variations of the font only. -/
  forVariations : Bool
  /-- Whether the values move glyphs across the line. -/
  crossStream : Bool
  format : KernFormat

namespace KernFormat

/-- Whether a state machine with its class table and the starts of its arrays
    lies in the data. -/
def isStateMachine (data : Bytes) : Bool :=
  let parts : Option Bool := do
    let classes ← data.uint16? 2
    let states ← data.uint16? 4
    let entries ← data.uint16? 6
    let count ← data.uint16? (classes + 2)
    some (data.covers (classes + 4) count && states ≤ data.size && entries ≤ data.size)
  parts.getD false

/-- Reads a subtable's data by its format. -/
def read? (format headerLength : Nat) (data : Bytes) : Option KernFormat := do
  match format with
  | 0 =>
    let count ← data.uint16? 0
    if data.covers 8 (6 * count) then some (.pairs data count) else none
  | 1 => if isStateMachine data then some .stateMachine else none
  | 2 => some (.classes data headerLength)
  | 3 => some (.indexedClasses data)
  | _ => none

/-- The value of a pair in format 0. -/
def pairValue? (data : Bytes) (count left right : Nat) : Option Int := do
  let index ← Bytes.search? (fun i =>
    (data.uint32? (8 + 6 * i)).map fun pair => compare pair (65536 * left + right)) count
  data.int16? (8 + 6 * index + 4)

/-- The class of a glyph in a class table of format 2; a glyph outside the table
    has class 0. -/
def classOf (data : Bytes) (table glyph : Nat) : Nat :=
  let found : Option Nat := do
    let first ← data.uint16? table
    let count ← data.uint16? (table + 2)
    if first ≤ glyph && glyph - first < count && data.covers (table + 4) (2 * count) then
      data.uint16? (table + 4 + 2 * (glyph - first))
    else none
  found.getD 0

/-- The value of a pair in format 2. Its offsets count from the header, and the
    classes are offsets already, that of the left glyph into the array. -/
def classValue? (data : Bytes) (headerLength left right : Nat) : Option Int := do
  let leftTable ← data.uint16? 2
  let rightTable ← data.uint16? 4
  let array ← data.uint16? 6
  if leftTable < headerLength || rightTable < headerLength || array < headerLength then none
  else
    let leftClass := classOf data (leftTable - headerLength) left
    let rightClass := classOf data (rightTable - headerLength) right
    if leftClass < array - headerLength || leftClass + rightClass < headerLength then none
    else data.int16? (leftClass + rightClass - headerLength)

/-- The value of a pair in format 3. -/
def indexedValue? (data : Bytes) (left right : Nat) : Option Int := do
  let glyphCount ← data.uint16? 0
  let valueCount ← data.byte? 2
  let leftCount ← data.byte? 3
  let rightCount ← data.byte? 4
  let leftStart := 6 + 2 * valueCount
  let rightStart := leftStart + glyphCount
  let indexStart := rightStart + glyphCount
  if !data.covers indexStart (leftCount * rightCount) || glyphCount ≤ left || glyphCount ≤ right
  then none
  else
    let leftClass ← data.byte? (leftStart + left)
    let rightClass ← data.byte? (rightStart + right)
    let place := leftClass * rightCount + rightClass
    if leftCount < leftClass || rightCount < rightClass || leftCount * rightCount ≤ place then none
    else
      let index ← data.byte? (indexStart + place)
      if index < valueCount then data.int16? (6 + 2 * index) else none

/-- The value of a pair of glyphs. -/
def value? (format : KernFormat) (left right : Nat) : Option Int :=
  match format with
  | pairs data count => pairValue? data count left right
  | stateMachine => none
  | classes data headerLength => classValue? data headerLength left right
  | indexedClasses data => indexedValue? data left right

end KernFormat

namespace KernSubtable

/-- Whether the values are found by a state machine. -/
def hasStateMachine (t : KernSubtable) : Bool :=
  match t.format with
  | .stateMachine => true
  | _ => false

/-- The value of a pair of glyphs. -/
def value? (t : KernSubtable) (left right : Nat) : Option Int := t.format.value? left right

/-- The subtable at `place` under the short header, and where the next one
    starts. An only subtable extends to the end, whatever its length says. -/
def readShort? (data : Bytes) (only : Bool) (place : Nat) : Option (KernSubtable × Nat) := do
  let length ← data.uint16? (place + 2)
  let format ← data.byte? (place + 4)
  let coverage ← data.byte? (place + 5)
  if format ≠ 0 && format ≠ 2 || (!only && length < 6) then none
  else
    let start := place + 6
    let length := if only then data.size - start else length - 6
    let format ← KernFormat.read? format 6 (← data.slice? start length)
    some (⟨coverage.testBit 0, false, coverage.testBit 2, format⟩, start + length)

/-- The subtable at `place` under the long header, and where the next one
    starts. -/
def readLong? (data : Bytes) (place : Nat) : Option (KernSubtable × Nat) := do
  let length ← data.uint32? place
  let coverage ← data.byte? (place + 4)
  let format ← data.byte? (place + 5)
  if 3 < format || length < 8 then none
  else
    let start := place + 8
    let format ← KernFormat.read? format 8 (← data.slice? start (length - 8))
    some (⟨!coverage.testBit 7, coverage.testBit 5, coverage.testBit 6, format⟩,
      start + (length - 8))

/-- The subtables from `place` on, up to the end of the data or the first one that
    cannot be read. `steps` bounds how many there can be. -/
def readFrom (data : Bytes) (read : Nat → Option (KernSubtable × Nat)) :
    (steps place : Nat) → List KernSubtable
  | steps + 1, place =>
    if data.size ≤ place then []
    else
      match read place with
      | some (t, next) => t :: readFrom data read steps next
      | none => []
  | 0, _ => []

/-- The subtables of a `kern` table, if its header can be read. They fill the
    table: their number in the header only tells whether there are any, and under
    the short header whether there is just one. Every subtable takes six bytes or
    more. -/
def readTable? (data : Bytes) : Option (List KernSubtable) := do
  let (count, read, start) ←
    if (← data.uint16? 0) = 0 then do
      let count ← data.uint16? 2
      pure (count, readShort? data (count == 1), 4)
    else
      pure (← data.uint32? 4, readLong? data, 8)
  some (if count = 0 then [] else readFrom data read data.size start)

end KernSubtable

end OpenType

end Lettering
