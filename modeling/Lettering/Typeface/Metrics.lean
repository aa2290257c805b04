import Lettering.Length
import Lettering.Typeface.Library

/-!
# Metrics

The widths of a face for the characters U+0020 to U+00FF, tabulated in
thousandths of an em: an advance for every character, and kerning between the
glyphs of neighbours. Characters outside the range count as wide as the space,
and have no kerning.
-/

namespace Lettering

namespace Typeface

/-! ## Glyphs -/

namespace Face

/-- The map of a symbol font, which has no Unicode map: the one for Windows
    symbols, otherwise the first one. -/
def symbolMap? (face : Face) : Option CharMap := do
  let maps ← face.charMaps?
  if maps.any (·.isUnicode) then none
  else (maps.find? fun m => m.platform == .windows && m.encoding == 0).or maps.head?

/-- The glyph of a code, in a symbol font also of the code moved into the private
    use area. -/
def glyphOfCode? (face : Face) (code : Nat) : Option Nat :=
  (face.glyph? (Char.ofNat code)).or <|
    face.symbolMap?.bind fun m => (m.glyph? code).or (m.glyph? (code + 0xF000))

end Face

/-! ## Tables -/

/-- The first tabulated character. -/
def firstCode : Nat := 0x20

/-- The last tabulated character. -/
def lastCode : Nat := 0xFF

/-- Tabulated glyphs and advances, and the kerning that applies between
    glyphs. -/
structure Metrics where
  /-- The number of thousandths of an em per unit of the font. -/
  scale : Single
  /-- The glyphs of the characters from `firstCode` on; 0 if there is none. -/
  glyphs : Array Nat
  /-- The advances of the characters from `firstCode` on. -/
  advances : Array Nat
  /-- The tables whose values add up to the kerning. -/
  kerning : List KernTable

namespace Metrics

/-- A number of font units in thousandths of an em, rounded to the nearest. -/
def toThousandths (scale : Single) (units : Int) : Int := (Single.ofInt units * scale).nearestInt 1

/-- The tables that move glyphs along the line, without a state machine. -/
def appliesToPairs (t : KernTable) : Bool := t.horizontal && !t.crossStream && !t.stateMachine

/-- The metrics of a face. -/
def ofFace (face : Face) : Metrics :=
  let scale := Single.ofInt 1000 / Single.ofInt (max face.unitsPerEm.toNat 1)
  let codes := (List.range (lastCode - firstCode + 1)).map (firstCode + ·)
  let glyphs := codes.map face.glyphOfCode?
  let advance (glyph : Option Nat) : Nat :=
    let units := (glyph.bind face.advance?).getD 0
    (min (toThousandths scale units.toNat) (2 ^ 16 - 1)).toNat
  {
    scale
    glyphs := (glyphs.map (·.getD 0)).toArray
    advances := (glyphs.map advance).toArray
    kerning := (face.kerning?.getD []).filter appliesToPairs
  }

/-- The place of a character in the tables. -/
def slot? (c : Char) : Option Nat :=
  if firstCode ≤ c.toNat ∧ c.toNat ≤ lastCode then some (c.toNat - firstCode) else none

/-- Whether every character of a text is tabulated. -/
def covers (t : Text) : Bool := t.all fun c => (slot? c).isSome

/-- The glyph of a character; 0 if there is none. -/
def glyph (m : Metrics) (c : Char) : Nat := ((slot? c).bind (m.glyphs[·]?)).getD 0

/-- The advance of a character that is not tabulated: that of the space. -/
def missingAdvance (m : Metrics) : Nat := m.advances[0]?.getD 0

/-- The advance of a character. -/
def advance (m : Metrics) (c : Char) : Nat :=
  match slot? c with
  | some i => m.advances[i]?.getD 0
  | none => m.missingAdvance

/-- The values of all tables for a pair of glyphs, added up in a 32-bit word. -/
def kernUnits (m : Metrics) (left right : Nat) : Int32 :=
  (m.kerning.filterMap (·.value? left right)).foldl (fun sum value => sum + value.toInt32) 0

/-- The kerning between two glyphs, in the range of signed 16-bit words; there is
    none next to glyph 0. -/
def kern (m : Metrics) (left right : Nat) : Int :=
  if left = 0 ∨ right = 0 then 0
  else max (-2 ^ 15) (min (toThousandths m.scale (m.kernUnits left right).toInt) (2 ^ 15 - 1))

/-- Clips an integer to the range of signed 32-bit words. -/
def clip32 (n : Int) : Int := max (-2 ^ 31) (min n (2 ^ 31 - 1))

/-- The width of a text in thousandths of an em, added to `total`: for every
    character its advance and then its kerning after the glyph before it, every
    sum being clipped. -/
def unitsFrom (m : Metrics) (total : Int) (before : Option Nat) : Text → Int
  | [] => total
  | c :: rest =>
    let total := clip32 (total + m.advance c)
    let total := match before with
      | some left => clip32 (total + m.kern left (m.glyph c))
      | none => total
    m.unitsFrom total (some (m.glyph c)) rest

/-- The width of a text in thousandths of an em. -/
def units (m : Metrics) (t : Text) : Int := m.unitsFrom 0 none t

/-- The width of `units` thousandths of an em at a font size; a width is not
    negative. -/
def widthOf (size : Length) (units : Int) : Length :=
  if units ≤ 0 then 0 else size.timesRatio units 1000

/-- The width of a text at a font size. -/
def width (m : Metrics) (size : Length) (t : Text) : Length := widthOf size (m.units t)

end Metrics

/-! ## Shaped texts -/

namespace Shaper

/-- An advance in thousandths of an em, half an em unit being added before the
    division drops the rest. -/
def toThousandths (s : Shaper) (advance : Int32) : Int64 :=
  let em := (max s.unitsPerEm 1).toInt64
  (advance.toInt64 * 1000 + em / 2) / em

/-- The width of a text in thousandths of an em, added up in a 64-bit word. -/
def units (s : Shaper) (t : Text) : Int64 :=
  ((s.advances t).map s.toThousandths).foldl (· + ·) 0

/-- The width of a text at a font size, if it is shown by any glyph. -/
def width? (s : Shaper) (size : Length) (t : Text) : Option Length :=
  if (s.advances t).isEmpty then none
  else some (Metrics.widthOf size (min (s.units t).toInt (2 ^ 31 - 1)))

end Shaper

end Typeface

end Lettering
