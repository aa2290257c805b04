import Lettering.OpenType.Face

/-!
# Fonts for shaping

What shaping asks of a face: the glyph of a character in the best character map,
the advance of a glyph, and the kerning between glyphs.
-/

namespace Lettering

namespace Shaping

open OpenType

/-- What shaping asks of a font. -/
structure Font where
  unitsPerEm : Nat
  /-- The glyph of a character. -/
  glyph? : Char → Option Nat
  /-- The advance of a glyph in units of the em. -/
  advance : Nat → Nat
  /-- The kerning subtables that apply one after the other. -/
  kerning : List KernSubtable

/-- The platforms and encodings of the maps that can be shaped with, the best
    first: Windows symbols, the maps of all of Unicode, and those of its first
    plane. -/
def preferredMaps : List (Nat × Nat) :=
  [(3, 0), (3, 10), (0, 6), (0, 4), (3, 1), (0, 3), (0, 2), (0, 1), (0, 0)]

/-- The best map of a face. -/
def bestMap? (face : Face) : Option CharMap :=
  preferredMaps.findSome? fun (platform, encoding) =>
    face.charMaps.find? fun m => m.platform == platform && m.encoding == encoding

/-- The glyph of a code; in a map for symbols the codes below U+0100 also stand
    for those moved into the private use area. -/
def glyphIn? (m : CharMap) (code : Nat) : Option Nat :=
  (m.glyph? code).or <|
    if m.platform = 3 ∧ m.encoding = 0 ∧ code ≤ 0xFF then m.glyph? (0xF000 + code) else none

/-- What shaping asks of a face. A face without horizontal metrics has glyphs one
    em wide. -/
def Font.ofFace (face : Face) : Font where
  unitsPerEm := face.unitsPerEm
  glyph? c := (bestMap? face).bind fun m => glyphIn? m c.toNat
  advance glyph :=
    if face.metrics.isSome then (face.advance? glyph).getD 0 else face.unitsPerEm
  kerning := (face.kerning.getD []).filter fun t =>
    t.horizontal && !t.forVariations && !t.crossStream && !t.hasStateMachine

/-- Whether a font has a glyph for a character. -/
def Font.has (font : Font) (c : Char) : Bool := (font.glyph? c).isSome

end Shaping

end Lettering
