import Lettering.OpenType.Face
import Lettering.Shaping.Position

/-!
# The libraries at hand

A reader of font files and a shaper without substitutions, as far as they go.
-/

namespace Lettering

namespace OpenType

/-- The platform with a number. -/
def platformOf : Nat → Typeface.Platform
  | 0 => .unicode
  | 1 => .macintosh
  | 2 => .iso
  | 3 => .windows
  | _ => .custom

/-- What the reader tells of a name. -/
def NameRecord.entry (r : NameRecord) : Typeface.NameEntry where
  purpose := r.purpose
  text? := r.text?

/-- What the reader tells of a character map. -/
def CharMap.told (m : CharMap) : Typeface.CharMap where
  platform := platformOf m.platform
  encoding := m.encoding
  isUnicode := m.isUnicode
  glyph? := m.glyph?

/-- What the reader tells of a kerning subtable. -/
def KernSubtable.told (t : KernSubtable) : Typeface.KernTable where
  horizontal := t.horizontal
  crossStream := t.crossStream
  stateMachine := t.hasStateMachine
  value? left right := (t.value? left right).map .ofInt

/-- What the reader tells of a face. -/
def Face.told (face : Face) : Typeface.Face where
  unitsPerEm := .ofNat face.unitsPerEm
  names := face.names.map (·.entry)
  glyph? c := face.unicodeGlyph? c.toNat
  advance? glyph := (face.advance? glyph).map .ofNat
  charMaps? := some (face.charMaps.map (·.told))
  kerning? := face.kerning.map (·.map (·.told))

/-- The shaper for a face. -/
def Face.shaper (face : Face) : Typeface.Shaper where
  unitsPerEm := .ofNat face.unitsPerEm
  advances t := (Shaping.advances (.ofFace face) t).map .ofInt

/-- The reader and the shaper. -/
def library : Typeface.Library where
  read data := ((Face.read data).map Face.told).mapError FaceError.message
  shaper? data := (Face.read data).toOption.map Face.shaper

end OpenType

end Lettering
