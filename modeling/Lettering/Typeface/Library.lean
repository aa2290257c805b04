import Lettering.Text.Basic

/-!
# Font libraries

Font files are read by one library, and texts are shaped by another one. Neither is
described here: what they answer is taken as it comes (`Library`), and all that is known
of a font is what they tell of it.

* `Face`: what the reader tells of a font file.
* `Shaper`: what is had from shaping texts in a font.
-/

namespace Lettering

namespace Typeface

/-- Font data. -/
abbrev Bytes := ByteArray

/-! ## Reading -/

/-- What a name or a character map is meant for. -/
inductive Platform
  | unicode
  | macintosh
  | iso
  | windows
  | custom
deriving DecidableEq, Repr

/-- A name in a font file. -/
structure NameEntry where
  /-- What the name is for. -/
  purpose : Nat
  /-- The name, if the reader can make a text of it. -/
  text? : Option Text

/-- A character map. -/
structure CharMap where
  platform : Platform
  encoding : Nat
  /-- Whether the reader takes the codes for those of Unicode. -/
  isUnicode : Bool
  /-- The glyph of a code. -/
  glyph? : Nat → Option Nat

/-- A kerning table. -/
structure KernTable where
  /-- Whether the values are for lines from side to side. -/
  horizontal : Bool
  /-- Whether the values move glyphs across the line. -/
  crossStream : Bool
  /-- Whether the values are found by a state machine. -/
  stateMachine : Bool
  /-- The value of a pair of glyphs. -/
  value? : Nat → Nat → Option Int16

/-- What the reader tells of a font file. Glyphs are numbered. -/
structure Face where
  unitsPerEm : UInt16
  names : List NameEntry
  /-- The glyph of a character. -/
  glyph? : Char → Option Nat
  /-- The advance of a glyph in units of the em. -/
  advance? : Nat → Option UInt16
  /-- The character maps, if there is a table of them. -/
  charMaps? : Option (List CharMap)
  /-- The kerning tables, if the font has kerning. -/
  kerning? : Option (List KernTable)

/-! ## Shaping -/

/-- What is had from shaping texts in a font, from left to right and without features. -/
structure Shaper where
  unitsPerEm : Int32
  /-- The advances of the glyphs that show a text, in units of the em. -/
  advances : Text → List Int32

/-! ## Both libraries -/

/-- The reader and the shaper. -/
structure Library where
  /-- The first face in font data, or the message why there is none. -/
  read : Bytes → Except String Face
  /-- The shaper for the first face in font data, if it takes them. -/
  shaper? : Bytes → Option Shaper

end Typeface

end Lettering
