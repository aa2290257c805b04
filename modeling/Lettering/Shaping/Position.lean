import Lettering.Shaping.Normalize
import Lettering.Unicode.Script

/-!
# Placing glyphs

The glyphs of a text are placed one after the other. Kerning moves a glyph and
its next neighbour that takes room, half of the way each; ignorable characters
take no room, and neither do marks, but in a script whose marks are shaped as
letters.

* `Shaping.advances` are the advances of the glyphs of a text.
-/

namespace Lettering

namespace Shaping

open Unicode

/-- An item with its advance in units of the em. -/
structure Placed where
  item : Item
  advance : Int
deriving DecidableEq, Repr

/-- The advance of a space made of another one, whose own advance is given. -/
def SpaceWidth.advance (font : Font) (own : Nat) : SpaceWidth → Nat
  | space => own
  | fraction n => (font.unitsPerEm + n / 2) / n
  | fourEighteenths => font.unitsPerEm * 4 / 18
  | figure => ((['0', '1', '2', '3', '4', '5', '6', '7', '8', '9'].findSome? font.glyph?).map
      font.advance).getD own
  | punctuation => (((font.glyph? '.').or (font.glyph? ',')).map font.advance).getD own
  | narrow => own / 2

/-- An item with the advance of its glyph, or of the space it stands for. -/
def place (font : Font) (i : Item) : Placed :=
  let own := font.advance i.glyph
  ⟨i, ((i.space.map (·.advance font own)).getD own : Nat)⟩

/-- Whether an item is a mark that takes no room. -/
def Item.isMark (i : Item) : Bool := isNonspacingMark i.char && !isIgnorable i.char

/-- Whether kerning looks past an item. -/
def Item.isSkipped (i : Item) : Bool := i.isMark || (isIgnorable i.char && !i.separates)

/-- Moves `left` and its next neighbour by half of their kerning each, then the
    neighbour and the next one, and so on. -/
def kernFrom (value : Nat → Nat → Int) (left : Placed) (rest : List Placed) : List Placed :=
  let skipped := rest.takeWhile (·.item.isSkipped)
  match _h : rest.dropWhile (·.item.isSkipped) with
  | [] => left :: skipped
  | right :: later =>
    let kern := value left.item.glyph right.item.glyph
    { left with advance := left.advance + kern / 2 } ::
      (skipped ++ kernFrom value { right with advance := right.advance + (kern - kern / 2) } later)
termination_by rest.length
decreasing_by
  have h := (List.dropWhile_sublist (l := rest) (·.item.isSkipped)).length_le
  rw [_h, List.length_cons] at h
  omega

/-- Applies one kerning subtable. -/
def kern (value : Nat → Nat → Int) : List Placed → List Placed
  | [] => []
  | left :: rest => kernFrom value left rest

/-- Takes the room from ignorable characters, and from marks unless they keep it. -/
def clearMarks (keepsMarks : Bool) (p : Placed) : Placed :=
  if (p.item.isMark && !keepsMarks) || isIgnorable p.item.char then { p with advance := 0 }
  else p

/-- The advances of the glyphs that show a text. In a font without a space,
    ignorable characters have no glyph. -/
def advances (font : Font) (t : Text) : List Int :=
  let placed := (normalized font t).map (place font)
  let kerned := font.kerning.foldl
    (fun placed table => kern (fun l r => (table.value? l r).getD 0) placed) placed
  let cleared := kerned.map (clearMarks (hasSpacingMarks t))
  let shown := if font.has ' ' then cleared else cleared.filter (!isIgnorable ·.item.char)
  shown.map (·.advance)

end Shaping

end Lettering
