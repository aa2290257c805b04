import Lettering.Shaping.Font
import Lettering.Unicode.Canonical
import Lettering.Unicode.Category
import Lettering.Unicode.Ignorable
import Lettering.Unicode.Script

/-!
# Normalization for a font

Before glyphs are placed, characters are chosen that the font has glyphs for:
what it lacks is taken apart, marks are put in order, and marks are joined with
what they stand on if the font has the result. This happens in three rounds.

* `Shaping.decomposed` takes characters apart. A character without marks stays
  as it is if the font has it; one with marks is taken apart as far as the font
  has the parts, and so is every character of a text in syllables.
* `Shaping.reordered` sorts every sequence of marks by their order.
* `Shaping.recomposed` joins marks with the starter before them.
-/

namespace Lettering

namespace Shaping

open Unicode

/-- The spaces that are made of the font's space when it lacks them. -/
inductive SpaceWidth
  /-- As wide as the space. -/
  | space
  /-- One `n`-th of the em. -/
  | fraction (n : Nat)
  /-- Four eighteenths of the em. -/
  | fourEighteenths
  /-- As wide as a digit. -/
  | figure
  /-- As wide as a full stop. -/
  | punctuation
  /-- Half as wide as the space. -/
  | narrow
deriving DecidableEq, Repr

/-- The width of a space that the font lacks. -/
def spaceWidth? (c : Char) : Option SpaceWidth :=
  match c.toNat with
  | 0x20 | 0xA0 => some .space
  | 0x2000 | 0x2002 => some (.fraction 2)
  | 0x2001 | 0x2003 | 0x3000 => some (.fraction 1)
  | 0x2004 => some (.fraction 3)
  | 0x2005 => some (.fraction 4)
  | 0x2006 => some (.fraction 6)
  | 0x2007 => some .figure
  | 0x2008 => some .punctuation
  | 0x2009 => some (.fraction 5)
  | 0x200A => some (.fraction 16)
  | 0x202F => some .narrow
  | 0x205F => some .fourEighteenths
  | _ => none

/-- A character with the glyph chosen for it. -/
structure Item where
  char : Char
  glyph : Nat
  /-- The width it gets if it is a space made of another one. -/
  space : Option SpaceWidth := none
  /-- Whether it separates its neighbours although it is ignorable. -/
  separates : Bool := Unicode.isSeparating char
deriving DecidableEq, Repr

/-- A character with its glyph. -/
def Item.of (char : Char) (glyph : Nat) : Item := { char, glyph }

/-! ## First round -/

/-- The parts of a character that the font has glyphs for, if it can be taken
    apart into such; with `shortest` no further than needed. Every step of a
    decomposition leads to a character that is taken apart in fewer steps, and
    there are less than `depth` of them. -/
def parts? (font : Font) (shortest : Bool) : (depth : Nat) → Char → Option (List Item)
  | 0, _ => none
  | depth + 1, c => do
    let (first, second) ← decompose? c
    let last ← match second with
      | none => some []
      | some s => (font.glyph? s).map fun g => [.of s g]
    let whole := (font.glyph? first).map fun g => [.of first g]
    let front ← if shortest then whole.or (parts? font shortest depth first)
      else (parts? font shortest depth first).or whole
    some (front ++ last)

/-- How many steps of decomposition a character takes at most. -/
def maxDepth : Nat := 8

/-- The items of a character that the font does not have, and that cannot be
    taken apart: a space or a hyphen made of another one, or glyph 0. -/
def substitute (font : Font) (c : Char) : Item :=
  match (spaceWidth? c).bind fun w => (font.glyph? ' ').map fun g => (w, g) with
  | some (w, g) => { char := c, glyph := g, space := some w }
  | none =>
    let hyphen := if c = '\u2011' then font.glyph? '\u2010' else none
    .of c (hyphen.getD 0)

/-- The items of a character that no mark follows, in a text without syllables. -/
def itemsAlone (font : Font) (c : Char) : List Item :=
  match font.glyph? c with
  | some g => [.of c g]
  | none => (parts? font true maxDepth c).getD [substitute font c]

/-- The items of a character that stands with marks, or in a text in syllables. -/
def itemsInCluster (font : Font) (c : Char) : List Item :=
  (parts? font false maxDepth c).getD <|
    match font.glyph? c with
    | some g => [.of c g]
    | none => [substitute font c]

/-- Whether `c` selects a variant of the character before it. -/
def isVariationSelector (c : Char) : Bool :=
  let n := c.toNat
  (0xFE00 ≤ n && n ≤ 0xFE0F) || (0xE0100 ≤ n && n ≤ 0xE01EF)

/-- The items of a character and the marks after it. With a variation selector
    among them nothing is taken apart. -/
def itemsOfCluster (font : Font) (cluster : Text) : List Item :=
  if cluster.any isVariationSelector then
    cluster.map fun c => .of c ((font.glyph? c).getD 0)
  else cluster.flatMap (itemsInCluster font)

/-- The items of a text, every character being taken together with the marks
    after it. -/
def decomposed (font : Font) (syllabic : Bool) : Text → List Item
  | [] => []
  | c :: rest =>
    let marks := rest.takeWhile isMark
    let later := rest.dropWhile isMark
    (if !marks.isEmpty then itemsOfCluster font (c :: marks)
      else if syllabic then itemsInCluster font c
      else itemsAlone font c)
      ++ decomposed font syllabic later
termination_by t => t.length
decreasing_by
  have h := (List.dropWhile_sublist (l := rest) isMark).length_le
  simp only [List.length_cons]
  omega

/-! ## Second round -/

/-- The order of an item among marks; 0 if it is no mark that is ordered. -/
def Item.order (i : Item) : Nat := if isMark i.char then markOrder i.char else 0

/-- The longest sequence of marks that is put in order. -/
def maxMarks : Nat := 32

/-- The items with every sequence of ordered marks sorted, equal ones keeping
    their places. -/
def reordered : List Item → List Item
  | [] => []
  | i :: rest =>
    if i.order = 0 then i :: reordered rest
    else
      let marks := i :: rest.takeWhile (·.order != 0)
      let later := rest.dropWhile (·.order != 0)
      (if marks.length ≤ maxMarks then marks.mergeSort (fun a b => a.order ≤ b.order) else marks)
        ++ reordered later
termination_by l => l.length
decreasing_by
  · simp
  · have h := (List.dropWhile_sublist (l := rest) (·.order != 0)).length_le
    simp only [List.length_cons]
    omega

/-- The items with every grapheme joiner that no longer keeps marks apart made
    skippable: between two others, the later of which may stand behind the
    earlier one. `before` is the order of the item before the first one. -/
def releaseJoiners (before : Nat) : List Item → List Item
  | i :: next :: rest =>
    let free := i.char = '\u034F' ∧ (next.order = 0 ∨ before ≤ next.order)
    (if free then { i with separates := false } else i) :: releaseJoiners i.order (next :: rest)
  | l => l

/-- The second round. The first item keeps its place in every case. -/
def ordered (items : List Item) : List Item :=
  match reordered items with
  | [] => []
  | i :: rest => i :: releaseJoiners i.order rest

/-! ## Third round -/

/-- What a starter and the item after it join to, if the font has it. In a text in
    syllables nothing is joined to a mark. -/
def joined? (font : Font) (syllabic : Bool) (starter i : Item) : Option Item :=
  if !isMark i.char || (syllabic && isMark starter.char) then none
  else do
    let c ← compose? starter.char i.char
    let g ← font.glyph? c
    some (.of c g)

/-- Joins items to the right with the starter before them. `before` holds the
    items already passed that stand between the starter and the next item, the
    last one first. -/
def joinMarks (font : Font) (syllabic : Bool) (starter : Item) (before : List Item) :
    List Item → List Item
  | [] => starter :: before.reverse
  | i :: rest =>
    let blocked := match before with
      | [] => false
      | last :: _ => i.order ≤ last.order
    match if blocked then none else joined? font syllabic starter i with
    | some starter => joinMarks font syllabic starter before rest
    | none =>
      if i.order = 0 then starter :: (before.reverse ++ joinMarks font syllabic i [] rest)
      else joinMarks font syllabic starter (i :: before) rest

/-- The items with marks joined to what they stand on, where the font has the
    result. -/
def recomposed (font : Font) (syllabic : Bool) : List Item → List Item
  | [] => []
  | i :: rest => joinMarks font syllabic i [] rest

/-- The items that a text is shown by in a font. Without marks the first round
    is all. -/
def normalized (font : Font) (t : Text) : List Item :=
  let items := decomposed font (isSyllabic t) t
  if t.tail.any isMark then recomposed font (isSyllabic t) (ordered items) else items

end Shaping

end Lettering
