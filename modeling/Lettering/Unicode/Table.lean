import Lettering.Text.Basic

/-!
# Tables of character properties

A property is tabulated as text: code points in hexadecimal, one by one or as
ranges `first-last`, separated by blanks; what a property maps a range to
follows a colon.
-/

namespace Lettering

namespace Unicode

/-- A range of code points, both ends included. -/
structure CodeRange where
  first : Nat
  last : Nat
deriving Repr

/-- Whether a code point lies in a range. -/
def CodeRange.contains (r : CodeRange) (code : Nat) : Bool := r.first ≤ code && code ≤ r.last

/-- The value of a hexadecimal digit written with capitals. -/
def hexDigitValue (c : Char) : Nat :=
  if c.isDigit then c.toNat - '0'.toNat else c.toNat - 'A'.toNat + 10

/-- The value of a hexadecimal number. -/
def hexValue (t : Text) : Nat := t.foldl (fun n c => 16 * n + hexDigitValue c) 0

/-- The entries of a table. -/
def entries (table : String) : List Text :=
  (table.toList.splitOnP fun c => c == ' ' || c == '\n').filter fun t => !t.isEmpty

/-- The range that an entry writes. -/
def rangeOf (entry : Text) : CodeRange :=
  match entry.splitOn '-' with
  | [first, last] => ⟨hexValue first, hexValue last⟩
  | _ => ⟨hexValue entry, hexValue entry⟩

/-- The ranges of a table. -/
def rangesOf (table : String) : List CodeRange := (entries table).map rangeOf

/-- The ranges of a table with what they are mapped to. -/
def mappedRangesOf (table : String) : List (CodeRange × Text) :=
  (entries table).filterMap fun entry =>
    match entry.splitOn ':' with
    | [range, value] => some (rangeOf range, value)
    | _ => none

/-- Whether a character lies in one of the ranges. -/
def inRanges (ranges : List CodeRange) (c : Char) : Bool := ranges.any (·.contains c.toNat)

end Unicode

end Lettering
