import Lettering.Text.Basic
import Lettering.Single.Basic

/-!
# Decimal numbers

How numbers of single precision are written and read as decimal text.

* `Single.text` writes the fewest significant digits that read back as the
  number, the nearest of those, never with an exponent; a whole number has no
  point.
* `Single.ofText?` reads an optional sign, digits with an optional point, and
  an optional exponent, and rounds the exact decimal once; `inf`, `infinity`
  and `nan` are read in any case.
-/

namespace Lettering

namespace Single

/-! ## Writing -/

/-- The decimal `digits · 10^exponent`. -/
structure Decimal where
  digits : Nat
  exponent : Int
deriving DecidableEq, Repr

/-- The decimal on the grid of the multiples of `10^g` that reads back as the
    number of the given code, if there is one: of the code's two neighbours on
    the grid those count that lie in the interval of the numbers rounded to the
    code (its ends belong to it iff the code is even), and of two the nearer,
    the upper one on a tie. All lengths are in units of `2⁻¹⁵⁰ · 10^(min g 0)`. -/
def onGrid? (code : Nat) (g : Int) : Option Decimal :=
  let scale := Nat.pow 10 (-g).toNat
  let cell := Nat.pow 10 g.toNat * 2 ^ 150
  let here := magnitudeOf code
  let value := 2 * here * scale
  let low := (magnitudeOf (code - 1) + here) * scale
  let high := (here + magnitudeOf (code + 1)) * scale
  let inside (v : Nat) : Bool :=
    if code % 2 = 0 then low ≤ v && v ≤ high else low < v && v < high
  let below := value / cell
  let above := below + 1
  match inside (below * cell), inside (above * cell) with
  | true, true => some ⟨if 2 * (value % cell) < cell then below else above, g⟩
  | true, false => some ⟨below, g⟩
  | false, true => some ⟨above, g⟩
  | false, false => none

/-- The shortest decimal that reads back as the number of the given nonzero
    finite code. The grids go from `10^39`, above every finite number, down to
    `10^-46`, finer than the distance of any two. -/
def shortest (code : Nat) : Decimal :=
  ((List.range 86).findSome? fun i : Nat => onGrid? code (39 - i)).getD ⟨0, 0⟩

/-- A decimal in positional notation. -/
def Decimal.text (d : Decimal) : Text :=
  let digits := Text.ofNat d.digits
  if 0 ≤ d.exponent then digits ++ List.replicate d.exponent.toNat '0'
  else
    let places := (-d.exponent).toNat
    let padded := List.replicate (places + 1 - digits.length) '0' ++ digits
    padded.take (padded.length - places) ++ '.' :: padded.drop (padded.length - places)

/-- A number as text. -/
def text (x : Single) : Text :=
  if x.isNaN then ['N', 'a', 'N']
  else
    let digits :=
      if x.isInfinite then ['i', 'n', 'f']
      else if x.isZero then ['0']
      else (shortest x.code).text
    if x.negative then '-' :: digits else digits

/-! ## Reading -/

/-- The digits at the start of `t`, and what follows them. -/
def leadingDigits (t : Text) : Text × Text := (t.takeWhile Char.isDigit, t.dropWhile Char.isDigit)

/-- The value of the digits of an exponent. Digits past a value of 65536 are
    dropped: every finite number is long decided by then. -/
def exponentValue (digits : Text) : Nat :=
  digits.foldl (fun n c => if n < 0x10000 then 10 * n + (c.toNat - '0'.toNat) else n) 0

/-- The exponent that a number may end in: none is 0, and `e` must be followed
    by digits up to the end of the text. -/
def exponentOf? : Text → Option Int
  | [] => some 0
  | c :: t =>
    if c = 'e' ∨ c = 'E' then
      let (negative, t) :=
        match t with
        | '-' :: t => (true, t)
        | '+' :: t => (false, t)
        | t => (false, t)
      match leadingDigits t with
      | (digits, []) =>
        if digits.isEmpty then none
        else
          let n := exponentValue digits
          some (if negative then -(n : Int) else n)
      | _ => none
    else none

/-- The magnitude that unsigned decimal notation writes. -/
def unsigned? (t : Text) : Option Decimal :=
  let (whole, t) := leadingDigits t
  let (fraction, t) :=
    match t with
    | '.' :: t => leadingDigits t
    | t => ([], t)
  if whole.isEmpty && fraction.isEmpty then none
  else (exponentOf? t).map fun e =>
    ⟨Nat.ofDigitChars 10 (whole ++ fraction) 0, e - fraction.length⟩

/-- The number of the given sign nearest to a decimal. -/
def ofDecimal (negative : Bool) (d : Decimal) : Single :=
  if 0 ≤ d.exponent then rounded negative (d.digits * Nat.pow 10 d.exponent.toNat * 2 ^ 149) 1
  else rounded negative (d.digits * 2 ^ 149) (Nat.pow 10 (-d.exponent).toNat)

/-- The number that a text writes, if it writes one. -/
def ofText? (t : Text) : Option Single :=
  let (negative, t) :=
    match t with
    | '-' :: t => (true, t)
    | '+' :: t => (false, t)
    | t => (false, t)
  match unsigned? t with
  | some d => some (ofDecimal negative d)
  | none =>
    let word := Text.lower t
    if word = "inf".toList ∨ word = "infinity".toList then some (infinity negative)
    else if word = "nan".toList then some { nan with negative }
    else none

end Single

end Lettering
