import Lettering.Single.Decimal

/-!
# Colours

A colour has three channels, usually between 0 and 1. `Color.parse?` reads the
written forms `#rgb`, `#rrggbb`, `rgb(r, g, b)`, `rgba(r, g, b, a)` and a few
names; it yields the colour together with its alpha. `Color.toHex` writes the
form `#rrggbb`.
-/

namespace Lettering

/-- A colour by its red, green and blue channels. -/
structure Color where
  red : Single
  green : Single
  blue : Single
deriving DecidableEq, Repr

namespace Color

/-- Black. -/
def black : Color := ⟨.zero, .zero, .zero⟩

/-- Equality of the channels as numbers. -/
def numEq (a b : Color) : Bool :=
  a.red.numEq b.red && a.green.numEq b.green && a.blue.numEq b.blue

/-- The channel value of a byte, `n / 255`. -/
def ofByte (n : Nat) : Single := Single.ofInt n / Single.ofInt 255

/-- The colours that have a name, with their alphas. -/
def named? (name : Text) : Option (Color × Single) :=
  if name = "black".toList then some (black, .one)
  else if name = "white".toList then some (⟨.one, .one, .one⟩, .one)
  else if name = "red".toList then some (⟨.one, .zero, .zero⟩, .one)
  else if name = "green".toList then some (⟨.zero, ofByte 128, .zero⟩, .one)
  else if name = "blue".toList then some (⟨.zero, .zero, .one⟩, .one)
  else if name = "gray".toList ∨ name = "grey".toList then
    some (⟨ofByte 128, ofByte 128, ofByte 128⟩, .one)
  else if name = "transparent".toList then some (black, .zero)
  else none

/-! ## Hexadecimal form -/

/-- The value of a hexadecimal digit of either case. -/
def hexDigit? (c : Char) : Option Nat :=
  if '0' ≤ c ∧ c ≤ '9' then some (c.toNat - '0'.toNat)
  else if 'a' ≤ c ∧ c ≤ 'f' then some (c.toNat - 'a'.toNat + 10)
  else if 'A' ≤ c ∧ c ≤ 'F' then some (c.toNat - 'A'.toNat + 10)
  else none

/-- The byte that two characters write. A plus sign may stand for the first
    digit and counts as zero. -/
def hexByte? (high low : Char) : Option Nat := do
  let low ← hexDigit? low
  if high = '+' then some low
  else
    let high ← hexDigit? high
    some (16 * high + low)

/-- The colour of three pairs of hexadecimal digits. -/
def ofHexPairs? (r r' g g' b b' : Char) : Option Color := do
  let red ← hexByte? r r'
  let green ← hexByte? g g'
  let blue ← hexByte? b b'
  some ⟨ofByte red, ofByte green, ofByte blue⟩

/-- The colour of three or six hexadecimal digits; in the short form each digit
    stands for a pair of it. -/
def ofHex? : Text → Option Color
  | [r, g, b] => ofHexPairs? r r g g b b
  | [r, r', g, g', b, b'] => ofHexPairs? r r' g g' b b'
  | _ => none

/-- The byte nearest to a channel, `0 … 1` being `0 … 255`; what is not a number
    counts as zero. -/
def toByte (x : Single) : Nat :=
  let y := x.clamp .zero .one * Single.ofInt 255
  if y.isNaN then 0 else (y.nearestInt 1).toNat

/-- Two hexadecimal digits for a byte. -/
def hexPair (n : Nat) : Text := [(n / 16).digitChar, (n % 16).digitChar]

/-- The form `#rrggbb`. -/
def toHex (c : Color) : Text :=
  '#' :: (hexPair (toByte c.red) ++ hexPair (toByte c.green) ++ hexPair (toByte c.blue))

/-! ## Functional form -/

/-- A channel written as a number from 0 to 255. -/
def channel? (t : Text) : Option Single :=
  (Single.ofText? t).map fun x => x.clamp .zero (Single.ofInt 255) / Single.ofInt 255

/-- An alpha written as a number from 0 to 1. -/
def alpha? (t : Text) : Option Single := (Single.ofText? t).map fun x => x.clamp .zero .one

/-- The colour and alpha of three or four arguments. -/
def ofArguments? : List Text → Option (Color × Single)
  | [r, g, b] => do some (⟨← channel? r, ← channel? g, ← channel? b⟩, .one)
  | [r, g, b, a] => do
    let color : Color := ⟨← channel? r, ← channel? g, ← channel? b⟩
    some (color, ← alpha? a)
  | _ => none

/-- What stands between the parentheses of `rgb(…)` or `rgba(…)`. -/
def arguments? (t : Text) : Option Text :=
  ((Text.after? "rgba(".toList t).or (Text.after? "rgb(".toList t)).bind (Text.before? [')'])

/-- The colour and alpha that a text writes, in any case and with any white
    space around it. -/
def parse? (raw : Text) : Option (Color × Single) :=
  match Text.trim raw with
  | [] => none
  | '#' :: digits => (ofHex? digits).map fun c => (c, .one)
  | t =>
    let t := Text.lower t
    (named? t).or <|
      (arguments? t).bind fun inner => ofArguments? ((inner.splitOn ',').map Text.trim)

end Color

end Lettering
