import Lettering.Style.Value

/-!
# Fonts

A font is requested by style, weight, size and family, as in the shorthand
`italic 700 12px serif`. `Font.ofRules` reads a request off style rules, each
field from its own property.
-/

namespace Lettering

/-- A request for a font. -/
structure Font where
  style : String := "normal"
  weight : String := "400"
  size : Single := Single.ofInt 10
  family : String := "sans-serif"
deriving DecidableEq, Repr

namespace Font

instance : Inhabited Font := ⟨{}⟩

/-- Equality of requests, the sizes being compared as numbers. -/
def numEq (a b : Font) : Bool :=
  a.style == b.style && a.weight == b.weight && a.size.numEq b.size && a.family == b.family

/-- The shorthand form, the size being written with its unit. -/
def shorthand (f : Font) (unit : String) : String :=
  f.style ++ " " ++ f.weight ++ " " ++ String.ofList f.size.text ++ unit ++ " " ++ f.family

/-- The numeric weight that a text writes: digits with an optional plus sign, at
    most 65535. -/
def weightNumber? (t : Text) : Option Nat :=
  let digits := (Text.after? ['+'] t).getD t
  if digits.isEmpty || !digits.all Char.isDigit then none
  else
    let n := Nat.ofDigitChars 10 digits 0
    if n < 2 ^ 16 then some n else none

/-- Whether the weight is a bold one: by name, or 600 and more. -/
def isBold (f : Font) : Bool :=
  let t := Text.lower (Text.trim f.weight.toList)
  if t = "bold".toList ∨ t = "bolder".toList then true
  else if t = "normal".toList ∨ t = "lighter".toList then false
  else (weightNumber? t).any (600 ≤ ·)

/-- Whether the style is a slanted one. -/
def isItalic (f : Font) : Bool :=
  let t := Text.lower (Text.trim f.style.toList)
  t == "italic".toList || t == "oblique".toList

/-! ## Fonts from rules -/

/-- Whether a property belongs to the font: its name starts with `font`. -/
def isFontKey (name : String) : Bool := "font".toList.isPrefixOf name.toList

/-- The weight that a value requests: a whole number in digits, otherwise the
    value as text. -/
def weightOf (v : StyleValue) : String :=
  match v with
  | .number x =>
    if !x.isZero && x.isInteger then String.ofList (Text.ofInt (clipWeight x.integerPart))
    else v.displayOr "400"
  | .text _ => v.displayOr "400"
where
  /-- Weights are kept in the range of signed 64-bit words. -/
  clipWeight (n : Int) : Int := max (-2 ^ 63) (min n (2 ^ 63 - 1))

/-- The size that a value requests: a positive finite number, as text with or
    without the unit `px`; otherwise 10. -/
def sizeOf (v : StyleValue) : Single :=
  let requested :=
    match v with
    | .number x => some x
    | .text s =>
      let t := Text.trim s.toList
      Single.ofText? (Text.trim ((Text.before? "px".toList t).getD t))
  (requested.filter fun x => x.isFinite && Single.zero.numLt x).getD (Single.ofInt 10)

/-- The font that rules request, if any property of theirs belongs to the font:
    a field whose property is absent, and every other font property, leaves the
    default. -/
def ofRules (rules : Rules) : Option Font :=
  if rules.keys.any isFontKey then
    let default : Font := {}
    some {
      style := ((rules.get? "fontStyle").map (·.displayOr default.style)).getD default.style
      weight := ((rules.get? "fontWeight").map weightOf).getD default.weight
      size := ((rules.get? "fontSize").map sizeOf).getD default.size
      family := ((rules.get? "fontFamily").map (·.displayOr default.family)).getD default.family
    }
  else none

end Font

end Lettering
