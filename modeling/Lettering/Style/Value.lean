import Lettering.KeyedList
import Lettering.Single.Decimal

/-!
# Style values and rules

A style property has a text or a number as its value. Rules assign values to
property names; they keep the order in which the names were first assigned.
-/

namespace Lettering

/-- The value of a style property. -/
inductive StyleValue
  | text (value : String)
  | number (value : Single)
deriving DecidableEq, Repr

namespace StyleValue

/-- The value of a whole number, rounded to single precision. -/
def ofInt (n : Int) : StyleValue := .number (Single.ofInt n)

/-- The text of a textual value. -/
def asText? : StyleValue → Option String
  | text s => some s
  | number _ => none

/-- The number of a numeric value, or the one that a text writes. -/
def asNumber? : StyleValue → Option Single
  | text s => Single.ofText? (Text.trim s.toList)
  | number x => some x

/-- The value as text. -/
def display : StyleValue → String
  | text s => s
  | number x => String.ofList x.text

/-- Equality of values, numbers being compared as numbers. -/
def numEq : StyleValue → StyleValue → Bool
  | text s, text t => s == t
  | number x, number y => x.numEq y
  | _, _ => false

/-- The value as text, or `default` for an empty text, a zero and what is not a
    number. -/
def displayOr (default : String) : StyleValue → String
  | text s => if s = "" then default else s
  | number x => if x.isZero || x.isNaN then default else String.ofList x.text

end StyleValue

/-- Values by property name. -/
abbrev Rules := KeyedList String StyleValue

/-- Equality of rules entry by entry, numbers being compared as numbers. -/
def Rules.numEq (r s : Rules) : Bool :=
  r.size == s.size &&
    (r.entries.zip s.entries).all fun (a, b) => a.1 == b.1 && a.2.numEq b.2

end Lettering
