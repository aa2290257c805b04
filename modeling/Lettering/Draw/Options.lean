import Lettering.Error
import Lettering.Length
import Lettering.Style.Cascade

/-!
# Options

Drawing needs a width and a line height of at least one pixel each, and takes a
rule table.
-/

namespace Lettering

namespace Draw

/-- The options of drawing. -/
structure Options where
  /-- The right edge of the lines, in pixels. -/
  width? : Option Single := none
  /-- The distance of the lines, in pixels. -/
  lineHeight? : Option Single := none
  /-- The rules by tag. -/
  rules : RuleTable := ∅
deriving DecidableEq, Repr

/-- What is wrong with an option. -/
inductive OptionError
  | missing (name : String)
  | tooSmall (name : String) (value : Single)
deriving DecidableEq, Repr

/-- The message of an error. -/
def OptionError.message : OptionError → String
  | missing name => "missing " ++ name
  | tooSmall name value => name ++ " must be at least 1, got " ++ String.ofList value.text

/-- A required length: present, finite, and at least one pixel. -/
def atLeastOne (name : String) : Option Single → Except OptionError Length
  | none => .error (.missing name)
  | some value =>
    if value.isFinite && Single.one.numLe value then .ok (.ofSingle value)
    else .error (.tooSmall name value)

/-- The width and the line height; the width is checked first. -/
def Options.validate (options : Options) : Except OptionError (Length × Length) := do
  let width ← atLeastOne "width" options.width?
  let lineHeight ← atLeastOne "line_height" options.lineHeight?
  return (width, lineHeight)

end Draw

/-- The error that an invalid option leads to. -/
def DrawError.ofOption (e : Draw.OptionError) : DrawError := .configuration e.message

end Lettering
