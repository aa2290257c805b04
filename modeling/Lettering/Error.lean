import Lettering.Markup.Parser

/-!
# Errors

Everything that can keep a text from being drawn or a font from being used, and
the message that tells it.
-/

namespace Lettering

/-- Why something was not done. -/
inductive DrawError
  /-- The tags of the text do not nest. -/
  | nesting (error : Markup.NestingError)
  /-- An option is missing or out of range. -/
  | configuration (reason : String)
  /-- A font cannot be used. -/
  | asset (reason : String)
  /-- A file cannot be used. -/
  | io (reason : String)
deriving DecidableEq, Repr

namespace DrawError

/-- The message of an error. -/
def message : DrawError → String
  | nesting (.mismatched (some expected) found) =>
    "mismatched tags in text: expected </" ++ expected ++ ">, found </" ++ found ++ ">"
  | nesting (.mismatched none found) =>
    "mismatched tags in text: </" ++ found ++ "> has no open tag"
  | nesting (.unclosed name) => "unclosed tag in text: <" ++ name ++ ">"
  | configuration reason => "invalid configuration: " ++ reason
  | asset reason => "asset error: " ++ reason
  | io reason => "io error: " ++ reason

/-- The error of a file in a directory that does not exist. -/
def noSuchFile : DrawError := .io "No such file or directory (os error 2)"

/-- What caused an error, as far as it lies outside. -/
def cause? : DrawError → Option String
  | io reason => some reason
  | _ => none

end DrawError

end Lettering
