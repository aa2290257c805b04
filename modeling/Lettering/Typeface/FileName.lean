import Lettering.Text.Basic

/-!
# File names

The name of the file that a path leads to, and its parts before and after the
last dot. A dot in front of a name belongs to the name.
-/

namespace Lettering

namespace Typeface

namespace FileName

/-- The last name in a path, separators and single dots at its end aside; a path
    to the directory above has none. -/
def ofPath? (path : Text) : Option Text :=
  let names := (path.splitOn '/').filter fun name => !(name == [] || name == ['.'])
  names.getLast?.filter (· ≠ ['.', '.'])

/-- A name cut at its last dot, if there is one behind the first character. -/
def cutAtDot? (name : Text) : Option (Text × Text) :=
  let extension := (name.reverse.takeWhile (· ≠ '.')).reverse
  let stem := name.take (name.length - extension.length - 1)
  if extension.length < name.length ∧ stem ≠ [] then some (stem, extension) else none

/-- The name without what follows its last dot. -/
def stem (name : Text) : Text := ((cutAtDot? name).map Prod.fst).getD name

/-- What follows the last dot. -/
def extension? (name : Text) : Option Text := (cutAtDot? name).map Prod.snd

/-- Whether a name is that of a font file. -/
def isFont (name : Text) : Bool :=
  (extension? name).any fun e => Text.lower e == "ttf".toList || Text.lower e == "otf".toList

end FileName

end Typeface

end Lettering
