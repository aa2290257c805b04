import Lettering.KeyedList
import Lettering.Text.Basic
import Lettering.Typeface.Library

/-!
# Directories of font files

A directory holds files, and directories in which there is nothing. A path leads
from it to one of its files, name by name (`Directory.file?`).
-/

namespace Lettering

namespace Typeface

/-- A directory. -/
structure Directory where
  /-- The names in it, each with the bytes of a file, or with none if the name is
      that of a directory. -/
  entries : KeyedList Text (Option Bytes) := ∅

namespace Directory

/-- Where a path has led to. -/
inductive Place
  /-- The directory itself. -/
  | top
  /-- A directory in it. -/
  | inner
  /-- A file in it. -/
  | file (content : Bytes)

/-- Where a name leads to from a place, if to anything in the directory: an empty
    name and a single dot stay at the place, two dots lead out of it, and there
    is nothing beyond a file. -/
def step? (d : Directory) (place : Place) (name : Text) : Option Place :=
  match place with
  | .top =>
    if name = [] ∨ name = ['.'] then some .top
    else (d.entries.get? name).map fun content => (content.map Place.file).getD .inner
  | .inner =>
    if name = [] ∨ name = ['.'] then some .inner
    else if name = ['.', '.'] then some .top
    else none
  | .file _ => none

/-- The file that a path leads to. A path with a separator in front does not
    start at the directory. -/
def file? (d : Directory) (path : Text) : Option Bytes :=
  if path.head? = some '/' then none
  else
    match (path.splitOn '/').foldlM d.step? Place.top with
    | some (.file content) => some content
    | _ => none

/-- The files in a directory, in the order of their names. -/
def files (d : Directory) : List (Text × Bytes) :=
  (d.entries.entries.filterMap fun (name, content) => content.map (name, ·)).mergeSort
    fun a b => a.1.notAfter b.1

end Directory

end Typeface

end Lettering
