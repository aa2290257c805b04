import Lettering.Error
import Lettering.KeyedList
import Lettering.Typeface.Directory
import Lettering.Typeface.FileName
import Lettering.Typeface.Metrics
import Lettering.Typeface.WidthCache

/-!
# The font registry

Faces are registered from font data, as a library reads them, and found by their
names. A face goes by its full name, its PostScript name, its family and the name of
its file; a name that an earlier face goes by stays with that face.

* `Registry.resolve?` finds the face for a list of families.
* `Registry.measure` measures a text in that face, or by a flat estimate when
  there is none.
-/

namespace Lettering

namespace Typeface

/-- A registered face. -/
structure LoadedFace where
  name : String
  metrics : Metrics
  /-- The shaper for its font data, if there is one. -/
  shaper? : Option Shaper

/-- The faces and how they are measured. -/
structure Registry where
  /-- The faces in the order of their registration. -/
  faces : Array LoadedFace := #[]
  /-- The places of the faces by normalized name. -/
  places : KeyedList Text Nat := ∅
  /-- Whether texts beyond the tabulated characters are shaped. -/
  shapes : Bool := true
  /-- The widths measured last. -/
  cache : WidthCache := { capacity := 20000 }

namespace Registry

instance : Inhabited Registry := ⟨{}⟩

/-- Shapes texts beyond the tabulated characters, or measures them by the
    table. -/
def setShapes (r : Registry) (on : Bool) : Registry := { r with shapes := on }

/-! ## Registration -/

/-- A name as it is looked up: without white space and quotation marks around
    it, and in small letters. -/
def normalizeName (name : Text) : Text :=
  Text.lower (Text.trimBy (· == '\x27') (Text.trimBy (· == '"') (Text.trim name)))

/-- The purposes of names: the family and the typographic family, the full name,
    and the PostScript name. -/
def familyPurposes : List Nat := [16, 1]

/-- The purpose of a full name. -/
def fullNamePurpose : Nat := 4

/-- The purpose of a PostScript name. -/
def postScriptPurpose : Nat := 6

/-- The first readable name with one of the purposes. -/
def nameFor? (names : List NameEntry) (purposes : List Nat) : Option Text :=
  (names.filter fun e => purposes.contains e.purpose).findSome? NameEntry.text?

/-- The names of a face from a source: the first one is its primary name. -/
def faceNames (face : Face) (source : Text) : Text × List Text :=
  let family := nameFor? face.names familyPurposes
  let full := nameFor? face.names [fullNamePurpose]
  let postScript := nameFor? face.names [postScriptPurpose]
  let stem := (FileName.ofPath? source).map FileName.stem
  let primary := (((full.or postScript).or family).or stem).getD "EmbeddedFont".toList
  (primary, ([family, full, postScript, stem].filterMap id).filter (· ≠ primary))

/-- Lets the names lead to a place, except those that lead to one already. -/
def addNames (places : KeyedList Text Nat) (names : List Text) (place : Nat) :
    KeyedList Text Nat :=
  ((names.map normalizeName).filter (· ≠ [])).foldl (fun places n => places.setNew n place) places

/-- The error for font data from a source that the library cannot read. -/
def refusal (source : Text) (message : String) : DrawError :=
  .asset ("invalid font data for " ++ String.ofList source ++ ": " ++ message)

/-- The registry with one more face, under its names. -/
def addFace (r : Registry) (face : LoadedFace) (names : List Text) : Registry :=
  { r with
    faces := r.faces.push face
    places := addNames r.places names r.faces.size }

/-- A face as it is registered, with the shaper for its font data. -/
def loadedFace (lib : Library) (data : Bytes) (face : Face) (source : Text) : LoadedFace where
  name := String.ofList (faceNames face source).1
  metrics := Metrics.ofFace face
  shaper? := lib.shaper? data

/-- Registers the face in font data and tells its primary name. -/
def register (lib : Library) (r : Registry) (data : Bytes) (source : Text) :
    Except DrawError (Text × Registry) :=
  match lib.read data with
  | .error message => .error (refusal source message)
  | .ok face =>
    let (primary, aliases) := faceNames face source
    .ok (primary, r.addFace (loadedFace lib data face source) (primary :: aliases))

/-- Registers the face in a font file. Files that are not named as fonts, or
    cannot be read, are skipped. -/
def registerFile (lib : Library) (r : Registry) (path : Text) (content : Option Bytes) :
    Option (Text × Registry) :=
  match FileName.ofPath? path, content with
  | some name, some data =>
    if FileName.isFont name then (r.register lib data path).toOption else none
  | _, _ => none

/-- Registers the font files of a directory in the order of their names, and
    tells how many there were. -/
def registerDirectory (lib : Library) (r : Registry) (d : Directory) : Nat × Registry :=
  d.files.foldl (fun (count, r) (name, content) =>
    match r.registerFile lib name (some content) with
    | some (_, r) => (count + 1, r)
    | none => (count, r)) (0, r)

/-! ## Look-up -/

/-- The names tried for a family, best first: those of a bold or italic face,
    then the bare one. -/
def candidates (name : Text) (bold italic : Bool) : List Text :=
  (match bold, italic with
    | true, true => [name ++ " bold italic".toList, name ++ "-bolditalic".toList]
    | true, false => [name ++ " bold".toList, name ++ "-bold".toList]
    | false, true => [name ++ " italic".toList, name ++ "-italic".toList]
    | false, false => []) ++ [name]

/-- The families of a list, normalized, empty ones left out. -/
def families (family : Text) : List Text :=
  ((family.splitOn ',').map normalizeName).filter (· ≠ [])

/-- The place of the face for a list of families: of the first candidate of the
    first family that has one. -/
def resolvePlace? (r : Registry) (family : Text) (bold italic : Bool) : Option Nat :=
  (families family).findSome? fun name => (candidates name bold italic).findSome? r.places.get?

/-- The name of the face for a list of families. -/
def resolve? (r : Registry) (family : Text) (bold italic : Bool) : Option String :=
  ((r.resolvePlace? family bold italic).bind (r.faces[·]?)).map LoadedFace.name

/-! ## Measuring -/

/-- The width of a text in an unknown font: six tenths of the size for every
    character, but at least a pixel. The characters are counted by a 32-bit word. -/
def estimate (size : Length) (t : Text) : Length :=
  (max (size.scale (Single.ofInt 6 / Single.ofInt 10)) (Length.ofPixels 1)).times
    (Int32.ofNat t.length).toInt

/-- The width of a text in a face. -/
def faceWidth (shapes : Bool) (face : LoadedFace) (size : Length) (t : Text) : Length :=
  if shapes && !Metrics.covers t then
    (face.shaper?.bind (·.width? size t)).getD (face.metrics.width size t)
  else face.metrics.width size t

/-- The width of a text in the face for a list of families, remembered for the
    next time. -/
def measure (r : Registry) (family : Text) (bold italic : Bool) (size : Length) (t : Text) :
    Length × Registry :=
  match r.resolvePlace? family bold italic with
  | none => (estimate size t, r)
  | some place =>
    let key : WidthKey := ⟨place, size.thousandths, t⟩
    match r.cache.get? key with
    | some width => (width, r)
    | none =>
      match r.faces[place]? with
      | none => (estimate size t, r)
      | some face =>
        let width := faceWidth r.shapes face size t
        (width, { r with cache := r.cache.insert key width })

end Registry

end Typeface

end Lettering
