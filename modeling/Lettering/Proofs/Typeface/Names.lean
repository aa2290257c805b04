import Lettering.OpenType.Library
import Lettering.Proofs.KeyedList
import Lettering.Proofs.Typeface.History

/-!
# The names of faces

Faces are registered from font data, from files and from directories of files, and
every face that the library reads comes with its primary name and some aliases. Where
a name leads does not depend on where the faces come from, but on their order only: to
the first one that goes by the name (`places_handleAll`).

So a face need not be found by its own primary name, even if no other face has the
name as its primary one. It is found unless a face before it has the name as an
alias, and then that face is found instead (`resolve?_primary`).
-/

namespace Lettering

namespace Typeface

namespace Registry

/-! ## What is registered -/

/-- What a registry is given at a time. -/
inductive Registration
  | font (data : Bytes) (source : Text)
  | file (path : Text) (content : Option Bytes)
  | directory (d : Directory)

/-- The request that a file makes, if it is named as a font and can be read. -/
def fileRequest? (path : Text) (content : Option Bytes) : Option Request := do
  let name ← FileName.ofPath? path
  let data ← content
  if FileName.isFont name then some (.register data path) else none

/-- The faces that are to be registered, one by one. -/
def Registration.requests : Registration → List Request
  | font data source => [.register data source]
  | file path content => (fileRequest? path content).toList
  | directory d => d.files.flatMap fun f => (fileRequest? f.1 (some f.2)).toList

section

variable (lib : Library)

/-- Registers what is given. Font data without a face is refused. -/
def enroll (r : Registry) : Registration → Registry
  | .font data source => ((r.register lib data source).toOption.map Prod.snd).getD r
  | .file path content => ((r.registerFile lib path content).map Prod.snd).getD r
  | .directory d => (r.registerDirectory lib d).2

/-- Registers what is given, one thing after the other. -/
def enrollAll (r : Registry) (registrations : List Registration) : Registry :=
  registrations.foldl (enroll lib) r

end

variable {lib : Library} {r : Registry} {request : Request} {requests : List Request} {key : Text}

theorem handleAll_append (r : Registry) (requests later : List Request) :
    r.handleAll lib (requests ++ later) = (r.handleAll lib requests).handleAll lib later :=
  List.foldl_append

theorem handle_register (r : Registry) (data : Bytes) (source : Text) :
    r.handle lib (.register data source) =
      ((r.register lib data source).toOption.map Prod.snd).getD r := by
  rw [handle]
  cases r.register lib data source <;> rfl

theorem registerFile_eq (r : Registry) (path : Text) (content : Option Bytes) :
    ((r.registerFile lib path content).map Prod.snd).getD r =
      r.handleAll lib (fileRequest? path content).toList := by
  unfold registerFile fileRequest?
  cases FileName.ofPath? path with
  | none => rfl
  | some name =>
    cases content with
    | none => rfl
    | some data =>
      by_cases hfont : FileName.isFont name
      · simp [hfont, handleAll, handle_register]
      · simp [hfont, handleAll]

theorem registerDirectory_eq (r : Registry) (d : Directory) :
    (r.registerDirectory lib d).2 =
      r.handleAll lib (d.files.flatMap fun f => (fileRequest? f.1 (some f.2)).toList) := by
  unfold registerDirectory
  -- From any count on, the count does not matter.
  generalize d.files = files
  generalize 0 = count
  induction files generalizing count r with
  | nil => rfl
  | cons file files ih =>
    rw [List.flatMap_cons, handleAll_append, ← registerFile_eq, List.foldl_cons]
    cases hr : r.registerFile lib file.1 (some file.2) with
    | none => simpa [hr] using ih r count
    | some registered => simpa [hr] using ih registered.2 (count + 1)

/-- Registering is a matter of registering faces, wherever they come from. -/
theorem enrollAll_eq (r : Registry) (registrations : List Registration) :
    r.enrollAll lib registrations =
      r.handleAll lib (registrations.flatMap Registration.requests) := by
  induction registrations generalizing r with
  | nil => rfl
  | cons registration registrations ih =>
    have henroll : r.enroll lib registration = r.handleAll lib registration.requests := by
      cases registration with
      | font data source => exact (handle_register r data source).symm
      | file path content => exact registerFile_eq r path content
      | directory d => exact registerDirectory_eq r d
    rw [List.flatMap_cons, handleAll_append, ← henroll]
    exact ih _

/-! ## Where names lead -/

section

variable (lib : Library)

/-- The primary name and the aliases of the face that is registered, if any is. -/
def Request.names? : Request → Option (Text × List Text)
  | register data source => (lib.read data).toOption.map fun face => faceNames face source
  | setShapes _ => none
  | measure .. => none

/-- The names of the faces in the order of their registration. -/
def registered (requests : List Request) : List (Text × List Text) :=
  requests.filterMap (Request.names? lib)

end

/-- Whether one of the names of a face is looked up by the key. -/
def goesBy (names : Text × List Text) (key : Text) : Bool :=
  (names.1 :: names.2).any fun name => normalizeName name == key

theorem get?_addNames (hkey : key ≠ []) (places : KeyedList Text Nat) (names : Text × List Text)
    (place : Nat) :
    (addNames places (names.1 :: names.2) place).get? key =
      (places.get? key).or (if goesBy names key then some place else none) := by
  have hmem : key ∈ ((names.1 :: names.2).map normalizeName).filter (· ≠ []) ↔
      goesBy names key := by
    simp only [List.mem_filter, List.mem_map, goesBy, List.any_eq_true, beq_iff_eq,
      decide_eq_true_eq]
    exact and_iff_left hkey
  rw [addNames, KeyedList.get?_foldl_setNew]
  simp only [hmem]

/-- A face that is registered comes last, with its names. -/
theorem handle_of_names?_eq_some {names : Text × List Text} (h : request.names? lib = some names)
    (r : Registry) :
    (r.handle lib request).faces.toList.map LoadedFace.name =
        r.faces.toList.map LoadedFace.name ++ [String.ofList names.1] ∧
      (r.handle lib request).places = addNames r.places (names.1 :: names.2) r.faces.size := by
  cases request with
  | setShapes on => cases h
  | measure => cases h
  | register data source =>
    cases hf : lib.read data with
    | error message => rw [Request.names?, hf] at h; cases h
    | ok face =>
      rw [Request.names?, hf] at h
      cases h
      rw [handle_of_read_eq_ok hf]
      rw [addFace]
      dsimp only
      rw [Array.toList_push, List.map_append]
      exact ⟨rfl, rfl⟩

/-- Otherwise faces and names stay as they are. -/
theorem handle_of_names?_eq_none (h : request.names? lib = none) (r : Registry) :
    (r.handle lib request).faces = r.faces ∧ (r.handle lib request).places = r.places := by
  cases request with
  | setShapes on => exact ⟨rfl, rfl⟩
  | measure family bold italic size text =>
    have ha := alike_measure r family bold italic size text
    exact ⟨ha.faces, ha.places⟩
  | register data source =>
    cases hf : lib.read data with
    | error message => rw [handle_of_read_eq_error hf]; exact ⟨rfl, rfl⟩
    | ok face => rw [Request.names?, hf] at h; cases h

theorem registered_append_singleton (requests : List Request) (request : Request) :
    registered lib (requests ++ [request]) =
      registered lib requests ++ (request.names? lib).toList := by
  cases h : request.names? lib <;> simp [registered, List.filterMap_append, h]

/-- The faces have their primary names. -/
theorem faces_handleAll (requests : List Request) :
    (handleAll lib {} requests).faces.toList.map LoadedFace.name =
      (registered lib requests).map fun names => String.ofList names.1 := by
  induction requests using List.reverseRecOn with
  | nil => rfl
  | append_singleton requests request ih =>
    rw [handleAll_append_singleton, registered_append_singleton]
    cases h : request.names? lib with
    | none => simp [(handle_of_names?_eq_none h _).1, ih]
    | some names => simp [(handle_of_names?_eq_some h _).1, ih]

/-- A name leads to the first face that goes by it. -/
theorem places_handleAll (hkey : key ≠ []) (requests : List Request) :
    (handleAll lib {} requests).places.get? key =
      (registered lib requests).findIdx? (goesBy · key) := by
  induction requests using List.reverseRecOn with
  | nil => rfl
  | append_singleton requests request ih =>
    rw [handleAll_append_singleton, registered_append_singleton]
    cases h : request.names? lib with
    | none => simp [(handle_of_names?_eq_none h _).2, ih]
    | some names =>
      have hsize : (handleAll lib {} requests).faces.size = (registered lib requests).length := by
        simpa using congrArg List.length (faces_handleAll requests)
      rw [(handle_of_names?_eq_some h _).2, get?_addNames hkey, ih, hsize]
      by_cases hgoes : goesBy names key <;> simp [List.findIdx?_append, hgoes]

/-- The family of a name without a comma is the name itself. -/
theorem families_eq {name : Text} (hcomma : ',' ∉ name) (hne : normalizeName name ≠ []) :
    families name = [normalizeName name] := by
  simp [families, List.splitOn_eq_singleton hcomma, hne]

/-- By a name that is neither bold nor italic the first place is found whose face
    goes by it. -/
theorem resolvePlace?_eq_findIdx? (requests : List Request) {name : Text} (hcomma : ',' ∉ name)
    (hne : normalizeName name ≠ []) :
    (handleAll lib {} requests).resolvePlace? name false false =
      (registered lib requests).findIdx? (goesBy · (normalizeName name)) := by
  simp [resolvePlace?, families_eq hcomma hne, candidates, places_handleAll hne]

/-- At a place there is the face that was registered there. -/
theorem map_name_getElem? (requests : List Request) (place : Nat) :
    ((handleAll lib {} requests).faces[place]?).map LoadedFace.name =
      ((registered lib requests)[place]?).map fun names => String.ofList names.1 := by
  rw [← Array.getElem?_toList, ← List.getElem?_map, faces_handleAll, List.getElem?_map]

/-- By a name that is neither bold nor italic the first face is found that goes by
    it. -/
theorem resolve?_eq_find? (requests : List Request) {name : Text} (hcomma : ',' ∉ name)
    (hne : normalizeName name ≠ []) :
    (handleAll lib {} requests).resolve? name false false =
      ((registered lib requests).find? (goesBy · (normalizeName name))).map
        fun names => String.ofList names.1 := by
  rw [resolve?, resolvePlace?_eq_findIdx? requests hcomma hne,
    List.find?_eq_bind_findIdx?_getElem?, Option.map_bind, Option.map_bind]
  exact congrArg _ (funext (map_name_getElem? requests))

variable {registrations : List Registration} {before after : List (Text × List Text)}
  {names : Text × List Text}

/-- After any registrations a look-up by the primary name of a face, neither bold nor
    italic, finds the first face that goes by the name. If the primary names differ,
    this is the face itself just when the name is no alias of a face before it. -/
theorem resolve?_primary
    (h : registered lib (registrations.flatMap Registration.requests) = before ++ names :: after)
    (hdistinct : ((before ++ names :: after).map fun n => normalizeName n.1).Nodup)
    (hne : normalizeName names.1 ≠ []) (hcomma : ',' ∉ names.1) :
    let found := (enrollAll lib {} registrations).resolve? names.1 false false
    (∃ first ∈ (before ++ names :: after).find? (goesBy · (normalizeName names.1)),
        found = some (String.ofList first.1)) ∧
      (found = some (String.ofList names.1) ↔
        ∀ earlier ∈ before, ∀ other ∈ earlier.2, normalizeName other ≠ normalizeName names.1) := by
  intro found
  have hself : (names :: after).find? (goesBy · (normalizeName names.1)) = some names :=
    List.find?_cons_of_pos (by simp [goesBy])
  have hprimary : ∀ earlier ∈ before, normalizeName earlier.1 ≠ normalizeName names.1 := by
    intro earlier hm
    rw [List.map_append, List.nodup_append] at hdistinct
    exact hdistinct.2.2 _ (List.mem_map_of_mem hm) _ (by simp)
  have hfound : found = ((before ++ names :: after).find? (goesBy · (normalizeName names.1))).map
      fun first => String.ofList first.1 := by
    rw [← h, ← resolve?_eq_find? _ hcomma hne, ← enrollAll_eq]
  rw [List.find?_append, hself] at hfound ⊢
  cases hearlier : before.find? (goesBy · (normalizeName names.1)) with
  | none =>
    rw [hearlier] at hfound
    refine ⟨⟨names, rfl, hfound⟩, fun _ earlier hm other ho hother => ?_, fun _ => hfound⟩
    refine List.find?_eq_none.mp hearlier earlier hm ?_
    exact List.any_eq_true.mpr ⟨other, List.mem_cons_of_mem _ ho, beq_iff_eq.mpr hother⟩
  | some earlier =>
    rw [hearlier] at hfound
    have hm := List.mem_of_find?_eq_some hearlier
    have hgoes := List.find?_some hearlier
    refine ⟨⟨earlier, rfl, hfound⟩, fun heq => ?_, fun hnone => ?_⟩
    · have hname : earlier.1 = names.1 := by
        simpa [String.ofList_inj] using hfound.symm.trans heq
      exact absurd (congrArg normalizeName hname) (hprimary earlier hm)
    · obtain ⟨other, ho, hother⟩ := List.any_eq_true.mp hgoes
      obtain rfl | ho := List.mem_cons.mp ho
      · exact absurd (beq_iff_eq.mp hother) (hprimary earlier hm)
      · exact absurd (beq_iff_eq.mp hother) (hnone earlier hm other ho)

/-! ## Fonts with names -/

/-- A font of the given family and full name, without a glyph of its own. -/
def namedFont (family full : String) : Bytes :=
  fontFile [
    ("head", List.replicate 9 0 ++ [1000] ++ List.replicate 17 0),
    ("hhea", List.replicate 17 0 ++ [2]),
    ("maxp", [0, 0x5000, 2]),
    ("name", nameTable [(1, family), (fullNamePurpose, full)])]

set_option maxRecDepth 20000 in
theorem names?_bold :
    (Request.register (namedFont "Test" "Test Bold") ['a']).names? OpenType.library =
      some ("Test Bold".toList, ["Test".toList, ['a']]) := by decide +kernel

set_option maxRecDepth 20000 in
theorem names?_regular :
    (Request.register (namedFont "Test" "Test") "b.ttf".toList).names? OpenType.library =
      some ("Test".toList, [['b']]) := by decide +kernel

/-- Case: the bold face behind the regular one, which has the name of the family. -/
theorem resolve?_primary_bold :
    let registrations : List Registration :=
      [.file "b.ttf".toList (some (namedFont "Test" "Test")),
        .font (namedFont "Test" "Test Bold") ['a']]
    let regular : Text × List Text := ("Test".toList, [['b']])
    let bold : Text × List Text := ("Test Bold".toList, ["Test".toList, ['a']])
    registered OpenType.library (registrations.flatMap Registration.requests) =
        [regular] ++ bold :: [] ∧
      (([regular] ++ bold :: []).map fun n => normalizeName n.1).Nodup ∧
      normalizeName bold.1 ≠ [] ∧ ',' ∉ bold.1 ∧
      (enrollAll OpenType.library {} registrations).resolve? bold.1 false false =
        some (String.ofList bold.1) := by
  intro registrations regular bold
  have h : registered OpenType.library (registrations.flatMap Registration.requests) =
      [regular] ++ bold :: [] := by
    change registered OpenType.library [.register (namedFont "Test" "Test") "b.ttf".toList,
      .register (namedFont "Test" "Test Bold") ['a']] = _
    rw [registered, List.filterMap_cons_some names?_regular, List.filterMap_cons_some names?_bold]
    rfl
  have hdistinct : (([regular] ++ bold :: []).map fun n => normalizeName n.1).Nodup := by
    decide +kernel
  have hne : normalizeName bold.1 ≠ [] := by decide +kernel
  have hcomma : ',' ∉ bold.1 := by decide +kernel
  refine ⟨h, hdistinct, hne, hcomma, (resolve?_primary h hdistinct hne hcomma).2.mpr ?_⟩
  decide +kernel

/-- Case: the regular face behind the bold one, which has its name as an alias. -/
theorem resolve?_regular_behind_bold :
    let registrations : List Registration := [.font (namedFont "Test" "Test Bold") ['a'],
      .file "b.ttf".toList (some (namedFont "Test" "Test"))]
    let faces := registered OpenType.library (registrations.flatMap Registration.requests)
    (faces.map fun n => normalizeName n.1).Nodup ∧
      (∀ n ∈ faces, normalizeName n.1 ≠ [] ∧ ',' ∉ n.1) ∧
      ("Test".toList, [['b']]) ∈ faces ∧
      (enrollAll OpenType.library {} registrations).resolve? "Test".toList false false =
        some "Test Bold" := by
  intro registrations faces
  have h : faces = [("Test Bold".toList, ["Test".toList, ['a']]), ("Test".toList, [['b']])] := by
    change registered OpenType.library [.register (namedFont "Test" "Test Bold") ['a'],
      .register (namedFont "Test" "Test") "b.ttf".toList] = _
    rw [registered, List.filterMap_cons_some names?_bold, List.filterMap_cons_some names?_regular]
    rfl
  have hcomma : ',' ∉ "Test".toList := by decide +kernel
  have hne : normalizeName "Test".toList ≠ [] := by decide +kernel
  rw [enrollAll_eq, resolve?_eq_find? _ hcomma hne, show registered OpenType.library
    (registrations.flatMap Registration.requests) = _ from h, h]
  decide +kernel

end Registry

end Typeface

end Lettering
