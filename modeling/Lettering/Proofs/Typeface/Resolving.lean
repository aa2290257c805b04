import Lettering.Proofs.Typeface.Names

/-!
# Which face is found

A look-up tries the names of the families one after the other, for each of them the
styled ones before the bare one (`tried`). The first of these names that a face goes
by decides, and of the faces that go by it the one that was registered first is found
(`resolve?_first_tried`). So a look-up follows from the names of the faces in the
order of their registration, and from nothing else.

* `placed_handleAll`: names lead to faces that there are.
* `handleAll_failed`: a registration that fails leaves no trace.
* `resolve?_later`: later registrations do not change what a single name leads
  to, once it leads to a face.
-/

namespace Lettering

namespace Typeface

namespace Registry

variable {lib : Library} {r : Registry} {requests : List Request} {family key : Text}
  {bold italic : Bool}

/-! ## What is tried -/

/-- The names that are looked up for a list of families, best first. -/
def tried (family : Text) (bold italic : Bool) : List Text :=
  (families family).flatMap fun name => candidates name bold italic

/-- Searching family by family, and the candidates of each in turn, is one search. -/
theorem resolvePlace?_eq_findSome? (r : Registry) (family : Text) (bold italic : Bool) :
    r.resolvePlace? family bold italic = (tried family bold italic).findSome? r.places.get? := by
  simp only [resolvePlace?, tried, ← List.head?_filterMap, List.filterMap_flatMap,
    List.head?_flatMap]

/-- A candidate begins with the name it is for. -/
theorem prefix_of_mem_candidates {name : Text} (h : key ∈ candidates name bold italic) :
    name <+: key := by
  revert key
  cases bold <;> cases italic <;> simp [candidates]

theorem ne_nil_of_mem_tried (h : key ∈ tried family bold italic) : key ≠ [] := by
  obtain ⟨name, hname, hkey⟩ := List.mem_flatMap.mp h
  have hne : name ≠ [] := of_decide_eq_true (List.mem_filter.mp hname).2
  rintro rfl
  exact hne (List.prefix_nil.mp (prefix_of_mem_candidates hkey))

/-! ## What is found -/

/-- The place found is that of the first face that goes by the first name tried that
    a face goes by at all. -/
theorem resolvePlace?_handleAll (requests : List Request) (family : Text) (bold italic : Bool) :
    (handleAll lib {} requests).resolvePlace? family bold italic =
      ((tried family bold italic).find? fun key =>
          (registered lib requests).any (goesBy · key)).bind
        fun key => (registered lib requests).findIdx? (goesBy · key) := by
  have hne : ∀ key ∈ tried family bold italic, key ≠ [] := fun _ => ne_nil_of_mem_tried
  rw [resolvePlace?_eq_findSome?]
  generalize tried family bold italic = keys at hne ⊢
  induction keys with
  | nil => rfl
  | cons key keys ih =>
    rw [List.forall_mem_cons] at hne
    rw [List.findSome?_cons, List.find?_cons, places_handleAll hne.1, ih hne.2,
      ← List.findIdx?_isSome]
    cases hplace : (registered lib requests).findIdx? (goesBy · key) with
    | none => rfl
    | some place => exact hplace.symm

theorem resolve?_handleAll (requests : List Request) (family : Text) (bold italic : Bool) :
    (handleAll lib {} requests).resolve? family bold italic =
      ((tried family bold italic).find? fun key =>
          (registered lib requests).any (goesBy · key)).bind
        fun key => ((registered lib requests).find? (goesBy · key)).map
          fun names => String.ofList names.1 := by
  rw [resolve?, resolvePlace?_handleAll, Option.bind_assoc, Option.map_bind]
  congr 1
  funext key
  rw [Function.comp_apply, List.find?_eq_bind_findIdx?_getElem?, Option.map_bind, Option.map_bind]
  exact congrArg _ (funext (map_name_getElem? requests))

/-! ## Places and faces -/

/-- All names lead to faces that there are. -/
def Placed (r : Registry) : Prop :=
  ∀ key place, r.places.get? key = some place → place < r.faces.size

theorem Placed.handle (h : r.Placed) (request : Request) : (r.handle lib request).Placed := by
  intro key place hget
  cases hn : request.names? lib with
  | none =>
    obtain ⟨hfaces, hplaces⟩ := handle_of_names?_eq_none hn r
    rw [hplaces] at hget
    rw [hfaces]
    exact h key place hget
  | some names =>
    obtain ⟨hfaces, hplaces⟩ := handle_of_names?_eq_some hn r
    have hsize : (r.handle lib request).faces.size = r.faces.size + 1 := by
      simpa using congrArg List.length hfaces
    rw [hplaces, addNames, KeyedList.get?_foldl_setNew, Option.or_eq_some_iff] at hget
    rw [hsize]
    obtain hold | ⟨-, hnew⟩ := hget
    · exact Nat.lt_succ_of_lt (h key place hold)
    · obtain ⟨-, hplace⟩ := Option.ite_none_right_eq_some.mp hnew
      exact Option.some.inj hplace ▸ Nat.lt_succ_self _

theorem Placed.handleAll (h : r.Placed) (requests : List Request) :
    (r.handleAll lib requests).Placed := by
  induction requests generalizing r with
  | nil => exact h
  | cons request requests ih => exact ih (h.handle request)

theorem placed_handleAll (requests : List Request) : (handleAll lib {} requests).Placed := by
  have hempty : ({} : Registry).Placed := fun _ _ h => by cases h
  exact hempty.handleAll requests

/-! ## More registrations -/

/-- What fails is as if it had not been tried. -/
theorem handleAll_failed {data : Bytes} {source : Text} {e : DrawError}
    (h : (handleAll lib {} requests).register lib data source = .error e)
    (later : List Request) :
    handleAll lib {} (requests ++ .register data source :: later) =
      handleAll lib {} (requests ++ later) := by
  rw [handleAll_append, handleAll_append]
  show handleAll lib ((handleAll lib {} requests).handle lib (.register data source)) later = _
  rw [handle_register, h]
  rfl

/-- A single name leads to the same face forever, once it leads to one. -/
theorem resolve?_later {name : String} (hcomma : ',' ∉ family)
    (h : (handleAll lib {} requests).resolve? family false false = some name)
    (later : List Request) :
    (handleAll lib {} (requests ++ later)).resolve? family false false = some name ∧
      (handleAll lib {} (requests ++ later)).resolvePlace? family false false =
        (handleAll lib {} requests).resolvePlace? family false false := by
  have hne : normalizeName family ≠ [] := by
    intro hnil
    simp [resolve?, resolvePlace?, families, List.splitOn_eq_singleton hcomma, hnil] at h
  have happend : registered lib (requests ++ later) =
      registered lib requests ++ registered lib later :=
    List.filterMap_append
  rw [resolve?_eq_find? requests hcomma hne] at h
  obtain ⟨names, hnames, hname⟩ := Option.map_eq_some_iff.mp h
  have hplace : ((registered lib requests).findIdx? (goesBy · (normalizeName family))).isSome := by
    rw [List.findIdx?_isSome, ← List.isSome_find?, hnames]
    rfl
  constructor
  · rw [resolve?_eq_find? _ hcomma hne, happend, List.find?_append, hnames]
    exact congrArg some hname
  · rw [resolvePlace?_eq_findIdx? _ hcomma hne, resolvePlace?_eq_findIdx? _ hcomma hne, happend,
      List.findIdx?_append, Option.or_of_isSome hplace]

/-- A look-up finds the first face that goes by the first name tried that a face
    goes by, and tells its primary name; it finds nothing if no face goes by any of
    the names. Names lead to faces that there are, and a registration that fails
    changes nothing then or later. The face that a single name leads to, neither bold
    nor italic, remains the one whatever comes later. -/
theorem resolve?_first_tried (lib : Library) (requests : List Request) (family : Text)
    (bold italic : Bool) :
    let r := handleAll lib {} requests
    let faces := registered lib requests
    let found := (tried family bold italic).find? fun key => faces.any (goesBy · key)
    r.resolve? family bold italic =
        found.bind (fun key =>
          (faces.find? (goesBy · key)).map fun names => String.ofList names.1) ∧
      r.resolvePlace? family bold italic = found.bind (fun key => faces.findIdx? (goesBy · key)) ∧
      r.faces.toList.map LoadedFace.name = faces.map (fun names => String.ofList names.1) ∧
      (∀ key place, r.places.get? key = some place → place < r.faces.size) ∧
      (∀ data source e, r.register lib data source = .error e → ∀ later,
        handleAll lib {} (requests ++ .register data source :: later) =
          handleAll lib {} (requests ++ later)) ∧
      ∀ name, ',' ∉ family → r.resolve? family false false = some name → ∀ later,
        (handleAll lib {} (requests ++ later)).resolve? family false false = some name ∧
          (handleAll lib {} (requests ++ later)).resolvePlace? family false false =
            r.resolvePlace? family false false := by
  intro r faces found
  exact ⟨resolve?_handleAll requests family bold italic,
    resolvePlace?_handleAll requests family bold italic, faces_handleAll requests,
    placed_handleAll requests,
    fun _ _ _ h => handleAll_failed h, fun _ hcomma h => resolve?_later hcomma h⟩

/-- Case: a bold face behind the regular one of its family. Looked up bold, the family
    leads to the bold face, behind a family that is missing; looked up plainly it leads
    to the regular one, whatever is registered later. -/
theorem resolve?_first_tried_bold :
    let requests : List Request := [.register (namedFont "Test" "Test") "b.ttf".toList,
      .register (namedFont "Test" "Test Bold") ['a']]
    (handleAll OpenType.library {} requests).resolve? "Missing, TEST".toList true false =
        some "Test Bold" ∧
      ',' ∉ "TEST".toList ∧
      (handleAll OpenType.library {} requests).resolve? "TEST".toList false false = some "Test" ∧
      ∀ later, (handleAll OpenType.library {} (requests ++ later)).resolve? "TEST".toList false
        false = some "Test" := by
  intro requests
  have h : registered OpenType.library requests =
      [("Test".toList, [['b']]), ("Test Bold".toList, ["Test".toList, ['a']])] := by
    rw [registered, List.filterMap_cons_some names?_regular, List.filterMap_cons_some names?_bold]
    rfl
  have hcomma : ',' ∉ "TEST".toList := by decide +kernel
  have hbold : (handleAll OpenType.library {} requests).resolve? "Missing, TEST".toList true false =
      some "Test Bold" := by
    rw [(resolve?_first_tried OpenType.library requests "Missing, TEST".toList true false).1, h]
    decide +kernel
  have hplain : (handleAll OpenType.library {} requests).resolve? "TEST".toList false false =
      some "Test" := by
    rw [(resolve?_first_tried OpenType.library requests "TEST".toList false false).1, h]
    decide +kernel
  refine ⟨hbold, hcomma, hplain, fun later => ?_⟩
  obtain ⟨-, -, -, -, -, hlater⟩ :=
    resolve?_first_tried OpenType.library requests "TEST".toList false false
  exact (hlater "Test" hcomma hplain later).1

end Registry

end Typeface

end Lettering
