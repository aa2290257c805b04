import Lettering.OpenType.Face
import Lettering.Proofs.Typeface.Remembered
import Lettering.Proofs.Typeface.Widths
import Mathlib.Data.List.Induction

/-!
# Measuring after a history

A registry is asked for many things in turn: to register faces, to shape texts or
not, to measure. What it remembers on the way must not show, so it is compared
with a new registry that has the same faces and the same setting and has measured
nothing (`afresh`). The libraries are any at all: that they answer alike when they are
asked alike is all that matters.

* `measure_after`: a registry measures as the new one does, under the setting in
  force or, for a text beyond the tabulated characters, under one that it measured
  the text under before in the same face and size.
* `measure_measure_setShapes`, `measure_afresh_setShapes`: the latter happens. A
  width that was remembered outlives a change of the setting.
-/

namespace Lettering

namespace Typeface

namespace Registry

/-- What a registry is asked for. -/
inductive Request
  | register (data : Bytes) (source : Text)
  | setShapes (on : Bool)
  | measure (family : Text) (bold italic : Bool) (size : Length) (text : Text)

/-- Whether a text is to be measured. -/
def Request.measures : Request → Bool
  | measure .. => true
  | _ => false

section

variable (lib : Library)

/-- Does what is asked for. Font data without a face is refused and changes
    nothing. -/
def handle (r : Registry) : Request → Registry
  | .register data source =>
    match r.register lib data source with
    | .ok (_, registered) => registered
    | .error _ => r
  | .setShapes on => r.setShapes on
  | .measure family bold italic size text => (r.measure family bold italic size text).2

/-- Does what is asked for, one thing after the other. -/
def handleAll (r : Registry) (requests : List Request) : Registry :=
  requests.foldl (handle lib) r

/-- A new registry with the same faces, registered in the same order, and the same
    setting, which has measured nothing. -/
def afresh (requests : List Request) : Registry :=
  handleAll lib {} (requests.filter fun q => !q.measures)

/-- The requests have the width of the key measured under the setting. -/
def MeasuredUnder (requests : List Request) (on : Bool) (key : WidthKey) : Prop :=
  ∃ before family bold italic size text after,
    requests = before ++ .measure family bold italic size text :: after ∧
      (handleAll lib {} before).shapes = on ∧
      (handleAll lib {} before).key? family bold italic size text = some key

end

variable {lib : Library} {r r' : Registry} {requests : List Request} {request : Request}

theorem handleAll_append_singleton (r : Registry) (requests : List Request) (request : Request) :
    r.handleAll lib (requests ++ [request]) = (r.handleAll lib requests).handle lib request :=
  List.foldl_append

theorem afresh_append_singleton (requests : List Request) (request : Request) :
    afresh lib (requests ++ [request]) =
      if request.measures then afresh lib requests
      else (afresh lib requests).handle lib request := by
  cases h : request.measures <;> simp [afresh, handleAll, List.filter_append, h]

theorem MeasuredUnder.append {on : Bool} {key : WidthKey} (h : MeasuredUnder lib requests on key)
    (later : List Request) : MeasuredUnder lib (requests ++ later) on key := by
  obtain ⟨before, family, bold, italic, size, text, after, rfl, hon, hkey⟩ := h
  exact ⟨before, family, bold, italic, size, text, after ++ later, by simp, hon, hkey⟩

/-! ## One request -/

section

variable {data : Bytes}

/-- What is read is added, under its names. -/
theorem register_of_read_eq_ok {face : Face} (h : lib.read data = .ok face) (r : Registry)
    (source : Text) :
    r.register lib data source = .ok ((faceNames face source).1,
      r.addFace (loadedFace lib data face source)
        ((faceNames face source).1 :: (faceNames face source).2)) := by
  rw [register, h]

/-- What cannot be read is refused. -/
theorem register_of_read_eq_error {message : String} (h : lib.read data = .error message)
    (r : Registry) (source : Text) :
    r.register lib data source = .error (refusal source message) := by
  rw [register, h]

theorem handle_of_read_eq_ok {face : Face} (h : lib.read data = .ok face) (r : Registry)
    (source : Text) :
    r.handle lib (.register data source) = r.addFace (loadedFace lib data face source)
      ((faceNames face source).1 :: (faceNames face source).2) := by
  rw [handle, register_of_read_eq_ok h]

theorem handle_of_read_eq_error {message : String} (h : lib.read data = .error message)
    (r : Registry) (source : Text) : r.handle lib (.register data source) = r := by
  rw [handle, register_of_read_eq_error h]

end

theorem Alike.addFace (h : Alike r r') (face : LoadedFace) (names : List Text) :
    Alike (r.addFace face names) (r'.addFace face names) where
  faces := congrArg (·.push face) h.faces
  places := congrArg₂ (addNames · names ·) h.places (congrArg Array.size h.faces)
  shapes := h.shapes

theorem Alike.handle (h : Alike r r') (request : Request) :
    Alike (r.handle lib request) (r'.handle lib request) := by
  cases request with
  | register data source =>
    cases hf : lib.read data with
    | error message =>
      rw [handle_of_read_eq_error hf, handle_of_read_eq_error hf]
      exact h
    | ok face =>
      rw [handle_of_read_eq_ok hf, handle_of_read_eq_ok hf]
      exact h.addFace _ _
  | setShapes on => exact ⟨h.faces, h.places, rfl⟩
  | measure family bold italic size text =>
    have hm := alike_measure r family bold italic size text
    have hm' := alike_measure r' family bold italic size text
    exact hm.trans (h.trans hm'.symm)

/-- Only measuring touches what is remembered. -/
theorem cache_handle (h : request.measures = false) (r : Registry) :
    (r.handle lib request).cache = r.cache := by
  cases request with
  | register data source =>
    cases hf : lib.read data with
    | error message => rw [handle_of_read_eq_error hf]
    | ok face => rw [handle_of_read_eq_ok hf, addFace]
  | setShapes on => rfl
  | measure => cases h

theorem Remembers.handle {used : Bool → WidthKey → Prop} (h : r.Remembers used)
    (hu : ∀ family bold italic size text key, request = .measure family bold italic size text →
      r.key? family bold italic size text = some key → used r.shapes key) :
    (r.handle lib request).Remembers used := by
  cases request with
  | register data source =>
    cases hf : lib.read data with
    | error message =>
      rw [handle_of_read_eq_error hf]
      exact h
    | ok face =>
      rw [handle_of_read_eq_ok hf]
      exact h.addFace _ _
  | setShapes on => exact h
  | measure family bold italic size text => exact h.measure fun key => hu _ _ _ _ _ key rfl

/-! ## All requests -/

/-- Without the measurements the registry is the same, but for what it remembers. -/
theorem alike_afresh (requests : List Request) :
    Alike (handleAll lib {} requests) (afresh lib requests) := by
  induction requests using List.reverseRecOn with
  | nil => exact .refl _
  | append_singleton requests request ih =>
    rw [handleAll_append_singleton, afresh_append_singleton]
    split
    · rename_i hm
      cases request with
      | measure family bold italic size text =>
        exact (alike_measure _ family bold italic size text).trans ih
      | register => cases hm
      | setShapes => cases hm
    · exact ih.handle request

theorem cache_afresh (requests : List Request) :
    (afresh lib requests).cache = { capacity := 20000 } := by
  induction requests using List.reverseRecOn with
  | nil => rfl
  | append_singleton requests request ih =>
    rw [afresh_append_singleton]
    split
    · exact ih
    · rename_i hm
      rw [cache_handle (Bool.not_eq_true _ ▸ hm)]
      exact ih

/-- All that is remembered was measured. -/
theorem remembers_handleAll (requests : List Request) :
    (handleAll lib {} requests).Remembers (MeasuredUnder lib requests) := by
  induction requests using List.reverseRecOn with
  | nil => exact remembers_of_cache_eq rfl
  | append_singleton requests request ih =>
    rw [handleAll_append_singleton]
    refine (ih.mono fun on key h => h.append [request]).handle ?_
    rintro family bold italic size text key rfl hkey
    exact ⟨requests, family, bold, italic, size, text, [], rfl, rfl, hkey⟩

/-- The new registry measures by what is registered. -/
theorem measure_afresh (requests : List Request) (on : Bool) (family : Text) (bold italic : Bool)
    (size : Length) (t : Text) :
    (((afresh lib requests).setShapes on).measure family bold italic size t).1 =
      (afresh lib requests).width on family bold italic size t :=
  have hc : ((afresh lib requests).setShapes on).cache = { capacity := 20000 } :=
    cache_afresh requests
  measure_of_cache_eq hc family bold italic size t

/-- After any requests a text is measured as a new registry with the same faces
    measures it. The setting is that in force; only a text with characters beyond
    the tabulated ones may have its width under another setting instead, if it was
    measured under that one before, in the same face and size. -/
theorem measure_after (lib : Library) (requests : List Request) (family : Text)
    (bold italic : Bool) (size : Length) (t : Text) :
    ∃ on, ((handleAll lib {} requests).measure family bold italic size t).1 =
        (((afresh lib requests).setShapes on).measure family bold italic size t).1 ∧
      (on = (afresh lib requests).shapes ∨
        Metrics.covers t = false ∧ ∃ key,
          (afresh lib requests).key? family bold italic size t = some key ∧
            MeasuredUnder lib requests on key) := by
  have ha : Alike (handleAll lib {} requests) (afresh lib requests) := alike_afresh requests
  obtain ⟨on, he, hon⟩ := (remembers_handleAll requests).measure_eq family bold italic size t
  rw [ha.width_eq] at he
  rw [ha.shapes, ha.key?_eq] at hon
  -- For a text of tabulated characters the setting in force will do.
  by_cases hc : Metrics.covers t = true
  · refine ⟨(afresh lib requests).shapes, ?_, .inl rfl⟩
    rw [he, measure_afresh]
    exact width_of_covers hc _ _ _
  · refine ⟨on, ?_, hon.imp_right fun hk => ⟨Bool.not_eq_true _ ▸ hc, hk⟩⟩
    rw [he, measure_afresh]

/-! ## A setting that is changed -/

section

variable (h : ∀ request ∈ requests, request.measures = false) (on : Bool)
  (family : Text) (bold italic : Bool) (size : Length) (t : Text)

include h

theorem afresh_of_measures_eq_false : afresh lib requests = handleAll lib {} requests := by
  rw [afresh, List.filter_eq_self.mpr fun request hr => by rw [h request hr]; rfl]

theorem cache_handleAll_of_measures_eq_false :
    (handleAll lib {} requests).cache = { capacity := 20000 } :=
  afresh_of_measures_eq_false h ▸ cache_afresh requests

/-- A width is remembered even if the setting changes: it is that under the first
    setting. -/
theorem measure_measure_setShapes :
    ((handleAll lib {} (requests ++ [.measure family bold italic size t, .setShapes on])).measure
        family bold italic size t).1 =
      (handleAll lib {} requests).width (handleAll lib {} requests).shapes family bold italic size
        t := by
  have hc : (handleAll lib {} requests).cache = { capacity := 20000 } :=
    cache_handleAll_of_measures_eq_false h
  rw [handleAll, List.foldl_append, ← handleAll]
  have hroom : (handleAll lib {} requests).cache.widths.size <
      (handleAll lib {} requests).cache.capacity := by
    rw [hc]
    decide
  exact (measure_setShapes_measure hroom on family bold italic size t).trans
    (measure_of_cache_eq hc family bold italic size t)

/-- A new registry has the width under the second setting. -/
theorem measure_afresh_setShapes :
    ((afresh lib (requests ++ [.measure family bold italic size t, .setShapes on])).measure
        family bold italic size t).1 =
      (handleAll lib {} requests).width on family bold italic size t := by
  have ha : afresh lib (requests ++ [.measure family bold italic size t, .setShapes on]) =
      (afresh lib requests).setShapes on := by
    rw [afresh, List.filter_append, handleAll, List.foldl_append]
    rfl
  rw [ha, measure_afresh, afresh_of_measures_eq_false h]

end

/-! ## A small font -/

open Metrics (smallFace smallGlyph?)

/-- The directory entries of tables that lie one behind the other from `offset` on,
    in 16-bit words. -/
def tableRecords (offset : Nat) : List (String × List Nat) → List Nat
  | [] => []
  | (tag, words) :: later =>
    [OpenType.Face.tagNumber tag / 2 ^ 16, OpenType.Face.tagNumber tag % 2 ^ 16, 0, 0, 0, offset, 0,
      2 * words.length] ++ tableRecords (offset + 2 * words.length) later

/-- A font file with the given tables of 16-bit words. -/
def fontFile (tables : List (String × List Nat)) : Bytes :=
  let words := [1, 0, tables.length, 0, 0, 0] ++
    tableRecords (12 + 16 * tables.length) tables ++ tables.flatMap (·.2)
  ⟨(words.flatMap fun w => [.ofNat (w / 2 ^ 8), .ofNat w]).toArray⟩

/-- The records of names whose contents lie one behind the other from `offset` on,
    in 16-bit words. -/
def nameRecords (offset : Nat) : List (Nat × String) → List Nat
  | [] => []
  | (purpose, name) :: later =>
    [3, 1, 0x409, purpose, 2 * name.length, offset] ++
      nameRecords (offset + 2 * name.length) later

/-- The table of names in 16-bit words. -/
def nameTable (names : List (Nat × String)) : List Nat :=
  [0, names.length, 6 + 12 * names.length] ++ nameRecords 0 names ++
    names.flatMap fun name => name.2.toList.map Char.toNat

/-- The file of the small font. Its map has a segment for every glyph, which shifts the code
    to the glyph. -/
def smallFont : Bytes := fontFile [
  ("cmap", [0, 1, 3, 1, 0, 12, 4, 64, 0, 12, 0, 0, 0] ++
    [0x20, 0x41, 0x42, 0x56, 0x4E00, 0xFFFF, 0] ++ [0x20, 0x41, 0x42, 0x56, 0x4E00, 0xFFFF] ++
    [0xFFE1, 0xFFC1, 0xFFC2, 0xFFAD, 0xB205, 1] ++ List.replicate 6 0),
  ("head", List.replicate 9 0 ++ [1000] ++ List.replicate 17 0),
  ("hhea", List.replicate 17 0 ++ [6]),
  ("hmtx", [500, 0, 250, 0, 600, 0, 600, 0, 700, 0, 1000, 0]),
  ("kern", [0, 1, 0, 20, 1, 1, 0, 0, 0, 2, 3, 0xFF9C]),
  ("maxp", [0, 0x5000, 6]),
  ("name", nameTable [(1, "Drawtext Test"), (fullNamePurpose, "Drawtext Test")])]

/-- Shaping in the small font, as far as no pair is kerned: every character is shown by its
    glyph. -/
def smallShaper : Shaper where
  unitsPerEm := 1000
  advances t := t.map fun c =>
    .ofNat ((smallFace.advance? ((smallGlyph? c).getD 0)).getD 0).toNat

/-- The libraries, as far as one font file goes. -/
def libraryOf (font : Bytes) (face : Face) (shaper : Shaper) : Library where
  read data := if data.data = font.data then .ok face else .error "unknown magic"
  shaper? data := if data.data = font.data then some shaper else none

theorem read_libraryOf (font : Bytes) (face : Face) (shaper : Shaper) :
    (libraryOf font face shaper).read font = .ok face := if_pos rfl

theorem shaper?_libraryOf (font : Bytes) (face : Face) (shaper : Shaper) :
    (libraryOf font face shaper).shaper? font = some shaper := if_pos rfl

/-- The libraries, as far as the small font goes. -/
def smallLibrary : Library := libraryOf smallFont smallFace smallShaper

/-- The widths of a text in the small font when it is shaped and when it is not. -/
theorem width_smallFont (on : Bool) :
    (handleAll smallLibrary {} [.register smallFont ['a']]).width on "Drawtext Test".toList false
      false (.ofPixels 10) ['A', '一'] = .ofThousandths (if on then 16000 else 8500) := by
  have hread := handle_of_read_eq_ok (read_libraryOf smallFont smallFace smallShaper) {} ['a']
  have hplace : resolvePlace? (handleAll smallLibrary {} [.register smallFont ['a']])
      "Drawtext Test".toList false false = some 0 := by
    rw [handleAll, List.foldl_cons, List.foldl_nil, smallLibrary, hread]
    decide +kernel
  have hshaped : smallShaper.width? (.ofPixels 10) ['A', '一'] = some (.ofThousandths 16000) := by
    decide +kernel
  have htable : (Metrics.ofFace smallFace).width (.ofPixels 10) ['A', '一'] =
      .ofThousandths 8500 := by
    decide +kernel
  have hc : Metrics.covers ['A', '一'] = false := by decide
  have hface : (handleAll smallLibrary {} [.register smallFont ['a']]).faces[0]? =
      some (loadedFace smallLibrary smallFont smallFace ['a']) := by
    rw [handleAll, List.foldl_cons, List.foldl_nil, smallLibrary, hread]
    simp [addFace]
  rw [width, hplace, Option.bind_some, hface]
  dsimp only
  rw [faceWidth, loadedFace, smallLibrary, shaper?_libraryOf, htable, hc, Option.bind_some, hshaped]
  cases on <;> rfl

/-- Case: a width that was remembered while texts were shaped is not that by the
    table. -/
theorem measure_after_setting :
    let requests : List Request := [.register smallFont ['a']] ++
      [.measure "Drawtext Test".toList false false (.ofPixels 10) ['A', '一'], .setShapes false]
    ((handleAll smallLibrary {} requests).measure "Drawtext Test".toList false false (.ofPixels 10)
        ['A', '一']).1 = .ofThousandths 16000 ∧
      ((afresh smallLibrary requests).measure "Drawtext Test".toList false false (.ofPixels 10)
        ['A', '一']).1 = .ofThousandths 8500 ∧
      Length.ofThousandths 16000 ≠ .ofThousandths 8500 := by
  intro requests
  have h : ∀ request ∈ [Request.register smallFont ['a']], request.measures = false := by
    rintro _ (_ | ⟨_, ⟨⟩⟩)
    rfl
  have hshapes : (handleAll smallLibrary {} [.register smallFont ['a']]).shapes = true := by
    rw [handleAll, List.foldl_cons, List.foldl_nil, smallLibrary,
      handle_of_read_eq_ok (read_libraryOf smallFont smallFace smallShaper), addFace]
  refine ⟨?_, ?_, by decide⟩
  · rw [measure_measure_setShapes h, hshapes, width_smallFont, if_pos rfl]
  · rw [measure_afresh_setShapes h, width_smallFont, if_neg Bool.false_ne_true]

end Registry

end Typeface

end Lettering
