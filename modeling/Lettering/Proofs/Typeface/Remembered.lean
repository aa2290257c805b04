import Lettering.Typeface.Registry

/-!
# Remembered widths

A registry remembers the widths it measures, by the face, the size in thousandths
and the text. What it remembers it has measured (`get?_insert`), in a face that it
keeps; but whether texts were shaped then is not part of the key. So a remembered
width is the width under *some* setting (`Remembers`), and a registry that is
asked again answers by it.

* `Registry.width`: the width of a text by what is registered alone.
* `Remembers.measure_eq`: measuring yields this width, under the setting in force
  or under one that the text was measured under before.
* `Remembers.measure`, `Remembers.addFace`: what is remembered stays true.
* `Coherent.measure_eq`: as long as the setting is not changed, remembering does
  not show.
-/

namespace Lettering

namespace Typeface

namespace WidthCache

variable {c : WidthCache} {key k : WidthKey} {w width : Length}

/-- Forgetting makes up nothing. -/
theorem get?_of_evict (h : c.evict.get? k = some w) : c.get? k = some w := by
  unfold evict at h
  split at h
  · split at h
    · simp only [get?, Std.HashMap.getElem?_erase] at h
      split at h
      · cases h
      · exact h
    · exact h
  · exact h

/-- What is remembered after an insertion is what was inserted, or was remembered
    before. -/
theorem get?_insert (h : (c.insert key width).get? k = some w) :
    (k = key ∧ w = width) ∨ c.get? k = some w := by
  have hi : (c.widths.insert key width)[k]? = some w →
      (k = key ∧ w = width) ∨ c.get? k = some w := by
    rw [Std.HashMap.getElem?_insert]
    split
    · rename_i he
      exact fun h => .inl ⟨(eq_of_beq he).symm, (Option.some.inj h).symm⟩
    · exact .inr
  unfold insert at h
  split at h
  · exact hi h
  · exact hi (get?_of_evict h)

/-- As long as there is room an insertion is remembered. -/
theorem get?_insert_self (h : c.widths.size < c.capacity) :
    (c.insert key width).get? key = some width := by
  have hself : (c.widths.insert key width)[key]? = some width := Std.HashMap.getElem?_insert_self
  have hsize := Std.HashMap.size_insert_le (m := c.widths) (k := key) (v := width)
  unfold insert
  split
  · exact hself
  · rw [evict, if_neg (by dsimp only; omega)]
    exact hself

end WidthCache

namespace Registry

variable {r r' : Registry} {family t : Text} {bold italic on : Bool} {size : Length}

/-! ## Widths without a memory -/

/-- The width of a text in the face for a list of families by what is registered,
    when texts beyond the tabulated characters are shaped or not. -/
def width (r : Registry) (on : Bool) (family : Text) (bold italic : Bool) (size : Length)
    (t : Text) : Length :=
  match (r.resolvePlace? family bold italic).bind (r.faces[·]?) with
  | some face => faceWidth on face size t
  | none => estimate size t

/-- What a width is remembered by. -/
def key? (r : Registry) (family : Text) (bold italic : Bool) (size : Length) (t : Text) :
    Option WidthKey :=
  (r.resolvePlace? family bold italic).map fun place => ⟨place, size.thousandths, t⟩

/-- Of a font size only the thousandths matter to widths in a face. -/
theorem faceWidth_congr {size' : Length} (h : size.thousandths = size'.thousandths) (on : Bool)
    (face : LoadedFace) (t : Text) : faceWidth on face size t = faceWidth on face size' t := by
  have hw : ∀ units, Metrics.widthOf size units = Metrics.widthOf size' units := fun units => by
    simp only [Metrics.widthOf, Length.timesRatio, h]
  simp only [faceWidth, Shaper.width?, Metrics.width, hw]

/-- A text of tabulated characters is never shaped. -/
theorem width_of_covers (h : Metrics.covers t) (r : Registry) (on on' : Bool) :
    r.width on family bold italic size t = r.width on' family bold italic size t := by
  simp [width, faceWidth, h]

/-! ## Registries that differ in what they remember -/

/-- The registries have the same faces under the same names, and the same setting. -/
structure Alike (r r' : Registry) : Prop where
  faces : r.faces = r'.faces
  places : r.places = r'.places
  shapes : r.shapes = r'.shapes

theorem Alike.refl (r : Registry) : Alike r r := ⟨rfl, rfl, rfl⟩

theorem Alike.symm (h : Alike r r') : Alike r' r := ⟨h.faces.symm, h.places.symm, h.shapes.symm⟩

theorem Alike.trans {r'' : Registry} (h : Alike r r') (h' : Alike r' r'') : Alike r r'' :=
  ⟨h.faces.trans h'.faces, h.places.trans h'.places, h.shapes.trans h'.shapes⟩

theorem Alike.resolvePlace?_eq (h : Alike r r') (family : Text) (bold italic : Bool) :
    r.resolvePlace? family bold italic = r'.resolvePlace? family bold italic := by
  simp only [resolvePlace?, h.places]

theorem Alike.key?_eq (h : Alike r r') :
    r.key? family bold italic size t = r'.key? family bold italic size t := by
  simp only [key?, h.resolvePlace?_eq]

theorem Alike.width_eq (h : Alike r r') (on : Bool) :
    r.width on family bold italic size t = r'.width on family bold italic size t := by
  simp only [width, h.resolvePlace?_eq, h.faces]

/-- Measuring changes nothing but what is remembered. -/
theorem alike_measure (r : Registry) (family : Text) (bold italic : Bool) (size : Length)
    (t : Text) : Alike (r.measure family bold italic size t).2 r := by
  unfold measure
  split
  · exact .refl r
  · dsimp only
    split
    · exact .refl r
    · split
      · exact .refl r
      · exact ⟨rfl, rfl, rfl⟩

/-! ## What is remembered -/

/-- Every remembered width is that of its key, under a setting that `used` allows
    for the key. -/
def Remembers (used : Bool → WidthKey → Prop) (r : Registry) : Prop :=
  ∀ key w, r.cache.get? key = some w → ∃ face on, r.faces[key.face]? = some face ∧ used on key ∧
    ∀ size, size.thousandths = key.size → w = faceWidth on face size key.text

variable {used used' : Bool → WidthKey → Prop}

theorem Remembers.mono (h : r.Remembers used) (hu : ∀ on key, used on key → used' on key) :
    r.Remembers used' := fun key w hw =>
  let ⟨face, on, hface, hon, he⟩ := h key w hw
  ⟨face, on, hface, hu on key hon, he⟩

/-- What remembers nothing remembers nothing wrong. -/
theorem remembers_of_cache_eq {capacity : Nat} (h : r.cache = { capacity }) :
    r.Remembers used := by
  intro key w hw
  rw [h, WidthCache.get?, Std.HashMap.getElem?_empty] at hw
  cases hw

/-- Measuring yields the width under the setting in force, or under one that was
    used for the key. -/
theorem Remembers.measure_eq (h : r.Remembers used) (family : Text) (bold italic : Bool)
    (size : Length) (t : Text) :
    ∃ on, (r.measure family bold italic size t).1 = r.width on family bold italic size t ∧
      (on = r.shapes ∨ ∃ key, r.key? family bold italic size t = some key ∧ used on key) := by
  unfold measure
  cases hp : r.resolvePlace? family bold italic with
  | none =>
    refine ⟨r.shapes, ?_, .inl rfl⟩
    simp [width, hp]
  | some place =>
    dsimp only
    split
    · rename_i w hw
      obtain ⟨face, on, hface, hon, he⟩ := h _ _ hw
      refine ⟨on, ?_, .inr ⟨_, by rw [key?, hp]; rfl, hon⟩⟩
      rw [he size rfl, width, hp, Option.bind_some, hface]
    · refine ⟨r.shapes, ?_, .inl rfl⟩
      split
      · rename_i hface
        simp [width, hp, hface]
      · rename_i face hface
        simp [width, hp, hface]

/-- As long as there is room, what was measured is measured the same whatever the
    setting has become. -/
theorem measure_setShapes_measure (h : r.cache.widths.size < r.cache.capacity) (on : Bool)
    (family : Text) (bold italic : Bool) (size : Length) (t : Text) :
    (((r.measure family bold italic size t).2.setShapes on).measure family bold italic size t).1 =
      (r.measure family bold italic size t).1 := by
  -- Whatever measuring leaves behind, the face is looked up as before.
  have hp (c : WidthCache) : ({ r with shapes := on, cache := c } : Registry).resolvePlace?
      family bold italic = r.resolvePlace? family bold italic := rfl
  cases hplace : r.resolvePlace? family bold italic with
  | none => simp [measure, setShapes, hp, hplace]
  | some place =>
    cases hw : r.cache.get? ⟨place, size.thousandths, t⟩ with
    | some w => simp [measure, setShapes, hp, hplace, hw]
    | none =>
      cases hface : r.faces[place]? with
      | none => simp [measure, setShapes, hp, hplace, hw, hface]
      | some face => simp [measure, setShapes, hp, hplace, hw, hface, WidthCache.get?_insert_self h]

/-- What is remembered stays true when a text is measured. -/
theorem Remembers.measure (h : r.Remembers used)
    (hu : ∀ key, r.key? family bold italic size t = some key → used r.shapes key) :
    (r.measure family bold italic size t).2.Remembers used := by
  unfold Registry.measure
  split
  · exact h
  · rename_i place hp
    dsimp only
    split
    · exact h
    · split
      · exact h
      · rename_i face hface
        intro key w hw
        rcases WidthCache.get?_insert hw with ⟨rfl, rfl⟩ | hw
        · refine ⟨face, r.shapes, hface, hu _ (by rw [key?, hp]; rfl), fun size' hs => ?_⟩
          exact faceWidth_congr hs.symm r.shapes face t
        · exact h key w hw

/-- All that is remembered was measured under the setting in force. -/
def Coherent (r : Registry) : Prop := r.Remembers fun on _ => on = r.shapes

/-- A coherent registry measures by what is registered alone. -/
theorem Coherent.measure_eq (h : r.Coherent) (family : Text) (bold italic : Bool) (size : Length)
    (t : Text) :
    (r.measure family bold italic size t).1 = r.width r.shapes family bold italic size t := by
  obtain ⟨on, he, rfl | ⟨key, -, rfl⟩⟩ := Remembers.measure_eq h family bold italic size t
  · exact he
  · exact he

/-- With nothing remembered, measuring yields the width under the setting in force. -/
theorem measure_of_cache_eq {capacity : Nat} (h : r.cache = { capacity }) (family : Text)
    (bold italic : Bool) (size : Length) (t : Text) :
    (r.measure family bold italic size t).1 = r.width r.shapes family bold italic size t :=
  have hr : r.Coherent := remembers_of_cache_eq h
  hr.measure_eq family bold italic size t

theorem Coherent.measure (h : r.Coherent) (family : Text) (bold italic : Bool) (size : Length)
    (t : Text) : (r.measure family bold italic size t).2.Coherent := by
  rw [Coherent, (alike_measure r family bold italic size t).shapes]
  exact Remembers.measure h fun _ _ => rfl

/-- What is remembered stays true when a face is added. -/
theorem Remembers.addFace (h : r.Remembers used) (last : LoadedFace) (names : List Text) :
    (r.addFace last names).Remembers used := by
  intro key w hw
  obtain ⟨face, on, hface, hon, he⟩ := h key w hw
  refine ⟨face, on, ?_, hon, he⟩
  have hlt : key.face < r.faces.size := (Array.getElem?_eq_some_iff.mp hface).1
  rw [Registry.addFace, Array.getElem?_push, if_neg (Nat.ne_of_lt hlt)]
  exact hface

end Registry

end Typeface

end Lettering
