import Lettering.Proofs.Canvas.Scopes
import Lettering.Proofs.Single.Order

/-!
# Fill and stroke

The fill and the stroke are paints. A paint is assigned a colour, or any other
value that is kept as it is; the canvas keeps the two apart, and leaves out what
it keeps already. A reader of the commands has one slot for a paint.

So the slot need not hold what was assigned last. It holds what was last assigned
anew, that is, unlike what had been assigned before in its own kind, and this is
what was assigned last just when both are colours or neither is (`paint_shown`).
-/

namespace Lettering

/-! ## Equality as numbers -/

theorem Color.numEq_symm {a b : Color} (h : a.numEq b) : b.numEq a := by
  simp only [Color.numEq, Bool.and_eq_true] at h ⊢
  exact ⟨⟨Single.numEq_symm h.1.1, Single.numEq_symm h.1.2⟩, Single.numEq_symm h.2⟩

theorem Color.numEq_trans {a b c : Color} (h : a.numEq b) (h' : b.numEq c) : a.numEq c := by
  simp only [Color.numEq, Bool.and_eq_true] at h h' ⊢
  exact ⟨⟨Single.numEq_trans h.1.1 h'.1.1, Single.numEq_trans h.1.2 h'.1.2⟩,
    Single.numEq_trans h.2 h'.2⟩

theorem StyleValue.numEq_symm {v w : StyleValue} (h : v.numEq w) : w.numEq v := by
  cases v <;> cases w <;> simp_all [StyleValue.numEq, Single.numEq_symm]

theorem StyleValue.numEq_trans {u v w : StyleValue} (h : u.numEq v) (h' : v.numEq w) :
    u.numEq w := by
  cases u <;> cases v <;> cases w <;> simp_all [StyleValue.numEq]
  exact Single.numEq_trans h h'

/-! ## Values of a paint -/

/-- What a paint is assigned. -/
inductive PaintValue
  | color (value : Color)
  /-- What is not a colour in writing. -/
  | raw (value : StyleValue)
deriving DecidableEq, Repr

namespace PaintValue

/-- The value that is meant by a style value. -/
def ofStyle (value : StyleValue) : PaintValue :=
  match value.asText?.bind fun s => Color.parse? s.toList with
  | some (c, _) => color c
  | none => raw value

/-- Whether the value is a colour. -/
def isColor : PaintValue → Bool
  | color _ => true
  | raw _ => false

/-- Equality of values, numbers being compared as numbers. -/
def numEq : PaintValue → PaintValue → Bool
  | color a, color b => a.numEq b
  | raw v, raw w => v.numEq w
  | _, _ => false

variable {u v w : PaintValue}

theorem numEq_symm (h : v.numEq w) : w.numEq v := by
  cases v <;> cases w <;> first | contradiction | skip
  · exact Color.numEq_symm h
  · exact StyleValue.numEq_symm h

theorem numEq_trans (h : u.numEq v) (h' : v.numEq w) : u.numEq w := by
  cases u <;> cases v <;> cases w <;> first | contradiction | skip
  · exact Color.numEq_trans h h'
  · exact StyleValue.numEq_trans h h'

theorem isColor_eq_of_numEq (h : v.numEq w) : v.isColor = w.isColor := by
  cases v <;> cases w <;> first | contradiction | rfl

/-- The values are the same, or equal as numbers. -/
def Same (v w : PaintValue) : Prop := v = w ∨ v.numEq w

theorem Same.isColor_eq (h : v.Same w) : v.isColor = w.isColor :=
  h.elim (congrArg isColor) isColor_eq_of_numEq

/-- What equals one of two values that are the same equals the other. -/
theorem Same.numEq_left (h : v.Same w) : v.numEq u = w.numEq u := by
  obtain rfl | h := h
  · rfl
  · exact Bool.eq_iff_iff.mpr ⟨numEq_trans (numEq_symm h), numEq_trans h⟩

theorem Same.trans_numEq (h : u.Same v) (h' : v.numEq w) : u.Same w := by
  obtain rfl | h := h
  · exact .inr h'
  · exact .inr (numEq_trans h h')

end PaintValue

/-! ## Values assigned one after the other -/

/-- The last colour, or the last other value. -/
def lastOfKind (values : List PaintValue) (colors : Bool) : Option PaintValue :=
  (values.filter fun v => v.isColor == colors).getLast?

/-- The last value of the same kind equals the value. -/
def Repeats (before : List PaintValue) (v : PaintValue) : Prop :=
  ∃ last ∈ lastOfKind before v.isColor, last.numEq v

/-- The last of the values that does not repeat one before it. -/
inductive LastNew : List PaintValue → PaintValue → Prop
  | new {before : List PaintValue} {v : PaintValue} (h : ¬ Repeats before v) :
      LastNew (before ++ [v]) v
  | repeated {before : List PaintValue} {shown v : PaintValue} (h : LastNew before shown)
      (hv : Repeats before v) : LastNew (before ++ [v]) shown

section Values

open PaintValue

variable {before values : List PaintValue} {shown v : PaintValue}

theorem lastOfKind_append_singleton (before : List PaintValue) (v : PaintValue) (colors : Bool) :
    lastOfKind (before ++ [v]) colors =
      if v.isColor = colors then some v else lastOfKind before colors := by
  by_cases hv : v.isColor = colors <;> simp [lastOfKind, hv]

/-- The last new value is the same as the last one of its kind. -/
theorem LastNew.same_lastOfKind (h : LastNew values shown) :
    ∃ last ∈ lastOfKind values shown.isColor, shown.Same last := by
  induction h with
  | new _ => exact ⟨_, by simp [lastOfKind_append_singleton], .inl rfl⟩
  | @repeated before shown v h hv ih =>
    obtain ⟨last, hlast, hsame⟩ := ih
    by_cases hkind : v.isColor = shown.isColor
    · -- The value repeats the last of its kind, which is the same as the one shown.
      obtain ⟨last', hlast', heq⟩ := hv
      obtain rfl : last' = last := by
        rw [hkind] at hlast'
        exact Option.mem_unique hlast' hlast
      exact ⟨v, by simp [lastOfKind_append_singleton, hkind], hsame.trans_numEq heq⟩
    · exact ⟨last, by simpa [lastOfKind_append_singleton, hkind] using hlast, hsame⟩

/-- The last new value is the same as the last one just when they are of one kind. -/
theorem LastNew.same_iff (h : LastNew (before ++ [v]) shown) :
    shown.Same v ↔ shown.isColor = v.isColor := by
  refine ⟨Same.isColor_eq, fun hkind => ?_⟩
  obtain ⟨last, hlast, hsame⟩ := h.same_lastOfKind
  obtain rfl : v = last := by simpa [lastOfKind_append_singleton, hkind] using hlast
  exact hsame

end Values

/-! ## What a canvas keeps of the values -/

/-- A slot, and what is kept beside it of the colours and of the other values. -/
structure PaintView where
  shown : PaintValue
  kept : Bool → Option PaintValue

namespace PaintView

open PaintValue

/-- A value is left out if it equals the one kept of its kind. -/
def assign (view : PaintView) (v : PaintValue) : PaintView :=
  if (view.kept v.isColor).any (·.numEq v) then view
  else ⟨v, Function.update view.kept v.isColor (some v)⟩

/-- The slot has the last new value, and the last of either kind is kept. -/
structure Presents (view : PaintView) (values : List PaintValue) : Prop where
  shown : LastNew values view.shown
  kept : ∀ colors, Option.Rel Same (view.kept colors) (lastOfKind values colors)

variable {view : PaintView} {values : List PaintValue} {v : PaintValue}

theorem Presents.repeats_iff (h : view.Presents values) :
    Repeats values v ↔ (view.kept v.isColor).any (·.numEq v) := by
  have hk := h.kept v.isColor
  unfold Repeats
  cases hk' : view.kept v.isColor <;> cases hl : lastOfKind values v.isColor <;>
    rw [hk', hl] at hk <;> cases hk
  · simp
  · rename_i hsame
    simp [hsame.numEq_left]

/-- One more value. -/
theorem Presents.assign (h : view.Presents values) (v : PaintValue) :
    (view.assign v).Presents (values ++ [v]) := by
  unfold PaintView.assign
  split
  · rename_i hany
    have hrepeats := h.repeats_iff.mpr hany
    refine ⟨.repeated h.shown hrepeats, fun colors => ?_⟩
    rw [lastOfKind_append_singleton]
    split
    · -- What is kept is the same as the last of the kind, which the value repeats.
      rename_i hcolors
      obtain ⟨last, hlast, heq⟩ := hrepeats
      have hk := h.kept colors
      rw [← hcolors, Option.mem_def.mp hlast] at hk
      cases hk' : view.kept v.isColor with
      | none => rw [hk'] at hk; cases hk
      | some kept =>
        rw [hk'] at hk
        cases hk with
        | some hsame => exact hcolors ▸ hk' ▸ .some (hsame.trans_numEq heq)
    · exact h.kept colors
  · rename_i hany
    refine ⟨.new fun hr => hany (h.repeats_iff.mp hr), fun colors => ?_⟩
    rw [lastOfKind_append_singleton]
    by_cases hcolors : v.isColor = colors
    · subst hcolors
      have hself : v.Same v := .inl rfl
      simpa using Option.Rel.some hself
    · simpa [hcolors, Function.update_of_ne (Ne.symm hcolors)] using h.kept colors

/-- Values one after the other. -/
theorem Presents.foldl_assign (h : view.Presents values) (later : List PaintValue) :
    (later.foldl PaintView.assign view).Presents (values ++ later) := by
  induction later generalizing view values with
  | nil => simpa using h
  | cons v later ih => simpa using ih (h.assign v)

end PaintView

/-! ## A paint of a canvas -/

/-- The two paints. -/
inductive Paint
  | fill
  | stroke
deriving DecidableEq, Repr

namespace Paint

/-- The property that assigns the paint. -/
def property : Paint → String
  | fill => "fillStyle"
  | stroke => "strokeStyle"

/-- The colour of the paint. -/
def colorOf : Paint → GraphicsState → Color
  | fill, g => g.fillColor
  | stroke, g => g.strokeColor

/-- What a command assigns to the paint. -/
def commanded? : Paint → Command → Option PaintValue
  | fill, .setFillColor color => some (.color color)
  | stroke, .setStrokeColor color => some (.color color)
  | paint, .setProperty name value => if name = paint.property then some (.raw value) else none
  | _, _ => none

/-- A reader overwrites the slot with what a command assigns to the paint. -/
def put (paint : Paint) (command : Command) (slot : PaintValue) : PaintValue :=
  (paint.commanded? command).getD slot

/-- What an operation assigns to the paint. -/
def assigned? : Paint → Canvas.Operation → Option PaintValue
  | fill, .setFillColor color _ => some (.color color)
  | stroke, .setStrokeColor color _ => some (.color color)
  | paint, .setProperty name value => if name = paint.property then some (.ofStyle value) else none
  | _, _ => none

/-- What a state keeps of the paint: its colour, and its property. -/
def kept (paint : Paint) (g : GraphicsState) : Bool → Option PaintValue
  | true => some (.color (paint.colorOf g))
  | false => (g.properties.get? paint.property).map .raw

/-- What a reader has in the slot, and what the canvas keeps. -/
def view (paint : Paint) (c : Canvas) : PaintView :=
  ⟨(Canvas.playback paint.put (.color .black) c).current, paint.kept c.current⟩

end Paint

namespace Canvas

variable {paint : Paint} {c : Canvas}

/-- A change with its command. -/
theorem view_record (c : Canvas) (command : Command) (g : GraphicsState)
    (hs : command ≠ .saveState) (hr : command ≠ .restoreState) :
    paint.view { c.record command with current := g } =
      ⟨paint.put command (paint.view c).shown, paint.kept g⟩ := by
  rw [Paint.view, playback_record paint.put (.color .black) c g hs hr]
  rfl

/-- A change that leaves the paint alone, made or not. -/
theorem view_untouched (c : Canvas) (p : Bool) (command : Command) (g : GraphicsState)
    (hs : command ≠ .saveState) (hr : command ≠ .restoreState)
    (hcommand : paint.commanded? command = none) (hkept : paint.kept g = paint.kept c.current) :
    paint.view (if p then c else { c.record command with current := g }) = paint.view c := by
  cases p
  · refine (view_record c command g hs hr).trans ?_
    rw [Paint.put, hcommand, hkept]
    rfl
  · rfl

/-- A value is assigned unless it equals the one that is kept. -/
theorem view_unlessKept (c : Canvas) (p : Bool) (command : Command) (g : GraphicsState)
    (v : PaintValue) (hs : command ≠ .saveState) (hr : command ≠ .restoreState)
    (hp : p = (paint.kept c.current v.isColor).any (·.numEq v))
    (hcommand : paint.commanded? command = some v)
    (hkept : paint.kept g = Function.update (paint.kept c.current) v.isColor (some v)) :
    paint.view (if p then c else { c.record command with current := g }) =
      (paint.view c).assign v := by
  rw [PaintView.assign, show (paint.view c).kept = paint.kept c.current from rfl, ← hp]
  cases p
  · refine (view_record c command g hs hr).trans ?_
    rw [Paint.put, hcommand, hkept]
    rfl
  · rfl

/-! ## The assignments -/

theorem view_updateOpacity {change : GraphicsState → GraphicsState}
    (h : paint.kept (change c.current) = paint.kept c.current) :
    paint.view (c.updateOpacity change) = paint.view c := by
  have hview : paint.view { c with current := change c.current } = paint.view c := by
    rw [Paint.view, h]
    rfl
  refine (view_untouched { c with current := change c.current } _ (.setOpacity _ _)
    (change c.current) nofun nofun ?_ rfl).trans hview
  cases paint <;> rfl

theorem view_setFillColor (c : Canvas) (color : Color) (alpha : Single) :
    paint.view (c.setFillColor color alpha) =
      (paint.assigned? (.setFillColor color alpha)).elim (paint.view c) (paint.view c).assign := by
  unfold setFillColor
  rw [view_updateOpacity (by cases paint <;> rfl)]
  cases paint with
  | fill =>
    refine view_unlessKept c (c.current.fillColor.numEq color) (.setFillColor color) _
      (.color color) nofun nofun rfl rfl ?_
    funext colors
    cases colors <;> rfl
  | stroke => exact view_untouched c (c.current.fillColor.numEq color) _ _ nofun nofun rfl rfl

theorem view_setStrokeColor (c : Canvas) (color : Color) (alpha : Single) :
    paint.view (c.setStrokeColor color alpha) =
      (paint.assigned? (.setStrokeColor color alpha)).elim (paint.view c)
        (paint.view c).assign := by
  unfold setStrokeColor
  rw [view_updateOpacity (by cases paint <;> rfl)]
  cases paint with
  | fill => exact view_untouched c (c.current.strokeColor.numEq color) _ _ nofun nofun rfl rfl
  | stroke =>
    refine view_unlessKept c (c.current.strokeColor.numEq color) (.setStrokeColor color) _
      (.color color) nofun nofun rfl rfl ?_
    funext colors
    cases colors <;> rfl

theorem kept_set (g : GraphicsState) (name : String) (value : StyleValue) (colors : Bool) :
    paint.kept { g with properties := g.properties.set name value } colors =
      if name = paint.property ∧ colors = false then some (.raw value)
      else paint.kept g colors := by
  cases colors with
  | true => cases paint <;> simp [Paint.kept, Paint.colorOf]
  | false => by_cases hname : name = paint.property <;> simp [Paint.kept, KeyedList.get?_set, hname]

theorem view_setExtraProperty (c : Canvas) (name : String) (value : StyleValue) :
    paint.view (c.setExtraProperty name value) =
      if name = paint.property then (paint.view c).assign (.raw value) else paint.view c := by
  have hcommand : paint.commanded? (.setProperty name value) =
      if name = paint.property then some (.raw value) else none := by cases paint <;> rfl
  unfold setExtraProperty
  by_cases hname : name = paint.property
  · rw [if_pos hname] at hcommand ⊢
    refine view_unlessKept c _ (.setProperty name value) _ (.raw value) nofun nofun ?_ hcommand ?_
    · simp [Paint.kept, hname, Option.any_map, PaintValue.isColor, PaintValue.numEq]
    · funext colors
      rw [kept_set]
      cases colors <;> simp [hname, PaintValue.isColor]
  · rw [if_neg hname] at hcommand ⊢
    refine view_untouched c _ (.setProperty name value) _ nofun nofun hcommand ?_
    funext colors
    simp [kept_set, hname]

theorem view_setOpacity (c : Canvas) (alpha : Single) :
    paint.view (c.setOpacity alpha) = paint.view c :=
  view_updateOpacity (by cases paint <;> rfl)

theorem view_setProperty (c : Canvas) (name : String) (value : StyleValue) :
    paint.view (c.setProperty name value) =
      if name = paint.property then (paint.view c).assign (.ofStyle value) else paint.view c := by
  unfold setProperty PaintValue.ofStyle
  by_cases hfill : name = "fillStyle"
  · cases value.asText?.bind fun s => Color.parse? s.toList <;> cases paint <;>
      simp [hfill, view_setFillColor, view_setExtraProperty, Paint.property, Paint.assigned?]
  by_cases hstroke : name = "strokeStyle"
  · cases value.asText?.bind fun s => Color.parse? s.toList <;> cases paint <;>
      simp [hstroke, view_setStrokeColor, view_setExtraProperty, Paint.property, Paint.assigned?]
  -- What is assigned is the property of neither paint.
  have hname : name ≠ paint.property := by
    cases paint
    · exact hfill
    · exact hstroke
  simp only [if_neg hfill, if_neg hstroke, if_neg hname]
  split
  · split
    · exact view_setOpacity c _
    · rw [view_setExtraProperty, if_neg hname]
  · rw [view_setExtraProperty, if_neg hname]

/-- A plain operation assigns to the paint what it says, and nothing else. -/
theorem view_perform {operation : Operation} (h : operation.isPlain) (c : Canvas) :
    paint.view (c.perform operation) =
      (paint.assigned? operation).elim (paint.view c) (paint.view c).assign := by
  have hfont (font : Font) (unit : String) : paint.view (c.applyFont font unit) = paint.view c := by
    refine view_untouched c (c.current.font.numEq font) (.setFont _) _ nofun nofun ?_ ?_ <;>
      cases paint <;> rfl
  cases operation with
  | save => cases h
  | restore => cases h
  | setFont selection => exact (hfont _ _).trans (by cases paint <;> rfl)
  | applyFont font unit => exact (hfont font unit).trans (by cases paint <;> rfl)
  | setProperty name value =>
    have hassigned : paint.assigned? (.setProperty name value) =
        if name = paint.property then some (.ofStyle value) else none := by cases paint <;> rfl
    refine (view_setProperty c name value).trans ?_
    rw [hassigned]
    split <;> rfl
  | setFillColor color alpha => exact view_setFillColor c color alpha
  | setStrokeColor color alpha => exact view_setStrokeColor c color alpha
  | setOpacity alpha => exact (view_setOpacity c alpha).trans (by cases paint <;> rfl)
  | measureText text => cases paint <;> rfl
  | fillText text x y =>
    have hcommand : paint.commanded? (.drawString x y text) = none := by cases paint <;> rfl
    exact (view_untouched c false (.drawString x y text) c.current nofun nofun hcommand rfl).trans
      (by cases paint <;> rfl)

/-- Plain operations assign to the paint what they say, one after the other. -/
theorem view_performAll {operations : List Operation}
    (h : ∀ operation ∈ operations, operation.isPlain) (c : Canvas) :
    paint.view (c.performAll operations) =
      (operations.filterMap paint.assigned?).foldl PaintView.assign (paint.view c) :=
  performAll_of_isPlain (fun _ hplain c => view_perform hplain c) h c

/-! ## What a reader shows -/

/-- What the paint was assigned in force, black being first. -/
def assigned (paint : Paint) (operations : List Operation) : List PaintValue :=
  .color .black :: (inForce operations).filterMap paint.assigned?

/-- A fresh canvas is black, and keeps nothing else. -/
theorem presents_fresh (paint : Paint) (fonts : Typeface.Registry) :
    (paint.view { fonts }).Presents [.color .black] := by
  have hnew : LastNew ([] ++ [.color .black]) (.color .black) := by
    refine .new ?_
    rintro ⟨last, hlast, -⟩
    cases hlast
  have hblack : (PaintValue.color .black).Same (.color .black) := .inl rfl
  refine ⟨hnew, fun colors => ?_⟩
  cases colors with
  | true => cases paint <;> exact .some hblack
  | false => cases paint <;> exact .none

/-- The slot of a reader has the value last assigned anew in force. This is the value
    last assigned, as far as equality of numbers goes, if and only if both are
    colours or neither is. -/
theorem paint_shown (fonts : Typeface.Registry) (paint : Paint) (operations : List Operation) :
    let shown := (playback paint.put (.color .black) (performAll { fonts } operations)).current
    let values := assigned paint operations
    LastNew values shown ∧
      ∃ last ∈ values.getLast?, (shown.Same last ↔ shown.isColor = last.isColor) := by
  intro shown values
  have hshown : shown = (paint.view (performAll { fonts } (inForce operations))).shown :=
    page_inForce paint.put (.color .black) fonts operations
  rw [view_performAll fun _ => isPlain_of_mem_inForce] at hshown
  have hnew : LastNew values shown :=
    hshown ▸ ((presents_fresh paint fonts).foldl_assign _).shown
  obtain ⟨before, last, hvalues⟩ : ∃ before last, values = before ++ [last] :=
    ⟨values.dropLast, values.getLast (List.cons_ne_nil _ _),
      (List.dropLast_append_getLast (List.cons_ne_nil _ _)).symm⟩
  refine ⟨hnew, last, by simp [hvalues], ?_⟩
  exact (hvalues ▸ hnew).same_iff

/-- Black is in force behind another value, and assigning it again is not told. -/
theorem paint_shown_stale :
    let operations := [.setProperty "fillStyle" (.text "papayawhip"),
      .setProperty "fillStyle" (.text "black")]
    (playback Paint.fill.put (.color .black) (performAll {} operations)).current =
        .raw (.text "papayawhip") ∧
      (assigned .fill operations).getLast? = some (.color .black) := by
  decide +kernel

end Canvas

end Lettering
