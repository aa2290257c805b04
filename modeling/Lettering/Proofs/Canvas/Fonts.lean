import Lettering.Proofs.Canvas.Page
import Lettering.Proofs.Canvas.Scopes
import Lettering.Proofs.Length.Singles
import Mathlib.Data.List.DropRight

/-!
# Fonts

A font is requested with a size and its unit. The canvas keeps the font, with the size
as a number, and nothing else: it measures by it, and a request for the font it keeps
already is not told.

* `setFont_size`: a length that is requested as the size becomes the nearest number, and
  what is measured by and told is the length of this number. It is the length requested
  just for the lengths of numbers.
* `font_told`: a reader has the font last requested in force, and its unit unless the
  requests for this font differ in the unit.
-/

namespace Lettering

namespace Font

/-- The fonts are the same, or equal as requests. -/
def Same (a b : Font) : Prop := a = b ∨ a.numEq b

/-- The font as it is told. -/
def told (font : Font) (unit : String) : FontSelection :=
  ⟨font.weight, font.style, .ofSingle font.size, unit, font.family⟩

variable {a b c : Font}

theorem numEq_iff : a.numEq b ↔
    a.style = b.style ∧ a.weight = b.weight ∧ a.size.numEq b.size ∧ a.family = b.family := by
  simp [numEq, and_assoc]

theorem numEq_symm (h : a.numEq b) : b.numEq a := by
  obtain ⟨hstyle, hweight, hsize, hfamily⟩ := numEq_iff.mp h
  exact numEq_iff.mpr ⟨hstyle.symm, hweight.symm, Single.numEq_symm hsize, hfamily.symm⟩

theorem numEq_trans (h : a.numEq b) (h' : b.numEq c) : a.numEq c := by
  obtain ⟨hstyle, hweight, hsize, hfamily⟩ := numEq_iff.mp h
  obtain ⟨hstyle', hweight', hsize', hfamily'⟩ := numEq_iff.mp h'
  exact numEq_iff.mpr ⟨hstyle.trans hstyle', hweight.trans hweight',
    Single.numEq_trans hsize hsize', hfamily.trans hfamily'⟩

theorem Same.numEq (h : a.Same b) (h' : a.numEq c) : b.numEq c := by
  obtain rfl | h := h
  · exact h'
  · exact numEq_trans (numEq_symm h) h'

/-- Fonts that are the same are told the same. -/
theorem Same.told_eq (h : a.Same b) (unit : String) : a.told unit = b.told unit := by
  obtain rfl | h := h
  · rfl
  · obtain ⟨hstyle, hweight, hsize, hfamily⟩ := numEq_iff.mp h
    simp only [told, hstyle, hweight, hfamily, Length.ofSingle_eq_of_numEq hsize]

theorem Same.isBold_eq (h : a.Same b) : a.isBold = b.isBold := by
  have hweight : a.weight = b.weight := congrArg FontSelection.weight (h.told_eq "px")
  simp only [isBold, hweight]

theorem Same.isItalic_eq (h : a.Same b) : a.isItalic = b.isItalic := by
  have hstyle : a.style = b.style := congrArg FontSelection.style (h.told_eq "px")
  simp only [isItalic, hstyle]

end Font

/-- The font that a canvas makes of a selection. -/
def FontSelection.font (selection : FontSelection) : Font :=
  ⟨selection.style, selection.weight, selection.size.toSingle, selection.family⟩

namespace Canvas

/-! ## One selection -/

/-- The font that is selected is in force, and is told unless it was so before. -/
theorem applyFont_cases (c : Canvas) (font : Font) (unit : String) :
    (c.applyFont font unit).current.font.Same font ∧
      (c.applyFont font unit).fonts = c.fonts ∧
      ((c.applyFont font unit).commands = c.commands ∨
        (c.applyFont font unit).commands = c.commands.push (.setFont (font.told unit))) := by
  unfold applyFont
  split
  · exact ⟨.inr (by assumption), rfl, .inl rfl⟩
  · exact ⟨.inl rfl, rfl, .inr rfl⟩

/-- Text is measured in the font in force, or in one that is the same. -/
theorem measureText_of_same {c : Canvas} {font : Font} (h : c.current.font.Same font)
    (text : Text) :
    (Surface.measureText text c).1 =
      (c.fonts.measure font.family.toList font.isBold font.isItalic (.ofSingle font.size)
        text).1 := by
  have hfamily : c.current.font.family = font.family :=
    congrArg FontSelection.family (h.told_eq "px")
  have hsize : c.current.fontSize = .ofSingle font.size :=
    congrArg FontSelection.size (h.told_eq "px")
  rw [← hfamily, ← h.isBold_eq, ← h.isItalic_eq, ← hsize]
  rfl

/-- A length that is selected as the size becomes the number nearest to it. The length of
    this number is what text is measured by and what is told, if anything is told; and it
    is the length selected if and only if that is the length of any number, such as every
    length up to 16384 pixels. -/
theorem setFont_size (c : Canvas) (selection : FontSelection) :
    let c' := Surface.setFont selection c
    let size := Length.ofSingle selection.size.toSingle
    c'.current.fontSize = size ∧
      (∀ text, (Surface.measureText text c').1 =
        (c.fonts.measure selection.family.toList selection.font.isBold selection.font.isItalic size
          text).1) ∧
      (c'.commands = c.commands ∨
        c'.commands = c.commands.push (.setFont { selection with size })) ∧
      (size = selection.size ↔ ∃ x, Length.ofSingle x = selection.size) ∧
      ∀ m : Int, m.natAbs ≤ 16384000 → selection.size = .ofThousandths m →
        size = selection.size := by
  intro c' size
  obtain ⟨hfont, hfonts, hcommands⟩ := c.applyFont_cases selection.font selection.unit
  refine ⟨?_, fun text => ?_, hcommands, Length.ofSingle_toSingle_iff, fun m hm he => ?_⟩
  · exact congrArg FontSelection.size (hfont.told_eq "px")
  · rw [← hfonts]
    exact measureText_of_same hfont text
  · rw [show size = Length.ofSingle selection.size.toSingle from rfl, he]
    exact Length.ofSingle_toSingle_ofThousandths hm

/-- A size of 16 pixels is kept. -/
theorem setFont_size_sixteen :
    let selection : FontSelection := ⟨"400", "normal", .ofPixels 16, "px", "serif"⟩
    (16000 : Int).natAbs ≤ 16384000 ∧
      (Surface.setFont selection ({} : Canvas)).current.fontSize = selection.size := by
  intro selection
  have hsize : (16000 : Int).natAbs ≤ 16384000 := by decide
  obtain ⟨hfont, -, -, -, hkept⟩ := setFont_size {} selection
  exact ⟨hsize, hfont.trans (hkept 16000 hsize rfl)⟩

/-- A thousandth of a pixel beyond 16384 pixels, the font of a fresh canvas is one
    thousandth larger than selected, and so is the one that is told. -/
theorem setFont_size_beyond :
    let selection : FontSelection :=
      ⟨"400", "normal", .ofThousandths 16384001, "px", "sans-serif"⟩
    let c := Surface.setFont selection (performAll {} [])
    c.current.fontSize = .ofThousandths 16384002 ∧
      c.commands = #[.setFont { selection with size := .ofThousandths 16384002 }] ∧
      Length.ofThousandths 16384002 ≠ selection.size := by
  decide +kernel

end Canvas

/-! ## Requests one after the other -/

/-- A font as it is requested: the font that is compared with the one in force, and the
    size and the unit in the words of the request. -/
structure FontRequest where
  font : Font
  size : Length
  unit : String
deriving DecidableEq, Repr

/-- The font in force, and the font that a reader has been told. -/
structure FontView where
  font : Font
  told : FontSelection

namespace FontView

/-- A request is told unless its font equals the one in force. -/
def request (view : FontView) (r : FontRequest) : FontView :=
  if view.font.numEq r.font then view else ⟨r.font, r.font.told r.unit⟩

/-- The last requests, as long as they are for one font. -/
def latest (requests : List FontRequest) (font : Font) : List FontRequest :=
  requests.rtakeWhile fun r => r.font.numEq font

/-- The view has the font last requested, and the unit if all requests for it have one. -/
structure Presents (view : FontView) (requests : List FontRequest) (last : FontRequest) :
    Prop where
  ends : requests.getLast? = some last
  same : view.font.Same last.font
  told : view.told = view.font.told view.told.unit
  unit : (∀ r ∈ latest requests last.font, r.unit = last.unit) → view.told.unit = last.unit

variable {view : FontView} {requests : List FontRequest} {last r : FontRequest}
  {font font' : Font}

theorem latest_append_singleton (h : r.font.numEq font) :
    latest (requests ++ [r]) font = latest requests font ++ [r] :=
  List.rtakeWhile_concat_pos _ _ _ h

theorem latest_congr (h : font.numEq font') : latest requests font = latest requests font' := by
  have hp : (fun r : FontRequest => r.font.numEq font) = fun r => r.font.numEq font' := by
    funext r
    exact Bool.eq_iff_iff.mpr
      ⟨fun hr => Font.numEq_trans hr h, fun hr => Font.numEq_trans hr (Font.numEq_symm h)⟩
  rw [latest, latest, hp]

/-- The last request is one of the latest ones for the font of the next, if it has this font. -/
theorem Presents.mem_latest (h : view.Presents requests last) (hfont : last.font.numEq font) :
    last ∈ latest requests font := by
  obtain ⟨before, rfl⟩ := List.getLast?_eq_some_iff.mp h.ends
  rw [latest_append_singleton hfont]
  exact List.mem_append_right _ List.mem_cons_self

/-- One more request. -/
theorem Presents.request (h : view.Presents requests last) (r : FontRequest) :
    (view.request r).Presents (requests ++ [r]) r := by
  unfold FontView.request
  split
  · rename_i hview
    have hlast : last.font.numEq r.font := h.same.numEq hview
    have hself : r.font.numEq r.font := Font.numEq_trans (Font.numEq_symm hlast) hlast
    refine ⟨List.getLast?_concat, .inr hview, h.told, fun hunit => ?_⟩
    rw [latest_append_singleton hself, List.forall_mem_append] at hunit
    -- The request before is one of the latest, so it has the unit as well.
    have heq : last.unit = r.unit := hunit.1 last (h.mem_latest hlast)
    rw [← heq, ← latest_congr hlast] at hunit
    exact (h.unit hunit.1).trans heq
  · exact ⟨List.getLast?_concat, .inl rfl, rfl, fun _ => rfl⟩

/-- Requests one after the other. -/
theorem Presents.foldl_request (h : view.Presents requests last) (later : List FontRequest) :
    ∃ last', (later.foldl FontView.request view).Presents (requests ++ later) last' := by
  induction later generalizing view requests last with
  | nil => exact ⟨last, by simpa using h⟩
  | cons r later ih => simpa using ih (h.request r)

end FontView

namespace Canvas

/-! ## Requests to a canvas -/

/-- What an operation requests. -/
def Operation.request? : Operation → Option FontRequest
  | setFont selection => some ⟨selection.font, selection.size, selection.unit⟩
  | applyFont font unit => some ⟨font, .ofSingle font.size, unit⟩
  | _ => none

/-- The fonts requested in force, the one of a fresh canvas being first. -/
def requests (operations : List Operation) : List FontRequest :=
  ⟨{}, .ofPixels 10, "px"⟩ :: (inForce operations).filterMap Operation.request?

/-- The font in force, and the one that whoever reads the commands has been told. -/
def fontView (c : Canvas) : FontView := ⟨c.current.font, (playback Page.put {} c).current.font⟩

variable {c : Canvas}

/-- A change with its command. -/
theorem fontView_record (c : Canvas) (command : Command) (g : GraphicsState)
    (hs : command ≠ .saveState) (hr : command ≠ .restoreState) :
    fontView { c.record command with current := g } =
      ⟨g.font, (Page.put command (playback Page.put {} c).current).font⟩ := by
  rw [fontView, playback_record Page.put {} c g hs hr]

/-- A change that leaves the font alone, made or not. -/
theorem fontView_untouched (c : Canvas) (p : Bool) (command : Command) (g : GraphicsState)
    (hs : command ≠ .saveState) (hr : command ≠ .restoreState)
    (hcommand : ∀ page, (Page.put command page).font = page.font)
    (hfont : g.font = c.current.font) :
    fontView (if p then c else { c.record command with current := g }) = fontView c := by
  cases p
  · refine (fontView_record c command g hs hr).trans ?_
    rw [hcommand, hfont]
    rfl
  · rfl

theorem fontView_applyFont (c : Canvas) (font : Font) (unit : String) (size : Length) :
    fontView (c.applyFont font unit) = (fontView c).request ⟨font, size, unit⟩ := by
  unfold applyFont FontView.request
  rw [show (fontView c).font = c.current.font from rfl]
  split
  · rfl
  · exact fontView_record c _ _ nofun nofun

theorem fontView_updateOpacity {change : GraphicsState → GraphicsState}
    (h : (change c.current).font = c.current.font) :
    fontView (c.updateOpacity change) = fontView c := by
  have hview : fontView { c with current := change c.current } = fontView c := by
    rw [fontView, h]
    rfl
  exact (fontView_untouched { c with current := change c.current } _ (.setOpacity _ _)
    (change c.current) nofun nofun (fun _ => rfl) rfl).trans hview

theorem fontView_setFillColor (c : Canvas) (color : Color) (alpha : Single) :
    fontView (c.setFillColor color alpha) = fontView c := by
  unfold setFillColor
  rw [fontView_updateOpacity rfl]
  exact fontView_untouched c (c.current.fillColor.numEq color) _ _ nofun nofun (fun _ => rfl) rfl

theorem fontView_setStrokeColor (c : Canvas) (color : Color) (alpha : Single) :
    fontView (c.setStrokeColor color alpha) = fontView c := by
  unfold setStrokeColor
  rw [fontView_updateOpacity rfl]
  exact fontView_untouched c (c.current.strokeColor.numEq color) _ _ nofun nofun (fun _ => rfl) rfl

theorem fontView_setOpacity (c : Canvas) (alpha : Single) :
    fontView (c.setOpacity alpha) = fontView c :=
  fontView_updateOpacity rfl

theorem fontView_setProperty (c : Canvas) (name : String) (value : StyleValue) :
    fontView (c.setProperty name value) = fontView c := by
  obtain ⟨color, alpha, he⟩ | ⟨color, alpha, he⟩ | ⟨alpha, he⟩ | he := setProperty_cases name value
  · rw [he, fontView_setFillColor]
  · rw [he, fontView_setStrokeColor]
  · rw [he, fontView_setOpacity]
  · rw [he]
    exact fontView_untouched c _ (.setProperty name value) _ nofun nofun (fun _ => rfl) rfl

/-- A plain operation requests what it says, and nothing else. -/
theorem fontView_perform {operation : Operation} (h : operation.isPlain) (c : Canvas) :
    fontView (c.perform operation) =
      operation.request?.elim (fontView c) (fontView c).request := by
  cases operation with
  | save => cases h
  | restore => cases h
  | setFont selection => exact fontView_applyFont c selection.font selection.unit _
  | applyFont font unit => exact fontView_applyFont c font unit _
  | setProperty name value => exact fontView_setProperty c name value
  | setFillColor color alpha => exact fontView_setFillColor c color alpha
  | setStrokeColor color alpha => exact fontView_setStrokeColor c color alpha
  | setOpacity alpha => exact fontView_setOpacity c alpha
  | measureText text => rfl
  | fillText text x y =>
    exact fontView_untouched c false (.drawString x y text) c.current nofun nofun (fun _ => rfl) rfl

/-- Plain operations request what they say, one after the other. -/
theorem fontView_performAll {operations : List Operation}
    (h : ∀ operation ∈ operations, operation.isPlain) (c : Canvas) :
    fontView (c.performAll operations) =
      (operations.filterMap Operation.request?).foldl FontView.request (fontView c) :=
  performAll_of_isPlain (fun _ hplain c => fontView_perform hplain c) h c

theorem presents_fresh_font (fonts : Typeface.Registry) :
    (fontView { fonts }).Presents [⟨{}, .ofPixels 10, "px"⟩] ⟨{}, .ofPixels 10, "px"⟩ :=
  ⟨rfl, .inl rfl, rfl, fun _ => rfl⟩

/-- The font of a request has the size requested, if any number has. -/
theorem ofSingle_size_iff_of_mem_requests {operations : List Operation} {r : FontRequest}
    (h : r ∈ requests operations) :
    Length.ofSingle r.font.size = r.size ↔ ∃ x, Length.ofSingle x = r.size := by
  obtain rfl | hr := List.mem_cons.mp h
  · have hten : Length.ofSingle ({} : Font).size = .ofPixels 10 := by decide
    exact iff_of_true hten ⟨_, hten⟩
  · obtain ⟨operation, -, hr⟩ := List.mem_filterMap.mp hr
    cases operation with
    | setFont selection =>
      obtain rfl := Option.some.inj hr
      exact Length.ofSingle_toSingle_iff
    | applyFont font unit =>
      obtain rfl := Option.some.inj hr
      exact iff_of_true rfl ⟨_, rfl⟩
    | _ => cases hr

/-- A reader has the font last requested in force, whatever has been left out: its weight,
    style and family as requested, its size as the length of a number, which is the length
    requested if any number has this length, and its unit as requested if the latest
    requests for this font have one unit. -/
theorem font_told (fonts : Typeface.Registry) (operations : List Operation) :
    let told := (playback Page.put {} (performAll { fonts } operations)).current.font
    ∃ last ∈ (requests operations).getLast?,
      (told.weight = last.font.weight ∧ told.style = last.font.style ∧
        told.family = last.font.family) ∧
      told.size = .ofSingle last.font.size ∧
      (told.size = last.size ↔ ∃ x, Length.ofSingle x = last.size) ∧
      ((∀ r ∈ FontView.latest (requests operations) last.font, r.unit = last.unit) →
        told.unit = last.unit) := by
  intro told
  have hview : told = (fontView (performAll { fonts } (inForce operations))).told :=
    congrArg Page.font (page_inForce Page.put {} fonts operations)
  rw [fontView_performAll fun _ => isPlain_of_mem_inForce] at hview
  obtain ⟨last, h⟩ := (presents_fresh_font fonts).foldl_request
    ((inForce operations).filterMap Operation.request?)
  have htold : told = last.font.told told.unit := by
    rw [hview, ← h.same.told_eq]
    exact h.told
  have hsize : told.size = .ofSingle last.font.size := congrArg FontSelection.size htold
  refine ⟨last, h.ends, ⟨congrArg FontSelection.weight htold, congrArg FontSelection.style htold,
    congrArg FontSelection.family htold⟩, hsize, ?_, hview ▸ h.unit⟩
  rw [hsize]
  exact ofSingle_size_iff_of_mem_requests (List.mem_of_getLast? h.ends)

/-- A font that is selected again behind a scope with another one is told with its unit. -/
theorem font_told_again :
    let serif : FontSelection := ⟨"700", "italic", .ofPixels 12, "em", "serif"⟩
    let operations := [.setFont serif, .save, .applyFont {} "px", .restore, .setFont serif]
    (∀ r ∈ FontView.latest (requests operations) serif.font, r.unit = "em") ∧
      (playback Page.put {} (performAll {} operations)).current.font.unit = "em" := by
  intro serif operations
  have hunits : ∀ r ∈ FontView.latest (requests operations) serif.font, r.unit = "em" := by
    decide +kernel
  have hends : (requests operations).getLast? = some ⟨serif.font, serif.size, "em"⟩ := by
    decide +kernel
  obtain ⟨last, hlast, -, -, -, hunit⟩ := font_told {} operations
  obtain rfl := Option.some.inj (hends.symm.trans hlast)
  exact ⟨hunits, hunit hunits⟩

/-- A size beyond 16384 pixels is told as another one, and the unit that it is selected in
    the second time is not told. -/
theorem font_told_stale :
    let size := Length.ofThousandths 16384001
    let operations := [.setFont ⟨"400", "normal", size, "px", "sans-serif"⟩,
      .setFont ⟨"400", "normal", size, "em", "sans-serif"⟩]
    let told := (playback Page.put {} (performAll {} operations)).current.font
    (requests operations).getLast?.map FontRequest.size = some size ∧
      (requests operations).getLast?.map FontRequest.unit = some "em" ∧
      told.size = .ofThousandths 16384002 ∧ told.size ≠ size ∧ told.unit = "px" := by
  decide +kernel

end Canvas

end Lettering
