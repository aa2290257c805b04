import Lettering.Proofs.Canvas.Drawing
import Lettering.Proofs.Style.FontPart

/-!
# Typesetting on a canvas

Colours, opacities and all properties that a canvas just keeps are paint: they
show in the commands, but no text is measured by them. What matters to where texts
go is the font in force, the fonts that are saved, and the registry. Canvases
that have these in common, and the texts drawn so far, are `Typeset` alike.

* `Typeset.setProperty`: an assignment to a property, on one canvas only, does not
  set them apart.
* `Typeset.drawRun`, `Typeset.drawRuns`: nor does drawing runs in styles with the
  same fonts.
* `drawText_paint`: a text is drawn alike under tables that say the same about
  fonts.
-/

namespace Lettering

namespace Canvas

open Wrap Draw

/-- The commands of a canvas that draw texts. -/
def texts (c : Canvas) : List Command := c.commands.toList.filter Command.draws

/-- The canvases have the same fonts in force, saved and registered, and the same
    texts drawn. -/
structure Typeset (c u : Canvas) : Prop where
  font : u.current.font = c.current.font
  saved : u.saved.map GraphicsState.font = c.saved.map GraphicsState.font
  fonts : u.fonts = c.fonts
  texts : u.texts = c.texts

variable {c u : Canvas}

theorem Typeset.refl (c : Canvas) : Typeset c c := ⟨rfl, rfl, rfl, rfl⟩

theorem Typeset.symm (h : Typeset c u) : Typeset u c :=
  ⟨h.font.symm, h.saved.symm, h.fonts.symm, h.texts.symm⟩

theorem Typeset.trans {v : Canvas} (h : Typeset c u) (h' : Typeset u v) : Typeset c v :=
  ⟨h'.font.trans h.font, h'.saved.trans h.saved, h'.fonts.trans h.fonts, h'.texts.trans h.texts⟩

theorem texts_record (c : Canvas) (command : Command) :
    (c.record command).texts = c.texts ++ [command].filter Command.draws := by
  simp [texts, record]

theorem Typeset.texts_record (h : Typeset c u) (command : Command) :
    (u.record command).texts = (c.record command).texts := by
  rw [Canvas.texts_record, Canvas.texts_record, h.texts]

/-! ## Paint -/

theorem draws_of_isStyle {command : Command} (h : command.isStyle) : command.draws = false := by
  cases command <;> first | rfl | cases h

/-- What only adds style commands, and leaves the font, does not set canvases
    apart. -/
theorem typeset_styled (c : Canvas) {commands : List Command} {state : GraphicsState}
    (hs : ∀ command ∈ commands, command.isStyle) (hf : state.font = c.current.font) :
    Typeset c (c.styled commands state) where
  font := hf
  saved := rfl
  fonts := rfl
  texts := by
    have hdraws : commands.filter Command.draws = [] :=
      List.filter_eq_nil_iff.mpr fun command hc => by simp [draws_of_isStyle (hs command hc)]
    simp [texts, styled, hdraws]

/-- Assignments that leave the font in force. -/
theorem typeset_of_styles {f : Canvas → Canvas} (h : Styles f)
    (hf : ∀ c, (f c).current.font = c.current.font) (c : Canvas) : Typeset c (f c) := by
  obtain ⟨commands, state, hs, he⟩ := h c.current
  have hstate : state.font = c.current.font := by
    rw [← hf c, he c rfl]
    rfl
  exact he c rfl ▸ typeset_styled c hs hstate

theorem font_updateOpacity (c : Canvas) {change : GraphicsState → GraphicsState}
    (hc : ∀ g, (change g).font = g.font) :
    (c.updateOpacity change).current.font = c.current.font := by
  unfold updateOpacity
  dsimp only
  split
  · exact hc _
  · exact hc _

theorem font_setFillColor (c : Canvas) (color : Color) (alpha : Single) :
    (c.setFillColor color alpha).current.font = c.current.font := by
  have halpha (g : GraphicsState) : { g with fillAlpha := unitAlpha alpha }.font = g.font := rfl
  refine (font_updateOpacity _ halpha).trans ?_
  split <;> rfl

theorem font_setStrokeColor (c : Canvas) (color : Color) (alpha : Single) :
    (c.setStrokeColor color alpha).current.font = c.current.font := by
  have halpha (g : GraphicsState) : { g with strokeAlpha := unitAlpha alpha }.font = g.font := rfl
  refine (font_updateOpacity _ halpha).trans ?_
  split <;> rfl

theorem font_setExtraProperty (c : Canvas) (name : String) (value : StyleValue) :
    (c.setExtraProperty name value).current.font = c.current.font := by
  unfold setExtraProperty
  split <;> rfl

theorem font_setProperty (c : Canvas) (name : String) (value : StyleValue) :
    (c.setProperty name value).current.font = c.current.font := by
  obtain ⟨color, alpha, h⟩ | ⟨color, alpha, h⟩ | ⟨alpha, h⟩ | h := setProperty_cases name value
  · exact h c ▸ font_setFillColor c color alpha
  · exact h c ▸ font_setStrokeColor c color alpha
  · exact h c ▸ font_updateOpacity c fun _ => rfl
  · exact h c ▸ font_setExtraProperty c name value

/-- Properties are paint. -/
theorem Typeset.setProperty (c : Canvas) (name : String) (value : StyleValue) :
    Typeset c (c.setProperty name value) :=
  typeset_of_styles (styles_setProperty name value) (font_setProperty · name value) c

theorem typeset_foldl_setProperty (entries : List (String × StyleValue)) (c : Canvas) :
    Typeset c (entries.foldl (fun c e => Surface.setProperty e.1 e.2 c) c) := by
  induction entries generalizing c with
  | nil => exact .refl c
  | cons e entries ih => exact (Typeset.setProperty c e.1 e.2).trans (ih _)

/-! ## Fonts and the stack -/

theorem Typeset.saveState (h : Typeset c u) : Typeset c.saveState u.saveState where
  font := h.font
  saved := congrArg₂ List.cons h.font h.saved
  fonts := h.fonts
  texts := h.texts_record .saveState

theorem Typeset.restoreState (h : Typeset c u) : Typeset c.restoreState u.restoreState := by
  have hlen := congrArg List.length h.saved
  have hs := h.saved
  unfold Canvas.restoreState
  cases hc : c.saved with
  | nil =>
    rw [hc, List.map_nil, List.map_eq_nil_iff] at hs
    rw [hs]
    exact h
  | cons state saved =>
    cases hu : u.saved with
    | nil => simp [hc, hu] at hlen
    | cons state' saved' =>
      rw [hc, hu, List.map_cons, List.map_cons] at hs
      obtain ⟨hstate, hsaved⟩ := List.cons.inj hs
      exact ⟨hstate, hsaved, h.fonts, h.texts_record .restoreState⟩

/-- The same font, selected on both canvases. -/
theorem Typeset.applyFont (h : Typeset c u) (font : Font) (unit : String) :
    Typeset (c.applyFont font unit) (u.applyFont font unit) := by
  unfold Canvas.applyFont
  rw [h.font]
  split
  · exact h
  · exact ⟨rfl, h.saved, h.fonts, h.texts_record _⟩

/-- Styles with the same font are applied alike. -/
theorem Typeset.applyStyle (h : Typeset c u) {style style' : SurfaceStyle}
    (hf : style'.font = style.font) :
    Typeset (Surface.applyStyle style c) (Surface.applyStyle style' u) := by
  unfold Surface.applyStyle
  rw [hf]
  -- The fonts are selected on both sides, the properties on each side by itself.
  refine (typeset_foldl_setProperty style.properties.entries _).symm.trans
    (Typeset.trans ?_ (typeset_foldl_setProperty style'.properties.entries _))
  cases style.font with
  | none => exact h
  | some font => exact h.applyFont _ _

/-! ## Texts -/

theorem simulation_typeset : Surface.Simulation Typeset where
  answer t h := by
    simp only [Surface.measureText, Canvas.measure, GraphicsState.fontSize, h.font, h.fonts]
  measureText t h := by
    refine ⟨h.font, h.saved, ?_, h.texts⟩
    simp only [Surface.measureText, Canvas.measure, GraphicsState.fontSize, h.font, h.fonts]
  fillText t x y h := ⟨h.font, h.saved, h.fonts, h.texts_record (.drawString x y t)⟩

variable {rules rules' : RuleTable}

/-- A run is drawn alike in styles with the same font. -/
theorem Typeset.drawRun (h : Typeset c u) (hr : rules.FontsAgree rules') (line : Line) (index : Nat)
    (run : Markup.Run) (pen : Pen) :
    (drawRun rules' line index run pen u).1 = (drawRun rules line index run pen c).1 ∧
      (drawRun rules' line index run pen u).2.1 = (drawRun rules line index run pen c).2.1 ∧
      Typeset (drawRun rules line index run pen c).2.2
        (drawRun rules' line index run pen u).2.2 := by
  have hfont := hr.font_eq run.context
  have hstyled : Typeset (Draw.styled rules run c) (Draw.styled rules' run u) :=
    h.saveState.applyStyle hfont
  obtain ⟨u', hw, hu'⟩ := wrap_simulates simulation_typeset line run.text pen hstyled
  rw [drawRun_eq, drawRun_eq, hw, hfont]
  exact ⟨rfl, rfl, hu'.restoreState⟩

/-- Runs are drawn alike in styles with the same fonts. -/
theorem Typeset.drawRuns (h : Typeset c u) (hr : rules.FontsAgree rules') (line : Line)
    (index : Nat) (pen : Pen) (runs : List Markup.Run) :
    (drawRuns rules' line index pen u runs).runs = (drawRuns rules line index pen c runs).runs ∧
      (drawRuns rules' line index pen u runs).pen = (drawRuns rules line index pen c runs).pen ∧
      Typeset (drawRuns rules line index pen c runs).surface
        (drawRuns rules' line index pen u runs).surface := by
  induction runs generalizing index pen c u with
  | nil => exact ⟨rfl, rfl, h⟩
  | cons run later ih =>
    obtain ⟨hrun, hpen, hsurface⟩ := h.drawRun hr line index run pen
    obtain ⟨hruns, hlast, hend⟩ :=
      ih hsurface (index + 1) (Draw.drawRun rules line index run pen c).2.1
    simp only [Draw.drawRuns, hpen, hrun, hruns, hlast]
    exact ⟨trivial, trivial, hend⟩

/-- Under tables that say the same about fonts a text is drawn alike: the pen or
    the error is the same, and so are the texts drawn and their places. What is
    logged and traced does not tell the tables apart either. -/
theorem drawText_paint (options : Options) (h : options.rules.FontsAgree rules) (text : Text)
    (x y : Single) (c : Canvas) (log : Option Log) :
    let drawn := drawText options text x y c log
    let drawn' := drawText { options with rules } text x y c log
    drawn'.result = drawn.result ∧ drawn'.surface.texts = drawn.surface.texts ∧
      drawn'.log = drawn.log ∧ drawn'.trace = drawn.trace := by
  have hplan : plan { options with rules } text x = plan options text x := rfl
  intro drawn drawn'
  cases hp : plan options text x with
  | error e =>
    simp only [drawn, drawn', drawText, draw_of_plan_eq_error hp,
      draw_of_plan_eq_error (hplan.trans hp), and_self]
  | ok lineRuns =>
    obtain ⟨line, runs⟩ := lineRuns
    obtain ⟨hruns, hpen, hsurface⟩ :=
      (Typeset.refl c).drawRuns h line 0 ⟨line.baseX, .ofSingle y⟩ runs
    simp only [drawn, drawn', drawText, draw_of_plan_eq_ok hp, draw_of_plan_eq_ok (hplan.trans hp),
      hpen, hsurface.texts, true_and]
    have hwrite (l : Log) :
        (Draw.drawRuns rules line 0 ⟨line.baseX, .ofSingle y⟩ c runs).writeTo l =
          (Draw.drawRuns options.rules line 0 ⟨line.baseX, .ofSingle y⟩ c runs).writeTo l := by
      simp only [Drawing.writeTo, Drawing.steps, hruns]
    refine ⟨congrArg (Option.map · log) (funext hwrite), ?_⟩
    simp only [Drawing.trace, Drawing.steps, hruns]

/-- Case: two tables that paint the same tag in their own ways, one of them with
    base rules too, and agree on its font size. -/
theorem drawText_paint_tag :
    let size : String × StyleValue := ("fontSize", .ofInt 20)
    let table : RuleTable := ⟨[("b", ⟨[("fillStyle", .text "red"), size], by decide⟩)], by decide⟩
    let table' : RuleTable := ⟨[("b", ⟨[size, ("globalAlpha", .text "0.5")], by decide⟩),
      ("_base", ⟨[("strokeStyle", .text "blue")], by decide⟩)], by decide⟩
    let options : Options := { width? := some (.ofInt 20), lineHeight? := some (.ofInt 10) }
    let text : Text := ['a', '<', 'b', '>', 'c', ' ', 'd', '<', '/', 'b', '>']
    let c : Canvas := {}
    let drawn := drawText { options with rules := table } text .zero .zero c none
    let drawn' := drawText { options with rules := table' } text .zero .zero c none
    table.FontsAgree table' ∧ drawn'.result = drawn.result ∧
      drawn'.surface.texts = drawn.surface.texts := by
  intro size table table' options text c drawn drawn'
  have h : table.FontsAgree table' := by
    intro tag
    by_cases hb : "b" = tag
    · subst hb
      decide
    · by_cases hbase : "_base" = tag
      · subst hbase
        decide
      · have hget : table.get? tag = none := if_neg hb
        have hget' : table'.get? tag = none := (if_neg hb).trans (if_neg hbase)
        rw [RuleTable.rulesOf, RuleTable.rulesOf, hget, hget']
  obtain ⟨hresult, htexts, -, -⟩ :=
    drawText_paint { options with rules := table } h text .zero .zero c none
  exact ⟨h, hresult, htexts⟩

end Canvas

end Lettering
