import Lettering.Proofs.Canvas.Styling
import Lettering.Proofs.Draw.Calls
import Lettering.Proofs.Typeface.Remembered
import Lettering.Proofs.Wrap.Simulation

/-!
# Drawing on a canvas

A text that is drawn on a canvas leaves nothing behind but commands: the state in
force is the one from before, and so are the saved states. The commands come in
blocks, one for each run (`Bracketed`), and every run starts from the state that
the canvas had before the text was drawn, whatever the runs before it have set
(`drawText_scoped`).

What a run records is said by its style and its text on an empty canvas in that
state (`block`). Besides it depends on the pen and on the widths that the fonts
remember, both as the runs before have left them; if nothing is remembered wrongly
the latter do not matter (`blocks_eq`).
-/

namespace Lettering

/-- Whether a command draws a text. -/
def Command.draws : Command → Bool
  | drawString _ _ _ => true
  | _ => false

namespace Canvas

open Wrap Draw Typeface

/-! ## Texts -/

/-- The command that a call leaves, if it draws. -/
def drawCommand? : SurfaceCall → Option Command
  | .fillText text x y => some (.drawString x y text)
  | _ => none

/-- The commands that steps of wrapping leave. -/
def drawCommands (steps : List Step) : List Command := (fills steps).filterMap drawCommand?

theorem draws_of_mem_drawCommands {steps : List Step} {command : Command}
    (h : command ∈ drawCommands steps) : command.draws := by
  obtain ⟨call, hcall, h⟩ := List.mem_filterMap.mp h
  obtain ⟨t, x, y, rfl⟩ := exists_fillText_of_mem_fills hcall
  cases h
  rfl

/-- A canvas to which texts were drawn from `c` on, and a canvas in the same state
    that noted the calls. -/
def Copies (c : Canvas) (u : Traced Canvas) (s : Canvas) : Prop :=
  u.surface.current = c.current ∧
    s = { c with
      commands := c.commands ++ (u.calls.filterMap drawCommand?).toArray
      fonts := u.surface.fonts }

theorem simulation_copies (c : Canvas) : Surface.Simulation (Copies c) where
  answer t h := by
    obtain ⟨hu, rfl⟩ := h
    simp only [Surface.measureText, Canvas.measure, hu]
  measureText t h := by
    obtain ⟨hu, rfl⟩ := h
    refine ⟨hu, ?_⟩
    simp only [Surface.measureText, Canvas.measure, hu]
  fillText t x y h := by
    obtain ⟨hu, rfl⟩ := h
    refine ⟨hu, ?_⟩
    simp [Surface.fillText, drawString, record, drawCommand?]

/-- Wrapping on a canvas records what is drawn, and else changes only what the
    fonts remember. The steps are those on an empty canvas in the same state. -/
theorem wrap_canvas (line : Line) (text : Text) (pen : Pen) (c : Canvas) :
    let w := wrap line text pen ({ current := c.current, fonts := c.fonts } : Canvas)
    wrap line text pen c = w.on { c with
      commands := c.commands ++ (drawCommands w.steps).toArray
      fonts := w.surface.fonts } := by
  intro w
  have h₀ : Copies c ⟨{ current := c.current, fonts := c.fonts }, []⟩ c := ⟨rfl, by simp⟩
  obtain ⟨s, hw, -, hs⟩ := wrap_simulates (simulation_copies c) line text pen h₀
  rw [wrap_traced] at hw hs
  rw [hw, hs]
  rfl

/-! ## One run -/

/-- The commands that a style takes in a state. -/
def styleCommands (style : SurfaceStyle) (g : GraphicsState) : List Command :=
  (Surface.applyStyle style ({ current := g } : Canvas)).commands.toList

/-- The state that a style leads to. -/
def styledState (style : SurfaceStyle) (g : GraphicsState) : GraphicsState :=
  (Surface.applyStyle style ({ current := g } : Canvas)).current

theorem applyStyle_canvas (style : SurfaceStyle) (c : Canvas) :
    Surface.applyStyle style c =
      c.styled (styleCommands style c.current) (styledState style c.current) :=
  (styles_applyStyle style).eq_styled c

theorem isStyle_of_mem_styleCommands {style : SurfaceStyle} {g : GraphicsState} {command : Command}
    (h : command ∈ styleCommands style g) : command.isStyle :=
  (styles_applyStyle style).isStyle_of_mem h

variable (rules : RuleTable) (line : Line) (g : GraphicsState)

/-- How the text of a run is wrapped if the run starts from the state `g`. -/
def wrapFrom (run : Markup.Run) (pen : Pen) (fonts : Registry) : Wrapped Canvas :=
  wrap line run.text pen { current := styledState (rules.resolve run.context).split g, fonts }

/-- The commands of a run that starts from the state `g`. -/
def block (run : Markup.Run) (pen : Pen) (fonts : Registry) : List Command :=
  [.saveState] ++ styleCommands (rules.resolve run.context).split g ++
    drawCommands (wrapFrom rules line g run pen fonts).steps ++ [.restoreState]

/-- Between saving and restoring the state there are style commands and then
    texts. -/
def Bracketed (commands : List Command) : Prop :=
  ∃ style texts : List Command, commands = [.saveState] ++ style ++ texts ++ [.restoreState] ∧
    (∀ command ∈ style, command.isStyle) ∧ ∀ command ∈ texts, command.draws

theorem bracketed_block (run : Markup.Run) (pen : Pen) (fonts : Registry) :
    Bracketed (block rules line g run pen fonts) :=
  ⟨_, _, rfl, fun _ => isStyle_of_mem_styleCommands, fun _ => draws_of_mem_drawCommands⟩

/-- A run leaves its block on a canvas, and the state in force and the saved states
    as they were. -/
theorem drawRun_canvas (index : Nat) (run : Markup.Run) (pen : Pen) (c : Canvas) :
    let w := wrapFrom rules line c.current run pen c.fonts
    (drawRun rules line index run pen c).2 = (w.pen, { c with
      commands := c.commands ++ (block rules line c.current run pen c.fonts).toArray
      fonts := w.surface.fonts }) := by
  intro w
  let style := (rules.resolve run.context).split
  have hs : Draw.styled rules run c =
      c.saveState.styled (styleCommands style c.current) (styledState style c.current) :=
    applyStyle_canvas style c.saveState
  have hw : wrap line run.text pen (Draw.styled rules run c) = w.on { Draw.styled rules run c with
      commands := (Draw.styled rules run c).commands ++ (drawCommands w.steps).toArray
      fonts := w.surface.fonts } := by
    rw [hs]
    exact wrap_canvas line run.text pen _
  rw [drawRun_eq, hw, hs]
  refine Prod.ext rfl ?_
  simp [Wrapped.on, Surface.restore, restoreState, record, saveState, Canvas.styled, block, style,
    w]

/-! ## Fonts -/

/-- Only what the fonts remember may change, and they do not start to remember
    anything wrongly. -/
structure SameFonts (fonts fonts' : Registry) : Prop where
  alike : Registry.Alike fonts' fonts
  coherent : fonts.Coherent → fonts'.Coherent

theorem SameFonts.refl (fonts : Registry) : SameFonts fonts fonts := ⟨.refl fonts, id⟩

theorem SameFonts.trans {fonts fonts' fonts'' : Registry} (h : SameFonts fonts fonts')
    (h' : SameFonts fonts' fonts'') : SameFonts fonts fonts'' :=
  ⟨h'.alike.trans h.alike, h'.coherent ∘ h.coherent⟩

theorem sameFonts_measure (c : Canvas) (t : Text) : SameFonts c.fonts (c.measure t).2.fonts :=
  ⟨Registry.alike_measure .., fun h => Registry.Coherent.measure h _ _ _ _ _⟩

theorem sameFonts_wrapFrom (run : Markup.Run) (pen : Pen) (fonts : Registry) :
    SameFonts fonts (wrapFrom rules line g run pen fonts).surface.fonts := by
  refine wrap_invariant (P := fun s : Canvas => SameFonts fonts s.fonts) ?_ ?_ line run.text pen
    (.refl fonts)
  · exact fun t s h => h.trans (sameFonts_measure s t)
  · exact fun _ _ _ _ h => h

/-- Canvases in the same state with the same fonts, that remember nothing wrongly. -/
structure Level (s u : Canvas) : Prop where
  current : u.current = s.current
  alike : Registry.Alike u.fonts s.fonts
  left : s.fonts.Coherent
  right : u.fonts.Coherent

theorem simulation_level : Surface.Simulation Level where
  answer t h := by
    simp only [Surface.measureText, Canvas.measure, h.current, h.left.measure_eq,
      h.right.measure_eq, h.alike.width_eq, h.alike.shapes]
  measureText {s u} t h := {
    current := h.current
    alike := (Registry.alike_measure ..).trans (h.alike.trans (Registry.alike_measure ..).symm)
    left := h.left.measure _ _ _ _ _
    right := h.right.measure _ _ _ _ _ }
  fillText t x y h := ⟨h.current, h.alike, h.left, h.right⟩

/-! ## All runs -/

/-- The blocks of runs. The pen and what the fonts remember go from run to run; the
    state does not. -/
def blocks (pen : Pen) (fonts : Registry) : List Markup.Run → List (List Command)
  | [] => []
  | run :: later =>
    let w := wrapFrom rules line g run pen fonts
    block rules line g run pen fonts :: blocks w.pen w.surface.fonts later

/-- The blocks of runs that all find the same fonts. -/
def blocksIn (fonts : Registry) (pen : Pen) : List Markup.Run → List (List Command)
  | [] => []
  | run :: later =>
    let w := wrapFrom rules line g run pen fonts
    block rules line g run pen fonts :: blocksIn fonts w.pen later

/-- The commands are those of a run in its own style that starts from the state of
    `c`, bracketed, with fonts that differ in what they remember only. -/
def IsBlock (c : Canvas) (run : Markup.Run) (commands : List Command) : Prop :=
  Bracketed commands ∧ ∃ pen fonts, SameFonts c.fonts fonts ∧
    commands = block rules line c.current run pen fonts

theorem forall₂_blocks (c : Canvas) {fonts : Registry} (h : SameFonts c.fonts fonts) (pen : Pen)
    (runs : List Markup.Run) :
    List.Forall₂ (IsBlock rules line c) runs (blocks rules line c.current pen fonts runs) := by
  induction runs generalizing pen fonts with
  | nil => exact .nil
  | cons run later ih =>
    have hfonts := h.trans (sameFonts_wrapFrom rules line c.current run pen fonts)
    exact .cons ⟨bracketed_block .., pen, fonts, h, rfl⟩ (ih hfonts _)

/-- If nothing is remembered wrongly, it does not matter what is remembered. -/
theorem wrapFrom_congr {fonts fonts' : Registry} (h : SameFonts fonts fonts')
    (hc : fonts.Coherent) (run : Markup.Run) (pen : Pen) :
    (wrapFrom rules line g run pen fonts').steps = (wrapFrom rules line g run pen fonts).steps ∧
      (wrapFrom rules line g run pen fonts').pen = (wrapFrom rules line g run pen fonts).pen := by
  obtain ⟨u, hw, -⟩ := wrap_simulates simulation_level line run.text pen
    (s := { current := styledState (rules.resolve run.context).split g, fonts })
    (u := { current := styledState (rules.resolve run.context).split g, fonts := fonts' })
    ⟨rfl, h.alike, hc, h.coherent hc⟩
  rw [wrapFrom, wrapFrom, hw]
  exact ⟨rfl, rfl⟩

theorem blocks_eq {fonts fonts' : Registry} (h : SameFonts fonts fonts')
    (hc : fonts.Coherent) (pen : Pen) (runs : List Markup.Run) :
    blocks rules line g pen fonts' runs = blocksIn rules line g fonts pen runs := by
  induction runs generalizing pen fonts' with
  | nil => rfl
  | cons run later ih =>
    obtain ⟨hsteps, hpen⟩ := wrapFrom_congr rules line g h hc run pen
    have hfonts := h.trans (sameFonts_wrapFrom rules line g run pen fonts')
    rw [blocks, blocksIn, block, block, hsteps, hpen, ih hfonts]

/-- Runs leave their blocks on a canvas, and the state in force and the saved states
    as they were. -/
theorem drawRuns_canvas (index : Nat) (pen : Pen) (c : Canvas) (runs : List Markup.Run) :
    ∃ fonts, SameFonts c.fonts fonts ∧ (drawRuns rules line index pen c runs).surface = { c with
      commands := c.commands ++ (blocks rules line c.current pen c.fonts runs).flatten.toArray
      fonts } := by
  induction runs generalizing index pen c with
  | nil => exact ⟨c.fonts, .refl _, by simp [drawRuns, blocks]⟩
  | cons run later ih =>
    have hrun := drawRun_canvas rules line index run pen c
    obtain ⟨fonts, hfonts, hruns⟩ := ih (index + 1) (drawRun rules line index run pen c).2.1
      (drawRun rules line index run pen c).2.2
    rw [hrun] at hfonts
    refine ⟨fonts, (sameFonts_wrapFrom rules line c.current run pen c.fonts).trans hfonts,
      hruns.trans ?_⟩
    rw [hrun]
    simp [blocks]

/-- A text that is drawn on a canvas leaves the state in force and the saved states
    as they were. If there is an error it leaves all as it was; and else the
    commands are followed by a block for each run of the text, in order, that starts
    from the state before the text was drawn. -/
theorem drawText_scoped (options : Options) (text : Text) (x y : Single) (c : Canvas)
    (log : Option Log) :
    let drawn := drawText options text x y c log
    drawn.surface.current = c.current ∧ drawn.surface.saved = c.saved ∧
      SameFonts c.fonts drawn.surface.fonts ∧
      ((∃ e, plan options text x = .error e ∧ drawn.result = .error e ∧ drawn.surface = c) ∨
        ∃ line runs pen, plan options text x = .ok (line, runs) ∧ drawn.result = .ok pen ∧
          let start : Pen := ⟨line.baseX, .ofSingle y⟩
          let parts := blocks options.rules line c.current start c.fonts runs
          drawn.surface.commands.toList = c.commands.toList ++ parts.flatten ∧
            List.Forall₂ (IsBlock options.rules line c) runs parts ∧
            (c.fonts.Coherent →
              parts = blocksIn options.rules line c.current c.fonts start runs)) := by
  intro drawn
  cases hp : plan options text x with
  | error e =>
    have hs : drawn = ⟨.error e, c, log, []⟩ := by
      simp only [drawn, drawText, draw_of_plan_eq_error hp]
    rw [hs]
    exact ⟨rfl, rfl, .refl _, .inl ⟨e, rfl, rfl, rfl⟩⟩
  | ok lineRuns =>
    obtain ⟨line, runs⟩ := lineRuns
    let start : Pen := ⟨line.baseX, .ofSingle y⟩
    have hd : draw options text x y c = .ok (drawRuns options.rules line 0 start c runs) :=
      draw_of_plan_eq_ok hp y c
    obtain ⟨fonts, hfonts, hs⟩ := drawRuns_canvas options.rules line 0 start c runs
    have hsurface : drawn.surface = { c with
        commands := c.commands ++
          (blocks options.rules line c.current start c.fonts runs).flatten.toArray
        fonts } := by
      simp only [drawn, drawText, hd]
      exact hs
    have hresult : drawn.result = .ok (drawRuns options.rules line 0 start c runs).pen := by
      simp only [drawn, drawText, hd]
    rw [hsurface]
    refine ⟨rfl, rfl, hfonts, .inr ⟨line, runs, _, rfl, hresult, ?_, ?_, fun hc => ?_⟩⟩
    · simp [start]
    · exact forall₂_blocks options.rules line c (.refl _) start runs
    · exact blocks_eq options.rules line c.current (.refl _) hc start runs

end Canvas

end Lettering
