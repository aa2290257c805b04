import Lettering.Draw.Options
import Lettering.Markup.Parser
import Lettering.Wrap.Run

/-!
# Drawing marked-up text

A marked-up text is drawn run by run: each run with the style that the rule
table gives to its context, between a save and a restore of the surface, and
from where the run before it left the pen. Options and markup are checked before
anything is drawn.
-/

namespace Lettering

namespace Draw

open Wrap

/-- How one run was drawn: its place among the runs, whether its style selects a
    font, the pen it started from, and the steps of its wrapping. -/
structure DrawnRun where
  index : Nat
  run : Markup.Run
  changesFont : Bool
  start : Pen
  steps : List Step
deriving DecidableEq, Repr

/-- A text drawn: its runs, the pen and the surface at the end. -/
structure Drawing (σ : Type) where
  runs : List DrawnRun
  pen : Pen
  surface : σ

variable {σ : Type} [Surface σ]

/-- Draws one run in the style of its context. -/
def drawRun (rules : RuleTable) (line : Line) (index : Nat) (run : Markup.Run) (pen : Pen)
    (s : σ) : DrawnRun × Pen × σ :=
  let style := (rules.resolve run.context).split
  let (wrapped, s) := Surface.withStyle style
    (fun s => let w := wrap line run.text pen s; ((w.steps, w.pen), w.surface)) s
  (⟨index, run, style.font.isSome, pen, wrapped.1⟩, wrapped.2, s)

/-- Draws runs one after the other, the first of them having the given place. -/
def drawRuns (rules : RuleTable) (line : Line) (index : Nat) (pen : Pen) (s : σ) :
    List Markup.Run → Drawing σ
  | [] => ⟨[], pen, s⟩
  | run :: later =>
    let (drawn, pen, s) := drawRun rules line index run pen s
    let rest := drawRuns rules line (index + 1) pen s later
    { rest with runs := drawn :: rest.runs }

/-- The lines and runs that a text is drawn as, if its options and its markup
    are in order. -/
def plan (options : Options) (text : Text) (x : Single) :
    Except DrawError (Line × List Markup.Run) := do
  let (width, lineHeight) ← options.validate.mapError DrawError.ofOption
  let content ← (Markup.parse text).mapError DrawError.nesting
  return (⟨.ofSingle x, width, lineHeight⟩, content.runs [])

/-- Draws a marked-up text from `x`, `y` onward. -/
def draw (options : Options) (text : Text) (x y : Single) (s : σ) :
    Except DrawError (Drawing σ) := do
  let (line, runs) ← plan options text x
  return drawRuns options.rules line 0 ⟨line.baseX, .ofSingle y⟩ s runs

end Draw

end Lettering
