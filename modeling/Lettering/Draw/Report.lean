import Lettering.Draw.Basic
import Lettering.Log.Basic
import Lettering.Text.Visible

/-!
# Reports

What drawing tells about itself: a log record for every run, forced unit and
line break, with a summary at the end, and a trace line for every forced unit.
-/

namespace Lettering

namespace Draw

open Wrap Log

/-- The trace line of a step: forced units have one. -/
def traceLine? : Step → Option Text
  | .forced text _ width room =>
    some ("[drawtext][wrap] forced ".toList ++ Text.visibleQuote text ++ " width ".toList
      ++ width.text ++ " exceeds ".toList ++ room.text ++ ['\n'])
  | _ => none

/-- The trace of a sequence of steps. -/
def traceOf (steps : List Step) : Text := (steps.filterMap traceLine?).flatten

/-- The log record of a step: forced units and line breaks have one. -/
def stepRecord? : Step → Option Record
  | .segment .. => none
  | .forced text pen width _ =>
    some (.event "drawtext.forced_segment"
      [("text", quote text), ("x", pen.x.text), ("y", pen.y.text), ("width", width.text)])
  | .lineBreak _ y => some (.event "drawtext.line_break" [("y", y.text)])

/-- The log record of a run. -/
def runRecord (drawn : DrawnRun) : Record :=
  .event "drawtext.run"
    [("index", Text.ofNat drawn.index),
      ("context", array (drawn.run.context.map fun name => quote name.toList)),
      ("text", quote drawn.run.text),
      ("font_change", if drawn.changesFont then "true".toList else "false".toList),
      ("x", drawn.start.x.text), ("y", drawn.start.y.text)]

/-- The log records of a sequence of steps. -/
def stepRecords (steps : List Step) : List Record := steps.filterMap stepRecord?

/-- The log records of a drawn run: its own, then those of its steps. -/
def runRecords (drawn : DrawnRun) : List Record := runRecord drawn :: stepRecords drawn.steps

/-- The steps of a drawing, run after run. -/
def Drawing.steps {σ : Type} (d : Drawing σ) : List Step := d.runs.flatMap DrawnRun.steps

/-- The trace of a drawing. -/
def Drawing.trace {σ : Type} (d : Drawing σ) : Text := traceOf d.steps

/-- Writes a drawing to a log: the records of its runs, and a summary of how
    many runs, segments, forced units and line breaks there were. -/
def Drawing.writeTo {σ : Type} (d : Drawing σ) (log : Log) : Log :=
  let log := log.write (d.runs.flatMap runRecords)
  let log := log.increment "runs" d.runs.length
  let log := log.increment "segments" (d.steps.countP Step.isSegment)
  let log := log.increment "forced_segments" (d.steps.countP Step.isForced)
  let log := log.increment "line_breaks" (d.steps.countP Step.isLineBreak)
  log.summarize "draw_text"

/-- What drawing a text leaves behind: the final pen or an error, the surface
    and, where there is one, the log. -/
structure Outcome (σ : Type) where
  result : Except DrawError Pen
  surface : σ
  log : Option Log
  trace : Text

/-- Draws a marked-up text and reports it. An error leaves the surface and the
    log as they were. -/
def drawText {σ : Type} [Surface σ] (options : Options) (text : Text) (x y : Single)
    (s : σ) (log : Option Log) : Outcome σ :=
  match draw options text x y s with
  | .error e => ⟨.error e, s, log, []⟩
  | .ok d => ⟨.ok d.pen, d.surface, log.map d.writeTo, d.trace⟩

end Draw

end Lettering
