import Lettering.Surface
import Lettering.Wrap.Boundary

/-!
# Wrapping a run

A run of text is drawn from a pen onward, greedily: a segment grows unit by unit
while it fits before the right edge, and is drawn when the next unit would not
fit. A unit that does not fit on an empty line is drawn there all the same, and
ends it. Spaces that would open a new line are skipped; those that end a line
are drawn with it.

* `taken_append_rest`: a growing segment and what is left of the text make up the
  whole text.
* `wrap` needs no bound on its steps: every step draws something, or moves the
  pen to the start of a line, from where something is drawn.
-/

namespace Lettering

namespace Wrap

/-- A drawing position. -/
structure Pen where
  x : Length
  y : Length
deriving DecidableEq, Repr

/-- The geometry of lines: where they start, where they have to end, and how far
    apart they are. -/
structure Line where
  baseX : Length
  maxWidth : Length
  height : Length
deriving DecidableEq, Repr

/-- What wrapping does, step by step. -/
inductive Step
  /-- A segment drawn because it fits. -/
  | segment (text : Text) (pen : Pen)
  /-- A unit drawn at the start of a line although its width exceeds the room. -/
  | forced (text : Text) (pen : Pen) (width room : Length)
  /-- A new line at height `y`, without the spaces skipped. -/
  | lineBreak (skipped : Text) (y : Length)
deriving DecidableEq, Repr

/-- The segment that fits at a pen: the text taken and its width, the unit that
    would come next with the width of both together, and the text after the
    segment. -/
structure Fit (σ : Type) where
  taken : Text
  width : Length
  unit : Text
  nextWidth : Length
  rest : Text
  surface : σ

/-- The outcome of wrapping: the steps taken, the pen and the surface at the
    end. -/
structure Wrapped (σ : Type) where
  steps : List Step
  pen : Pen
  surface : σ

/-- Puts a step in front. -/
def Wrapped.precededBy {σ : Type} (w : Wrapped σ) (steps : List Step) : Wrapped σ :=
  { w with steps := steps ++ w.steps }

variable {σ : Type} [Surface σ]

/-- Lets the segment `taken`, drawn at `x`, grow by the units of `rest` as long
    as it fits. -/
def grow (line : Line) (x : Length) (taken : Text) (width : Length) (rest : Text) (s : σ) :
    Fit σ :=
  let unit := (cutUnit rest).1
  let measured := Surface.measureText (taken ++ unit) s
  if _h : rest ≠ [] ∧ x + measured.1 ≤ line.maxWidth then
    grow line x (taken ++ unit) measured.1 (cutUnit rest).2 measured.2
  else ⟨taken, width, unit, measured.1, rest, measured.2⟩
termination_by rest.length
decreasing_by exact length_cutUnit_lt _h.1

/-- Growing loses nothing: what is taken and what is left make up the text. -/
theorem taken_append_rest (line : Line) (x : Length) (taken : Text) (width : Length) (rest : Text)
    (s : σ) :
    (grow line x taken width rest s).taken ++ (grow line x taken width rest s).rest =
      taken ++ rest := by
  fun_induction grow line x taken width rest s with
  | case1 taken _ rest _ _ _ _ ih => rw [ih, List.append_assoc, cutUnit_append]
  | case2 => rfl

theorem length_rest_lt {line : Line} {x : Length} {rest : Text} {s : σ}
    (h : (grow line x [] 0 rest s).taken ≠ []) :
    (grow line x [] 0 rest s).rest.length < rest.length := by
  have hl := congrArg List.length (taken_append_rest line x [] 0 rest s)
  have hp := List.length_pos_iff.mpr h
  rw [List.length_append, List.nil_append] at hl
  omega

/-- Draws a text from a pen onward. -/
def wrap (line : Line) (text : Text) (pen : Pen) (s : σ) : Wrapped σ :=
  if _ht : text = [] then ⟨[], pen, s⟩
  else
    let fit := grow line pen.x [] 0 text s
    if _hf : fit.taken = [] then
      let next : Pen := ⟨line.baseX, pen.y + line.height⟩
      if _hx : pen.x = line.baseX then
        let s := Surface.fillText fit.unit pen.x pen.y fit.surface
        let later := (cutUnit text).2
        (wrap line (skipSpaces later) next s).precededBy
          [.forced fit.unit pen fit.nextWidth (line.maxWidth - pen.x),
            .lineBreak (later.takeWhile isSpace) next.y]
      else
        (wrap line (skipSpaces text) next fit.surface).precededBy
          [.lineBreak (text.takeWhile isSpace) next.y]
    else
      let s := Surface.fillText fit.taken pen.x pen.y fit.surface
      (wrap line fit.rest { pen with x := pen.x + fit.width } s).precededBy [.segment fit.taken pen]
termination_by 2 * text.length + if pen.x = line.baseX then 0 else 1
decreasing_by
  · have h₁ := length_skipSpaces_le (cutUnit text).2
    have h₂ := length_cutUnit_lt _ht
    simp only [if_true, _hx]
    omega
  · have h := length_skipSpaces_le text
    simp only [if_true, if_neg _hx]
    omega
  · have h := length_rest_lt _hf
    split <;> split <;> omega

/-! ## Counts -/

/-- How many segments were drawn because they fit. -/
def Step.isSegment : Step → Bool
  | segment .. => true
  | _ => false

/-- Whether a step draws a unit although it does not fit. -/
def Step.isForced : Step → Bool
  | forced .. => true
  | _ => false

/-- Whether a step starts a new line. -/
def Step.isLineBreak : Step → Bool
  | lineBreak .. => true
  | _ => false

end Wrap

end Lettering
