import Lettering.Proofs.Draw.Performance
import Lettering.Proofs.Wrap.Placing

/-!
# Where texts are drawn

Wrapping keeps a pen, from which every text is drawn, and counts what it does. Both
can be told from what it did. On a line texts are drawn side by side: the first one at
the pen where wrapping started or, behind a line break, at the start of the line, and
every other one where the one before it ends. A unit that is forced is the last one on
its line. The height of a line depends on nothing but the number of line breaks before
it (`Line.level`): sums of heights go one way only, so that clipping each of them is
clipping the last one.

* `level_succ`, `y_penAfter`: the pen goes from level to level.
* `Layout.isNext`: behind any of its steps a layout goes on where they have led
  (`IsNext`).
* `wrapOn_places`: the calls, the counts and the pen of a run.
-/

namespace Lettering

namespace Wrap

/-! ## Levels -/

/-- The height `n` line breaks below `y`, clipped to the range. -/
def Line.level (line : Line) (y : Length) : Nat → Length
  | 0 => y
  | n + 1 => .ofThousandths (y.thousandths + (n + 1 : Nat) * line.height.thousandths)

/-- The height in thousandths is the exact one, clipped once. -/
theorem thousandths_level (line : Line) (y : Length) (n : Nat) :
    (line.level y n).thousandths =
      max (-Length.bound) (min (y.thousandths + n * line.height.thousandths) Length.bound) := by
  cases n with
  | zero =>
    have hlo := y.neg_bound_le_thousandths
    have hhi := y.thousandths_le_bound
    simp only [Line.level]
    omega
  | succ n => exact Length.thousandths_ofThousandths _

/-- The next level is a line height away. -/
theorem level_succ (line : Line) (y : Length) (n : Nat) :
    line.level y (n + 1) = line.level y n + line.height := by
  have hlo := y.neg_bound_le_thousandths
  have hhi := y.thousandths_le_bound
  have hn : (0 : Int) ≤ n := Int.natCast_nonneg n
  have hsucc : ((n + 1 : Nat) : Int) * line.height.thousandths =
      n * line.height.thousandths + line.height.thousandths := by
    rw [Int.natCast_succ, Int.add_mul, Int.one_mul]
  rw [Line.level, Length.add_def, thousandths_level, ← Length.ofThousandths_clip,
    ← Length.ofThousandths_clip (max _ _ + _), hsucc]
  congr 1
  -- All sums go one way: one that is clipped is followed by none that is not.
  rcases Int.le_total 0 line.height.thousandths with hh | hh
  · have := Int.mul_nonneg hn hh
    omega
  · have := Int.mul_nonpos_of_nonneg_of_nonpos hn hh
    omega

variable {m : Text → Length} {line : Line} {pen last : Pen} {text : Text}
  {steps before after : List Step} {step : Step}

theorem penAfter_append_singleton (m : Text → Length) (line : Line) (pen : Pen) (steps : List Step)
    (step : Step) :
    penAfter m line pen (steps ++ [step]) = step.penAfter m line (penAfter m line pen steps) :=
  List.foldl_concat ..

/-- The pen is on the level that the line breaks have led to. -/
theorem y_penAfter (m : Text → Length) (line : Line) (pen : Pen) (steps : List Step) :
    (penAfter m line pen steps).y = line.level pen.y (breaks steps) := by
  induction steps using List.reverseRecOn with
  | nil => rfl
  | append_singleton steps step ih =>
    rw [penAfter_append_singleton, breaks_append]
    cases step with
    | segment => exact ih
    | forced => exact ih
    | lineBreak skipped y =>
      rw [Step.penAfter, Line.below, ih]
      exact (level_succ line pen.y (breaks steps)).symm

/-! ## Places -/

/-- Where the next text on the line is drawn, if the given step was the last one: where
    wrapping started, if there was none. Behind a forced unit there is no place. -/
def nextX? (m : Text → Length) (line : Line) (start : Length) : Option Step → Option Length
  | none => some start
  | some (.segment text pen) => some (pen.x + m text)
  | some (.forced ..) => none
  | some (.lineBreak ..) => some line.baseX

/-- The steps `before` have led from `pen` to `place`: on its line it is where the last
    one of them leads, and its height counts the line breaks. -/
structure IsNext (m : Text → Length) (line : Line) (pen : Pen) (before : List Step)
    (place : Pen) : Prop where
  x : nextX? m line pen.x before.getLast? = some place.x
  y : place.y = line.level pen.y (breaks before)

/-- Every text is drawn where the steps before it have led, and the last pen is where
    all of them have led. A forced unit is followed by a line break, and a line break
    goes to the next level. -/
structure Places (m : Text → Length) (line : Line) (pen : Pen) (steps : List Step)
    (last : Pen) : Prop where
  call : ∀ before step after text x y, steps = before ++ step :: after →
    step.fill? = some (.fillText text x y) → IsNext m line pen before ⟨x, y⟩
  forced : ∀ before text place width room after,
    steps = before ++ .forced text place width room :: after →
      ∃ skipped y later, after = .lineBreak skipped y :: later
  lineBreak : ∀ before skipped y after, steps = before ++ .lineBreak skipped y :: after →
    y = line.level pen.y (breaks before + 1)
  last : IsNext m line pen steps last

theorem Layout.eq_of_nil {answer : Text → Length → Prop}
    (h : Layout answer line text pen [] last) : last = pen := by
  cases h
  rfl

/-- Behind steps that do not end with a forced unit the pen is where they have led. -/
theorem Layout.isNext
    (h : Layout (fun t w => w = m t) line text pen (before ++ after) last)
    (hn : ¬EndsForced before) : IsNext m line pen before (penAfter m line pen before) := by
  refine ⟨?_, y_penAfter m line pen before⟩
  rcases List.eq_nil_or_concat before with rfl | ⟨init, step, rfl⟩
  · rfl
  · rw [List.concat_eq_append] at h hn ⊢
    rw [List.getLast?_concat, penAfter_append_singleton]
    cases step with
    | segment text place =>
      rw [List.append_assoc] at h
      obtain ⟨rest, -, rfl, -⟩ := h.greedy
      rfl
    | forced text place width room => exact absurd ⟨init, text, place, width, room, rfl⟩ hn
    | lineBreak => rfl

/-- All that a layout does is in its place. -/
theorem Layout.places (h : Layout (fun t w => w = m t) line text pen steps last) :
    Places m line pen steps last where
  call before step after text x y hs hfill := by
    subst hs
    obtain ⟨rest, -, ho⟩ := h.onward
    cases ho with
    | lineBreak => cases hfill
    | layout hn hl =>
      have hnext := h.isNext hn
      cases hl with
      | segment => cases hfill; exact hnext
      | forced => cases hfill; exact hnext
      | broken => cases hfill
  forced before text place width room after hs := by
    subst hs
    rw [List.append_cons] at h
    obtain ⟨rest, -, ho⟩ := h.onward
    cases ho with
    | layout hn => exact absurd ⟨before, text, place, width, room, rfl⟩ hn
    | lineBreak => exact ⟨_, _, _, rfl⟩
  lineBreak before skipped y after hs := by
    subst hs
    obtain ⟨rest, -, ho⟩ := h.onward
    rw [level_succ, ← y_penAfter m]
    cases ho with
    | lineBreak => rfl
    | layout hn hl => cases hl; rfl
  last := by
    rw [← List.append_nil steps] at h
    obtain ⟨rest, -, ho⟩ := h.onward
    cases ho with
    | layout hn hl =>
      exact hl.eq_of_nil ▸ h.isNext hn

end Wrap

namespace Draw

open Wrap

variable {σ : Type} [Surface σ]

/-- Wrapping a run on a desk, on a surface that measures by a function. As many texts
    are drawn as segments and forced units are counted, and as many line breaks are
    counted as there are. Every text is drawn where what happened before has led, and
    the pen is left where everything has led. -/
theorem wrapOn_places (line : Line) (text : Text) (pen : Pen) {m : Text → Length} (d : Desk σ)
    (hs : Surface.IsPure m d.surface) :
    let w := wrap line text pen d.surface
    ∃ (stats : Stats) (after : Desk σ) (es : List Event),
      wrapOn line text pen {} d = ((stats, w.pen), after) ∧
      after.surface = w.surface ∧ after.events = d.events ++ es ∧
      es.filterMap Event.call? = fills w.steps ∧
      (fills w.steps).length = stats.segments + stats.forced ∧
      breaks w.steps = stats.lineBreaks ∧
      Places m line pen w.steps w.pen ∧
      ∀ n, (line.level pen.y n).thousandths =
        max (-Length.bound)
          (min (pen.y.thousandths + n * line.height.thousandths) Length.bound) := by
  intro w
  obtain ⟨after, ms, hw, hsurface, htakes⟩ := comesTo_wrap line text pen {} d [] rfl
  obtain ⟨es, hevents, hcalls, -⟩ := htakes.events
  refine ⟨.ofSteps w.steps, after, es, ?_, hsurface, hevents, hcalls, ?_, rfl,
    (layout_wrap line text pen hs).places, thousandths_level line pen.y⟩
  · rw [hw, Stats.absorb_zero]
  · rw [length_fills, countP_draws]
    rfl

/-- Case: widths that grow with the square of the length. On lines of six pixels a word,
    its hyphen and a space are drawn one by one, and the next word is forced. -/
theorem wrapOn_places_square :
    let r : Recorder := { width := fun t => .ofPixels (t.length * t.length) }
    let line : Line := ⟨0, .ofPixels 6, .ofPixels 10⟩
    let text : Text := ['a', 'b', '-', ' ', 'c', 'd', 'e']
    let w := wrap line text ⟨0, 0⟩ r
    Surface.IsPure r.width r ∧
      ∃ (stats : Stats) (after : Desk Recorder),
        wrapOn line text ⟨0, 0⟩ {} ⟨r, none, [], []⟩ = ((stats, w.pen), after) ∧
        (fills w.steps).length = stats.segments + stats.forced ∧
        breaks w.steps = stats.lineBreaks ∧ Places r.width line ⟨0, 0⟩ w.steps w.pen := by
  intro r line text w
  have hs : Surface.IsPure r.width r := r.isPure
  obtain ⟨stats, after, -, hw, -, -, -, hcalls, hbreaks, hplaces, -⟩ :=
    wrapOn_places line text ⟨0, 0⟩ ⟨r, none, [], []⟩ hs
  exact ⟨hs, stats, after, hw, hcalls, hbreaks, hplaces⟩

end Draw

end Lettering
