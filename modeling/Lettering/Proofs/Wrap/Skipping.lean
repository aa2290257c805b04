import Lettering.Proofs.Wrap.Placing

/-!
# What line breaks skip

Every line break skips a piece of the text, which may be empty: all the spaces from the
place where the line ends up to the next character that is none. A line ends behind a
forced unit, or before a unit that does not fit behind something else. Everything else
is drawn, so that the text is what is drawn and what is skipped, woven in order. In
particular the spaces that a text starts with are drawn, up to where the first line
ends.

* `woven_covered`: steps weave together what they draw and what they skip.
* `Layout.breaksBefore`: every line break of a layout skips the spaces behind it.
* `wrap_skipping`: what the calls draw, and what is skipped between them.
-/

namespace Lettering

namespace Wrap

/-! ## Weaving -/

/-- A text made of two lists of pieces, those of each list in order. -/
inductive Woven : Text → List Text → List Text → Prop
  | nil : Woven [] [] []
  | drawn {t : Text} {drawn skipped : List Text} (piece : Text) :
    Woven t drawn skipped → Woven (piece ++ t) (piece :: drawn) skipped
  | skipped {t : Text} {drawn skipped : List Text} (piece : Text) :
    Woven t drawn skipped → Woven (piece ++ t) drawn (piece :: skipped)

/-- The piece of text that a line break skips. -/
def Step.skipped? : Step → Option Text
  | segment _ _ => none
  | forced _ _ _ _ => none
  | lineBreak skipped _ => some skipped

/-- The pieces of text that line breaks skip, in order. -/
def skippedTexts (steps : List Step) : List Text := steps.filterMap Step.skipped?

/-- There is a piece for every line break. -/
theorem length_skippedTexts (steps : List Step) : (skippedTexts steps).length = breaks steps := by
  rw [skippedTexts, List.length_filterMap_eq_countP]
  exact congrArg (List.countP · steps) (funext fun step => by cases step <;> rfl)

/-- Steps weave together what they draw and what they skip. -/
theorem woven_covered (steps : List Step) :
    Woven (covered steps) (drawnTexts (fills steps)) (skippedTexts steps) := by
  induction steps with
  | nil => exact .nil
  | cons step steps ih =>
    cases step with
    | segment text pen => exact .drawn text ih
    | forced text pen width room => exact .drawn text ih
    | lineBreak skipped y => exact .skipped skipped ih

/-- Nothing is skipped on one line. -/
theorem flatten_drawnTexts_fills {steps : List Step} (h : breaks steps = 0) :
    (drawnTexts (fills steps)).flatten = covered steps := by
  induction steps with
  | nil => rfl
  | cons step steps ih =>
    cases step with
    | segment text pen => exact congrArg (text ++ ·) (ih (by rwa [breaks_segment] at h))
    | forced text pen width room => exact congrArg (text ++ ·) (ih (by rwa [breaks_forced] at h))
    | lineBreak skipped y => simp at h

/-- The first line break, if there is one. -/
theorem breaks_eq_zero_or_first (steps : List Step) :
    breaks steps = 0 ∨ ∃ before skipped y after,
      steps = before ++ .lineBreak skipped y :: after ∧ breaks before = 0 := by
  induction steps with
  | nil => exact .inl rfl
  | cons step steps ih =>
    cases step with
    | lineBreak skipped y => exact .inr ⟨[], skipped, y, steps, rfl, rfl⟩
    | segment text pen =>
      refine ih.imp (fun h => by rwa [breaks_segment]) ?_
      rintro ⟨before, skipped, y, after, rfl, h⟩
      exact ⟨_ :: before, skipped, y, after, rfl, by rwa [breaks_segment]⟩
    | forced text pen width room =>
      refine ih.imp (fun h => by rwa [breaks_forced]) ?_
      rintro ⟨before, skipped, y, after, rfl, h⟩
      exact ⟨_ :: before, skipped, y, after, rfl, by rwa [breaks_forced]⟩

/-! ## Line breaks -/

/-- A line that the steps `before` have led to ends, and all spaces from there on are
    skipped: they are `skipped`, and the text goes on with `later`. The line ends with a
    forced unit, or the next unit does not fit behind what is on it. -/
structure BreaksBefore (m : Text → Length) (line : Line) (pen : Pen) (before : List Step)
    (skipped later : Text) : Prop where
  spaces : ∀ c ∈ skipped, isSpace c
  stops : ∀ c ∈ later.head?, ¬isSpace c
  ends : EndsForced before ∨
    (penAfter m line pen before).x ≠ line.baseX ∧ skipped ++ later ≠ [] ∧
      line.maxWidth < (penAfter m line pen before).x + m (cutUnit (skipped ++ later)).1

variable {m : Text → Length} {line : Line} {pen last : Pen} {text skipped later : Text}
  {steps before after : List Step}

/-- No hyphen is a space. -/
theorem BreaksBefore.hyphen_not_mem (h : BreaksBefore m line pen before skipped later) :
    '-' ∉ skipped := fun hm => absurd (h.spaces _ hm) (by decide)

/-- If what the steps have drawn are spaces, these and the ones skipped are all that
    the text starts with. -/
theorem BreaksBefore.takeWhile_eq (h : BreaksBefore m line pen before skipped later)
    (hc : ∀ c ∈ covered before, isSpace c) :
    (covered before ++ (skipped ++ later)).takeWhile isSpace = covered before ++ skipped := by
  rw [List.takeWhile_append_of_pos hc, List.takeWhile_append_of_pos h.spaces]
  cases later with
  | nil => simp
  | cons c later => rw [List.takeWhile_cons_of_neg (h.stops c rfl), List.append_nil]

/-- Every line break of a layout skips the spaces behind it. -/
theorem Layout.breaksBefore {y : Length}
    (h : Layout (fun t w => w = m t) line text pen (before ++ .lineBreak skipped y :: after) last) :
    BreaksBefore m line pen before skipped (covered after) := by
  obtain ⟨rest, -, ho⟩ := h.onward
  have hspaces : ∀ c ∈ rest.takeWhile isSpace, isSpace c := fun c => List.mem_takeWhile_imp
  have hstops : ∀ c ∈ (skipSpaces rest).head?, ¬isSpace c := not_isSpace_of_mem_head?
  have hrest := takeWhile_append_skipSpaces rest
  cases ho with
  | lineBreak hf hl =>
    rw [← hl.covered_eq] at hstops
    exact ⟨hspaces, hstops, .inl hf⟩
  | layout hn hl =>
    cases hl with
    | broken ht hx hmax hl =>
      rw [← hl.covered_eq] at hstops hrest
      obtain ⟨_, rfl, hmax⟩ := hmax
      refine ⟨hspaces, hstops, .inr ⟨hx, ?_, ?_⟩⟩
      · rwa [hrest]
      · rw [hrest]
        exact Length.not_le.mp hmax

/-! ## What is skipped -/

/-- The steps skip the spaces behind their line breaks, and nothing else of the text.

    * The text is what is drawn and what is skipped, woven in order, and there is a
      piece skipped for every line break.
    * At every line break the text is left where the line ends, and all spaces from
      there on are skipped. No hyphen is.
    * Up to the first line break all is drawn.
    * Spaces that the text starts with are drawn, if there is no line break before
      them. If the first line ends among them, the rest is what that line break skips. -/
structure Skipping (m : Text → Length) (line : Line) (text : Text) (pen : Pen)
    (steps : List Step) : Prop where
  woven : Woven text (drawnTexts (fills steps)) (skippedTexts steps)
  pieces : (skippedTexts steps).length = breaks steps
  lineBreak : ∀ before skipped y after, steps = before ++ .lineBreak skipped y :: after →
    text = covered before ++ (skipped ++ covered after) ∧
      BreaksBefore m line pen before skipped (covered after) ∧ '-' ∉ skipped
  firstLine : ∀ before after, steps = before ++ after → breaks before = 0 →
    text = (drawnTexts (fills before)).flatten ++ covered after
  leading : (∀ step ∈ steps.head?, ¬step.isLineBreak) →
    text.takeWhile isSpace <+: (drawnTexts (fills steps)).flatten ∨
      ∃ before skipped y after, steps = before ++ .lineBreak skipped y :: after ∧ before ≠ [] ∧
        breaks before = 0 ∧
        text.takeWhile isSpace = (drawnTexts (fills before)).flatten ++ skipped

/-- Either the first line has room for all spaces that the text starts with, or it ends
    among them. -/
theorem Layout.leading (h : Layout (fun t w => w = m t) line text pen steps last)
    (hb : ∀ step ∈ steps.head?, ¬step.isLineBreak) :
    text.takeWhile isSpace <+: (drawnTexts (fills steps)).flatten ∨
      ∃ before skipped y after, steps = before ++ .lineBreak skipped y :: after ∧ before ≠ [] ∧
        breaks before = 0 ∧
        text.takeWhile isSpace = (drawnTexts (fills before)).flatten ++ skipped := by
  have htext := h.covered_eq
  rcases breaks_eq_zero_or_first steps with hz | ⟨before, skipped, y, after, rfl, hz⟩
  · rw [flatten_drawnTexts_fills hz, htext]
    exact .inl (List.takeWhile_prefix _)
  · rw [covered_append, covered_cons] at htext
    -- Both the first line and the spaces are a beginning of the text.
    have hline : covered before <+: text := htext ▸ List.prefix_append _ _
    rcases List.prefix_or_prefix_of_prefix (List.takeWhile_prefix isSpace) hline with hp | hp
    · refine .inl (hp.trans ?_)
      rw [← flatten_drawnTexts_fills hz, fills_append, drawnTexts_append, List.flatten_append]
      exact List.prefix_append _ _
    · refine .inr ⟨before, skipped, y, after, rfl, ?_, hz, ?_⟩
      · rintro rfl
        exact hb _ rfl rfl
      · rw [flatten_drawnTexts_fills hz, ← htext]
        exact h.breaksBefore.takeWhile_eq fun c hc => List.mem_takeWhile_imp (hp.mem hc)

/-- A layout skips the spaces behind its line breaks, and nothing else. -/
theorem Layout.skipping (h : Layout (fun t w => w = m t) line text pen steps last) :
    Skipping m line text pen steps where
  woven := by
    have hw := woven_covered steps
    rwa [h.covered_eq] at hw
  pieces := length_skippedTexts steps
  lineBreak before skipped y after hs := by
    subst hs
    refine ⟨?_, h.breaksBefore, h.breaksBefore.hyphen_not_mem⟩
    rw [← h.covered_eq, covered_append, covered_cons]
    rfl
  firstLine before after hs hz := by
    rw [flatten_drawnTexts_fills hz, ← covered_append, ← hs, h.covered_eq]
  leading := h.leading

/-- On a surface that measures by a function, the calls are those of the steps, and the
    steps skip the spaces behind their line breaks, and nothing else of the text. -/
theorem wrap_skipping {σ : Type} [Surface σ] (line : Line) (text : Text) (pen : Pen)
    (m : Text → Length) (s : σ) (calls : List SurfaceCall) (hs : Surface.IsPure m s) :
    (wrap line text pen (⟨s, calls⟩ : Traced σ)).surface.calls =
        calls ++ fills (wrap line text pen s).steps ∧
      Skipping m line text pen (wrap line text pen s).steps :=
  ⟨by rw [wrap_traced]; rfl, (layout_wrap line text pen hs).skipping⟩

/-- Case: two spaces at the start, with room for one. The first is drawn, and the line
    break skips the second. -/
theorem wrap_skipping_leading :
    let r : Recorder := { width := fun t => .ofPixels t.length }
    let line : Line := ⟨0, .ofPixels 1, .ofPixels 1⟩
    let steps : List Step := [.segment [' '] ⟨0, 0⟩, .lineBreak [' '] (.ofPixels 1),
      .segment ['b'] ⟨0, .ofPixels 1⟩]
    Surface.IsPure r.width r ∧ (wrap line [' ', ' ', 'b'] ⟨0, 0⟩ r).steps = steps ∧
      Skipping r.width line [' ', ' ', 'b'] ⟨0, 0⟩ steps := by
  intro r line steps
  have hs : (wrap line [' ', ' ', 'b'] ⟨0, 0⟩ r).steps = steps := by decide +kernel
  exact ⟨r.isPure, hs, hs ▸ (wrap_skipping line _ _ r.width r [] r.isPure).2⟩

/-- Case: no line break comes before the text, but one among the spaces that it starts
    with. Not all of these are drawn. -/
theorem wrap_not_all_leading_drawn :
    let r : Recorder := { width := fun t => .ofPixels t.length }
    let text : Text := [' ', ' ', 'b']
    let steps := (wrap ⟨0, .ofPixels 1, .ofPixels 1⟩ text ⟨0, 0⟩ r).steps
    Surface.IsPure r.width r ∧ (∀ step ∈ steps.head?, ¬step.isLineBreak) ∧
      text.takeWhile isSpace = [' ', ' '] ∧ (drawnTexts (fills steps)).flatten = [' ', 'b'] ∧
      ¬text.takeWhile isSpace <+: (drawnTexts (fills steps)).flatten := by
  intro r text steps
  have hs : steps = [.segment [' '] ⟨0, 0⟩, .lineBreak [' '] (.ofPixels 1),
      .segment ['b'] ⟨0, .ofPixels 1⟩] := by
    decide +kernel
  rw [hs]
  exact ⟨r.isPure, by decide, by decide, by decide, by decide⟩

end Wrap

end Lettering
