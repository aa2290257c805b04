import Lettering.Proofs.Surface.Calls
import Lettering.Wrap.Run

/-!
# Steps and calls

The steps of wrapping say what the surface was told: a step that draws stands
for one call, and a line break for none (`fills`). Each step also covers a piece
of the text, the piece it draws or the spaces it skips.

* `wrap_traced`: the calls that draw are those of the steps, on any surface.
-/

namespace Lettering

namespace Wrap

/-- The piece of text that a step draws or skips. -/
def Step.covered : Step → Text
  | segment text _ => text
  | forced text _ _ _ => text
  | lineBreak skipped _ => skipped

/-- The call that a step makes, if it draws. -/
def Step.fill? : Step → Option SurfaceCall
  | segment text pen => some (.fillText text pen.x pen.y)
  | forced text pen _ _ => some (.fillText text pen.x pen.y)
  | lineBreak _ _ => none

/-- The calls that steps make. -/
def fills (steps : List Step) : List SurfaceCall := steps.filterMap Step.fill?

theorem fills_append (steps later : List Step) :
    fills (steps ++ later) = fills steps ++ fills later := List.filterMap_append

/-- The pieces of text that steps draw or skip, put together. -/
def covered (steps : List Step) : Text := steps.flatMap Step.covered

@[simp] theorem covered_nil : covered [] = [] := rfl

@[simp] theorem covered_cons (step : Step) (steps : List Step) :
    covered (step :: steps) = step.covered ++ covered steps := List.flatMap_cons

theorem covered_append (steps later : List Step) :
    covered (steps ++ later) = covered steps ++ covered later := List.flatMap_append

/-! ## Counts -/

/-- Whether a step draws. -/
def Step.draws : Step → Bool
  | segment .. => true
  | forced .. => true
  | lineBreak .. => false

theorem countP_draws (steps : List Step) :
    steps.countP Step.draws = steps.countP Step.isSegment + steps.countP Step.isForced := by
  induction steps with
  | nil => rfl
  | cons step steps ih =>
    rw [List.countP_cons, List.countP_cons, List.countP_cons, ih]
    cases step <;> simp [Step.draws, Step.isSegment, Step.isForced] <;> omega

/-- There is a call for every step that draws. -/
theorem length_fills (steps : List Step) : (fills steps).length = steps.countP Step.draws := by
  rw [fills, List.length_filterMap_eq_countP]
  exact congrArg (List.countP · steps) (funext fun step => by cases step <;> rfl)

variable {σ : Type} [Surface σ] {line : Line} {x width : Length} {taken rest text : Text}
  {pen : Pen}
  {s : σ}

/-! ## One step at a time -/

/-- The start of the next line. -/
def Line.below (line : Line) (pen : Pen) : Pen := ⟨line.baseX, pen.y + line.height⟩

theorem grow_of_fits
    (h : rest ≠ [] ∧
      x + (Surface.measureText (taken ++ (cutUnit rest).1) s).1 ≤ line.maxWidth) :
    grow line x taken width rest s =
      grow line x (taken ++ (cutUnit rest).1)
        (Surface.measureText (taken ++ (cutUnit rest).1) s).1 (cutUnit rest).2
        (Surface.measureText (taken ++ (cutUnit rest).1) s).2 := by
  rw [grow, dif_pos h]

theorem grow_of_not_fits
    (h : ¬(rest ≠ [] ∧
      x + (Surface.measureText (taken ++ (cutUnit rest).1) s).1 ≤ line.maxWidth)) :
    grow line x taken width rest s =
      ⟨taken, width, (cutUnit rest).1, (Surface.measureText (taken ++ (cutUnit rest).1) s).1, rest,
        (Surface.measureText (taken ++ (cutUnit rest).1) s).2⟩ := by
  rw [grow, dif_neg h]

/-- Growing stops at the end of the text, or where the next unit does not fit. -/
theorem grow_stops (line : Line) (x : Length) (taken : Text) (width : Length) (rest : Text) (s : σ)
    {fit : Fit σ} (hfit : grow line x taken width rest s = fit) :
    fit.unit = (cutUnit fit.rest).1 ∧ ¬(fit.rest ≠ [] ∧ x + fit.nextWidth ≤ line.maxWidth) := by
  subst hfit
  fun_induction grow line x taken width rest s with
  | case1 => assumption
  | case2 => exact ⟨rfl, by assumption⟩

/-- Where nothing fits, everything is left. -/
theorem rest_of_taken_eq_nil {fit : Fit σ} (hfit : grow line x [] 0 text s = fit)
    (h : fit.taken = []) : fit.rest = text := by
  have ht := taken_append_rest line x [] 0 text s
  rw [hfit, h] at ht
  exact ht

/-- Where nothing fits, the next unit is the first one. -/
theorem unit_of_taken_eq_nil {fit : Fit σ} (hfit : grow line x [] 0 text s = fit)
    (h : fit.taken = []) : fit.unit = (cutUnit text).1 := by
  rw [(grow_stops line x [] 0 text s hfit).1, rest_of_taken_eq_nil hfit h]

theorem takeWhile_append_skipSpaces (t : Text) : t.takeWhile isSpace ++ skipSpaces t = t :=
  List.takeWhile_append_dropWhile

/-- Where spaces were skipped, the text does not go on with one. -/
theorem not_isSpace_of_mem_head? {t : Text} : ∀ c ∈ (skipSpaces t).head?, ¬isSpace c := by
  intro c hc
  have h := List.head?_dropWhile_not isSpace t
  rw [skipSpaces, Option.mem_def] at hc
  simpa [hc] using h

theorem wrap_nil : wrap line [] pen s = ⟨[], pen, s⟩ := by
  rw [wrap, dif_pos rfl]

/-- A unit that does not fit on an empty line is drawn there, and ends it. -/
theorem wrap_forced (ht : text ≠ []) {fit : Fit σ} (hf : grow line pen.x [] 0 text s = fit)
    (h : fit.taken = []) (hx : pen.x = line.baseX) :
    wrap line text pen s =
      (wrap line (skipSpaces (cutUnit text).2) (line.below pen)
        (Surface.fillText fit.unit pen.x pen.y fit.surface)).precededBy
        [.forced fit.unit pen fit.nextWidth (line.maxWidth - pen.x),
          .lineBreak ((cutUnit text).2.takeWhile isSpace) (line.below pen).y] := by
  subst hf
  rw [wrap, dif_neg ht]
  exact (dif_pos h).trans (dif_pos hx)

/-- Nothing is drawn that would not fit behind something else. -/
theorem wrap_broken (ht : text ≠ []) {fit : Fit σ} (hf : grow line pen.x [] 0 text s = fit)
    (h : fit.taken = []) (hx : pen.x ≠ line.baseX) :
    wrap line text pen s =
      (wrap line (skipSpaces text) (line.below pen) fit.surface).precededBy
        [.lineBreak (text.takeWhile isSpace) (line.below pen).y] := by
  subst hf
  rw [wrap, dif_neg ht]
  exact (dif_pos h).trans (dif_neg hx)

/-- What fits is drawn. -/
theorem wrap_segment (ht : text ≠ []) {fit : Fit σ} (hf : grow line pen.x [] 0 text s = fit)
    (h : fit.taken ≠ []) :
    wrap line text pen s =
      (wrap line fit.rest { pen with x := pen.x + fit.width }
        (Surface.fillText fit.taken pen.x pen.y fit.surface)).precededBy
        [.segment fit.taken pen] := by
  subst hf
  rw [wrap, dif_neg ht]
  exact dif_neg h

/-! ## Calls -/

/-- A segment on a surface that notes calls; to find it made none. -/
def Fit.traced (fit : Fit σ) (calls : List SurfaceCall) : Fit (Traced σ) :=
  { fit with surface := ⟨fit.surface, calls⟩ }

/-- The outcome of wrapping on a surface that notes calls: it notes those of the
    steps. -/
def Wrapped.traced (w : Wrapped σ) (calls : List SurfaceCall) : Wrapped (Traced σ) :=
  { w with surface := ⟨w.surface, calls ++ fills w.steps⟩ }

omit [Surface σ] in
theorem Wrapped.traced_precededBy (w : Wrapped σ) (steps : List Step) (calls : List SurfaceCall) :
    (w.precededBy steps).traced calls = (w.traced (calls ++ fills steps)).precededBy steps := by
  simp [traced, precededBy, fills]

theorem grow_traced (line : Line) (x : Length) (taken : Text) (width : Length) (rest : Text) (s : σ)
    (calls : List SurfaceCall) :
    grow line x taken width rest (⟨s, calls⟩ : Traced σ) =
      (grow line x taken width rest s).traced calls := by
  fun_induction grow line x taken width rest s with
  | case1 taken width rest s unit measured h ih =>
    exact (grow_of_fits (s := (⟨s, calls⟩ : Traced σ)) h).trans ih
  | case2 taken width rest s unit measured h =>
    exact grow_of_not_fits (s := (⟨s, calls⟩ : Traced σ)) h

/-- The calls that draw are those of the steps, on any surface. -/
theorem wrap_traced (line : Line) (text : Text) (pen : Pen) (s : σ) (calls : List SurfaceCall) :
    wrap line text pen (⟨s, calls⟩ : Traced σ) = (wrap line text pen s).traced calls := by
  fun_induction wrap line text pen s generalizing calls with
  | case1 pen s =>
    rw [wrap_nil]
    simp [Wrapped.traced, fills]
  | case2 text pen s ht fit hf next hx s' later ih =>
    rw [wrap_forced ht (grow_traced line pen.x [] 0 text s calls) hf hx, Wrapped.traced_precededBy]
    exact congrArg (Wrapped.precededBy · _)
      (ih (calls ++ [SurfaceCall.fillText fit.unit pen.x pen.y]))
  | case3 text pen s ht fit hf next hx ih =>
    rw [wrap_broken ht (grow_traced line pen.x [] 0 text s calls) hf hx, Wrapped.traced_precededBy,
      show fills [Step.lineBreak _ _] = [] from rfl, List.append_nil]
    exact congrArg (Wrapped.precededBy · _) (ih calls)
  | case4 text pen s ht fit hf s' ih =>
    rw [wrap_segment ht (grow_traced line pen.x [] 0 text s calls) hf, Wrapped.traced_precededBy]
    exact congrArg (Wrapped.precededBy · _)
      (ih (calls ++ [SurfaceCall.fillText fit.taken pen.x pen.y]))

end Wrap

end Lettering
