import Lettering.Proofs.Draw.Calls
import Lettering.Proofs.Wrap.Simulation
import Mathlib.Data.List.Chain

/-!
# Lines that open with a space

Spaces that would open a new line are skipped, but only those of the run that
opens it (`isChain_wrap`). Where a run ends with a line break, the next run is
drawn from its first character on, and if this is a space the line opens with it.
No other line opens with a space.

* `OpensLine`: what is drawn first on a line, and by which run.
* `GoesOnWithSpace`: a run that starts with a space follows a line break.
* `draw_opensLine`: a line of a text opens with a space if and only if some run
  goes on so.
-/

namespace Lettering

namespace Wrap

variable {σ : Type} [Surface σ] {text : Text}

/-- Whether a text starts with a space. -/
def opensWithSpace (t : Text) : Bool := t.head?.any isSpace

theorem opensWithSpace_skipSpaces (t : Text) : opensWithSpace (skipSpaces t) = false := by
  rw [opensWithSpace]
  cases hc : (skipSpaces t).head? with
  | none => rfl
  | some c => exact Bool.eq_false_iff.mpr (not_isSpace_of_mem_head? c hc)

/-- A text that the step draws starts as the given one does. -/
def Step.StartsAs (text : Text) (step : Step) : Prop :=
  ∀ t x y, step.fill? = some (.fillText t x y) → t.head? = text.head?

/-- After a line break the next step draws nothing that starts with a space. -/
def Step.SkipsSpaces (step next : Step) : Prop :=
  step.isLineBreak → ∀ t x y, next.fill? = some (.fillText t x y) → opensWithSpace t = false

theorem Step.SkipsSpaces.of_not_isLineBreak {step : Step} (h : step.isLineBreak = false)
    (next : Step) : step.SkipsSpaces next := fun hb => absurd hb (by simp [h])

/-- What a run draws first starts as its text does. -/
theorem startsAs_of_mem_head? (line : Line) (text : Text) (pen : Pen) (s : σ) :
    ∀ step ∈ (wrap line text pen s).steps.head?, step.StartsAs text := by
  fun_cases wrap line text pen s with
  | case1 =>
    intro step h
    cases h
  | case2 ht fit hf next hx s' later =>
    have hu : fit.unit = (cutUnit text).1 := unit_of_taken_eq_nil rfl hf
    rintro _ ⟨⟩ t x y ⟨⟩
    rw [hu, ← List.head?_append_of_ne_nil _ (cutUnit_ne_nil ht), cutUnit_append]
  | case3 ht fit hf next hx =>
    rintro _ ⟨⟩ t x y ⟨⟩
  | case4 ht fit hf s' =>
    have hr : fit.taken ++ fit.rest = text := taken_append_rest line pen.x [] 0 text s
    rintro _ ⟨⟩ t x y ⟨⟩
    rw [← List.head?_append_of_ne_nil _ hf, hr]

/-- What follows a line break of the run does not start with a space. -/
theorem skipsSpaces_of_mem_head? (line : Line) (text : Text) (pen : Pen) (s : σ) (step : Step) :
    ∀ next ∈ (wrap line (skipSpaces text) pen s).steps.head?, step.SkipsSpaces next := by
  intro next hn _ t x y hfill
  have h := startsAs_of_mem_head? line (skipSpaces text) pen s next hn t x y hfill
  rw [opensWithSpace, h]
  exact opensWithSpace_skipSpaces text

/-- No line that a run opens starts with a space. -/
theorem isChain_wrap (line : Line) (text : Text) (pen : Pen) (s : σ) :
    (wrap line text pen s).steps.IsChain Step.SkipsSpaces := by
  fun_induction wrap line text pen s with
  | case1 => exact .nil
  | case2 text pen s ht fit hf next hx s' later ih =>
    exact .cons_cons (.of_not_isLineBreak rfl _)
      (List.isChain_cons.mpr ⟨skipsSpaces_of_mem_head? _ later _ _ _, ih⟩)
  | case3 text pen s ht fit hf next hx ih =>
    exact List.isChain_cons.mpr ⟨skipsSpaces_of_mem_head? _ text _ _ _, ih⟩
  | case4 text pen s ht fit hf s' ih =>
    exact List.isChain_cons.mpr ⟨fun _ _ => .of_not_isLineBreak rfl _, ih⟩

/-! ## Where a run ends -/

/-- The last step is a line break. -/
def endsInBreak (steps : List Step) : Bool := steps.getLast?.any Step.isLineBreak

/-- A run that ends with a line break leaves the pen at the start of a line, and so
    does a run that draws nothing if that is where it found the pen. -/
theorem pen_wrap_of_endsInBreak {line : Line} {pen : Pen} {s : σ} {before : List Step}
    (hp : endsInBreak before → pen.x = line.baseX)
    (h : endsInBreak (before ++ (wrap line text pen s).steps)) :
    (wrap line text pen s).pen.x = line.baseX := by
  fun_induction wrap line text pen s generalizing before with
  | case1 => exact hp (by simpa using h)
  | case2 text pen s ht fit hf next hx s' later =>
    rename_i ih
    rw [Wrapped.precededBy, ← List.append_assoc] at h
    exact ih (fun _ => rfl) h
  | case3 text pen s ht fit hf next hx =>
    rename_i ih
    rw [Wrapped.precededBy, ← List.append_assoc] at h
    exact ih (fun _ => rfl) h
  | case4 text pen s ht fit hf s' =>
    rename_i ih
    rw [Wrapped.precededBy, ← List.append_assoc] at h
    refine ih (fun he => ?_) h
    simp [endsInBreak, Step.isLineBreak] at he

/-- At the start of a line a run draws before it breaks the line. -/
theorem exists_fill_of_baseX {line : Line} {pen : Pen} (ht : text ≠ []) (hx : pen.x = line.baseX)
    (s : σ) : ∃ step after t x y, (wrap line text pen s).steps = step :: after ∧
      step.fill? = some (.fillText t x y) := by
  fun_cases wrap line text pen s with
  | case1 hn => exact absurd hn ht
  | case2 _ fit => exact ⟨_, _, fit.unit, pen.x, pen.y, rfl, rfl⟩
  | case3 _ fit _ next hx' => exact absurd hx hx'
  | case4 _ fit => exact ⟨_, _, fit.taken, pen.x, pen.y, rfl, rfl⟩

end Wrap

namespace Draw

open Wrap Markup

variable {σ : Type} [Surface σ]

/-- The steps are those of wrapping the text of the run. -/
def DrawnRun.IsWrapped (σ : Type) [Surface σ] (line : Line) (drawn : DrawnRun) : Prop :=
  ∃ s : σ, drawn.steps = (wrap line drawn.run.text drawn.start s).steps

theorem isWrapped_of_mem_drawRuns (rules : RuleTable) (line : Line) (index : Nat) (pen : Pen)
    (s : σ) (runs : List Markup.Run) :
    ∀ drawn ∈ (drawRuns rules line index pen s runs).runs, drawn.IsWrapped σ line := by
  induction runs generalizing index pen s with
  | nil => exact List.forall_mem_nil _
  | cons run later ih =>
    intro drawn h
    rcases List.mem_cons.mp h with rfl | h
    · exact ⟨styled rules run s, rfl⟩
    · exact ih _ _ _ drawn h

/-- After a line break the next run finds the pen at the start of a line. The steps
    `before` are those that led to the pen of the first run. -/
theorem start_of_endsInBreak (rules : RuleTable) (line : Line) (index : Nat) {pen : Pen} (s : σ)
    (runs : List Markup.Run) {before : List Step} (hp : endsInBreak before → pen.x = line.baseX)
    {earlier later : List DrawnRun} {drawn : DrawnRun}
    (hr : (drawRuns rules line index pen s runs).runs = earlier ++ drawn :: later)
    (hb : endsInBreak (before ++ earlier.flatMap DrawnRun.steps)) :
    drawn.start.x = line.baseX := by
  induction runs generalizing index pen s before earlier with
  | nil => simp [drawRuns] at hr
  | cons run more ih =>
    cases earlier with
    | nil =>
      cases hr
      exact hp (by simpa using hb)
    | cons first earlier =>
      have hcons : (drawRun rules line index run pen s).1 ::
          (drawRuns rules line (index + 1) (drawRun rules line index run pen s).2.1
            (drawRun rules line index run pen s).2.2 more).runs =
          first :: (earlier ++ drawn :: later) := hr
      obtain ⟨rfl, hrest⟩ := List.cons.inj hcons
      rw [List.flatMap_cons, ← List.append_assoc] at hb
      refine ih _ _ (fun he => ?_) hrest hb
      rw [drawRun_eq] at he ⊢
      exact pen_wrap_of_endsInBreak hp he

/-! ## Lines -/

/-- The text `t` is what is drawn first on a line that was opened before: by a run,
    after its steps `before`. -/
inductive OpensLine (runs : List DrawnRun) : DrawnRun → List Step → Text → Prop
  | intro {earlier later : List DrawnRun} {drawn : DrawnRun} {before after : List Step}
    {step : Step} {t : Text} {x y : Length} :
    runs = earlier ++ drawn :: later → drawn.steps = before ++ step :: after →
      step.fill? = some (.fillText t x y) →
      endsInBreak (earlier.flatMap DrawnRun.steps ++ before) → OpensLine runs drawn before t

/-- A run that starts with a space comes next after a line break. -/
def GoesOnWithSpace (runs : List DrawnRun) : Prop :=
  ∃ earlier drawn later, runs = earlier ++ drawn :: later ∧
    endsInBreak (earlier.flatMap DrawnRun.steps) ∧ opensWithSpace drawn.run.text

variable {line : Line} {runs : List DrawnRun} {drawn : DrawnRun} {before : List Step} {t : Text}

/-- What is drawn first on a line starts with a space just where it is the first
    text of its run, and the text of the run starts with a space. -/
theorem OpensLine.iff (hw : ∀ drawn ∈ runs, drawn.IsWrapped σ line)
    (h : OpensLine runs drawn before t) :
    opensWithSpace t ↔ before = [] ∧ opensWithSpace drawn.run.text := by
  obtain @⟨earlier, later, _, _, after, step, _, x, y, rfl, hsteps, hfill, hbreak⟩ := h
  obtain ⟨s, hwrap⟩ := hw drawn (by simp)
  rw [hwrap] at hsteps
  rcases List.eq_nil_or_concat before with rfl | ⟨init, last, rfl⟩
  · have hstart := startsAs_of_mem_head? line drawn.run.text drawn.start s step
      (by rw [hsteps]; rfl) t x y hfill
    simp [opensWithSpace, hstart]
  · -- The line was opened by the step before, which belongs to the same run.
    have hchain := isChain_wrap line drawn.run.text drawn.start s
    rw [hsteps, List.isChain_append] at hchain
    have hlast : last.isLineBreak := by simpa [endsInBreak, ← List.append_assoc] using hbreak
    have hskip := hchain.2.2 last (by simp) step (by simp) hlast t x y hfill
    simp [hskip]

/-- A run that starts with a space and goes on after a line break opens the line
    with the space. -/
theorem exists_opensLine_iff (hw : ∀ drawn ∈ runs, drawn.IsWrapped σ line)
    (hstart : ∀ earlier drawn later, runs = earlier ++ drawn :: later →
      endsInBreak (earlier.flatMap DrawnRun.steps) → drawn.start.x = line.baseX) :
    (∃ drawn before t, OpensLine runs drawn before t ∧ opensWithSpace t) ↔
      GoesOnWithSpace runs := by
  constructor
  · rintro ⟨drawn, before, t, h, hspace⟩
    obtain ⟨rfl, htext⟩ := (h.iff hw).mp hspace
    obtain @⟨earlier, later, _, _, after, step, _, x, y, hruns, -, -, hbreak⟩ := h
    exact ⟨earlier, drawn, later, hruns, by simpa using hbreak, htext⟩
  · rintro ⟨earlier, drawn, later, hruns, hbreak, htext⟩
    obtain ⟨s, hwrap⟩ := hw drawn (by simp [hruns])
    have ht : drawn.run.text ≠ [] := by
      intro hn
      rw [hn] at htext
      cases htext
    obtain ⟨step, after, t, x, y, hsteps, hfill⟩ :=
      exists_fill_of_baseX ht (hstart earlier drawn later hruns hbreak) s
    have h : OpensLine runs drawn [] t :=
      .intro hruns (hwrap.trans hsteps) hfill (by simpa using hbreak)
    exact ⟨drawn, [], t, h, (h.iff hw).mpr ⟨rfl, htext⟩⟩

/-- A text in order, drawn with options in order, is drawn by the calls of its runs.
    A text drawn first on a new line starts with a space just where it is the first
    one of its run, and the text of the run starts with a space. There is such a
    line if and only if a run that starts with a space follows a line break. -/
theorem draw_opensLine {options : Options} {text : Text} {dims : Length × Length}
    {content : Content} (ho : options.validate = .ok dims) (hc : parse text = .ok content)
    (x y : Single) (s : σ) (calls : List SurfaceCall) :
    ∃ d : Drawing σ, draw options text x y s = .ok d ∧
      draw options text x y (⟨s, calls⟩ : Traced σ) =
        .ok ⟨d.runs, d.pen, ⟨d.surface, calls ++ d.runs.flatMap (DrawnRun.calls options.rules)⟩⟩ ∧
      d.runs.map DrawnRun.run = content.runs [] ∧
      (∀ drawn before t, OpensLine d.runs drawn before t →
        (opensWithSpace t ↔ before = [] ∧ opensWithSpace drawn.run.text)) ∧
      ((∃ drawn before t, OpensLine d.runs drawn before t ∧ opensWithSpace t) ↔
        GoesOnWithSpace d.runs) := by
  let line : Line := ⟨.ofSingle x, dims.1, dims.2⟩
  let pen : Pen := ⟨line.baseX, .ofSingle y⟩
  have hp := plan_eq_ok ho hc x
  have hw := isWrapped_of_mem_drawRuns options.rules line 0 pen s (content.runs [])
  refine ⟨drawRuns options.rules line 0 pen s (content.runs []), draw_of_plan_eq_ok hp y s,
    ?_, ?_, ?_, ?_⟩
  · rw [draw_of_plan_eq_ok hp, drawRuns_traced]
  · exact map_run_drawRuns options.rules line 0 pen s _
  · exact fun drawn before t h => h.iff hw
  · refine exists_opensLine_iff hw fun earlier drawn later hr hb => ?_
    have hb' : endsInBreak ([] ++ earlier.flatMap DrawnRun.steps) := hb
    exact start_of_endsInBreak options.rules line 0 s _ (fun _ => rfl) hr hb'

/-! ## A line that opens with a space -/

/-- Lines of twenty pixels. -/
def narrow : Options := { width? := some (.ofInt 20), lineHeight? := some (.ofInt 10) }

/-- A word, and a run that starts with a space. -/
def wordAndSpace : Text := ['a', 'b', 'c', 'd', '<', 'b', '>', ' ', 'x', '<', '/', 'b', '>']

/-- Six pixels for every character. -/
def sixPixels : Recorder := { width := fun t => .ofPixels (6 * t.length) }

theorem validate_narrow : narrow.validate = .ok (.ofPixels 20, .ofPixels 10) := by decide

theorem parse_wordAndSpace : parse wordAndSpace =
    .ok (.text ['a', 'b', 'c', 'd'] (.element "b" (.text [' ', 'x'] .nil) .nil)) := by
  unfold wordAndSpace
  cbv

/-- Case: a word and a run that starts with a space. -/
theorem draw_opensLine_narrow :
    narrow.validate = .ok (.ofPixels 20, .ofPixels 10) ∧
      parse wordAndSpace =
        .ok (.text ['a', 'b', 'c', 'd'] (.element "b" (.text [' ', 'x'] .nil) .nil)) ∧
      ∃ d : Drawing Recorder, draw narrow wordAndSpace .zero .zero sixPixels = .ok d ∧
        ((∃ drawn before t, OpensLine d.runs drawn before t ∧ opensWithSpace t) ↔
          GoesOnWithSpace d.runs) := by
  obtain ⟨d, hd, -, -, -, h⟩ :=
    draw_opensLine validate_narrow parse_wordAndSpace .zero .zero sixPixels []
  exact ⟨validate_narrow, parse_wordAndSpace, d, hd, h⟩

/-- Recorders that measure alike are wrapped on alike, whatever they have noted. -/
theorem simulation_width :
    Surface.Simulation fun r r' : Recorder => r'.width = r.width where
  answer t h := congrFun h t
  measureText _ h := h
  fillText _ _ _ h := h

/-- Case: the word ends its line, so that the space opens the next one. -/
theorem draw_opensLine_space :
    ∃ d : Drawing Recorder, draw narrow wordAndSpace .zero .zero sixPixels = .ok d ∧
      ∃ drawn, OpensLine d.runs drawn [] [' ', 'x'] ∧ opensWithSpace [' ', 'x'] := by
  let line : Line := ⟨.ofSingle .zero, .ofPixels 20, .ofPixels 10⟩
  let pen : Pen := ⟨line.baseX, .ofSingle .zero⟩
  let word : Markup.Run := ⟨[], ['a', 'b', 'c', 'd']⟩
  let space : Markup.Run := ⟨["b"], [' ', 'x']⟩
  have hd : draw narrow wordAndSpace .zero .zero sixPixels =
      .ok (drawRuns narrow.rules line 0 pen sixPixels [word, space]) :=
    draw_of_plan_eq_ok (plan_eq_ok validate_narrow parse_wordAndSpace .zero) .zero sixPixels
  let first := drawRun narrow.rules line 0 word pen sixPixels
  let second := drawRun narrow.rules line 1 space first.2.1 first.2.2
  have hruns : (drawRuns narrow.rules line 0 pen sixPixels [word, space]).runs =
      [first.1] ++ second.1 :: [] := rfl
  -- The word does not fit and ends its line.
  have hfirst : first.1.steps = [.forced word.text pen (.ofPixels 24) (.ofPixels 20),
        .lineBreak [] (line.below pen).y] ∧
      first.2.1 = line.below pen ∧ first.2.2.width = sixPixels.width := by
    simp only [first, drawRun_eq]
    rw [wrap_forced (by decide) (grow_of_not_fits (by decide)) rfl rfl,
      show skipSpaces (cutUnit word.text).2 = [] from rfl, wrap_nil]
    exact ⟨rfl, rfl, rfl⟩
  obtain ⟨hsteps, hpen, hwidth⟩ := hfirst
  -- The next line has room for all of the other run.
  have hsecond : second.1.steps = [.segment [' ', 'x'] (line.below pen)] := by
    obtain ⟨r, hw, -⟩ := wrap_simulates simulation_width line space.text (line.below pen)
      (s := sixPixels) (u := styled narrow.rules space first.2.2) hwidth
    have he : second.1.steps = (wrap line space.text (line.below pen) sixPixels).steps := by
      simp only [second, drawRun_eq]
      rw [hpen, hw]
      rfl
    rw [he, wrap_segment (by decide) ((grow_of_fits (by decide)).trans
      ((grow_of_fits (by decide)).trans (grow_of_not_fits (by decide)))) (by decide)]
    exact congrArg (_ :: Wrapped.steps ·) wrap_nil
  have hbreak : endsInBreak ([first.1].flatMap DrawnRun.steps ++ []) := by
    rw [List.flatMap_singleton, hsteps]
    rfl
  exact ⟨_, hd, second.1, .intro hruns hsecond rfl hbreak, by decide⟩

end Draw

end Lettering
