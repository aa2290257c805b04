import Lettering.Draw.Report
import Lettering.Proofs.Markup.Runs
import Lettering.Proofs.Wrap.Kept
import Mathlib.Data.List.Forall2

/-!
# The calls that draw a text

The surface gets one block of calls for every run of a text, in the order of the
runs (`DrawsRun`): the surface is saved, the style of the run applied, its text
drawn in pieces, and the surface restored. The pieces of a run are its text but
for some spaces, and the runs are the gaps between the tags, so that drawing
keeps every other character outside the tags, whatever the surface answers.

* `drawRun_traced`, `drawRuns_traced`: the blocks of one run and of all of them.
* `drawText_keeps`: the blocks of a text, and what they draw of it.
-/

namespace Lettering

namespace Draw

open Wrap Markup

variable {σ : Type} [Surface σ]

/-- The calls draw a run: between saving and restoring the surface, the style of
    the run is applied, and pieces of its text are drawn, which keep it. -/
inductive DrawsRun (rules : RuleTable) (run : Markup.Run) : List SurfaceCall → Prop
  | intro {fills : List SurfaceCall} : (∀ call ∈ fills, ∃ t x y, call = .fillText t x y) →
    Keeps run.text (drawnTexts fills) →
      DrawsRun rules run
        ([.save] ++ Traced.styleCalls (rules.resolve run.context).split ++ fills ++ [.restore])

theorem exists_fillText_of_mem_fills {steps : List Step} {call : SurfaceCall}
    (h : call ∈ fills steps) : ∃ t x y, call = .fillText t x y := by
  obtain ⟨step, -, h⟩ := List.mem_filterMap.mp h
  cases step with
  | segment text pen => exact ⟨text, pen.x, pen.y, (Option.some.inj h).symm⟩
  | forced text pen => exact ⟨text, pen.x, pen.y, (Option.some.inj h).symm⟩
  | lineBreak => cases h

/-- The surface as the text of a run finds it. -/
def styled (rules : RuleTable) (run : Markup.Run) (s : σ) : σ :=
  Surface.applyStyle (rules.resolve run.context).split (Surface.save s)

theorem styled_traced (rules : RuleTable) (run : Markup.Run) (s : σ) (calls : List SurfaceCall) :
    styled rules run (⟨s, calls⟩ : Traced σ) =
      ⟨styled rules run s,
        calls ++ [.save] ++ Traced.styleCalls (rules.resolve run.context).split⟩ := by
  unfold styled
  exact Traced.applyStyle_eq _ (Surface.save s) (calls ++ [.save])

theorem drawRun_eq (rules : RuleTable) (line : Line) (index : Nat) (run : Markup.Run) (pen : Pen)
    (s : σ) :
    drawRun rules line index run pen s =
      (⟨index, run, (rules.resolve run.context).split.font.isSome, pen,
          (wrap line run.text pen (styled rules run s)).steps⟩,
        (wrap line run.text pen (styled rules run s)).pen,
        Surface.restore (wrap line run.text pen (styled rules run s)).surface) := rfl

theorem map_run_drawRuns (rules : RuleTable) (line : Line) (index : Nat) (pen : Pen) (s : σ)
    (runs : List Markup.Run) :
    (drawRuns rules line index pen s runs).runs.map DrawnRun.run = runs := by
  induction runs generalizing index pen s with
  | nil => rfl
  | cons run later ih => exact congrArg (run :: ·) (ih _ _ _)

/-- The calls of a run: its style and what its steps draw, between saving and
    restoring the surface. -/
def DrawnRun.calls (rules : RuleTable) (drawn : DrawnRun) : List SurfaceCall :=
  [.save] ++ Traced.styleCalls (rules.resolve drawn.run.context).split ++ fills drawn.steps ++
    [.restore]

theorem drawRun_traced (rules : RuleTable) (line : Line) (index : Nat) (run : Markup.Run)
    (pen : Pen) (s : σ) (calls : List SurfaceCall) :
    drawRun rules line index run pen (⟨s, calls⟩ : Traced σ) =
      ((drawRun rules line index run pen s).1, (drawRun rules line index run pen s).2.1,
        ⟨(drawRun rules line index run pen s).2.2,
          calls ++ (drawRun rules line index run pen s).1.calls rules⟩) := by
  rw [drawRun_eq, drawRun_eq, styled_traced, wrap_traced, DrawnRun.calls, ← List.append_assoc,
    ← List.append_assoc, ← List.append_assoc]
  rfl

/-- Runs are drawn by their calls, one after the other. -/
theorem drawRuns_traced (rules : RuleTable) (line : Line) (index : Nat) (pen : Pen) (s : σ)
    (calls : List SurfaceCall) (runs : List Markup.Run) :
    drawRuns rules line index pen (⟨s, calls⟩ : Traced σ) runs =
      ⟨(drawRuns rules line index pen s runs).runs, (drawRuns rules line index pen s runs).pen,
        ⟨(drawRuns rules line index pen s runs).surface,
          calls ++
            (drawRuns rules line index pen s runs).runs.flatMap (DrawnRun.calls rules)⟩⟩ := by
  induction runs generalizing index pen s calls with
  | nil => simp [drawRuns]
  | cons run later ih =>
    rw [drawRuns, drawRun_traced]
    dsimp only
    rw [ih]
    simp [drawRuns]

/-- The calls of a run draw it. -/
theorem drawsRun_calls (rules : RuleTable) (line : Line) (index : Nat) (run : Markup.Run)
    (pen : Pen) (s : σ) : DrawsRun rules run ((drawRun rules line index run pen s).1.calls rules) :=
  .intro (fun _ => exists_fillText_of_mem_fills) (wrap_keeps line run.text pen (styled rules run s))

theorem forall₂_drawsRun_calls (rules : RuleTable) (line : Line) (index : Nat) (pen : Pen) (s : σ)
    (runs : List Markup.Run) :
    List.Forall₂ (DrawsRun rules) runs
      ((drawRuns rules line index pen s runs).runs.map (DrawnRun.calls rules)) := by
  induction runs generalizing index pen s with
  | nil => exact .nil
  | cons run later ih => exact .cons (drawsRun_calls rules line index run pen s) (ih _ _ _)

/-! ## What is drawn -/

theorem DrawsRun.keeps {rules : RuleTable} {run : Markup.Run} {block : List SurfaceCall}
    (h : DrawsRun rules run block) : Keeps run.text (drawnTexts block) := by
  cases h with
  | @intro fills _ hk =>
    rw [drawnTexts_append, drawnTexts_append, drawnTexts_append, Traced.drawnTexts_styleCalls]
    show Keeps run.text (drawnTexts fills ++ [])
    rw [List.append_nil]
    exact hk

/-- The blocks of runs draw their texts, spaces apart. -/
theorem filter_drawnTexts {rules : RuleTable} {runs : List Markup.Run}
    {blocks : List (List SurfaceCall)} (h : List.Forall₂ (DrawsRun rules) runs blocks) :
    (drawnTexts blocks.flatten).flatten.filter (!isSpace ·) =
      (runs.map Markup.Run.text).flatten.filter (!isSpace ·) := by
  induction h with
  | nil => rfl
  | cons hblock _ ih =>
    rw [List.flatten_cons, drawnTexts_append, List.flatten_append, List.filter_append, ih,
      hblock.keeps.dropped.filter_eq, List.map_cons, List.flatten_cons, List.filter_append]

variable {options : Options} {text : Text} {dims : Length × Length} {content : Content}

theorem plan_eq_ok (ho : options.validate = .ok dims) (hc : parse text = .ok content) (x : Single) :
    plan options text x = .ok (⟨.ofSingle x, dims.1, dims.2⟩, content.runs []) := by
  rw [plan, ho, hc]
  rfl

/-- A text in order is drawn run by run. -/
theorem draw_of_plan_eq_ok {x : Single} {line : Line} {runs : List Markup.Run}
    (h : plan options text x = .ok (line, runs)) (y : Single) (s : σ) :
    draw options text x y s =
      .ok (drawRuns options.rules line 0 ⟨line.baseX, .ofSingle y⟩ s runs) := by
  rw [draw, h]
  rfl

theorem draw_of_plan_eq_error {x : Single} {e : DrawError} (h : plan options text x = .error e)
    (y : Single) (s : σ) : draw options text x y s = .error e := by
  rw [draw, h]
  rfl

/-- A text that was drawn was in order, and so were the options. -/
theorem exists_of_result_eq_ok {x y : Single} {s : σ} {log : Option Log} {pen : Pen}
    (h : (drawText options text x y s log).result = .ok pen) :
    ∃ dims content, options.validate = .ok dims ∧ parse text = .ok content ∧
      ∃ D : Drawing σ, draw options text x y s = .ok D ∧
        drawText options text x y s log = ⟨.ok pen, D.surface, log.map D.writeTo, D.trace⟩ ∧
        D.pen = pen := by
  unfold drawText at h ⊢
  cases hv : options.validate with
  | error e =>
    have hp : plan options text x = .error (.ofOption e) := by rw [plan, hv]; rfl
    rw [draw_of_plan_eq_error hp] at h
    cases h
  | ok dims =>
    cases hc : parse text with
    | error e =>
      have hp : plan options text x = .error (.nesting e) := by rw [plan, hv, hc]; rfl
      rw [draw_of_plan_eq_error hp] at h
      cases h
    | ok content =>
      rw [draw_of_plan_eq_ok (plan_eq_ok hv hc x)] at h ⊢
      cases h
      exact ⟨dims, content, rfl, rfl, _, rfl, rfl, rfl⟩

/-- A text is drawn by the blocks of its runs, if it and the options are in
    order. -/
theorem draw_calls (ho : options.validate = .ok dims) (hc : parse text = .ok content) (x y : Single)
    (s : σ) (calls : List SurfaceCall) :
    ∃ (d : Drawing σ) (blocks : List (List SurfaceCall)),
      List.Forall₂ (DrawsRun options.rules) (content.runs []) blocks ∧
      draw options text x y s = .ok d ∧
      draw options text x y (⟨s, calls⟩ : Traced σ) =
        .ok ⟨d.runs, d.pen, ⟨d.surface, calls ++ blocks.flatten⟩⟩ := by
  let line : Line := ⟨.ofSingle x, dims.1, dims.2⟩
  let pen : Pen := ⟨line.baseX, .ofSingle y⟩
  have hp := plan_eq_ok ho hc x
  refine ⟨drawRuns options.rules line 0 pen s (content.runs []), _,
    forall₂_drawsRun_calls options.rules line 0 pen s (content.runs []),
    draw_of_plan_eq_ok hp y s, ?_⟩
  rw [draw_of_plan_eq_ok hp, drawRuns_traced, List.flatMap_def]

/-- A text in order, drawn with options in order, is drawn by one block of calls
    for each of its runs. The runs are the gaps between the tags of the text that
    are not empty, and all characters outside the tags that are not spaces are
    drawn, once and in order. -/
theorem drawText_keeps (ho : options.validate = .ok dims) (hc : parse text = .ok content)
    (x y : Single) (s : σ) (calls : List SurfaceCall) (log : Option Log) :
    ∃ (pen : Pen) (blocks : List (List SurfaceCall)) (pieces : List (Text × Text)) (last : Text),
      (drawText options text x y s log).result = .ok pen ∧
      (drawText options text x y (⟨s, calls⟩ : Traced σ) log).result = .ok pen ∧
      (drawText options text x y (⟨s, calls⟩ : Traced σ) log).surface =
        ⟨(drawText options text x y s log).surface, calls ++ blocks.flatten⟩ ∧
      List.Forall₂ (DrawsRun options.rules) (content.runs []) blocks ∧
      TagSplit text pieces last ∧
      (content.runs []).map Markup.Run.text = gapsOf pieces last ∧
      (drawnTexts blocks.flatten).flatten.filter (!isSpace ·) =
        (pieces.flatMap (·.1) ++ last).filter (!isSpace ·) := by
  obtain ⟨pieces, last, hsplit⟩ := exists_tagSplit text
  have hruns := runs_of_parse hsplit hc
  obtain ⟨d, blocks, hblocks, hd, hd'⟩ := draw_calls ho hc x y s calls
  refine ⟨d.pen, blocks, pieces, last, ?_, ?_, ?_, hblocks, hsplit, hruns, ?_⟩
  · rw [drawText, hd]
  · rw [drawText, hd']
  · rw [drawText, drawText, hd, hd']
  · rw [filter_drawnTexts hblocks, hruns, flatten_gapsOf]

/-- Case: two runs on lines of one pixel, where every piece is too wide. -/
theorem drawText_keeps_narrow :
    let options : Options := { width? := some .one, lineHeight? := some .one }
    let text : Text := ['a', ' ', '<', 'b', '>', 'b', '-', 'c', '<', '/', 'b', '>']
    let r : Recorder := { width := fun t => .ofPixels (t.length + 1) }
    options.validate = .ok (.ofSingle .one, .ofSingle .one) ∧
      parse text = .ok (.text ['a', ' '] (.element "b" (.text ['b', '-', 'c'] .nil) .nil)) ∧
      ∃ blocks : List (List SurfaceCall),
        (drawText options text .one .one (⟨r, []⟩ : Traced Recorder) none).surface.calls =
          blocks.flatten ∧
        List.Forall₂ (DrawsRun options.rules) [⟨[], ['a', ' ']⟩, ⟨["b"], ['b', '-', 'c']⟩] blocks ∧
        (drawnTexts blocks.flatten).flatten.filter (!isSpace ·) = ['a', 'b', '-', 'c'] := by
  intro options text r
  have ho : options.validate = .ok (.ofSingle .one, .ofSingle .one) := rfl
  have hc : parse text =
      .ok (.text ['a', ' '] (.element "b" (.text ['b', '-', 'c'] .nil) .nil)) := by
    cbv
  obtain ⟨pen, blocks, pieces, last, -, -, hd, hblocks, -, -, -⟩ :=
    drawText_keeps ho hc .one .one r [] none
  exact ⟨ho, hc, blocks, congrArg Traced.calls hd, hblocks, filter_drawnTexts hblocks⟩

end Draw

end Lettering
