import Lettering.Proofs.Draw.LineStarts
import Lettering.Proofs.Draw.Performance
import Lettering.Proofs.Log.Summaries
import Lettering.Proofs.Markup.Printing
import Lettering.Proofs.Text.Bytes
import Mathlib.Algebra.Order.BigOperators.Group.List
import Mathlib.Algebra.Order.Group.Nat

/-!
# Tallies

The summary that ends the drawing of a text is counted on the way, apart from the
records and from the calls to the surface. It agrees with both: what it counts are
the records written for the text and the texts drawn. As the counters are 64-bit
words, this rests on there being less to count than they hold, which the size of
the text in memory sees to.

* `length_fills_wrap_le`, `countP_isLineBreak_wrap_le`: how often wrapping draws and
  breaks the line.
* `counters_logAfter`: between texts there are no counts waiting, whatever became of
  the texts before.
* `summary_agrees`: the summary of any text in a sequence that shares a log.
-/

namespace Lettering

namespace Wrap

variable {σ : Type} [Surface σ]

/-- Every text drawn takes something off the text. -/
theorem countP_draws_wrap_le (line : Line) (text : Text) (pen : Pen) (s : σ) :
    (wrap line text pen s).steps.countP Step.draws ≤ text.length := by
  fun_induction wrap line text pen s with
  | case1 => exact Nat.le_refl 0
  | case2 text pen s ht fit hf next hx s' later ih =>
    have h₁ := length_skipSpaces_le later
    have h₂ : later.length < text.length := length_cutUnit_lt ht
    simp [Wrapped.precededBy, Step.draws, List.countP_cons]
    omega
  | case3 text pen s ht fit hf next hx ih => exact ih.trans (length_skipSpaces_le text)
  | case4 text pen s ht fit hf s' ih =>
    have h : fit.rest.length < text.length := length_rest_lt hf
    simp [Wrapped.precededBy, Step.draws, List.countP_cons]
    omega

/-- There is a text drawn for every line break, but perhaps for the first one. -/
theorem countP_isLineBreak_wrap_le (line : Line) (text : Text) (pen : Pen) (s : σ) :
    (wrap line text pen s).steps.countP Step.isLineBreak ≤
      (wrap line text pen s).steps.countP Step.draws + if pen.x = line.baseX then 0 else 1 := by
  fun_induction wrap line text pen s with
  | case1 => exact Nat.zero_le _
  | case2 text pen s ht fit hf next hx s' later ih =>
    rw [if_pos rfl] at ih
    simp [Wrapped.precededBy, Step.draws, Step.isLineBreak, List.countP_cons]
    omega
  | case3 text pen s ht fit hf next hx ih =>
    rw [if_pos rfl] at ih
    simp [Wrapped.precededBy, Step.draws, Step.isLineBreak, List.countP_cons, hx]
    omega
  | case4 text pen s ht fit hf s' ih =>
    have h : (if pen.x + fit.width = line.baseX then 0 else 1) ≤ 1 := by split <;> omega
    simp [Wrapped.precededBy, Step.draws, Step.isLineBreak, List.countP_cons]
    dsimp only at ih
    omega

end Wrap

namespace Draw

open Wrap Markup Log

section Sizes

variable {σ : Type} [Surface σ] {line : Line} {runs : List DrawnRun}

theorem countP_draws_le (hw : ∀ drawn ∈ runs, drawn.IsWrapped σ line) :
    (runs.flatMap DrawnRun.steps).countP Step.draws ≤
      (runs.flatMap fun drawn => drawn.run.text).length := by
  induction runs with
  | nil => exact Nat.le_refl 0
  | cons drawn later ih =>
    rw [List.forall_mem_cons] at hw
    obtain ⟨⟨s, hd⟩, hw⟩ := hw
    have h := countP_draws_wrap_le line drawn.run.text drawn.start s
    rw [← hd] at h
    rw [List.flatMap_cons, List.flatMap_cons, List.countP_append, List.length_append]
    exact Nat.add_le_add h (ih hw)

theorem countP_isLineBreak_le (hw : ∀ drawn ∈ runs, drawn.IsWrapped σ line) :
    (runs.flatMap DrawnRun.steps).countP Step.isLineBreak ≤
      (runs.flatMap DrawnRun.steps).countP Step.draws + runs.length := by
  induction runs with
  | nil => exact Nat.le_refl 0
  | cons drawn later ih =>
    rw [List.forall_mem_cons] at hw
    obtain ⟨⟨s, hd⟩, hw⟩ := hw
    have h := countP_isLineBreak_wrap_le line drawn.run.text drawn.start s
    have hone : (if drawn.start.x = line.baseX then 0 else 1) ≤ 1 := by split <;> omega
    rw [← hd] at h
    rw [List.flatMap_cons, List.countP_append, List.countP_append, List.length_cons]
    have := ih hw
    omega

theorem length_le_bytes (t : Text) : t.length ≤ t.bytes := by
  induction t with
  | nil => exact Nat.le_refl 0
  | cons c t ih =>
    have := c.utf8Size_pos
    rw [List.length_cons, Text.bytes_cons]
    omega

variable {text : Text} {content : Content}

/-- The runs of a text have no more characters than the text. -/
theorem length_runs_le (hc : parse text = .ok content) :
    ((content.runs []).flatMap Run.text).length ≤ text.length := by
  obtain ⟨pieces, last, hs⟩ := exists_tagSplit text
  rw [List.flatMap_def, runs_of_parse hs hc, flatten_gapsOf, hs.eq_append]
  simp only [List.length_append, List.length_flatMap]
  exact Nat.add_le_add_right (List.sum_le_sum fun p _ => Nat.le_add_right _ _) _

/-- Every run has a character. -/
theorem length_le_length_flatMap (hc : parse text = .ok content) :
    (content.runs []).length ≤ ((content.runs []).flatMap Run.text).length := by
  obtain ⟨pieces, last, hs⟩ := exists_tagSplit text
  have h (run : Run) (hr : run ∈ content.runs []) : run.text ≠ [] := by
    have ht : run.text ∈ (content.runs []).map Run.text := List.mem_map.mpr ⟨run, hr, rfl⟩
    rw [runs_of_parse hs hc] at ht
    simpa using List.of_mem_filter ht
  rw [List.length_flatMap, ← List.length_map (fun run => run.text.length)]
  refine List.length_le_sum_of_one_le _ fun n hn => ?_
  obtain ⟨run, hr, rfl⟩ := List.mem_map.mp hn
  exact List.length_pos_iff.mpr (h run hr)

end Sizes

/-! ## What is counted -/

/-- Whether a record is an event of a kind. -/
def isEvent (kind : String) : Record → Bool
  | .event k _ => k == kind
  | _ => false

/-- The records of steps are counted with the steps that they are written for. -/
theorem countP_stepRecords {kind : String} {p : Step → Bool}
    (h : ∀ step, p step = ((stepRecord? step).map (isEvent kind)).getD false) (steps : List Step) :
    (stepRecords steps).countP (isEvent kind) = steps.countP p := by
  rw [stepRecords, List.countP_filterMap]
  exact congrArg (List.countP · steps) (funext fun step => (h step).symm)

/-- There is one record of a kind for each step that one is written for. -/
theorem countP_runRecords {kind : String} {p : Step → Bool} (hk : (kind == "drawtext.run") = false)
    (h : ∀ step, p step = ((stepRecord? step).map (isEvent kind)).getD false)
    (runs : List DrawnRun) :
    (runs.flatMap runRecords).countP (isEvent kind) = (runs.flatMap DrawnRun.steps).countP p := by
  induction runs with
  | nil => rfl
  | cons drawn later ih =>
    rw [List.flatMap_cons, List.flatMap_cons, List.countP_append, List.countP_append, ih,
      runRecords, List.countP_cons, countP_stepRecords h, runRecord, isEvent, Bool.beq_comm, hk]
    rfl

theorem countP_forced (runs : List DrawnRun) :
    (runs.flatMap runRecords).countP (isEvent "drawtext.forced_segment") =
      (runs.flatMap DrawnRun.steps).countP Step.isForced :=
  countP_runRecords (by decide) (by rintro ⟨⟩ <;> rfl) runs

theorem countP_lineBreak (runs : List DrawnRun) :
    (runs.flatMap runRecords).countP (isEvent "drawtext.line_break") =
      (runs.flatMap DrawnRun.steps).countP Step.isLineBreak :=
  countP_runRecords (by decide) (by rintro ⟨⟩ <;> rfl) runs

/-- There is one record for each run. -/
theorem countP_run (runs : List DrawnRun) :
    (runs.flatMap runRecords).countP (isEvent "drawtext.run") = runs.length := by
  induction runs with
  | nil => rfl
  | cons drawn later ih =>
    have hsteps : (stepRecords drawn.steps).countP (isEvent "drawtext.run") = 0 := by
      rw [countP_stepRecords (p := fun _ => false) (by rintro ⟨⟩ <;> rfl)]
      exact congrFun List.countP_false _
    rw [List.flatMap_cons, List.countP_append, ih, runRecords, List.countP_cons, hsteps,
      List.length_cons, Nat.add_comm]
    rfl

/-- Counters that start at nothing are listed with the counts. -/
theorem listed_tally {log : Log} (h : log.counters = ∅) {runs : Nat} {totals : Stats}
    (hr : runs ≤ maxCount) (hs : totals.segments ≤ maxCount) (hf : totals.forced ≤ maxCount)
    (hl : totals.lineBreaks ≤ maxCount) :
    (tally runs totals log).counters.listed =
      [("forced_segments", totals.forced), ("line_breaks", totals.lineBreaks), ("runs", runs),
        ("segments", totals.segments)] := by
  have hentries : (tally runs totals log).counters.entries =
      [("runs", min runs maxCount), ("segments", min totals.segments maxCount)] ++
        [("forced_segments", min totals.forced maxCount),
          ("line_breaks", min totals.lineBreaks maxCount)] := by
    have hnone : log.counters.entries = [] := h ▸ rfl
    have hruns := Counters.entries_add hnone (show "runs" ∉ _ by simp) runs
    have hsegments := Counters.entries_add hruns (show "segments" ∉ _ by simp) totals.segments
    have hforced :=
      Counters.entries_add hsegments (show "forced_segments" ∉ _ by simp) totals.forced
    exact Counters.entries_add hforced (show "line_breaks" ∉ _ by simp) totals.lineBreaks
  rw [Nat.min_eq_left hr, Nat.min_eq_left hs, Nat.min_eq_left hf, Nat.min_eq_left hl] at hentries
  refine Counters.listed_eq_of_perm ?_ ?_
  · rw [hentries]
    exact @List.perm_append_comm _ [("forced_segments", totals.forced), _] [("runs", runs), _]
  · have hnames : ["forced_segments", "line_breaks", "runs", "segments"].Pairwise (· < ·) := by
      decide
    exact List.pairwise_map.mp hnames

theorem length_drawnTexts_fills (steps : List Step) :
    (drawnTexts (fills steps)).length = steps.countP Step.draws := by
  rw [drawnTexts, fills, List.filterMap_filterMap, List.length_filterMap_eq_countP]
  exact congrArg (List.countP · steps) (funext fun step => by cases step <;> rfl)

/-- As many texts are drawn as there are steps that draw. -/
theorem length_drawnTexts (rules : RuleTable) (runs : List DrawnRun) :
    (drawnTexts (runs.flatMap (DrawnRun.calls rules))).length =
      (runs.flatMap DrawnRun.steps).countP Step.draws := by
  induction runs with
  | nil => rfl
  | cons drawn later ih =>
    have hcalls : (drawnTexts (drawn.calls rules)).length = drawn.steps.countP Step.draws := by
      rw [DrawnRun.calls, drawnTexts_append, drawnTexts_append, drawnTexts_append,
        Traced.drawnTexts_styleCalls, ← length_drawnTexts_fills]
      exact congrArg List.length (List.append_nil _)
    rw [List.flatMap_cons, List.flatMap_cons, drawnTexts_append, List.length_append,
      List.countP_append, ih, hcalls]

/-! ## Sequences that share a log -/

/-- A text to draw, with the surface it is drawn on. -/
structure Job where
  Target : Type
  [surface : Surface Target]
  target : Target
  options : Options
  text : Text
  x : Single
  y : Single

attribute [instance] Job.surface

namespace Job

/-- Draws the text and reports to the log. -/
def draw (job : Job) (log : Log) : Outcome job.Target :=
  drawText job.options job.text job.x job.y job.target (some log)

/-- The log after the text, drawn or not. -/
def logAfter (job : Job) (log : Log) : Log := (job.draw log).log.getD log

end Job

/-- The log after texts drawn one after the other, some of them perhaps in vain. -/
def logAfter (jobs : List Job) (log : Log) : Log := jobs.foldl (fun log job => job.logAfter log) log

/-- A text leaves no counts waiting. -/
theorem Job.counters_logAfter (job : Job) {log : Log} (h : log.counters = ∅) :
    (job.logAfter log).counters = ∅ := by
  unfold Job.logAfter Job.draw drawText
  split
  · exact h
  · rfl

theorem counters_logAfter (jobs : List Job) {log : Log} (h : log.counters = ∅) :
    (logAfter jobs log).counters = ∅ := by
  induction jobs generalizing log with
  | nil => exact h
  | cons job later ih => exact ih (job.counters_logAfter h)

/-- Events agree with the summary at their end, which counts the records before it by
    their kinds; segments and forced units make up the texts drawn. With the pen that
    goes from `start` to `pen` all calls and records accord. -/
structure Agrees (line : Line) (start pen : Pen) (es : List Event) : Prop where
  summary : ∃ (records : List Record) (segments : Nat),
    es.filterMap Event.record? = records ++ [.summary "draw_text"
      [("forced_segments", records.countP (isEvent "drawtext.forced_segment")),
        ("line_breaks", records.countP (isEvent "drawtext.line_break")),
        ("runs", records.countP (isEvent "drawtext.run")), ("segments", segments)]] ∧
    segments + records.countP (isEvent "drawtext.forced_segment") =
      (drawnTexts (es.filterMap Event.call?)).length
  accords : ∃ answers, Accords line ⟨[], start⟩ es ⟨answers, pen⟩

variable {σ : Type} [Surface σ] {line : Line} {text : Text} {content : Content} {D : Drawing σ}

/-- What a drawing counts fits the counters. -/
theorem counts_le (hbytes : text.bytes < 2 ^ 63) (hc : parse text = .ok content)
    (hw : ∀ drawn ∈ D.runs, drawn.IsWrapped σ line)
    (hr : D.runs.map DrawnRun.run = content.runs []) :
    D.runs.length ≤ maxCount ∧ D.steps.countP Step.draws ≤ maxCount ∧
      D.steps.countP Step.isLineBreak ≤ maxCount := by
  have hlength : D.runs.length = (content.runs []).length := by rw [← hr, List.length_map]
  have hflat : D.runs.flatMap (fun drawn => drawn.run.text) =
      (content.runs []).flatMap Run.text := by
    rw [← hr, List.flatMap_map]
  have h₁ := length_le_length_flatMap hc
  have h₂ := length_runs_le hc
  have h₃ := length_le_bytes text
  have h₄ : D.steps.countP Step.draws ≤ _ := countP_draws_le hw
  have h₅ : D.steps.countP Step.isLineBreak ≤ D.steps.countP Step.draws + _ :=
    countP_isLineBreak_le hw
  rw [hflat] at h₄
  rw [maxCount]
  omega

/-- Whatever was drawn with the log before: the summary of a text that is drawn counts
    the records written for it and the texts drawn, as they are seen when the text is
    performed, and every record has the place of the pen. -/
theorem summary_agrees (earlier : List Job) {log : Log} (hlog : log.counters = ∅) (job : Job)
    (hbytes : job.text.bytes < 2 ^ 63) {pen : Pen}
    (hok : (job.draw (logAfter earlier log)).result = .ok pen) :
    ∃ (dims : Length × Length) (s : job.Target) (after : Log) (trace : Text) (es : List Event),
      job.options.validate = .ok dims ∧
      job.draw (logAfter earlier log) = ⟨.ok pen, s, some after, trace⟩ ∧
      perform job.options job.text job.x job.y ⟨job.target, some (logAfter earlier log), [], []⟩ =
        (.ok pen, ⟨s, some after, trace, es⟩) ∧
      after.records = (logAfter earlier log).records ++ es.filterMap Event.record? ∧
      after.counters = ∅ ∧
      Agrees ⟨.ofSingle job.x, dims.1, dims.2⟩ ⟨.ofSingle job.x, .ofSingle job.y⟩ pen es := by
  have hbefore := counters_logAfter earlier hlog
  generalize logAfter earlier log = before at hok hbefore ⊢
  obtain ⟨dims, content, hv, hc, D, hd, hout, rfl⟩ := exists_of_result_eq_ok hok
  obtain ⟨es, ms, hp, hcalls, hrecords⟩ :=
    perform_of_draw_eq_ok hv hc job.x job.y ⟨job.target, some before, [], []⟩ hd
  obtain ⟨hrecords, haccords⟩ := hrecords before rfl
  refine ⟨dims, D.surface, D.writeTo before, D.trace, es, hv, hout, hp, hrecords, rfl, ?_,
    ms, haccords⟩
  -- The counters are still exact: what is counted fits them.
  have hsize : D.runs.length ≤ maxCount ∧ D.steps.countP Step.draws ≤ maxCount ∧
      D.steps.countP Step.isLineBreak ≤ maxCount := by
    obtain rfl :=
      Except.ok.inj ((draw_of_plan_eq_ok (plan_eq_ok hv hc job.x) job.y _).symm.trans hd)
    exact counts_le hbytes hc (isWrapped_of_mem_drawRuns _ _ _ _ _ _) (map_run_drawRuns _ _ _ _ _ _)
  have hdraws := countP_draws D.steps
  have hcounters : (tally D.runs.length (.ofSteps D.steps)
      (before.write (D.runs.flatMap runRecords))).counters.listed = _ :=
    listed_tally hbefore hsize.1 (show D.steps.countP Step.isSegment ≤ _ by omega)
      (show D.steps.countP Step.isForced ≤ _ by omega) hsize.2.2
  rw [writeTo_eq, records_summarize, records_tally, records_write, List.append_assoc,
    hcounters] at hrecords
  refine ⟨D.runs.flatMap runRecords, D.steps.countP Step.isSegment, ?_, ?_⟩
  · rw [← List.append_cancel_left hrecords, countP_run, countP_forced, countP_lineBreak]
    rfl
  · rw [hcalls, length_drawnTexts, countP_forced]
    exact hdraws.symm

/-- Case: two runs on lines of one pixel, where every piece is too wide, drawn behind
    the same text and one whose element is left open. -/
theorem summary_agrees_narrow :
    let options : Options := { width? := some .one, lineHeight? := some .one }
    let target : Recorder := { width := fun t => .ofPixels (t.length + 1) }
    let job : Job :=
      ⟨Recorder, target, options, ['a', ' ', '<', 'b', '>', 'b', '-', 'c', '<', '/', 'b', '>'],
        .one, .one⟩
    let unclosed : Job := ⟨Recorder, target, options, ['a', '<', 'b', '>'], .one, .one⟩
    job.text.bytes < 2 ^ 63 ∧
      ∃ (pen : Pen) (es : List Event),
        (job.draw (logAfter [job, unclosed] {})).result = .ok pen ∧
        Agrees ⟨.ofSingle .one, .ofSingle .one, .ofSingle .one⟩ ⟨.ofSingle .one, .ofSingle .one⟩ pen
          es := by
  intro options target job unclosed
  have ho : options.validate = .ok (.ofSingle .one, .ofSingle .one) := rfl
  have hc : parse job.text =
      .ok (.text ['a', ' '] (.element "b" (.text ['b', '-', 'c'] .nil) .nil)) := by
    cbv
  obtain ⟨pen, hok⟩ : ∃ pen, (job.draw (logAfter [job, unclosed] {})).result = .ok pen := by
    unfold Job.draw drawText
    rw [draw_of_plan_eq_ok (plan_eq_ok ho hc .one) .one target]
    exact ⟨_, rfl⟩
  obtain ⟨dims, s, after, trace, es, hv, -, -, -, -, h⟩ :=
    summary_agrees [job, unclosed] (show Log.counters {} = ∅ from rfl) job (by decide) hok
  cases ho.symm.trans hv
  exact ⟨by decide, pen, es, hok, h⟩

end Draw

end Lettering
