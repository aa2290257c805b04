import Lettering.Proofs.Draw.Calls
import Lettering.Proofs.Wrap.Simulation

/-!
# Drawing, act by act

Drawing tells what it did at its end: the steps of every run, with records and
counts made from them. Here it is performed one act after the other. Every act
works on a desk, which holds the surface, the log and the trace, and is noted
there as an event, so that whatever happens is seen, on the surface and in the
log, in the order in which it happens. Counts are kept on the way, for each run
and in total, and records are written on the way.

* `Accords`: records and calls agree with one pen that moves through them.
* `comesTo_wrap`, `performRuns_performs`: what a run and what all runs do to a
  desk, and that they accord.
* `perform_of_draw_eq_ok`, `exists_perform_eq`: performing a text comes to what
  drawing tells of it, act by act.
-/

namespace Lettering

namespace Draw

open Wrap Log

/-- What happens while a text is drawn. -/
inductive Event
  /-- A call that asks the surface for nothing. -/
  | call (call : SurfaceCall)
  /-- A text measured, with the answer. -/
  | measured (text : Text) (width : Length)
  /-- A record written to the log. -/
  | record (record : Record)
  /-- An amount added to a counter of the log. -/
  | count (key : String) (amount : Nat)
  /-- A line written to the trace. -/
  | trace (line : Text)
deriving DecidableEq, Repr

namespace Event

/-- The call that an event is, measurements apart. -/
def call? : Event → Option SurfaceCall
  | call c => some c
  | _ => none

/-- The record that an event writes. -/
def record? : Event → Option Record
  | record r => some r
  | _ => none

/-- A measurement as an event. -/
def ofAnswer (m : Text × Length) : Event := measured m.1 m.2

end Event

/-- What drawing works on: a surface, a log if there is one, and a trace, with the
    events so far. -/
structure Desk (σ : Type) where
  surface : σ
  log : Option Log
  trace : Text
  events : List Event

namespace Desk

variable {σ : Type}

/-- Acts on the log, if there is one. -/
def onLog (act : Log → Log) (event : Log → Event) (d : Desk σ) : Desk σ :=
  match d.log with
  | none => d
  | some log => { d with log := some (act log), events := d.events ++ [event log] }

/-- Writes a record. -/
def tell (r : Record) (d : Desk σ) : Desk σ := d.onLog (·.write [r]) fun _ => .record r

/-- Adds an amount to a counter. -/
def count (key : String) (amount : Nat) (d : Desk σ) : Desk σ :=
  d.onLog (·.increment key amount) fun _ => .count key amount

/-- Writes a summary of the counters and starts them anew. -/
def summarize (context : String) (d : Desk σ) : Desk σ :=
  d.onLog (·.summarize context) fun log => .record (.summary context log.counters.listed)

/-- Writes a line to the trace. -/
def print (line : Text) (d : Desk σ) : Desk σ :=
  { d with trace := d.trace ++ line, events := d.events ++ [.trace line] }

/-- Reports a step: to the trace first, then to the log. -/
def report (step : Step) (d : Desk σ) : Desk σ :=
  let d := match traceLine? step with
    | some line => d.print line
    | none => d
  match stepRecord? step with
  | some r => d.tell r
  | none => d

@[simp] theorem surface_onLog (act : Log → Log) (event : Log → Event) (d : Desk σ) :
    (d.onLog act event).surface = d.surface := by
  unfold onLog
  split <;> rfl

@[simp] theorem surface_report (step : Step) (d : Desk σ) :
    (d.report step).surface = d.surface := by
  cases step with
  | segment => rfl
  | forced => exact surface_onLog _ _ _
  | lineBreak => exact surface_onLog _ _ _

/-- The desk with the surface in another state and further events noted. -/
def after (d : Desk σ) (s : σ) (es : List Event) : Desk σ :=
  { d with surface := s, events := d.events ++ es }

theorem after_after (d : Desk σ) (s s' : σ) (es es' : List Event) :
    (d.after s es).after s' es' = d.after s' (es ++ es') := by
  simp [after]

/-- Passes a call on to the surface and notes it. -/
def pass (c : SurfaceCall) (act : σ → σ) (d : Desk σ) : Desk σ := d.after (act d.surface) [.call c]

variable [Surface σ]

instance : Surface (Desk σ) where
  measureText t d :=
    let m := Surface.measureText t d.surface
    (m.1, d.after m.2 [.measured t m.1])
  fillText t x y d := d.pass (.fillText t x y) (Surface.fillText t x y)
  setFont f d := d.pass (.setFont f) (Surface.setFont f)
  save d := d.pass .save Surface.save
  restore d := d.pass .restore Surface.restore
  setProperty name value d := d.pass (.setProperty name value) (Surface.setProperty name value)

end Desk

/-- How often wrapping did what. -/
structure Stats where
  segments : Nat := 0
  forced : Nat := 0
  lineBreaks : Nat := 0
deriving DecidableEq, Repr

namespace Stats

/-- Adds the counts of another run. -/
def absorb (totals stats : Stats) : Stats :=
  ⟨totals.segments + stats.segments, totals.forced + stats.forced,
    totals.lineBreaks + stats.lineBreaks⟩

/-- The counts of a sequence of steps. -/
def ofSteps (steps : List Step) : Stats :=
  ⟨steps.countP Step.isSegment, steps.countP Step.isForced, steps.countP Step.isLineBreak⟩

theorem absorb_zero (stats : Stats) : ({} : Stats).absorb stats = stats := by
  simp [absorb]

theorem absorb_ofSteps_append (stats : Stats) (steps later : List Step) :
    stats.absorb (ofSteps (steps ++ later)) =
      (stats.absorb (ofSteps steps)).absorb (ofSteps later) := by
  simp [absorb, ofSteps, Nat.add_assoc]

end Stats

/-- Adds the number of runs and the counts to the counters, and writes a summary. -/
def Desk.conclude {σ : Type} (runs : Nat) (totals : Stats) (d : Desk σ) : Desk σ :=
  let d := d.count "runs" runs
  let d := d.count "segments" totals.segments
  let d := d.count "forced_segments" totals.forced
  let d := d.count "line_breaks" totals.lineBreaks
  d.summarize "draw_text"

variable {σ : Type}

section Acts

variable [Surface σ]

/-- Wraps a text on a desk: what is drawn is counted and reported as soon as it is
    drawn. -/
def wrapOn (line : Line) (text : Text) (pen : Pen) (stats : Stats) (d : Desk σ) :
    (Stats × Pen) × Desk σ :=
  if _ht : text = [] then ((stats, pen), d)
  else
    let fit := grow line pen.x [] 0 text d
    if _hf : fit.taken = [] then
      if _hx : pen.x = line.baseX then
        let d := Surface.fillText fit.unit pen.x pen.y fit.surface
        let stats := { stats with forced := stats.forced + 1 }
        let d := d.report (.forced fit.unit pen fit.nextWidth (line.maxWidth - pen.x))
        let later := (cutUnit text).2
        let stats := { stats with lineBreaks := stats.lineBreaks + 1 }
        let d := d.report (.lineBreak (later.takeWhile isSpace) (line.below pen).y)
        wrapOn line (skipSpaces later) (line.below pen) stats d
      else
        let stats := { stats with lineBreaks := stats.lineBreaks + 1 }
        let d := fit.surface.report (.lineBreak (text.takeWhile isSpace) (line.below pen).y)
        wrapOn line (skipSpaces text) (line.below pen) stats d
    else
      let d := Surface.fillText fit.taken pen.x pen.y fit.surface
      let stats := { stats with segments := stats.segments + 1 }
      wrapOn line fit.rest { pen with x := pen.x + fit.width } stats d
termination_by 2 * text.length + if pen.x = line.baseX then 0 else 1
decreasing_by
  · have h₁ := length_skipSpaces_le (cutUnit text).2
    have h₂ := length_cutUnit_lt _ht
    simp only [Line.below, if_true, _hx]
    omega
  · have h := length_skipSpaces_le text
    simp only [Line.below, if_true, if_neg _hx]
    omega
  · have h := length_rest_lt _hf
    split <;> split <;> omega

/-- Performs one run: the record of the run comes first, then its text is wrapped
    in the style of its context. -/
def performRun (rules : RuleTable) (line : Line) (index : Nat) (run : Markup.Run) (pen : Pen)
    (d : Desk σ) : (Stats × Pen) × Desk σ :=
  let style := (rules.resolve run.context).split
  let d := d.tell (runRecord ⟨index, run, style.font.isSome, pen, []⟩)
  Surface.withStyle style (wrapOn line run.text pen {}) d

/-- Performs runs one after the other and adds up their counts. -/
def performRuns (rules : RuleTable) (line : Line) (index : Nat) (totals : Stats) (pen : Pen)
    (d : Desk σ) : List Markup.Run → (Stats × Pen) × Desk σ
  | [] => ((totals, pen), d)
  | run :: later =>
    let ((stats, pen), d) := performRun rules line index run pen d
    performRuns rules line (index + 1) (totals.absorb stats) pen d later

/-- The acts that draw a marked-up text from `x`, `y` onward. -/
def performance (options : Options) (text : Text) (x y : Single) :
    ExceptT DrawError (StateM (Desk σ)) Pen := do
  let (width, lineHeight) ← MonadExcept.ofExcept (options.validate.mapError DrawError.ofOption)
  let content ← MonadExcept.ofExcept ((Markup.parse text).mapError DrawError.nesting)
  let runs := content.runs []
  let line : Line := ⟨.ofSingle x, width, lineHeight⟩
  let (totals, pen) ← modifyGet fun d =>
    performRuns options.rules line 0 {} ⟨line.baseX, .ofSingle y⟩ d runs
  modify (Desk.conclude runs.length totals)
  return pen

/-- Performs a marked-up text on a desk: the final pen or an error, and the desk
    afterwards. -/
def perform (options : Options) (text : Text) (x y : Single) (d : Desk σ) :
    Except DrawError Pen × Desk σ := (performance options text x y).run.run d

end Acts

/-! ## One pen -/

/-- Where a reader of the events is: the answers that the surface has given so far,
    the last one first, and the pen. -/
structure Place where
  answers : List (Text × Length)
  pen : Pen

/-- Events that neither move the pen nor tell where it is. -/
def Event.IsQuiet : Event → Prop
  | call (.fillText ..) => False
  | measured .. => False
  | record (.event ..) => False
  | _ => True

/-- The events agree with one pen, which they lead from `a.pen` to `b.pen`. A run is
    recorded with the place of the pen. What is drawn is drawn there, and moves the
    pen by a width that the surface has answered for it; or it is drawn at the start
    of a line and recorded as forced, with the place of the pen and such a width. A
    line break is recorded with the height of the next line, which the pen moves
    to. -/
inductive Accords (line : Line) : Place → List Event → Place → Prop
  | done (a : Place) : Accords line a [] a
  | quiet {a b : Place} {e : Event} {es : List Event} :
    e.IsQuiet → Accords line a es b → Accords line a (e :: es) b
  | measured {m : Text × Length} {ms : List (Text × Length)} {p : Pen} {b : Place}
    {es : List Event} : Accords line ⟨m :: ms, p⟩ es b →
      Accords line ⟨ms, p⟩ (.ofAnswer m :: es) b
  | run {a b : Place} {es : List Event} (fields : List (String × Text)) :
    Accords line a es b →
      Accords line a
        (.record (.event "drawtext.run" (fields ++ [("x", a.pen.x.text), ("y", a.pen.y.text)])) ::
          es) b
  | segment {ms : List (Text × Length)} {p : Pen} {b : Place} {es : List Event} {t : Text}
    {w : Length} : (t, w) ∈ ms → Accords line ⟨ms, p.x + w, p.y⟩ es b →
      Accords line ⟨ms, p⟩ (.call (.fillText t p.x p.y) :: es) b
  | forced {ms : List (Text × Length)} {p : Pen} {b : Place} {es : List Event} {t : Text}
    {w : Length} (told : Text) : p.x = line.baseX → (t, w) ∈ ms → Accords line ⟨ms, p⟩ es b →
      Accords line ⟨ms, p⟩
        (.call (.fillText t p.x p.y) :: .trace told ::
          .record (.event "drawtext.forced_segment"
            [("text", quote t), ("x", p.x.text), ("y", p.y.text), ("width", w.text)]) :: es) b
  | lineBreak {ms : List (Text × Length)} {p : Pen} {b : Place} {es : List Event} :
    Accords line ⟨ms, line.below p⟩ es b →
      Accords line ⟨ms, p⟩
        (.record (.event "drawtext.line_break" [("y", (line.below p).y.text)]) :: es) b

namespace Accords

variable {line : Line} {a b c : Place} {es es' : List Event}

theorem append (h : Accords line a es b) (h' : Accords line b es' c) :
    Accords line a (es ++ es') c := by
  induction h with
  | done => exact h'
  | quiet he _ ih => exact .quiet he (ih h')
  | measured _ ih => exact .measured (ih h')
  | run fields _ ih => exact .run fields (ih h')
  | segment hm _ ih => exact .segment hm (ih h')
  | forced told hx hm _ ih => exact .forced told hx hm (ih h')
  | lineBreak _ ih => exact .lineBreak (ih h')

/-- Measurements give answers. -/
theorem answers (line : Line) (ms earlier : List (Text × Length)) (p : Pen) :
    Accords line ⟨earlier, p⟩ (ms.map Event.ofAnswer) ⟨ms.reverse ++ earlier, p⟩ := by
  induction ms generalizing earlier with
  | nil => exact .done _
  | cons m ms ih =>
    rw [List.reverse_cons, List.append_assoc]
    exact .measured (ih (m :: earlier))

end Accords

/-! ## What acts do to a desk -/

/-- From the first desk to the second, the records are written, the surface gets
    the calls and the trace the text. If there is a log, all of it accords with one
    pen. -/
structure Performs (line : Line) (a b : Place) (records : List Record) (calls : List SurfaceCall)
    (trace : Text) (d d' : Desk σ) : Prop where
  log_eq : d'.log = d.log.map (·.write records)
  trace_eq : d'.trace = d.trace ++ trace
  events : ∃ es, d'.events = d.events ++ es ∧ es.filterMap Event.call? = calls ∧
    (d.log.isSome → es.filterMap Event.record? = records ∧ Accords line a es b)

namespace Performs

variable {line : Line} {a b c : Place} {records records' : List Record}
  {calls calls' : List SurfaceCall} {trace trace' : Text} {d d' d'' : Desk σ}

theorem refl (line : Line) (a : Place) (d : Desk σ) : Performs line a a [] [] [] d d where
  log_eq := by cases d.log <;> simp [Log.write]
  trace_eq := (List.append_nil _).symm
  events := ⟨[], (List.append_nil _).symm, rfl, fun _ => ⟨rfl, .done _⟩⟩

theorem trans (h : Performs line a b records calls trace d d')
    (h' : Performs line b c records' calls' trace' d' d'') :
    Performs line a c (records ++ records') (calls ++ calls') (trace ++ trace') d d'' where
  log_eq := by rw [h'.log_eq, h.log_eq]; cases d.log <;> simp [Log.write]
  trace_eq := by rw [h'.trace_eq, h.trace_eq, List.append_assoc]
  events := by
    obtain ⟨es, he, hc, ha⟩ := h.events
    obtain ⟨es', he', hc', ha'⟩ := h'.events
    refine ⟨es ++ es', by rw [he', he, List.append_assoc], by rw [List.filterMap_append, hc, hc'],
      fun hl => ?_⟩
    obtain ⟨hr, ha⟩ := ha hl
    obtain ⟨hr', ha'⟩ := ha' (by rw [h.log_eq, Option.isSome_map]; exact hl)
    exact ⟨by rw [List.filterMap_append, hr, hr'], ha.append ha'⟩

end Performs

theorem traceOf_append (steps later : List Step) :
    traceOf (steps ++ later) = traceOf steps ++ traceOf later := by
  simp [traceOf]

/-- From the first desk to the second, the steps are taken. -/
def Takes (line : Line) (a b : Place) (steps : List Step) (d d' : Desk σ) : Prop :=
  Performs line a b (stepRecords steps) (fills steps) (traceOf steps) d d'

theorem Takes.trans {line : Line} {a b c : Place} {steps later : List Step} {d d' d'' : Desk σ}
    (h : Takes line a b steps d d') (h' : Takes line b c later d' d'') :
    Takes line a c (steps ++ later) d d'' := by
  rw [Takes, stepRecords, fills, List.filterMap_append, List.filterMap_append, traceOf_append]
  exact Performs.trans h h'

theorem takes_measurements (line : Line) (earlier : List (Text × Length)) (p : Pen) (d : Desk σ)
    (s : σ) (ms : List (Text × Length)) :
    Takes line ⟨earlier, p⟩ ⟨ms.reverse ++ earlier, p⟩ [] d
      (d.after s (ms.map Event.ofAnswer)) where
  log_eq := (Performs.refl line ⟨ms, p⟩ d).log_eq
  trace_eq := (List.append_nil _).symm
  events := by
    refine ⟨ms.map Event.ofAnswer, rfl, ?_, fun _ => ⟨?_, .answers line ms earlier p⟩⟩ <;>
      · rw [List.filterMap_map]
        exact List.filterMap_eq_nil_iff.mpr fun _ _ => rfl

theorem performs_tell {a b : Place} {r : Record} (h : Accords line a [.record r] b) (d : Desk σ) :
    Performs line a b [r] [] [] d (d.tell r) := by
  obtain ⟨s, log, trace, events⟩ := d
  cases log with
  | none => exact ⟨rfl, (List.append_nil _).symm, [], (List.append_nil _).symm, rfl, nofun⟩
  | some log => exact ⟨rfl, (List.append_nil _).symm, [.record r], rfl, rfl, fun _ => ⟨rfl, h⟩⟩

theorem takes_lineBreak (line : Line) (ms : List (Text × Length)) (p : Pen) (skipped : Text)
    (d : Desk σ) :
    Takes line ⟨ms, p⟩ ⟨ms, line.below p⟩ [.lineBreak skipped (line.below p).y] d
      (d.report (.lineBreak skipped (line.below p).y)) :=
  performs_tell (.lineBreak (.done _)) d

theorem isQuiet_call {c : SurfaceCall} (h : c.text? = none) : (Event.call c).IsQuiet := by
  cases c with
  | fillText => cases h
  | _ => trivial

/-- Calls that draw nothing leave the pen alone. -/
theorem accords_calls (line : Line) (a : Place) {calls : List SurfaceCall}
    (h : drawnTexts calls = []) : Accords line a (calls.map Event.call) a := by
  rw [drawnTexts, List.filterMap_eq_nil_iff] at h
  induction calls with
  | nil => exact .done a
  | cons c calls ih =>
    rw [List.forall_mem_cons] at h
    exact .quiet (isQuiet_call h.1) (ih h.2)

theorem performs_calls (line : Line) (a : Place) {calls : List SurfaceCall}
    (h : drawnTexts calls = []) (d : Desk σ) (s : σ) :
    Performs line a a [] calls [] d (d.after s (calls.map Event.call)) where
  log_eq := (Performs.refl line a d).log_eq
  trace_eq := (List.append_nil _).symm
  events := by
    refine ⟨calls.map Event.call, rfl, ?_, fun _ => ⟨?_, accords_calls line a h⟩⟩
    · rw [List.filterMap_map]
      exact List.filterMap_some
    · rw [List.filterMap_map]
      exact List.filterMap_eq_nil_iff.mpr fun _ _ => rfl

theorem conclude_of_none {d : Desk σ} (h : d.log = none) (runs : Nat) (totals : Stats) :
    d.conclude runs totals = d := by
  obtain ⟨s, log, trace, events⟩ := d
  cases h
  rfl

/-- The counters with the number of runs and the counts added. -/
def tally (runs : Nat) (totals : Stats) (log : Log) : Log :=
  (((log.increment "runs" runs).increment "segments" totals.segments).increment "forced_segments"
    totals.forced).increment "line_breaks" totals.lineBreaks

theorem records_tally (runs : Nat) (totals : Stats) (log : Log) :
    (tally runs totals log).records = log.records := rfl

/-- The counts go to the counters and these to a summary; the pen is left alone. -/
theorem conclude_of_some {d : Desk σ} {log : Log} (h : d.log = some log) (runs : Nat)
    (totals : Stats) (line : Line) (a : Place) :
    ∃ es, d.conclude runs totals =
        ⟨d.surface, some ((tally runs totals log).summarize "draw_text"), d.trace,
          d.events ++ es⟩ ∧
      es.filterMap Event.call? = [] ∧
      es.filterMap Event.record? =
        [.summary "draw_text" (tally runs totals log).counters.listed] ∧
      Accords line a es a := by
  obtain ⟨s, _, trace, events⟩ := d
  cases h
  refine ⟨[.count "runs" runs, .count "segments" totals.segments,
    .count "forced_segments" totals.forced, .count "line_breaks" totals.lineBreaks,
    .record (.summary "draw_text" _)], ?_, rfl, rfl,
    .quiet trivial (.quiet trivial (.quiet trivial (.quiet trivial (.quiet trivial (.done a)))))⟩
  rw [List.append_cons, List.append_cons, List.append_cons, List.append_cons]
  rfl

theorem writeTo_eq (D : Drawing σ) (log : Log) :
    D.writeTo log =
      (tally D.runs.length (.ofSteps D.steps) (log.write (D.runs.flatMap runRecords))).summarize
        "draw_text" := rfl

/-! ## Runs -/

variable [Surface σ]

section Steps

variable {line : Line} {ms : List (Text × Length)} {p : Pen} {t : Text} {w : Length}

theorem takes_segment (line : Line) (hm : (t, w) ∈ ms) (d : Desk σ) :
    Takes line ⟨ms, p⟩ ⟨ms, p.x + w, p.y⟩ [.segment t p] d (Surface.fillText t p.x p.y d) where
  log_eq := (Performs.refl line ⟨ms, p⟩ d).log_eq
  trace_eq := (List.append_nil _).symm
  events := ⟨[.call (.fillText t p.x p.y)], rfl, rfl, fun _ => ⟨rfl, .segment hm (.done _)⟩⟩

theorem takes_forced (hx : p.x = line.baseX) (hm : (t, w) ∈ ms) (room : Length) (d : Desk σ) :
    Takes line ⟨ms, p⟩ ⟨ms, p⟩ [.forced t p w room] d
      ((Surface.fillText t p.x p.y d).report (.forced t p w room)) := by
  obtain ⟨told, ht, hr⟩ : ∃ told, traceOf [.forced t p w room] = told ∧
      ∀ d : Desk σ, d.report (.forced t p w room) = (d.print told).tell _ :=
    ⟨_, List.append_nil _, fun _ => rfl⟩
  rw [Takes, ht, hr]
  obtain ⟨s, log, trace, events⟩ := d
  cases log with
  | none =>
    exact ⟨rfl, rfl, [.call (.fillText t p.x p.y), .trace told], List.append_assoc events [_] [_],
      rfl, nofun⟩
  | some log =>
    refine ⟨rfl, rfl, [.call (.fillText t p.x p.y), .trace told, .record _], ?_, rfl,
      fun _ => ⟨rfl, .forced told hx hm (.done _)⟩⟩
    rw [List.append_cons, List.append_cons]
    rfl

end Steps

/-- Growing measures, and does nothing else. What is taken has been measured, and
    so has what would come next. -/
theorem grow_desk (line : Line) (x : Length) (taken : Text) (width : Length) (rest : Text)
    (d : Desk σ) {s : σ} (hs : d.surface = s) :
    ∃ ms : List (Text × Length),
      grow line x taken width rest d = (grow line x taken width rest s).on
        (d.after (grow line x taken width rest s).surface (ms.map Event.ofAnswer)) ∧
      ((grow line x taken width rest s).taken, (grow line x taken width rest s).width) ∈
        (taken, width) :: ms ∧
      ((grow line x taken width rest s).taken ++ (grow line x taken width rest s).unit,
        (grow line x taken width rest s).nextWidth) ∈ ms := by
  fun_induction grow line x taken width rest s generalizing d with
  | case1 taken width rest s unit measured hf ih =>
    subst hs
    rw [grow_of_fits (s := d) hf]
    obtain ⟨ms, hg, ht, hu⟩ := ih (Surface.measureText (taken ++ unit) d).2 rfl
    refine ⟨(taken ++ unit, measured.1) :: ms, hg.trans ?_, List.mem_cons_of_mem _ ht,
      List.mem_cons_of_mem _ hu⟩
    exact congrArg (Fit.on _) (Desk.after_after _ _ _ _ _)
  | case2 taken width rest s unit measured hf =>
    subst hs
    rw [grow_of_not_fits (s := d) hf]
    exact ⟨[(taken ++ unit, measured.1)], rfl, List.mem_cons_self, List.mem_singleton_self _⟩

section Turns

variable {line : Line} {text : Text} {pen : Pen} {stats : Stats} {d : Desk σ} {fit : Fit (Desk σ)}

theorem wrapOn_nil : wrapOn line [] pen stats d = ((stats, pen), d) := by
  rw [wrapOn, dif_pos rfl]

theorem wrapOn_forced (ht : text ≠ []) (hf : grow line pen.x [] 0 text d = fit) (h : fit.taken = [])
    (hx : pen.x = line.baseX) :
    wrapOn line text pen stats d =
      wrapOn line (skipSpaces (cutUnit text).2) (line.below pen)
        ⟨stats.segments, stats.forced + 1, stats.lineBreaks + 1⟩
        (((Surface.fillText fit.unit pen.x pen.y fit.surface).report
          (.forced fit.unit pen fit.nextWidth (line.maxWidth - pen.x))).report
            (.lineBreak ((cutUnit text).2.takeWhile isSpace) (line.below pen).y)) := by
  subst hf
  rw [wrapOn, dif_neg ht]
  exact (dif_pos h).trans (dif_pos hx)

theorem wrapOn_broken (ht : text ≠ []) (hf : grow line pen.x [] 0 text d = fit) (h : fit.taken = [])
    (hx : pen.x ≠ line.baseX) :
    wrapOn line text pen stats d =
      wrapOn line (skipSpaces text) (line.below pen)
        ⟨stats.segments, stats.forced, stats.lineBreaks + 1⟩
        (fit.surface.report (.lineBreak (text.takeWhile isSpace) (line.below pen).y)) := by
  subst hf
  rw [wrapOn, dif_neg ht]
  exact (dif_pos h).trans (dif_neg hx)

theorem wrapOn_segment (ht : text ≠ []) (hf : grow line pen.x [] 0 text d = fit)
    (h : fit.taken ≠ []) :
    wrapOn line text pen stats d =
      wrapOn line fit.rest { pen with x := pen.x + fit.width }
        ⟨stats.segments + 1, stats.forced, stats.lineBreaks⟩
        (Surface.fillText fit.taken pen.x pen.y fit.surface) := by
  subst hf
  rw [wrapOn, dif_neg ht]
  exact dif_neg h

end Turns

/-- Wrapping on a desk comes to what wrapping tells: its steps are taken and
    counted. -/
def ComesTo (line : Line) (text : Text) (pen : Pen) (stats : Stats) (d : Desk σ)
    (earlier : List (Text × Length)) (w : Wrapped σ) : Prop :=
  ∃ d' ms, wrapOn line text pen stats d = ((stats.absorb (.ofSteps w.steps), w.pen), d') ∧
    d'.surface = w.surface ∧ Takes line ⟨earlier, pen⟩ ⟨ms, w.pen⟩ w.steps d d'

/-- The steps of one turn are taken and counted before those of the turns after it. -/
theorem ComesTo.precededBy {line : Line} {text text' : Text} {pen pen' : Pen} {stats : Stats}
    {d d₁ : Desk σ} {earlier ms : List (Text × Length)} {w : Wrapped σ} {steps : List Step}
    (h : ComesTo line text' pen' (stats.absorb (.ofSteps steps)) d₁ ms w)
    (he : wrapOn line text pen stats d =
      wrapOn line text' pen' (stats.absorb (.ofSteps steps)) d₁)
    (ht : Takes line ⟨earlier, pen⟩ ⟨ms, pen'⟩ steps d d₁) :
    ComesTo line text pen stats d earlier (w.precededBy steps) := by
  obtain ⟨d', ms', he', hs, ht'⟩ := h
  refine ⟨d', ms', he.trans ?_, hs, ht.trans ht'⟩
  rw [he', Wrapped.precededBy, Stats.absorb_ofSteps_append]

/-- Wrapping on a desk takes the steps of wrapping, and counts them. -/
theorem comesTo_wrap (line : Line) (text : Text) (pen : Pen) (stats : Stats) (d : Desk σ)
    (earlier : List (Text × Length)) {s : σ} (hs : d.surface = s) :
    ComesTo line text pen stats d earlier (wrap line text pen s) := by
  fun_induction wrap line text pen s generalizing stats d earlier with
  | case1 pen s => exact ⟨d, earlier, wrapOn_nil, hs, .refl line _ d⟩
  | case2 text pen s ht fit hf next hx s' later ih =>
    obtain ⟨ms, hg, -, hu⟩ := grow_desk line pen.x [] 0 text d hs
    rw [hf] at hu
    have hu : (fit.unit, fit.nextWidth) ∈ ms.reverse ++ earlier :=
      List.mem_append_left _ (List.mem_reverse.mpr hu)
    refine (ih _ _ _ ?_).precededBy (wrapOn_forced ht hg hf hx)
      (((takes_measurements line earlier pen d fit.surface ms).trans (takes_forced hx hu _ _)).trans
        (takes_lineBreak line _ pen _ _))
    exact (Desk.surface_report _ _).trans (Desk.surface_report _ _)
  | case3 text pen s ht fit hf next hx ih =>
    obtain ⟨ms, hg, -, -⟩ := grow_desk line pen.x [] 0 text d hs
    exact (ih _ _ _ (Desk.surface_report _ _)).precededBy (wrapOn_broken ht hg hf hx)
      ((takes_measurements line earlier pen d fit.surface ms).trans
        (takes_lineBreak line _ pen _ _))
  | case4 text pen s ht fit hf s' ih =>
    obtain ⟨ms, hg, hm, -⟩ := grow_desk line pen.x [] 0 text d hs
    have hm : (fit.taken, fit.width) ∈ ms.reverse ++ earlier := by
      rcases List.mem_cons.mp hm with he | hm
      · exact absurd (congrArg Prod.fst he) hf
      · exact List.mem_append_left _ (List.mem_reverse.mpr hm)
    exact (ih _ _ _ rfl).precededBy (wrapOn_segment ht hg hf)
      ((takes_measurements line earlier pen d fit.surface ms).trans (takes_segment line hm _))

/-- Assigning properties is noted, one after the other. -/
theorem foldl_setProperty_desk (entries : List (String × StyleValue)) (d : Desk σ) :
    entries.foldl (fun d e => Surface.setProperty e.1 e.2 d) d =
      d.after (entries.foldl (fun s e => Surface.setProperty e.1 e.2 s) d.surface)
        ((entries.map fun e => .setProperty e.1 e.2).map Event.call) := by
  induction entries generalizing d with
  | nil => simp [Desk.after]
  | cons e entries ih =>
    rw [List.foldl_cons, List.foldl_cons]
    exact (ih _).trans (Desk.after_after _ _ _ _ _)

/-- Applying a style is noted by its calls. -/
theorem applyStyle_desk (style : SurfaceStyle) (d : Desk σ) :
    Surface.applyStyle style d =
      d.after (Surface.applyStyle style d.surface)
        ((Traced.styleCalls style).map Event.call) := by
  unfold Surface.applyStyle Traced.styleCalls
  rw [List.map_append]
  cases style.font with
  | none => exact foldl_setProperty_desk _ _
  | some font => exact (foldl_setProperty_desk _ _).trans (Desk.after_after _ _ _ _ _)

/-- Performing a run comes to drawing it. -/
theorem performRun_performs (rules : RuleTable) (line : Line) (index : Nat) (run : Markup.Run)
    (pen : Pen) (d : Desk σ) (earlier : List (Text × Length)) {s : σ} (hs : d.surface = s) :
    ∃ d' ms, performRun rules line index run pen d =
        ((.ofSteps (drawRun rules line index run pen s).1.steps,
          (drawRun rules line index run pen s).2.1), d') ∧
      d'.surface = (drawRun rules line index run pen s).2.2 ∧
      Performs line ⟨earlier, pen⟩ ⟨ms, (drawRun rules line index run pen s).2.1⟩
        (runRecords (drawRun rules line index run pen s).1)
        ((drawRun rules line index run pen s).1.calls rules)
        (traceOf (drawRun rules line index run pen s).1.steps) d d' := by
  subst hs
  let style := (rules.resolve run.context).split
  let told := d.tell (runRecord ⟨index, run, style.font.isSome, pen, []⟩)
  let ready : Desk σ := Surface.applyStyle style (Surface.save told)
  have htold : told.surface = d.surface := Desk.surface_onLog _ _ _
  have hready : ready =
      told.after (styled rules run d.surface)
        ((.save :: Traced.styleCalls style).map Event.call) := by
    rw [styled, ← htold]
    exact (applyStyle_desk style (Surface.save told)).trans (Desk.after_after _ _ _ _ _)
  let w := wrap line run.text pen (styled rules run d.surface)
  have hsurface : ready.surface = styled rules run d.surface := congrArg Desk.surface hready
  obtain ⟨d', ms, he, hs', h⟩ := comesTo_wrap line run.text pen {} ready earlier hsurface
  refine ⟨Surface.restore d', ms, ?_, congrArg Surface.restore hs', ?_⟩
  · have he' : performRun rules line index run pen d =
        ((wrapOn line run.text pen {} ready).1,
          Surface.restore (wrapOn line run.text pen {} ready).2) := rfl
    rw [he', he, Stats.absorb_zero]
    rfl
  · have hrun : Performs line ⟨earlier, pen⟩ ⟨earlier, pen⟩ _ [] [] d told :=
      performs_tell (.run [("index", _), ("context", _), ("text", _), ("font_change", _)]
        (.done _)) d
    have hdrawn : drawnTexts ([.save] ++ Traced.styleCalls style) = [] :=
      Traced.drawnTexts_styleCalls style
    have hstyle : Performs line ⟨earlier, pen⟩ ⟨earlier, pen⟩ []
        ([.save] ++ Traced.styleCalls style) [] told ready := by
      rw [hready]
      exact performs_calls line _ hdrawn told _
    have hrestore : Performs line ⟨ms, w.pen⟩ ⟨ms, w.pen⟩ [] [.restore] [] d'
        (Surface.restore d') := performs_calls line _ rfl d' _
    have hall := ((hrun.trans hstyle).trans h).trans hrestore
    simp only [List.append_nil] at hall
    exact hall

/-- Performing runs comes to drawing them. -/
theorem performRuns_performs (rules : RuleTable) (line : Line) (index : Nat) (totals : Stats)
    (pen : Pen) (d : Desk σ) (earlier : List (Text × Length)) {s : σ} (hs : d.surface = s)
    (runs : List Markup.Run) :
    ∃ d' ms, performRuns rules line index totals pen d runs =
        ((totals.absorb (.ofSteps (drawRuns rules line index pen s runs).steps),
          (drawRuns rules line index pen s runs).pen), d') ∧
      d'.surface = (drawRuns rules line index pen s runs).surface ∧
      Performs line ⟨earlier, pen⟩ ⟨ms, (drawRuns rules line index pen s runs).pen⟩
        ((drawRuns rules line index pen s runs).runs.flatMap runRecords)
        ((drawRuns rules line index pen s runs).runs.flatMap (DrawnRun.calls rules))
        (drawRuns rules line index pen s runs).trace d d' := by
  induction runs generalizing index totals pen d earlier s with
  | nil => exact ⟨d, earlier, rfl, hs, .refl line _ d⟩
  | cons run later ih =>
    obtain ⟨d₁, ms₁, he₁, hs₁, h₁⟩ := performRun_performs rules line index run pen d earlier hs
    obtain ⟨d', ms, he, hs', h⟩ := ih (index + 1) (totals.absorb (.ofSteps _)) _ d₁ ms₁ hs₁
    refine ⟨d', ms, ?_, hs', ?_⟩
    · rw [performRuns, he₁]
      refine he.trans ?_
      rw [← Stats.absorb_ofSteps_append]
      rfl
    · rw [show (drawRuns rules line index pen s (run :: later)).trace = _ from traceOf_append _ _]
      exact h₁.trans h

/-! ## Texts -/

variable {options : Options} {text : Text} {dims : Length × Length} {content : Markup.Content}

/-- Without usable options nothing at all is done. -/
theorem perform_of_validate_eq_error {e : OptionError} (ho : options.validate = .error e)
    (text : Text) (x y : Single) (d : Desk σ) :
    perform options text x y d = (.error (.ofOption e), d) := by
  rw [perform, performance, ho]
  rfl

/-- Where the markup is not in order nothing at all is done. -/
theorem perform_of_parse_eq_error (ho : options.validate = .ok dims) {e : Markup.NestingError}
    (hc : Markup.parse text = .error e) (x y : Single) (d : Desk σ) :
    perform options text x y d = (.error (.nesting e), d) := by
  rw [perform, performance, ho, hc]
  rfl

/-- A text in order is performed run by run, and its counts go to the log. -/
theorem perform_of_parse_eq_ok (ho : options.validate = .ok dims)
    (hc : Markup.parse text = .ok content) (x y : Single) {d d' : Desk σ} {totals : Stats}
    {pen : Pen}
    (h : performRuns options.rules ⟨.ofSingle x, dims.1, dims.2⟩ 0 {} ⟨.ofSingle x, .ofSingle y⟩ d
      (content.runs []) = ((totals, pen), d')) :
    perform options text x y d =
      (.ok pen, d'.conclude (content.runs []).length totals) := by
  let performed := performRuns options.rules ⟨.ofSingle x, dims.1, dims.2⟩ 0 {}
    ⟨.ofSingle x, .ofSingle y⟩ d (content.runs [])
  have he : perform options text x y d =
      (.ok performed.1.2, performed.2.conclude (content.runs []).length performed.1.1) := by
    rw [perform, performance, ho, hc]
    rfl
  rw [he, show performed = _ from h]

/-- A text in order is performed as drawing tells, and calls and records accord with
    one pen. -/
theorem perform_of_draw_eq_ok (ho : options.validate = .ok dims)
    (hc : Markup.parse text = .ok content) (x y : Single) (d : Desk σ) {D : Drawing σ}
    (hD : draw options text x y d.surface = .ok D) :
    ∃ es ms, perform options text x y d =
        (.ok D.pen, ⟨D.surface, d.log.map D.writeTo, d.trace ++ D.trace, d.events ++ es⟩) ∧
      es.filterMap Event.call? = D.runs.flatMap (DrawnRun.calls options.rules) ∧
      ∀ log, d.log = some log →
        (D.writeTo log).records = log.records ++ es.filterMap Event.record? ∧
        Accords ⟨.ofSingle x, dims.1, dims.2⟩ ⟨[], .ofSingle x, .ofSingle y⟩ es ⟨ms, D.pen⟩ := by
  let line : Line := ⟨.ofSingle x, dims.1, dims.2⟩
  obtain rfl : drawRuns options.rules line 0 ⟨line.baseX, .ofSingle y⟩ d.surface
      (content.runs []) = D :=
    Except.ok.inj ((draw_of_plan_eq_ok (plan_eq_ok ho hc x) y d.surface).symm.trans hD)
  obtain ⟨d', ms, he, hs, hp⟩ := performRuns_performs options.rules line 0 {}
    ⟨line.baseX, .ofSingle y⟩ d [] rfl (content.runs [])
  obtain ⟨es, hes, hcalls, haccords⟩ := hp.events
  have ht := hp.trace_eq
  have hlog := hp.log_eq
  rw [Stats.absorb_zero] at he
  rw [perform_of_parse_eq_ok ho hc x y he]
  cases hl : d.log with
  | none =>
    rw [hl] at hlog
    rw [conclude_of_none hlog]
    refine ⟨es, ms, ?_, hcalls, nofun⟩
    obtain ⟨s, log, trace, events⟩ := d'
    cases hs; cases hes; cases ht; cases hlog
    rfl
  | some log =>
    rw [hl] at hlog
    obtain ⟨hrecords, haccords⟩ := haccords (by rw [hl]; rfl)
    obtain ⟨es', hd, hcalls', hrecords', haccords'⟩ :=
      conclude_of_some hlog (content.runs []).length (.ofSteps _) line ⟨ms, _⟩
    have hlength := congrArg List.length (map_run_drawRuns options.rules line 0
      ⟨line.baseX, .ofSingle y⟩ d.surface (content.runs []))
    rw [List.length_map] at hlength
    refine ⟨es ++ es', ms, ?_, ?_, ?_⟩
    · rw [hd, hs, ht, hes, List.append_assoc, Option.map_some, writeTo_eq, hlength]
    · rw [List.filterMap_append, hcalls, hcalls', List.append_nil]
    · rintro _ ⟨⟩
      refine ⟨?_, haccords.append haccords'⟩
      rw [List.filterMap_append, hrecords, hrecords', writeTo_eq, records_summarize, records_tally,
        records_write, List.append_assoc, hlength]

/-- Performing a text comes to drawing it, with the same end and the same surface,
    log and trace. -/
theorem exists_perform_eq (options : Options) (text : Text) (x y : Single) (d : Desk σ)
    {o : Outcome σ} (ho : drawText options text x y d.surface d.log = o) :
    ∃ es, perform options text x y d =
      (o.result, ⟨o.surface, o.log, d.trace ++ o.trace, d.events ++ es⟩) := by
  subst ho
  cases hv : options.validate with
  | error e =>
    have hp : plan options text x = .error (.ofOption e) := by rw [plan, hv]; rfl
    rw [perform_of_validate_eq_error hv, drawText, draw_of_plan_eq_error hp]
    exact ⟨[], by simp⟩
  | ok dims =>
    cases hc : Markup.parse text with
    | error e =>
      have hp : plan options text x = .error (.nesting e) := by rw [plan, hv, hc]; rfl
      rw [perform_of_parse_eq_error hv hc, drawText, draw_of_plan_eq_error hp]
      exact ⟨[], by simp⟩
    | ok content =>
      have hd := draw_of_plan_eq_ok (plan_eq_ok hv hc x) y d.surface
      obtain ⟨es, ms, he, -⟩ := perform_of_draw_eq_ok hv hc x y d hd
      rw [he, drawText, hd]
      exact ⟨es, rfl⟩

end Draw

end Lettering
