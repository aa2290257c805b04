import Lettering.Proofs.Draw.Performance
import Lettering.Proofs.Log.Decoding
import Lettering.Proofs.Log.Summaries
import Mathlib.Data.List.Nodup

/-!
# The lines of a log

Drawing a text with a log writes one line for every run, forced unit and line break,
and a summary. Each line holds one object in JSON, whose members are the data of the
record (`Says`), whatever stands in the text and in the names of its tags: nothing
else can be read off the line, and nothing is lost in it. Coordinates are told as
decimals, of which the lengths can be made again (`OnGrid`).

* `says_drawing`: the records of a drawing say its runs, its steps and its counts.
* `isPlaced_wrap`, `isPlaced_drawRuns`: the pen moves between decimals.
* `log_decodes`: what the log gains when a text is drawn, and what it says.
-/

namespace Lettering

open Wrap Log Json

namespace Log

/-- An object that tells its kind first. -/
def ofKind (kind : String) (members : List (String × Value)) : List (Text × Value) :=
  ("type".toList, .string kind.toList) :: members.map fun m => (m.1.toList, m.2)

/-- The record is one line. It holds an object with the members, each under a name of
    its own, and nothing else can be read off it. -/
structure Says (r : Record) (members : List (Text × Value)) : Prop where
  one_line : ∀ c ∈ r.text, 0x20 ≤ c.toNat
  decodes : ∀ v, Decodes r.text v ↔ v = .object members
  names : (members.map Prod.fst).Nodup

/-- The field of a record is the written form of the member. -/
def Tells (field : String × Text) (member : String × Value) : Prop :=
  field.1 = member.1 ∧ Form field.2 member.2

theorem tells {t : Text} {v : Value} (h : Form t v) (key : String) : Tells (key, t) (key, v) :=
  ⟨rfl, h⟩

section Kinds

variable {fields : List (String × Text)} {members : List (String × Value)}

/-- A record says its kind and its fields. -/
theorem says_of_text_eq {r : Record} {kind : String}
    (ht : r.text = object (("type", quote kind.toList) :: fields))
    (hn : ("type" :: members.map Prod.fst).Nodup) (h : List.Forall₂ Tells fields members) :
    Says r (ofKind kind members) := by
  have hform : Form r.text (.object (ofKind kind members)) := by
    rw [ht]
    refine form_object (.cons ⟨rfl, form_quote kind.toList⟩ ?_)
    rw [List.forall₂_map_right_iff]
    exact h.imp fun _ _ ⟨hk, hf⟩ => ⟨congrArg String.toList hk, hf⟩
  refine ⟨hform.plain, fun _ => hform.writes.decodes_iff, ?_⟩
  have hnames : (ofKind kind members).map Prod.fst =
      ("type" :: members.map Prod.fst).map String.toList := by
    simp [ofKind]
  -- Names that differ as strings differ as texts.
  rw [hnames]
  exact hn.map fun _ _ => String.toList_inj.mp

end Kinds

/-- A list of names says the names. -/
theorem form_names (names : List String) :
    Form (array (names.map fun name => quote name.toList))
      (.array (names.map fun name => .string name.toList)) := by
  refine form_array ?_
  rw [List.forall₂_map_left_iff, List.forall₂_map_right_iff, List.forall₂_same]
  exact fun name _ => form_quote name.toList

/-- The members of a summary. -/
def summaryMembers (context : String) (counts : List (String × Nat)) : List (Text × Value) :=
  ofKind "debug.summary"
    [("context", .string context.toList),
      ("counts", .object (counts.map fun (key, n) => (key.toList, .number n)))]

theorem says_summary (context : String) (counts : List (String × Nat)) :
    Says (.summary context counts) (summaryMembers context counts) := by
  have hcounts : Form (object (counts.map fun (key, n) => (key, Text.ofNat n)))
      (.object (counts.map fun (key, n) => (key.toList, .number n))) := by
    refine form_object ?_
    rw [List.forall₂_map_left_iff, List.forall₂_map_right_iff, List.forall₂_same]
    exact fun e _ => ⟨rfl, form_ofNat e.2⟩
  exact says_of_text_eq rfl (by simp)
    (.cons (tells (form_quote context.toList) "context") (.cons (tells hcounts "counts") .nil))

end Log

namespace Draw

/-! ## What the records say -/

/-- The members for a step, if there is a record of it. -/
def stepMembers? : Step → Option (List (Text × Value))
  | .segment .. => none
  | .forced text pen width _ =>
    some (ofKind "drawtext.forced_segment"
      [("text", .string text), ("x", .number pen.x.pixels), ("y", .number pen.y.pixels),
        ("width", .number width.pixels)])
  | .lineBreak _ y => some (ofKind "drawtext.line_break" [("y", .number y.pixels)])

/-- The members for a run. -/
def runMembers (drawn : DrawnRun) : List (Text × Value) :=
  ofKind "drawtext.run"
    [("index", .number drawn.index),
      ("context", .array (drawn.run.context.map fun name => .string name.toList)),
      ("text", .string drawn.run.text), ("font_change", .bool drawn.changesFont),
      ("x", .number drawn.start.x.pixels), ("y", .number drawn.start.y.pixels)]

/-- What a drawing says line by line: its runs, each with its steps behind it, and a
    summary, which counts them together with what is waiting in the log. -/
def Drawing.told {σ : Type} (D : Drawing σ) (log : Log) : List (List (Text × Value)) :=
  (D.runs.flatMap fun drawn => runMembers drawn :: drawn.steps.filterMap stepMembers?) ++
    [summaryMembers "draw_text" (tally D.runs.length (.ofSteps D.steps) log).counters.listed]

theorem says_step (step : Step) : Option.Rel Says (stepRecord? step) (stepMembers? step) := by
  cases step with
  | segment => exact .none
  | forced text pen width room =>
    exact .some (says_of_text_eq rfl (by simp) (.cons (tells (form_quote text) "text")
      (.cons (tells (form_length pen.x) "x") (.cons (tells (form_length pen.y) "y")
        (.cons (tells (form_length width) "width") .nil)))))
  | lineBreak skipped y =>
    exact .some (says_of_text_eq rfl (by simp) (.cons (tells (form_length y) "y") .nil))

theorem says_runRecord (drawn : DrawnRun) : Says (runRecord drawn) (runMembers drawn) :=
  says_of_text_eq rfl (by simp) (.cons (tells (form_ofNat drawn.index) "index")
    (.cons (tells (form_names drawn.run.context) "context")
      (.cons (tells (form_quote drawn.run.text) "text")
        (.cons (tells (form_bool drawn.changesFont) "font_change")
          (.cons (tells (form_length drawn.start.x) "x")
            (.cons (tells (form_length drawn.start.y) "y") .nil))))))

theorem says_runRecords (drawn : DrawnRun) :
    List.Forall₂ Says (runRecords drawn)
      (runMembers drawn :: drawn.steps.filterMap stepMembers?) := by
  refine .cons (says_runRecord drawn) ?_
  exact List.rel_filterMap (R := Eq) (by rintro step _ rfl; exact says_step step)
    (List.forall₂_same.mpr fun _ _ => rfl)

/-- The records that a drawing writes. -/
def Drawing.records {σ : Type} (D : Drawing σ) (log : Log) : List Record :=
  D.runs.flatMap runRecords ++
    [.summary "draw_text" (tally D.runs.length (.ofSteps D.steps) log).counters.listed]

theorem records_writeTo {σ : Type} (D : Drawing σ) (log : Log) :
    (D.writeTo log).records = log.records ++ D.records log := by
  rw [writeTo_eq, records_summarize, records_tally, records_write, List.append_assoc]
  rfl

/-- The records of a drawing say what there is to tell. -/
theorem says_drawing {σ : Type} (D : Drawing σ) (log : Log) :
    List.Forall₂ Says (D.records log) (D.told log) := by
  refine List.rel_append ?_ (.cons (says_summary _ _) .nil)
  exact List.rel_flatMap (R := Eq) (List.forall₂_same.mpr fun _ _ => rfl)
    (by rintro drawn _ rfl; exact says_runRecords drawn)

/-! ## Where things are -/

/-- Both coordinates of the pen are decimals. -/
def OnGrid (pen : Pen) : Prop := pen.x.IsDecimal ∧ pen.y.IsDecimal

variable {σ : Type} [Surface σ] {line : Line}

variable (σ) in
/-- What is told of a step: its place by decimals, and its width as the surface
    answered it. -/
def IsPlaced : Step → Prop
  | .segment _ pen => OnGrid pen
  | .forced text pen width _ => OnGrid pen ∧ ∃ s : σ, width = (Surface.measureText text s).1
  | .lineBreak _ y => y.IsDecimal

/-- What would come next has been measured together with what is taken. -/
theorem exists_nextWidth_eq (line : Line) (x : Length) (taken : Text) (width : Length) (rest : Text)
    (s : σ) :
    ∃ s' : σ, (grow line x taken width rest s).nextWidth =
      (Surface.measureText
        ((grow line x taken width rest s).taken ++ (grow line x taken width rest s).unit)
          s').1 := by
  fun_induction grow line x taken width rest s with
  | case1 _ _ _ _ _ _ _ ih => exact ih
  | case2 taken width rest s unit measured => exact ⟨s, rfl⟩

/-- Wrapping leads the pen from decimals to decimals. -/
theorem isPlaced_wrap (hb : line.baseX.IsDecimal) (text : Text) {pen : Pen} (hp : OnGrid pen)
    (s : σ) :
    OnGrid (wrap line text pen s).pen ∧ ∀ step ∈ (wrap line text pen s).steps, IsPlaced σ step := by
  fun_induction wrap line text pen s with
  | case1 pen s => exact ⟨hp, List.forall_mem_nil _⟩
  | case2 text pen s ht fit hf next hx s' later ih =>
    have hnext : OnGrid next := ⟨hb, Length.isDecimal_add _ _⟩
    obtain ⟨hend, hsteps⟩ := ih hnext
    obtain ⟨s'', hwidth⟩ := exists_nextWidth_eq line pen.x [] 0 text s
    -- Nothing was taken, so that the unit itself is what was measured last.
    rw [hf, List.nil_append] at hwidth
    exact ⟨hend, List.forall_mem_cons.mpr
      ⟨⟨hp, s'', hwidth⟩, List.forall_mem_cons.mpr ⟨hnext.2, hsteps⟩⟩⟩
  | case3 text pen s ht fit hf next hx ih =>
    have hnext : OnGrid next := ⟨hb, Length.isDecimal_add _ _⟩
    obtain ⟨hend, hsteps⟩ := ih hnext
    exact ⟨hend, List.forall_mem_cons.mpr ⟨hnext.2, hsteps⟩⟩
  | case4 text pen s ht fit hf s' ih =>
    obtain ⟨hend, hsteps⟩ := ih ⟨Length.isDecimal_add _ _, hp.2⟩
    exact ⟨hend, List.forall_mem_cons.mpr ⟨hp, hsteps⟩⟩

/-- Every run starts at decimals, and so does every step of it. -/
theorem isPlaced_drawRuns (rules : RuleTable) (hb : line.baseX.IsDecimal) (index : Nat) {pen : Pen}
    (hp : OnGrid pen) (s : σ) (runs : List Markup.Run) :
    ∀ drawn ∈ (drawRuns rules line index pen s runs).runs,
      OnGrid drawn.start ∧ ∀ step ∈ drawn.steps, IsPlaced σ step := by
  induction runs generalizing index pen s with
  | nil => exact List.forall_mem_nil _
  | cons run later ih =>
    obtain ⟨hend, hsteps⟩ := isPlaced_wrap hb run.text hp (styled rules run s)
    exact List.forall_mem_cons.mpr ⟨⟨hp, hsteps⟩, ih (index + 1) hend _⟩

/-! ## Texts -/

/-- A quoted text is one line and says the text, and lengths are had back from their
    decimals. So the lines that a log gains when a text is drawn hold one object each,
    and say the context, the text and the place of every run, the place and the width
    of every forced unit, the height of every line break, and the counts. -/
theorem log_decodes :
    (∀ t : Text, (∀ c ∈ quote t, 0x20 ≤ c.toNat) ∧ ∀ v, Decodes (quote t) v ↔ v = .string t) ∧
    (∀ m : Int, (Length.ofThousandths m).IsDecimal) ∧
    ∀ (options : Options) (text : Text) (x y : Single) (s : σ) (log : Log),
      ∃ (after : Log) (records : List Record) (told : List (List (Text × Value))),
        (drawText options text x y s (some log)).log = some after ∧
        after.records = log.records ++ records ∧
        after.text = log.text ++ records.flatMap (fun r => r.text ++ ['\n']) ∧
        List.Forall₂ Says records told ∧
        match draw options text x y s with
        | .error _ => told = []
        | .ok D =>
          told = D.told log ∧
          InOrder (tally D.runs.length (.ofSteps D.steps) log).counters.listed ∧
          (∃ content, Markup.parse text = .ok content ∧
            D.runs.map DrawnRun.run = content.runs []) ∧
          ∀ drawn ∈ D.runs, OnGrid drawn.start ∧ ∀ step ∈ drawn.steps, IsPlaced σ step := by
  refine ⟨fun t => ⟨(form_quote t).plain, fun _ => (form_quote t).writes.decodes_iff⟩,
    Length.isDecimal_ofThousandths, fun options text x y s log => ?_⟩
  cases hd : draw options text x y s with
  | error e =>
    -- A refusal leaves the log as it was.
    refine ⟨log, [], [], ?_, (List.append_nil _).symm, (List.append_nil _).symm, .nil, rfl⟩
    rw [drawText, hd]
  | ok D =>
    have hok : (drawText options text x y s (some log)).result = .ok D.pen := by rw [drawText, hd]
    obtain ⟨dims, content, hv, hc, -⟩ := exists_of_result_eq_ok hok
    let line : Line := ⟨.ofSingle x, dims.1, dims.2⟩
    have hb : line.baseX.IsDecimal := Length.isDecimal_ofSingle x
    have hp : OnGrid ⟨line.baseX, .ofSingle y⟩ := ⟨hb, Length.isDecimal_ofSingle y⟩
    obtain rfl : drawRuns options.rules line 0 ⟨line.baseX, .ofSingle y⟩ s (content.runs []) = D :=
      Except.ok.inj ((draw_of_plan_eq_ok (plan_eq_ok hv hc x) y s).symm.trans hd)
    refine ⟨_, _, _, ?_, records_writeTo _ log, ?_, says_drawing _ log, rfl,
      Counters.inOrder_listed _, ⟨content, hc, map_run_drawRuns options.rules line 0 _ s _⟩,
      isPlaced_drawRuns options.rules hb 0 hp s _⟩
    · rw [drawText, hd]
      rfl
    · rw [Log.text, records_writeTo, List.flatMap_append]
      rfl

end Draw

end Lettering
