import Lettering.Proofs.Length.Sums
import Lettering.Proofs.Wrap.Steps
import Lettering.Proofs.Wrap.Units
import Mathlib.Tactic.ByContra

/-!
# Greedy wrapping

Wrapping decides by what fits: a segment takes as many units as fit one after
the other, a unit is forced where a line has room for nothing more, and a line
is left only when the next unit does not fit behind something else (`Layout`).
Nothing is asked of the measured widths; they may shrink when a text grows.

* `Grown.step`, `Grown.grow`: a segment that grows takes units that fit, one
  more with every turn.
* `layout_wrap`: whatever a surface answers, the steps are such a layout.
* `Layout.onward`: behind any of its steps a layout goes on as one of what is left.
* `wrap_greedy`: every single step is the greedy one.
-/

namespace Lettering

namespace Wrap

/-! ## Layouts -/

/-- The text may be measured so that it ends before the right edge. -/
def Fits (answer : Text → Length → Prop) (line : Line) (x : Length) (t : Text) : Prop :=
  ∃ w, answer t w ∧ x + w ≤ line.maxWidth

/-- The text may be measured so that it ends beyond the right edge. -/
def Exceeds (answer : Text → Length → Prop) (line : Line) (x : Length) (t : Text) : Prop :=
  ∃ w, answer t w ∧ ¬x + w ≤ line.maxWidth

/-- The layouts of a text from a pen to a pen, when texts are measured as
    `answer` allows. -/
inductive Layout (answer : Text → Length → Prop) (line : Line) :
    Text → Pen → List Step → Pen → Prop
  /-- Nothing is left. -/
  | done (pen : Pen) : Layout answer line [] pen [] pen
  /-- As many units as fit are drawn. -/
  | segment {text : Text} {pen last : Pen} {steps : List Step} {k : Nat} {w : Length} :
    0 < k → k ≤ (units text).length → answer (firstUnits text k) w →
      (∀ j, 0 < j → j ≤ k → Fits answer line pen.x (firstUnits text j)) →
      (k = (units text).length ∨ Exceeds answer line pen.x (firstUnits text (k + 1))) →
      Layout answer line (afterUnits text k) { pen with x := pen.x + w } steps last →
      Layout answer line text pen (.segment (firstUnits text k) pen :: steps) last
  /-- A unit that does not fit on an empty line is drawn, and the line ends. -/
  | forced {text : Text} {pen last : Pen} {steps : List Step} {w : Length} :
    text ≠ [] → pen.x = line.baseX → answer (cutUnit text).1 w → ¬pen.x + w ≤ line.maxWidth →
      Layout answer line (skipSpaces (cutUnit text).2) (line.below pen) steps last →
      Layout answer line text pen
        (.forced (cutUnit text).1 pen w (line.maxWidth - pen.x) ::
          .lineBreak ((cutUnit text).2.takeWhile isSpace) (line.below pen).y :: steps) last
  /-- A unit that does not fit behind something else waits for the next line. -/
  | broken {text : Text} {pen last : Pen} {steps : List Step} :
    text ≠ [] → pen.x ≠ line.baseX → Exceeds answer line pen.x (cutUnit text).1 →
      Layout answer line (skipSpaces text) (line.below pen) steps last →
      Layout answer line text pen
        (.lineBreak (text.takeWhile isSpace) (line.below pen).y :: steps) last

variable {σ : Type} [Surface σ] {answer : Text → Length → Prop} {line : Line} {x : Length}
  {text : Text}

/-! ## Growing a segment -/

/-- A growing segment: it has taken the first `k` units of the text, and each
    time the units taken so far did fit. -/
structure Grown (answer : Text → Length → Prop) (line : Line) (x : Length) (text : Text) (k : Nat)
    (taken : Text) (width : Length) (rest : Text) (s : σ) : Prop where
  le : k ≤ (units text).length
  taken_eq : taken = firstUnits text k
  rest_eq : rest = afterUnits text k
  width : 0 < k → answer taken width
  fits : ∀ j, 0 < j → j ≤ k → Fits answer line x (firstUnits text j)
  answers : Surface.Answers answer s

/-- With nothing taken yet, nothing has to fit. -/
theorem Grown.zero {s : σ} (hs : Surface.Answers answer s) :
    Grown answer line x text 0 [] 0 text s where
  le := Nat.zero_le _
  taken_eq := rfl
  rest_eq := (afterUnits_zero text).symm
  width h := absurd h (Nat.lt_irrefl 0)
  fits j hj hj' := absurd hj (by omega)
  answers := hs

variable {k : Nat} {taken rest : Text} {width : Length} {s : σ}

theorem Grown.append_unit (h : Grown answer line x text k taken width rest s) :
    taken ++ (cutUnit rest).1 = firstUnits text (k + 1) := by
  rw [h.taken_eq, h.rest_eq, firstUnits_succ]

/-- The segment takes one more unit that fits. -/
theorem Grown.step (h : Grown answer line x text k taken width rest s)
    (hf : rest ≠ [] ∧ x + (Surface.measureText (taken ++ (cutUnit rest).1) s).1 ≤ line.maxWidth) :
    Grown answer line x text (k + 1) (taken ++ (cutUnit rest).1)
      (Surface.measureText (taken ++ (cutUnit rest).1) s).1 (cutUnit rest).2
      (Surface.measureText (taken ++ (cutUnit rest).1) s).2 where
  le := by
    rw [h.rest_eq, Ne, afterUnits_eq_nil_iff] at hf
    omega
  taken_eq := h.append_unit
  rest_eq := by rw [h.rest_eq, afterUnits_succ]
  width _ := h.answers.here _
  fits j hj hj' := by
    rcases Nat.lt_or_eq_of_le hj' with hj' | rfl
    · exact h.fits j hj (Nat.le_of_lt_succ hj')
    · exact ⟨_, h.append_unit ▸ h.answers.here _, hf.2⟩
  answers := h.answers.measureText _

/-- A segment that does not grow any more has taken some units, and one more has
    been measured. -/
theorem Grown.grow (h : Grown answer line x text k taken width rest s) {fit : Fit σ}
    (hfit : grow line x taken width rest s = fit) :
    ∃ k', Grown answer line x text k' fit.taken fit.width fit.rest fit.surface ∧
      answer (firstUnits text (k' + 1)) fit.nextWidth := by
  subst hfit
  fun_induction Wrap.grow line x taken width rest s generalizing k with
  | case1 taken width rest s unit measured hf =>
    rename_i ih
    exact ih (h.step hf)
  | case2 taken width rest s unit measured =>
    have ha := h.answers.measureText (taken ++ unit)
    exact ⟨k, { h with answers := ha }, h.append_unit ▸ h.answers.here _⟩

/-- A segment with nothing left has taken all units. -/
theorem Grown.eq_length (h : Grown answer line x text k taken width rest s) (hr : rest = []) :
    k = (units text).length := by
  rw [h.rest_eq, afterUnits_eq_nil_iff] at hr
  exact Nat.le_antisymm h.le hr

/-- Where nothing fits, the first unit does not. -/
theorem exceeds_of_taken_eq_nil (hs : Surface.Answers answer s) (ht : text ≠ []) {fit : Fit σ}
    (hfit : grow line x [] 0 text s = fit) (hn : fit.taken = []) :
    answer (cutUnit text).1 fit.nextWidth ∧ ¬x + fit.nextWidth ≤ line.maxWidth ∧
      Surface.Answers answer fit.surface := by
  obtain ⟨k, hg, hw⟩ := (Grown.zero hs).grow hfit
  obtain rfl : k = 0 := by
    by_contra hk
    exact firstUnits_ne_nil (Nat.pos_of_ne_zero hk) ht (hg.taken_eq.symm.trans hn)
  rw [firstUnits_succ, afterUnits_zero] at hw
  have hstop := (grow_stops line x [] 0 text s hfit).2
  rw [rest_of_taken_eq_nil hfit hn] at hstop
  exact ⟨hw, fun hf => hstop ⟨ht, hf⟩, hg.answers⟩

/-- What fits is a number of units, and another one does not fit. -/
theorem units_of_taken_ne_nil (hs : Surface.Answers answer s) {fit : Fit σ}
    (hfit : grow line x [] 0 text s = fit) (hn : fit.taken ≠ []) :
    ∃ k, 0 < k ∧ Grown answer line x text k fit.taken fit.width fit.rest fit.surface ∧
      (k = (units text).length ∨ Exceeds answer line x (firstUnits text (k + 1))) := by
  obtain ⟨k, hg, hw⟩ := (Grown.zero hs).grow hfit
  refine ⟨k, Nat.pos_of_ne_zero ?_, hg, ?_⟩
  · rintro rfl
    exact hn hg.taken_eq
  · by_cases hr : fit.rest = []
    · exact .inl (hg.eq_length hr)
    · exact .inr ⟨_, hw, fun hf => (grow_stops line x [] 0 text s hfit).2 ⟨hr, hf⟩⟩

/-- Whatever a surface answers, the steps are a layout of the text. -/
theorem layout_wrap (line : Line) (text : Text) (pen : Pen) {s : σ}
    (hs : Surface.Answers answer s) :
    Layout answer line text pen (wrap line text pen s).steps (wrap line text pen s).pen := by
  fun_induction wrap line text pen s with
  | case1 pen s => exact .done pen
  | case2 text pen s ht fit hf next hx s' later ih =>
    have hfit : grow line pen.x [] 0 text s = fit := rfl
    obtain ⟨hw, hmax, ha⟩ := exceeds_of_taken_eq_nil hs ht hfit hf
    exact unit_of_taken_eq_nil hfit hf ▸ .forced ht hx hw hmax (ih (ha.fillText _ _ _))
  | case3 text pen s ht fit hf next hx ih =>
    have hfit : grow line pen.x [] 0 text s = fit := rfl
    obtain ⟨hw, hmax, ha⟩ := exceeds_of_taken_eq_nil hs ht hfit hf
    exact .broken ht hx ⟨_, hw, hmax⟩ (ih ha)
  | case4 text pen s ht fit hf s' ih =>
    have hfit : grow line pen.x [] 0 text s = fit := rfl
    obtain ⟨k, hk, hg, hmax⟩ := units_of_taken_ne_nil hs hfit hf
    have hl := ih (hg.answers.fillText fit.taken pen.x pen.y)
    have h := Layout.segment hk hg.le (hg.taken_eq ▸ hg.width hk) hg.fits hmax (hg.rest_eq ▸ hl)
    rw [← hg.taken_eq, ← hg.rest_eq] at h
    exact h

/-! ## Decisions -/

/-- The pen after a step, when `m` measures. -/
def Step.penAfter (m : Text → Length) (line : Line) (pen : Pen) : Step → Pen
  | segment text _ => { pen with x := pen.x + m text }
  | forced _ _ _ _ => pen
  | lineBreak _ _ => line.below pen

/-- The pen after some steps, when `m` measures. -/
def penAfter (m : Text → Length) (line : Line) (pen : Pen) (steps : List Step) : Pen :=
  steps.foldl (Step.penAfter m line) pen

/-- The last step is a forced one. -/
def EndsForced (steps : List Step) : Prop :=
  ∃ before text pen width room, steps = before ++ [.forced text pen width room]

/-- A step from `pen` with `rest` left, after the steps `before`, is the greedy
    one, when `m` measures.

    * A segment is drawn at the pen. It is a number of units, at least one, it
      fits with each smaller number of them, and it ends with the text or before
      a unit with which it would not fit.
    * A forced unit is drawn at the pen, at the start of a line, and is the next
      unit, which does not fit there.
    * A line that is not ended by a forced unit is left from a pen that is not at
      the start of a line, before a unit that does not fit at the pen. -/
def Greedy (m : Text → Length) (line : Line) (pen : Pen) (rest : Text) (before : List Step) :
    Step → Prop
  | .segment text place =>
    place = pen ∧ ∃ k, 0 < k ∧ k ≤ (units rest).length ∧ text = firstUnits rest k ∧
      (∀ j, 0 < j → j ≤ k → pen.x + m (firstUnits rest j) ≤ line.maxWidth) ∧
      (k = (units rest).length ∨ line.maxWidth < pen.x + m (firstUnits rest (k + 1)))
  | .forced text place _ _ =>
    place = pen ∧ pen.x = line.baseX ∧ rest ≠ [] ∧ text = (cutUnit rest).1 ∧
      line.maxWidth < line.baseX + m text
  | .lineBreak _ _ =>
    EndsForced before ∨
      pen.x ≠ line.baseX ∧ rest ≠ [] ∧ line.maxWidth < pen.x + m (cutUnit rest).1

variable {m : Text → Length} {pen last : Pen} {before before' after : List Step} {step : Step}

theorem endsForced_iff {steps : List Step} :
    EndsForced steps ↔ ∃ step ∈ steps.getLast?, step.isForced := by
  constructor
  · rintro ⟨init, text, place, width, room, rfl⟩
    exact ⟨_, List.getLast?_concat, rfl⟩
  · rintro ⟨step, hs, hf⟩
    obtain ⟨init, rfl⟩ := List.getLast?_eq_some_iff.mp hs
    cases step with
    | forced text place width room => exact ⟨init, text, place, width, room, rfl⟩
    | _ => cases hf

/-- Only the last step counts. -/
theorem endsForced_cons (h : before ≠ [] ∨ step.isForced = false) :
    EndsForced (step :: before) ↔ EndsForced before := by
  rw [endsForced_iff, endsForced_iff]
  cases before with
  | nil => simp [h.resolve_left (· rfl)]
  | cons b before => rw [List.getLast?_cons_cons]

/-- How a layout goes on behind the steps `before`: as a layout of what is left, or,
    behind a forced unit, with the line break that the unit causes. -/
inductive Onward (m : Text → Length) (line : Line) (before : List Step) :
    Text → Pen → List Step → Pen → Prop
  | layout {rest : Text} {pen last : Pen} {after : List Step} :
    ¬EndsForced before → Layout (fun t w => w = m t) line rest pen after last →
      Onward m line before rest pen after last
  | lineBreak {rest : Text} {pen last : Pen} {later : List Step} :
    EndsForced before →
      Layout (fun t w => w = m t) line (skipSpaces rest) (line.below pen) later last →
      Onward m line before rest pen
        (.lineBreak (rest.takeWhile isSpace) (line.below pen).y :: later) last

theorem Onward.of_iff {rest : Text} (he : EndsForced before' ↔ EndsForced before)
    (h : Onward m line before rest pen after last) : Onward m line before' rest pen after last := by
  cases h with
  | layout hn hl => exact .layout (he.not.mpr hn) hl
  | lineBreak hf hl => exact .lineBreak (he.mpr hf) hl

/-- Steps before a layout that the pen and the text are already behind. -/
theorem Onward.cons {rest : Text} (step : Step) (h : before ≠ [] ∨ step.isForced = false)
    (ho : Onward m line before rest pen after last) :
    Onward m line (step :: before) rest pen after last := ho.of_iff (endsForced_cons h)

/-- The first steps of a layout cover the beginning of the text, and the layout goes on
    with the rest. -/
theorem Layout.onward
    (h : Layout (fun t w => w = m t) line text pen (before ++ after) last) :
    ∃ rest, text = covered before ++ rest ∧
      Onward m line before rest (penAfter m line pen before) after last := by
  -- The induction is on the layout; `before` loses its steps with it.
  have hnil : ¬EndsForced [] := fun he => by simp [endsForced_iff] at he
  generalize hs : before ++ after = steps at h
  induction h generalizing before with
  | done pen =>
    obtain ⟨rfl, rfl⟩ := List.append_eq_nil_iff.mp hs
    exact ⟨[], rfl, .layout hnil (.done pen)⟩
  | @segment text pen last steps k w hk hle hw hfits hmax hlater ih =>
    cases before with
    | nil =>
      cases hs
      exact ⟨text, rfl, .layout hnil (.segment hk hle hw hfits hmax hlater)⟩
    | cons b before =>
      rw [List.cons_append, List.cons.injEq] at hs
      obtain ⟨rfl, hs⟩ := hs
      obtain ⟨rest, he, ho⟩ := ih hs
      subst hw
      refine ⟨rest, ?_, ho.cons _ (.inr rfl)⟩
      rw [covered_cons, List.append_assoc, ← he]
      exact (firstUnits_append_afterUnits text k).symm
  | @forced text pen last steps w ht hx hw hmax hlater ih =>
    -- A forced unit comes with two steps: itself and the line break it causes.
    match before with
    | [] =>
      cases hs
      exact ⟨text, rfl, .layout hnil (.forced ht hx hw hmax hlater)⟩
    | [b] =>
      cases hs
      refine ⟨(cutUnit text).2, ?_, .lineBreak ⟨[], _, _, _, _, rfl⟩ hlater⟩
      rw [covered_cons, covered_nil, List.append_nil]
      exact (cutUnit_append text).symm
    | b :: b' :: before =>
      rw [List.cons_append, List.cons_append, List.cons.injEq, List.cons.injEq] at hs
      obtain ⟨rfl, rfl, hs⟩ := hs
      obtain ⟨rest, he, ho⟩ := ih hs
      refine ⟨rest, ?_, (ho.cons _ (.inr rfl)).cons _ (.inl (List.cons_ne_nil _ _))⟩
      rw [covered_cons, covered_cons, List.append_assoc, List.append_assoc, ← he]
      exact ((congrArg _ (takeWhile_append_skipSpaces _)).trans (cutUnit_append text)).symm
  | @broken text pen last steps ht hx hmax hlater ih =>
    cases before with
    | nil =>
      cases hs
      exact ⟨text, rfl, .layout hnil (.broken ht hx hmax hlater)⟩
    | cons b before =>
      rw [List.cons_append, List.cons.injEq] at hs
      obtain ⟨rfl, hs⟩ := hs
      obtain ⟨rest, he, ho⟩ := ih hs
      refine ⟨rest, ?_, ho.cons _ (.inr rfl)⟩
      rw [covered_cons, List.append_assoc, ← he]
      exact (takeWhile_append_skipSpaces text).symm

/-- The steps before any step of a layout cover the beginning of the text, and
    the step is greedy. -/
theorem Layout.greedy
    (h : Layout (fun t w => w = m t) line text pen (before ++ step :: after) last) :
    ∃ rest, text = covered before ++ rest ∧
      Greedy m line (penAfter m line pen before) rest before step := by
  obtain ⟨rest, he, ho⟩ := h.onward
  refine ⟨rest, he, ?_⟩
  cases ho with
  | lineBreak hf => exact .inl hf
  | layout hn hl =>
    cases hl with
    | @segment _ _ _ _ k w hk hle hw hfits hmax =>
      refine ⟨rfl, k, hk, hle, rfl, fun j hj hj' => ?_, hmax.imp_right ?_⟩
      · obtain ⟨_, rfl, hf⟩ := hfits j hj hj'
        exact hf
      · rintro ⟨_, rfl, hf⟩
        exact Length.not_le.mp hf
    | forced ht hx hw hmax =>
      subst hw
      exact ⟨rfl, hx, ht, rfl, Length.not_le.mp (hx ▸ hmax)⟩
    | broken ht hx hmax =>
      obtain ⟨_, rfl, hf⟩ := hmax
      exact .inr ⟨hx, ht, Length.not_le.mp hf⟩

/-- On a surface that measures by a function, the calls are those of the steps,
    and every single step is the greedy one: it is taken where the steps before
    it have led, at the end of what they cover of the text. -/
theorem wrap_greedy (line : Line) (text : Text) (pen : Pen) (m : Text → Length) (s : σ)
    (calls : List SurfaceCall) (hs : Surface.IsPure m s) :
    (wrap line text pen (⟨s, calls⟩ : Traced σ)).surface.calls =
        calls ++ fills (wrap line text pen s).steps ∧
      ∀ before step after, (wrap line text pen s).steps = before ++ step :: after →
        ∃ rest, text = covered before ++ rest ∧
          Greedy m line (penAfter m line pen before) rest before step := by
  refine ⟨by rw [wrap_traced]; rfl, fun before step after he => ?_⟩
  have hl := layout_wrap line text pen hs
  rw [he] at hl
  exact hl.greedy

/-- Case: a word of three pixels, forced on a line of two. -/
theorem wrap_greedy_forced :
    let r : Recorder := { width := fun t => .ofPixels t.length }
    let line : Line := ⟨0, .ofPixels 2, .ofPixels 1⟩
    let step : Step := .forced ['a', 'b', 'c'] ⟨0, 0⟩ (.ofPixels 3) (line.maxWidth - 0)
    Surface.IsPure r.width r ∧
      (wrap line ['a', 'b', 'c'] ⟨0, 0⟩ r).steps = [] ++ step :: [.lineBreak [] (0 + line.height)] ∧
      ∃ rest, ['a', 'b', 'c'] = covered [] ++ rest ∧
        Greedy r.width line (penAfter r.width line ⟨0, 0⟩ []) rest [] step := by
  intro r line step
  have hs : (wrap line ['a', 'b', 'c'] ⟨0, 0⟩ r).steps =
      [] ++ step :: [.lineBreak [] (0 + line.height)] := by
    rw [wrap_forced (by decide) (grow_of_not_fits (by decide)) rfl rfl,
      show skipSpaces (cutUnit ['a', 'b', 'c']).2 = [] from rfl, wrap_nil]
    rfl
  exact ⟨r.isPure, hs, (wrap_greedy line _ _ r.width r [] r.isPure).2 _ _ _ hs⟩

end Wrap

end Lettering
