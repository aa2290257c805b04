import Lettering.Proofs.Length.Sums
import Lettering.Proofs.Wrap.Greedy
import Mathlib.Data.List.DropRight

/-!
# Placing units

When the width of a text is the sum of the widths of its characters, it makes no
difference that wrapping measures whole segments. Every unit is placed by itself,
and where it goes depends only on the place that the units before it have led to:
how many lines were broken, how far the pen is, and whether spaces are being
skipped (`Place.put`).

* `Layout.putAll_eq`: in a layout the units of a text are placed one after the
  other.
* `wrapAll_eq`: so they are when texts are wrapped in turn with one pen, spaces not
  being skipped any more where a text starts.
-/

namespace Lettering

namespace Wrap

/-- The width of a text whose characters are as wide as `w` says. -/
def widthOf (w : Char → Length) (t : Text) : Length := .sum (t.map w)

/-- The exact width of a text, in thousandths. -/
def extentOf (w : Char → Length) (t : Text) : Int := Length.extent (t.map w)

theorem extentOf_append (w : Char → Length) (t u : Text) :
    extentOf w (t ++ u) = extentOf w t + extentOf w u := by
  rw [extentOf, List.map_append, Length.extent_append]
  rfl

section Widths

variable {w : Char → Length} (hw : ∀ c, 0 ≤ w c)

include hw

theorem forall_mem_map_nonneg (t : Text) : ∀ p ∈ t.map w, 0 ≤ p := by
  intro p hp
  obtain ⟨c, -, rfl⟩ := List.mem_map.mp hp
  exact hw c

theorem extentOf_le_append (t u : Text) : extentOf w t ≤ extentOf w (t ++ u) := by
  have hu : 0 ≤ extentOf w u := Length.extent_nonneg (forall_mem_map_nonneg hw u)
  rw [extentOf_append]
  omega

theorem extentOf_le_append_left (t u : Text) : extentOf w u ≤ extentOf w (t ++ u) := by
  have ht : 0 ≤ extentOf w t := Length.extent_nonneg (forall_mem_map_nonneg hw t)
  rw [extentOf_append]
  omega

/-- A text that is not too wide to be measured may be measured in two parts. -/
theorem add_widthOf_append (x : Length) {t u : Text} (h : extentOf w (t ++ u) ≤ Length.bound) :
    x + widthOf w (t ++ u) = x + widthOf w t + widthOf w u := by
  rw [extentOf, List.map_append] at h
  rw [widthOf, List.map_append]
  exact Length.add_sum_append x (forall_mem_map_nonneg hw t) (forall_mem_map_nonneg hw u) h

end Widths

/-- A unit that is a space. -/
def isBlank (u : Text) : Bool := u.all isSpace

/-- The number of lines that are broken. -/
def breaks (steps : List Step) : Nat := steps.countP Step.isLineBreak

@[simp] theorem breaks_segment (text : Text) (pen : Pen) (steps : List Step) :
    breaks (.segment text pen :: steps) = breaks steps := List.countP_cons_of_neg Bool.false_ne_true

@[simp] theorem breaks_forced (text : Text) (pen : Pen) (width room : Length) (steps : List Step) :
    breaks (.forced text pen width room :: steps) = breaks steps :=
  List.countP_cons_of_neg Bool.false_ne_true

@[simp] theorem breaks_lineBreak (skipped : Text) (y : Length) (steps : List Step) :
    breaks (.lineBreak skipped y :: steps) = breaks steps + 1 := List.countP_cons_of_pos rfl

theorem breaks_append (steps later : List Step) :
    breaks (steps ++ later) = breaks steps + breaks later := List.countP_append

/-- Where the next unit would go: behind a number of line breaks, at `x`, and
    whether only spaces came since the last break. -/
structure Place where
  breaks : Nat
  x : Length
  skipping : Bool
deriving DecidableEq, Repr

namespace Place

/-- The start of a line at `base`, right behind a line break. -/
def atStart (base : Length) (breaks : Nat) : Place := ⟨breaks, base, true⟩

/-- A unit that a line break comes before. It is skipped if it is a space, and it
    ends the line if it does not fit there either. -/
def putFirst (m : Text → Length) (line : Line) (breaks : Nat) (u : Text) : Place :=
  if isBlank u then atStart line.baseX breaks
  else if line.baseX + m u ≤ line.maxWidth then ⟨breaks, line.baseX + m u, false⟩
  else atStart line.baseX (breaks + 1)

/-- The place behind a unit, when `m` measures. A unit that does not fit is forced
    at the start of a line, and goes to the next line elsewhere. -/
def put (m : Text → Length) (line : Line) (p : Place) (u : Text) : Place :=
  if p.skipping ∧ isBlank u then p
  else if p.x + m u ≤ line.maxWidth then ⟨p.breaks, p.x + m u, false⟩
  else if p.x = line.baseX then atStart line.baseX (p.breaks + 1)
  else putFirst m line (p.breaks + 1) u

/-- The place behind units. -/
def putAll (m : Text → Length) (line : Line) (p : Place) (us : List Text) : Place :=
  us.foldl (put m line) p

variable {m : Text → Length} {line : Line} {p : Place} {u : Text}

@[simp] theorem putAll_nil (p : Place) : putAll m line p [] = p := rfl

@[simp] theorem putAll_cons (p : Place) (u : Text) (us : List Text) :
    putAll m line p (u :: us) = putAll m line (put m line p u) us := rfl

theorem putAll_append (p : Place) (us vs : List Text) :
    putAll m line p (us ++ vs) = putAll m line (putAll m line p us) vs := List.foldl_append

theorem put_of_skipped (h : p.skipping ∧ isBlank u) : put m line p u = p := if_pos h

theorem put_of_fits (hs : ¬(p.skipping ∧ isBlank u)) (h : p.x + m u ≤ line.maxWidth) :
    put m line p u = ⟨p.breaks, p.x + m u, false⟩ := by
  rw [put, if_neg hs, if_pos h]

theorem put_of_forced (hs : ¬(p.skipping ∧ isBlank u)) (h : ¬p.x + m u ≤ line.maxWidth)
    (hx : p.x = line.baseX) : put m line p u = atStart line.baseX (p.breaks + 1) := by
  rw [put, if_neg hs, if_neg h, if_pos hx]

/-- Behind a line break a unit is put as one that the break comes before. -/
theorem put_atStart (b : Nat) (u : Text) :
    put m line (atStart line.baseX b) u = putFirst m line b u := by
  by_cases hu : isBlank u
  · rw [put_of_skipped ⟨rfl, hu⟩, putFirst, if_pos hu]
  · have hs : ¬((atStart line.baseX b).skipping ∧ isBlank u) := fun h => hu h.2
    rw [putFirst, if_neg hu]
    by_cases hf : line.baseX + m u ≤ line.maxWidth
    · rw [put_of_fits hs hf, if_pos hf]
      rfl
    · rw [put_of_forced hs hf rfl, if_neg hf]
      rfl

/-- A unit that does not fit behind something else is put at the start of the next
    line. -/
theorem put_of_broken (hs : ¬(p.skipping ∧ isBlank u)) (h : ¬p.x + m u ≤ line.maxWidth)
    (hx : p.x ≠ line.baseX) :
    put m line p u = put m line (atStart line.baseX (p.breaks + 1)) u := by
  rw [put_atStart, put, if_neg hs, if_neg h, if_neg hx]

/-! ## Spaces behind a line break -/

/-- Behind a line break spaces are skipped. -/
theorem putAll_units_atStart (b : Nat) (t : Text) :
    putAll m line (atStart line.baseX b) (units t) =
      putAll m line (atStart line.baseX b) (units (skipSpaces t)) := by
  induction t with
  | nil => rfl
  | cons c t ih =>
    rw [skipSpaces, List.dropWhile_cons]
    by_cases hc : isSpace c
    · have hcut : cutUnit (c :: t) = ([c], t) := by
        rw [cutUnit, if_pos]
        simp [isBreak, hc]
      have hb : isBlank [c] := by simp [isBlank, hc]
      rw [if_pos hc, units_of_ne_nil (List.cons_ne_nil c t), hcut, putAll_cons,
        put_of_skipped ⟨rfl, hb⟩]
      exact ih
    · rw [if_neg hc]

theorem skipSpaces_skipSpaces (t : Text) : skipSpaces (skipSpaces t) = skipSpaces t :=
  List.dropWhile_idempotent ..

/-- A text that does not start with a space has a first unit that is none. -/
theorem not_isBlank_cutUnit {t : Text} (ht : t ≠ []) (h : skipSpaces t = t) :
    ¬isBlank (cutUnit t).1 := by
  cases t with
  | nil => exact absurd rfl ht
  | cons c r =>
    have hc : ¬isSpace c := fun hc => by
      have hl := length_skipSpaces_le r
      rw [skipSpaces, List.dropWhile_cons, if_pos hc] at h
      have := congrArg List.length h
      rw [List.length_cons] at this
      simp only [skipSpaces] at hl
      omega
    rw [cutUnit]
    split <;> simp [isBlank, hc]

/-! ## Units that fit -/

/-- Units that fit one after the other are put side by side. -/
theorem putAll_of_fits {w : Char → Length} (hw : ∀ c, 0 ≤ w c) {us : List Text} (hne : us ≠ [])
    {p : Place} (hs : ∀ u ∈ us.head?, ¬(p.skipping ∧ isBlank u))
    (hr : extentOf w us.flatten ≤ Length.bound)
    (hf : ∀ j, 0 < j → j ≤ us.length → p.x + widthOf w (us.take j).flatten ≤ line.maxWidth) :
    putAll (widthOf w) line p us = ⟨p.breaks, p.x + widthOf w us.flatten, false⟩ := by
  induction us generalizing p with
  | nil => exact absurd rfl hne
  | cons u us ih =>
    have hfu : p.x + widthOf w u ≤ line.maxWidth := by
      have h := hf 1 Nat.one_pos (Nat.succ_le_succ (Nat.zero_le _))
      rwa [List.take_succ_cons, List.take_zero, List.flatten_singleton] at h
    rw [List.flatten_cons] at hr
    rw [putAll_cons, put_of_fits (hs u rfl) hfu, List.flatten_cons]
    by_cases hus : us = []
    · rw [hus, List.flatten_nil, List.append_nil, putAll_nil]
    · rw [ih hus, add_widthOf_append hw p.x hr]
      · exact fun _ _ h => Bool.false_ne_true h.1
      · exact Int.le_trans (extentOf_le_append_left hw u us.flatten) hr
      · intro j hj hj'
        -- What has come so far is measured in two parts: the first unit, and the rest.
        have h := hf (j + 1) (Nat.succ_pos j) (Nat.succ_le_succ hj')
        have hj : extentOf w (u ++ (us.take j).flatten) ≤ Length.bound := by
          have hl := extentOf_le_append hw (u ++ (us.take j).flatten) (us.drop j).flatten
          rw [List.append_assoc, ← List.flatten_append, List.take_append_drop] at hl
          exact Int.le_trans hl hr
        rw [List.take_succ_cons, List.flatten_cons, add_widthOf_append hw p.x hj] at h
        exact h

end Place

/-! ## Layouts -/

/-- No segment is too wide to be measured exactly. -/
def InRange (w : Char → Length) (steps : List Step) : Prop :=
  ∀ text pen, .segment text pen ∈ steps → extentOf w text ≤ Length.bound

variable {w : Char → Length} {line : Line} {text : Text} {pen last : Pen} {steps : List Step}

theorem InRange.tail {step : Step} (h : InRange w (step :: steps)) : InRange w steps :=
  fun text pen hm => h text pen (List.mem_cons_of_mem _ hm)

/-- The steps of a layout cover its text. -/
theorem Layout.covered_eq {answer : Text → Length → Prop}
    (h : Layout answer line text pen steps last) : covered steps = text := by
  induction h with
  | done => rfl
  | @segment text _ _ _ k _ _ _ _ _ _ _ ih =>
    rw [covered_cons, ih]
    exact firstUnits_append_afterUnits text k
  | @forced text _ _ _ _ _ _ _ _ _ ih =>
    rw [covered_cons, covered_cons, ih]
    exact (congrArg _ (takeWhile_append_skipSpaces _)).trans (cutUnit_append text)
  | @broken text _ _ _ _ _ _ _ ih =>
    rw [covered_cons, ih]
    exact takeWhile_append_skipSpaces text

/-- Where a text is not too wide, no segment of it is. -/
theorem Layout.inRange {answer : Text → Length → Prop} (hw : ∀ c, 0 ≤ w c)
    (h : Layout answer line text pen steps last) (hr : extentOf w text ≤ Length.bound) :
    InRange w steps := by
  intro t p hm
  obtain ⟨before, after, rfl⟩ := List.append_of_mem hm
  have hc : text = covered before ++ t ++ covered after := by
    rw [← h.covered_eq, covered_append, covered_cons, ← List.append_assoc]
    rfl
  rw [hc] at hr
  calc extentOf w t ≤ extentOf w (covered before ++ t) := extentOf_le_append_left hw _ t
    _ ≤ extentOf w (covered before ++ t ++ covered after) := extentOf_le_append hw _ _
    _ ≤ Length.bound := hr

/-- In a layout the units of the text are placed one after the other. -/
theorem Layout.putAll_eq (hw : ∀ c, 0 ≤ w c)
    (h : Layout (fun t v => v = widthOf w t) line text pen steps last) (hr : InRange w steps)
    (b : Nat) (skipping : Bool) (hs : skipping = true → skipSpaces text = text) :
    ∃ skipping', Place.putAll (widthOf w) line ⟨b, pen.x, skipping⟩ (units text) =
      ⟨b + breaks steps, last.x, skipping'⟩ := by
  induction h generalizing b skipping with
  | done pen => exact ⟨skipping, by rw [units_nil]; rfl⟩
  | @segment text pen last steps k v hk hle hv hf _ _ ih =>
    subst hv
    have ht : text ≠ [] := by
      rintro rfl
      rw [units_nil, List.length_nil] at hle
      omega
    have hl : ((units text).take k).length = k := List.length_take_of_le hle
    -- The units of the segment go behind one another, and the rest behind them.
    have hfirst : Place.putAll (widthOf w) line ⟨b, pen.x, skipping⟩ ((units text).take k) =
        ⟨b, pen.x + widthOf w (firstUnits text k), false⟩ := by
      refine Place.putAll_of_fits hw (List.ne_nil_of_length_pos (by rwa [hl])) ?_
        (hr _ pen List.mem_cons_self) fun j hj hj' => ?_
      · intro u hu
        rw [List.head?_take, if_neg (Nat.ne_of_gt hk), units_of_ne_nil ht] at hu
        obtain rfl := Option.some.inj hu
        exact fun h => Place.not_isBlank_cutUnit ht (hs h.1) h.2
      · rw [hl] at hj'
        obtain ⟨_, rfl, hfit⟩ := hf j hj hj'
        rwa [List.take_take, Nat.min_eq_left hj']
    obtain ⟨skipping', hp⟩ := ih hr.tail b false fun h => absurd h Bool.false_ne_true
    refine ⟨skipping', ?_⟩
    rw [← List.take_append_drop k (units text), Place.putAll_append, hfirst, breaks_segment, ← hp,
      units_afterUnits]
  | @forced text pen last steps v ht hx hv hmax _ ih =>
    subst hv
    have hu : ¬((⟨b, pen.x, skipping⟩ : Place).skipping ∧ isBlank (cutUnit text).1) :=
      fun h => Place.not_isBlank_cutUnit ht (hs h.1) h.2
    obtain ⟨skipping', hp⟩ := ih hr.tail.tail (b + 1) true fun _ => Place.skipSpaces_skipSpaces _
    refine ⟨skipping', ?_⟩
    rw [units_of_ne_nil ht, Place.putAll_cons, Place.put_of_forced hu hmax hx,
      Place.putAll_units_atStart, breaks_forced, breaks_lineBreak, Nat.add_comm (breaks steps),
      ← Nat.add_assoc]
    exact hp
  | @broken text pen last steps ht hx hmax _ ih =>
    obtain ⟨_, rfl, hmax⟩ := hmax
    have hu : ¬((⟨b, pen.x, skipping⟩ : Place).skipping ∧ isBlank (cutUnit text).1) :=
      fun h => Place.not_isBlank_cutUnit ht (hs h.1) h.2
    obtain ⟨skipping', hp⟩ := ih hr.tail (b + 1) true fun _ => Place.skipSpaces_skipSpaces _
    refine ⟨skipping', ?_⟩
    -- The unit is put as if the line break had been there before it.
    rw [units_of_ne_nil ht, Place.putAll_cons, Place.put_of_broken hu hmax hx, ← Place.putAll_cons,
      ← units_of_ne_nil ht, Place.putAll_units_atStart, breaks_lineBreak,
      Nat.add_comm (breaks steps), ← Nat.add_assoc]
    exact hp

/-! ## Texts in turn -/

section Texts

variable {σ : Type} [Surface σ]

/-- Draws texts one after the other, each from where the one before it has left the
    pen. -/
def wrapAll (line : Line) : List Text → Pen → σ → Wrapped σ
  | [], pen, s => ⟨[], pen, s⟩
  | text :: later, pen, s =>
    let w := wrap line text pen s
    (wrapAll line later w.pen w.surface).precededBy w.steps

variable {answer : Text → Length → Prop} {s : σ}

theorem answers_grow (hs : Surface.Answers answer s) (line : Line) (x : Length) (taken : Text)
    (width : Length) (rest : Text) :
    Surface.Answers answer (grow line x taken width rest s).surface := by
  fun_induction grow line x taken width rest s with
  | case1 =>
    rename_i ih
    exact ih (hs.measureText _)
  | case2 => exact hs.measureText _

/-- A surface answers as before when a text has been drawn on it. -/
theorem answers_wrap (hs : Surface.Answers answer s) (line : Line) (text : Text) (pen : Pen) :
    Surface.Answers answer (wrap line text pen s).surface := by
  fun_induction wrap line text pen s with
  | case1 => exact hs
  | case2 text pen s ht fit hf next hx s' later ih =>
    exact ih ((answers_grow hs line pen.x [] 0 text).fillText _ _ _)
  | case3 text pen s ht fit hf next hx ih => exact ih (answers_grow hs line pen.x [] 0 text)
  | case4 text pen s ht fit hf s' ih =>
    exact ih ((answers_grow hs line pen.x [] 0 text).fillText _ _ _)

/-- Where no text is too wide, no segment is. -/
theorem wrapAll_inRange (hw : ∀ c, 0 ≤ w c) (hs : Surface.Answers answer s) {texts : List Text}
    (hr : ∀ t ∈ texts, extentOf w t ≤ Length.bound) (line : Line) (pen : Pen) :
    InRange w (wrapAll line texts pen s).steps := by
  induction texts generalizing pen s with
  | nil => exact fun _ _ hm => absurd hm List.not_mem_nil
  | cons text later ih =>
    intro t p hm
    rcases List.mem_append.mp hm with hm | hm
    · exact (layout_wrap line text pen hs).inRange hw (hr text List.mem_cons_self) t p hm
    · have hl := fun t ht => hr t (List.mem_cons_of_mem text ht)
      exact ih (answers_wrap hs line text pen) hl _ t p hm

/-- The place behind the units of texts, where a text starts spaces not being
    skipped any more. -/
def Place.putTexts (m : Text → Length) (line : Line) (p : Place) (texts : List Text) : Place :=
  texts.foldl (fun p t => putAll m line { p with skipping := false } (units t)) p

/-- Wrapping texts in turn is placing their units. -/
theorem wrapAll_eq (hw : ∀ c, 0 ≤ w c) (line : Line) (texts : List Text) (pen : Pen) {s : σ}
    (hs : Surface.IsPure (widthOf w) s) (hr : InRange w (wrapAll line texts pen s).steps) (b : Nat)
    (skipping : Bool) :
    ∃ skipping', Place.putTexts (widthOf w) line ⟨b, pen.x, skipping⟩ texts =
      ⟨b + breaks (wrapAll line texts pen s).steps, (wrapAll line texts pen s).pen.x,
        skipping'⟩ := by
  induction texts generalizing pen s b skipping with
  | nil => exact ⟨skipping, rfl⟩
  | cons text later ih =>
    have hfirst : InRange w (wrap line text pen s).steps :=
      fun t p hm => hr t p (List.mem_append_left _ hm)
    have hlater : InRange w (wrapAll line later (wrap line text pen s).pen
        (wrap line text pen s).surface).steps := fun t p hm => hr t p (List.mem_append_right _ hm)
    obtain ⟨skipping', hp⟩ := (layout_wrap line text pen hs).putAll_eq hw hfirst b false
      fun h => absurd h Bool.false_ne_true
    obtain ⟨skipping'', hp'⟩ := ih (wrap line text pen s).pen (answers_wrap hs line text pen) hlater
      (b + breaks (wrap line text pen s).steps) skipping'
    refine ⟨skipping'', ?_⟩
    rw [Place.putTexts, List.foldl_cons, hp]
    refine hp'.trans ?_
    rw [wrapAll]
    simp only [Wrapped.precededBy]
    rw [breaks_append, Nat.add_assoc]

end Texts

end Wrap

end Lettering
