import Lettering.Proofs.Text.Bytes
import Lettering.Proofs.Wrap.Steps

/-!
# Wrapping by places

In memory a text is not taken apart while it is wrapped. Two places in it, counted
in bytes, mark the segment that grows, a third one runs ahead to the next boundary,
and what is measured or drawn is sliced out between them, where slicing may fail.
A machine carries this out, one turn after the other (`Machine.next`).

* `Stage.InBounds`: the places lie in the text, in order and between characters.
* `Machine.exists_next`: the machine never fails, and its places stay in bounds.
* `leads_wrap`: it halts, within a number of turns that depends on the length of
  the text alone, and what it has done is what `wrap` says.
* `wrap_in_bounds`: this holds from the start, whatever the surface answers.
-/

namespace Lettering

namespace Wrap

open Text (bytes cutAt? slice? offset? IsPlace)

/-- The end of the unit that starts at a place. -/
def nextBoundary? (t : Text) (n : Nat) : Option Nat :=
  (cutAt? t n).map fun cut =>
    match cut.2 with
    | [] => bytes t
    | c :: r =>
      if isBreak c then n + c.utf8Size
      else ((offset? isBreak (c :: r)).map (n + ·)).getD (bytes t)

/-- The first place from the given one on that has no space behind it. -/
def skipSpaces? (t : Text) (n : Nat) : Option Nat :=
  (cutAt? t n).map fun cut => ((offset? (!isSpace ·) cut.2).map (n + ·)).getD (bytes t)

/-- Where the machine stands. -/
inductive Stage
  /-- Between two segments. -/
  | seek (first last : Nat)
  /-- The segment from `first` to `last` is `width` wide, the one to `next` is
      `nextWidth` wide. -/
  | grow (first last : Nat) (width : Length) (next : Nat) (nextWidth : Length)
  /-- At the end. -/
  | done

/-- The state of wrapping by places, with the steps taken so far. -/
structure Machine (σ : Type) where
  stage : Stage
  pen : Pen
  surface : σ
  steps : List Step

namespace Machine

variable {σ : Type} [Surface σ]

omit [Surface σ] in
/-- The machine before its first turn. -/
def start (pen : Pen) (s : σ) : Machine σ := ⟨.seek 0 0, pen, s, []⟩

/-- Measures from `first` to the boundary after `last`. -/
def measure (t : Text) (first last : Nat) (width : Length) (m : Machine σ) :
    Option (Machine σ) := do
  let next ← nextBoundary? t last
  let segment ← slice? t first next
  let measured := Surface.measureText segment m.surface
  return { m with stage := .grow first last width next measured.1, surface := measured.2 }

/-- Draws the segment, and goes on behind it. -/
def drawSegment (t : Text) (first last : Nat) (width : Length) (m : Machine σ) :
    Option (Machine σ) := do
  let segment ← slice? t first last
  return {
    stage := .seek last last
    pen := { m.pen with x := m.pen.x + width }
    surface := Surface.fillText segment m.pen.x m.pen.y m.surface
    steps := m.steps ++ [.segment segment m.pen] }

/-- Draws a unit that does not fit. -/
def forceUnit (line : Line) (t : Text) (first next : Nat) (nextWidth : Length) (m : Machine σ) :
    Option (Machine σ) := do
  let unit ← slice? t first next
  return { m with
    surface := Surface.fillText unit m.pen.x m.pen.y m.surface
    steps := m.steps ++ [.forced unit m.pen nextWidth (line.maxWidth - m.pen.x)] }

omit [Surface σ] in
/-- Starts a new line behind the spaces after `last`. -/
def breakLine (line : Line) (t : Text) (last : Nat) (m : Machine σ) : Option (Machine σ) := do
  let first ← skipSpaces? t last
  let skipped ← slice? t last first
  return { m with
    stage := .seek first first
    pen := line.below m.pen
    steps := m.steps ++ [.lineBreak skipped (line.below m.pen).y] }

/-- One turn; nothing if a slice fails. -/
def next (line : Line) (t : Text) (m : Machine σ) : Option (Machine σ) :=
  match m.stage with
  | .seek first last =>
    if first < bytes t then m.measure t first last 0 else some { m with stage := .done }
  | .grow first last width next nextWidth =>
    if last < bytes t ∧ m.pen.x + nextWidth ≤ line.maxWidth then m.measure t first next nextWidth
    else if first = last then
      if m.pen.x = line.baseX then
        (m.forceUnit line t first next nextWidth).bind (breakLine line t next)
      else m.breakLine line t last
    else m.drawSegment t first last width
  | .done => some m

/-- A number of turns; nothing if a slice fails in one of them. -/
def run (line : Line) (t : Text) : Nat → Machine σ → Option (Machine σ)
  | 0, m => some m
  | n + 1, m => (m.next line t).bind (run line t n)

end Machine

variable {σ : Type} [Surface σ] {line : Line} {t : Text} {m m' m'' : Machine σ}

/-- A segment that has grown to `taken`, its next unit being measured. -/
def Fit.tried (taken : Text) (width : Length) (rest : Text) (s : σ) : Fit σ :=
  let unit := (cutUnit rest).1
  let measured := Surface.measureText (taken ++ unit) s
  ⟨taken, width, unit, measured.1, rest, measured.2⟩

/-! ## Bounds -/

/-- The places lie in the text, in order and between characters. -/
def Stage.InBounds (t : Text) : Stage → Prop
  | seek first last => first = last ∧ IsPlace t first
  | grow first last _ next _ =>
    first ≤ last ∧ last ≤ next ∧ next ≤ bytes t ∧ IsPlace t first ∧ IsPlace t last ∧ IsPlace t next
  | done => True

theorem nextBoundary?_append (p r : Text) :
    nextBoundary? (p ++ r) (bytes p) = some (bytes (p ++ (cutUnit r).1)) := by
  rw [nextBoundary?, Text.cutAt?_append]
  cases r with
  | nil => rfl
  | cons c r =>
    by_cases hc : isBreak c
    · simp [cutUnit, hc]
    · simp only [Option.map_some, if_neg hc, Text.offset?_behind]
      simp [cutUnit, hc]

theorem skipSpaces?_append (p r : Text) :
    skipSpaces? (p ++ r) (bytes p) = some (bytes (p ++ r.takeWhile isSpace)) := by
  rw [skipSpaces?, Text.cutAt?_append, Option.map_some, Text.offset?_behind]
  simp only [Bool.not_not]

/-- Behind a place there is a boundary, and it is a place. -/
theorem exists_nextBoundary? {n : Nat} (h : IsPlace t n) :
    ∃ k, nextBoundary? t n = some k ∧ n ≤ k ∧ IsPlace t k := by
  obtain ⟨p, r, rfl, rfl⟩ := h
  refine ⟨_, nextBoundary?_append p r, ?_, p ++ (cutUnit r).1, (cutUnit r).2, ?_, rfl⟩
  · rw [Text.bytes_append]
    exact Nat.le_add_right _ _
  · rw [List.append_assoc, cutUnit_append]

/-- Behind a place spaces end, and at a place. -/
theorem exists_skipSpaces? {n : Nat} (h : IsPlace t n) :
    ∃ k, skipSpaces? t n = some k ∧ n ≤ k ∧ IsPlace t k := by
  obtain ⟨p, r, rfl, rfl⟩ := h
  refine ⟨_, skipSpaces?_append p r, ?_, p ++ r.takeWhile isSpace, skipSpaces r, ?_, rfl⟩
  · rw [Text.bytes_append]
    exact Nat.le_add_right _ _
  · rw [List.append_assoc, takeWhile_append_skipSpaces]

/-- Between two places in order a text is sliced out. -/
theorem exists_slice? {k n : Nat} (hk : IsPlace t k) (hn : IsPlace t n) (h : k ≤ n) :
    ∃ u, slice? t k n = some u := by
  obtain ⟨p, u, r, rfl, rfl, rfl⟩ := hk.exists_between hn h
  exact ⟨u, Text.slice?_append p u r⟩

namespace Machine

theorem measure_eq {first last next : Nat} {segment : Text} (width : Length) (m : Machine σ)
    (hn : nextBoundary? t last = some next) (hs : slice? t first next = some segment) :
    m.measure t first last width =
      some { m with
        stage := .grow first last width next (Surface.measureText segment m.surface).1
        surface := (Surface.measureText segment m.surface).2 } := by
  simp [measure, hn, hs]

theorem drawSegment_eq {first last : Nat} {segment : Text} (width : Length) (m : Machine σ)
    (hs : slice? t first last = some segment) :
    m.drawSegment t first last width =
      some ⟨.seek last last, { m.pen with x := m.pen.x + width },
        Surface.fillText segment m.pen.x m.pen.y m.surface,
        m.steps ++ [.segment segment m.pen]⟩ := by
  simp [drawSegment, hs]

theorem forceUnit_eq {first next : Nat} {unit : Text} (nextWidth : Length) (m : Machine σ)
    (hs : slice? t first next = some unit) :
    m.forceUnit line t first next nextWidth =
      some { m with
        surface := Surface.fillText unit m.pen.x m.pen.y m.surface
        steps := m.steps ++ [.forced unit m.pen nextWidth (line.maxWidth - m.pen.x)] } := by
  simp [forceUnit, hs]

omit [Surface σ] in
theorem breakLine_eq {first last : Nat} {skipped : Text} (m : Machine σ)
    (hf : skipSpaces? t last = some first) (hs : slice? t last first = some skipped) :
    m.breakLine line t last =
      some { m with
        stage := .seek first first
        pen := line.below m.pen
        steps := m.steps ++ [.lineBreak skipped (line.below m.pen).y] } := by
  simp [breakLine, hf, hs]

theorem exists_measure {first last : Nat} (width : Length) (m : Machine σ) (hf : IsPlace t first)
    (hl : IsPlace t last) (h : first ≤ last) :
    ∃ m', m.measure t first last width = some m' ∧ m'.stage.InBounds t := by
  obtain ⟨next, hnext, hle, hn⟩ := exists_nextBoundary? hl
  obtain ⟨segment, hs⟩ := exists_slice? hf hn (Nat.le_trans h hle)
  exact ⟨_, measure_eq width m hnext hs, h, hle, hn.le, hf, hl, hn⟩

omit [Surface σ] in
theorem exists_breakLine (line : Line) {last : Nat} (m : Machine σ) (hl : IsPlace t last) :
    ∃ m', m.breakLine line t last = some m' ∧ m'.stage.InBounds t := by
  obtain ⟨first, hfirst, hle, hf⟩ := exists_skipSpaces? hl
  obtain ⟨skipped, hs⟩ := exists_slice? hl hf hle
  exact ⟨_, breakLine_eq m hfirst hs, rfl, hf⟩

theorem next_seek {first last : Nat} (hm : m.stage = .seek first last) :
    m.next line t =
      if first < bytes t then m.measure t first last 0 else some { m with stage := .done } := by
  simp only [next, hm]

theorem next_grow {first last next : Nat} {width nextWidth : Length}
    (hm : m.stage = .grow first last width next nextWidth) :
    m.next line t =
      if last < bytes t ∧ m.pen.x + nextWidth ≤ line.maxWidth then
        m.measure t first next nextWidth
      else if first = last then
        if m.pen.x = line.baseX then
          (m.forceUnit line t first next nextWidth).bind (breakLine line t next)
        else m.breakLine line t last
      else m.drawSegment t first last width := by
  simp only [Machine.next, hm]

/-- The machine never fails, and its places stay in bounds. -/
theorem exists_next (line : Line) (m : Machine σ) (h : m.stage.InBounds t) :
    ∃ m', m.next line t = some m' ∧ m'.stage.InBounds t := by
  cases hm : m.stage with
  | seek first last =>
    rw [hm] at h
    obtain ⟨rfl, hf⟩ := h
    rw [next_seek hm]
    by_cases hlt : first < bytes t
    · rw [if_pos hlt]
      exact exists_measure 0 m hf hf (Nat.le_refl _)
    · rw [if_neg hlt]
      exact ⟨_, rfl, trivial⟩
  | grow first last width next nextWidth =>
    rw [hm] at h
    obtain ⟨hle, hle', -, hf, hl, hn⟩ := h
    rw [next_grow hm]
    by_cases hfit : last < bytes t ∧ m.pen.x + nextWidth ≤ line.maxWidth
    · rw [if_pos hfit]
      exact exists_measure nextWidth m hf hn (Nat.le_trans hle hle')
    · rw [if_neg hfit]
      -- Whether something fits or not, what is sliced out starts at `first`, and
      -- ends at one of the two places behind it.
      by_cases he : first = last
      · rw [if_pos he]
        by_cases hx : m.pen.x = line.baseX
        · obtain ⟨unit, hs⟩ := exists_slice? hf hn (Nat.le_trans hle hle')
          rw [if_pos hx, forceUnit_eq nextWidth m hs]
          exact exists_breakLine line _ hn
        · rw [if_neg hx]
          exact exists_breakLine line m hl
      · rw [if_neg he]
        obtain ⟨segment, hs⟩ := exists_slice? hf hl hle
        exact ⟨_, drawSegment_eq width m hs, rfl, hl⟩
  | done => exact ⟨m, by rw [next, hm], by rw [hm]; trivial⟩

/-- However many turns are taken, the machine does not fail. -/
theorem exists_run (line : Line) (n : Nat) (m : Machine σ) (h : m.stage.InBounds t) :
    ∃ m', run line t n m = some m' ∧ m'.stage.InBounds t := by
  induction n generalizing m with
  | zero => exact ⟨m, rfl, h⟩
  | succ n ih =>
    obtain ⟨m', hnext, h'⟩ := exists_next line m h
    obtain ⟨m'', hrun, h''⟩ := ih m' h'
    exact ⟨m'', by rw [run, hnext]; exact hrun, h''⟩

theorem run_add (line : Line) (t : Text) (k n : Nat) (m : Machine σ) :
    run line t (k + n) m = (run line t k m).bind (run line t n) := by
  induction k generalizing m with
  | zero => rw [Nat.zero_add, run, Option.bind_some]
  | succ k ih =>
    rw [Nat.succ_add, run, run, Option.bind_assoc]
    exact congrArg _ (funext ih)

/-! ## Turns -/

/-- At most `b` turns lead from one state to the other. -/
def Leads (line : Line) (t : Text) (b : Nat) (m m' : Machine σ) : Prop :=
  ∃ n ≤ b, run line t n m = some m'

theorem Leads.refl (line : Line) (t : Text) (b : Nat) (m : Machine σ) : Leads line t b m m :=
  ⟨0, Nat.zero_le b, rfl⟩

theorem Leads.of_next (h : m.next line t = some m') : Leads line t 1 m m' :=
  ⟨1, Nat.le_refl 1, by rw [run, h]; rfl⟩

theorem Leads.trans {a b : Nat} (h : Leads line t a m m') (h' : Leads line t b m' m'') :
    Leads line t (a + b) m m'' := by
  obtain ⟨k, hk, h⟩ := h
  obtain ⟨n, hn, h'⟩ := h'
  exact ⟨k + n, Nat.add_le_add hk hn, by rw [run_add, h]; exact h'⟩

theorem Leads.mono {a b : Nat} (h : Leads line t a m m') (hab : a ≤ b) : Leads line t b m m' := by
  obtain ⟨n, hn, h⟩ := h
  exact ⟨n, Nat.le_trans hn hab, h⟩

/-- The machine that has come to the end of `p`. -/
def behind (p : Text) (pen : Pen) (s : σ) (steps : List Step) : Machine σ :=
  ⟨.seek (bytes p) (bytes p), pen, s, steps⟩

/-- The machine that has let a segment grow behind `p`. -/
def ofFit (p : Text) (fit : Fit σ) (pen : Pen) (steps : List Step) : Machine σ :=
  ⟨.grow (bytes p) (bytes (p ++ fit.taken)) fit.width (bytes (p ++ (fit.taken ++ fit.unit)))
    fit.nextWidth, pen, fit.surface, steps⟩

variable {p text : Text} {pen : Pen} {s : σ} {steps : List Step} {fit : Fit σ}

/-! ### Growing -/

theorem measure_append (p taken rest : Text) (width : Length) (m : Machine σ) :
    m.measure (p ++ (taken ++ rest)) (bytes p) (bytes (p ++ taken)) width =
      some (ofFit p (.tried taken width rest m.surface) m.pen m.steps) := by
  refine measure_eq width m ?_ ?_
  · rw [← List.append_assoc, nextBoundary?_append, List.append_assoc]
    rfl
  · have h := Text.slice?_append p (taken ++ (cutUnit rest).1) (cutUnit rest).2
    rw [List.append_assoc, cutUnit_append] at h
    exact h

/-- The machine lets a segment grow, one turn for every unit. -/
theorem leads_grow (line : Line) (pen : Pen) (p taken : Text) (width : Length) (rest : Text) (s : σ)
    (steps : List Step) (ht : t = p ++ (taken ++ rest)) :
    ∃ b, b + (grow line pen.x taken width rest s).rest.length ≤ rest.length ∧
      Leads line t b (ofFit p (.tried taken width rest s) pen steps)
        (ofFit p (grow line pen.x taken width rest s) pen steps) := by
  fun_induction grow line pen.x taken width rest s with
  | case1 taken width rest s unit measured hf ih =>
    have ht' : t = p ++ (taken ++ unit ++ (cutUnit rest).2) := by
      rw [ht, List.append_assoc, cutUnit_append]
    obtain ⟨b, hb, hl⟩ := ih ht'
    have hlt := length_cutUnit_lt hf.1
    -- The turn that takes the unit is paid for by its characters.
    refine ⟨1 + b, by omega, (Leads.of_next ?_).trans hl⟩
    rw [next_grow rfl, if_pos, ht']
    · exact measure_append p (taken ++ unit) (cutUnit rest).2 measured.1 _
    · rw [ht, ← List.append_assoc]
      exact ⟨Text.bytes_lt_append_iff.mpr hf.1, hf.2⟩
  | case2 taken width rest s unit measured hf =>
    exact ⟨0, Nat.le_of_eq (Nat.zero_add _), .refl line t 0 _⟩

theorem cut_fit (ht : t = p ++ text) (hfit : grow line pen.x [] 0 text s = fit) :
    t = p ++ (fit.taken ++ fit.rest) := by
  subst hfit
  rw [taken_append_rest]
  exact ht

/-- Where something is left, the machine finds what fits, and does something
    with it. -/
theorem leads_fit (ht : t = p ++ text) (hne : text ≠ [])
    (hfit : grow line pen.x [] 0 text s = fit) (hn : (ofFit p fit pen steps).next line t = some m')
    {k n : Nat} (h : Leads line t k m' m'') (hle : text.length + k + 2 ≤ fit.rest.length + n) :
    Leads line t n (behind p pen s steps) m'' := by
  subst hfit
  obtain ⟨b, hb, hl⟩ := leads_grow line pen p [] 0 text s steps ht
  have hm : (behind p pen s steps).next line t = some (ofFit p (.tried [] 0 text s) pen steps) := by
    rw [next_seek rfl, if_pos (ht ▸ Text.bytes_lt_append_iff.mpr hne), ht]
    have hm := measure_append p [] text 0 (behind p pen s steps)
    rw [List.append_nil] at hm
    exact hm
  exact ((((Leads.of_next hm).trans hl).trans (.of_next hn)).trans h).mono (by omega)

/-! ### Drawing and breaking -/

omit [Surface σ] in
theorem breakLine_append (p r : Text) (m : Machine σ) :
    m.breakLine line (p ++ r) (bytes p) =
      some (behind (p ++ r.takeWhile isSpace) (line.below m.pen) m.surface
        (m.steps ++ [.lineBreak (r.takeWhile isSpace) (line.below m.pen).y])) := by
  refine breakLine_eq m (skipSpaces?_append p r) ?_
  have h := Text.slice?_append p (r.takeWhile isSpace) (skipSpaces r)
  rw [takeWhile_append_skipSpaces] at h
  exact h

/-- What the machine does with a segment that does not grow any more. -/
theorem next_ofFit (ht : t = p ++ (fit.taken ++ fit.rest))
    (hstop : ¬(fit.rest ≠ [] ∧ pen.x + fit.nextWidth ≤ line.maxWidth)) :
    (ofFit p fit pen steps).next line t =
      if fit.taken = [] then
        if pen.x = line.baseX then
          ((ofFit p fit pen steps).forceUnit line t (bytes p) (bytes (p ++ (fit.taken ++ fit.unit)))
            fit.nextWidth).bind (breakLine line t (bytes (p ++ (fit.taken ++ fit.unit))))
        else (ofFit p fit pen steps).breakLine line t (bytes (p ++ fit.taken))
      else (ofFit p fit pen steps).drawSegment t (bytes p) (bytes (p ++ fit.taken)) fit.width := by
  have hlt : bytes (p ++ fit.taken) < bytes t ↔ fit.rest ≠ [] := by
    rw [ht, ← List.append_assoc]
    exact Text.bytes_lt_append_iff
  rw [next_grow rfl, if_neg (fun h => hstop ⟨hlt.mp h.1, h.2⟩)]
  simp only [Text.bytes_eq_append_iff]
  rfl

theorem next_of_taken_ne_nil (steps : List Step) (ht : t = p ++ (fit.taken ++ fit.rest))
    (hstop : ¬(fit.rest ≠ [] ∧ pen.x + fit.nextWidth ≤ line.maxWidth)) (hf : fit.taken ≠ []) :
    (ofFit p fit pen steps).next line t =
      some (behind (p ++ fit.taken) { pen with x := pen.x + fit.width }
        (Surface.fillText fit.taken pen.x pen.y fit.surface)
        (steps ++ [.segment fit.taken pen])) := by
  rw [next_ofFit ht hstop, if_neg hf, ht]
  exact drawSegment_eq fit.width _ (Text.slice?_append p fit.taken fit.rest)

theorem next_of_taken_eq_nil (steps : List Step) (ht : t = p ++ (fit.taken ++ fit.rest))
    (hstop : ¬(fit.rest ≠ [] ∧ pen.x + fit.nextWidth ≤ line.maxWidth)) (hf : fit.taken = [])
    (hx : pen.x ≠ line.baseX) :
    (ofFit p fit pen steps).next line t =
      some (behind (p ++ fit.rest.takeWhile isSpace) (line.below pen) fit.surface
        (steps ++ [.lineBreak (fit.rest.takeWhile isSpace) (line.below pen).y])) := by
  rw [next_ofFit ht hstop, if_pos hf, if_neg hx, ht, hf, List.append_nil, List.nil_append]
  exact breakLine_append p fit.rest _

theorem next_of_forced (steps : List Step) (ht : t = p ++ (fit.taken ++ fit.rest))
    (hstop : ¬(fit.rest ≠ [] ∧ pen.x + fit.nextWidth ≤ line.maxWidth)) (hf : fit.taken = [])
    (hu : fit.unit = (cutUnit fit.rest).1) (hx : pen.x = line.baseX) :
    (ofFit p fit pen steps).next line t =
      some (behind (p ++ fit.unit ++ (cutUnit fit.rest).2.takeWhile isSpace) (line.below pen)
        (Surface.fillText fit.unit pen.x pen.y fit.surface)
        (steps ++ [.forced fit.unit pen fit.nextWidth (line.maxWidth - pen.x),
          .lineBreak ((cutUnit fit.rest).2.takeWhile isSpace) (line.below pen).y])) := by
  have ht' : t = p ++ (fit.unit ++ (cutUnit fit.rest).2) := by
    rw [ht, hf, hu, cutUnit_append, List.nil_append]
  rw [next_ofFit ht hstop, if_pos hf, if_pos hx, ht', hf, List.nil_append,
    forceUnit_eq fit.nextWidth _ (Text.slice?_append p fit.unit _), Option.bind_some,
    ← List.append_assoc, breakLine_append]
  simp [ofFit]

/-! ### Wrapping -/

/-- The most turns that are needed for a text of `n` characters: each turn of a
    growing segment takes a character, a segment needs three more, and a line is
    broken once at most before something is drawn. -/
def turns (line : Line) (pen : Pen) (n : Nat) : Nat := 5 * n + if pen.x = line.baseX then 1 else 3

theorem turns_le (line : Line) (pen : Pen) (n : Nat) : turns line pen n ≤ 5 * n + 3 := by
  unfold turns
  split <;> omega

theorem lt_turns (line : Line) (pen : Pen) (n : Nat) : 5 * n < turns line pen n := by
  unfold turns
  split <;> omega

theorem turns_eq (hx : pen.x = line.baseX) (n : Nat) : turns line pen n = 5 * n + 1 := by
  rw [turns, if_pos hx]

theorem turns_ne (hx : pen.x ≠ line.baseX) (n : Nat) : turns line pen n = 5 * n + 3 := by
  rw [turns, if_neg hx]

/-- The machine at its end, wrapping having gone on after `steps`. -/
def halted (steps : List Step) (w : Wrapped σ) : Machine σ :=
  ⟨.done, w.pen, w.surface, steps ++ w.steps⟩

omit [Surface σ] in
theorem halted_precededBy (steps later : List Step) (w : Wrapped σ) :
    halted steps (w.precededBy later) = halted (steps ++ later) w := by
  rw [halted, halted, Wrapped.precededBy, List.append_assoc]

/-- The machine halts, and has done what wrapping does. -/
theorem leads_wrap (line : Line) (p text : Text) (pen : Pen) (s : σ) (steps : List Step)
    (ht : t = p ++ text) :
    Leads line t (turns line pen text.length) (behind p pen s steps)
      (halted steps (wrap line text pen s)) := by
  fun_induction wrap line text pen s generalizing p steps with
  | case1 pen s =>
    have hn : (behind p pen s steps).next line t = some (halted steps ⟨[], pen, s⟩) := by
      rw [next_seek rfl, ht, List.append_nil, if_neg (Nat.lt_irrefl _), halted, List.append_nil]
      rfl
    exact (Leads.of_next hn).mono (lt_turns line pen 0)
  | case2 text pen s hne fit hf next hx s' later ih =>
    have hfit : grow line pen.x [] 0 text s = fit := rfl
    have hr : fit.rest = text := rest_of_taken_eq_nil hfit hf
    obtain ⟨hu, hstop⟩ := grow_stops line pen.x [] 0 text s hfit
    have hn := next_of_forced steps (cut_fit ht hfit) hstop hf hu hx
    have ht' : t = p ++ fit.unit ++ later.takeWhile isSpace ++ skipSpaces later := by
      rw [ht, hu, hr, List.append_assoc, takeWhile_append_skipSpaces, List.append_assoc,
        cutUnit_append]
    rw [hr] at hn
    rw [halted_precededBy]
    refine leads_fit ht hne hfit hn (ih _ _ ht') ?_
    have h₁ := length_skipSpaces_le later
    have h₂ : later.length < text.length := length_cutUnit_lt hne
    rw [hr, turns_eq hx, turns_eq rfl]
    omega
  | case3 text pen s hne fit hf next hx ih =>
    have hfit : grow line pen.x [] 0 text s = fit := rfl
    have hr : fit.rest = text := rest_of_taken_eq_nil hfit hf
    obtain ⟨-, hstop⟩ := grow_stops line pen.x [] 0 text s hfit
    have hn := next_of_taken_eq_nil steps (cut_fit ht hfit) hstop hf hx
    have ht' : t = p ++ text.takeWhile isSpace ++ skipSpaces text := by
      rw [ht, List.append_assoc, takeWhile_append_skipSpaces]
    rw [hr] at hn
    rw [halted_precededBy]
    refine leads_fit ht hne hfit hn (ih _ _ ht') ?_
    -- Perhaps no space is skipped, but then the pen has come to the start of a line.
    have h := length_skipSpaces_le text
    rw [hr, turns_ne hx, turns_eq rfl]
    omega
  | case4 text pen s hne fit hf s' ih =>
    have hfit : grow line pen.x [] 0 text s = fit := rfl
    obtain ⟨-, hstop⟩ := grow_stops line pen.x [] 0 text s hfit
    have ht' : t = p ++ (fit.taken ++ fit.rest) := cut_fit ht hfit
    have hn := next_of_taken_ne_nil steps ht' hstop hf
    rw [halted_precededBy]
    refine leads_fit ht hne hfit hn (ih _ _ (by rw [ht', List.append_assoc])) ?_
    -- The pen may be anywhere on the line now, but something has been drawn.
    have h₁ : fit.rest.length < text.length := length_rest_lt hf
    have h₂ := turns_le line { pen with x := pen.x + fit.width } fit.rest.length
    have h₃ := lt_turns line pen text.length
    omega

end Machine

/-- On any surface, whatever it answers, wrapping by places never slices a text
    out of bounds or inside a character, and it halts with the steps, the pen and
    the surface that `wrap` ends with. -/
theorem wrap_in_bounds (line : Line) (text : Text) (pen : Pen) (s : σ) :
    (∀ n, ∃ m, Machine.run line text n (.start pen s) = some m ∧ m.stage.InBounds text) ∧
      ∃ n ≤ 5 * text.length + 3, Machine.run line text n (.start pen s) =
        some ⟨.done, (wrap line text pen s).pen, (wrap line text pen s).surface,
          (wrap line text pen s).steps⟩ := by
  constructor
  · intro n
    exact Machine.exists_run line n _ ⟨rfl, .zero text⟩
  · obtain ⟨n, hn, h⟩ := Machine.leads_wrap line [] text pen s [] rfl
    exact ⟨n, Nat.le_trans hn (Machine.turns_le line pen _), h⟩

end Wrap

end Lettering
