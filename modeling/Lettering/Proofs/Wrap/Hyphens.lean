import Lettering.Proofs.Wrap.Placing

/-!
# Words and their hyphens

A hyphen is a unit of its own, so that a line may end behind a word and in front of the
hyphen that follows it. The hyphen then opens the next line. It does so if the word is
forced, and if the line has room for the word but not for the hyphen behind it; the two
are never parted otherwise.

* `Layout.drawsHyphen`: a hyphen that is left is drawn next, after a line break or not.
* `Layout.hyphenNext`: what becomes of a hyphen behind a word.
* `wrap_partsHyphen_iff`: when a line break comes between a word and its hyphen.
-/

namespace Lettering

namespace Wrap

theorem cutUnit_hyphen (t : Text) : cutUnit ('-' :: t) = (['-'], t) := rfl

/-- The next text that the steps draw begins with a hyphen. -/
def DrawsHyphen (steps : List Step) : Prop :=
  ∃ t x y, (fills steps).head? = some (.fillText ('-' :: t) x y)

/-- The step draws a text whose last character is no hyphen and no space, and the next
    character of the text, with which the steps `after` it go on, is a hyphen. -/
def AtHyphen (step : Step) (after : List Step) : Prop :=
  (∃ t c x y, step.fill? = some (.fillText (t ++ [c]) x y) ∧ isBreak c = false) ∧
    (covered after).head? = some '-'

/-- A line break comes between a word and the hyphen behind it. -/
def PartsHyphen (steps : List Step) : Prop :=
  ∃ before step skipped y later, steps = before ++ step :: .lineBreak skipped y :: later ∧
    AtHyphen step (.lineBreak skipped y :: later) ∧ DrawsHyphen later

/-- There is no room for a hyphen behind what the step has drawn: it has drawn a forced
    unit, or the hyphen does not fit there, away from the start of a line. -/
def NoRoom (m : Text → Length) (line : Line) : Step → Prop
  | .segment text pen =>
    pen.x + m text ≠ line.baseX ∧ line.maxWidth < pen.x + m text + m ['-']
  | .forced _ _ _ _ => True
  | .lineBreak _ _ => False

/-- What becomes of a hyphen behind what the step has drawn. It is drawn next; a line break
    comes before it just where there is no room for it; and a segment ends before it as
    the two together would not fit. -/
structure HyphenNext (m : Text → Length) (line : Line) (step : Step) (after : List Step) :
    Prop where
  draws : DrawsHyphen after
  lineBreak_iff : (∃ skipped y later, after = .lineBreak skipped y :: later) ↔ NoRoom m line step
  exceeds : ∀ t pen, step = .segment t pen → line.maxWidth < pen.x + m (t ++ ['-'])

variable {answer : Text → Length → Prop} {m : Text → Length} {line : Line} {text t : Text}
  {pen last : Pen} {steps before after : List Step} {step : Step}

/-- A number of units begins with a hyphen if the text does. -/
theorem exists_firstUnits_hyphen {k : Nat} (hk : 0 < k) (t : Text) :
    ∃ u, firstUnits ('-' :: t) k = '-' :: u := by
  have hne := firstUnits_ne_nil hk (List.cons_ne_nil '-' t)
  obtain ⟨c, u, hu⟩ := List.exists_cons_of_ne_nil hne
  have h := firstUnits_append_afterUnits ('-' :: t) k
  rw [hu, List.cons_append, List.cons.injEq] at h
  exact ⟨u, h.1 ▸ hu⟩

/-- The first text of a layout begins with a hyphen if the layout's text does. -/
theorem Layout.drawsHyphen (h : Layout answer line ('-' :: t) pen steps last) :
    DrawsHyphen steps := by
  generalize ht : '-' :: t = text at h
  induction h with
  | done => cases ht
  | @segment _ pen _ _ k _ hk =>
    subst ht
    obtain ⟨u, hu⟩ := exists_firstUnits_hyphen hk t
    exact ⟨u, pen.x, pen.y, by rw [hu]; rfl⟩
  | @forced _ pen =>
    subst ht
    exact ⟨[], pen.x, pen.y, rfl⟩
  | broken _ _ _ _ ih =>
    subst ht
    exact ih rfl

/-- A line break is the first step of a layout that starts with a hyphen just where the
    hyphen does not fit, away from the start of a line. -/
theorem Layout.hyphen_lineBreak_iff
    (h : Layout (fun t w => w = m t) line ('-' :: t) pen steps last) :
    (∃ skipped y later, steps = .lineBreak skipped y :: later) ↔
      pen.x ≠ line.baseX ∧ line.maxWidth < pen.x + m ['-'] := by
  cases h with
  | segment hk hle hw hfits =>
    obtain ⟨_, rfl, hf⟩ := hfits 1 Nat.one_pos hk
    rw [firstUnits_one, cutUnit_hyphen] at hf
    constructor
    · rintro ⟨_, _, _, ⟨⟩⟩
    · exact fun hm => absurd hf (Length.not_le.mpr hm.2)
  | forced ht hx =>
    constructor
    · rintro ⟨_, _, _, ⟨⟩⟩
    · exact fun hm => absurd hx hm.1
  | broken ht hx hmax =>
    obtain ⟨_, rfl, hmax⟩ := hmax
    exact iff_of_true ⟨_, _, _, rfl⟩ ⟨hx, Length.not_le.mp hmax⟩

/-- A text that begins with a hyphen has no spaces to skip. -/
theorem exists_skipSpaces_hyphen (h : t.head? = some '-') : ∃ u, skipSpaces t = '-' :: u := by
  obtain ⟨u, rfl⟩ := List.head?_eq_some_iff.mp h
  exact ⟨u, rfl⟩

/-- A layout goes on so wherever a hyphen follows a word. -/
theorem Layout.hyphenNext
    (h : Layout (fun t w => w = m t) line text pen (before ++ step :: after) last)
    (ha : AtHyphen step after) : HyphenNext m line step after := by
  obtain ⟨⟨t, c, x, y, hfill, -⟩, hhyphen⟩ := ha
  obtain ⟨rest, -, ho⟩ := h.onward
  cases ho with
  | lineBreak => cases hfill
  | layout hn hl =>
    cases hl with
    | @segment _ _ _ _ k w hk hle hw hfits hmax hlater =>
      subst hw
      -- The hyphen is the unit that the segment has stopped before.
      obtain ⟨u, hu⟩ := List.head?_eq_some_iff.mp (hlater.covered_eq ▸ hhyphen)
      have hnext : firstUnits rest (k + 1) = firstUnits rest k ++ ['-'] := by
        rw [firstUnits_succ, hu, cutUnit_hyphen]
      rw [hu] at hlater
      refine ⟨hlater.drawsHyphen, hlater.hyphen_lineBreak_iff, ?_⟩
      rintro _ _ ⟨⟩
      rcases hmax with hk | ⟨_, rfl, hmax⟩
      · rw [afterUnits_eq_nil_iff.mpr (Nat.le_of_eq hk.symm)] at hu
        cases hu
      · rw [← hnext]
        exact Length.not_le.mp hmax
    | forced ht hx hw hmax hlater =>
      -- The line break that the unit causes skips no spaces, as the hyphen is next.
      rw [covered_cons, hlater.covered_eq] at hhyphen
      have hrest := takeWhile_append_skipSpaces (cutUnit rest).2
      obtain ⟨u, hu⟩ := exists_skipSpaces_hyphen (hrest ▸ hhyphen)
      rw [hu] at hlater
      refine ⟨hlater.drawsHyphen, iff_of_true ⟨_, _, _, rfl⟩ trivial, ?_⟩
      rintro _ _ ⟨⟩
    | broken => cases hfill

/-- A word and its hyphen are parted just where there is no room for the hyphen. -/
theorem Layout.partsHyphen_iff (h : Layout (fun t w => w = m t) line text pen steps last) :
    PartsHyphen steps ↔
      ∃ before step after, steps = before ++ step :: after ∧ AtHyphen step after ∧
        NoRoom m line step := by
  constructor
  · rintro ⟨before, step, skipped, y, later, rfl, ha, -⟩
    exact ⟨before, step, _, rfl, ha, (h.hyphenNext ha).lineBreak_iff.mp ⟨skipped, y, later, rfl⟩⟩
  · rintro ⟨before, step, after, rfl, ha, hn⟩
    have hnext := h.hyphenNext ha
    obtain ⟨skipped, y, later, rfl⟩ := hnext.lineBreak_iff.mpr hn
    exact ⟨before, step, skipped, y, later, rfl, ha, hnext.draws⟩

section Wrapped

variable {σ : Type} [Surface σ]

/-- On a surface that measures by a function, a hyphen behind a word opens the next line
    if the word is forced, or the line has room for the word but none for the hyphen
    behind it, and otherwise no line break comes between the two. -/
theorem wrap_partsHyphen_iff (line : Line) (text : Text) (pen : Pen) (m : Text → Length) (s : σ)
    (calls : List SurfaceCall) (hs : Surface.IsPure m s) :
    let steps := (wrap line text pen s).steps
    (wrap line text pen (⟨s, calls⟩ : Traced σ)).surface.calls = calls ++ fills steps ∧
      covered steps = text ∧
      (∀ before step after, steps = before ++ step :: after → AtHyphen step after →
        HyphenNext m line step after) ∧
      (PartsHyphen steps ↔
        ∃ before step after, steps = before ++ step :: after ∧ AtHyphen step after ∧
          NoRoom m line step) := by
  intro steps
  have hl : Layout (fun t w => w = m t) line text pen steps (wrap line text pen s).pen :=
    layout_wrap line text pen hs
  refine ⟨by rw [wrap_traced]; rfl, hl.covered_eq, ?_, hl.partsHyphen_iff⟩
  intro before step after he ha
  exact (he ▸ hl).hyphenNext ha

/-- Case: a word that is forced. -/
theorem wrap_partsHyphen_iff_forced :
    let r : Recorder := { width := fun t => .ofPixels t.length }
    let line : Line := ⟨0, .ofPixels 2, .ofPixels 1⟩
    let steps : List Step := [.forced ['a', 'b', 'c'] ⟨0, 0⟩ (.ofPixels 3) (.ofPixels 2),
      .lineBreak [] (.ofPixels 1), .segment ['-', 'd'] ⟨0, .ofPixels 1⟩]
    Surface.IsPure r.width r ∧
      (wrap line ['a', 'b', 'c', '-', 'd'] ⟨0, 0⟩ r).steps = steps ∧ PartsHyphen steps := by
  intro r line steps
  have hs : (wrap line ['a', 'b', 'c', '-', 'd'] ⟨0, 0⟩ r).steps = steps := by decide +kernel
  obtain ⟨-, -, -, hiff⟩ := wrap_partsHyphen_iff line _ ⟨0, 0⟩ r.width r [] r.isPure
  rw [hs] at hiff
  refine ⟨r.isPure, hs, hiff.mpr ⟨[], _, _, rfl, ⟨⟨['a', 'b'], 'c', 0, 0, rfl, ?_⟩, rfl⟩, trivial⟩⟩
  decide

/-- Case: a line with room for two words, but not for the hyphen behind the second one. -/
theorem partsHyphen_of_no_room :
    let r : Recorder := { width := fun t => .ofPixels (6 * t.length) }
    let line : Line := ⟨0, .ofPixels 36, .ofPixels 10⟩
    let steps : List Step := [.segment ['a', 'a', 'a', ' ', 'b', 'b'] ⟨0, 0⟩,
      .lineBreak [] (.ofPixels 10), .segment ['-', 'c', 'c'] ⟨0, .ofPixels 10⟩]
    Surface.IsPure r.width r ∧
      (wrap line ['a', 'a', 'a', ' ', 'b', 'b', '-', 'c', 'c'] ⟨0, 0⟩ r).steps = steps ∧
      PartsHyphen steps := by
  intro r line steps
  have hs : (wrap line ['a', 'a', 'a', ' ', 'b', 'b', '-', 'c', 'c'] ⟨0, 0⟩ r).steps = steps := by
    decide +kernel
  refine ⟨r.isPure, hs, [], _, [], _, _, rfl,
    ⟨⟨['a', 'a', 'a', ' ', 'b'], 'b', 0, 0, rfl, ?_⟩, rfl⟩, ['c', 'c'], 0, .ofPixels 10, rfl⟩
  decide

end Wrapped

end Wrap

end Lettering
