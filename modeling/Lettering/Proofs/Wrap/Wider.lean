import Lettering.Proofs.Wrap.Placing

/-!
# Wider lines

Wider lines never need more line breaks. Places are compared line by line, on one
line from left to right, and at one place on a line those come first from which
spaces are still skipped. In this order no unit overtakes another:

* `Place.put_mono`: a unit that is put from a place that comes no later gets to a
  place that comes no later.
* `Place.put_wider`: on a wider line a unit gets to a place that comes no later.
* `wrapAll_wider`: so texts wrapped in turn end on no later line if lines are wider,
  and no further right if it is the same one.
-/

namespace Lettering

namespace Wrap

namespace Place

/-! ## The order of places -/

instance : LE Place where
  le p q := p.breaks < q.breaks ∨
    p.breaks = q.breaks ∧ p.x ≤ q.x ∧ (q.skipping = true → p.skipping = true)

variable {p q r : Place}

theorem le_of_breaks_lt (h : p.breaks < q.breaks) : p ≤ q := .inl h

theorem le_of_same_line (h : p.breaks = q.breaks) (hx : p.x ≤ q.x)
    (hs : q.skipping = true → p.skipping = true) : p ≤ q := .inr ⟨h, hx, hs⟩

theorem le_refl (p : Place) : p ≤ p := le_of_same_line rfl (Length.le_refl _) id

theorem le_trans (h : p ≤ q) (h' : q ≤ r) : p ≤ r := by
  rcases h with h | ⟨hb, hx, hs⟩
  · rcases h' with h' | ⟨hb', _, _⟩
    · exact le_of_breaks_lt (Nat.lt_trans h h')
    · exact le_of_breaks_lt (hb' ▸ h)
  · rcases h' with h' | ⟨hb', hx', hs'⟩
    · exact le_of_breaks_lt (hb ▸ h')
    · exact le_of_same_line (hb.trans hb') (Length.le_trans hx hx') fun h => hs (hs' h)

/-! ## Places on lines -/

/-- A place on lines that start at `base` is not left of it, and spaces are skipped
    at the start only. -/
structure OnLine (base : Length) (p : Place) : Prop where
  base_le : base ≤ p.x
  x_eq : p.skipping = true → p.x = base

variable {m : Text → Length} {line : Line} {u : Text}

theorem onLine_atStart (base : Length) (b : Nat) : (atStart base b).OnLine base :=
  ⟨Length.le_refl _, fun _ => rfl⟩

theorem OnLine.eq_atStart (h : p.OnLine line.baseX) (hs : p.skipping = true) :
    p = atStart line.baseX p.breaks := by
  cases p
  cases hs
  cases h.x_eq rfl
  rfl

/-- The start of a line comes no later than any place on it or on a later one. -/
theorem OnLine.atStart_le (h : p.OnLine line.baseX) {b : Nat} (hb : b ≤ p.breaks) :
    atStart line.baseX b ≤ p := by
  rcases Nat.lt_or_eq_of_le hb with hb | hb
  · exact le_of_breaks_lt hb
  · exact le_of_same_line hb h.base_le fun _ => rfl

theorem breaks_le_putFirst (m : Text → Length) (line : Line) (b : Nat) (u : Text) :
    b ≤ (putFirst m line b u).breaks := by
  unfold putFirst
  split
  · exact Nat.le_refl b
  · split
    · exact Nat.le_refl b
    · exact Nat.le_succ b

/-- A unit that does not fit breaks a line. -/
theorem breaks_lt_put (hs : ¬(p.skipping ∧ isBlank u)) (h : ¬p.x + m u ≤ line.maxWidth) :
    p.breaks < (put m line p u).breaks := by
  by_cases hx : p.x = line.baseX
  · rw [put_of_forced hs h hx]
    exact Nat.lt_succ_self _
  · rw [put_of_broken hs h hx, put_atStart]
    exact breaks_le_putFirst m line (p.breaks + 1) u

/-- No unit goes back to an earlier line. -/
theorem breaks_le_put (m : Text → Length) (line : Line) (p : Place) (u : Text) :
    p.breaks ≤ (put m line p u).breaks := by
  by_cases hs : p.skipping ∧ isBlank u
  · rw [put_of_skipped hs]
  · by_cases h : p.x + m u ≤ line.maxWidth
    · rw [put_of_fits hs h]
    · exact Nat.le_of_lt (breaks_lt_put hs h)

/-- Widths do not lead to the left of the start of a line. -/
def GoesOn (m : Text → Length) (base : Length) : Prop :=
  ∀ (x : Length) (u : Text), base ≤ x → base ≤ x + m u

theorem OnLine.put (hm : GoesOn m line.baseX) (h : p.OnLine line.baseX) (u : Text) :
    (put m line p u).OnLine line.baseX := by
  have hfits (b : Nat) {x : Length} (hx : line.baseX ≤ x) : OnLine line.baseX ⟨b, x + m u, false⟩ :=
    ⟨hm x u hx, fun h => absurd h Bool.false_ne_true⟩
  unfold Place.put putFirst
  split
  · exact h
  · split
    · exact hfits _ h.base_le
    · split
      · exact onLine_atStart line.baseX _
      · split
        · exact onLine_atStart line.baseX _
        · split
          · exact hfits _ (Length.le_refl _)
          · exact onLine_atStart line.baseX _

/-! ## No unit overtakes another -/

/-- From a place a unit gets no further than from the start of the next line. -/
theorem put_le_put_atStart (hm : GoesOn m line.baseX) (p : Place) (u : Text) :
    put m line p u ≤ put m line (atStart line.baseX (p.breaks + 1)) u := by
  have hb := breaks_le_put m line (atStart line.baseX (p.breaks + 1)) u
  by_cases hs : p.skipping ∧ isBlank u
  · rw [put_of_skipped hs]
    exact le_of_breaks_lt hb
  · by_cases h : p.x + m u ≤ line.maxWidth
    · rw [put_of_fits hs h]
      exact le_of_breaks_lt hb
    · by_cases hx : p.x = line.baseX
      · rw [put_of_forced hs h hx]
        exact ((onLine_atStart line.baseX _).put hm u).atStart_le hb
      · rw [put_of_broken hs h hx]
        exact le_refl _

theorem put_atStart_le_put_atStart (hm : GoesOn m line.baseX) {b b' : Nat} (h : b ≤ b') (u : Text) :
    put m line (atStart line.baseX b) u ≤ put m line (atStart line.baseX b') u := by
  induction h with
  | refl => exact le_refl _
  | step _ ih => exact le_trans ih (put_le_put_atStart hm _ u)

/-- On one line a unit does not overtake another. -/
theorem put_le_put_of_same_line (hm : GoesOn m line.baseX) (hp : p.OnLine line.baseX)
    (hq : q.OnLine line.baseX) (hb : p.breaks = q.breaks) (hx : p.x ≤ q.x)
    (hs : q.skipping = true → p.skipping = true) (u : Text) :
    put m line p u ≤ put m line q u := by
  by_cases hps : p.skipping ∧ isBlank u
  · -- What is skipped leaves `p` at the start of the line.
    rw [put_of_skipped hps, hp.eq_atStart hps.1]
    exact (hq.put hm u).atStart_le (hb ▸ breaks_le_put m line q u)
  · have hqs : ¬(q.skipping ∧ isBlank u) := fun h => hps ⟨hs h.1, h.2⟩
    have hle := Length.add_le_add_right hx (m u)
    by_cases hqf : q.x + m u ≤ line.maxWidth
    · rw [put_of_fits hqs hqf, put_of_fits hps (Length.le_trans hle hqf)]
      exact le_of_same_line hb hle id
    · by_cases hqx : q.x = line.baseX
      · have hpx : p.x = q.x := Length.le_antisymm hx (hqx ▸ hp.base_le)
        rw [put_of_forced hqs hqf hqx, put_of_forced hps (hpx ▸ hqf) (hpx.trans hqx), hb]
        exact le_refl _
      · -- Wherever `p` is, its unit gets no further than from the next line.
        rw [put_of_broken hqs hqf hqx, ← hb]
        exact put_le_put_atStart hm p u

/-- A unit does not overtake another. -/
theorem put_mono (hm : GoesOn m line.baseX) (hp : p.OnLine line.baseX) (hq : q.OnLine line.baseX)
    (h : p ≤ q) (u : Text) : put m line p u ≤ put m line q u := by
  rcases h with h | ⟨hb, hx, hs⟩
  · -- Between the two places there is the start of each line from the next one on.
    have hstart := put_le_put_of_same_line hm (onLine_atStart line.baseX q.breaks) hq rfl hq.base_le
      (fun _ => rfl) u
    exact le_trans (put_le_put_atStart hm p u) (le_trans (put_atStart_le_put_atStart hm h u) hstart)
  · exact put_le_put_of_same_line hm hp hq hb hx hs u

/-! ## Wider lines -/

variable {wider : Line}

theorem putFirst_wider (hb : wider.baseX = line.baseX) (hw : line.maxWidth ≤ wider.maxWidth)
    (b : Nat) (u : Text) : putFirst m wider b u ≤ putFirst m line b u := by
  rw [putFirst, putFirst, hb]
  by_cases hu : isBlank u
  · rw [if_pos hu, if_pos hu]
    exact le_refl _
  · rw [if_neg hu, if_neg hu]
    by_cases hf : line.baseX + m u ≤ line.maxWidth
    · rw [if_pos hf, if_pos (Length.le_trans hf hw)]
      exact le_refl _
    · rw [if_neg hf]
      split
      · exact le_of_breaks_lt (Nat.lt_succ_self b)
      · exact le_refl _

/-- On a wider line a unit gets no further. -/
theorem put_wider (hb : wider.baseX = line.baseX) (hw : line.maxWidth ≤ wider.maxWidth) (p : Place)
    (u : Text) : put m wider p u ≤ put m line p u := by
  by_cases hs : p.skipping ∧ isBlank u
  · rw [put_of_skipped hs, put_of_skipped hs]
    exact le_refl _
  · by_cases hf : p.x + m u ≤ line.maxWidth
    · rw [put_of_fits hs hf, put_of_fits hs (Length.le_trans hf hw)]
      exact le_refl _
    · by_cases hf' : p.x + m u ≤ wider.maxWidth
      · -- Only the wider line has room, and on the other one a line is lost.
        rw [put_of_fits hs hf']
        exact le_of_breaks_lt (breaks_lt_put hs hf)
      · by_cases hx : p.x = line.baseX
        · rw [put_of_forced hs hf hx, put_of_forced hs hf' (hx.trans hb.symm), hb]
          exact le_refl _
        · rw [put_of_broken hs hf hx, put_of_broken hs hf' (hb ▸ hx), put_atStart, put_atStart]
          exact putFirst_wider hb hw _ u

theorem OnLine.putAll (hm : GoesOn m line.baseX) (h : p.OnLine line.baseX) (us : List Text) :
    (putAll m line p us).OnLine line.baseX := by
  induction us generalizing p with
  | nil => exact h
  | cons u us ih => exact ih (h.put hm u)

/-- On a wider line, and from a place that comes no later, units get no further. -/
theorem putAll_wider (hm : GoesOn m line.baseX) (hb : wider.baseX = line.baseX)
    (hw : line.maxWidth ≤ wider.maxWidth) (hp : p.OnLine line.baseX) (hq : q.OnLine line.baseX)
    (h : p ≤ q) (us : List Text) : putAll m wider p us ≤ putAll m line q us := by
  induction us generalizing p q with
  | nil => exact h
  | cons u us ih =>
    have hstep : Place.put m wider p u ≤ Place.put m line q u :=
      le_trans (put_wider hb hw p u) (put_mono hm hp hq h u)
    have hp' : (Place.put m wider p u).OnLine line.baseX := hb ▸ OnLine.put (hb ▸ hm) (hb ▸ hp) u
    exact ih hp' (hq.put hm u) hstep

/-- Where a text starts spaces are not skipped any more. -/
theorem OnLine.unskipped {base : Length} (h : p.OnLine base) :
    OnLine base { p with skipping := false } :=
  ⟨h.base_le, fun hs => absurd hs Bool.false_ne_true⟩

theorem unskipped_le (h : p ≤ q) :
    ({ p with skipping := false } : Place) ≤ { q with skipping := false } :=
  h.imp_right fun ⟨hb, hx, _⟩ => ⟨hb, hx, id⟩

theorem putTexts_wider (hm : GoesOn m line.baseX) (hb : wider.baseX = line.baseX)
    (hw : line.maxWidth ≤ wider.maxWidth) (hp : p.OnLine line.baseX) (hq : q.OnLine line.baseX)
    (h : p ≤ q) (texts : List Text) : putTexts m wider p texts ≤ putTexts m line q texts := by
  induction texts generalizing p q with
  | nil => exact h
  | cons t texts ih =>
    have hp' : (Place.putAll m wider { p with skipping := false } (units t)).OnLine line.baseX :=
      hb ▸ OnLine.putAll (hb ▸ hm) (hb ▸ hp.unskipped) (units t)
    exact ih hp' (hq.unskipped.putAll hm (units t))
      (putAll_wider hm hb hw hp.unskipped hq.unskipped (unskipped_le h) (units t))

end Place

/-! ## Texts on wider lines -/

variable {σ : Type} [Surface σ] {w : Char → Length} {s : σ} {line : Line} {wide : Length}
  {texts : List Text} {pen : Pen}

/-- On a surface where the width of a text is the sum of the widths of its
    characters, wider lines cost no line breaks: texts wrapped in turn with one pen
    break no more lines, and where they break as many the pen ends no further
    right. Lines start at a place in thousandths, the pen does not start left of
    it, and no segment is too wide to be measured exactly. -/
theorem wrapAll_wider (hw : ∀ c, 0 ≤ w c) (hs : Surface.IsPure (widthOf w) s)
    (hbase : ∃ b, line.baseX = .ofThousandths b) (hx : line.baseX ≤ pen.x)
    (hwide : line.maxWidth ≤ wide) (hr : InRange w (wrapAll line texts pen s).steps)
    (hr' : InRange w (wrapAll { line with maxWidth := wide } texts pen s).steps) :
    breaks (wrapAll { line with maxWidth := wide } texts pen s).steps ≤
        breaks (wrapAll line texts pen s).steps ∧
      (breaks (wrapAll { line with maxWidth := wide } texts pen s).steps =
          breaks (wrapAll line texts pen s).steps →
        (wrapAll { line with maxWidth := wide } texts pen s).pen.x ≤
          (wrapAll line texts pen s).pen.x) := by
  have hm : Place.GoesOn (widthOf w) line.baseX := by
    obtain ⟨b, hb⟩ := hbase
    intro x u hxu
    rw [hb] at hxu ⊢
    exact Length.ofThousandths_le_add hxu (Length.sum_nonneg (forall_mem_map_nonneg hw u))
  have hp : Place.OnLine line.baseX ⟨0, pen.x, false⟩ := ⟨hx, fun h => absurd h Bool.false_ne_true⟩
  obtain ⟨_, hnarrow⟩ := wrapAll_eq hw line texts pen hs hr 0 false
  obtain ⟨_, hwide'⟩ := wrapAll_eq hw { line with maxWidth := wide } texts pen hs hr' 0 false
  have hb : ({ line with maxWidth := wide } : Line).baseX = line.baseX := rfl
  have h := Place.putTexts_wider hm hb hwide hp hp (Place.le_refl _) texts
  rw [hnarrow, hwide', Nat.zero_add, Nat.zero_add] at h
  rcases h with h | ⟨hb, hx, _⟩
  · exact ⟨Nat.le_of_lt h, fun he => absurd he (Nat.ne_of_lt h)⟩
  · exact ⟨Nat.le_of_eq hb, fun _ => hx⟩

/-- Case: two texts on lines of two and of three pixels, in which every character is
    one pixel wide. -/
theorem wrapAll_wider_pixel :
    let w : Char → Length := fun _ => .ofPixels 1
    let r : Recorder := { width := widthOf w }
    let line : Line := ⟨0, .ofPixels 2, .ofPixels 1⟩
    let wide : Length := .ofPixels 3
    let texts : List Text := [['a', 'b', 'c'], [' ', 'd', '-', 'e']]
    let narrow := wrapAll line texts ⟨0, 0⟩ r
    let wider := wrapAll { line with maxWidth := wide } texts ⟨0, 0⟩ r
    (∀ c, 0 ≤ w c) ∧ Surface.IsPure (widthOf w) r ∧ (∃ b, line.baseX = .ofThousandths b) ∧
      line.baseX ≤ (0 : Length) ∧ line.maxWidth ≤ wide ∧
      InRange w narrow.steps ∧ InRange w wider.steps ∧
      breaks wider.steps ≤ breaks narrow.steps ∧
        (breaks wider.steps = breaks narrow.steps → wider.pen.x ≤ narrow.pen.x) := by
  intro w r line wide texts narrow wider
  have hw : ∀ c, 0 ≤ w c := fun _ => by decide
  have hs : Surface.IsPure (widthOf w) r := r.isPure
  have hb : ∃ b, line.baseX = .ofThousandths b := ⟨0, rfl⟩
  have hx : line.baseX ≤ (0 : Length) := Length.le_refl 0
  have hwide : line.maxWidth ≤ wide := by decide
  have htexts : ∀ t ∈ texts, extentOf w t ≤ Length.bound := by decide
  have hr : InRange w narrow.steps := wrapAll_inRange hw hs htexts line ⟨0, 0⟩
  have hr' : InRange w wider.steps :=
    wrapAll_inRange hw hs htexts { line with maxWidth := wide } ⟨0, 0⟩
  exact ⟨hw, hs, hb, hx, hwide, hr, hr', wrapAll_wider hw hs hb hx hwide hr hr'⟩

end Wrap

end Lettering
