import Lettering.Proofs.Log.Decoding

/-!
# Lengths in writing

A length is written as a decimal of pixels with nothing in it that could be left out
(`Numeral`): no zero in front of the whole part, none behind the fraction, no point without a
fraction, and no sign of zero. The sign, the two parts and the point are put down one after
the other, and it is here that they are seen to fit together.

* `text_numeral`: the text of a length is a numeral of at most three digits behind the point.
* `text_decimal`: it is read as the thousandths of the length, so that lengths that are
  reached are equal if they are written alike.
-/

namespace Lettering

/-- A number in decimal digits, with nothing in it that could be left out. -/
structure Numeral where
  /-- Whether it has a minus sign. -/
  negative : Bool
  /-- The digits in front of the point. -/
  whole : Text
  /-- The digits behind the point; without any, there is no point. -/
  fraction : Text
  isDigit : ∀ c ∈ whole ++ fraction, c.isDigit
  whole_ne_nil : whole ≠ []
  whole_eq_zero : whole.head? = some '0' → whole = ['0']
  getLast?_fraction_ne : fraction.getLast? ≠ some '0'
  ne_zero : negative → whole = ['0'] → fraction ≠ []

/-- The numeral, written down. -/
def Numeral.text (n : Numeral) : Text :=
  (if n.negative then ['-'] else []) ++ n.whole ++
    if n.fraction = [] then [] else '.' :: n.fraction

/-- Zero has no sign. -/
theorem Numeral.text_ne_negativeZero (n : Numeral) : n.text ≠ ['-', '0'] := by
  intro h
  obtain ⟨c, ds, hw⟩ := List.exists_cons_of_ne_nil n.whole_ne_nil
  cases hneg : n.negative with
  | false =>
    -- The text starts with a digit.
    have hc : c = '-' := by
      rw [text, hneg, hw] at h
      exact (List.cons.inj h).1
    have hdigit := n.isDigit c (by simp [hw])
    rw [hc] at hdigit
    exact absurd hdigit (by decide)
  | true =>
    rw [text, hneg, hw] at h
    obtain ⟨rfl, hrest⟩ := List.cons.inj (List.cons.inj h).2
    obtain ⟨hds, hpoint⟩ := List.append_eq_nil_iff.mp hrest
    refine n.ne_zero hneg (by rw [hw, hds]) ?_
    by_contra hf
    rw [if_neg hf] at hpoint
    cases hpoint

namespace Length

open Log

variable {p q : Length}

theorem ofNat_eq_zero_iff {n : Nat} : Text.ofNat n = ['0'] ↔ n = 0 := by
  constructor
  · intro h
    by_contra hn
    exact head?_ofNat_ne hn (congrArg List.head? h)
  · rintro rfl
    rfl

/-- The numeral of a length. -/
def numeral (p : Length) : Numeral where
  negative := p.thousandths < 0
  whole := Text.ofNat (p.thousandths.natAbs / 1000)
  fraction := fraction (p.thousandths.natAbs % 1000)
  isDigit := by
    intro c hc
    rcases List.mem_append.mp hc with hc | hc
    · exact Text.isDigit_ofNat c hc
    · exact isDigit_fraction (Nat.mod_lt _ (by decide)) c hc
  whole_ne_nil := Nat.toDigits_ne_nil
  whole_eq_zero := by
    intro h
    by_cases hn : p.thousandths.natAbs / 1000 = 0
    · exact ofNat_eq_zero_iff.mpr hn
    · exact absurd h (head?_ofNat_ne hn)
  getLast?_fraction_ne := Text.getLast?_trimEndBy_ne rfl _
  ne_zero := by
    -- A number without thousandths and without whole pixels is zero, and has no sign.
    intro hneg hwhole hfraction
    have hneg := of_decide_eq_true hneg
    have hwhole := ofNat_eq_zero_iff.mp hwhole
    have hfraction := (fraction_eq_nil_iff (Nat.mod_lt _ (by decide))).mp hfraction
    omega

/-- The text of a length is a numeral of at most three digits behind the point. -/
theorem text_numeral (p : Length) : p.numeral.text = p.text := by
  have hlt := Nat.mod_lt p.thousandths.natAbs (show 1000 > 0 by decide)
  simp only [Numeral.text, numeral, text, decide_eq_true_eq, fraction_eq_nil_iff hlt]

/-- Every length is written as a decimal numeral, with at most three digits behind the point
    and nothing that could be left out, that is read as its thousandths. So two lengths that
    are reached are written alike only if they are equal. -/
theorem text_decimal :
    (∀ p : Length, (∃ n : Numeral, n.text = p.text ∧ n.fraction.length ≤ 3) ∧
      p.text ≠ ['-', '0'] ∧ Json.number? p.text = some (p.thousandths / 1000 : ℚ)) ∧
    ∀ p q : Length, Reachable p → Reachable q → (p.text = q.text ↔ p = q) := by
  refine ⟨fun p => ⟨⟨p.numeral, text_numeral p, ?_⟩, ?_, number?_text p⟩, ?_⟩
  · exact length_fraction_le (Nat.mod_lt _ (by decide))
  · rw [← text_numeral p]
    exact p.numeral.text_ne_negativeZero
  · intro p q hp hq
    refine ⟨fun h => (hp.eq_iff hq).mpr ?_, congrArg text⟩
    have hread : some p.pixels = some q.pixels := by rw [← number?_text p, h, number?_text q]
    have hpixels := (div_left_inj' (by norm_num)).mp (Option.some_injective _ hread)
    exact_mod_cast hpixels

/-- Case: 5 thousandths less than a pixel, below zero. -/
theorem text_decimal_below :
    Reachable (ofThousandths 5 - ofPixels 1) ∧ Reachable (ofThousandths (-995)) ∧
      (ofThousandths 5 - ofPixels 1).text = "-0.995".toList ∧
      ofThousandths 5 - ofPixels 1 = ofThousandths (-995) := by
  have hp := Reachable.sub (.ofThousandths 5) (.ofPixels 1)
  have hq := Reachable.ofThousandths (-995)
  exact ⟨hp, hq, by decide, (text_decimal.2 _ _ hp hq).mp (by decide)⟩

end Length

end Lettering
