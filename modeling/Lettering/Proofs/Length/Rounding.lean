import Lettering.Proofs.Length.Words
import Mathlib.Algebra.Order.Field.Basic
import Mathlib.Algebra.Order.Field.Rat
import Mathlib.Tactic.FieldSimp
import Mathlib.Tactic.Linarith

/-!
# Ratios, rounded

The thousandths of a scaled length are a quotient, and seldom a whole number. They are
rounded to the nearest one, and of two that are as near to the one farther from zero
(`IsRounded`). What computes them adds half of the divisor, as a whole number, before a
division that drops the rest; for every sign of the two numbers, and whether or not the
divisor is even, this comes to the same (`isRounded_ratio`).

* `IsRounded.unique`: a number is rounded to one integer.
* `timesRatio_rounds`: a length times a ratio is the exact quotient in thousandths, rounded
  once and clipped; it depends on the quotient only, and is computed in words.
-/

namespace Lettering

namespace Length

/-- The nearest integer, and of two that are as near the one farther from zero. -/
structure IsRounded (x : ℚ) (n : ℤ) : Prop where
  nearest : ∀ k : ℤ, |(n : ℚ) - x| ≤ |(k : ℚ) - x|
  away : ∀ k : ℤ, |(k : ℚ) - x| = |(n : ℚ) - x| → |k| ≤ |n|

variable {x : ℚ} {n : ℤ}

/-- An integer is as near as can be if it is at most a half away, and just a half only on
    the far side. -/
theorem IsRounded.of_le (h : |(n : ℚ) - x| ≤ 1 / 2) (h' : |(n : ℚ) - x| = 1 / 2 → |x| ≤ |(n : ℚ)|) :
    IsRounded x n := by
  -- Two integers are at least one apart.
  have hfar {k : ℤ} (hk : k ≠ n) : 1 ≤ |(k : ℚ) - x| + |(n : ℚ) - x| := by
    have hpos : 0 < |k - n| := abs_pos.mpr (sub_ne_zero.mpr hk)
    have hone : (1 : ℚ) ≤ |(k : ℚ) - n| := by exact_mod_cast hpos
    have htri := abs_sub_le (k : ℚ) x n
    rw [abs_sub_comm x (n : ℚ)] at htri
    exact hone.trans htri
  constructor
  · intro k
    by_cases hk : k = n
    · rw [hk]
    · linarith [hfar hk]
  · intro k he
    by_cases hk : k = n
    · rw [hk]
    · -- The number lies in the middle of the two, which are one apart.
      have hhalf : |(n : ℚ) - x| = 1 / 2 := by linarith [hfar hk]
      have hsum : (k : ℚ) + n = 2 * x := by
        rcases abs_eq_abs.mp he with heq | heq
        · exact absurd (Int.cast_injective (sub_left_injective heq)) hk
        · linarith
      have hle : |(k : ℚ) + n| ≤ 2 * |(n : ℚ)| := by
        rw [hsum, abs_mul, abs_two]
        linarith [h' hhalf]
      have hone : |(k : ℚ) - n| ≤ 1 := by
        have htri := abs_sub_le (k : ℚ) x n
        rw [abs_sub_comm x (n : ℚ), he, hhalf] at htri
        linarith
      have hle' : |k + n| ≤ 2 * |n| := by exact_mod_cast hle
      have hone' : |k - n| ≤ 1 := by exact_mod_cast hone
      rw [abs_le] at hle' hone' ⊢
      rcases abs_cases n with ⟨hn, -⟩ | ⟨hn, -⟩ <;> rw [hn] at hle' ⊢ <;> omega

theorem IsRounded.neg (h : IsRounded x n) : IsRounded (-x) (-n) := by
  have hdist (k : ℤ) : |(k : ℚ) - -x| = |((-k : ℤ) : ℚ) - x| := by
    rw [Int.cast_neg, sub_neg_eq_add, ← abs_neg, neg_add, ← sub_eq_add_neg]
  constructor
  · intro k
    rw [hdist, hdist, neg_neg]
    exact h.nearest (-k)
  · intro k he
    rw [hdist, hdist, neg_neg] at he
    rw [← abs_neg k, abs_neg n]
    exact h.away (-k) he

/-- Nearest and farthest from zero is one integer at most. -/
theorem IsRounded.unique {m : ℤ} (h : IsRounded x m) (h' : IsRounded x n) : m = n := by
  have hdist : |(m : ℚ) - x| = |(n : ℚ) - x| := (h.nearest n).antisymm (h'.nearest m)
  have hsize : |m| = |n| := (h'.away m hdist).antisymm (h.away n hdist.symm)
  rcases abs_eq_abs.mp hsize with heq | hneg
  · exact heq
  · -- Of an integer and its opposite, zero lies in the middle, and is as near.
    have hm : |(m : ℚ)| ≤ 0 := by
      rcases abs_eq_abs.mp hdist with hd | hd
      · have hn : (n : ℚ) = -n := by
          rw [hneg, Int.cast_neg] at hd
          linarith
        rw [hneg, Int.cast_neg, abs_neg, self_eq_neg.mp hn, abs_zero]
      · have hx : x = 0 := by
          rw [hneg, Int.cast_neg] at hd
          linarith
        have h0 := h.nearest 0
        rwa [hx, sub_zero, Int.cast_zero, sub_zero, abs_zero] at h0
    have hm' : m = 0 := by exact_mod_cast abs_nonpos_iff.mp hm
    rw [hm', zero_eq_neg.mp (hm'.symm.trans hneg)]

/-! ## Division -/

theorem ratio_neg_left {a : ℤ} (ha : 0 < a) (d : ℤ) : ratio (-a) d = -ratio a d := by
  rw [ratio, ratio, if_neg (by omega), if_pos ha.le, neg_neg]

theorem ratio_neg_right (a d : ℤ) : ratio a (-d) = -ratio a d := by
  unfold ratio
  simp only [Int.natAbs_neg, Int.tdiv_neg]
  split <;> rfl

/-- Half of the divisor more, and the rest dropped, is the quotient rounded. -/
theorem isRounded_ratio_of_pos {a d : ℤ} (ha : 0 ≤ a) (hd : 0 < d) :
    IsRounded ((a : ℚ) / d) (ratio a d) := by
  have hd' : (0 : ℚ) < d := by exact_mod_cast hd
  have hr : ratio a d = (a + d / 2) / d := by
    rw [ratio, if_pos ha, Int.natAbs_of_nonneg hd.le, Int.tdiv_eq_ediv_of_nonneg (by omega)]
  have hdiv := Int.emod_add_mul_ediv (a + d / 2) d
  have hlo := Int.emod_nonneg (a + d / 2) hd.ne'
  have hhi := Int.emod_lt_of_pos (a + d / 2) hd
  rw [← hr] at hdiv
  generalize ratio a d = n at hdiv ⊢
  have hdist : |(n : ℚ) - a / d| = (|d * n - a| : ℤ) / d := by
    have hq : (n : ℚ) - a / d = (d * n - a : ℤ) / d := by
      push_cast
      field_simp
    rw [hq, abs_div, abs_of_pos hd', Int.cast_abs]
  apply IsRounded.of_le
  · have hle : |d * n - a| * 2 ≤ 1 * d := by
      rcases abs_cases (d * n - a) with ⟨he, -⟩ | ⟨he, -⟩ <;> omega
    rw [hdist, div_le_div_iff₀ hd' two_pos]
    exact_mod_cast hle
  · intro he
    rw [hdist, div_eq_div_iff hd'.ne' two_ne_zero] at he
    have he' : |d * n - a| * 2 = 1 * d := by exact_mod_cast he
    have hfar : a ≤ n * d := by
      rw [Int.mul_comm]
      rcases abs_cases (d * n - a) with ⟨hd, -⟩ | ⟨hd, -⟩ <;> omega
    have hx : (a : ℚ) / d ≤ n := by
      rw [div_le_iff₀ hd']
      exact_mod_cast hfar
    have hpos : (0 : ℚ) ≤ a / d := div_nonneg (by exact_mod_cast ha) hd'.le
    rw [abs_of_nonneg hpos, abs_of_nonneg (hpos.trans hx)]
    exact hx

/-- The ratio of two numbers is their quotient, rounded. -/
theorem isRounded_ratio (a : ℤ) {d : ℤ} (h : d ≠ 0) : IsRounded ((a : ℚ) / d) (ratio a d) := by
  -- The signs are taken off one after the other.
  have hpos {d : ℤ} (hd : 0 < d) (a : ℤ) : IsRounded ((a : ℚ) / d) (ratio a d) := by
    rcases lt_or_ge a 0 with ha | ha
    · have hneg := (isRounded_ratio_of_pos (a := -a) (by omega) hd).neg
      rwa [Int.cast_neg, neg_div, neg_neg, ← ratio_neg_left (by omega), neg_neg] at hneg
    · exact isRounded_ratio_of_pos ha hd
  rcases lt_or_gt_of_ne h with hd | hd
  · have hneg := (hpos (d := -d) (by omega) a).neg
    rwa [Int.cast_neg, div_neg, neg_neg, ratio_neg_right, neg_neg] at hneg
  · exact hpos hd a

/-- A length times a ratio is the exact product in thousandths, rounded and moved into the
    range of lengths. -/
theorem timesRatio_eq (p : Length) (num : ℤ) {den : ℤ} (h : den ≠ 0) :
    ∃ n : ℤ, IsRounded ((p.thousandths : ℚ) * num / den) n ∧
      p.timesRatio num den = ofThousandths n := by
  refine ⟨ratio (p.thousandths * num) den, ?_, if_neg h⟩
  exact_mod_cast isRounded_ratio (p.thousandths * num) h

/-- The two numbers of a ratio may change their signs together. -/
theorem timesRatio_neg_neg (p : Length) (num den : ℤ) :
    p.timesRatio (-num) (-den) = p.timesRatio num den := by
  by_cases h : den = 0
  · rw [h]
    rfl
  · obtain ⟨m, hm, hp⟩ := p.timesRatio_eq num h
    obtain ⟨n, hn, hp'⟩ := p.timesRatio_eq (-num) (neg_ne_zero.mpr h)
    rw [Int.cast_neg, Int.cast_neg, mul_neg, neg_div_neg_eq] at hn
    rw [hp, hp', hm.unique hn]

theorem toInt_neg_of_ne {k : Int32} (h : k ≠ .minValue) : (-k).toInt = -k.toInt := by
  have hlo := k.le_toInt
  have hhi := k.toInt_lt
  have hne : k.toInt ≠ -2 ^ 31 := fun he => h (Int32.toInt_inj.mp he)
  rw [Int32.toInt_neg, Int.bmod_eq_of_le (by omega) (by omega)]

/-- A length times a ratio of words of 32 bits, of any signs, is the exact product in
    thousandths, rounded to the nearest integer, a half away from zero, and clipped. It is
    the same when both words have their signs changed, provided that there are such words;
    and nothing on the way to it overflows words of 128 bits. -/
theorem timesRatio_rounds (p : Length) (num : Int32) {den : Int32} (h : den ≠ 0) :
    (∃ n : ℤ, IsRounded ((p.thousandths : ℚ) * num.toInt / den.toInt) n ∧
      (p.timesRatio num.toInt den.toInt).thousandths = clip n) ∧
    (num ≠ .minValue → den ≠ .minValue →
      p.timesRatio (-num).toInt (-den).toInt = p.timesRatio num.toInt den.toInt) ∧
    p.timesRatio? num.toInt den.toInt = some (p.timesRatio num.toInt den.toInt) := by
  have hden : den.toInt ≠ 0 := fun he => h (Int32.toInt_inj.mp he)
  refine ⟨?_, ?_, timesRatio?_eq p num den⟩
  · obtain ⟨n, hn, hp⟩ := p.timesRatio_eq num.toInt hden
    refine ⟨n, hn, ?_⟩
    rw [hp]
    exact thousandths_ofThousandths n
  · intro hnum hden'
    rw [toInt_neg_of_ne hnum, toInt_neg_of_ne hden']
    exact timesRatio_neg_neg p num.toInt den.toInt

/-- Case: five thousandths times 3 over -2 are minus seven and a half of them, of which
    eight are left; the word that the sign of the denominator has been moved to does not
    matter. -/
theorem timesRatio_rounds_half :
    (-2 : Int32) ≠ 0 ∧ ((ofThousandths 5).timesRatio 3 (-2)).thousandths = -8 ∧
      (ofThousandths 5).timesRatio (-3) 2 = (ofThousandths 5).timesRatio 3 (-2) := by
  have hne : (-2 : Int32) ≠ 0 := by decide
  obtain ⟨-, hneg, -⟩ := timesRatio_rounds (ofThousandths 5) 3 hne
  exact ⟨hne, by decide, hneg (by decide) (by decide)⟩

end Length

end Lettering
