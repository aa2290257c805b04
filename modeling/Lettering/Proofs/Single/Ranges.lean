import Lettering.Proofs.Single.Order
import Lettering.Proofs.Single.Rounding

/-!
# Numbers in a range

Clamping takes a number into a range, and dividing by the upper end takes the
range from zero on to the numbers from 0 to 1: a quotient that is at most 1 is
not rounded beyond it. What is not a number goes through both as it is.

* `clamp_mem`, `isNaN_clamp`: what is clamped is in the range, unless it is not a
  number.
* `inUnit_div`: the quotient of a number by a larger one.
-/

namespace Lettering

namespace Single

variable {x y lo hi : Single}

/-- The number is from 0 to 1. -/
def InUnit (x : Single) : Prop := zero.numLe x ∧ x.numLe one
deriving Decidable

theorem numLe_iff : x.numLe y ↔ x.isNaN = false ∧ y.isNaN = false ∧ x.rank ≤ y.rank := by
  simp [numLe, and_assoc]

theorem numLt_iff : x.numLt y ↔ x.isNaN = false ∧ y.isNaN = false ∧ x.rank < y.rank := by
  simp [numLt, and_assoc]

/-- A positive number has no sign. -/
theorem code_of_pos (h : zero.numLt x) : x.negative = false ∧ 0 < x.code := by
  obtain ⟨-, -, h⟩ := numLt_iff.mp h
  simp only [rank, zero] at h
  grind

/-- Without a sign, the numbers are in the order of their magnitudes. -/
theorem numLe_iff_magnitude (hx : x.isFinite) (hy : y.isFinite) (hsx : x.negative = false)
    (hsy : y.negative = false) : x.numLe y ↔ x.magnitude ≤ y.magnitude := by
  rw [numLe_iff, magnitude, magnitude, magnitudeOf_le_iff]
  simp [isNaN_of_isFinite hx, isNaN_of_isFinite hy, rank, hsx, hsy]

/-- A number in a range is a number. -/
theorem InUnit.isNaN_eq_false (h : InUnit x) : x.isNaN = false := (numLe_iff.mp h.1).2.1

/-! ## Clamping -/

theorem isNaN_clamp (hlo : lo.isNaN = false) (hhi : hi.isNaN = false) :
    (x.clamp lo hi).isNaN = x.isNaN := by
  unfold clamp
  split
  · rename_i hx
    rw [hlo, (numLt_iff.mp hx).1]
  · split
    · rename_i hx
      rw [hhi, (numLt_iff.mp hx).2.1]
    · rfl

/-- What is clamped to a range is in it, if it is a number. -/
theorem clamp_mem (hx : x.isNaN = false) (h : lo.numLe hi) :
    lo.numLe (x.clamp lo hi) ∧ (x.clamp lo hi).numLe hi := by
  obtain ⟨hlo, hhi, hrank⟩ := numLe_iff.mp h
  simp only [clamp, numLe_iff, numLt_iff]
  grind

/-! ## Quotients -/

/-- From 0 to a positive number, only 0 may have a sign. -/
theorem code_le_of_numLe (hx : zero.numLe x) (hxy : x.numLe y) (hy : y.negative = false) :
    x.code ≤ y.code ∧ (x.negative → x.code = 0) := by
  obtain ⟨-, -, hx⟩ := numLe_iff.mp hx
  obtain ⟨-, -, hxy⟩ := numLe_iff.mp hxy
  simp only [rank, zero, hy] at hx hxy
  grind

theorem isNaN_div (hx : x.isNaN) (y : Single) : (x / y).isNaN := by
  show (div x y).isNaN
  rw [div, hx, Bool.true_or, if_pos rfl]
  decide

theorem div_eq_rounded (hx : x.isFinite) (hy : y.isFinite) (h : 0 < y.code) :
    x / y = rounded (x.negative != y.negative) (x.magnitude * 2 ^ 149) y.magnitude := by
  have hzero : y.isZero = false := beq_eq_false_iff_ne.mpr (Nat.ne_of_gt h)
  show div x y = _
  simp only [div, isNaN_of_isFinite hx, isNaN_of_isFinite hy, isInfinite_of_isFinite hx,
    isInfinite_of_isFinite hy, hzero, Bool.or_self, Bool.false_eq_true, if_false]

theorem magnitudeOf_one : magnitudeOf one.code = 2 ^ 149 := by decide

/-- A number is rounded to one from 0 to 1 if its code is, and 0 alone may have a sign. -/
theorem inUnit_rounded {negative : Bool} {num den : Nat} (h : nearestCode num den ≤ one.code)
    (hsign : negative → nearestCode num den = 0) : InUnit (rounded negative num den) := by
  have hnan := isNaN_rounded negative num den
  have hrank : 0 ≤ (rounded negative num den).rank ∧
      (rounded negative num den).rank ≤ one.code := by
    cases negative with
    | true =>
      simp only [rank, rounded, hsign rfl, if_true]
      decide
    | false => exact ⟨Int.natCast_nonneg _, Int.ofNat_le.mpr h⟩
  exact ⟨numLe_iff.mpr ⟨by decide, hnan, hrank.1⟩, numLe_iff.mpr ⟨hnan, by decide, hrank.2⟩⟩

/-- The quotient of a number by one that is no less is not rounded beyond 1. -/
theorem inUnit_div (hx : zero.numLe x) (hxy : x.numLe y) (hy : zero.numLt y) (hfin : y.isFinite) :
    InUnit (x / y) := by
  obtain ⟨hsign, hpos⟩ := code_of_pos hy
  obtain ⟨hcode, hzero⟩ := code_le_of_numLe hx hxy hsign
  have hxfin : x.isFinite := decide_eq_true (Nat.lt_of_le_of_lt hcode (of_decide_eq_true hfin))
  have hy0 : 0 < y.magnitude := Nat.zero_lt_of_lt (magnitudeOf_lt hpos)
  rw [div_eq_rounded hxfin hfin hpos, hsign, Bool.bne_false]
  refine inUnit_rounded (nearestCode_le_of_le hy0 ?_) fun hnegative => ?_
  · rw [magnitudeOf_one, Nat.mul_comm]
    exact Nat.mul_le_mul_left _ (magnitudeOf_le hcode)
  · have hmag : x.magnitude = 0 := by
      rw [magnitude, hzero hnegative]
      rfl
    refine Nat.le_zero.mp (nearestCode_le_of_le hy0 ?_)
    rw [hmag, Nat.zero_mul]
    exact Nat.zero_le _

/-! ## Whole numbers -/

/-- What is below a whole number that is not rounded stays below it. -/
theorem numLe_ofInt {m n : Nat} (h : m ≤ n) (hn : (ofInt n).magnitude = n * 2 ^ 149) :
    zero.numLe (ofInt m) ∧ (ofInt m).numLe (ofInt n) := by
  have hcode : (ofInt m).code ≤ (ofInt n).code := by
    refine nearestCode_le_of_le Nat.one_pos ?_
    rw [← magnitude, hn, Nat.mul_one]
    exact Nat.mul_le_mul_right _ h
  have hsign (k : Nat) : (ofInt k).negative = false :=
    decide_eq_false (Int.not_lt.mpr (Int.natCast_nonneg k))
  simp only [numLe_iff, rank, hsign, Bool.false_eq_true, if_false]
  exact ⟨⟨by decide, isNaN_rounded _ _ _, Int.natCast_nonneg _⟩, isNaN_rounded _ _ _,
    isNaN_rounded _ _ _, Int.ofNat_le.mpr hcode⟩

end Single

end Lettering
