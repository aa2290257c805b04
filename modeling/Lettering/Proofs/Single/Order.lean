import Lettering.Single.Basic

/-!
# Numbers as numbers

Two single-precision numbers may be equal as numbers and differ all the same,
as the two zeros do, and what is not a number equals nothing. Away from the
latter, equality as numbers is an equivalence; the product of two finite
numbers stays away from it, for it is at worst infinite.

* `numEq_self_iff`, `numEq_symm`, `numEq_trans`: equality as numbers.
* `isNaN_mul`: the product of finite numbers is a number.
-/

namespace Lettering

namespace Single

variable {x y z lo hi : Single}

theorem numEq_iff : x.numEq y ↔ x.isNaN = false ∧ y.isNaN = false ∧ x.rank = y.rank := by
  simp [numEq, and_assoc]

/-- Whatever is a number equals itself. -/
theorem numEq_self_iff : x.numEq x ↔ x.isNaN = false := by
  simp [numEq_iff]

theorem numEq_symm (h : x.numEq y) : y.numEq x := by
  obtain ⟨hx, hy, hr⟩ := numEq_iff.mp h
  exact numEq_iff.mpr ⟨hy, hx, hr.symm⟩

theorem numEq_trans (h : x.numEq y) (h' : y.numEq z) : x.numEq z := by
  obtain ⟨hx, _, hr⟩ := numEq_iff.mp h
  obtain ⟨_, hz, hr'⟩ := numEq_iff.mp h'
  exact numEq_iff.mpr ⟨hx, hz, hr.trans hr'⟩

/-! ## Finite numbers -/

theorem isFinite_zero : zero.isFinite := by decide

theorem isFinite_one : one.isFinite := by decide

theorem isNaN_of_isFinite (h : x.isFinite) : x.isNaN = false := by
  simp only [isFinite, isNaN, decide_eq_true_eq, decide_eq_false_iff_not] at h ⊢
  omega

theorem isInfinite_of_isFinite (h : x.isFinite) : x.isInfinite = false := by
  simp only [isFinite, isInfinite, decide_eq_true_eq, beq_eq_false_iff_ne] at h ⊢
  omega

/-- A number between finite ends is finite if it was finite. -/
theorem isFinite_clamp (hx : x.isFinite) (hlo : lo.isFinite) (hhi : hi.isFinite) :
    (x.clamp lo hi).isFinite := by
  unfold clamp
  split
  · exact hlo
  · split
    · exact hhi
    · exact hx

theorem isNaN_rounded (negative : Bool) (num den : Nat) :
    (rounded negative num den).isNaN = false :=
  decide_eq_false (Nat.not_lt.mpr (nearestCode_le num den))

/-- The product of finite numbers is a number, though it may be infinite. -/
theorem isNaN_mul (hx : x.isFinite) (hy : y.isFinite) : (x * y).isNaN = false := by
  show (mul x y).isNaN = false
  simp only [mul, isNaN_of_isFinite hx, isNaN_of_isFinite hy, isInfinite_of_isFinite hx,
    isInfinite_of_isFinite hy, Bool.or_self, Bool.false_eq_true, if_false]
  exact isNaN_rounded _ _ _

end Single

end Lettering
