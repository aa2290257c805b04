import Lettering.Power

/-!
# Single precision

Style values, colours and alphas are binary floating-point numbers of single
precision. `Single` holds one as its sign and the other 31 bits of its
interchange form, its `code`; the finite magnitudes are the natural numbers
`magnitudeOf code` of the unit `2⁻¹⁴⁹`, so every operation is exact integer
arithmetic followed by one rounding (`nearestCode`).

* `magnitudeOf_lt`: the magnitudes grow with the codes, so comparing codes
  compares numbers.
* `nearestCode_magnitudeOf`: a magnitude that a code denotes is rounded to that
  code.
-/

namespace Lettering

/-- A binary floating-point number of single precision: a sign, and the
    exponent and fraction bits as one number. -/
structure Single where
  /-- Whether the sign bit is set. -/
  negative : Bool
  /-- The exponent field followed by the fraction field. -/
  code : Nat
  code_lt : code < 2 ^ 31
deriving DecidableEq, Repr

namespace Single

/-- The code of infinity; the codes below it are finite, those above are not
    numbers. -/
def infinityCode : Nat := 0x7F800000

/-- The magnitude of a finite code, in units of `2⁻¹⁴⁹`. -/
def magnitudeOf (code : Nat) : Nat :=
  if code < 2 ^ 23 then code else (2 ^ 23 + code % 2 ^ 23) <<< (code / 2 ^ 23 - 1)

/-- `num / den` rounded to the nearest natural number, a half to the even one. -/
def roundHalfEven (num den : Nat) : Nat :=
  let q := num / den
  let r := num % den
  if 2 * r < den then q else if den < 2 * r then q + 1 else q + q % 2

/-- The code nearest to the magnitude `num / den`, in units of `2⁻¹⁴⁹`: the
    quotient keeps 24 significant bits, a half going to the even one. Since the
    exponent field stands above the fraction, a carry out of the fraction lands
    in the exponent by itself. -/
def nearestCode (num den : Nat) : Nat :=
  let shift := Nat.log2 (num / den) - 23
  min (shift * 2 ^ 23 + roundHalfEven num (den <<< shift)) infinityCode

theorem nearestCode_le (num den : Nat) : nearestCode num den ≤ infinityCode :=
  Nat.min_le_right _ _

/-- The number of the given sign nearest to `num / den` units of `2⁻¹⁴⁹`. -/
def rounded (negative : Bool) (num den : Nat) : Single where
  negative := negative
  code := nearestCode num den
  code_lt := Nat.lt_of_le_of_lt (nearestCode_le num den) (by decide)

/-- The number with the given 32-bit interchange form. -/
def ofBits (bits : UInt32) : Single where
  negative := 2 ^ 31 ≤ bits.toNat
  code := bits.toNat % 2 ^ 31
  code_lt := Nat.mod_lt _ (by decide)

/-- The 32-bit interchange form, as a natural number. -/
def toBits (x : Single) : Nat := (if x.negative then 2 ^ 31 else 0) + x.code

/-- Positive zero. -/
def zero : Single := ⟨false, 0, by decide⟩

/-- One. -/
def one : Single := ⟨false, 0x3F800000, by decide⟩

/-- Infinity of the given sign. -/
def infinity (negative : Bool) : Single := ⟨negative, infinityCode, by decide⟩

/-- The quiet not-a-number. -/
def nan : Single := ⟨false, 0x7FC00000, by decide⟩

/-- Whether `x` is not a number. -/
def isNaN (x : Single) : Bool := infinityCode < x.code

/-- Whether `x` is one of the two infinities. -/
def isInfinite (x : Single) : Bool := x.code == infinityCode

/-- Whether `x` is a number other than the infinities. -/
def isFinite (x : Single) : Bool := x.code < infinityCode

/-- Whether `x` is one of the two zeros. -/
def isZero (x : Single) : Bool := x.code == 0

/-- The magnitude of a finite number, in units of `2⁻¹⁴⁹`. -/
def magnitude (x : Single) : Nat := magnitudeOf x.code

/-- The place of a number in the order of the numbers, infinities included; the
    two zeros share a place. -/
def rank (x : Single) : Int := if x.negative then -(x.code : Int) else x.code

/-- Equality of numbers: the two zeros are equal, and what is not a number is
    equal to nothing. -/
def numEq (a b : Single) : Bool := !a.isNaN && !b.isNaN && a.rank == b.rank

/-- Strict order of numbers; false for what is not a number. -/
def numLt (a b : Single) : Bool := !a.isNaN && !b.isNaN && a.rank < b.rank

/-- Order of numbers; false for what is not a number. -/
def numLe (a b : Single) : Bool := !a.isNaN && !b.isNaN && a.rank ≤ b.rank

/-- `x` moved to the nearer end of `lo … hi` if it lies outside; what is not a
    number stays as it is. -/
def clamp (x lo hi : Single) : Single :=
  if x.numLt lo then lo else if hi.numLt x then hi else x

/-- The number nearest to an integer. -/
def ofInt (n : Int) : Single := rounded (n < 0) (n.natAbs * 2 ^ 149) 1

/-- The product, rounded to nearest. -/
def mul (a b : Single) : Single :=
  if a.isNaN || b.isNaN then nan
  else if a.isInfinite || b.isInfinite then
    if a.isZero || b.isZero then nan else infinity (a.negative != b.negative)
  else rounded (a.negative != b.negative) (a.magnitude * b.magnitude) (2 ^ 149)

/-- The quotient, rounded to nearest. -/
def div (a b : Single) : Single :=
  if a.isNaN || b.isNaN then nan
  else if a.isInfinite then if b.isInfinite then nan else infinity (a.negative != b.negative)
  else if b.isInfinite then ⟨a.negative != b.negative, 0, by decide⟩
  else if b.isZero then if a.isZero then nan else infinity (a.negative != b.negative)
  else rounded (a.negative != b.negative) (a.magnitude * 2 ^ 149) b.magnitude

instance : Mul Single := ⟨mul⟩

instance : Div Single := ⟨div⟩

/-- The integer nearest to `k · x` for a finite `x`, halves away from zero. -/
def nearestInt (x : Single) (k : Nat) : Int :=
  let n : Nat := (2 * (x.magnitude * k) + 2 ^ 149) / 2 ^ 150
  if x.negative then -(n : Int) else n

/-- Whether `x` is finite and has no fractional part. -/
def isInteger (x : Single) : Bool := x.isFinite && x.magnitude % 2 ^ 149 == 0

/-- The integer part of a finite number. -/
def integerPart (x : Single) : Int :=
  let n : Nat := x.magnitude / 2 ^ 149
  if x.negative then -(n : Int) else n

/-! ## Magnitudes and codes -/

/-- One step in the codes is one step up in the magnitudes. -/
theorem magnitudeOf_lt_succ (c : Nat) : magnitudeOf c < magnitudeOf (c + 1) := by
  simp only [magnitudeOf, Nat.shiftLeft_eq]
  by_cases h₁ : c + 1 < 2 ^ 23
  · have h₀ : c < 2 ^ 23 := by omega
    rw [if_pos h₀, if_pos h₁]
    omega
  · rw [if_neg h₁]
    by_cases h₀ : c < 2 ^ 23
    · have : c = 2 ^ 23 - 1 := by omega
      subst this
      decide
    · rw [if_neg h₀]
      by_cases hc : c % 2 ^ 23 + 1 < 2 ^ 23
      · have hd : (c + 1) / 2 ^ 23 = c / 2 ^ 23 := by omega
        have hm : (c + 1) % 2 ^ 23 = c % 2 ^ 23 + 1 := by omega
        rw [hd, hm]
        exact Nat.mul_lt_mul_of_pos_right (by omega) (Nat.two_pow_pos _)
      · have hd : (c + 1) / 2 ^ 23 - 1 = (c / 2 ^ 23 - 1) + 1 := by omega
        have hm : (c + 1) % 2 ^ 23 = 0 := by omega
        rw [hd, hm, Nat.pow_succ]
        have hp := Nat.two_pow_pos (c / 2 ^ 23 - 1)
        have : c % 2 ^ 23 < 2 ^ 23 := Nat.mod_lt _ (by decide)
        calc (2 ^ 23 + c % 2 ^ 23) * 2 ^ (c / 2 ^ 23 - 1)
            < (2 ^ 23 + 2 ^ 23) * 2 ^ (c / 2 ^ 23 - 1) :=
              Nat.mul_lt_mul_of_pos_right (by omega) hp
          _ = (2 ^ 23 + 0) * (2 ^ (c / 2 ^ 23 - 1) * 2) := by omega

/-- The magnitudes grow with the codes. -/
theorem magnitudeOf_lt {c d : Nat} (h : c < d) : magnitudeOf c < magnitudeOf d := by
  induction d with
  | zero => omega
  | succ d ih =>
    have hd := magnitudeOf_lt_succ d
    rcases Nat.lt_succ_iff_lt_or_eq.mp h with hlt | rfl
    · exact Nat.lt_trans (ih hlt) hd
    · exact hd

/-- A multiple of the divisor is divided without rounding. -/
theorem roundHalfEven_mul (m : Nat) {d : Nat} (h : 0 < d) : roundHalfEven (m * d) d = m := by
  simp [roundHalfEven, Nat.mul_div_cancel _ h, h]

/-- A magnitude that a code denotes is rounded to that code. -/
theorem nearestCode_magnitudeOf {c : Nat} (h : c ≤ infinityCode) :
    nearestCode (magnitudeOf c) 1 = c := by
  simp only [nearestCode, magnitudeOf, Nat.shiftLeft_eq]
  rw [Nat.div_one]
  by_cases hc : c < 2 ^ 23
  · have hs : Nat.log2 c - 23 = 0 := by
      by_cases h0 : c = 0
      · subst h0; decide
      · have := (Nat.log2_lt h0).mpr hc
        omega
    rw [if_pos hc, hs]
    simp only [Nat.zero_mul, Nat.zero_add, Nat.pow_zero, Nat.mul_one]
    rw [show roundHalfEven c 1 = c by simpa using roundHalfEven_mul c Nat.one_pos]
    exact Nat.min_eq_left h
  · rw [if_neg hc]
    have hm := Nat.mod_lt c (show 0 < 2 ^ 23 by decide)
    have hl : Nat.log2 ((2 ^ 23 + c % 2 ^ 23) * 2 ^ (c / 2 ^ 23 - 1)) = 23 + (c / 2 ^ 23 - 1) := by
      have hp := Nat.two_pow_pos (c / 2 ^ 23 - 1)
      rw [Nat.log2_eq_iff (Nat.mul_ne_zero (by omega) (by omega)), Nat.add_right_comm,
        Nat.pow_add, Nat.pow_add]
      exact ⟨Nat.mul_le_mul_right _ (by omega), Nat.mul_lt_mul_of_pos_right (by omega) hp⟩
    simp only [hl, Nat.add_sub_cancel_left, Nat.one_mul]
    rw [roundHalfEven_mul _ (Nat.two_pow_pos _)]
    rw [show (c / 2 ^ 23 - 1) * 2 ^ 23 + (2 ^ 23 + c % 2 ^ 23) = c by omega]
    exact Nat.min_eq_left h
end Single

end Lettering
