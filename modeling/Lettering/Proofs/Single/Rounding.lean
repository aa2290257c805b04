import Lettering.Single.Basic
import Mathlib.Algebra.Group.Nat.Defs

/-!
# Rounding to single precision

A magnitude is rounded to 24 significant bits. The result is off by half of the last bit
kept, at most; and it is the number of a given code as soon as the magnitude is nearer to
that number than half of the last bit.

* `magnitudeOf_nearestCode`: the number that a magnitude is rounded to, as a multiple of
  its last bit.
* `nearestCode_eq`: which code a magnitude is rounded to.
* `nearestCode_of_near`: a magnitude near to the number of a code is rounded to this
  code. Just below a power of two the numbers are twice as close to one another as
  above, so that there it has to be nearer.
* `nearestCode_le_of_le`: rounding does not go beyond a number.
* `magnitudeOf_succ`: how far it is from one number to the next.
-/

namespace Lettering

namespace Single

/-- Rounding a quotient is off by half at most. -/
theorem roundHalfEven_bounds (num : Nat) {den : Nat} (h : 0 < den) :
    2 * num ≤ 2 * (roundHalfEven num den * den) + den ∧
      2 * (roundHalfEven num den * den) ≤ 2 * num + den := by
  have hdiv := Nat.div_add_mod num den
  have hmod := Nat.mod_lt num h
  rw [Nat.mul_comm] at hdiv
  simp only [roundHalfEven]
  split
  · omega
  · split
    · rw [Nat.succ_mul (num / den)]
      omega
    · -- Just a half: up or down, both are off by it.
      rcases Nat.mod_two_eq_zero_or_one (num / den) with heven | hodd
      · rw [heven, Nat.add_zero]
        omega
      · rw [hodd, Nat.succ_mul (num / den)]
        omega

theorem roundHalfEven_le {num den n : Nat} (hden : 0 < den) (h : 2 * num < 2 * (n * den) + den) :
    roundHalfEven num den ≤ n := by
  obtain ⟨-, hle⟩ := roundHalfEven_bounds num hden
  have hlt : roundHalfEven num den * den < (n + 1) * den := by
    rw [Nat.succ_mul]
    omega
  exact Nat.le_of_lt_succ (Nat.lt_of_mul_lt_mul_right hlt)

theorem le_roundHalfEven {num den n : Nat} (hden : 0 < den) (h : 2 * (n * den) < 2 * num + den) :
    n ≤ roundHalfEven num den := by
  obtain ⟨hle, -⟩ := roundHalfEven_bounds num hden
  have hlt : n * den < (roundHalfEven num den + 1) * den := by
    rw [Nat.succ_mul]
    omega
  exact Nat.le_of_lt_succ (Nat.lt_of_mul_lt_mul_right hlt)

/-- A quotient is rounded to what it is nearer to than a half. -/
theorem roundHalfEven_eq {num den n : Nat} (hden : 0 < den) (h : 2 * num < 2 * (n * den) + den)
    (h' : 2 * (n * den) < 2 * num + den) : roundHalfEven num den = n :=
  Nat.le_antisymm (roundHalfEven_le hden h) (le_roundHalfEven hden h')

/-- The code of `n` units of the last bit, where `n` has 24 bits, or fewer in the lowest
    unit, or is the power of two above. -/
theorem magnitudeOf_add {shift n : Nat} (h : n ≤ 2 ^ 24) (h' : shift = 0 ∨ 2 ^ 23 ≤ n) :
    magnitudeOf (shift * 2 ^ 23 + n) = n * 2 ^ shift := by
  rw [magnitudeOf, Nat.shiftLeft_eq]
  by_cases hlow : n < 2 ^ 23
  · obtain rfl : shift = 0 := by omega
    rw [if_pos (by omega)]
    omega
  · rw [if_neg (by omega)]
    rcases Nat.lt_or_ge n (2 ^ 24) with hlt | hge
    · have hexponent : (shift * 2 ^ 23 + n) / 2 ^ 23 - 1 = shift := by omega
      have hfraction : 2 ^ 23 + (shift * 2 ^ 23 + n) % 2 ^ 23 = n := by omega
      rw [hexponent, hfraction]
    · -- The carry has gone into the exponent.
      have hexponent : (shift * 2 ^ 23 + n) / 2 ^ 23 - 1 = shift + 1 := by omega
      have hfraction : 2 ^ 23 + (shift * 2 ^ 23 + n) % 2 ^ 23 = 2 ^ 23 := by omega
      have hn : n = 2 ^ 23 * 2 := by omega
      have hpow : 2 ^ (shift + 1) = 2 * 2 ^ shift := Nat.pow_succ'
      rw [hexponent, hfraction, hn, hpow, Nat.mul_assoc]

/-- The last bit kept of a quotient: 24 bits are in front of its end, or fewer if it is the
    lowest. -/
theorem lastBit_bounds (num : Nat) {den last : Nat} (hden : 0 < den)
    (h : Nat.log2 (num / den) - 23 = last) :
    (last = 0 ∨ 2 ^ 23 * (den * 2 ^ last) ≤ num) ∧ num < 2 ^ 24 * (den * 2 ^ last) := by
  constructor
  · by_cases hlast : last = 0
    · exact .inl hlast
    refine .inr ?_
    have hlog : Nat.log2 (num / den) = 23 + last := by omega
    have hle : 2 ^ (23 + last) ≤ num / den := by
      rw [← hlog]
      refine Nat.log2_self_le fun hz => ?_
      rw [hz, Nat.log2_zero] at hlog
      omega
    calc 2 ^ 23 * (den * 2 ^ last) = 2 ^ (23 + last) * den := by
          rw [Nat.pow_add, Nat.mul_assoc, Nat.mul_comm (2 ^ last)]
      _ ≤ num / den * den := Nat.mul_le_mul_right den hle
      _ ≤ num := Nat.div_mul_le_self num den
  · have hlt : num / den < 2 ^ (24 + last) :=
      Nat.lt_of_lt_of_le Nat.lt_log2_self (Nat.pow_le_pow_right (by decide) (by omega))
    calc num < 2 ^ (24 + last) * den := (Nat.div_lt_iff_lt_mul hden).mp hlt
      _ = 2 ^ 24 * (den * 2 ^ last) := by
        rw [Nat.pow_add, Nat.mul_assoc, Nat.mul_comm (2 ^ last)]

/-- A magnitude below `2 ^ (24 + shift)` is off by half of `2 ^ shift` at most. -/
theorem magnitudeOf_nearestCode {num shift : Nat} (h : num < 2 ^ (24 + shift)) (hs : shift < 254) :
    2 * num ≤ 2 * magnitudeOf (nearestCode num 1) + 2 ^ shift ∧
      2 * magnitudeOf (nearestCode num 1) ≤ 2 * num + 2 ^ shift := by
  -- The last bit kept is that of the magnitude itself.
  let last := Nat.log2 num - 23
  have hpos := Nat.two_pow_pos last
  have hlast : last ≤ shift := by
    by_cases hz : num = 0
    · simp [last, hz]
    · have := (Nat.log2_lt hz).mpr h
      omega
  obtain ⟨hlo, hhi⟩ := lastBit_bounds num Nat.one_pos (show _ = last by rw [Nat.div_one])
  rw [Nat.one_mul] at hlo hhi
  obtain ⟨hle, hle'⟩ := roundHalfEven_bounds num hpos
  have hqhi : roundHalfEven num (2 ^ last) ≤ 2 ^ 24 := roundHalfEven_le hpos (by omega)
  have hqlo : last = 0 ∨ 2 ^ 23 ≤ roundHalfEven num (2 ^ last) :=
    hlo.imp_right fun hnum => le_roundHalfEven hpos (by omega)
  generalize hq : roundHalfEven num (2 ^ last) = q at hle hle' hqhi hqlo
  have hcode : nearestCode num 1 = last * 2 ^ 23 + q := by
    rw [nearestCode, Nat.div_one, Nat.shiftLeft_eq, Nat.one_mul, hq]
    refine Nat.min_eq_left ?_
    unfold infinityCode
    omega
  have hpow : 2 ^ last ≤ 2 ^ shift := Nat.pow_le_pow_right (by decide) hlast
  rw [hcode, magnitudeOf_add hqhi hqlo]
  omega

/-- The code that a magnitude is rounded to, if it has 24 bits in front of the last one
    and is nearer to a number of them than half of this bit. -/
theorem nearestCode_eq {num shift n : Nat} (hlo : 2 ^ (23 + shift) ≤ num)
    (hhi : num < 2 ^ (24 + shift)) (h : 2 * num < 2 * (n * 2 ^ shift) + 2 ^ shift)
    (h' : 2 * (n * 2 ^ shift) < 2 * num + 2 ^ shift) (hc : shift * 2 ^ 23 + n ≤ infinityCode) :
    nearestCode num 1 = shift * 2 ^ 23 + n := by
  have hlog : Nat.log2 num = 23 + shift := by
    have hpos := Nat.two_pow_pos (23 + shift)
    rw [Nat.log2_eq_iff (by omega)]
    exact ⟨hlo, by rwa [Nat.add_right_comm]⟩
  rw [nearestCode, Nat.div_one, hlog, Nat.add_sub_cancel_left, Nat.shiftLeft_eq, Nat.one_mul,
    roundHalfEven_eq (Nat.two_pow_pos shift) h h']
  exact Nat.min_eq_left hc

theorem rounded_eq {x : Single} {negative : Bool} {num den : Nat} (h : negative = x.negative)
    (h' : nearestCode num den = x.code) : rounded negative num den = x := by
  simp only [rounded, h, h']

theorem magnitudeOf_le {c d : Nat} (h : c ≤ d) : magnitudeOf c ≤ magnitudeOf d := by
  rcases Nat.lt_or_eq_of_le h with hlt | rfl
  · exact Nat.le_of_lt (magnitudeOf_lt hlt)
  · exact Nat.le_refl _

/-- Rounding does not go beyond a number: what is no more than it is rounded to no more. -/
theorem nearestCode_le_of_le {num den c : Nat} (hden : 0 < den) (h : num ≤ magnitudeOf c * den) :
    nearestCode num den ≤ c := by
  obtain ⟨hlo, hhi⟩ := lastBit_bounds num hden rfl
  rw [nearestCode, Nat.shiftLeft_eq]
  generalize Nat.log2 (num / den) - 23 = last at hlo hhi ⊢
  have hunit : 0 < den * 2 ^ last := Nat.mul_pos hden (Nat.two_pow_pos last)
  have hle : roundHalfEven num (den * 2 ^ last) ≤ 2 ^ 24 := roundHalfEven_le hunit (by omega)
  generalize hr : roundHalfEven num (den * 2 ^ last) = r at hle ⊢
  have hscaled (k : Nat) : k * 2 ^ last * den = k * (den * 2 ^ last) := by
    rw [Nat.mul_assoc, Nat.mul_comm (2 ^ last)]
  refine Nat.le_trans (Nat.min_le_left _ _) (Nat.le_of_not_lt fun hlt => ?_)
  by_cases hbits : last = 0 ∨ 2 ^ 23 < r
  · -- The number is below the one that the magnitude is rounded to, in the same bits.
    have hmag : magnitudeOf (last * 2 ^ 23 + (r - 1)) = (r - 1) * 2 ^ last :=
      magnitudeOf_add (by omega) (by omega)
    have hc : magnitudeOf c ≤ (r - 1) * 2 ^ last := hmag ▸ magnitudeOf_le (by omega)
    have hnum : num ≤ (r - 1) * (den * 2 ^ last) :=
      hscaled _ ▸ Nat.le_trans h (Nat.mul_le_mul_right den hc)
    have hround : roundHalfEven num (den * 2 ^ last) ≤ r - 1 := roundHalfEven_le hunit (by omega)
    omega
  · -- The number has fewer bits than the magnitude.
    rw [not_or] at hbits
    have hmag : magnitudeOf (last * 2 ^ 23 + 2 ^ 23) = 2 ^ 23 * 2 ^ last :=
      magnitudeOf_add (by omega) (.inr (Nat.le_refl _))
    have hc : magnitudeOf c < 2 ^ 23 * 2 ^ last := hmag ▸ magnitudeOf_lt (by omega)
    have hnum : num < 2 ^ 23 * (den * 2 ^ last) :=
      hscaled _ ▸ Nat.lt_of_le_of_lt h (Nat.mul_lt_mul_of_pos_right hc hden)
    exact absurd (hlo.resolve_left hbits.1) (Nat.not_le.mpr hnum)

theorem lt_of_magnitudeOf_lt {c d : Nat} (h : magnitudeOf c < magnitudeOf d) : c < d :=
  Nat.lt_of_not_le fun hle => Nat.not_lt.mpr (magnitudeOf_le hle) h

theorem magnitudeOf_le_iff {c d : Nat} : magnitudeOf c ≤ magnitudeOf d ↔ c ≤ d :=
  ⟨fun h => Nat.le_of_not_lt fun hlt => Nat.not_le.mpr (magnitudeOf_lt hlt) h, magnitudeOf_le⟩

theorem magnitudeOf_of_le {c : Nat} (h : 2 ^ 23 ≤ c) :
    magnitudeOf c = (2 ^ 23 + c % 2 ^ 23) * 2 ^ (c / 2 ^ 23 - 1) := by
  rw [magnitudeOf, if_neg (by omega), Nat.shiftLeft_eq]

/-- From one number to the next it is a step of the last bit. -/
theorem magnitudeOf_succ (c : Nat) :
    magnitudeOf (c + 1) = magnitudeOf c + 2 ^ (c / 2 ^ 23 - 1) := by
  by_cases hlow : c < 2 ^ 23
  · have hone : c + 1 = 0 * 2 ^ 23 + (c + 1) := by omega
    have he : c / 2 ^ 23 - 1 = 0 := by omega
    rw [hone, magnitudeOf_add (by omega) (.inl rfl), he, magnitudeOf, if_pos hlow, Nat.pow_zero,
      Nat.mul_one]
  · have hcode : c + 1 = (c / 2 ^ 23 - 1) * 2 ^ 23 + (2 ^ 23 + c % 2 ^ 23 + 1) := by omega
    rw [hcode, magnitudeOf_add (by omega) (.inr (by omega)), magnitudeOf_of_le (by omega),
      Nat.succ_mul]

/-- What is near to the number of a code is rounded to this code. -/
theorem nearestCode_of_near {num c : Nat} (hc : 2 ^ 23 ≤ c) (hc' : c ≤ infinityCode)
    (h : 2 * num < 2 * magnitudeOf c + 2 ^ (c / 2 ^ 23 - 1))
    (h' : 2 * magnitudeOf c < 2 * num + 2 ^ (c / 2 ^ 23 - 1))
    (hlow : c % 2 ^ 23 = 0 → 4 * magnitudeOf c < 4 * num + 2 ^ (c / 2 ^ 23 - 1)) :
    nearestCode num 1 = c := by
  rw [magnitudeOf_of_le hc] at h h' hlow
  have hfraction := Nat.mod_lt c (show 0 < 2 ^ 23 by decide)
  have hcode : (c / 2 ^ 23 - 1) * 2 ^ 23 + (2 ^ 23 + c % 2 ^ 23) = c := by omega
  generalize c / 2 ^ 23 - 1 = e at h h' hlow hcode
  generalize c % 2 ^ 23 = f at h h' hlow hfraction hcode
  have hhi : num < 2 ^ (24 + e) := by
    have := Nat.mul_le_mul_right (2 ^ e) (show 2 ^ 23 + f + 1 ≤ 2 ^ 24 by omega)
    rw [Nat.succ_mul] at this
    rw [Nat.pow_add]
    omega
  rcases Nat.lt_or_ge num (2 ^ (23 + e)) with hlt | hge
  · -- The magnitude is below a power of two, which is the number of the code.
    rw [Nat.pow_add] at hlt
    obtain rfl : f = 0 := by
      refine Nat.eq_zero_of_not_pos fun hf => ?_
      have := Nat.mul_le_mul_right (2 ^ e) (show 2 ^ 23 + 1 ≤ 2 ^ 23 + f by omega)
      rw [Nat.succ_mul] at this
      omega
    have hlow := hlow rfl
    cases e with
    | zero => omega
    | succ k =>
      have hcode' : k * 2 ^ 23 + 2 ^ 24 = c := by omega
      rw [Nat.pow_succ] at hlt hlow
      rw [← hcode'] at hc' ⊢
      refine nearestCode_eq ?_ ?_ ?_ ?_ hc'
      · rw [Nat.pow_add]
        omega
      · rw [Nat.pow_add]
        omega
      · omega
      · omega
  · exact hcode ▸ nearestCode_eq hge hhi h h' (hcode ▸ hc')

end Single

end Lettering
