import Lettering.Length
import Lettering.Proofs.Single.Order
import Lettering.Proofs.Single.Rounding

/-!
# Lengths and single precision

A length has 64 bits and a number 24, so not every length survives the way to a number
and back. It does survive up to 16384 pixels, where two numbers are nearer to one another
than two lengths; and beyond, the way back and forth changes a length once at most: what
comes out of it is the length of a number, and stays.

* `ofSingle_toSingle_ofThousandths`: lengths up to 16384 pixels survive.
* `ofSingle_toSingle_iff`: what survives are just the lengths of numbers.
-/

namespace Lettering

namespace Length

/-! ## Numbers to lengths -/

/-- A magnitude with a sign. -/
def signed (negative : Bool) (n : Nat) : Int := if negative then -(n : Int) else n

theorem natAbs_signed (negative : Bool) (n : Nat) : (signed negative n).natAbs = n := by
  cases negative
  · exact Int.natAbs_natCast n
  · exact (Int.natAbs_neg n).trans (Int.natAbs_natCast n)

theorem signed_neg_iff {negative : Bool} {n : Nat} (h : 0 < n) :
    signed negative n < 0 ↔ negative := by
  cases negative
  · exact iff_of_false (Int.not_lt.mpr (Int.natCast_nonneg n)) Bool.false_ne_true
  · exact iff_of_true (Int.neg_neg_of_pos (Int.natCast_pos.mpr h)) rfl

theorem signed_natAbs (m : Int) : signed (m < 0) m.natAbs = m := by
  unfold signed
  split
  · rename_i h
    have := of_decide_eq_true h
    omega
  · rename_i h
    have : ¬ m < 0 := fun hm => h (decide_eq_true hm)
    omega

theorem nearestInt_eq (x : Single) (k : Nat) :
    x.nearestInt k = signed x.negative ((2 * (x.magnitude * k) + 2 ^ 149) / 2 ^ 150) := rfl

theorem natAbs_nearestInt (x : Single) (k : Nat) :
    (x.nearestInt k).natAbs = (2 * (x.magnitude * k) + 2 ^ 149) / 2 ^ 150 := by
  rw [nearestInt_eq, natAbs_signed]

theorem nearestInt_neg_iff {x : Single} {k : Nat} (h : 0 < (x.nearestInt k).natAbs) :
    x.nearestInt k < 0 ↔ x.negative := by
  rw [nearestInt_eq, natAbs_signed] at h
  rw [nearestInt_eq, signed_neg_iff h]

theorem ofSingle_of_isFinite {x : Single} (h : x.isFinite) :
    ofSingle x = ofThousandths (clipWord (x.nearestInt 1000)) := if_pos h

/-- Numbers that are equal are the same length. -/
theorem ofSingle_eq_of_numEq {x y : Single} (h : x.numEq y) : ofSingle x = ofSingle y := by
  obtain ⟨-, -, hrank⟩ := Single.numEq_iff.mp h
  change signed x.negative x.code = signed y.negative y.code at hrank
  have hcode : x.code = y.code := by
    rw [← natAbs_signed x.negative x.code, hrank, natAbs_signed]
  have hmagnitude : x.magnitude = y.magnitude := congrArg Single.magnitudeOf hcode
  have hnearest : x.nearestInt 1000 = y.nearestInt 1000 := by
    rw [nearestInt_eq, nearestInt_eq, hmagnitude]
    rcases Nat.eq_zero_or_pos y.code with hzero | hpos
    · rw [Single.magnitude, hzero]
      cases x.negative <;> cases y.negative <;> rfl
    · have hsign : x.negative = y.negative := by
        rw [hcode] at hrank
        rw [Bool.eq_iff_iff, ← signed_neg_iff hpos, ← signed_neg_iff hpos, hrank]
      rw [hsign]
  unfold ofSingle Single.isFinite
  rw [hnearest, hcode]

/-! ## Lengths to numbers -/

/-- The word of a number of thousandths that is not clipped. -/
theorem word_ofThousandths {m : Int} (h : m.natAbs < bound.natAbs) :
    (ofThousandths m).word.natAbs = (m.natAbs * 2 ^ 32 + 500) / 1000 ∧
      ((ofThousandths m).word < 0 ↔ m < 0) := by
  simp only [bound] at h
  simp only [ofThousandths, widened, clipWord, tdiv_eq_floor]
  split <;> split <;> omega

theorem toSingle_ofThousandths {m : Int} (h : m.natAbs < bound.natAbs) :
    (ofThousandths m).toSingle =
      Single.rounded (m < 0) ((m.natAbs * 2 ^ 32 + 500) / 1000 * 2 ^ 117) 1 := by
  obtain ⟨hword, hsign⟩ := word_ofThousandths h
  rw [toSingle, hword, decide_eq_decide.mpr hsign]

/-- No length is too long for a number. -/
theorem isFinite_toSingle (p : Length) : p.toSingle.isFinite := by
  have hlo := p.neg_le_word
  have hhi := p.word_lt
  have hnum : p.word.natAbs * 2 ^ 117 < 2 ^ (24 + 157) := by omega
  obtain ⟨-, hle⟩ := Single.magnitudeOf_nearestCode hnum (by decide)
  have hne : Single.nearestCode (p.word.natAbs * 2 ^ 117) 1 ≠ Single.infinityCode := by
    intro he
    rw [he, show Single.magnitudeOf Single.infinityCode = 2 ^ 23 * 2 ^ 254 by decide] at hle
    omega
  exact decide_eq_true (Nat.lt_of_le_of_ne (Single.nearestCode_le _ _) hne)

/-! ## There and back -/

/-- Up to 16384 pixels a length survives the way to a number and back. -/
theorem ofSingle_toSingle_ofThousandths {m : Int} (h : m.natAbs ≤ 16384000) :
    ofSingle (ofThousandths m).toSingle = ofThousandths m := by
  rcases Nat.lt_or_eq_of_le h with hlt | heq
  · have hbound : m.natAbs < bound.natAbs := by
      simp only [bound]
      omega
    have hnearest : (ofThousandths m).toSingle.nearestInt 1000 = m := by
      have hword : (m.natAbs * 2 ^ 32 + 500) / 1000 * 2 ^ 117 < 2 ^ (24 + 139) := by omega
      obtain ⟨hle, hle'⟩ := Single.magnitudeOf_nearestCode hword (by decide)
      rw [toSingle_ofThousandths hbound, nearestInt_eq, Single.magnitude, Single.rounded]
      dsimp only
      generalize Single.magnitudeOf _ = magnitude at hle hle' ⊢
      have hn : (2 * (magnitude * 1000) + 2 ^ 149) / 2 ^ 150 = m.natAbs := by omega
      rw [hn, signed_natAbs]
    have hclip : clipWord m = m := by
      unfold clipWord
      omega
    rw [ofSingle_of_isFinite (isFinite_toSingle _), hnearest, hclip]
  · obtain rfl | rfl : m = 16384000 ∨ m = -16384000 := by omega
    · decide
    · decide

/-- The way back and forth leads to the number one has come from, if this is so large
    that numbers are farther apart than lengths. -/
theorem toSingle_ofSingle {x : Single} (hx : x.isFinite)
    (h : 16384000 < (x.nearestInt 1000).natAbs)
    (h' : (x.nearestInt 1000).natAbs < bound.natAbs) : (ofSingle x).toSingle = x := by
  have hclip : clipWord (x.nearestInt 1000) = x.nearestInt 1000 := by
    simp only [bound] at h'
    unfold clipWord
    omega
  have hsign := nearestInt_neg_iff (Nat.zero_lt_of_lt h)
  rw [ofSingle_of_isFinite hx, hclip, toSingle_ofThousandths h']
  rw [natAbs_nearestInt] at h ⊢
  have hmagnitude : 2 ^ 163 < x.magnitude := by omega
  have hcode : 141 * 2 ^ 23 < x.code :=
    Single.lt_of_magnitudeOf_lt (show Single.magnitudeOf (141 * 2 ^ 23) < x.magnitude by
      rwa [show Single.magnitudeOf (141 * 2 ^ 23) = 2 ^ 163 by decide])
  -- Half of the last bit of the number is more than half of a thousandth.
  have hlast : 2 ^ 140 ≤ 2 ^ (x.code / 2 ^ 23 - 1) :=
    Nat.pow_le_pow_right (by decide) (by omega)
  have hlow : x.code % 2 ^ 23 = 0 → 2 ^ 141 ≤ 2 ^ (x.code / 2 ^ 23 - 1) :=
    fun hf => Nat.pow_le_pow_right (by decide) (by omega)
  have hm : Single.magnitudeOf x.code = x.magnitude := rfl
  apply Single.rounded_eq
  · exact Bool.eq_iff_iff.mpr (decide_eq_true_iff.trans hsign)
  · apply Single.nearestCode_of_near (by omega) (Nat.le_of_lt (of_decide_eq_true hx))
    · omega
    · omega
    · intro hf
      have := hlow hf
      omega

/-- The length of a number survives. -/
theorem ofSingle_toSingle_ofSingle (x : Single) :
    ofSingle (ofSingle x).toSingle = ofSingle x := by
  by_cases hx : x.isFinite
  · rcases Nat.lt_or_ge 16384000 (x.nearestInt 1000).natAbs with hlarge | hsmall
    · rcases Nat.lt_or_ge (x.nearestInt 1000).natAbs bound.natAbs with hlt | hge
      · rw [toSingle_ofSingle hx hlarge hlt]
      · -- The length is clipped.
        have hend : ofSingle x = ofThousandths bound ∨ ofSingle x = ofThousandths (-bound) := by
          rw [ofSingle_of_isFinite hx, ← ofThousandths_clip]
          have hclip : max (-bound) (min (clipWord (x.nearestInt 1000)) bound) = bound ∨
              max (-bound) (min (clipWord (x.nearestInt 1000)) bound) = -bound := by
            simp only [bound] at hge ⊢
            unfold clipWord
            omega
          exact hclip.imp (congrArg ofThousandths) (congrArg ofThousandths)
        rcases hend with he | he <;> rw [he]
        · decide
        · decide
    · rw [ofSingle_of_isFinite hx]
      apply ofSingle_toSingle_ofThousandths
      unfold clipWord
      omega
  · rw [show ofSingle x = 0 from if_neg hx]
    decide

/-- What survives the way to a number and back are just the lengths of numbers. -/
theorem ofSingle_toSingle_iff {p : Length} :
    ofSingle p.toSingle = p ↔ ∃ x, ofSingle x = p := by
  refine ⟨fun h => ⟨p.toSingle, h⟩, ?_⟩
  rintro ⟨x, rfl⟩
  exact ofSingle_toSingle_ofSingle x

end Length

end Lettering
