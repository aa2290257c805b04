import Lettering.Proofs.Single.Ranges
import Lettering.Proofs.Single.Writing
import Lettering.Proofs.Style.Layers
import Lettering.Proofs.Style.Parts
import Lettering.Proofs.Text.Trimming

/-!
# Weights in numbers

A weight that is given as a number is kept as text, and whether it is bold is
read off the text, where whole numbers below 65536 are all that counts. So the
whole numbers from 600 to 65535 are bold (`RuleTable.isBold_resolve`), but what
is between two of them, or beyond, is not (`RuleTable.isBold_fraction`).
-/

namespace Lettering

namespace Font

variable {font : Font} {t : Text} {n : Nat} {w : Single}

/-! ## Weights as text -/

/-- Digits are read as the number they write, up to 65535. -/
theorem weightNumber?_ofNat (n : Nat) :
    weightNumber? (Text.ofNat n) = if n < 2 ^ 16 then some n else none := by
  have hplus : Text.after? ['+'] (Text.ofNat n) = none := by
    refine Option.eq_none_iff_forall_ne_some.mpr fun rest hrest => ?_
    have hmem : '+' ∈ Text.ofNat n := by
      rw [Text.after?_eq_some_iff.mp hrest]
      exact List.mem_cons_self
    exact absurd (Text.isDigit_ofNat '+' hmem) (by decide)
  have hne : (Text.ofNat n).isEmpty = false :=
    List.isEmpty_eq_false_iff.mpr Nat.toDigits_ne_nil
  have hvalue : Nat.ofDigitChars 10 (Text.ofNat n) 0 = n := Nat.ofDigitChars_ten_toDigits
  simp only [weightNumber?, hplus, Option.getD_none, hne, List.all_eq_true.mpr Text.isDigit_ofNat,
    hvalue, Bool.not_true, Bool.or_self, Bool.false_eq_true, if_false]

/-- No number is read from a text with a point. -/
theorem weightNumber?_of_point (h : '.' ∈ t) : weightNumber? t = none := by
  have hmem : '.' ∈ (Text.after? ['+'] t).getD t := by
    cases hplus : Text.after? ['+'] t with
    | none => exact h
    | some rest =>
      rw [Text.after?_eq_some_iff.mp hplus] at h
      exact (List.mem_cons.mp h).resolve_left (by decide)
  have hall : ((Text.after? ['+'] t).getD t).all Char.isDigit = false :=
    List.all_eq_false.mpr ⟨'.', hmem, by decide⟩
  simp only [weightNumber?, hall, Bool.not_false, Bool.or_true, if_true]

/-- A weight that is not a word is bold by its number. -/
theorem isBold_of_not_word (ht : Text.lower (Text.trim font.weight.toList) = t)
    (h : ∃ c ∈ t, c.isDigit ∨ c = '.') : font.isBold = (weightNumber? t).any (600 ≤ ·) := by
  obtain ⟨c, hc, hdigit⟩ := h
  have hword (word : Text) (hall : word.all fun d => !(d.isDigit || d == '.')) : t ≠ word := by
    rintro rfl
    have hother := List.all_eq_true.mp hall c hc
    rcases hdigit with hdigit | rfl
    · simp [hdigit] at hother
    · cases hother
  have hbold : ¬(t = "bold".toList ∨ t = "bolder".toList) :=
    not_or.mpr ⟨hword _ (by decide), hword _ (by decide)⟩
  have hlight : ¬(t = "normal".toList ∨ t = "lighter".toList) :=
    not_or.mpr ⟨hword _ (by decide), hword _ (by decide)⟩
  simp only [isBold, ht]
  rw [if_neg hbold, if_neg hlight]

/-- A weight in digits is bold from 600 to 65535. -/
theorem isBold_ofNat (h : font.weight = String.ofList (Text.ofNat n)) :
    font.isBold ↔ 600 ≤ n ∧ n < 2 ^ 16 := by
  have ht : Text.lower (Text.trim font.weight.toList) = Text.ofNat n := by
    rw [h, String.toList_ofList, Text.lower_trim_digits Text.isDigit_ofNat]
  obtain ⟨c, hc⟩ := List.exists_mem_of_ne_nil (Text.ofNat n) Nat.toDigits_ne_nil
  rw [isBold_of_not_word ht ⟨c, hc, .inl (Text.isDigit_ofNat c hc)⟩, weightNumber?_ofNat]
  split
  · rename_i hlt
    simp [hlt]
  · rename_i hge
    simp [hge]

/-- A weight with a point is not bold. -/
theorem isBold_of_point (h : '.' ∈ font.weight.toList) : font.isBold = false := by
  have hmem : '.' ∈ Text.lower (Text.trim font.weight.toList) :=
    List.mem_map.mpr ⟨'.', Text.mem_trimBy (by decide) h, by decide⟩
  rw [isBold_of_not_word rfl ⟨'.', hmem, .inr rfl⟩, weightNumber?_of_point hmem]
  rfl

/-! ## Weights as numbers -/

/-- A positive whole number is kept as its digits, up to the largest 64-bit word. -/
theorem weightOf_whole (hsign : w.negative = false) (hzero : w.isZero = false)
    (hwhole : w.isInteger) :
    weightOf (.number w) =
      String.ofList (Text.ofNat (min (w.magnitude / 2 ^ 149) (2 ^ 63 - 1))) := by
  have hclip : weightOf.clipWeight w.integerPart =
      ((min (w.magnitude / 2 ^ 149) (2 ^ 63 - 1) : Nat) : Int) := by
    simp only [weightOf.clipWeight, Single.integerPart, hsign, Bool.false_eq_true, if_false]
    omega
  rw [weightOf, hzero, hwhole, hclip]
  exact congrArg String.ofList (if_neg (Int.not_lt.mpr (Int.natCast_nonneg _)))

/-- A number that is not whole is kept as its text. -/
theorem weightOf_fraction (hfinite : w.isFinite) (hzero : w.isZero = false)
    (hfraction : w.isInteger = false) : weightOf (.number w) = String.ofList w.text := by
  simp only [weightOf, hfraction, Bool.and_false, Bool.false_eq_true, if_false,
    StyleValue.displayOr, hzero, Single.isNaN_of_isFinite hfinite, Bool.or_self]

/-- A positive number is bold if it is whole and from 600 to 65535. -/
theorem isBold_number (hfinite : w.isFinite) (hpos : Single.zero.numLt w)
    (h : font.weight = weightOf (.number w)) :
    font.isBold ↔ w.isInteger ∧ (Single.ofInt 600).numLe w ∧ w.numLe (Single.ofInt 65535) := by
  obtain ⟨hsign, hcode⟩ := Single.code_of_pos hpos
  have hzero : w.isZero = false := beq_eq_false_iff_ne.mpr (Nat.ne_of_gt hcode)
  cases hwhole : w.isInteger with
  | false =>
    have hpoint : '.' ∈ font.weight.toList := by
      rw [h, weightOf_fraction hfinite hzero hwhole, String.toList_ofList]
      exact Single.point_mem_text hfinite hwhole
    simp [isBold_of_point hpoint]
  | true =>
    have h600 : (Single.ofInt 600).magnitude = 600 * 2 ^ 149 := by decide
    have h65535 : (Single.ofInt 65535).magnitude = 65535 * 2 ^ 149 := by decide
    have hmod : w.magnitude % 2 ^ 149 = 0 := beq_iff_eq.mp (Bool.and_eq_true_iff.mp hwhole).2
    have hvalue : w.magnitude = w.magnitude / 2 ^ 149 * 2 ^ 149 :=
      (Nat.div_mul_cancel (Nat.dvd_of_mod_eq_zero hmod)).symm
    have hunit : 0 < 2 ^ 149 := Nat.two_pow_pos 149
    rw [isBold_ofNat (h.trans (weightOf_whole hsign hzero hwhole)),
      Single.numLe_iff_magnitude (by decide) hfinite (by decide) hsign, h600,
      Single.numLe_iff_magnitude hfinite (by decide) hsign (by decide), h65535, hvalue,
      Nat.mul_le_mul_right_iff hunit, Nat.mul_le_mul_right_iff hunit, Nat.mul_div_cancel _ hunit]
    simp only [true_and]
    omega

end Font

namespace RuleTable

variable {table : RuleTable} {context : List String} {w : Single}

/-- The font of a style with a positive number as its weight is bold if the number is whole and
    from 600 to 65535, and not otherwise. -/
theorem isBold_resolve (hw : (table.resolve context).get? "fontWeight" = some (.number w))
    (hfinite : w.isFinite) (hpos : Single.zero.numLt w) :
    ∃ font, (table.resolve context).split.font = some font ∧
      (font.isBold ↔
        w.isInteger ∧ (Single.ofInt 600).numLe w ∧ w.numLe (Single.ofInt 65535)) := by
  obtain ⟨-, -, -, -, -, hsome, -, hfont⟩ := (table.resolve context).split_entrywise
  have hkey : "fontWeight" ∈ (table.resolve context).keys :=
    List.mem_map_of_mem ((KeyedList.get?_eq_some_iff_mem _).mp hw)
  obtain ⟨font, hsplit⟩ := Option.isSome_iff_exists.mp (hsome.mpr ⟨_, hkey, by decide⟩)
  obtain ⟨-, -, hweight, -⟩ := hfont font hsplit
  rw [hw] at hweight
  exact ⟨font, hsplit, Font.isBold_number hfinite hpos hweight⟩

/-- A table with a weight for one tag. -/
def ofWeight (w : Single) : RuleTable := .ofList [("b", .ofList [("fontWeight", .number w)])]

/-- Case: the weight 700. -/
theorem isBold_resolve_sevenHundred :
    ((ofWeight (.ofInt 700)).resolve ["b"]).get? "fontWeight" = some (.number (.ofInt 700)) ∧
      (Single.ofInt 700).isFinite ∧ Single.zero.numLt (.ofInt 700) ∧
      ∃ font, ((ofWeight (.ofInt 700)).resolve ["b"]).split.font = some font ∧ font.isBold := by
  have hw : ((ofWeight (.ofInt 700)).resolve ["b"]).get? "fontWeight" =
      some (.number (.ofInt 700)) := rfl
  have hfinite : (Single.ofInt 700).isFinite := by decide
  have hpos : Single.zero.numLt (.ofInt 700) := by decide
  obtain ⟨font, hfont, hbold⟩ := isBold_resolve hw hfinite hpos
  exact ⟨hw, hfinite, hpos, font, hfont, hbold.mpr ⟨by decide, by decide, by decide⟩⟩

/-- The weight 600.5 is more than 600 and not bold. -/
theorem isBold_fraction :
    (Single.ofInt 600).numLt (.ofBits 0x44162000) ∧ (Single.ofBits 0x44162000).isFinite ∧
      ∃ font light, ((ofWeight (.ofInt 600)).resolve ["b"]).split.font = some font ∧
        ((ofWeight (.ofBits 0x44162000)).resolve ["b"]).split.font = some light ∧
        font.isBold ∧ light.weight = "600.5" ∧ light.isBold = false :=
  ⟨by decide, by decide, _, _, rfl, rfl, by decide +kernel, by decide +kernel, by decide +kernel⟩

end RuleTable

end Lettering
