import Lettering.Single.Decimal
import Lettering.Proofs.Single.Order
import Lettering.Proofs.Text.Trimming

/-!
# Which texts are read as numbers

Digits are read as a number, which may be infinite, and so are the words for
infinity. Only the word `nan`, in any case and with a sign or without one, is
read as what is not a number (`isNaN_of_ofText?`).
-/

namespace Lettering

namespace Single

variable {t : Text} {x : Single}

/-- The text is the word for what is not a number. -/
def WritesNaN (t : Text) : Prop :=
  Text.lower t ∈ ["nan".toList, "+nan".toList, "-nan".toList]
deriving Decidable

/-- Digits are read as a number. -/
theorem isNaN_ofDecimal (negative : Bool) (d : Decimal) : (ofDecimal negative d).isNaN = false := by
  unfold ofDecimal
  split
  · exact isNaN_rounded _ _ _
  · exact isNaN_rounded _ _ _

/-- No digit of a number is in the word. -/
theorem unsigned?_of_lower_nan (h : Text.lower t = "nan".toList) : unsigned? t = none := by
  match t, h with
  | c :: u, h =>
    have hn : c.toLower = 'n' := (List.cons.inj h).1
    have hdigit : c.isDigit = false := by
      rw [← Text.apply_toLower Char.isDigit (by decide) c, hn]
      rfl
    have hpoint : c ≠ '.' := by
      rintro rfl
      exact absurd hn (by decide)
    have hleading : leadingDigits (c :: u) = ([], c :: u) := by
      rw [leadingDigits, List.takeWhile_cons_of_neg (by simp [hdigit]),
        List.dropWhile_cons_of_neg (by simp [hdigit])]
    simp [unsigned?, hleading, hpoint]

/-! ## Signs -/

/-- The number of the given sign that a text without one writes. -/
def ofUnsigned? (negative : Bool) (t : Text) : Option Single :=
  match unsigned? t with
  | some d => some (ofDecimal negative d)
  | none =>
    if Text.lower t = "inf".toList ∨ Text.lower t = "infinity".toList then some (infinity negative)
    else if Text.lower t = "nan".toList then some { nan with negative }
    else none

theorem isNaN_of_ofUnsigned? {negative : Bool} (h : ofUnsigned? negative t = some x) :
    x.isNaN ↔ Text.lower t = "nan".toList := by
  unfold ofUnsigned? at h
  split at h
  · rename_i d hd
    obtain rfl := Option.some.inj h
    have hword : Text.lower t ≠ "nan".toList := fun hword => by
      rw [unsigned?_of_lower_nan hword] at hd
      cases hd
    simp only [isNaN_ofDecimal, hword, Bool.false_eq_true]
  · split_ifs at h with hinf hnan
    · obtain rfl := Option.some.inj h
      have hword : Text.lower t ≠ "nan".toList := by
        rcases hinf with hinf | hinf <;> rw [hinf] <;> decide
      have hnumber : (infinity negative).isNaN = false := rfl
      simp only [hnumber, hword, Bool.false_eq_true]
    · obtain rfl := Option.some.inj h
      exact iff_of_true rfl hnan

theorem ofText?_minus (t : Text) : ofText? ('-' :: t) = ofUnsigned? true t := rfl

theorem ofText?_plus (t : Text) : ofText? ('+' :: t) = ofUnsigned? false t := rfl

theorem ofText?_of_ne (hminus : t.head? ≠ some '-') (hplus : t.head? ≠ some '+') :
    ofText? t = ofUnsigned? false t := by
  unfold ofText?
  split
  rename_i negative u hu
  split at hu
  · exact absurd rfl hminus
  · exact absurd rfl hplus
  · cases hu
    rfl

/-- Capitals do not matter to a sign in front. -/
theorem head?_lower (sign : Char) (h : ∀ k < 26, ((Char.ofNat (0x41 + k)).toLower == sign) =
    (Char.ofNat (0x41 + k) == sign)) (t : Text) :
    (Text.lower t).head? = some sign ↔ t.head? = some sign := by
  cases t with
  | nil => exact Iff.rfl
  | cons c t =>
    have hc := Text.apply_toLower (· == sign) h c
    rw [beq_eq_beq] at hc
    simpa only [Text.lower, List.map_cons, List.head?_cons, Option.some.injEq] using hc

/-- What is not a number is read from its word alone. -/
theorem isNaN_of_ofText? (h : ofText? t = some x) : x.isNaN ↔ WritesNaN t := by
  by_cases hminus : t.head? = some '-'
  · obtain ⟨u, rfl⟩ := List.head?_eq_some_iff.mp hminus
    rw [isNaN_of_ofUnsigned? ((ofText?_minus u).symm.trans h)]
    simp [WritesNaN, Text.lower]
  by_cases hplus : t.head? = some '+'
  · obtain ⟨u, rfl⟩ := List.head?_eq_some_iff.mp hplus
    rw [isNaN_of_ofUnsigned? ((ofText?_plus u).symm.trans h)]
    simp [WritesNaN, Text.lower]
  · rw [isNaN_of_ofUnsigned? ((ofText?_of_ne hminus hplus).symm.trans h)]
    rw [← head?_lower '-' (by decide)] at hminus
    rw [← head?_lower '+' (by decide)] at hplus
    refine ⟨fun hword => List.mem_cons.mpr (.inl hword), fun hword => ?_⟩
    simp only [WritesNaN, List.mem_cons, List.not_mem_nil, or_false] at hword
    rcases hword with hword | hword | hword
    · exact hword
    · exact absurd (hword ▸ rfl) hplus
    · exact absurd (hword ▸ rfl) hminus

end Single

end Lettering
