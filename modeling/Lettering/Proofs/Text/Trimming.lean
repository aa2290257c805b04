import Lettering.Text.Basic
import Mathlib.Data.List.DropRight

/-!
# Trimming

What is trimmed off the end of a text belongs to the class of characters that is trimmed, and
what is left does not end with one of them. A text between two others of the class is trimmed
as it would be alone (`trimBy_surrounded`), and its capitals do not matter to the white space
behind it (`trimEndBy_lower`).
-/

namespace Lettering

namespace Text

variable {p : Char → Bool} {t u v : Text} {c : Char}

theorem trimEndBy_eq_rdropWhile (p : Char → Bool) (t : Text) : trimEndBy p t = t.rdropWhile p :=
  rfl

/-- A text is what is left of it and characters of the class. -/
theorem exists_trimEndBy_append (p : Char → Bool) (t : Text) :
    ∃ u, trimEndBy p t ++ u = t ∧ ∀ c ∈ u, p c :=
  ⟨t.rtakeWhile p, List.rdropWhile_append_rtakeWhile, fun _ => List.mem_rtakeWhile_imp⟩

theorem getLast?_trimEndBy_ne (h : p c) (t : Text) : (trimEndBy p t).getLast? ≠ some c := by
  intro hlast
  obtain ⟨hne, hc⟩ := List.mem_getLast?_eq_getLast hlast
  exact List.rdropWhile_last_not p t hne (hc ▸ h)

/-- Characters of the class behind a text are trimmed off. -/
theorem trimEndBy_append (h : ∀ c ∈ u, p c) (t : Text) :
    trimEndBy p (t ++ u) = trimEndBy p t := by
  rw [trimEndBy, List.reverse_append, List.dropWhile_append_of_pos (by simpa using h), ← trimEndBy]

/-- Nothing is trimmed off before the last character that is not of the class. -/
theorem trimEndBy_cons (h : p c = false) (t : Text) :
    trimEndBy p (c :: t) = c :: trimEndBy p t := by
  have hc : ¬p c = true := by simp [h]
  simp only [trimEndBy_eq_rdropWhile]
  -- By the last character, which is where dropping starts.
  induction t using List.reverseRecOn with
  | nil => rw [List.rdropWhile_singleton, if_neg hc, List.rdropWhile_nil]
  | append_singleton t d ih =>
    rw [← List.cons_append]
    by_cases hd : p d
    · rw [List.rdropWhile_concat_pos p _ d hd, List.rdropWhile_concat_pos p t d hd, ih]
    · rw [List.rdropWhile_concat_neg p _ d hd, List.rdropWhile_concat_neg p t d hd,
        List.cons_append]

/-- Of a text between two of the class, only its own end is trimmed if it starts with a
    character that is not of the class. -/
theorem trimBy_surrounded (hu : ∀ c ∈ u, p c) (hv : ∀ c ∈ v, p c) (hc : p c = false) (t : Text) :
    trimBy p (u ++ c :: t ++ v) = c :: trimEndBy p t := by
  have hstart : (c :: t ++ v).dropWhile p = c :: t ++ v :=
    List.dropWhile_cons_of_neg (by simp [hc])
  rw [trimBy, trimStartBy, List.append_assoc, List.dropWhile_append_of_pos hu, hstart,
    trimEndBy_append hv, trimEndBy_cons hc]

/-- A character that is not of the class is not trimmed off. -/
theorem mem_trimBy (hc : p c = false) (h : c ∈ t) : c ∈ trimBy p t := by
  have hdrop {u : Text} (hu : c ∈ u) : c ∈ u.dropWhile p := by
    rw [← List.takeWhile_append_dropWhile (p := p) (l := u)] at hu
    refine (List.mem_append.mp hu).resolve_left fun hmem => ?_
    rw [List.mem_takeWhile_imp hmem] at hc
    cases hc
  exact List.mem_reverse.mpr (hdrop (List.mem_reverse.mpr (hdrop h)))

/-- Without characters of the class nothing is trimmed off. -/
theorem trimBy_eq_self (h : ∀ c ∈ t, p c = false) : trimBy p t = t := by
  have hdrop {u : Text} (hu : ∀ c ∈ u, p c = false) : u.dropWhile p = u := by
    cases u with
    | nil => rfl
    | cons c u => exact List.dropWhile_cons_of_neg (by simp [hu c List.mem_cons_self])
  rw [trimBy, trimStartBy, hdrop h, trimEndBy, hdrop fun c hc => h c (List.mem_reverse.mp hc),
    List.reverse_reverse]

/-! ## Capitals -/

/-- Making a character small does not matter to what is alike for the 26 capitals and their
    small forms. -/
theorem apply_toLower {α : Type} (f : Char → α)
    (capital : ∀ k < 26, f (Char.ofNat (0x41 + k)).toLower = f (Char.ofNat (0x41 + k)))
    (c : Char) : f c.toLower = f c := by
  by_cases h : 'A' ≤ c ∧ c ≤ 'Z'
  · have hc : 0x41 ≤ c.toNat ∧ c.toNat ≤ 0x5A := h
    obtain ⟨k, hk⟩ := Nat.exists_eq_add_of_le hc.1
    rw [← Char.ofNat_toNat c, hk]
    exact capital k (by omega)
  · have hc : c.toLower = c := dif_neg h
    rw [hc]

theorem isWhiteSpace_toLower (c : Char) : isWhiteSpace c.toLower = isWhiteSpace c :=
  apply_toLower isWhiteSpace (by decide) c

/-- Capitals do not matter to the white space behind a text. -/
theorem trimEndBy_lower (t : Text) :
    trimEndBy isWhiteSpace (lower t) = lower (trimEndBy isWhiteSpace t) := by
  have hp : isWhiteSpace ∘ Char.toLower = isWhiteSpace := funext isWhiteSpace_toLower
  rw [trimEndBy, lower, ← List.map_reverse, List.dropWhile_map, hp, ← List.map_reverse, lower,
    trimEndBy]

/-! ## Digits -/

theorem toNat_of_isDigit (h : c.isDigit) : 0x30 ≤ c.toNat ∧ c.toNat ≤ 0x39 :=
  Char.isDigit_iff_toNat.mp h

theorem isDigit_ofNat {n : Nat} : ∀ c ∈ ofNat n, c.isDigit :=
  fun _ => Nat.isDigit_of_mem_toDigits (by decide) (by decide)

theorem isWhiteSpace_of_isDigit (h : c.isDigit) : isWhiteSpace c = false := by
  have hc := toNat_of_isDigit h
  simp [isWhiteSpace]
  omega

/-- A text of digits is trimmed and small as it is. -/
theorem lower_trim_digits (h : ∀ c ∈ t, c.isDigit) : lower (trim t) = t := by
  have hsmall (c : Char) (hc : c ∈ t) : c.toLower = c := dif_neg fun hcapital => by
    have hdigit := toNat_of_isDigit (h c hc)
    have hge : 0x41 ≤ c.toNat := hcapital.1
    omega
  rw [trim, trimBy_eq_self fun c hc => isWhiteSpace_of_isDigit (h c hc), lower,
    List.map_congr_left hsmall, List.map_id']

end Text

end Lettering
