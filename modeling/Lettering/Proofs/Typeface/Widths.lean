import Lettering.Proofs.KeyedList
import Lettering.Proofs.Length.Rounding
import Lettering.Proofs.Length.Words
import Lettering.Typeface.Metrics
import Mathlib.Algebra.BigOperators.Group.List.Basic

/-!
# Widths by the table

The tables of a face have an advance for every character from U+0020 to U+00FF, and the
kerning of pairs of glyphs (`kerningTable`). The width of a text is the sum of its advances
and of the kerning of its neighbours (`extent`), and of two texts, one behind the other, the
sum of the two widths and the kerning where they meet (`extent_append`).

Measuring adds these numbers up from left to right, every sum being clipped to a word. As
long as no sum on the way leaves the range (`runningSums`), the width measured is the exact
one, scaled to the font size and rounded (`width_ofFace`).
-/

namespace Lettering

namespace Typeface

namespace Metrics

variable (m : Metrics)

/-! ## Kerning as a table -/

/-- The pairs of tabulated glyphs that are kerned. Glyph 0 stands for a missing one and is
    in no pair. -/
def kernedPairs : List (Nat × Nat) :=
  let glyphs := m.glyphs.toList.filter (· ≠ 0)
  (glyphs.product glyphs).filter fun pair => m.kern pair.1 pair.2 ≠ 0

/-- The kerning of the pairs. -/
def kerningTable : KeyedList (Nat × Nat) Int :=
  .ofList (m.kernedPairs.map fun pair => (pair, m.kern pair.1 pair.2))

/-- The kerning between two characters. -/
def kernBetween (left right : Char) : Int :=
  (m.kerningTable.get? (m.glyph left, m.glyph right)).getD 0

variable {m}

theorem mem_kernedPairs {left right : Nat} :
    (left, right) ∈ m.kernedPairs ↔
      (left ∈ m.glyphs ∧ left ≠ 0) ∧ (right ∈ m.glyphs ∧ right ≠ 0) ∧ m.kern left right ≠ 0 := by
  simp only [kernedPairs, List.mem_filter, List.pair_mem_product, Array.mem_toList_iff,
    decide_eq_true_eq, and_assoc]

theorem get?_kerningTable_eq_some_iff {left right : Nat} {n : Int} :
    m.kerningTable.get? (left, right) = some n ↔
      (left, right) ∈ m.kernedPairs ∧ m.kern left right = n := by
  have hvalue : ∀ e ∈ m.kernedPairs.map fun pair => (pair, m.kern pair.1 pair.2),
      e.2 = m.kern e.1.1 e.1.2 := by
    intro e he
    obtain ⟨pair, -, rfl⟩ := List.mem_map.mp he
    rfl
  rw [kerningTable, KeyedList.get?_ofList_eq_some_iff_mem (f := fun p => m.kern p.1 p.2) hvalue,
    List.mem_map]
  constructor
  · rintro ⟨pair, hp, he⟩
    obtain ⟨rfl, rfl⟩ := Prod.mk.inj he
    exact ⟨hp, rfl⟩
  · rintro ⟨hp, rfl⟩
    exact ⟨_, hp, rfl⟩

/-- A glyph other than 0 is tabulated. -/
theorem glyph_mem {c : Char} (h : m.glyph c ≠ 0) : m.glyph c ∈ m.glyphs := by
  rw [glyph] at h ⊢
  cases hg : (slot? c).bind (m.glyphs[·]?) with
  | none => exact absurd (by rw [hg]; rfl) h
  | some g =>
    obtain ⟨i, -, hi⟩ := Option.bind_eq_some_iff.mp hg
    exact Array.mem_of_getElem? hi

/-- There is no kerning next to a missing glyph. -/
theorem get?_kerningTable_eq_none {left right : Nat} (h : left = 0 ∨ right = 0) :
    m.kerningTable.get? (left, right) = none := by
  rw [Option.eq_none_iff_forall_ne_some]
  intro n hn
  obtain ⟨⟨-, hleft⟩, ⟨-, hright⟩, -⟩ := mem_kernedPairs.mp (get?_kerningTable_eq_some_iff.mp hn).1
  exact h.elim hleft hright

/-- Between characters the table has all the kerning there is. -/
theorem kernBetween_eq (left right : Char) :
    m.kernBetween left right = m.kern (m.glyph left) (m.glyph right) := by
  rw [kernBetween]
  cases hn : m.kerningTable.get? (m.glyph left, m.glyph right) with
  | some n => exact (get?_kerningTable_eq_some_iff.mp hn).2.symm
  | none =>
    by_contra hk
    have hk' : m.kern (m.glyph left) (m.glyph right) ≠ 0 := Ne.symm hk
    have hglyphs : m.glyph left ≠ 0 ∧ m.glyph right ≠ 0 := by
      rw [← not_or]
      exact fun h => hk' (if_pos h)
    have hp := mem_kernedPairs.mpr
      ⟨⟨glyph_mem hglyphs.1, hglyphs.1⟩, ⟨glyph_mem hglyphs.2, hglyphs.2⟩, hk'⟩
    rw [get?_kerningTable_eq_some_iff.mpr ⟨hp, rfl⟩] at hn
    cases hn

/-! ## Exact widths -/

variable (m) in
/-- The advances of the characters and the kerning of the neighbours, added up. -/
def extent (t : Text) : Int :=
  (t.map fun c => (m.advance c : Int)).sum + (List.zipWith m.kernBetween t t.tail).sum

/-- The neighbours in two lists, one behind the other. -/
theorem zipWith_tail_append {α β : Type} (f : α → α → β) {a b : List α} (ha : a ≠ [])
    (hb : b ≠ []) :
    List.zipWith f (a ++ b) (a ++ b).tail =
      List.zipWith f a a.tail ++ f (a.getLast ha) (b.head hb) :: List.zipWith f b b.tail := by
  induction a with
  | nil => exact absurd rfl ha
  | cons x a ih =>
    cases a with
    | nil =>
      obtain ⟨y, b, rfl⟩ := List.exists_cons_of_ne_nil hb
      rfl
    | cons y a =>
      have hrest := ih (List.cons_ne_nil y a)
      rw [List.cons_append, List.tail_cons] at hrest
      rw [List.cons_append, List.cons_append, List.tail_cons, List.zipWith_cons_cons, hrest]
      rfl

/-- Two texts, one behind the other, are kerned where they meet. -/
theorem extent_append {a b : Text} (ha : a ≠ []) (hb : b ≠ []) :
    m.extent (a ++ b) = m.extent a + m.extent b + m.kernBetween (a.getLast ha) (b.head hb) := by
  simp only [extent, zipWith_tail_append _ ha hb, List.map_append, List.sum_append, List.sum_cons]
  omega

/-! ## Adding up from left to right -/

variable (m) in
/-- What is added up behind a character: for every character its advance, and then its
    kerning. -/
def summandsBehind (before : Char) : Text → List Int
  | [] => []
  | c :: rest => m.advance c :: m.kernBetween before c :: summandsBehind c rest

variable (m) in
/-- What is added up for a text. The first character is not kerned. -/
def summands : Text → List Int
  | [] => []
  | c :: rest => m.advance c :: m.summandsBehind c rest

variable (m) in
/-- The sums on the way, without clipping. -/
def runningSums (t : Text) : List Int := (m.summands t).scanl (· + ·) 0

theorem clip32_of_mem_range {n : Int} (h : -2 ^ 31 ≤ n ∧ n < 2 ^ 31) : clip32 n = n := by
  rw [clip32]
  omega

theorem mem_scanl_self {α β : Type} (f : α → β → α) (a : α) (l : List β) : a ∈ l.scanl f a := by
  cases l <;> simp

/-- Sums that stay in the range are not clipped. -/
theorem unitsFrom_glyph {total : Int} {before : Char} {t : Text}
    (h : ∀ s ∈ (m.summandsBehind before t).scanl (· + ·) total, -2 ^ 31 ≤ s ∧ s < 2 ^ 31) :
    m.unitsFrom total (some (m.glyph before)) t = total + (m.summandsBehind before t).sum := by
  induction t generalizing total before with
  | nil => exact (Int.add_zero total).symm
  | cons c rest ih =>
    simp only [summandsBehind, List.scanl_cons, List.forall_mem_cons] at h
    obtain ⟨-, hadvance, hkern⟩ := h
    have hkern' := hkern _ (mem_scanl_self _ _ _)
    rw [unitsFrom, clip32_of_mem_range hadvance, ← kernBetween_eq]
    rw [clip32_of_mem_range hkern', ih hkern, summandsBehind, List.sum_cons, List.sum_cons]
    omega

theorem units_eq_sum {t : Text} (h : ∀ s ∈ m.runningSums t, -2 ^ 31 ≤ s ∧ s < 2 ^ 31) :
    m.units t = (m.summands t).sum := by
  cases t with
  | nil => rfl
  | cons c rest =>
    simp only [runningSums, summands, List.scanl_cons, List.forall_mem_cons] at h
    have hadvance := h.2 _ (mem_scanl_self _ _ _)
    rw [units, unitsFrom, clip32_of_mem_range hadvance]
    rw [unitsFrom_glyph h.2, summands, List.sum_cons, Int.zero_add]

theorem sum_summandsBehind (before : Char) (t : Text) :
    (m.summandsBehind before t).sum =
      (t.map fun c => (m.advance c : Int)).sum +
        (List.zipWith m.kernBetween (before :: t) t).sum := by
  induction t generalizing before with
  | nil => rfl
  | cons c rest ih =>
    rw [summandsBehind, List.sum_cons, List.sum_cons, ih, List.map_cons, List.sum_cons,
      List.zipWith_cons_cons, List.sum_cons]
    omega

theorem sum_summands (t : Text) : (m.summands t).sum = m.extent t := by
  cases t with
  | nil => rfl
  | cons c rest =>
    rw [summands, List.sum_cons, sum_summandsBehind, extent, List.map_cons, List.sum_cons,
      List.tail_cons, Int.add_assoc]

/-! ## Faces -/

theorem size_advances_ofFace (face : Face) : (ofFace face).advances.size = 0x100 - 0x20 := by
  simp [ofFace, firstCode, lastCode]

/-- The advances of a face are tabulated, and other characters have that of the space. -/
theorem getElem?_advances_ofFace (face : Face) (c : Char) :
    (ofFace face).advances[if 0x20 ≤ c.toNat ∧ c.toNat ≤ 0xFF then c.toNat - 0x20 else 0]? =
      some ((ofFace face).advance c) := by
  have hentry {i : Nat} (hi : i < 0x100 - 0x20) :
      (ofFace face).advances[i]? = some ((ofFace face).advances[i]?.getD 0) := by
    rw [Array.getElem?_eq_getElem (by rwa [size_advances_ofFace]), Option.getD_some]
  by_cases h : 0x20 ≤ c.toNat ∧ c.toNat ≤ 0xFF
  · have hs : slot? c = some (c.toNat - 0x20) := if_pos h
    rw [if_pos h, hentry (by omega), advance, hs]
  · have hs : slot? c = none := if_neg h
    rw [if_neg h, hentry (by omega), advance, hs]
    rfl

/-- As long as the sums on the way are words, a face measures a text as its exact width,
    or nothing if that is negative, in thousandths of the font size, rounded to the nearest
    thousandth of a pixel and moved into the range of lengths. The exact width is made of
    tabulated advances and kerning, and goes together where texts meet. -/
theorem width_ofFace (face : Face) (size : Length) (t : Text)
    (h : ∀ s ∈ (ofFace face).runningSums t, -2 ^ 31 ≤ s ∧ s < 2 ^ 31) :
    let m := ofFace face
    (∃ n : ℤ, Length.IsRounded ((size.thousandths : ℚ) * (max 0 (m.extent t) : ℤ) / 1000) n ∧
        m.width size t = .ofThousandths (Length.clip n)) ∧
      (∀ c : Char, m.advances[if 0x20 ≤ c.toNat ∧ c.toNat ≤ 0xFF then c.toNat - 0x20 else 0]? =
        some (m.advance c)) ∧
      (∀ left right, left = 0 ∨ right = 0 → m.kerningTable.get? (left, right) = none) ∧
      ∀ (a b : Text) (ha : a ≠ []) (hb : b ≠ []), m.extent (a ++ b) =
        m.extent a + m.extent b + m.kernBetween (a.getLast ha) (b.head hb) := by
  intro m
  refine ⟨?_, getElem?_advances_ofFace face, fun _ _ => get?_kerningTable_eq_none,
    fun a b ha hb => extent_append ha hb⟩
  have hunits : m.units t = m.extent t := (units_eq_sum h).trans (sum_summands t)
  obtain ⟨n, hn, he⟩ := size.timesRatio_eq (max 0 (m.extent t))
    (show (1000 : ℤ) ≠ 0 by decide)
  refine ⟨n, by exact_mod_cast hn, ?_⟩
  rw [width, hunits, Length.clip, Length.ofThousandths_clip, ← he, widthOf]
  split
  · rename_i hle
    rw [max_eq_left hle, Length.timesRatio, Int.mul_zero]
    decide
  · rename_i hlt
    rw [max_eq_right (Int.not_le.mp hlt).le]

/-- The glyphs of a small font. -/
def smallGlyph? : Char → Option Nat
  | ' ' => some 1
  | 'A' => some 2
  | 'V' => some 3
  | 'B' => some 4
  | '一' => some 5
  | _ => none

/-- What is told of a small font of 1000 units per em, which kerns the pair of its first
    two letters. -/
def smallFace : Face where
  unitsPerEm := 1000
  names := [⟨1, some "Drawtext Test".toList⟩, ⟨4, some "Drawtext Test".toList⟩]
  glyph? := smallGlyph?
  advance? glyph := ([500, 250, 600, 600, 700, 1000] : List UInt16)[glyph]?
  charMaps? := some [⟨.windows, 1, true, fun code => smallGlyph? (Char.ofNat code)⟩]
  kerning? := some [⟨true, false, false, fun left right =>
    if left = 2 ∧ right = 3 then some (-100) else none⟩]

set_option maxRecDepth 20000 in
/-- Case: a kerned pair and a character that is not tabulated. At 10.01 pixels the width is
    13.5135 pixels, rounded up. -/
theorem width_ofFace_kerned :
    let m := ofFace smallFace
    let size := Length.ofThousandths 10010
    (∀ s ∈ m.runningSums ['A', 'V', '一'], -2 ^ 31 ≤ s ∧ s < 2 ^ 31) ∧
      m.extent ['A', 'V', '一'] = 600 + 600 - 100 + 250 ∧
      m.width size ['A', 'V', '一'] = .ofThousandths 13514 ∧
      ∃ n : ℤ, Length.IsRounded
          ((size.thousandths : ℚ) * (max 0 (m.extent ['A', 'V', '一']) : ℤ) / 1000) n ∧
        m.width size ['A', 'V', '一'] = .ofThousandths (Length.clip n) := by
  intro m size
  have hsums : m.runningSums ['A', 'V', '一'] = [0, 600, 1200, 1100, 1350, 1350] := by
    decide +kernel
  have h : ∀ s ∈ m.runningSums ['A', 'V', '一'], -2 ^ 31 ≤ s ∧ s < 2 ^ 31 := by
    rw [hsums]
    decide
  exact ⟨h, by decide +kernel, by decide +kernel, (width_ofFace smallFace size _ h).1⟩

end Metrics

end Typeface

end Lettering
