import Lettering.Text.Basic
import Lettering.Single.Basic

/-!
# Lengths

Coordinates and widths are fixed-point numbers of pixels: a signed 64-bit word
whose low 32 bits are the fraction. All arithmetic is done in whole thousandths
of a pixel and clipped to the range of the word, so the sum of lengths does not
depend on the platform.

* `Length.thousandths_ofThousandths`: a number of thousandths is kept exactly,
  up to the clipping at `Length.bound`.
* `Length.thousandths_inj`: lengths made from thousandths are equal as soon as
  their thousandths are.
-/

namespace Lettering

/-- Clips an integer to the range of signed 64-bit words. -/
def clipWord (n : Int) : Int := max (-2 ^ 63) (min n (2 ^ 63 - 1))

theorem neg_le_clipWord (n : Int) : -2 ^ 63 ≤ clipWord n := Int.le_max_left _ _

theorem clipWord_lt (n : Int) : clipWord n < 2 ^ 63 := by
  unfold clipWord
  omega

/-- A length in pixels: a signed word counting `2⁻³²` parts of a pixel. -/
structure Length where
  /-- The word. -/
  word : Int
  neg_le_word : -2 ^ 63 ≤ word
  word_lt : word < 2 ^ 63
deriving DecidableEq, Repr

namespace Length

/-- The word counting at least `m` thousandths of a pixel times `2³²`, before
    the division: `m · 2³²`, and half a divisor away from zero. -/
def widened (m : Int) : Int := m * 2 ^ 32 + if 0 ≤ m then 500 else -500

/-- The length of `m` thousandths of a pixel, clipped to the range. -/
def ofThousandths (m : Int) : Length where
  word := clipWord ((widened m).tdiv 1000)
  neg_le_word := neg_le_clipWord _
  word_lt := clipWord_lt _

/-- The length in thousandths, before the division by `2³²`: `1000` words, and
    half a divisor away from zero. -/
def scaled (p : Length) : Int := p.word * 1000 + if 0 ≤ p.word then 2 ^ 31 else -2 ^ 31

/-- The length in thousandths of a pixel, rounded to the nearest. -/
def thousandths (p : Length) : Int := clipWord (p.scaled.tdiv (2 ^ 32))

/-- The largest number of thousandths: `2³¹` pixels. -/
def bound : Int := 2147483648000

/-- No length. -/
def zero : Length := ⟨0, by decide, by decide⟩

instance : Inhabited Length := ⟨zero⟩

instance : Zero Length := ⟨zero⟩

/-- `n` whole pixels. -/
def ofPixels (n : Int) : Length := ofThousandths (n * 1000)

/-- The sum, clipped to the range. -/
def add (p q : Length) : Length := ofThousandths (p.thousandths + q.thousandths)

/-- The difference, clipped to the range. -/
def sub (p q : Length) : Length := ofThousandths (p.thousandths - q.thousandths)

/-- `k` times the length, clipped to the range. -/
def times (p : Length) (k : Int) : Length := ofThousandths (p.thousandths * k)

instance : Add Length := ⟨add⟩

instance : Sub Length := ⟨sub⟩

instance : LE Length := ⟨fun p q => p.word ≤ q.word⟩

instance : LT Length := ⟨fun p q => p.word < q.word⟩

instance (p q : Length) : Decidable (p ≤ q) := inferInstanceAs (Decidable (p.word ≤ q.word))

instance (p q : Length) : Decidable (p < q) := inferInstanceAs (Decidable (p.word < q.word))

instance : Max Length := ⟨fun p q => if q ≤ p then p else q⟩

/-- The lengths added from left to right, clipped at every step. -/
def sum (ps : List Length) : Length := ps.foldl (· + ·) 0

/-- The numerator `n` over `d`, rounded to the nearest integer, a half away from
    zero: half of the divisor is added before the division drops the rest. -/
def ratio (n d : Int) : Int :=
  let half := (d.natAbs : Int) / 2
  if 0 ≤ n then (n + half).tdiv d else -(-n + half).tdiv d

/-- The length times `num / den`, rounded to the nearest thousandth; nothing if
    `den` is zero. -/
def timesRatio (p : Length) (num den : Int) : Length :=
  if den = 0 then 0 else ofThousandths (ratio (p.thousandths * num) den)

/-! ## Numbers and lengths -/

/-- The length of `x` pixels, rounded to the nearest thousandth; nothing if `x`
    is not finite. -/
def ofSingle (x : Single) : Length :=
  if x.isFinite then ofThousandths (clipWord (x.nearestInt 1000)) else 0

/-- The number of pixels, rounded to single precision. -/
def toSingle (p : Length) : Single := Single.rounded (p.word < 0) (p.word.natAbs * 2 ^ 117) 1

/-- The length times a number, computed in single precision; nothing if the
    number is not finite. -/
def scale (p : Length) (x : Single) : Length :=
  if x.isFinite then ofSingle (p.toSingle * x) else 0

/-! ## Text -/

/-- The digits after the point for a remainder of thousandths, without zeros at
    the end. -/
def fraction (n : Nat) : Text :=
  Text.trimEndBy (· == '0') [(n / 100).digitChar, (n / 10 % 10).digitChar, (n % 10).digitChar]

/-- The length in pixels as a decimal: at most three digits after the point, and
    no point where none is needed. -/
def text (p : Length) : Text :=
  let m := p.thousandths
  let rest := m.natAbs % 1000
  (if m < 0 then ['-'] else []) ++ Text.ofNat (m.natAbs / 1000)
    ++ if rest = 0 then [] else '.' :: fraction rest

/-! ## Thousandths are kept -/

@[simp] theorem word_zero : (0 : Length).word = 0 := rfl

theorem le_def {p q : Length} : p ≤ q ↔ p.word ≤ q.word := Iff.rfl

theorem lt_def {p q : Length} : p < q ↔ p.word < q.word := Iff.rfl

theorem ext_word {p q : Length} (h : p.word = q.word) : p = q := by
  cases p; cases q; cases h; rfl

/-- Division toward zero, in terms of the division of magnitudes. -/
theorem tdiv_eq_floor {n d : Int} : n.tdiv d = if 0 ≤ n then n / d else -(-n / d) := by
  split
  · exact Int.tdiv_eq_ediv_of_nonneg (by assumption)
  · have h := Int.neg_tdiv (a := -n) (b := d)
    rw [Int.neg_neg] at h
    rw [h, Int.tdiv_eq_ediv_of_nonneg (by omega)]

/-- A number of thousandths is kept, up to the clipping. -/
theorem thousandths_ofThousandths (m : Int) :
    (ofThousandths m).thousandths = max (-bound) (min m bound) := by
  simp only [ofThousandths, thousandths, scaled, widened, clipWord, bound, tdiv_eq_floor]
  by_cases hm : 0 ≤ m
  · simp only [if_pos hm]
    rw [if_pos (by omega)]
    split <;> split <;> omega
  · simp only [if_neg hm]
    rw [if_neg (by omega)]
    split <;> split <;> omega

/-- Thousandths beyond the bound make the same length as the bound. -/
theorem ofThousandths_clip (m : Int) :
    ofThousandths (max (-bound) (min m bound)) = ofThousandths m := by
  have h : max (-bound) (min m bound) = m ∨ (bound < m ∧ max (-bound) (min m bound) = bound) ∨
      (m < -bound ∧ max (-bound) (min m bound) = -bound) := by
    simp only [bound]
    omega
  rcases h with h | ⟨hm, h⟩ | ⟨hm, h⟩
  · rw [h]
  · rw [h]
    apply ext_word
    simp only [bound] at hm
    simp only [ofThousandths, widened, clipWord, bound, tdiv_eq_floor]
    rw [if_pos (show (0 : Int) ≤ m by omega), if_pos (by omega), if_pos (by omega)]
    omega
  · rw [h]
    apply ext_word
    simp only [bound] at hm
    simp only [ofThousandths, widened, clipWord, bound, tdiv_eq_floor]
    rw [if_neg (show ¬(0 : Int) ≤ m by omega), if_neg (by omega), if_neg (by omega)]
    omega

/-- Lengths made from thousandths are equal as soon as their thousandths are. -/
theorem thousandths_inj {m n : Int}
    (h : (ofThousandths m).thousandths = (ofThousandths n).thousandths) :
    ofThousandths m = ofThousandths n := by
  rw [thousandths_ofThousandths, thousandths_ofThousandths] at h
  rw [← ofThousandths_clip m, ← ofThousandths_clip n, h]

end Length

end Lettering
