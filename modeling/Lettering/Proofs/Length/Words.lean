import Lettering.Proofs.Length.Sums

/-!
# Lengths in machine words

Lengths are added and multiplied as numbers of thousandths, exactly, and clipped
once, to `Length.bound` at either end. A machine has no integers to do this with, but
words: it goes over to words of 128 bits, where a sum or a product that needs more
bits has no result (`wide?`), and only a product by a number is moved into their
range instead. Twice on the way the number is divided, toward zero, and moved into the
range of words of 64 bits.

* `ofThousandths?_eq`, `thousandths?_eq`: the way from thousandths to a length and
  back fits into these words, with room for numbers of thousandths far beyond the
  range of lengths.
* `arithmetic_exact`: every operation is the exact one on thousandths, clipped, and
  in words it always has a result, which is this one.
-/

namespace Lettering

namespace Length

/-- A number of thousandths, moved into the range of lengths. -/
def clip (m : Int) : Int := max (-bound) (min m bound)

/-! ## Thousandths, clipped -/

theorem thousandths_add_eq_clip (p q : Length) :
    (p + q).thousandths = clip (p.thousandths + q.thousandths) :=
  thousandths_ofThousandths _

theorem thousandths_sub (p q : Length) :
    (p - q).thousandths = clip (p.thousandths - q.thousandths) :=
  thousandths_ofThousandths _

theorem thousandths_times (p : Length) (k : Int) :
    (p.times k).thousandths = clip (p.thousandths * k) :=
  thousandths_ofThousandths _

/-- Adding from left to right clips every sum on the way. -/
theorem thousandths_foldl (p : Length) (ps : List Length) :
    (ps.foldl (· + ·) p).thousandths =
      ps.foldl (fun m q => clip (m + q.thousandths)) p.thousandths := by
  induction ps generalizing p with
  | nil => rfl
  | cons q ps ih => rw [List.foldl_cons, List.foldl_cons, ih, thousandths_add_eq_clip]

/-! ## Words of 128 bits -/

/-- An integer, if it is a signed word of 128 bits. -/
def wide? (n : Int) : Option Int := if -2 ^ 127 ≤ n ∧ n < 2 ^ 127 then some n else none

/-- An integer, moved into the range of signed words of 128 bits. -/
def clipWide (n : Int) : Int := max (-2 ^ 127) (min n (2 ^ 127 - 1))

/-- The thousandths of a length, in words. -/
def thousandths? (p : Length) : Option Int := do
  let product ← wide? (p.word * 1000)
  let sum ← wide? (product + if 0 ≤ product then 2 ^ 31 else -2 ^ 31)
  let quotient ← wide? (sum.tdiv (2 ^ 32))
  return clipWord quotient

/-- The length of a number of thousandths, in words. -/
def ofThousandths? (m : Int) : Option Length := do
  let product ← wide? (m * 2 ^ 32)
  let sum ← wide? (product + if 0 ≤ m then 500 else -500)
  let quotient ← wide? (sum.tdiv 1000)
  return ⟨clipWord quotient, neg_le_clipWord quotient, clipWord_lt quotient⟩

/-- The sum, in words. -/
def add? (p q : Length) : Option Length := do
  let m ← p.thousandths?
  let n ← q.thousandths?
  let sum ← wide? (m + n)
  ofThousandths? sum

/-- The difference, in words. -/
def sub? (p q : Length) : Option Length := do
  let m ← p.thousandths?
  let n ← q.thousandths?
  let difference ← wide? (m - n)
  ofThousandths? difference

/-- The product by a number, in words. -/
def times? (p : Length) (k : Int) : Option Length := do
  let m ← p.thousandths?
  ofThousandths? (clipWide (m * k))

/-- The ratio of two numbers, rounded, in words. The word of the least number has no
    opposite. -/
def ratio? (n d : Int) : Option Int := do
  let magnitude ← wide? d.natAbs
  if 0 ≤ n then
    let sum ← wide? (n + magnitude / 2)
    wide? (sum.tdiv d)
  else
    let opposite ← wide? (-n)
    let sum ← wide? (opposite + magnitude / 2)
    let quotient ← wide? (sum.tdiv d)
    wide? (-quotient)

/-- The product by a ratio, in words. -/
def timesRatio? (p : Length) (num den : Int) : Option Length :=
  if den = 0 then some 0
  else do
    let m ← p.thousandths?
    let quotient ← ratio? (clipWide (m * num)) den
    ofThousandths? quotient

/-- Adds to the length that is the state, in words. -/
def increase? (q : Length) : StateT Length Option Unit := do
  let p ← get
  let sum ← p.add? q
  set sum

/-- The lengths added from left to right, in words. -/
def sum? (ps : List Length) : Option Length := ps.foldlM add? 0

/-! ## Nothing overflows -/

theorem wide?_eq {n : Int} (h : -2 ^ 126 ≤ n) (h' : n ≤ 2 ^ 126) : wide? n = some n :=
  if_pos ⟨by omega, by omega⟩

theorem wide?_bind {α : Type} {n : Int} (h : -2 ^ 126 ≤ n) (h' : n ≤ 2 ^ 126)
    (f : Int → Option α) : (wide? n >>= f) = f n := by
  rw [wide?_eq h h']
  rfl

/-- A word of 64 bits is small enough for its thousandths. -/
theorem thousandths?_eq (p : Length) : p.thousandths? = some p.thousandths := by
  have h₁ := p.neg_le_word
  have h₂ := p.word_lt
  have hs : (p.word * 1000 + if 0 ≤ p.word * 1000 then 2 ^ 31 else -2 ^ 31) = p.scaled := by
    unfold scaled
    split <;> split <;> omega
  have hb : -2 ^ 74 ≤ p.scaled ∧ p.scaled ≤ 2 ^ 74 := by
    unfold scaled
    split <;> omega
  have hq : -2 ^ 74 ≤ p.scaled.tdiv (2 ^ 32) ∧ p.scaled.tdiv (2 ^ 32) ≤ 2 ^ 74 := by
    rw [tdiv_eq_floor]
    split <;> omega
  rw [thousandths?, wide?_bind (by omega) (by omega), hs, wide?_bind (by omega) (by omega),
    wide?_bind (by omega) (by omega)]
  rfl

theorem thousandths?_bind {α : Type} (p : Length) (f : Int → Option α) :
    (p.thousandths? >>= f) = f p.thousandths := by
  rw [thousandths?_eq]
  rfl

/-- Numbers of thousandths of ninety bits are small enough to make a length. -/
theorem ofThousandths?_eq {m : Int} (h : -2 ^ 90 ≤ m) (h' : m ≤ 2 ^ 90) :
    ofThousandths? m = some (ofThousandths m) := by
  have hs : (m * 2 ^ 32 + if 0 ≤ m then 500 else -500) = widened m := rfl
  have hb : -2 ^ 123 ≤ widened m ∧ widened m ≤ 2 ^ 123 := by
    unfold widened
    split <;> omega
  have hq : -2 ^ 123 ≤ (widened m).tdiv 1000 ∧ (widened m).tdiv 1000 ≤ 2 ^ 123 := by
    rw [tdiv_eq_floor]
    split <;> omega
  rw [ofThousandths?, wide?_bind (by omega) (by omega), hs, wide?_bind (by omega) (by omega),
    wide?_bind (by omega) (by omega)]
  rfl

/-- Lengths in thousandths have less than 42 bits. -/
theorem thousandths_bounds (p : Length) : -2 ^ 41 ≤ p.thousandths ∧ p.thousandths ≤ 2 ^ 41 := by
  have h₁ := neg_bound_le_thousandths p
  have h₂ := thousandths_le_bound p
  simp only [bound] at h₁ h₂
  omega

theorem add?_eq (p q : Length) : p.add? q = some (p + q) := by
  have hp := thousandths_bounds p
  have hq := thousandths_bounds q
  rw [add?, thousandths?_bind, thousandths?_bind, wide?_bind (by omega) (by omega),
    ofThousandths?_eq (by omega) (by omega)]
  rfl

theorem sub?_eq (p q : Length) : p.sub? q = some (p - q) := by
  have hp := thousandths_bounds p
  have hq := thousandths_bounds q
  rw [sub?, thousandths?_bind, thousandths?_bind, wide?_bind (by omega) (by omega),
    ofThousandths?_eq (by omega) (by omega)]
  rfl

theorem natAbs_thousandths_mul_le (p : Length) (k : Int32) :
    (p.thousandths * k.toInt).natAbs ≤ 2 ^ 72 := by
  have hp := thousandths_bounds p
  have hk := k.le_toInt
  have hk' := k.toInt_lt
  have hm : p.thousandths.natAbs * k.toInt.natAbs ≤ 2 ^ 41 * 2 ^ 31 :=
    Nat.mul_le_mul (by omega) (by omega)
  rw [Int.natAbs_mul]
  omega

/-- A product by a word of 32 bits is never moved into range. -/
theorem clipWide_thousandths_mul (p : Length) (k : Int32) :
    clipWide (p.thousandths * k.toInt) = p.thousandths * k.toInt := by
  have hm := natAbs_thousandths_mul_le p k
  unfold clipWide
  omega

theorem times?_eq (p : Length) (k : Int32) : p.times? k.toInt = some (p.times k.toInt) := by
  have hm := natAbs_thousandths_mul_le p k
  rw [times?, thousandths?_bind, clipWide_thousandths_mul, ofThousandths?_eq (by omega) (by omega)]
  rfl

/-! ## Ratios -/

theorem natAbs_tdiv_le (n d : Int) : (n.tdiv d).natAbs ≤ n.natAbs := by
  rw [Int.natAbs_tdiv]
  exact Nat.div_le_self _ _

theorem natAbs_ratio_le (n d : Int) : (ratio n d).natAbs ≤ n.natAbs + d.natAbs := by
  unfold ratio
  dsimp only
  split
  · have h := natAbs_tdiv_le (n + (d.natAbs : Int) / 2) d
    omega
  · have h := natAbs_tdiv_le (-n + (d.natAbs : Int) / 2) d
    omega

/-- Numbers of ninety bits are small enough to have their ratio rounded. -/
theorem ratio?_eq {n d : Int} (hn : n.natAbs ≤ 2 ^ 90) (hd : d.natAbs ≤ 2 ^ 90) :
    ratio? n d = some (ratio n d) := by
  rw [ratio?, ratio, wide?_bind (by omega) (by omega)]
  split
  · have h := natAbs_tdiv_le (n + (d.natAbs : Int) / 2) d
    rw [wide?_bind (by omega) (by omega), wide?_eq (by omega) (by omega)]
  · have h := natAbs_tdiv_le (-n + (d.natAbs : Int) / 2) d
    rw [wide?_bind (by omega) (by omega), wide?_bind (by omega) (by omega),
      wide?_bind (by omega) (by omega), wide?_eq (by omega) (by omega)]

theorem timesRatio?_eq (p : Length) (num den : Int32) :
    p.timesRatio? num.toInt den.toInt = some (p.timesRatio num.toInt den.toInt) := by
  have hm := natAbs_thousandths_mul_le p num
  have hd := den.le_toInt
  have hd' := den.toInt_lt
  have hr := natAbs_ratio_le (p.thousandths * num.toInt) den.toInt
  rw [timesRatio?, timesRatio]
  split
  · rfl
  · rw [thousandths?_bind, clipWide_thousandths_mul, ratio?_eq (by omega) (by omega)]
    exact ofThousandths?_eq (by omega) (by omega)

/-! ## Sums -/

theorem increase?_run (p q : Length) : (increase? q).run p = some ((), p + q) := by
  simp [increase?, add?_eq]

theorem sum?_eq (ps : List Length) : sum? ps = some (sum ps) := by
  suffices h : ∀ p : Length, ps.foldlM add? p = some (ps.foldl (· + ·) p) from h 0
  induction ps with
  | nil => exact fun _ => rfl
  | cons q ps ih =>
    intro p
    rw [List.foldlM_cons, add?_eq]
    exact ih (p + q)

/-- Sums, differences, products by words of 32 bits and sums of lists are the exact
    ones in thousandths, clipped to the range of lengths, those of lists after every
    addition. In words of 128 bits nothing on the way to them overflows, and adding
    to a length in place is adding. -/
theorem arithmetic_exact (p q : Length) (k : Int32) (ps : List Length) :
    ((p + q).thousandths = clip (p.thousandths + q.thousandths) ∧ p.add? q = some (p + q)) ∧
      ((p - q).thousandths = clip (p.thousandths - q.thousandths) ∧ p.sub? q = some (p - q)) ∧
      ((p.times k.toInt).thousandths = clip (p.thousandths * k.toInt) ∧
        p.times? k.toInt = some (p.times k.toInt)) ∧
      (increase? q).run p = some ((), p + q) ∧
      (sum ps).thousandths = ps.foldl (fun m r => clip (m + r.thousandths)) 0 ∧
      sum? ps = some (sum ps) := by
  refine ⟨⟨thousandths_add_eq_clip p q, add?_eq p q⟩, ⟨thousandths_sub p q, sub?_eq p q⟩,
    ⟨thousandths_times p k.toInt, times?_eq p k⟩, increase?_run p q, ?_, sum?_eq ps⟩
  rw [sum, thousandths_foldl, thousandths_zero]

end Length

end Lettering
