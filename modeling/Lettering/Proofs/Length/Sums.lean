import Lettering.Length

/-!
# Sums of lengths

Addition of lengths keeps their order, and clips at the ends of the range. When
lengths are added that are not negative, sums can leave the range at its upper end
only, and there clipping every sum is the same as clipping the last one.

* `thousandths_sum`: the sum of lengths that are not negative is their exact sum in
  thousandths (`Length.extent`), clipped once.
* `add_sum_append`: as long as a sum is not clipped, its summands may be added in
  two parts.
-/

namespace Lettering

namespace Length

variable {p q r : Length}

/-! ## Order -/

theorem le_refl (p : Length) : p ≤ p := Int.le_refl _

theorem le_trans (h : p ≤ q) (h' : q ≤ r) : p ≤ r := Int.le_trans h h'

theorem le_antisymm (h : p ≤ q) (h' : q ≤ p) : p = q := ext_word (Int.le_antisymm h h')

theorem not_le : ¬p ≤ q ↔ q < p := by rw [le_def, lt_def, Int.not_le]

theorem max_def (p q : Length) : max p q = if q ≤ p then p else q := rfl

theorem thousandths_le_thousandths (h : p ≤ q) : p.thousandths ≤ q.thousandths := by
  rw [le_def] at h
  simp only [thousandths, scaled, clipWord, tdiv_eq_floor]
  split <;> split <;> split <;> split <;> omega

theorem ofThousandths_le_ofThousandths {m n : Int} (h : m ≤ n) :
    ofThousandths m ≤ ofThousandths n := by
  simp only [le_def, ofThousandths, widened, clipWord, tdiv_eq_floor]
  split <;> split <;> split <;> split <;> omega

theorem neg_bound_le_thousandths (p : Length) : -bound ≤ p.thousandths := by
  have h := p.neg_le_word
  simp only [thousandths, scaled, clipWord, bound, tdiv_eq_floor]
  split <;> split <;> omega

theorem thousandths_le_bound (p : Length) : p.thousandths ≤ bound := by
  have h := p.word_lt
  simp only [thousandths, scaled, clipWord, bound, tdiv_eq_floor]
  split <;> split <;> omega

theorem thousandths_nonneg (h : 0 ≤ p) : 0 ≤ p.thousandths := thousandths_le_thousandths h

theorem thousandths_zero : (0 : Length).thousandths = 0 := by decide

/-- What is made from thousandths is made from its own. -/
theorem ofThousandths_thousandths (m : Int) :
    ofThousandths (ofThousandths m).thousandths = ofThousandths m := by
  rw [thousandths_ofThousandths, ofThousandths_clip]

/-! ## Addition -/

theorem add_def (p q : Length) : p + q = ofThousandths (p.thousandths + q.thousandths) := rfl

theorem thousandths_add (p q : Length) :
    (p + q).thousandths = max (-bound) (min (p.thousandths + q.thousandths) bound) :=
  thousandths_ofThousandths _

theorem add_le_add_right (h : p ≤ q) (r : Length) : p + r ≤ q + r :=
  ofThousandths_le_ofThousandths (Int.add_le_add_right (thousandths_le_thousandths h) _)

/-- Behind a place given in thousandths one stays behind it. -/
theorem ofThousandths_le_add {b : Int} (hp : ofThousandths b ≤ p) (hr : 0 ≤ r) :
    ofThousandths b ≤ p + r := by
  rw [← ofThousandths_thousandths b]
  have h₁ := thousandths_le_thousandths hp
  have h₂ := thousandths_nonneg hr
  exact ofThousandths_le_ofThousandths (by omega)

/-! ## Sums -/

/-- The sum in thousandths, exactly. -/
def extent : List Length → Int
  | [] => 0
  | p :: ps => p.thousandths + extent ps

@[simp] theorem extent_nil : extent [] = 0 := rfl

@[simp] theorem extent_cons (p : Length) (ps : List Length) :
    extent (p :: ps) = p.thousandths + extent ps := rfl

@[simp] theorem extent_append (ps qs : List Length) :
    extent (ps ++ qs) = extent ps + extent qs := by
  induction ps with
  | nil => exact (Int.zero_add _).symm
  | cons p ps ih => rw [List.cons_append, extent_cons, extent_cons, ih, Int.add_assoc]

theorem extent_nonneg {ps : List Length} (h : ∀ p ∈ ps, 0 ≤ p) : 0 ≤ extent ps := by
  induction ps with
  | nil => exact Int.le_refl 0
  | cons p ps ih =>
    have h₁ := thousandths_nonneg (h p List.mem_cons_self)
    have h₂ := ih fun q hq => h q (List.mem_cons_of_mem _ hq)
    rw [extent_cons]
    omega

theorem foldl_add_nonneg {ps : List Length} (h : ∀ p ∈ ps, 0 ≤ p) {a : Length} (ha : 0 ≤ a) :
    0 ≤ ps.foldl (· + ·) a := by
  induction ps generalizing a with
  | nil => exact ha
  | cons p ps ih =>
    have hz : ofThousandths 0 ≤ a + p := ofThousandths_le_add ha (h p List.mem_cons_self)
    exact ih (fun q hq => h q (List.mem_cons_of_mem _ hq)) hz

theorem sum_nonneg {ps : List Length} (h : ∀ p ∈ ps, 0 ≤ p) : 0 ≤ sum ps :=
  foldl_add_nonneg h (le_refl 0)

/-- Sums that only grow are clipped once. -/
theorem thousandths_foldl_add {ps : List Length} (h : ∀ p ∈ ps, 0 ≤ p) {a : Length}
    (ha : 0 ≤ a.thousandths) :
    (ps.foldl (· + ·) a).thousandths = min (a.thousandths + extent ps) bound := by
  induction ps generalizing a with
  | nil =>
    rw [List.foldl_nil, extent_nil, Int.add_zero, Int.min_eq_left (thousandths_le_bound a)]
  | cons p ps ih =>
    have hp := thousandths_nonneg (h p List.mem_cons_self)
    have hps := fun q hq => h q (List.mem_cons_of_mem _ hq)
    have hs := extent_nonneg hps
    have hadd := thousandths_add a p
    simp only [bound] at hadd ⊢
    rw [List.foldl_cons, ih hps (by omega), extent_cons, hadd]
    simp only [bound]
    omega

/-- The sum of lengths that are not negative is the exact one, clipped. -/
theorem thousandths_sum {ps : List Length} (h : ∀ p ∈ ps, 0 ≤ p) :
    (sum ps).thousandths = min (extent ps) bound := by
  rw [sum, thousandths_foldl_add h (Int.le_of_eq thousandths_zero.symm), thousandths_zero,
    Int.zero_add]

/-- As long as the sum of summands that are not negative is not clipped, they may
    be added in two parts. -/
theorem add_sum_append {ps qs : List Length} (x : Length) (hp : ∀ p ∈ ps, 0 ≤ p)
    (hq : ∀ p ∈ qs, 0 ≤ p) (h : extent (ps ++ qs) ≤ bound) :
    x + sum (ps ++ qs) = x + sum ps + sum qs := by
  have hpq : ∀ p ∈ ps ++ qs, 0 ≤ p := fun p hm => (List.mem_append.mp hm).elim (hp p) (hq p)
  have h₁ := extent_nonneg hp
  have h₂ := extent_nonneg hq
  have hx := neg_bound_le_thousandths x
  rw [extent_append] at h
  rw [add_def, add_def (x + sum ps), thousandths_add, thousandths_sum hpq, thousandths_sum hp,
    thousandths_sum hq, extent_append, ← ofThousandths_clip,
    ← ofThousandths_clip (max _ _ + _)]
  -- Where the first part is clipped already, the whole is clipped too.
  congr 1
  simp only [bound] at *
  omega

end Length

end Lettering
