import Lettering.Proofs.Length.Words

/-!
# Lengths that are reached

A length is a word of 64 bits, but arithmetic is done in its thousandths, and only one word in
four million is that of a number of thousandths. Equality and order are those of the words, and
by them lines are broken and widths remembered. This is sound since no other words are ever
reached: whatever is made and computed from lengths (`Reachable`) is the length of its own
thousandths.

* `reachable_iff`: the lengths that are reached are those of their thousandths.
* `thousandths_faithful`: numbers of thousandths within the bounds are kept, and lengths that
  are reached are equal, or in order, just as their thousandths are.
-/

namespace Lettering

namespace Length

variable {p q : Length}

/-- The lengths that are reached: made from numbers, and computed from others. -/
inductive Reachable : Length → Prop
  | zero : Reachable 0
  | ofSingle (x : Single) : Reachable (ofSingle x)
  | ofPixels (n : Int32) : Reachable (ofPixels n.toInt)
  | ofThousandths (m : Int64) : Reachable (ofThousandths m.toInt)
  | add {p q : Length} : Reachable p → Reachable q → Reachable (p + q)
  | sub {p q : Length} : Reachable p → Reachable q → Reachable (p - q)
  | times {p : Length} (k : Int32) : Reachable p → Reachable (p.times k.toInt)
  | timesRatio {p : Length} (num den : Int32) : Reachable p →
      Reachable (p.timesRatio num.toInt den.toInt)
  | scale {p : Length} (x : Single) : Reachable p → Reachable (p.scale x)
  | max {p q : Length} : Reachable p → Reachable q → Reachable (max p q)
  | sum {ps : List Length} : (∀ p ∈ ps, Reachable p) → Reachable (sum ps)

/-! ## Lengths of thousandths -/

theorem exists_ofThousandths_eq_ofSingle (x : Single) : ∃ m, ofThousandths m = ofSingle x := by
  rw [ofSingle]
  split
  · exact ⟨_, rfl⟩
  · exact ⟨0, rfl⟩

theorem exists_ofThousandths_eq_sum (ps : List Length) : ∃ m, ofThousandths m = sum ps := by
  rcases List.eq_nil_or_concat ps with rfl | ⟨qs, q, rfl⟩
  · exact ⟨0, rfl⟩
  · -- The last addition makes the sum.
    refine ⟨(sum qs).thousandths + q.thousandths, ?_⟩
    rw [List.concat_eq_append, sum.eq_1 (qs ++ [q]), List.foldl_append]
    rfl

/-- What is reached is made from thousandths, or chosen among such. -/
theorem Reachable.exists_ofThousandths_eq (h : Reachable p) : ∃ m, Length.ofThousandths m = p := by
  induction h with
  | zero => exact ⟨0, rfl⟩
  | ofSingle x => exact exists_ofThousandths_eq_ofSingle x
  | ofPixels n => exact ⟨_, rfl⟩
  | ofThousandths m => exact ⟨_, rfl⟩
  | add => exact ⟨_, rfl⟩
  | sub => exact ⟨_, rfl⟩
  | times => exact ⟨_, rfl⟩
  | timesRatio num den =>
    rw [Length.timesRatio]
    split
    · exact ⟨0, rfl⟩
    · exact ⟨_, rfl⟩
  | scale x =>
    rw [Length.scale]
    split
    · exact exists_ofThousandths_eq_ofSingle _
    · exact ⟨0, rfl⟩
  | @max p q _ _ ihp ihq =>
    rw [max_def]
    split
    · exact ihp
    · exact ihq
  | sum => exact exists_ofThousandths_eq_sum _

/-- The lengths that are reached are those of their thousandths. -/
theorem reachable_iff : Reachable p ↔ ofThousandths p.thousandths = p := by
  constructor
  · intro h
    obtain ⟨m, rfl⟩ := h.exists_ofThousandths_eq
    exact ofThousandths_thousandths m
  · intro h
    have hp := thousandths_bounds p
    have hm : (Int64.ofInt p.thousandths).toInt = p.thousandths :=
      Int64.toInt_ofInt_of_le (by omega) (by omega)
    rw [← h, ← hm]
    exact .ofThousandths _

/-! ## Equality and order -/

theorem Reachable.eq_iff (hp : Reachable p) (hq : Reachable q) :
    p = q ↔ p.thousandths = q.thousandths := by
  refine ⟨congrArg thousandths, fun h => ?_⟩
  rw [← reachable_iff.mp hp, ← reachable_iff.mp hq, h]

theorem Reachable.le_iff (hp : Reachable p) (hq : Reachable q) :
    p ≤ q ↔ p.thousandths ≤ q.thousandths := by
  refine ⟨thousandths_le_thousandths, fun h => ?_⟩
  rw [← reachable_iff.mp hp, ← reachable_iff.mp hq]
  exact ofThousandths_le_ofThousandths h

theorem Reachable.lt_iff (hp : Reachable p) (hq : Reachable q) :
    p < q ↔ p.thousandths < q.thousandths := by
  rw [← Length.not_le, ← Int.not_le, hq.le_iff hp]

theorem Reachable.thousandths_max (hp : Reachable p) (hq : Reachable q) :
    (Max.max p q).thousandths = Max.max p.thousandths q.thousandths := by
  rw [max_def]
  split
  case isTrue h =>
    exact (Int.max_eq_left ((hq.le_iff hp).mp h)).symm
  case isFalse h =>
    have hlt := (hp.lt_iff hq).mp (Length.not_le.mp h)
    exact (Int.max_eq_right (Int.le_of_lt hlt)).symm

/-- Words of 64 bits are kept as thousandths, up to the clipping at the bounds. Lengths that
    are reached are just those of their own thousandths, so they are equal, and in order, as
    their thousandths are, and the larger of two has the larger number of them. -/
theorem thousandths_faithful :
    (∀ m : Int64, (ofThousandths m.toInt).thousandths = clip m.toInt) ∧
      (∀ p, Reachable p ↔ ofThousandths p.thousandths = p) ∧
      ∀ p q, Reachable p → Reachable q →
        (p = q ↔ p.thousandths = q.thousandths) ∧ (p ≤ q ↔ p.thousandths ≤ q.thousandths) ∧
          (p < q ↔ p.thousandths < q.thousandths) ∧
          (max p q).thousandths = max p.thousandths q.thousandths := by
  refine ⟨fun m => thousandths_ofThousandths m.toInt, fun p => reachable_iff, ?_⟩
  intro p q hp hq
  exact ⟨hp.eq_iff hq, hp.le_iff hq, hp.lt_iff hq, hp.thousandths_max hq⟩

/-- Case: a tenth of a pixel and two tenths are three tenths, to the last bit of the word. -/
theorem thousandths_faithful_tenths :
    let sum := ofSingle (.ofBits 0x3DCCCCCD) + ofSingle (.ofBits 0x3E4CCCCD)
    Reachable sum ∧ Reachable (ofThousandths 300) ∧ sum = ofThousandths 300 := by
  intro sum
  have hsum : Reachable sum := .add (.ofSingle _) (.ofSingle _)
  have hq : Reachable (ofThousandths 300) := .ofThousandths 300
  obtain ⟨-, -, h⟩ := thousandths_faithful
  exact ⟨hsum, hq, (h _ _ hsum hq).1.mpr (by decide)⟩

end Length

end Lettering
