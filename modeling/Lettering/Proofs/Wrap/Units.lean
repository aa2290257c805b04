import Lettering.Wrap.Boundary

/-!
# Units of a text

A text is a sequence of units, and a line may end only between two of them. What
wrapping measures and draws is always a number of units from the place it has
come to (`firstUnits`), and what is left is the text after them (`afterUnits`).

* `firstUnits_append_afterUnits`: the two make up the text.
* `units_afterUnits`: the units of what is left are those that are left.
* `firstUnits_succ`: one more unit is the first unit of what is left.
-/

namespace Lettering

namespace Wrap

/-- The units of a text, in order. -/
def units (t : Text) : List Text :=
  if _h : t = [] then [] else (cutUnit t).1 :: units (cutUnit t).2
termination_by t.length
decreasing_by exact length_cutUnit_lt _h

/-- The first `k` units of a text, put together. -/
def firstUnits (t : Text) (k : Nat) : Text := ((units t).take k).flatten

/-- The text after its first `k` units. -/
def afterUnits (t : Text) (k : Nat) : Text := ((units t).drop k).flatten

@[simp] theorem units_nil : units [] = [] := by simp [units]

theorem units_of_ne_nil {t : Text} (h : t ≠ []) :
    units t = (cutUnit t).1 :: units (cutUnit t).2 := by
  rw [units, dif_neg h]

/-- The units make up the text. -/
theorem flatten_units (t : Text) : (units t).flatten = t := by
  fun_induction units t with
  | case1 => rfl
  | case2 t h ih => rw [List.flatten_cons, ih, cutUnit_append]

theorem units_eq_nil_iff {t : Text} : units t = [] ↔ t = [] := by
  refine ⟨fun h => ?_, fun h => h ▸ units_nil⟩
  rw [← flatten_units t, h, List.flatten_nil]

/-- A number of units and the text after them make up the text. -/
theorem firstUnits_append_afterUnits (t : Text) (k : Nat) :
    firstUnits t k ++ afterUnits t k = t := by
  rw [firstUnits, afterUnits, ← List.flatten_append, List.take_append_drop, flatten_units]

@[simp] theorem afterUnits_zero (t : Text) : afterUnits t 0 = t := flatten_units t

/-- The units of what is left are those that are left. -/
theorem units_afterUnits (t : Text) (k : Nat) : units (afterUnits t k) = (units t).drop k := by
  induction k generalizing t with
  | zero => rw [afterUnits_zero, List.drop_zero]
  | succ k ih =>
    by_cases h : t = []
    · simp [h, afterUnits]
    · rw [afterUnits, units_of_ne_nil h, List.drop_succ_cons]
      exact ih _

theorem afterUnits_eq_nil_iff {t : Text} {k : Nat} :
    afterUnits t k = [] ↔ (units t).length ≤ k := by
  rw [← units_eq_nil_iff, units_afterUnits, List.drop_eq_nil_iff]

/-- A number of units is not empty, as no unit is. -/
theorem firstUnits_ne_nil {t : Text} {k : Nat} (hk : 0 < k) (ht : t ≠ []) :
    firstUnits t k ≠ [] := by
  obtain ⟨k, rfl⟩ := Nat.exists_eq_succ_of_ne_zero (Nat.ne_of_gt hk)
  rw [firstUnits, units_of_ne_nil ht, List.take_succ_cons, List.flatten_cons]
  exact List.append_ne_nil_of_left_ne_nil (cutUnit_ne_nil ht) _

/-- One more unit is the first unit of what is left. -/
theorem firstUnits_succ (t : Text) (k : Nat) :
    firstUnits t (k + 1) = firstUnits t k ++ (cutUnit (afterUnits t k)).1 := by
  induction k generalizing t with
  | zero =>
    by_cases h : t = []
    · simp [h, firstUnits, cutUnit]
    · simp [firstUnits, units_of_ne_nil h]
  | succ k ih =>
    by_cases h : t = []
    · simp [h, firstUnits, afterUnits, cutUnit]
    · have ih := ih (cutUnit t).2
      simp only [firstUnits, afterUnits, units_of_ne_nil h, List.take_succ_cons, List.flatten_cons,
        List.drop_succ_cons, List.append_assoc] at ih ⊢
      rw [ih]

theorem firstUnits_one (t : Text) : firstUnits t 1 = (cutUnit t).1 := by
  rw [firstUnits_succ, afterUnits_zero]
  rfl

theorem afterUnits_succ (t : Text) (k : Nat) :
    afterUnits t (k + 1) = (cutUnit (afterUnits t k)).2 := by
  have h := firstUnits_append_afterUnits t (k + 1)
  rw [firstUnits_succ, List.append_assoc] at h
  have hk := firstUnits_append_afterUnits t k
  rw [← cutUnit_append (afterUnits t k)] at hk
  exact List.append_cancel_left (List.append_cancel_left (h.trans hk.symm))

end Wrap

end Lettering
