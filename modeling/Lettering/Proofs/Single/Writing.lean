import Lettering.Single.Decimal
import Lettering.Proofs.Single.Order
import Lettering.Proofs.Single.Rounding

/-!
# Writing numbers without a point

A number that is not whole is written with a point. For what is written without
one is a whole number that rounds to the number, and so it is nearer to it than
the next numbers are. But where the numbers are denser than the whole ones, every
whole number is one of them, and it rounds to itself; where they are not, all of
them are whole.

* `whole_of_onGrid?`: only whole numbers are on a grid of whole numbers.
* `point_mem_text`: what is not whole is written with a point.
-/

namespace Lettering

namespace Single

variable {code : Nat} {g : Int} {d : Decimal} {x : Single}

/-! ## The grids -/

/-- A decimal that is found on a grid lies half-way to the next numbers at most. -/
theorem onGrid?_bounds (h : onGrid? code g = some d) :
    d.exponent = g ∧
      (magnitudeOf (code - 1) + magnitudeOf code) * 10 ^ (-g).toNat ≤
        d.digits * (10 ^ g.toNat * 2 ^ 150) ∧
      d.digits * (10 ^ g.toNat * 2 ^ 150) ≤
        (magnitudeOf code + magnitudeOf (code + 1)) * 10 ^ (-g).toNat := by
  have hinside {low high v : Nat} (hv : (if code % 2 = 0 then decide (low ≤ v) && decide (v ≤ high)
      else decide (low < v) && decide (v < high)) = true) : low ≤ v ∧ v ≤ high := by
    split at hv <;> rw [Bool.and_eq_true, decide_eq_true_eq, decide_eq_true_eq] at hv <;> omega
  simp only [onGrid?] at h
  split at h
  · rename_i hbelow habove
    cases h
    dsimp only
    split
    · exact ⟨rfl, hinside hbelow⟩
    · exact ⟨rfl, hinside habove⟩
  · rename_i hbelow _
    cases h
    exact ⟨rfl, hinside hbelow⟩
  · rename_i _ habove
    cases h
    exact ⟨rfl, hinside habove⟩
  · cases h

/-- Numbers are multiples of their last bit. -/
theorem lastBit_dvd (code : Nat) : 2 ^ (code / 2 ^ 23 - 1) ∣ magnitudeOf code := by
  by_cases hlow : code < 2 ^ 23
  · have he : code / 2 ^ 23 - 1 = 0 := by omega
    rw [he, Nat.pow_zero]
    exact Nat.one_dvd _
  · rw [magnitudeOf_of_le (by omega)]
    exact Nat.dvd_mul_left _ _

/-- The number before is no farther away than the number behind. -/
theorem magnitudeOf_le_pred (code : Nat) :
    magnitudeOf code ≤ magnitudeOf (code - 1) + 2 ^ (code / 2 ^ 23 - 1) := by
  cases code with
  | zero => exact Nat.le_add_right _ _
  | succ c =>
    rw [magnitudeOf_succ, Nat.add_sub_cancel]
    refine Nat.add_le_add_left (Nat.pow_le_pow_right (by decide) ?_) _
    omega

/-- Multiples of a unit are the same if they are no farther apart than half of it. -/
theorem eq_of_near {m n unit : Nat} (hunit : 0 < unit) (h : 2 * (m * unit) ≤ 2 * (n * unit) + unit)
    (h' : 2 * (n * unit) ≤ 2 * (m * unit) + unit) : m = n := by
  have hle {k l : Nat} (hkl : 2 * (k * unit) ≤ 2 * (l * unit) + unit) : k ≤ l := by
    refine Nat.le_of_not_lt fun hlt => ?_
    have := Nat.mul_le_mul_right unit (Nat.succ_le_of_lt hlt)
    rw [Nat.succ_mul] at this
    omega
  exact Nat.le_antisymm (hle h) (hle h')

/-- On a grid of whole numbers there are only whole numbers. -/
theorem whole_of_onGrid? (hg : 0 ≤ g) (h : onGrid? code g = some d) :
    2 ^ 149 ∣ magnitudeOf code := by
  obtain ⟨-, hlo, hhi⟩ := onGrid?_bounds h
  have hscale : (-g).toNat = 0 := by omega
  have hvalue : d.digits * (10 ^ g.toNat * 2 ^ 150) = 2 * (d.digits * 10 ^ g.toNat * 2 ^ 149) := by
    rw [show 2 ^ 150 = 2 * 2 ^ 149 from Nat.pow_succ', ← Nat.mul_assoc, Nat.mul_left_comm]
  rw [hscale, Nat.pow_zero, Nat.mul_one, hvalue] at hlo hhi
  have hwhole : 2 ^ 149 ∣ d.digits * 10 ^ g.toNat * 2 ^ 149 := Nat.dvd_mul_left _ _
  have hpred := magnitudeOf_le_pred code
  have hsucc := magnitudeOf_succ code
  have hbit := lastBit_dvd code
  generalize d.digits * 10 ^ g.toNat * 2 ^ 149 = value at hlo hhi hwhole
  generalize code / 2 ^ 23 - 1 = e at hpred hsucc hbit
  rcases Nat.le_total 149 e with he | he
  · exact Nat.dvd_trans (Nat.pow_dvd_pow 2 he) hbit
  · -- The whole number is itself a multiple of the last bit, and the only one near by.
    obtain ⟨m, hm⟩ := hbit
    obtain ⟨n, hn⟩ := Nat.dvd_trans (Nat.pow_dvd_pow 2 he) hwhole
    rw [Nat.mul_comm] at hm hn
    have hmn : m = n := eq_of_near (Nat.two_pow_pos e) (by omega) (by omega)
    rwa [hm, hmn, ← hn]

/-! ## The point -/

/-- The finest grid is finer than the distance of any two numbers. -/
theorem isSome_onGrid?_finest (h : 0 < code) : (onGrid? code (-46)).isSome := by
  have hlow : magnitudeOf (code - 1) < magnitudeOf code := magnitudeOf_lt (by omega)
  have hhigh := magnitudeOf_lt_succ code
  have hdiv := Nat.div_add_mod (2 * magnitudeOf code * 10 ^ 46) (2 ^ 150)
  have hmod := Nat.mod_lt (2 * magnitudeOf code * 10 ^ 46) (Nat.two_pow_pos 150)
  rw [Nat.mul_comm] at hdiv
  have hinside : (magnitudeOf (code - 1) + magnitudeOf code) * 10 ^ 46 <
        2 * magnitudeOf code * 10 ^ 46 / 2 ^ 150 * 2 ^ 150 ∧
      2 * magnitudeOf code * 10 ^ 46 / 2 ^ 150 * 2 ^ 150 <
        (magnitudeOf code + magnitudeOf (code + 1)) * 10 ^ 46 := by
    omega
  have hscale : Nat.pow 10 (-(-46) : Int).toNat = 10 ^ 46 := rfl
  have hcell : Nat.pow 10 (-46 : Int).toNat * 2 ^ 150 = 2 ^ 150 := rfl
  simp only [onGrid?, hscale, hcell]
  split
  · rfl
  · rfl
  · rfl
  · rename_i hbelow _
    refine absurd hbelow ?_
    split <;> simp only [Bool.and_eq_false_iff, decide_eq_false_iff_not] <;> omega

/-- The shortest decimal of a number that is not whole has digits behind the point. -/
theorem exponent_shortest_neg (h : ¬2 ^ 149 ∣ magnitudeOf code) : (shortest code).exponent < 0 := by
  unfold shortest
  cases hfound : (List.range 86).findSome? fun i : Nat => onGrid? code (39 - i) with
  | none =>
    have hpos : 0 < code := Nat.pos_of_ne_zero fun hcode => h (hcode ▸ Nat.dvd_zero _)
    have hnone := List.findSome?_eq_none_iff.mp hfound 85 (by decide)
    have hsome := isSome_onGrid?_finest hpos
    rw [show (39 : Int) - (85 : Nat) = -46 by decide] at hnone
    rw [hnone] at hsome
    cases hsome
  | some d =>
    obtain ⟨i, -, hi⟩ := List.exists_of_findSome?_eq_some hfound
    obtain ⟨hexponent, -, -⟩ := onGrid?_bounds hi
    refine Int.not_le.mp fun hle => h (whole_of_onGrid? ?_ hi)
    rwa [← hexponent]

theorem point_mem_decimalText (h : d.exponent < 0) : '.' ∈ d.text := by
  rw [Decimal.text, if_neg (Int.not_le.mpr h)]
  exact List.mem_append_right _ List.mem_cons_self

/-- What is not whole is written with a point. -/
theorem point_mem_text (hfinite : x.isFinite) (h : x.isInteger = false) : '.' ∈ x.text := by
  have hwhole : ¬2 ^ 149 ∣ x.magnitude := fun hdvd => by
    simp [isInteger, hfinite, Nat.mod_eq_zero_of_dvd hdvd] at h
  have hzero : x.isZero = false := beq_eq_false_iff_ne.mpr fun hcode => by
    rw [magnitude, hcode] at hwhole
    exact hwhole (Nat.dvd_zero _)
  have hpoint := point_mem_decimalText (exponent_shortest_neg hwhole)
  simp only [text, isNaN_of_isFinite hfinite, isInfinite_of_isFinite hfinite, hzero,
    Bool.false_eq_true, if_false]
  split
  · exact List.mem_cons_of_mem _ hpoint
  · exact hpoint

end Single

end Lettering
