import Lettering.Proofs.Wrap.Cursor
import Lettering.Proofs.Wrap.Units
import Mathlib.Data.List.TakeWhile

/-!
# The boundaries of a text

From the start of a text one boundary leads to the next, up to the end (`boundary?`). They
are places between characters, each behind the one before, and what lies between two of
them in a row is a unit: a break character, or a run of other characters that goes on at
neither end (`StandsAsUnit`).

* `boundary?_eq`: the boundaries are the places behind a number of units.
* `partsAt_units`: at every boundary a break character stands on one side of it.
* `boundary?_cuts`: the boundaries cut a text into its units; how far it is to the next one
  depends on what follows alone.
-/

namespace Lettering

namespace Wrap

open Text (bytes IsPlace)

/-- The boundary that a number of steps leads to, from the start of the text on. -/
def boundary? (t : Text) : Nat → Option Nat
  | 0 => some 0
  | k + 1 => (boundary? t k).bind (nextBoundary? t)

/-- A break character stands on one side of the place between two texts, or one of them is
    empty. -/
def PartsAt (before after : Text) : Prop :=
  ∀ c ∈ before.getLast?, ∀ d ∈ after.head?, isBreak c ∨ isBreak d

/-- The characters between `before` and `after` are a unit: a break character, or a run of
    others that goes on at neither end. -/
inductive StandsAsUnit : Text → Text → Text → Prop
  | single {before after : Text} {c : Char} : isBreak c → StandsAsUnit before [c] after
  | run {before unit after : Text} : unit ≠ [] → (∀ c ∈ unit, ¬isBreak c) →
      (∀ c ∈ before.getLast?, isBreak c) → (∀ c ∈ after.head?, isBreak c) →
      StandsAsUnit before unit after

variable {t before : Text} {k i j : Nat}

/-! ## Places -/

/-- The boundaries are the places behind a number of units. -/
theorem boundary?_eq (t : Text) (k : Nat) : boundary? t k = some (bytes (firstUnits t k)) := by
  induction k with
  | zero => rfl
  | succ k ih =>
    have hnext := nextBoundary?_append (firstUnits t k) (afterUnits t k)
    rw [firstUnits_append_afterUnits] at hnext
    rw [boundary?, ih, Option.bind_some, hnext, firstUnits_succ]

theorem isPlace_firstUnits (t : Text) (k : Nat) : IsPlace t (bytes (firstUnits t k)) :=
  ⟨_, _, (firstUnits_append_afterUnits t k).symm, rfl⟩

theorem afterUnits_ne_nil (hk : k < (units t).length) : afterUnits t k ≠ [] :=
  fun h => absurd (afterUnits_eq_nil_iff.mp h) (Nat.not_le.mpr hk)

/-- No unit is empty, so that the boundary behind it is another one. -/
theorem bytes_firstUnits_lt_succ (hk : k < (units t).length) :
    bytes (firstUnits t k) < bytes (firstUnits t (k + 1)) := by
  rw [firstUnits_succ, Text.bytes_lt_append_iff]
  exact cutUnit_ne_nil (afterUnits_ne_nil hk)

theorem bytes_firstUnits_lt (h : i < j) (hj : j ≤ (units t).length) :
    bytes (firstUnits t i) < bytes (firstUnits t j) := by
  induction j with
  | zero => exact absurd h (Nat.not_lt_zero i)
  | succ j ih =>
    have hlast := bytes_firstUnits_lt_succ hj
    rcases Nat.lt_succ_iff_lt_or_eq.mp h with hlt | rfl
    · exact Nat.lt_trans (ih hlt (Nat.le_of_succ_le hj)) hlast
    · exact hlast

theorem firstUnits_of_le (h : (units t).length ≤ k) : firstUnits t k = t := by
  have hall := firstUnits_append_afterUnits t k
  rwa [afterUnits_eq_nil_iff.mpr h, List.append_nil] at hall

/-- The unit behind a boundary is the first one of what follows. -/
theorem getElem_units (hk : k < (units t).length) :
    (units t)[k] = (cutUnit (afterUnits t k)).1 := by
  have hdrop := (units_afterUnits t k).symm.trans (units_of_ne_nil (afterUnits_ne_nil hk))
  rw [List.drop_eq_getElem_cons hk] at hdrop
  exact (List.cons.inj hdrop).1

/-! ## Units by the characters around them -/

/-- The characters behind a run of others start with a break character. -/
theorem isBreak_of_mem_head? (t : Text) :
    ∀ c ∈ (t.dropWhile (!isBreak ·)).head?, isBreak c := by
  intro c hc
  have h := List.head?_dropWhile_not (!isBreak ·) t
  rw [Option.mem_def.mp hc] at h
  simpa using h

/-- Behind the first unit there is a boundary. -/
theorem partsAt_cutUnit (before : Text) (ht : t ≠ []) :
    PartsAt (before ++ (cutUnit t).1) (cutUnit t).2 := by
  obtain ⟨d, r, rfl⟩ := List.exists_cons_of_ne_nil ht
  intro c hc e he
  rw [cutUnit] at hc he
  split at hc
  · rename_i hd
    obtain rfl : d = c := by simpa using hc
    exact .inl hd
  · rename_i hd
    rw [if_neg hd] at he
    exact .inr (isBreak_of_mem_head? r e he)

/-- At every boundary a break character stands on one side of it. -/
theorem partsAt_units (t : Text) (k : Nat) : PartsAt (firstUnits t k) (afterUnits t k) := by
  induction k with
  | zero => exact fun c hc => absurd hc (by simp [firstUnits])
  | succ k ih =>
    rw [firstUnits_succ, afterUnits_succ]
    by_cases hne : afterUnits t k = []
    · rw [hne]
      exact fun _ _ d hd => absurd hd (by simp [cutUnit])
    · exact partsAt_cutUnit _ hne

/-- What is cut off behind a boundary is a unit. -/
theorem PartsAt.standsAsUnit (h : PartsAt before t) (ht : t ≠ []) :
    StandsAsUnit before (cutUnit t).1 (cutUnit t).2 := by
  obtain ⟨d, r, rfl⟩ := List.exists_cons_of_ne_nil ht
  rw [cutUnit]
  split
  · rename_i hd
    exact .single hd
  · rename_i hd
    refine .run (List.cons_ne_nil d _) ?_ ?_ (isBreak_of_mem_head? r)
    · refine List.forall_mem_cons.mpr ⟨hd, fun c hc => ?_⟩
      simpa using List.mem_takeWhile_imp hc
    · exact fun c hc => (h c hc d rfl).resolve_right hd

/-- From the start of a text the boundaries are places that go up until the end is reached.
    They cut the text into its units, each of which is a break character or a run of others
    that goes on at neither end. How far it is from a place to the next boundary depends only
    on what follows the place. -/
theorem boundary?_cuts (t : Text) :
    (∀ k, ∃ n, boundary? t k = some n ∧ IsPlace t n) ∧
      (∀ i j m n, i < j → j ≤ (units t).length → boundary? t i = some m →
        boundary? t j = some n → m < n) ∧
      (∀ k, (units t).length ≤ k → boundary? t k = some (bytes t)) ∧
      (units t).flatten = t ∧
      (∀ k (hk : k < (units t).length), ∃ before after, t = before ++ (units t)[k] ++ after ∧
        boundary? t k = some (bytes before) ∧
        boundary? t (k + 1) = some (bytes (before ++ (units t)[k])) ∧
        StandsAsUnit before (units t)[k] after) ∧
      ∀ p r, nextBoundary? (p ++ r) (bytes p) = (nextBoundary? r 0).map (bytes p + ·) := by
  refine ⟨fun k => ⟨_, boundary?_eq t k, isPlace_firstUnits t k⟩, ?_, fun k hk => ?_,
    flatten_units t, fun k hk => ?_, fun p r => ?_⟩
  · intro i j m n h hj hm hn
    obtain rfl := Option.some.inj ((boundary?_eq t i).symm.trans hm)
    obtain rfl := Option.some.inj ((boundary?_eq t j).symm.trans hn)
    exact bytes_firstUnits_lt h hj
  · rw [boundary?_eq, firstUnits_of_le hk]
  · rw [getElem_units hk]
    refine ⟨firstUnits t k, afterUnits t (k + 1), ?_, boundary?_eq t k, ?_, ?_⟩
    · rw [← firstUnits_succ, firstUnits_append_afterUnits]
    · rw [← firstUnits_succ, boundary?_eq]
    · rw [afterUnits_succ]
      exact (partsAt_units t k).standsAsUnit (afterUnits_ne_nil hk)
  · have hstart := nextBoundary?_append [] r
    rw [List.nil_append, List.nil_append, Text.bytes_nil] at hstart
    rw [nextBoundary?_append, hstart, Option.map_some, Text.bytes_append]

example : (List.range 6).map (boundary? "é\u3000b-".toList) =
    [some 0, some 2, some 5, some 6, some 7, some 7] := by decide

end Wrap

end Lettering
