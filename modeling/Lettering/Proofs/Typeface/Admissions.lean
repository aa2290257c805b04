import Lettering.Proofs.KeyedList
import Lettering.Typeface.WidthCache
import Mathlib.Data.List.DropRight
import Mathlib.Data.List.Nodup

/-!
# What a width cache holds

A width cache has its widths in a table, and the keys of the table in a queue. A key is
admitted when a width is inserted for it while it is not held; if there is no room, the key
admitted first has to go. What is held after any insertions is known from them alone: the
keys admitted last, as many as there is room for, each with the width that was inserted for
it last (`insertAll_holds`).

Table and queue are kept apart, so the first thing to show is that they do not fall apart:
every key of the one is in the other, and just once (`InStep`).
-/

namespace Lettering

namespace Typeface

namespace WidthCache

variable {c : WidthCache} {key k : WidthKey}

/-! ## Table and queue -/

/-- The queue has the keys of the table, each of them once. -/
structure InStep (c : WidthCache) : Prop where
  nodup : c.order.toList.Nodup
  mem_iff : ∀ key, key ∈ c.order.toList ↔ key ∈ c.widths
  size_eq : c.widths.size = c.order.toList.length

theorem inStep_empty (capacity : Nat) : InStep { capacity } where
  nodup := List.nodup_nil
  mem_iff key := by simp [Queue.toList]
  size_eq := Std.HashMap.size_empty

/-- A width for a key that is held. -/
theorem InStep.renew (h : InStep c) (hk : key ∈ c.order.toList) (w : Length) :
    InStep { c with widths := c.widths.insert key w } where
  nodup := h.nodup
  mem_iff k := by
    rw [Std.HashMap.mem_insert, beq_iff_eq, ← h.mem_iff]
    exact ⟨.inr, fun hm => hm.elim (fun he => he ▸ hk) id⟩
  size_eq := by
    rw [Std.HashMap.size_insert, if_pos ((h.mem_iff key).mp hk)]
    exact h.size_eq

/-- A width for a key that is not held, before any other key goes. -/
theorem InStep.push (h : InStep c) (hk : key ∉ c.order.toList) (w : Length) :
    InStep { c with widths := c.widths.insert key w, order := c.order.push key } where
  nodup := by
    rw [Queue.toList_push, ← List.concat_eq_append]
    exact List.Nodup.concat hk h.nodup
  mem_iff k := by
    rw [Queue.toList_push, List.mem_append, List.mem_singleton, Std.HashMap.mem_insert, beq_iff_eq,
      h.mem_iff, eq_comm, or_comm]
  size_eq := by
    rw [Queue.toList_push, List.length_append, List.length_singleton, Std.HashMap.size_insert,
      if_neg (mt (h.mem_iff key).mpr hk), h.size_eq]

/-- If there is a key too many, the first one goes. -/
theorem InStep.exists_evict_eq (h : InStep c) (hc : c.capacity < c.widths.size) :
    ∃ oldest order, c.order.toList = oldest :: order.toList ∧
      c.evict = { c with widths := c.widths.erase oldest, order } := by
  cases hp : c.order.pop? with
  | none =>
    have hz := h.size_eq
    rw [(Queue.pop?_eq_none_iff _).mp hp, List.length_nil] at hz
    omega
  | some p =>
    refine ⟨p.1, p.2, Queue.toList_of_pop? hp, ?_⟩
    rw [evict, if_pos hc, hp]

theorem evict_of_size_le (h : c.widths.size ≤ c.capacity) : c.evict = c :=
  if_neg (Nat.not_lt.mpr h)

theorem capacity_evict (c : WidthCache) : c.evict.capacity = c.capacity := by
  unfold evict
  split
  · split <;> rfl
  · rfl

theorem InStep.evict (h : InStep c) : InStep c.evict := by
  by_cases hc : c.capacity < c.widths.size
  · obtain ⟨oldest, order, horder, he⟩ := h.exists_evict_eq hc
    have hnodup := h.nodup
    have hmem := h.mem_iff
    have hsize := h.size_eq
    rw [horder] at hnodup hmem hsize
    obtain ⟨hfirst, hrest⟩ := List.nodup_cons.mp hnodup
    rw [he]
    refine ⟨hrest, fun k => ?_, ?_⟩
    · rw [Std.HashMap.mem_erase, ← hmem, List.mem_cons, beq_eq_false_iff_ne]
      refine ⟨fun hk => ⟨fun e => hfirst (e ▸ hk), .inr hk⟩, ?_⟩
      rintro ⟨hne, rfl | hk⟩
      · exact absurd rfl hne
      · exact hk
    · rw [Std.HashMap.size_erase, if_pos ((hmem oldest).mp List.mem_cons_self), hsize,
        List.length_cons, Nat.add_sub_cancel]
  · rwa [evict_of_size_le (Nat.not_lt.mp hc)]

theorem InStep.toList_evict (h : InStep c) :
    c.evict.order.toList =
      if c.capacity < c.order.toList.length then c.order.toList.tail else c.order.toList := by
  rw [← h.size_eq]
  split
  · rename_i hc
    obtain ⟨oldest, order, horder, he⟩ := h.exists_evict_eq hc
    rw [he, horder, List.tail_cons]
  · rename_i hc
    rw [evict_of_size_le (Nat.not_lt.mp hc)]

/-- The keys that stay keep their widths. -/
theorem InStep.get?_evict (h : InStep c) (hk : key ∈ c.evict.order.toList) :
    c.evict.get? key = c.get? key := by
  by_cases hc : c.capacity < c.widths.size
  · obtain ⟨oldest, order, horder, he⟩ := h.exists_evict_eq hc
    have hnodup := h.nodup
    rw [horder] at hnodup
    rw [he] at hk ⊢
    have hne : oldest ≠ key := fun e => (List.nodup_cons.mp hnodup).1 (e ▸ hk)
    rw [get?, get?, Std.HashMap.getElem?_erase, if_neg (by rwa [beq_iff_eq])]
  · rw [evict_of_size_le (Nat.not_lt.mp hc)]

/-! ## One more width -/

/-- A key that is held keeps its place. A new one goes to the end, and if there is no room
    the first one goes. -/
theorem InStep.toList_insert (h : InStep c) (key : WidthKey) (w : Length) :
    (c.insert key w).order.toList =
      if key ∈ c.order.toList then c.order.toList
      else if c.order.toList.length < c.capacity then c.order.toList ++ [key]
      else (c.order.toList ++ [key]).tail := by
  by_cases hk : key ∈ c.order.toList
  · rw [insert, if_pos (Std.HashMap.contains_iff_mem.mpr ((h.mem_iff key).mp hk)), if_pos hk]
  · rw [insert, if_neg (mt Std.HashMap.contains_iff_mem.mp (mt (h.mem_iff key).mpr hk)),
      if_neg hk, (h.push hk w).toList_evict, Queue.toList_push, List.length_append,
      List.length_singleton]
    by_cases hroom : c.order.toList.length < c.capacity
    · rw [if_neg (by dsimp only; omega), if_pos hroom]
    · rw [if_pos (by dsimp only; omega), if_neg hroom]

theorem InStep.insert (h : InStep c) (key : WidthKey) (w : Length) : InStep (c.insert key w) := by
  by_cases hk : key ∈ c.order.toList
  · rw [WidthCache.insert, if_pos (Std.HashMap.contains_iff_mem.mpr ((h.mem_iff key).mp hk))]
    exact h.renew hk w
  · rw [WidthCache.insert,
      if_neg (mt Std.HashMap.contains_iff_mem.mp (mt (h.mem_iff key).mpr hk))]
    exact (h.push hk w).evict

/-- Of the keys that are held then, the new one has the width, and all others have theirs. -/
theorem InStep.get?_insert_of_mem (h : InStep c) {w : Length}
    (hk : k ∈ (c.insert key w).order.toList) :
    (c.insert key w).get? k = if key = k then some w else c.get? k := by
  have hvalue : (c.widths.insert key w)[k]? = if key = k then some w else c.get? k := by
    simp only [get?, Std.HashMap.getElem?_insert, beq_iff_eq]
  by_cases hkey : key ∈ c.order.toList
  · rw [WidthCache.insert, if_pos (Std.HashMap.contains_iff_mem.mpr ((h.mem_iff key).mp hkey))]
    exact hvalue
  · rw [WidthCache.insert,
      if_neg (mt Std.HashMap.contains_iff_mem.mp (mt (h.mem_iff key).mpr hkey))] at hk ⊢
    rw [(h.push hkey w).get?_evict hk]
    exact hvalue

theorem capacity_insert (c : WidthCache) (key : WidthKey) (w : Length) :
    (c.insert key w).capacity = c.capacity := by
  unfold insert
  split
  · rfl
  · exact capacity_evict _

/-! ## Insertions in turn -/

/-- Inserts widths one after the other. -/
def insertAll (c : WidthCache) (insertions : List (WidthKey × Length)) : WidthCache :=
  insertions.foldl (fun c e => c.insert e.1 e.2) c

/-- The keys admitted so far, and one more, unless it is among those admitted last. -/
def noteAdmission (capacity : Nat) (admitted : List WidthKey) (e : WidthKey × Length) :
    List WidthKey :=
  if e.1 ∈ admitted.rtake capacity then admitted else admitted ++ [e.1]

/-- The keys in the order of their admission, where there is room for `capacity` keys. A
    key that has gone can be admitted again. -/
def admissions (capacity : Nat) (insertions : List (WidthKey × Length)) : List WidthKey :=
  insertions.foldl (noteAdmission capacity) []

theorem insertAll_append_singleton (c : WidthCache) (insertions : List (WidthKey × Length))
    (e : WidthKey × Length) :
    c.insertAll (insertions ++ [e]) = (c.insertAll insertions).insert e.1 e.2 :=
  List.foldl_append

theorem admissions_append_singleton (capacity : Nat) (insertions : List (WidthKey × Length))
    (e : WidthKey × Length) :
    admissions capacity (insertions ++ [e]) =
      noteAdmission capacity (admissions capacity insertions) e :=
  List.foldl_append

/-- One more element goes to the end of the last ones, and if they are all there already
    the first one goes. -/
theorem rtake_append_singleton {α : Type} (n : Nat) (l : List α) (a : α) :
    (l ++ [a]).rtake n =
      if (l.rtake n).length < n then l.rtake n ++ [a] else (l.rtake n ++ [a]).tail := by
  simp only [List.rtake, List.length_append, List.length_drop, List.length_singleton]
  by_cases h : n ≤ l.length
  · have hs : l.length + 1 - n = l.length - n + 1 := by omega
    rw [if_neg (by omega), hs, ← List.tail_drop, List.drop_append_of_le_length (by omega)]
  · have hz : l.length + 1 - n = 0 := by omega
    have hz' : l.length - n = 0 := by omega
    rw [if_pos (by omega), hz, hz', List.drop_zero, List.drop_zero]

/-- What is held is what the insertions say: the keys admitted last, with the widths
    inserted last. -/
structure Holds (insertions : List (WidthKey × Length)) (c : WidthCache) : Prop
    extends InStep c where
  order_eq : c.order.toList = (admissions c.capacity insertions).rtake c.capacity
  get?_eq : ∀ key ∈ c.order.toList, c.get? key = (KeyedList.ofList insertions).get? key

variable {insertions : List (WidthKey × Length)}

theorem Holds.size_le (h : Holds insertions c) : c.widths.size ≤ c.capacity := by
  rw [h.size_eq, h.order_eq, List.rtake, List.length_drop]
  omega

theorem Holds.isSome_get?_iff (h : Holds insertions c) (key : WidthKey) :
    (c.get? key).isSome ↔ key ∈ c.order.toList := by
  rw [h.mem_iff, get?, Std.HashMap.mem_iff_isSome_getElem?]

/-- The queue goes on as the admissions do. -/
theorem Holds.order_insert_eq (h : Holds insertions c) (e : WidthKey × Length) :
    (c.insert e.1 e.2).order.toList =
      (admissions c.capacity (insertions ++ [e])).rtake c.capacity := by
  rw [h.toInStep.toList_insert, admissions_append_singleton, noteAdmission, h.order_eq]
  split
  · rfl
  · rw [rtake_append_singleton]

theorem Holds.insert (h : Holds insertions c) (e : WidthKey × Length) :
    Holds (insertions ++ [e]) (c.insert e.1 e.2) where
  toInStep := h.toInStep.insert e.1 e.2
  order_eq := by
    rw [capacity_insert]
    exact h.order_insert_eq e
  get?_eq k hk := by
    rw [h.toInStep.get?_insert_of_mem hk, KeyedList.ofList_append_singleton, KeyedList.get?_set]
    split
    · rfl
    · -- The key was held before, since it is not the one inserted now.
      rename_i hne
      refine h.get?_eq k ?_
      rw [h.toInStep.toList_insert] at hk
      have hpushed : k ∈ c.order.toList ++ [e.1] := by
        split at hk
        · exact List.mem_append_left _ hk
        · split at hk
          · exact hk
          · exact List.mem_of_mem_tail hk
      exact (List.mem_append.mp hpushed).resolve_right fun hs => hne (List.mem_singleton.mp hs).symm

theorem capacity_insertAll (c : WidthCache) (insertions : List (WidthKey × Length)) :
    (c.insertAll insertions).capacity = c.capacity := by
  induction insertions using List.reverseRecOn with
  | nil => rfl
  | append_singleton insertions e ih => rw [insertAll_append_singleton, capacity_insert, ih]

theorem holds_insertAll (capacity : Nat) (insertions : List (WidthKey × Length)) :
    Holds insertions (insertAll { capacity } insertions) := by
  induction insertions using List.reverseRecOn with
  | nil => exact ⟨inStep_empty capacity, by simp [insertAll, admissions, Queue.toList, List.rtake],
      by simp [insertAll, Queue.toList]⟩
  | append_singleton insertions e ih =>
    rw [insertAll_append_singleton]
    exact ih.insert e

/-- Whatever is inserted, the queue has every key that is held, once, and no other; there
    are no more of them than there is room for; they are the ones admitted last, and a key
    that is held has the width inserted for it last. A key that is inserted again keeps its
    place; a new one goes to the end, and if there is no room the first one goes. -/
theorem insertAll_holds (capacity : Nat) (insertions : List (WidthKey × Length)) :
    let c := insertAll { capacity } insertions
    c.order.toList.Nodup ∧ (∀ key, key ∈ c.order.toList ↔ (c.get? key).isSome) ∧
      c.widths.size = c.order.toList.length ∧ c.widths.size ≤ capacity ∧
      (∀ key w, c.get? key = some w ↔ key ∈ c.order.toList ∧
        ∃ before after, insertions = before ++ (key, w) :: after ∧ ∀ e ∈ after, e.1 ≠ key) ∧
      c.order.toList = (admissions capacity insertions).rtake capacity ∧
      ∀ key w, (c.insert key w).order.toList =
        if key ∈ c.order.toList then c.order.toList
        else if c.order.toList.length < capacity then c.order.toList ++ [key]
        else (c.order.toList ++ [key]).tail := by
  intro c
  have h : Holds insertions c := holds_insertAll capacity insertions
  have hc : c.capacity = capacity := capacity_insertAll _ insertions
  refine ⟨h.nodup, fun key => (h.isSome_get?_iff key).symm, h.size_eq, hc ▸ h.size_le,
    fun key w => ?_, hc ▸ h.order_eq, fun key w => ?_⟩
  · rw [← KeyedList.get?_ofList_eq_some_iff]
    constructor
    · intro hw
      have hmem := (h.isSome_get?_iff key).mp (Option.isSome_of_eq_some hw)
      exact ⟨hmem, h.get?_eq key hmem ▸ hw⟩
    · rintro ⟨hmem, hw⟩
      exact (h.get?_eq key hmem).trans hw
  · rw [h.toInStep.toList_insert, hc]

end WidthCache

end Typeface

end Lettering
