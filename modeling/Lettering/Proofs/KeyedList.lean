import Lettering.KeyedList
import Mathlib.Data.List.Induction

/-!
# Keys and values

What becomes of a keyed list under the ways in which entries come to it.

* Of entries assigned in turn the first one to a key decides where the key stands
  (`keys_ofList`), the last one decides its value (`get?_ofList_eq_some_iff`).
* Of entries for new keys only, the first one to a key decides its value
  (`get?_foldl_setNew`).
* Assignments and the part with certain keys: `filterKeys_overlay`.
* The values do not depend on the order of the entries: `get?_eq_of_perm`.
-/

namespace Lettering

namespace KeyedList

variable {κ ν : Type} [DecidableEq κ]

/-! ## Entries in turn -/

theorem setAll_append (m : KeyedList κ ν) (l l' : List (κ × ν)) :
    m.setAll (l ++ l') = (m.setAll l).setAll l' := List.foldl_append

theorem ofList_append_singleton (l : List (κ × ν)) (e : κ × ν) :
    ofList (l ++ [e]) = (ofList l).set e.1 e.2 := setAll_append _ l [e]

theorem eraseDups_append_singleton (l : List κ) (k : κ) :
    (l ++ [k]).eraseDups = if k ∈ l then l.eraseDups else l.eraseDups ++ [k] := by
  rw [List.eraseDups_append]
  by_cases hk : k ∈ l <;> simp [List.removeAll, List.eraseDups_cons, hk]

/-- The keys stand in the order in which they are first assigned to. -/
theorem keys_ofList (l : List (κ × ν)) : (ofList l).keys = (l.map Prod.fst).eraseDups := by
  induction l using List.reverseRecOn with
  | nil => rfl
  | append_singleton l e ih =>
    rw [ofList_append_singleton, keys_set, ih, List.map_append, List.map_singleton,
      eraseDups_append_singleton]
    simp only [List.mem_eraseDups]

/-- A value is the one that was last assigned to its key. -/
theorem get?_ofList_eq_some_iff {l : List (κ × ν)} {k : κ} {v : ν} :
    (ofList l).get? k = some v ↔
      ∃ before after, l = before ++ (k, v) :: after ∧ ∀ e ∈ after, e.1 ≠ k := by
  induction l using List.reverseRecOn with
  | nil => simp [ofList, setAll]
  | append_singleton l e ih =>
    rw [ofList_append_singleton, get?_set]
    constructor
    · intro h
      split at h
      · rename_i hk
        obtain rfl : e = (k, v) := Prod.ext hk (Option.some.inj h)
        exact ⟨l, [], rfl, List.forall_mem_nil _⟩
      · rename_i hk
        obtain ⟨before, after, rfl, hafter⟩ := ih.mp h
        refine ⟨before, after ++ [e], by rw [List.append_assoc, List.cons_append], ?_⟩
        exact List.forall_mem_append.mpr ⟨hafter, List.forall_mem_singleton.mpr hk⟩
    · rintro ⟨before, after, he, hafter⟩
      rcases List.eq_nil_or_concat after with rfl | ⟨after, last, rfl⟩
      · obtain ⟨-, rfl⟩ := List.append_singleton_inj.mp he
        exact if_pos rfl
      · rw [List.concat_eq_append] at he hafter
        rw [← List.cons_append, ← List.append_assoc] at he
        obtain ⟨rfl, rfl⟩ := List.append_singleton_inj.mp he
        rw [List.forall_mem_append, List.forall_mem_singleton] at hafter
        rw [if_neg hafter.2, ih]
        exact ⟨before, after, rfl, hafter.1⟩

/-- Of entries that have one value for a key any one will do. -/
theorem get?_ofList_eq_some_iff_mem {l : List (κ × ν)} {f : κ → ν} (h : ∀ e ∈ l, e.2 = f e.1)
    {k : κ} {v : ν} : (ofList l).get? k = some v ↔ (k, v) ∈ l := by
  induction l using List.reverseRecOn with
  | nil => simp [ofList, setAll]
  | append_singleton l e ih =>
    rw [List.forall_mem_append, List.forall_mem_singleton] at h
    rw [ofList_append_singleton, get?_set, List.mem_append, List.mem_singleton]
    split
    · rename_i hk
      refine ⟨fun he => .inr (Prod.ext hk.symm (Option.some.inj he).symm), ?_⟩
      rintro (hm | rfl)
      · exact congrArg some (h.2.trans (hk ▸ (h.1 _ hm).symm))
      · rfl
    · rename_i hk
      rw [ih h.1]
      exact ⟨.inl, fun hm => hm.resolve_right fun he => hk (he ▸ rfl)⟩

theorem assign_of_not_mem {k : κ} {l : List (κ × ν)} (h : k ∉ l.map Prod.fst) (v : ν) :
    assign k v l = l ++ [(k, v)] := by
  induction l with
  | nil => rfl
  | cons e l ih =>
    rw [List.map_cons, List.mem_cons, not_or] at h
    rw [assign, if_neg (Ne.symm h.1), ih h.2]
    rfl

/-- Entries with different keys are kept as they are. -/
theorem entries_ofList {l : List (κ × ν)} (h : (l.map Prod.fst).Nodup) :
    (ofList l).entries = l := by
  induction l using List.reverseRecOn with
  | nil => rfl
  | append_singleton l e ih =>
    rw [List.map_append, List.nodup_append] at h
    have hk : e.1 ∉ l.map Prod.fst := fun hm => h.2.2 _ hm e.1 (by simp) rfl
    rw [ofList_append_singleton]
    show assign e.1 e.2 (ofList l).entries = _
    rw [ih h.1, assign_of_not_mem hk]

theorem ofList_entries (m : KeyedList κ ν) : ofList m.entries = m :=
  ext_entries (entries_ofList m.nodup_keys)

/-- The values assigned win over those there were. -/
theorem get?_setAll (m : KeyedList κ ν) (l : List (κ × ν)) (k : κ) :
    (m.setAll l).get? k = ((ofList l).get? k).or (m.get? k) := by
  induction l using List.reverseRecOn with
  | nil => rfl
  | append_singleton l e ih =>
    rw [ofList_append_singleton, setAll_append]
    show ((m.setAll l).set e.1 e.2).get? k = _
    rw [get?_set, get?_set, ih]
    split <;> rfl

theorem get?_overlay (m n : KeyedList κ ν) (k : κ) :
    (m.overlay n).get? k = (n.get? k).or (m.get? k) := by
  rw [overlay, get?_setAll, ofList_entries]

/-- Assigning to keys that are there leaves all keys in their places. -/
theorem keys_setAll_of_mem {m : KeyedList κ ν} {l : List (κ × ν)}
    (h : ∀ e ∈ l, e.1 ∈ m.keys) : (m.setAll l).keys = m.keys := by
  induction l using List.reverseRecOn with
  | nil => rfl
  | append_singleton l e ih =>
    rw [List.forall_mem_append, List.forall_mem_singleton] at h
    rw [setAll_append]
    show ((m.setAll l).set e.1 e.2).keys = _
    rw [keys_set, ih h.1, if_pos h.2]

/-! ## New keys only -/

/-- A new key is assigned, and others stay as they are. -/
theorem get?_setNew (m : KeyedList κ ν) (k j : κ) (v : ν) :
    (m.setNew k v).get? j = (m.get? j).or (if k = j then some v else none) := by
  unfold setNew
  by_cases hkj : k = j
  · subst hkj
    cases hk : m.get? k <;> simp [hk, get?_set]
  · rw [if_neg hkj, Option.or_none]
    split
    · rfl
    · rw [get?_set, if_neg hkj]

/-- Of keys that are all new one is assigned at most once. -/
theorem get?_foldl_setNew (m : KeyedList κ ν) (keys : List κ) (v : ν) (k : κ) :
    (keys.foldl (fun m key => m.setNew key v) m).get? k =
      (m.get? k).or (if k ∈ keys then some v else none) := by
  induction keys generalizing m with
  | nil => simp
  | cons key keys ih =>
    rw [List.foldl_cons, ih, get?_setNew, Option.or_assoc]
    by_cases hkey : key = k
    · simp [hkey]
    · simp [hkey, Ne.symm hkey]

/-! ## Parts -/

section filterKeys

variable (p : κ → Bool)

theorem filter_assign (k : κ) (v : ν) (l : List (κ × ν)) :
    (assign k v l).filter (fun e => p e.1) =
      if p k then assign k v (l.filter fun e => p e.1) else l.filter fun e => p e.1 := by
  induction l with
  | nil => by_cases hk : p k <;> simp [assign, hk]
  | cons e l ih =>
    obtain ⟨k', v'⟩ := e
    by_cases he : k' = k
    · subst he
      by_cases hk : p k' <;> simp [assign, hk]
    · by_cases hk : p k <;> by_cases hk' : p k' <;> simp [assign, he, hk, hk', ih]

/-- An assignment is made in the part its key belongs to. -/
theorem filterKeys_set (m : KeyedList κ ν) (k : κ) (v : ν) :
    (m.set k v).filterKeys p = if p k then (m.filterKeys p).set k v else m.filterKeys p := by
  apply ext_entries
  have h := filter_assign p k v m.entries
  split at h
  · rename_i hk
    rw [if_pos hk]
    exact h
  · rename_i hk
    rw [if_neg hk]
    exact h

theorem filterKeys_setAll (m : KeyedList κ ν) (l : List (κ × ν)) :
    (m.setAll l).filterKeys p = (m.filterKeys p).setAll (l.filter fun e => p e.1) := by
  induction l generalizing m with
  | nil => rfl
  | cons e l ih =>
    have hstep : (m.setAll (e :: l)).filterKeys p = ((m.set e.1 e.2).setAll l).filterKeys p := rfl
    rw [hstep, ih, filterKeys_set, List.filter_cons]
    by_cases he : p e.1
    · rw [if_pos he, if_pos he]
      rfl
    · rw [if_neg he, if_neg he]

/-- Parts are laid over each other by themselves. -/
theorem filterKeys_overlay (m n : KeyedList κ ν) :
    (m.overlay n).filterKeys p = (m.filterKeys p).overlay (n.filterKeys p) :=
  filterKeys_setAll p m n.entries

/-- A part has the values of its keys. -/
theorem get?_filterKeys (m : KeyedList κ ν) {k : κ} (hk : p k) :
    (m.filterKeys p).get? k = m.get? k := by
  change lookup k (m.entries.filter fun e => p e.1) = lookup k m.entries
  induction m.entries with
  | nil => rfl
  | cons e l ih =>
    obtain ⟨k', v⟩ := e
    by_cases he : k' = k
    · subst he
      rw [List.filter_cons_of_pos (by exact hk)]
      simp [lookup]
    · by_cases hk' : p k'
      · rw [List.filter_cons_of_pos (by exact hk')]
        simp [lookup, he, ih]
      · rw [List.filter_cons_of_neg (by exact hk')]
        simp [lookup, he, ih]

end filterKeys

/-! ## Entries in any order -/

/-- The values are those of the entries. -/
theorem get?_eq_some_iff_mem (m : KeyedList κ ν) {k : κ} {v : ν} :
    m.get? k = some v ↔ (k, v) ∈ m.entries := by
  have hlast := get?_ofList_eq_some_iff (l := m.entries) (k := k) (v := v)
  rw [ofList_entries] at hlast
  rw [hlast]
  constructor
  · rintro ⟨before, after, he, -⟩
    exact he ▸ List.mem_append_right before List.mem_cons_self
  · intro hm
    obtain ⟨before, after, he⟩ := List.append_of_mem hm
    refine ⟨before, after, he, fun e hmem hk => ?_⟩
    have hnodup := m.nodup_keys
    rw [he, List.map_append, List.map_cons, List.nodup_append, List.nodup_cons] at hnodup
    exact hnodup.2.1.1 (List.mem_map.mpr ⟨e, hmem, hk⟩)

theorem get?_eq_none_of_not_mem {m : KeyedList κ ν} {k : κ} (h : k ∉ m.keys) : m.get? k = none :=
  Option.eq_none_iff_forall_ne_some.mpr fun _ hv =>
    h (List.mem_map_of_mem ((get?_eq_some_iff_mem m).mp hv))

/-- The order of the entries does not matter for the values. -/
theorem get?_eq_of_perm {m n : KeyedList κ ν} (h : m.entries.Perm n.entries) (k : κ) :
    m.get? k = n.get? k :=
  Option.ext fun v => by rw [get?_eq_some_iff_mem, get?_eq_some_iff_mem, h.mem_iff]

theorem mem_keys_set (m : KeyedList κ ν) (k : κ) (v : ν) : k ∈ (m.set k v).keys := by
  rw [keys_set]
  split
  · assumption
  · exact List.mem_append_right _ (List.mem_singleton.mpr rfl)

end KeyedList

end Lettering
