/-!
# Keyed lists

A finite map that remembers the order in which its keys came: assigning to a
key it already has replaces the value in place, a new key goes to the end.

* `KeyedList.get?_set`: reading after an assignment.
* `KeyedList.keys_set`: an assignment adds at most its own key, at the end.
-/

namespace Lettering

/-- Entries with pairwise different keys, in the order in which the keys came. -/
structure KeyedList (κ ν : Type) where
  /-- The entries in order. -/
  entries : List (κ × ν)
  nodup_keys : (entries.map Prod.fst).Nodup

namespace KeyedList

variable {κ ν : Type}

/-- The keys in order. -/
def keys (m : KeyedList κ ν) : List κ := m.entries.map Prod.fst

theorem keys_nodup (m : KeyedList κ ν) : m.keys.Nodup := m.nodup_keys

theorem ext_entries {m n : KeyedList κ ν} (h : m.entries = n.entries) : m = n := by
  cases m; cases n; cases h; rfl

instance [DecidableEq κ] [DecidableEq ν] : DecidableEq (KeyedList κ ν) := fun m n =>
  decidable_of_iff (m.entries = n.entries) ⟨ext_entries, fun h => h ▸ rfl⟩

instance [Repr κ] [Repr ν] : Repr (KeyedList κ ν) := ⟨fun m n => reprPrec m.entries n⟩

/-- The map without entries. -/
def empty : KeyedList κ ν := ⟨[], List.nodup_nil⟩

instance : EmptyCollection (KeyedList κ ν) := ⟨empty⟩

instance : Inhabited (KeyedList κ ν) := ⟨empty⟩

/-- The number of entries. -/
def size (m : KeyedList κ ν) : Nat := m.entries.length

/-- Whether there are no entries. -/
def isEmpty (m : KeyedList κ ν) : Bool := m.entries.isEmpty

/-- The entries whose key satisfies `p`, in order. -/
def filterKeys (p : κ → Bool) (m : KeyedList κ ν) : KeyedList κ ν where
  entries := m.entries.filter fun e => p e.1
  nodup_keys := m.nodup_keys.sublist (List.filter_sublist.map _)

variable [DecidableEq κ]

/-- The value of the first entry with key `k`. -/
def lookup (k : κ) : List (κ × ν) → Option ν
  | [] => none
  | (k', v) :: r => if k' = k then some v else lookup k r

/-- The entries with the value at `k` replaced in place, or a new entry at the
    end. -/
def assign (k : κ) (v : ν) : List (κ × ν) → List (κ × ν)
  | [] => [(k, v)]
  | (k', v') :: r => if k' = k then (k, v) :: r else (k', v') :: assign k v r

theorem map_fst_assign (k : κ) (v : ν) (l : List (κ × ν)) :
    (assign k v l).map Prod.fst =
      if k ∈ l.map Prod.fst then l.map Prod.fst else l.map Prod.fst ++ [k] := by
  induction l with
  | nil => rfl
  | cons e r ih =>
    obtain ⟨k', v'⟩ := e
    by_cases h : k' = k
    · simp [assign, h]
    · have h' : k ≠ k' := fun e => h e.symm
      simp only [assign, h, if_false, List.map_cons, ih, List.mem_cons, h', false_or]
      split <;> rfl

/-- The map with `v` at `k`. -/
def set (m : KeyedList κ ν) (k : κ) (v : ν) : KeyedList κ ν where
  entries := assign k v m.entries
  nodup_keys := by
    rw [map_fst_assign]
    have h := m.nodup_keys
    split
    · exact h
    · rename_i hk
      rw [List.nodup_append]
      refine ⟨h, by simp, ?_⟩
      intro a ha b hb
      rw [List.mem_singleton] at hb
      subst hb
      exact fun e => hk (e ▸ ha)

/-- The value at `k`. -/
def get? (m : KeyedList κ ν) (k : κ) : Option ν := lookup k m.entries

/-- The map with `v` at `k`, unless it has a value there already. -/
def setNew (m : KeyedList κ ν) (k : κ) (v : ν) : KeyedList κ ν :=
  if (m.get? k).isSome then m else m.set k v

/-- The entries assigned one after the other to `m`. -/
def setAll (m : KeyedList κ ν) (l : List (κ × ν)) : KeyedList κ ν :=
  l.foldl (fun m e => m.set e.1 e.2) m

/-- The map of the given entries: later values win, earlier places. -/
def ofList (l : List (κ × ν)) : KeyedList κ ν := (empty : KeyedList κ ν).setAll l

/-- The entries of `n` assigned in order to `m`. -/
def overlay (m n : KeyedList κ ν) : KeyedList κ ν := m.setAll n.entries

theorem keys_set (m : KeyedList κ ν) (k : κ) (v : ν) :
    (m.set k v).keys = if k ∈ m.keys then m.keys else m.keys ++ [k] :=
  map_fst_assign k v m.entries

theorem lookup_assign (k j : κ) (v : ν) (l : List (κ × ν)) :
    lookup j (assign k v l) = if k = j then some v else lookup j l := by
  induction l with
  | nil => rfl
  | cons e r ih =>
    obtain ⟨k', v'⟩ := e
    by_cases h : k' = k
    · subst h
      by_cases hj : k' = j <;> simp [assign, lookup, hj]
    · by_cases hj : k' = j
      · subst hj
        have hkj : ¬k = k' := fun e => h e.symm
        simp [assign, lookup, h, hkj]
      · simp [assign, lookup, h, hj, ih]

/-- The value just assigned is read back, and no other value changes. -/
theorem get?_set (m : KeyedList κ ν) (k j : κ) (v : ν) :
    (m.set k v).get? j = if k = j then some v else m.get? j :=
  lookup_assign k j v m.entries

@[simp] theorem get?_empty (k : κ) : (empty : KeyedList κ ν).get? k = none := rfl

end KeyedList

end Lettering
