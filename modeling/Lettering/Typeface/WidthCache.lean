import Std.Data.HashMap
import Lettering.Length

/-!
# Width cache

Measured widths are remembered up to a number of entries; when there is one too
many, the entry admitted first is forgotten. Measuring a remembered text again
does not renew its place.
-/

namespace Lettering

namespace Typeface

/-- A sequence to which elements are added at the back and taken from the
    front. -/
structure Queue (α : Type) where
  /-- The first elements, in order. -/
  front : List α := []
  /-- The other elements, the last one first. -/
  back : List α := []
deriving Repr

namespace Queue

variable {α : Type}

/-- The elements in order. -/
def toList (q : Queue α) : List α := q.front ++ q.back.reverse

/-- The queue with an element added at the back. -/
def push (q : Queue α) (a : α) : Queue α := { q with back := a :: q.back }

/-- The first element and the queue without it. -/
def pop? (q : Queue α) : Option (α × Queue α) :=
  match q.front with
  | a :: front => some (a, { q with front })
  | [] =>
    match q.back.reverse with
    | a :: front => some (a, { front, back := [] })
    | [] => none

@[simp] theorem toList_push (q : Queue α) (a : α) : (q.push a).toList = q.toList ++ [a] := by
  simp [toList, push]

theorem pop?_eq_none_iff (q : Queue α) : q.pop? = none ↔ q.toList = [] := by
  obtain ⟨front, back⟩ := q
  cases front with
  | cons => simp [pop?, toList]
  | nil =>
    simp only [pop?, toList, List.nil_append]
    cases back.reverse <;> simp

theorem toList_of_pop? {q r : Queue α} {a : α} (h : q.pop? = some (a, r)) :
    q.toList = a :: r.toList := by
  obtain ⟨front, back⟩ := q
  cases front with
  | cons b front =>
    simp only [pop?, Option.some.injEq, Prod.mk.injEq] at h
    obtain ⟨rfl, rfl⟩ := h
    rfl
  | nil =>
    simp only [pop?] at h
    split at h
    · rename_i hb
      simp only [Option.some.injEq, Prod.mk.injEq] at h
      obtain ⟨rfl, rfl⟩ := h
      simp [toList, hb]
    · simp at h

end Queue

/-- What a measured width depends on: the face, the font size in thousandths, and
    the text. -/
structure WidthKey where
  face : Nat
  size : Int
  text : Text
deriving DecidableEq, Repr

instance : Hashable WidthKey where
  hash key := mixHash (mixHash (hash key.face) (hash key.size)) (hash (key.text.map Char.toNat))

/-- Remembered widths. -/
structure WidthCache where
  /-- The number of entries that are remembered. -/
  capacity : Nat
  /-- The widths. -/
  widths : Std.HashMap WidthKey Length := ∅
  /-- The keys in the order of their admission. -/
  order : Queue WidthKey := {}

namespace WidthCache

/-- The remembered width of a key. -/
def get? (c : WidthCache) (key : WidthKey) : Option Length := c.widths[key]?

/-- Forgets the entry admitted first, if there is one too many. -/
def evict (c : WidthCache) : WidthCache :=
  if c.capacity < c.widths.size then
    match c.order.pop? with
    | some (oldest, order) => { c with widths := c.widths.erase oldest, order }
    | none => c
  else c

/-- Remembers a width. A key that is remembered already keeps its place. -/
def insert (c : WidthCache) (key : WidthKey) (width : Length) : WidthCache :=
  if c.widths.contains key then { c with widths := c.widths.insert key width }
  else evict { c with widths := c.widths.insert key width, order := c.order.push key }

end WidthCache

end Typeface

end Lettering
