import Lettering.Text.Basic

/-!
# Bytes of a text

A text in memory is the sequence of the bytes that encode its characters, one to
four of them for each, and a place in it is a number of bytes. Not every number
is a place between two characters: to cut a text at a byte may fail.

* `cutAt?_eq_some_iff`: a text is cut at a byte if a beginning of it has that
  many bytes.
* `slice?_eq_some_iff`: what is sliced out lies in the text, between two places
  in order.
-/

namespace Lettering

namespace Text

/-- The number of bytes of a text. -/
def bytes : Text → Nat
  | [] => 0
  | c :: t => c.utf8Size + bytes t

/-- The text before a byte and the text from it on; nothing if the byte is beyond
    the end, or inside a character. -/
def cutAt? : Text → Nat → Option (Text × Text)
  | t, 0 => some ([], t)
  | [], _ + 1 => none
  | c :: t, n + 1 =>
    if c.utf8Size ≤ n + 1 then
      (cutAt? t (n + 1 - c.utf8Size)).map fun cut => (c :: cut.1, cut.2)
    else none

/-- The text between two bytes; nothing if they are out of order, beyond the end,
    or inside a character. -/
def slice? (t : Text) (first last : Nat) : Option Text :=
  if first ≤ last then
    (cutAt? t first).bind fun cut => (cutAt? cut.2 (last - first)).map Prod.fst
  else none

/-- The byte at which the first character of a class starts. -/
def offset? (p : Char → Bool) : Text → Option Nat
  | [] => none
  | c :: t => if p c then some 0 else (offset? p t).map (c.utf8Size + ·)

/-- A byte lies between two characters of the text, or at an end. -/
def IsPlace (t : Text) (n : Nat) : Prop := ∃ p r, t = p ++ r ∧ p.bytes = n

variable {t u p r : Text} {m n : Nat}

@[simp] theorem bytes_nil : bytes [] = 0 := rfl

@[simp] theorem bytes_cons (c : Char) (t : Text) : bytes (c :: t) = c.utf8Size + bytes t := rfl

@[simp] theorem bytes_append (t u : Text) : bytes (t ++ u) = bytes t + bytes u := by
  induction t with
  | nil => rw [List.nil_append, bytes_nil, Nat.zero_add]
  | cons c t ih => rw [List.cons_append, bytes_cons, bytes_cons, ih, Nat.add_assoc]

theorem bytes_eq_zero_iff : t.bytes = 0 ↔ t = [] := by
  cases t with
  | nil => simp
  | cons c t =>
    have := c.utf8Size_pos
    simp only [bytes_cons, reduceCtorEq, iff_false]
    omega

theorem bytes_pos (h : t ≠ []) : 0 < t.bytes := Nat.pos_of_ne_zero (mt bytes_eq_zero_iff.mp h)

/-- There are bytes behind a beginning only if it is not the whole. -/
theorem bytes_lt_append_iff : p.bytes < (p ++ r).bytes ↔ r ≠ [] := by
  rw [bytes_append, Nat.lt_add_right_iff_pos]
  refine ⟨?_, bytes_pos⟩
  rintro h rfl
  exact Nat.lt_irrefl 0 h

theorem bytes_eq_append_iff : p.bytes = (p ++ r).bytes ↔ r = [] := by
  rw [bytes_append, ← bytes_eq_zero_iff]
  omega

/-! ## Cutting and slicing -/

theorem cutAt?_append (p r : Text) : cutAt? (p ++ r) p.bytes = some (p, r) := by
  induction p with
  | nil => simp [cutAt?]
  | cons c p ih =>
    obtain ⟨n, hn⟩ := Nat.exists_eq_add_of_lt (bytes_pos (List.cons_ne_nil c p))
    rw [Nat.zero_add] at hn
    rw [hn, List.cons_append, cutAt?]
    rw [bytes_cons] at hn
    rw [if_pos (by omega), show n + 1 - c.utf8Size = bytes p by omega, ih]
    rfl

/-- A text is cut at a byte if a beginning of it has that many bytes. -/
theorem cutAt?_eq_some_iff : cutAt? t n = some (p, r) ↔ t = p ++ r ∧ p.bytes = n := by
  refine ⟨fun h => ?_, ?_⟩
  · fun_induction cutAt? t n generalizing p with
    | case1 t =>
      cases h
      exact ⟨rfl, rfl⟩
    | case2 n => cases h
    | case3 c t n hc ih =>
      obtain ⟨⟨p', r'⟩, hcut, h⟩ := Option.map_eq_some_iff.mp h
      cases h
      obtain ⟨rfl, hn⟩ := ih hcut
      refine ⟨rfl, ?_⟩
      rw [bytes_cons, hn]
      omega
    | case4 c t n hc => cases h
  · rintro ⟨rfl, rfl⟩
    exact cutAt?_append p r

/-- A text is cut at a byte in one way. -/
theorem append_inj_of_bytes {p' r' : Text} (h : p ++ r = p' ++ r') (hb : p.bytes = p'.bytes) :
    p = p' ∧ r = r' := by
  have hcut := cutAt?_append p r
  rw [h, hb, cutAt?_append, Option.some.injEq, Prod.mk.injEq] at hcut
  exact ⟨hcut.1.symm, hcut.2.symm⟩

/-- What is sliced out lies in the text, between two places in order. -/
theorem slice?_eq_some_iff :
    slice? t m n = some u ↔ ∃ p r, t = p ++ (u ++ r) ∧ p.bytes = m ∧ (p ++ u).bytes = n := by
  unfold slice?
  constructor
  · intro h
    split at h
    · rename_i hmn
      obtain ⟨⟨p, q⟩, hp, h⟩ := Option.bind_eq_some_iff.mp h
      obtain ⟨⟨u, r⟩, hu, rfl⟩ := Option.map_eq_some_iff.mp h
      obtain ⟨rfl, rfl⟩ := cutAt?_eq_some_iff.mp hp
      obtain ⟨rfl, hu'⟩ := cutAt?_eq_some_iff.mp hu
      refine ⟨p, r, rfl, rfl, ?_⟩
      rw [bytes_append, hu']
      omega
    · cases h
  · rintro ⟨p, r, rfl, rfl, rfl⟩
    rw [bytes_append, if_pos (Nat.le_add_right _ _), cutAt?_append, Nat.add_sub_cancel_left]
    simp [cutAt?_append]

/-- What lies between two places in order is sliced out. -/
theorem slice?_append (p u r : Text) : slice? (p ++ (u ++ r)) p.bytes (p ++ u).bytes = some u :=
  slice?_eq_some_iff.mpr ⟨p, r, rfl, rfl, rfl⟩

/-- The first character of a class starts where the characters outside the class
    end, or else the text ends there. -/
theorem offset?_eq (q : Char → Bool) (t : Text) :
    (offset? q t).getD t.bytes = bytes (t.takeWhile (!q ·)) := by
  induction t with
  | nil => rfl
  | cons c t ih =>
    rw [offset?]
    by_cases hc : q c
    · simp [hc]
    · rw [if_neg hc, List.takeWhile_cons, if_pos (by simp [hc]), bytes_cons, bytes_cons, ← ih]
      cases offset? q t <;> rfl

theorem offset?_eq_none {q : Char → Bool} (h : ∀ c ∈ t, q c = false) : offset? q t = none := by
  induction t with
  | nil => rfl
  | cons c t ih =>
    obtain ⟨hc, ht⟩ := List.forall_mem_cons.mp h
    simp [offset?, hc, ih ht]

theorem offset?_append_cons {q : Char → Bool} {d : Char} (h : ∀ c ∈ p, q c = false) (hd : q d)
    (r : Text) : offset? q (p ++ d :: r) = some p.bytes := by
  induction p with
  | nil => simp [offset?, hd]
  | cons c p ih =>
    obtain ⟨hc, hp⟩ := List.forall_mem_cons.mp h
    simp [offset?, hc, ih hp]

/-- Found behind `p`, its byte is counted from the start of `p`. -/
theorem offset?_behind (q : Char → Bool) (p t : Text) :
    ((offset? q t).map (p.bytes + ·)).getD (p ++ t).bytes = (p ++ t.takeWhile (!q ·)).bytes := by
  rw [bytes_append, bytes_append, ← offset?_eq]
  cases offset? q t <;> rfl

/-! ## Places -/

theorem IsPlace.zero (t : Text) : IsPlace t 0 := ⟨[], t, rfl, rfl⟩

theorem IsPlace.le (h : IsPlace t n) : n ≤ t.bytes := by
  obtain ⟨p, r, rfl, rfl⟩ := h
  rw [bytes_append]
  exact Nat.le_add_right _ _

/-- Two places in order have a text between them. -/
theorem IsPlace.exists_between (hm : IsPlace t m) (hn : IsPlace t n) (h : m ≤ n) :
    ∃ p u r, t = p ++ (u ++ r) ∧ p.bytes = m ∧ (p ++ u).bytes = n := by
  obtain ⟨p, r, rfl, rfl⟩ := hm
  obtain ⟨q, s, he, rfl⟩ := hn
  rcases List.append_eq_append_iff.mp he with ⟨u, rfl, rfl⟩ | ⟨u, rfl, rfl⟩
  · exact ⟨p, u, s, rfl, rfl, rfl⟩
  · -- The second place is not behind the first, so nothing lies between them.
    obtain rfl : u = [] := bytes_eq_zero_iff.mp (by rw [bytes_append] at h; omega)
    exact ⟨q, [], r, by simp, by simp, by simp⟩

end Text

end Lettering
