import Lettering.Text.Basic
import Mathlib.Algebra.Field.Rat
import Mathlib.Algebra.GroupWithZero.Basic

/-!
# JSON

What a text in JSON says is read off it from left to right: a value starts the
text, and the rest of the text is left (`Reads`). The grammar allows blanks around
every token, any escape in a string, and a fraction and an exponent in a number.
A text says one thing at most.

* `Reads.unique`: no text can be read in two ways.
* `Writes`: a text that is read as a value wherever it stands.
-/

namespace Lettering

namespace Json

/-- What a text in JSON says. -/
inductive Value
  | null
  | bool (b : Bool)
  | number (q : ℚ)
  | string (t : Text)
  | array (elements : List Value)
  | object (members : List (Text × Value))

/-! ## Strings -/

/-- The value of a hexadecimal digit. -/
def hexDigit? (c : Char) : Option Nat :=
  if c.isDigit then some (c.toNat - '0'.toNat)
  else if 'a' ≤ c ∧ c ≤ 'f' then some (c.toNat - 'a'.toNat + 10)
  else if 'A' ≤ c ∧ c ≤ 'F' then some (c.toNat - 'A'.toNat + 10)
  else none

/-- The number in the first four characters, hexadecimal digits, and the rest. -/
def unit? : Text → Option (Nat × Text)
  | a :: b :: c :: d :: r => do
    let a ← hexDigit? a
    let b ← hexDigit? b
    let c ← hexDigit? c
    let d ← hexDigit? d
    return (((a * 16 + b) * 16 + c) * 16 + d, r)
  | _ => none

/-- The character whose code starts the text, as one unit or as a pair of
    surrogates, and the rest. -/
def coded? (t : Text) : Option (Char × Text) := do
  let (n, r) ← unit? t
  if n < 0xD800 ∨ 0xE000 ≤ n then return (Char.ofNat n, r)
  else if n < 0xDC00 then
    match r with
    | '\\' :: 'u' :: r => do
      let (m, r) ← unit? r
      if 0xDC00 ≤ m ∧ m < 0xE000 then
        return (Char.ofNat (0x10000 + (n - 0xD800) * 0x400 + (m - 0xDC00)), r)
      else none
    | _ => none
  else none

/-- The character that a backslash and what follows it stand for, and the rest. -/
def escaped? : Text → Option (Char × Text)
  | '"' :: r => some ('"', r)
  | '\\' :: r => some ('\\', r)
  | '/' :: r => some ('/', r)
  | 'b' :: r => some ('\x08', r)
  | 'f' :: r => some ('\x0C', r)
  | 'n' :: r => some ('\n', r)
  | 'r' :: r => some ('\r', r)
  | 't' :: r => some ('\t', r)
  | 'u' :: r => coded? r
  | _ => none

/-- The characters of a string up to the closing quotation mark: the text starts
    with the written form of the second text, and the third one is left. -/
inductive Chars : Text → Text → Text → Prop
  | close (r : Text) : Chars ('"' :: r) [] r
  | plain {c : Char} {t s r : Text} : c ≠ '"' → c ≠ '\\' → 0x20 ≤ c.toNat → Chars t s r →
      Chars (c :: t) (c :: s) r
  | escape {c : Char} {t u s r : Text} : escaped? t = some (c, u) → Chars u s r →
      Chars ('\\' :: t) (c :: s) r

/-! ## Numbers -/

/-- The number in decimal digits, at least one of them. -/
def natural? (ds : Text) : Option Nat :=
  if ds ≠ [] ∧ ds.all Char.isDigit then some (Nat.ofDigitChars 10 ds 0) else none

/-- The exponent that ends a number; it may be missing. -/
def exponent? : Text → Option ℤ
  | [] => some 0
  | c :: r =>
    if c = 'e' ∨ c = 'E' then
      match r with
      | '-' :: ds => (natural? ds).map fun n => -(n : ℤ)
      | '+' :: ds => (natural? ds).map fun n => (n : ℤ)
      | ds => (natural? ds).map fun n => (n : ℤ)
    else none

/-- The part of a number behind its whole part: a fraction, if there is one, and an
    exponent. -/
def scaled? (whole : Nat) : Text → Option ℚ
  | '.' :: r => do
    let ds := r.takeWhile Char.isDigit
    let n ← natural? ds
    let e ← exponent? (r.dropWhile Char.isDigit)
    return (whole + n / 10 ^ ds.length) * 10 ^ e
  | t => (exponent? t).map fun e => whole * 10 ^ e

/-- A number without its sign. No zeros stand at its start, but for a single one. -/
def magnitude? (t : Text) : Option ℚ := do
  let ds := t.takeWhile Char.isDigit
  let whole ← natural? ds
  if ds.head? = some '0' ∧ ds.length ≠ 1 then none
  else scaled? whole (t.dropWhile Char.isDigit)

/-- A number. -/
def number? : Text → Option ℚ
  | '-' :: t => (magnitude? t).map (- ·)
  | t => magnitude? t

/-- The characters of numbers. -/
def isNumberChar (c : Char) : Bool :=
  c.isDigit || c == '-' || c == '+' || c == '.' || c == 'e' || c == 'E'

/-! ## Values -/

/-- Blanks, which may stand between tokens. -/
def isBlank (c : Char) : Bool := c == ' ' || c == '\t' || c == '\n' || c == '\r'

/-- The text without the blanks at its start. -/
def skipBlanks (t : Text) : Text := t.dropWhile isBlank

/-- What is read: a value, the elements of an array up to its end, or the members of
    an object up to its end. -/
inductive Part
  | value (v : Value)
  | elements (vs : List Value)
  | members (ms : List (Text × Value))

/-- The first text starts with the written form of a part, and the second one is
    left. -/
inductive Reads : Part → Text → Text → Prop
  | null (r : Text) : Reads (.value .null) ('n' :: 'u' :: 'l' :: 'l' :: r) r
  | true (r : Text) : Reads (.value (.bool .true)) ('t' :: 'r' :: 'u' :: 'e' :: r) r
  | false (r : Text) : Reads (.value (.bool .false)) ('f' :: 'a' :: 'l' :: 's' :: 'e' :: r) r
  | number {t : Text} {q : ℚ} : number? (t.takeWhile isNumberChar) = some q →
      Reads (.value (.number q)) t (t.dropWhile isNumberChar)
  | string {t s r : Text} : Chars t s r → Reads (.value (.string s)) ('"' :: t) r
  | emptyArray {t r : Text} : skipBlanks t = ']' :: r → Reads (.value (.array [])) ('[' :: t) r
  | array {t r : Text} {vs : List Value} : Reads (.elements vs) (skipBlanks t) r →
      Reads (.value (.array vs)) ('[' :: t) r
  | emptyObject {t r : Text} : skipBlanks t = '}' :: r → Reads (.value (.object [])) ('{' :: t) r
  | object {t r : Text} {ms : List (Text × Value)} : Reads (.members ms) (skipBlanks t) r →
      Reads (.value (.object ms)) ('{' :: t) r
  | lastElement {t u r : Text} {v : Value} : Reads (.value v) t u → skipBlanks u = ']' :: r →
      Reads (.elements [v]) t r
  | element {t u u' r : Text} {v : Value} {vs : List Value} : Reads (.value v) t u →
      skipBlanks u = ',' :: u' → Reads (.elements vs) (skipBlanks u') r →
        Reads (.elements (v :: vs)) t r
  | lastMember {t k u u' w r : Text} {v : Value} : Chars t k u → skipBlanks u = ':' :: u' →
      Reads (.value v) (skipBlanks u') w → skipBlanks w = '}' :: r →
        Reads (.members [(k, v)]) ('"' :: t) r
  | member {t k u u' w w' r : Text} {v : Value} {ms : List (Text × Value)} : Chars t k u →
      skipBlanks u = ':' :: u' → Reads (.value v) (skipBlanks u') w → skipBlanks w = ',' :: w' →
        Reads (.members ms) (skipBlanks w') r → Reads (.members ((k, v) :: ms)) ('"' :: t) r

/-- The text, blanks around it apart, is the written form of the value. -/
def Decodes (t : Text) (v : Value) : Prop :=
  ∃ r, Reads (.value v) (skipBlanks t) r ∧ skipBlanks r = []

/-! ## One reading -/

theorem Chars.unique {t s r s' r' : Text} (h : Chars t s r) (h' : Chars t s' r') :
    s' = s ∧ r' = r := by
  induction h generalizing s' with
  | close r =>
    cases h' with
    | close => exact ⟨rfl, rfl⟩
    | plain hq => exact absurd rfl hq
  | plain hq hb _ _ ih =>
    cases h' with
    | close => exact absurd rfl hq
    | plain _ _ _ h =>
      obtain ⟨rfl, rfl⟩ := ih h
      exact ⟨rfl, rfl⟩
    | escape => exact absurd rfl hb
  | escape he _ ih =>
    cases h' with
    | plain _ hb => exact absurd rfl hb
    | escape he' h =>
      cases he.symm.trans he'
      obtain ⟨rfl, rfl⟩ := ih h
      exact ⟨rfl, rfl⟩

/-- A number starts with a character of numbers. -/
theorem isNumberChar_of_number? {c : Char} {t : Text} {q : ℚ}
    (h : number? ((c :: t).takeWhile isNumberChar) = some q) : isNumberChar c = true := by
  by_contra hc
  rw [List.takeWhile_cons_of_neg hc] at h
  cases h

/-- The only reading of a text as a part of a kind. -/
def Part.IsOnly (p : Part) (t r : Text) : Prop :=
  match p with
  | value v => ∀ v' r', Reads (.value v') t r' → v' = v ∧ r' = r
  | elements vs => ∀ vs' r', Reads (.elements vs') t r' → vs' = vs ∧ r' = r
  | members ms => ∀ ms' r', Reads (.members ms') t r' → ms' = ms ∧ r' = r

/-- No array goes on with its end. -/
theorem not_reads_elements_end {t r : Text} {vs : List Value} :
    ¬Reads (.elements vs) (']' :: t) r := by
  have hv (v : Value) (u : Text) : ¬Reads (.value v) (']' :: t) u := by
    intro h
    cases h with
    | number hq => exact absurd (isNumberChar_of_number? hq) (by decide)
  intro h
  cases h with
  | lastElement h => exact hv _ _ h
  | element h => exact hv _ _ h

/-- The first character decides between the rules for values. Rules that share it are
    told apart by what follows: an end or an element, a comma or an end. -/
theorem isOnly_of_reads {p : Part} {t r : Text} (h : Reads p t r) : p.IsOnly t r := by
  -- Only a number has no character of its own at the start; it is refuted by the
  -- character of the other rule, which is none of numbers.
  induction h with
  | null r =>
    intro v' r' h'
    cases h' with
    | null => exact ⟨rfl, rfl⟩
    | number hq => exact absurd (isNumberChar_of_number? hq) (by decide)
  | true r =>
    intro v' r' h'
    cases h' with
    | true => exact ⟨rfl, rfl⟩
    | number hq => exact absurd (isNumberChar_of_number? hq) (by decide)
  | false r =>
    intro v' r' h'
    cases h' with
    | false => exact ⟨rfl, rfl⟩
    | number hq => exact absurd (isNumberChar_of_number? hq) (by decide)
  | number hq =>
    intro v' r' h'
    cases h' with
    | number hq' =>
      cases hq.symm.trans hq'
      exact ⟨rfl, rfl⟩
    | _ => exact absurd (isNumberChar_of_number? hq) (by decide)
  | string hs =>
    intro v' r' h'
    cases h' with
    | string hs' =>
      obtain ⟨rfl, rfl⟩ := hs.unique hs'
      exact ⟨rfl, rfl⟩
    | number hq => exact absurd (isNumberChar_of_number? hq) (by decide)
  | emptyArray he =>
    intro v' r' h'
    cases h' with
    | emptyArray he' =>
      cases he.symm.trans he'
      exact ⟨rfl, rfl⟩
    | array h =>
      rw [he] at h
      exact absurd h not_reads_elements_end
    | number hq => exact absurd (isNumberChar_of_number? hq) (by decide)
  | array h ih =>
    intro v' r' h'
    cases h' with
    | emptyArray he =>
      rw [he] at h
      exact absurd h not_reads_elements_end
    | array h' =>
      obtain ⟨rfl, rfl⟩ := ih _ _ h'
      exact ⟨rfl, rfl⟩
    | number hq => exact absurd (isNumberChar_of_number? hq) (by decide)
  | emptyObject he =>
    intro v' r' h'
    cases h' with
    | emptyObject he' =>
      cases he.symm.trans he'
      exact ⟨rfl, rfl⟩
    | object h =>
      rw [he] at h
      cases h
    | number hq => exact absurd (isNumberChar_of_number? hq) (by decide)
  | object h ih =>
    intro v' r' h'
    cases h' with
    | emptyObject he =>
      rw [he] at h
      cases h
    | object h' =>
      obtain ⟨rfl, rfl⟩ := ih _ _ h'
      exact ⟨rfl, rfl⟩
    | number hq => exact absurd (isNumberChar_of_number? hq) (by decide)
  | lastElement _ he ih =>
    intro vs' r' h'
    cases h' with
    | lastElement h' he' =>
      obtain ⟨rfl, rfl⟩ := ih _ _ h'
      cases he.symm.trans he'
      exact ⟨rfl, rfl⟩
    | element h' he' =>
      obtain ⟨rfl, rfl⟩ := ih _ _ h'
      cases he.symm.trans he'
  | element _ he _ ih ihs =>
    intro vs' r' h'
    cases h' with
    | lastElement h' he' =>
      obtain ⟨rfl, rfl⟩ := ih _ _ h'
      cases he.symm.trans he'
    | element h' he' hs' =>
      obtain ⟨rfl, rfl⟩ := ih _ _ h'
      cases he.symm.trans he'
      obtain ⟨rfl, rfl⟩ := ihs _ _ hs'
      exact ⟨rfl, rfl⟩
  | lastMember hk hc _ he ih =>
    intro ms' r' h'
    cases h' with
    | lastMember hk' hc' h' he' =>
      obtain ⟨rfl, rfl⟩ := hk.unique hk'
      cases hc.symm.trans hc'
      obtain ⟨rfl, rfl⟩ := ih _ _ h'
      cases he.symm.trans he'
      exact ⟨rfl, rfl⟩
    | member hk' hc' h' he' =>
      obtain ⟨rfl, rfl⟩ := hk.unique hk'
      cases hc.symm.trans hc'
      obtain ⟨rfl, rfl⟩ := ih _ _ h'
      cases he.symm.trans he'
  | member hk hc _ he _ ih ihs =>
    intro ms' r' h'
    cases h' with
    | lastMember hk' hc' h' he' =>
      obtain ⟨rfl, rfl⟩ := hk.unique hk'
      cases hc.symm.trans hc'
      obtain ⟨rfl, rfl⟩ := ih _ _ h'
      cases he.symm.trans he'
    | member hk' hc' h' he' hs' =>
      obtain ⟨rfl, rfl⟩ := hk.unique hk'
      cases hc.symm.trans hc'
      obtain ⟨rfl, rfl⟩ := ih _ _ h'
      cases he.symm.trans he'
      obtain ⟨rfl, rfl⟩ := ihs _ _ hs'
      exact ⟨rfl, rfl⟩

/-- No text can be read in two ways. -/
theorem Reads.unique {v v' : Value} {t r r' : Text} (h : Reads (.value v) t r)
    (h' : Reads (.value v') t r') : v' = v ∧ r' = r := isOnly_of_reads h v' r' h'

/-! ## Written forms -/

theorem not_isBlank_of_isNumberChar {c : Char} (h : isNumberChar c = true) : isBlank c = false := by
  by_contra hb
  rw [Bool.not_eq_false, isBlank, Bool.or_eq_true, Bool.or_eq_true, Bool.or_eq_true, beq_iff_eq,
    beq_iff_eq, beq_iff_eq, beq_iff_eq] at hb
  rcases hb with ((rfl | rfl) | rfl) | rfl <;> exact absurd h (by decide)

/-- What is read does not start with a blank. -/
theorem Reads.skipBlanks_eq {p : Part} {t r : Text} (h : Reads p t r) : skipBlanks t = t := by
  induction h with
  | @number t q hq =>
    cases t with
    | nil => rfl
    | cons c t =>
      have hc := not_isBlank_of_isNumberChar (isNumberChar_of_number? hq)
      exact List.dropWhile_cons_of_neg (by simp [hc])
  | lastElement _ _ ih => exact ih
  | element _ _ _ ih => exact ih
  | _ => rfl

theorem Reads.behindBlanks {p : Part} {t r : Text} (h : Reads p t r) :
    Reads p (skipBlanks t) r := by
  rw [h.skipBlanks_eq]
  exact h

/-- No number goes on at the start of the text. -/
def Ends (r : Text) : Prop := ∀ c ∈ r.head?, isNumberChar c = false

theorem ends_nil : Ends [] := nofun

theorem ends_cons {c : Char} (h : isNumberChar c = false) (r : Text) : Ends (c :: r) := by
  rintro _ ⟨⟩
  exact h

/-- The text is a written form of the value, wherever it stands. -/
def Writes (t : Text) (v : Value) : Prop := ∀ r, Ends r → Reads (.value v) (t ++ r) r

/-- A written form is that of one value. -/
theorem Writes.decodes_iff {t : Text} {v v' : Value} (h : Writes t v) : Decodes t v' ↔ v' = v := by
  have hr : Reads (.value v) t [] := by
    have hr := h [] ends_nil
    rwa [List.append_nil] at hr
  constructor
  · rintro ⟨r, hr', -⟩
    exact (hr.behindBlanks.unique hr').1
  · rintro rfl
    exact ⟨[], hr.behindBlanks, rfl⟩

end Json

end Lettering
