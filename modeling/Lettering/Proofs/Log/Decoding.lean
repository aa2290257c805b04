import Lettering.Log.Basic
import Lettering.Proofs.Length.Reachable
import Lettering.Proofs.Log.Json
import Lettering.Proofs.Text.Trimming
import Mathlib.Algebra.Order.Floor.Ring
import Mathlib.Data.List.TakeWhile
import Mathlib.Data.Rat.Floor
import Mathlib.Tactic.FieldSimp
import Mathlib.Tactic.Ring

/-!
# Log lines say what was logged

The lines of a log are put together from texts in written form. Each of these is a
written form in JSON, of one value and without line breaks in it (`Form`): quoted
texts of strings, lengths and counts of numbers, and what arrays and objects are
built from is again of this sort.

* `form_quote`: a quoted text says the text.
* `form_length`: a length says its number of pixels, to the thousandth, from which
  it can be made again (`Length.IsDecimal`).
* `form_array`, `form_object`: arrays and objects say what their parts say.
-/

namespace Lettering

open Json

namespace Length

/-- The length in pixels, to the thousandth. -/
def pixels (p : Length) : ℚ := p.thousandths / 1000

/-- The length of a number of pixels. -/
def ofDecimal (q : ℚ) : Length := ofThousandths ⌊q * 1000⌋

/-- The length is had back from its number of pixels. -/
def IsDecimal (p : Length) : Prop := ofDecimal p.pixels = p

/-- Lengths made from thousandths are had back. -/
theorem isDecimal_ofThousandths (m : Int) : (ofThousandths m).IsDecimal := by
  rw [IsDecimal, ofDecimal, pixels, div_mul_cancel₀ _ (by norm_num), Int.floor_intCast,
    thousandths_ofThousandths, ofThousandths_clip]

theorem isDecimal_add (p q : Length) : (p + q).IsDecimal := isDecimal_ofThousandths _

theorem isDecimal_ofSingle (x : Single) : (ofSingle x).IsDecimal := by
  obtain ⟨m, hm⟩ := exists_ofThousandths_eq_ofSingle x
  exact hm ▸ isDecimal_ofThousandths m

end Length

namespace Log

/-- The text is a written form of the value on one line. -/
structure Form (t : Text) (v : Value) : Prop where
  writes : Writes t v
  plain : ∀ c ∈ t, 0x20 ≤ c.toNat

/-! ## Strings -/

theorem hexDigit?_digitChar {n : Nat} (h : n < 16) : hexDigit? n.digitChar = some n := by
  revert n
  decide

/-- A control character is escaped by its code. -/
theorem escaped?_code {c : Char} (h : c.toNat < 0x20) (t : Text) :
    escaped? ('u' :: '0' :: '0' :: (c.toNat / 16).digitChar :: (c.toNat % 16).digitChar :: t) =
      some (c, t) := by
  have h0 : hexDigit? '0' = some 0 := by decide
  have h1 := hexDigit?_digitChar (show c.toNat / 16 < 16 by omega)
  have h2 := hexDigit?_digitChar (show c.toNat % 16 < 16 by omega)
  have hn : ((0 * 16 + 0) * 16 + c.toNat / 16) * 16 + c.toNat % 16 = c.toNat := by omega
  have hu : unit? ('0' :: '0' :: (c.toNat / 16).digitChar :: (c.toNat % 16).digitChar :: t) =
      some (c.toNat, t) := by
    simp only [unit?, h0, h1, h2, Option.bind_eq_bind, Option.bind_some, hn]
    rfl
  have hc : c.toNat < 0xD800 ∨ 0xE000 ≤ c.toNat := by omega
  simp only [escaped?, coded?, hu, Option.bind_eq_bind, Option.bind_some, if_pos hc,
    Char.ofNat_toNat]
  rfl

theorem plain_digitChar {n : Nat} (h : n < 16) : 0x20 ≤ n.digitChar.toNat := by
  revert n
  decide

/-- A given text is looked through. -/
theorem plain_of_all {t : Text} (h : t.all (0x20 ≤ ·.toNat) = true) : ∀ c ∈ t, 0x20 ≤ c.toNat := by
  simpa using h

/-- A character is written as an escape that says it, or stands for itself. -/
theorem escapeChar_cases (c : Char) :
    (∃ e, escapeChar c = '\\' :: e ∧ (∀ d ∈ e, 0x20 ≤ d.toNat) ∧
      ∀ t, escaped? (e ++ t) = some (c, t)) ∨
    (escapeChar c = [c] ∧ c ≠ '\\' ∧ c ≠ '"' ∧ 0x20 ≤ c.toNat) := by
  unfold escapeChar
  split
  · subst_vars
    exact .inl ⟨['\\'], rfl, plain_of_all rfl, fun _ => rfl⟩
  split
  · subst_vars
    exact .inl ⟨['"'], rfl, plain_of_all rfl, fun _ => rfl⟩
  split
  · subst_vars
    exact .inl ⟨['n'], rfl, plain_of_all rfl, fun _ => rfl⟩
  split
  · subst_vars
    exact .inl ⟨['r'], rfl, plain_of_all rfl, fun _ => rfl⟩
  split
  · subst_vars
    exact .inl ⟨['t'], rfl, plain_of_all rfl, fun _ => rfl⟩
  split
  · rename_i hc
    have h1 := plain_digitChar (show c.toNat / 16 < 16 by omega)
    have h2 := plain_digitChar (show c.toNat % 16 < 16 by omega)
    exact .inl ⟨_, rfl, by simp [h1, h2], escaped?_code hc⟩
  · rename_i hb hq _ _ _ hc
    exact .inr ⟨rfl, hb, hq, Nat.le_of_not_lt hc⟩

theorem chars_escape (t r : Text) : Chars (escape t ++ '"' :: r) t r := by
  induction t with
  | nil => exact .close r
  | cons c t ih =>
    rw [escape_cons, List.append_assoc]
    rcases escapeChar_cases c with ⟨e, he, -, hc⟩ | ⟨he, hb, hq, hc⟩
    · rw [he]
      exact .escape (hc _) ih
    · rw [he]
      exact .plain hq hb hc ih

theorem plain_escapeChar (c : Char) : ∀ d ∈ escapeChar c, 0x20 ≤ d.toNat := by
  rcases escapeChar_cases c with ⟨e, he, hplain, -⟩ | ⟨he, -, -, hc⟩
  · rw [he]
    exact List.forall_mem_cons.mpr ⟨by decide, hplain⟩
  · rw [he]
    exact List.forall_mem_singleton.mpr hc

/-- A quoted text says the text. -/
theorem form_quote (t : Text) : Form (quote t) (.string t) where
  writes r _ := by
    rw [quote, List.cons_append, List.append_assoc]
    exact .string (chars_escape t r)
  plain := by
    intro c hc
    rw [quote, List.mem_cons, List.mem_append, escape, List.mem_flatMap, List.mem_singleton] at hc
    rcases hc with rfl | ⟨d, -, hc⟩ | rfl
    · decide
    · exact plain_escapeChar d c hc
    · decide

/-! ## Numbers -/

/-- A class of characters ends where the text goes on with another one. -/
theorem span_of_head? {p : Char → Bool} {r : Text} (h : ∀ c ∈ r.head?, p c = false) :
    r.takeWhile p = [] ∧ r.dropWhile p = r := by
  cases r with
  | nil => exact ⟨rfl, rfl⟩
  | cons c r =>
    have hc : ¬p c = true := by simp [h c rfl]
    exact ⟨List.takeWhile_cons_of_neg hc, List.dropWhile_cons_of_neg hc⟩

theorem plain_of_isNumberChar {c : Char} (h : isNumberChar c) : 0x20 ≤ c.toNat := by
  simp only [isNumberChar, Bool.or_eq_true, beq_iff_eq] at h
  rcases h with ((((h | rfl) | rfl) | rfl) | rfl) | rfl
  · have hc : '0'.toNat ≤ c.toNat := (Char.isDigit_iff_toNat.mp h).1
    exact Nat.le_trans (by decide) hc
  all_goals decide

/-- The written form of a number, in characters of numbers alone. -/
theorem form_number {t : Text} {q : ℚ} (hc : ∀ c ∈ t, isNumberChar c) (hq : number? t = some q) :
    Form t (.number q) where
  writes r hr := by
    obtain ⟨ht, hd⟩ := span_of_head? hr
    have h := Reads.number (t := t ++ r) (q := q)
    rw [List.takeWhile_append_of_pos hc, List.dropWhile_append_of_pos hc, ht, hd,
      List.append_nil] at h
    exact h hq
  plain c h := plain_of_isNumberChar (hc c h)

theorem natural?_ofNat (n : Nat) : natural? (Text.ofNat n) = some n := by
  rw [natural?, if_pos ⟨Nat.toDigits_ne_nil, List.all_eq_true.mpr Text.isDigit_ofNat⟩]
  exact congrArg some Nat.ofDigitChars_ten_toDigits

/-- Only zero starts with a zero. -/
theorem head?_ofNat_ne {n : Nat} (h : n ≠ 0) : (Text.ofNat n).head? ≠ some '0' := by
  induction n using Nat.strongRecOn with
  | ind n ih =>
    rw [Text.ofNat, Nat.toDigits_eq_if (by decide)]
    split
    · simpa [Nat.digitChar_eq_zero] using h
    · rw [List.head?_append_of_ne_nil _ Nat.toDigits_ne_nil]
      exact ih (n / 10) (by omega) (by omega)

/-- The whole part of a number is read up to what is not a digit. -/
theorem magnitude?_ofNat_append (n : Nat) {r : Text} (hr : ∀ c ∈ r.head?, c.isDigit = false) :
    magnitude? (Text.ofNat n ++ r) = scaled? n r := by
  obtain ⟨ht, hd⟩ := span_of_head? hr
  have hz : ¬((Text.ofNat n).head? = some '0' ∧ (Text.ofNat n).length ≠ 1) := by
    rintro ⟨hh, hl⟩
    by_cases hn : n = 0
    · subst hn
      exact hl rfl
    · exact head?_ofNat_ne hn hh
  rw [magnitude?, List.takeWhile_append_of_pos Text.isDigit_ofNat,
    List.dropWhile_append_of_pos Text.isDigit_ofNat, ht, hd, List.append_nil]
  simp only [natural?_ofNat, Option.bind_eq_bind, Option.bind_some, if_neg hz]

theorem number?_ofNat_append (n : Nat) (r : Text) :
    number? (Text.ofNat n ++ r) = magnitude? (Text.ofNat n ++ r) := by
  cases h : Text.ofNat n with
  | nil => exact absurd h Nat.toDigits_ne_nil
  | cons c ds =>
    have hc : c ≠ '-' := by
      rintro rfl
      exact absurd (Text.isDigit_ofNat (n := n) '-' (by simp [h])) (by decide)
    rw [List.cons_append, number?]
    rintro t ⟨⟩
    exact hc rfl

theorem scaled?_nil (n : Nat) : scaled? n [] = some (n : ℚ) := by
  simp [scaled?, exponent?]

theorem isNumberChar_of_isDigit {c : Char} (h : c.isDigit) : isNumberChar c := by
  simp [isNumberChar, h]

/-- A count says itself. -/
theorem form_ofNat (n : Nat) : Form (Text.ofNat n) (.number n) := by
  refine form_number (fun c hc => isNumberChar_of_isDigit (Text.isDigit_ofNat c hc)) ?_
  have h := number?_ofNat_append n []
  rw [magnitude?_ofNat_append n (by simp), scaled?_nil, List.append_nil] at h
  exact h

/-! ## Lengths -/

/-- What is trimmed off the end of a number is zeros. -/
theorem trimEndBy_append_zeros (t : Text) :
    ∃ k, Text.trimEndBy (· == '0') t ++ List.replicate k '0' = t := by
  obtain ⟨u, hu, hz⟩ := Text.exists_trimEndBy_append (· == '0') t
  have hrep : u = List.replicate u.length '0' :=
    List.eq_replicate_iff.mpr ⟨rfl, fun c hc => by simpa using hz c hc⟩
  exact ⟨u.length, hrep ▸ hu⟩

/-- Three digits of a number. -/
def threeDigits (n : Nat) : Text :=
  [(n / 100).digitChar, (n / 10 % 10).digitChar, (n % 10).digitChar]

theorem exists_fraction_append (n : Nat) :
    ∃ k, Length.fraction n ++ List.replicate k '0' = threeDigits n :=
  trimEndBy_append_zeros _

theorem ofDigitChars_threeDigits {n : Nat} (h : n < 1000) :
    Nat.ofDigitChars 10 (threeDigits n) 0 = n := by
  rw [threeDigits, Nat.ofDigitChars_cons_digitChar_of_lt_ten (by omega),
    Nat.ofDigitChars_cons_digitChar_of_lt_ten (by omega),
    Nat.ofDigitChars_cons_digitChar_of_lt_ten (by omega), Nat.ofDigitChars_nil]
  omega

theorem isDigit_fraction {n : Nat} (h : n < 1000) : ∀ c ∈ Length.fraction n, c.isDigit := by
  intro c hc
  obtain ⟨k, hk⟩ := exists_fraction_append n
  have hc : c ∈ threeDigits n := by
    rw [← hk]
    exact List.mem_append_left _ hc
  simp only [threeDigits, List.mem_cons, List.not_mem_nil, or_false] at hc
  rcases hc with rfl | rfl | rfl <;> rw [Nat.isDigit_digitChar, decide_eq_true_eq] <;> omega

/-- With the zeros that were trimmed the digits are those of the thousandths. -/
theorem ofDigitChars_fraction {n : Nat} (h : n < 1000) :
    ∃ k, (Length.fraction n).length + k = 3 ∧
      Nat.ofDigitChars 10 (Length.fraction n) 0 * 10 ^ k = n := by
  obtain ⟨k, hk⟩ := exists_fraction_append n
  have hvalue := ofDigitChars_threeDigits h
  rw [← hk, Nat.ofDigitChars_append, Nat.ofDigitChars_replicate_zero] at hvalue
  refine ⟨k, ?_, (Nat.mul_comm _ _).trans hvalue⟩
  simpa [threeDigits] using congrArg List.length hk

theorem length_fraction_le {n : Nat} (h : n < 1000) : (Length.fraction n).length ≤ 3 := by
  obtain ⟨k, hk, -⟩ := ofDigitChars_fraction h
  omega

theorem fraction_eq_nil_iff {n : Nat} (h : n < 1000) : Length.fraction n = [] ↔ n = 0 := by
  constructor
  · intro he
    obtain ⟨k, -, hk⟩ := ofDigitChars_fraction h
    rwa [he, Nat.ofDigitChars_nil, Nat.zero_mul, eq_comm] at hk
  · rintro rfl
    rfl

/-- A number of thousandths as a decimal. -/
def decimal (n : Nat) : Text :=
  Text.ofNat (n / 1000) ++ if n % 1000 = 0 then [] else '.' :: Length.fraction (n % 1000)

theorem text_eq_decimal (p : Length) :
    p.text = (if p.thousandths < 0 then ['-'] else []) ++ decimal p.thousandths.natAbs :=
  List.append_assoc _ _ _

theorem isNumberChar_of_mem_decimal {n : Nat} {c : Char} (h : c ∈ decimal n) : isNumberChar c := by
  rw [decimal, List.mem_append] at h
  rcases h with h | h
  · exact isNumberChar_of_isDigit (Text.isDigit_ofNat c h)
  · split at h
    · cases h
    · rcases List.mem_cons.mp h with rfl | h
      · decide
      · exact isNumberChar_of_isDigit (isDigit_fraction (Nat.mod_lt n (by decide)) c h)

theorem scaled?_fraction (whole : Nat) {ds : Text} {m : Nat} (hm : natural? ds = some m)
    (hd : ∀ c ∈ ds, c.isDigit) :
    scaled? whole ('.' :: ds) = some (whole + m / 10 ^ ds.length : ℚ) := by
  have ht : ds.takeWhile Char.isDigit = ds := List.takeWhile_eq_self_iff.mpr hd
  have hr : ds.dropWhile Char.isDigit = [] := List.dropWhile_eq_nil_iff.mpr hd
  simp [scaled?, ht, hr, hm, exponent?]

theorem magnitude?_decimal (n : Nat) : magnitude? (decimal n) = some (n / 1000 : ℚ) := by
  have hn : (n : ℚ) = (n / 1000 : Nat) * 1000 + (n % 1000 : Nat) := by
    exact_mod_cast (Nat.div_add_mod' n 1000).symm
  rw [decimal]
  split
  case isTrue h0 =>
    -- A whole number of pixels has no point.
    rw [magnitude?_ofNat_append _ (by simp), scaled?_nil, hn, h0]
    simp
  case isFalse h0 =>
    have hlt := Nat.mod_lt n (show 1000 > 0 by decide)
    have hdigits := isDigit_fraction hlt
    have hne : Length.fraction (n % 1000) ≠ [] := mt (fraction_eq_nil_iff hlt).mp h0
    obtain ⟨k, hk, hmk⟩ := ofDigitChars_fraction hlt
    rw [magnitude?_ofNat_append _ (by simp),
      scaled?_fraction _ (if_pos ⟨hne, List.all_eq_true.mpr hdigits⟩) hdigits, hn]
    -- The zeros trimmed off make up for the smaller power of ten.
    generalize Length.fraction (n % 1000) = ds at hk hmk
    have hpow : (10 : ℚ) ^ ds.length * 10 ^ k = 1000 := by
      rw [← pow_add, hk]
      norm_num
    rw [← hmk, ← hpow]
    push_cast
    field_simp

/-- The text of a length is read as its number of pixels, to the thousandth. -/
theorem number?_text (p : Length) : number? p.text = some p.pixels := by
  rw [text_eq_decimal]
  split
  case isTrue hneg =>
    have hz : p.thousandths = -(p.thousandths.natAbs : ℤ) := by omega
    have ha : (p.thousandths : ℚ) = -(p.thousandths.natAbs : ℚ) := by exact_mod_cast hz
    rw [List.singleton_append, number?, magnitude?_decimal, Length.pixels, ha, neg_div]
    rfl
  case isFalse hpos =>
    have hz : p.thousandths = (p.thousandths.natAbs : ℤ) := by omega
    have ha : (p.thousandths : ℚ) = (p.thousandths.natAbs : ℚ) :=
      (congrArg Int.cast hz).trans (Int.cast_natCast _)
    rw [List.nil_append, decimal, number?_ofNat_append, ← decimal, magnitude?_decimal,
      Length.pixels, ha]

/-- A length says its number of pixels, to the thousandth. -/
theorem form_length (p : Length) : Form p.text (.number p.pixels) := by
  refine form_number ?_ (number?_text p)
  intro c hc
  rw [text_eq_decimal, List.mem_append] at hc
  rcases hc with hc | hc
  · split at hc
    · rw [List.mem_singleton.mp hc]
      decide
    · cases hc
  · exact isNumberChar_of_mem_decimal hc

/-! ## Truth values, arrays and objects -/

theorem form_bool (b : Bool) : Form (if b then "true".toList else "false".toList) (.bool b) := by
  cases b with
  | false => exact ⟨fun r _ => .false r, plain_of_all rfl⟩
  | true => exact ⟨fun r _ => .true r, plain_of_all rfl⟩

theorem intercalate_cons (t u : Text) (ts : List Text) :
    [','].intercalate (t :: u :: ts) = t ++ ',' :: [','].intercalate (u :: ts) := by
  simp [List.intercalate]

theorem intercalate_singleton (t : Text) : [','].intercalate [t] = t := by
  simp [List.intercalate]

theorem plain_intercalate {ts : List Text} (h : ∀ t ∈ ts, ∀ c ∈ t, 0x20 ≤ c.toNat) :
    ∀ c ∈ [','].intercalate ts, 0x20 ≤ c.toNat := by
  induction ts with
  | nil => exact List.forall_mem_nil _
  | cons t ts ih =>
    rw [List.forall_mem_cons] at h
    cases ts with
    | nil =>
      rw [intercalate_singleton]
      exact h.1
    | cons u ts =>
      rw [intercalate_cons, List.forall_mem_append, List.forall_mem_cons]
      exact ⟨h.1, by decide, ih h.2⟩

/-- Elements in a row, up to the end of the array. -/
theorem reads_elements {t : Text} {ts : List Text} {v : Value} {vs : List Value} (h : Form t v)
    (hs : List.Forall₂ Form ts vs) (r : Text) :
    Reads (.elements (v :: vs)) ([','].intercalate (t :: ts) ++ ']' :: r) r := by
  induction hs generalizing t v with
  | nil =>
    rw [intercalate_singleton]
    exact .lastElement (h.writes _ (ends_cons rfl r)) rfl
  | cons hu _ ih =>
    rw [intercalate_cons, List.append_assoc]
    exact .element (h.writes _ (ends_cons rfl _)) rfl (ih hu).behindBlanks

theorem forall_mem_of_forall₂ {α β : Type} {R : α → β → Prop} {P : α → Prop}
    (hP : ∀ a b, R a b → P a) {l : List α} {m : List β} (h : List.Forall₂ R l m) :
    ∀ a ∈ l, P a := by
  induction h with
  | nil => exact List.forall_mem_nil _
  | cons hr _ ih => exact List.forall_mem_cons.mpr ⟨hP _ _ hr, ih⟩

theorem form_array {ts : List Text} {vs : List Value} (h : List.Forall₂ Form ts vs) :
    Form (array ts) (.array vs) where
  writes r _ := by
    cases h with
    | nil => exact .emptyArray rfl
    | cons hv hs =>
      rw [array, List.cons_append, List.append_assoc]
      exact .array (reads_elements hv hs r).behindBlanks
  plain := by
    rw [array, List.forall_mem_cons, List.forall_mem_append]
    exact ⟨by decide, plain_intercalate (forall_mem_of_forall₂ (fun _ _ hf => hf.plain) h),
      plain_of_all rfl⟩

/-- A field of an object, with its value in written form. -/
def FieldForm (field : String × Text) (member : Text × Value) : Prop :=
  field.1.toList = member.1 ∧ Form field.2 member.2

theorem members_singleton (f : String × Text) :
    members [f] = '"' :: (escape f.1.toList ++ '"' :: ':' :: f.2) := by
  simp [members, List.intercalate, quote]

theorem members_cons (f g : String × Text) (fs : List (String × Text)) :
    members (f :: g :: fs) =
      '"' :: (escape f.1.toList ++ '"' :: ':' :: (f.2 ++ ',' :: members (g :: fs))) := by
  simp [members, List.intercalate, quote]

/-- Members in a row, up to the end of the object. -/
theorem reads_members {f : String × Text} {fs : List (String × Text)} {m : Text × Value}
    {ms : List (Text × Value)} (h : FieldForm f m) (hs : List.Forall₂ FieldForm fs ms) (r : Text) :
    Reads (.members (m :: ms)) (members (f :: fs) ++ '}' :: r) r := by
  obtain ⟨k, v⟩ := m
  induction hs generalizing f k v with
  | nil =>
    obtain ⟨rfl, hf⟩ := h
    rw [members_singleton, List.cons_append, List.append_assoc]
    exact .lastMember (chars_escape _ _) rfl (hf.writes _ (ends_cons rfl r)).behindBlanks rfl
  | cons hg _ ih =>
    obtain ⟨rfl, hf⟩ := h
    rw [members_cons, List.cons_append, List.append_assoc, List.cons_append, List.cons_append,
      List.append_assoc]
    exact .member (chars_escape _ _) rfl (hf.writes _ (ends_cons rfl _)).behindBlanks rfl
      (ih _ _ hg).behindBlanks

theorem form_object {fs : List (String × Text)} {ms : List (Text × Value)}
    (h : List.Forall₂ FieldForm fs ms) : Form (object fs) (.object ms) where
  writes r _ := by
    cases h with
    | nil => exact .emptyObject rfl
    | cons hv hs =>
      rw [object, List.cons_append, List.append_assoc]
      exact .object (reads_members hv hs r).behindBlanks
  plain := by
    have hfields := forall_mem_of_forall₂ (fun _ _ hf => hf.2.plain) h
    rw [object, List.forall_mem_cons, List.forall_mem_append, members]
    refine ⟨by decide, plain_intercalate ?_, plain_of_all rfl⟩
    intro t ht
    obtain ⟨f, hf, rfl⟩ := List.mem_map.mp ht
    rw [List.forall_mem_append, List.forall_mem_cons]
    exact ⟨(form_quote _).plain, by decide, hfields f hf⟩

end Log

end Lettering
