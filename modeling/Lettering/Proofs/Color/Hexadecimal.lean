import Lettering.Color
import Lettering.Proofs.Text.Trimming

/-!
# Colours in hexadecimal digits

A colour is written as a number sign and the bytes of its channels in hexadecimal digits of
either case: two for each channel, or one that stands for two of it. The pairs are read as
numbers are, and a number may have a plus sign in front: so a pair may also be a plus sign and
one digit, and `#+f+f+f` is a colour.

* `parse?_hexadecimal`: what is read behind a number sign, and as which colour. Where there
  is no plus sign, it is what has three or six digits and nothing else.
* `parse?_plusSigns`: what is read although it has not.
-/

namespace Lettering

namespace Color

open Text (isWhiteSpace trimEndBy)

variable {c d : Char} {t : Text} {l m n : Nat}

/-- The character is the hexadecimal digit of a number, in either case. -/
def WritesDigit (c : Char) (n : Nat) : Prop := n < 16 ∧ c.toLower = n.digitChar
deriving Decidable

/-- Two characters write a byte: they are two digits, or a plus sign and one digit. -/
inductive WritesByte : Char → Char → Nat → Prop
  | digits {c d : Char} {m n : Nat} : WritesDigit c m → WritesDigit d n →
      WritesByte c d (16 * m + n)
  | plus {d : Char} {n : Nat} : WritesDigit d n → WritesByte '+' d n

/-- A text writes three bytes, each by two characters or by one that stands for both. -/
inductive WritesBytes : Text → Nat → Nat → Nat → Prop
  | short {r g b : Char} {l m n : Nat} : WritesByte r r l → WritesByte g g m →
      WritesByte b b n → WritesBytes [r, g, b] l m n
  | long {r r' g g' b b' : Char} {l m n : Nat} : WritesByte r r' l → WritesByte g g' m →
      WritesByte b b' n → WritesBytes [r, r', g, g', b, b'] l m n

/-! ## Digits -/

/-- A character that is not ASCII is no digit, and has no case. -/
theorem not_ascii (h : 128 ≤ c.toNat) : hexDigit? c = none ∧ c.toLower = c := by
  have hge (d : Char) (hd : d.toNat < 128) : ¬c ≤ d := by
    rw [Char.le_def, UInt32.le_iff_toNat_le]
    exact Nat.not_le.mpr (hd.trans_le h)
  constructor
  · rw [hexDigit?, if_neg fun hc => hge '9' (by decide) hc.2,
      if_neg fun hc => hge 'f' (by decide) hc.2, if_neg fun hc => hge 'F' (by decide) hc.2]
  · exact dif_neg fun hc => hge 'Z' (by decide) hc.2

theorem hexDigit?_ofNat : ∀ k < 128, ∀ n < 16,
    hexDigit? (Char.ofNat k) = some n ↔ (Char.ofNat k).toLower = n.digitChar := by
  decide +kernel

theorem hexDigit?_lt (h : hexDigit? c = some n) : n < 16 := by
  grind [hexDigit?, Char.le_def, UInt32.le_iff_toNat_le, Char.toNat]

/-- What a digit is read as, is what it writes. -/
theorem hexDigit?_eq_some_iff : hexDigit? c = some n ↔ WritesDigit c n := by
  -- The ASCII characters have been gone through; no other one is made a digit by its case.
  by_cases hc : c.toNat < 128
  · have h := hexDigit?_ofNat c.toNat hc
    rw [Char.ofNat_toNat] at h
    constructor
    · intro hn
      have hlt := hexDigit?_lt hn
      exact ⟨hlt, (h n hlt).mp hn⟩
    · rintro ⟨hlt, hn⟩
      exact (h n hlt).mpr hn
  · obtain ⟨hnone, hlower⟩ := not_ascii (Nat.le_of_not_lt hc)
    simp only [hnone, WritesDigit, hlower, reduceCtorEq, false_iff, not_and]
    rintro hn rfl
    revert n
    decide

theorem isSome_hexDigit? (c : Char) : (hexDigit? c).isSome = c.isHexDigit := by
  simp only [hexDigit?, Char.isHexDigit, Char.isDigit, Char.le_def]
  grind

theorem exists_writesDigit_iff : (∃ n, WritesDigit c n) ↔ c.isHexDigit := by
  rw [← isSome_hexDigit?, Option.isSome_iff_exists]
  exact exists_congr fun _ => hexDigit?_eq_some_iff.symm

theorem not_writesDigit_plus : ¬WritesDigit '+' n := by
  rw [← hexDigit?_eq_some_iff, show hexDigit? '+' = none by decide]
  exact nofun

theorem hexDigit?_toLower (c : Char) : hexDigit? c.toLower = hexDigit? c :=
  Text.apply_toLower hexDigit? (by decide) c

/-! ## Pairs of digits -/

theorem hexByte?_eq_some_iff : hexByte? c d = some n ↔ WritesByte c d n := by
  constructor
  · intro h
    obtain ⟨low, hlow, h⟩ := Option.bind_eq_some_iff.mp h
    have hd := hexDigit?_eq_some_iff.mp hlow
    by_cases hc : c = '+'
    · obtain rfl : low = n := by simpa only [if_pos hc, Option.some.injEq] using h
      exact hc ▸ .plus hd
    · obtain ⟨high, hhigh, h⟩ := Option.bind_eq_some_iff.mp ((if_neg hc).symm.trans h)
      cases h
      exact .digits (hexDigit?_eq_some_iff.mp hhigh) hd
  · intro h
    cases h with
    | digits hc hd =>
      -- A plus sign is no digit, so that no pair is read in both ways.
      have hne : c ≠ '+' := by
        rintro rfl
        exact not_writesDigit_plus hc
      rw [hexByte?, hexDigit?_eq_some_iff.mpr hc, hexDigit?_eq_some_iff.mpr hd]
      exact if_neg hne
    | plus hd =>
      rw [hexByte?, hexDigit?_eq_some_iff.mpr hd]
      rfl

theorem hexByte?_toLower (c d : Char) : hexByte? c.toLower d.toLower = hexByte? c d := by
  have hplus := Text.apply_toLower (· == '+') (by decide) c
  simp only [beq_eq_beq] at hplus
  simp only [hexByte?, hexDigit?_toLower, hplus]

theorem WritesByte.isHexDigit (h : WritesByte c d n) (hc : '+' ≠ c) :
    c.isHexDigit ∧ d.isHexDigit := by
  cases h with
  | digits hm hn => exact ⟨exists_writesDigit_iff.mp ⟨_, hm⟩, exists_writesDigit_iff.mp ⟨_, hn⟩⟩
  | plus => exact absurd rfl hc

theorem exists_writesByte (hc : c.isHexDigit) (hd : d.isHexDigit) : ∃ n, WritesByte c d n := by
  obtain ⟨m, hm⟩ := exists_writesDigit_iff.mpr hc
  obtain ⟨n, hn⟩ := exists_writesDigit_iff.mpr hd
  exact ⟨_, .digits hm hn⟩

/-! ## Three bytes -/

theorem ofHexPairs?_eq_some_iff {r r' g g' b b' : Char} {color : Color} :
    ofHexPairs? r r' g g' b b' = some color ↔ ∃ l m n, WritesByte r r' l ∧ WritesByte g g' m ∧
      WritesByte b b' n ∧ color = ⟨ofByte l, ofByte m, ofByte n⟩ := by
  simp only [ofHexPairs?, Option.bind_eq_bind, Option.bind_eq_some_iff, hexByte?_eq_some_iff,
    Option.some.injEq]
  grind

theorem ofHex?_eq_some_iff {color : Color} :
    ofHex? t = some color ↔
      ∃ l m n, WritesBytes t l m n ∧ color = ⟨ofByte l, ofByte m, ofByte n⟩ := by
  constructor
  · intro h
    unfold ofHex? at h
    split at h
    · obtain ⟨l, m, n, hr, hg, hb, hc⟩ := ofHexPairs?_eq_some_iff.mp h
      exact ⟨l, m, n, .short hr hg hb, hc⟩
    · obtain ⟨l, m, n, hr, hg, hb, hc⟩ := ofHexPairs?_eq_some_iff.mp h
      exact ⟨l, m, n, .long hr hg hb, hc⟩
    · cases h
  · rintro ⟨l, m, n, hw, hc⟩
    cases hw with
    | short hr hg hb => exact ofHexPairs?_eq_some_iff.mpr ⟨l, m, n, hr, hg, hb, hc⟩
    | long hr hg hb => exact ofHexPairs?_eq_some_iff.mpr ⟨l, m, n, hr, hg, hb, hc⟩

theorem isSome_ofHex?_iff : (ofHex? t).isSome ↔ ∃ l m n, WritesBytes t l m n := by
  simp only [Option.isSome_iff_exists, ofHex?_eq_some_iff]
  exact ⟨fun ⟨_, l, m, n, h, _⟩ => ⟨l, m, n, h⟩, fun ⟨l, m, n, h⟩ => ⟨_, l, m, n, h, rfl⟩⟩

/-- Three or six digits write three bytes, and where there is no plus sign nothing else does. -/
theorem exists_writesBytes_iff (hplus : '+' ∉ t) :
    (∃ l m n, WritesBytes t l m n) ↔
      (t.length = 3 ∨ t.length = 6) ∧ ∀ c ∈ t, c.isHexDigit := by
  constructor
  · rintro ⟨l, m, n, hw⟩
    cases hw with
    | short hr hg hb =>
      simp only [List.mem_cons, not_or, List.not_mem_nil] at hplus
      obtain ⟨hr', hg', hb', -⟩ := hplus
      simp [hr.isHexDigit hr', hg.isHexDigit hg', hb.isHexDigit hb']
    | long hr hg hb =>
      simp only [List.mem_cons, not_or, List.not_mem_nil] at hplus
      obtain ⟨hr', -, hg', -, hb', -⟩ := hplus
      simp [hr.isHexDigit hr', hg.isHexDigit hg', hb.isHexDigit hb']
  · rintro ⟨hlen | hlen, hd⟩
    · match t, hlen with
      | [r, g, b], _ =>
        simp only [List.forall_mem_cons] at hd
        obtain ⟨hr, hg, hb, -⟩ := hd
        obtain ⟨l, hl⟩ := exists_writesByte hr hr
        obtain ⟨m, hm⟩ := exists_writesByte hg hg
        obtain ⟨n, hn⟩ := exists_writesByte hb hb
        exact ⟨l, m, n, .short hl hm hn⟩
    · match t, hlen with
      | [r, r', g, g', b, b'], _ =>
        simp only [List.forall_mem_cons] at hd
        obtain ⟨hr, hr', hg, hg', hb, hb', -⟩ := hd
        obtain ⟨l, hl⟩ := exists_writesByte hr hr'
        obtain ⟨m, hm⟩ := exists_writesByte hg hg'
        obtain ⟨n, hn⟩ := exists_writesByte hb hb'
        exact ⟨l, m, n, .long hl hm hn⟩

/-- The case of the digits does not matter. -/
theorem ofHex?_lower (t : Text) : ofHex? (Text.lower t) = ofHex? t := by
  have hpairs (r r' g g' b b' : Char) :
      ofHexPairs? r.toLower r'.toLower g.toLower g'.toLower b.toLower b'.toLower =
        ofHexPairs? r r' g g' b b' := by
    simp only [ofHexPairs?, hexByte?_toLower]
  -- Up to six characters are looked at, and that there are no more.
  rcases t with _ | ⟨a, _ | ⟨b, _ | ⟨c, _ | ⟨d, _ | ⟨e, _ | ⟨f, _ | ⟨g, t⟩⟩⟩⟩⟩⟩⟩
  all_goals simp only [Text.lower, List.map_cons, List.map_nil, ofHex?, hpairs]

/-! ## Behind a number sign -/

/-- What is read behind a number sign is what stands before the white space at its end. -/
theorem parse?_hash {before after : Text} (hbefore : ∀ c ∈ before, isWhiteSpace c)
    (hafter : ∀ c ∈ after, isWhiteSpace c) (t : Text) :
    parse? (before ++ '#' :: t ++ after) =
      (ofHex? (trimEndBy isWhiteSpace t)).map fun color => (color, .one) := by
  rw [parse?, Text.trim, Text.trimBy_surrounded hbefore hafter (by decide)]
  rfl

/-- Between white space and behind a number sign, just the texts of three bytes are read, in
    either case of their digits, and as the opaque colour with the bytes as its channels. Where
    there is no plus sign, these are the texts of three or six digits. -/
theorem parse?_hexadecimal {before after : Text} (hbefore : ∀ c ∈ before, isWhiteSpace c)
    (hafter : ∀ c ∈ after, isWhiteSpace c) (t : Text) :
    (∀ color alpha, parse? (before ++ '#' :: t ++ after) = some (color, alpha) ↔
      alpha = .one ∧ ∃ l m n, WritesBytes (trimEndBy isWhiteSpace t) l m n ∧
        color = ⟨ofByte l, ofByte m, ofByte n⟩) ∧
    ('+' ∉ t → ((parse? (before ++ '#' :: t ++ after)).isSome ↔
      ((trimEndBy isWhiteSpace t).length = 3 ∨ (trimEndBy isWhiteSpace t).length = 6) ∧
        ∀ c ∈ trimEndBy isWhiteSpace t, c.isHexDigit)) ∧
    parse? (before ++ '#' :: Text.lower t ++ after) = parse? (before ++ '#' :: t ++ after) := by
  simp only [parse?_hash hbefore hafter, Text.trimEndBy_lower, ofHex?_lower, and_true]
  constructor
  · intro color alpha
    simp only [Option.map_eq_some_iff, Prod.mk.injEq, ofHex?_eq_some_iff]
    constructor
    · rintro ⟨color, hc, rfl, rfl⟩
      exact ⟨rfl, hc⟩
    · rintro ⟨rfl, hc⟩
      exact ⟨color, hc, rfl, rfl⟩
  · intro hplus
    rw [Option.isSome_map, isSome_ofHex?_iff]
    refine exists_writesBytes_iff fun hmem => hplus ?_
    obtain ⟨u, hu, -⟩ := Text.exists_trimEndBy_append isWhiteSpace t
    exact hu ▸ List.mem_append_left u hmem

/-- Case: three digits of both cases, between white space. -/
theorem parse?_hexadecimal_mixed :
    (∀ c ∈ "\t".toList, isWhiteSpace c) ∧ (∀ c ∈ "\n".toList, isWhiteSpace c) ∧
      '+' ∉ "aBc ".toList ∧ (parse? "\t#aBc \n".toList).isSome ∧
      parse? "\t#aBc \n".toList = some (⟨ofByte 0xAA, ofByte 0xBB, ofByte 0xCC⟩, .one) := by
  have hbefore : ∀ c ∈ "\t".toList, isWhiteSpace c := List.all_eq_true.mp (by decide)
  have hafter : ∀ c ∈ "\n".toList, isWhiteSpace c := List.all_eq_true.mp (by decide)
  have hplus : '+' ∉ "aBc ".toList := by decide
  have ha : WritesByte 'a' 'a' 0xAA := .digits (m := 10) (n := 10) (by decide) (by decide)
  have hb : WritesByte 'B' 'B' 0xBB := .digits (m := 11) (n := 11) (by decide) (by decide)
  have hc : WritesByte 'c' 'c' 0xCC := .digits (m := 12) (n := 12) (by decide) (by decide)
  obtain ⟨hread, hsome, -⟩ := parse?_hexadecimal hbefore hafter "aBc ".toList
  have hdigits := (hsome hplus).mpr ⟨.inl (by decide), List.all_eq_true.mp (by decide)⟩
  exact ⟨hbefore, hafter, hplus, hdigits, (hread _ _).mpr ⟨rfl, _, _, _, .short ha hb hc, rfl⟩⟩

/-- A pair may be a plus sign and a digit, which is the byte of the digit. -/
theorem parse?_plusSigns :
    parse? "#+f+f+f".toList = some (⟨ofByte 0x0F, ofByte 0x0F, ofByte 0x0F⟩, .one) ∧
      ¬∀ c ∈ "+f+f+f".toList, c.isHexDigit :=
  ⟨rfl, fun h => absurd (h '+' (by decide)) (by decide)⟩

end Color

end Lettering
