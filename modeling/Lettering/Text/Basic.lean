/-!
# Text

Character data is a list of characters: what is parsed, measured and drawn is
always cut between characters, never inside one.

* `Text.isWhiteSpace` is the Unicode property `White_Space`.
* `Text.trim` removes white space at both ends.
* `Text.after?` takes a beginning off a text, and `Text.before?` an end
  (`Text.after?_eq_some_iff`).
-/

namespace Lettering

/-- Character data, one character after the other. -/
abbrev Text := List Char

namespace Text

/-- The Unicode property `White_Space`. -/
def isWhiteSpace (c : Char) : Bool :=
  let n := c.toNat
  (9 ≤ n && n ≤ 13) || n == 0x20 || n == 0x85 || n == 0xA0 || n == 0x1680
    || (0x2000 ≤ n && n ≤ 0x200A) || n == 0x2028 || n == 0x2029 || n == 0x202F
    || n == 0x205F || n == 0x3000

/-- `t` without the characters of a class at its start. -/
def trimStartBy (p : Char → Bool) (t : Text) : Text := t.dropWhile p

/-- `t` without the characters of a class at its end. -/
def trimEndBy (p : Char → Bool) (t : Text) : Text := (t.reverse.dropWhile p).reverse

/-- `t` without the characters of a class at either end. -/
def trimBy (p : Char → Bool) (t : Text) : Text := trimEndBy p (trimStartBy p t)

/-- `t` without white space at either end. -/
def trim (t : Text) : Text := trimBy isWhiteSpace t

/-- `t` with the ASCII capitals made small; every other character stays. -/
def lower (t : Text) : Text := t.map Char.toLower

/-- What follows `p` in `t`, if `t` starts with `p`. -/
def after? (p t : Text) : Option Text :=
  if p.isPrefixOf t then some (t.drop p.length) else none

/-- What precedes `p` in `t`, if `t` ends with `p`. -/
def before? (p t : Text) : Option Text :=
  if p.isSuffixOf t then some (t.take (t.length - p.length)) else none

/-- Whether `t` is `u` or comes before it, in the order of the code points. -/
def notAfter (t u : Text) : Bool := !u.lex t fun c d => c.toNat < d.toNat

/-- The number written in decimal digits, most significant first. -/
def ofNat (n : Nat) : Text := Nat.toDigits 10 n

/-- The integer in decimal digits, with a minus sign when it is negative. -/
def ofInt (n : Int) : Text := if n < 0 then '-' :: ofNat n.natAbs else ofNat n.natAbs

@[simp] theorem trimStartBy_nil (p : Char → Bool) : trimStartBy p [] = [] := rfl

@[simp] theorem trimEndBy_nil (p : Char → Bool) : trimEndBy p [] = [] := rfl

/-- No text starts with `p` unless it is `p` followed by the rest. -/
theorem after?_eq_some_iff {p t r : Text} : after? p t = some r ↔ t = p ++ r := by
  unfold after?
  split
  · rename_i h
    obtain ⟨s, rfl⟩ := List.isPrefixOf_iff_prefix.mp h
    simp
  · rename_i h
    constructor
    · simp
    · rintro rfl
      exact absurd (List.isPrefixOf_iff_prefix.mpr ⟨r, rfl⟩) h

end Text

end Lettering
