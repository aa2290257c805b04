import Lettering.Unicode.Category

/-!
# Visible quotation

For messages a text is quoted so that every character of it can be seen: those
without a visible form, and those that would join the character before them, are
written by their code in hexadecimal digits.
-/

namespace Lettering

namespace Text

/-- A code point in hexadecimal digits. -/
def ofCode (n : Nat) : Text := Nat.toDigits 16 n

/-- The visible form of a character in a quotation. -/
def visibleChar (c : Char) : Text :=
  if c = '\x00' then ['\\', '0']
  else if c = '\t' then ['\\', 't']
  else if c = '\r' then ['\\', 'r']
  else if c = '\n' then ['\\', 'n']
  else if c = '\\' then ['\\', '\\']
  else if c = '"' then ['\\', '"']
  else if Unicode.isGraphemeExtender c || !Unicode.isVisible c then
    ['\\', 'u', '{'] ++ ofCode c.toNat ++ ['}']
  else [c]

/-- A text in quotation marks, every character of it being visible. -/
def visibleQuote (t : Text) : Text := '"' :: (t.flatMap visibleChar ++ ['"'])

end Text

end Lettering
