import Lettering.Text.Basic

/-!
# Quoted text

Text inside a log record stands between quotation marks. Quotation marks,
backslashes and the characters below U+0020 are escaped, the frequent ones by a
letter and the others by their code in four hexadecimal digits; every other
character stands for itself.
-/

namespace Lettering

namespace Log

/-- The written form of a character inside quotation marks. -/
def escapeChar (c : Char) : Text :=
  if c = '\\' then ['\\', '\\']
  else if c = '"' then ['\\', '"']
  else if c = '\n' then ['\\', 'n']
  else if c = '\r' then ['\\', 'r']
  else if c = '\t' then ['\\', 't']
  else if c.toNat < 0x20 then
    ['\\', 'u', '0', '0', (c.toNat / 16).digitChar, (c.toNat % 16).digitChar]
  else [c]

/-- A text as it stands between quotation marks. -/
def escape (t : Text) : Text := t.flatMap escapeChar

/-- A text between quotation marks. -/
def quote (t : Text) : Text := '"' :: (escape t ++ ['"'])

@[simp] theorem escape_nil : escape [] = [] := rfl

@[simp] theorem escape_cons (c : Char) (t : Text) : escape (c :: t) = escapeChar c ++ escape t :=
  rfl

@[simp] theorem escape_append (s t : Text) : escape (s ++ t) = escape s ++ escape t :=
  List.flatMap_append

end Log

end Lettering
