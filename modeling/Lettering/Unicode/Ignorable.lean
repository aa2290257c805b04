/-!
# Ignorable characters

Characters that take no room unless a font is made for them: joiners, direction
marks, variation selectors and the like.
-/

namespace Lettering

namespace Unicode

/-- Whether a character is shown as nothing by default. -/
def isIgnorable (c : Char) : Bool :=
  let n := c.toNat
  n == 0xAD || n == 0x34F || n == 0x61C || (0x17B4 ≤ n && n ≤ 0x17B5)
    || (0x180B ≤ n && n ≤ 0x180E) || (0x200B ≤ n && n ≤ 0x200F) || (0x202A ≤ n && n ≤ 0x202E)
    || (0x2060 ≤ n && n ≤ 0x206F) || (0xFE00 ≤ n && n ≤ 0xFE0F) || n == 0xFEFF
    || (0xFFF0 ≤ n && n ≤ 0xFFF8) || (0x1D173 ≤ n && n ≤ 0x1D17A)
    || (0xE0000 ≤ n && n ≤ 0xE0FFF)

/-- Whether an ignorable character still separates its neighbours: the selectors
    of Mongolian variants, tags, and the grapheme joiner. -/
def isSeparating (c : Char) : Bool :=
  let n := c.toNat
  (0x180B ≤ n && n ≤ 0x180D) || (0xE0020 ≤ n && n ≤ 0xE007F) || n == 0x34F

end Unicode

end Lettering
