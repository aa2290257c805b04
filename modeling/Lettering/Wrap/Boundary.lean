import Lettering.Text.Basic

/-!
# Break boundaries

Lines break only between units: a unit is one break character, a hyphen or a
space, or a maximal run of other characters.

* `cutUnit` takes the first unit off a text; nothing is lost (`cutUnit_append`)
  and a text that is not empty has a unit that is not empty (`cutUnit_ne_nil`).
* `skipSpaces` drops the spaces at the start of a text.
-/

namespace Lettering

namespace Wrap

/-- The spaces at which a line may break: white space except the control
    character U+0085, and the byte order mark. -/
def isSpace (c : Char) : Bool :=
  c == '\uFEFF' || (Text.isWhiteSpace c && c != '\u0085')

/-- The characters that are units of their own: hyphens and spaces. -/
def isBreak (c : Char) : Bool := c == '-' || isSpace c

/-- The first unit of a text, and what follows it. -/
def cutUnit : Text → Text × Text
  | [] => ([], [])
  | c :: r =>
    if isBreak c then ([c], r)
    else (c :: r.takeWhile (!isBreak ·), r.dropWhile (!isBreak ·))

/-- The text without the spaces at its start. -/
def skipSpaces (t : Text) : Text := t.dropWhile isSpace

/-- Taking off a unit loses nothing. -/
theorem cutUnit_append (t : Text) : (cutUnit t).1 ++ (cutUnit t).2 = t := by
  cases t with
  | nil => rfl
  | cons c r =>
    simp only [cutUnit]
    split
    · rfl
    · simp [List.takeWhile_append_dropWhile]

/-- A text that is not empty starts with a unit that is not empty. -/
theorem cutUnit_ne_nil {t : Text} (h : t ≠ []) : (cutUnit t).1 ≠ [] := by
  cases t with
  | nil => exact absurd rfl h
  | cons c r =>
    simp only [cutUnit]
    split <;> simp

theorem length_cutUnit_lt {t : Text} (h : t ≠ []) : (cutUnit t).2.length < t.length := by
  have hl := congrArg List.length (cutUnit_append t)
  have hp := List.length_pos_iff.mpr (cutUnit_ne_nil h)
  rw [List.length_append] at hl
  omega

theorem length_skipSpaces_le (t : Text) : (skipSpaces t).length ≤ t.length :=
  (List.dropWhile_sublist isSpace).length_le

end Wrap

end Lettering
