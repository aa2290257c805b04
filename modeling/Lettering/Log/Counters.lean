import Lettering.KeyedList
import Lettering.Power

/-!
# Counters

Named counters hold unsigned 64-bit words and stop at the largest one. A counter exists
from its first update on, even by nothing. In which order they are kept does not matter,
as they are sorted when they are listed.
-/

namespace Lettering

namespace Log

/-- The largest value of a counter. -/
def maxCount : Nat := 2 ^ 64 - 1

/-- Counters by name. -/
abbrev Counters := KeyedList String Nat

namespace Counters

/-- Adds an amount to a counter, which is made if there is none. -/
def add (c : Counters) (key : String) (amount : Nat) : Counters :=
  c.set key (min ((c.get? key).getD 0 + amount) maxCount)

/-- The counters with their values in ascending order of the names. -/
def listed (c : Counters) : List (String × Nat) := c.entries.mergeSort fun a b => a.1 ≤ b.1

end Counters

end Log

end Lettering
