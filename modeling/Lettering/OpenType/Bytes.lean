import Lettering.Power
import Lettering.Typeface.Library

/-!
# Big-endian bytes

Reading numbers and slices out of a font file. A read that would leave the data
yields nothing.
-/

namespace Lettering

namespace OpenType

/-- Font data. -/
abbrev Bytes := Typeface.Bytes

namespace Bytes

/-- The byte at `i`. -/
def byte? (b : Bytes) (i : Nat) : Option Nat :=
  if h : i < b.size then some b[i].toNat else none

/-- The unsigned 16-bit word at `i`. -/
def uint16? (b : Bytes) (i : Nat) : Option Nat := do
  let high ← byte? b i
  let low ← byte? b (i + 1)
  some (256 * high + low)

/-- The unsigned 32-bit word at `i`. -/
def uint32? (b : Bytes) (i : Nat) : Option Nat := do
  let high ← uint16? b i
  let low ← uint16? b (i + 2)
  some (65536 * high + low)

/-- An unsigned 16-bit word read as a signed one. -/
def signed16 (n : Nat) : Int := if n < 2 ^ 15 then n else (n : Int) - 2 ^ 16

/-- The signed 16-bit word at `i`. -/
def int16? (b : Bytes) (i : Nat) : Option Int := (uint16? b i).map signed16

/-- Whether `length` bytes from `start` on lie in the data. -/
def covers (b : Bytes) (start length : Nat) : Bool := start + length ≤ b.size

/-- The `length` bytes from `start` on. -/
def slice? (b : Bytes) (start length : Nat) : Option Bytes :=
  if covers b start length then some (b.extract start (start + length)) else none

/-- The bytes from `start` on. -/
def tail? (b : Bytes) (start : Nat) : Option Bytes :=
  if start ≤ b.size then some (b.extract start b.size) else none

/-- The place that `compare` finds equal among `count` entries in ascending
    order; `compare i` tells on which side of what is sought the entry `i` lies,
    and nothing if the entry cannot be read. -/
def search? (compare : Nat → Option Ordering) (count : Nat) : Option Nat :=
  if count = 0 then none else go 0 count
where
  /-- Looks among the `size` entries from `base` on. -/
  go (base size : Nat) : Option Nat :=
    if 1 < size then
      let half := size / 2
      match compare (base + half) with
      | none => none
      | some .gt => go base (size - half)
      | some _ => go (base + half) (size - half)
    else
      match compare base with
      | some .eq => some base
      | _ => none
  termination_by size

end Bytes

end OpenType

end Lettering
