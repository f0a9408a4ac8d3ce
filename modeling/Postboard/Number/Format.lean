/-! Binary floating-point formats and rounding to them.

The non-negative values of a format are numbered in increasing order: zero has index 0 and the next
larger value the next index, which is the bit pattern without its sign. Every value is a whole
number of units, the smallest positive value being one unit. All arithmetic is on natural numbers
and exact; `round` alone loses something, and it takes the nearest value, of two equally near ones
that of even index.
-/

set_option autoImplicit false

namespace Postboard.Number

/-- A binary format: the stored fraction bits, the power of two of which a unit is the inverse, and
the index of the first value that is too large. -/
structure Format where
  fraction : Nat
  unit : Nat
  limit : Nat

namespace Format

def double : Format := ⟨52, 1074, 0x7FF0000000000000⟩

def single : Format := ⟨23, 149, 0x7F800000⟩

def units (f : Format) (index : Nat) : Nat :=
  let step := index / Nat.pow 2 f.fraction
  let low := index % Nat.pow 2 f.fraction
  if step = 0 then low else (low + Nat.pow 2 f.fraction) * Nat.pow 2 (step - 1)

/-- The whole number nearest to a quotient; a half goes to the even neighbour. -/
def nearest (num den : Nat) : Nat :=
  let q := num / den
  let r := num % den
  if 2 * r < den then q else if den < 2 * r then q + 1 else q + q % 2

/-- The index of the value nearest to `num / den`; from `limit` on the quotient is too large. -/
def round (f : Format) (num den : Nat) : Nat :=
  let scaled := num * Nat.pow 2 f.unit
  let shift := Nat.log2 (scaled / den) - f.fraction
  shift * Nat.pow 2 f.fraction + nearest scaled (den * Nat.pow 2 shift)

end Format

end Postboard.Number
