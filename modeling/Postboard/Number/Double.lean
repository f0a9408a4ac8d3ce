import Postboard.Number.Scientific

/-! Finite eight-byte floating-point numbers.

A double is a sign and the index of its magnitude, so equal doubles have equal bits and the two
zeros differ. Multiplication and division by a power of ten go through the nearest double of that
power, as the reader of JSON numbers needs them.
-/

set_option autoImplicit false

namespace Postboard.Number

structure Double where
  negative : Bool
  index : Nat
  finite : index < 0x7FF0000000000000
  deriving DecidableEq

namespace Double

def zero (negative : Bool) : Double := ⟨negative, 0, by decide⟩

def ofIndex? (negative : Bool) (index : Nat) : Option Double :=
  if h : index < 0x7FF0000000000000 then some ⟨negative, index, h⟩ else none

def ofScientific? (s : Scientific) : Option Double :=
  (s.index? Format.double).bind (ofIndex? s.negative)

def units (d : Double) : Nat := Format.double.units d.index

def powerIndex (k : Nat) : Nat := Format.double.round (Nat.pow 10 k) 1

def timesPower (index k : Nat) : Nat :=
  Format.double.round (Format.double.units index * Format.double.units (powerIndex k))
    (Nat.pow 2 2148)

def overPower (index k : Nat) : Nat :=
  Format.double.round (Format.double.units index) (Format.double.units (powerIndex k))

/-- Scale a magnitude by a negative power of ten, 308 places at a time. After two such steps nothing
is left of a magnitude below `10 ^ 20`, so three are enough. -/
def scaleDown : Nat → Nat → Nat → Nat
  | 0, _, _ => 0
  | steps + 1, index, places =>
    if places ≤ 308 then overPower index places
    else scaleDown steps (overPower index 308) (places - 308)

/-- Scale a whole number below `2 ^ 64` by a power of ten, rounding at each step: first the number,
then the product or quotient. Nothing when the result is too large. -/
def ofParts? (negative : Bool) (significand : Nat) (exponent : Int) : Option Double :=
  let index := Format.double.round significand 1
  if exponent < 0 then ofIndex? negative (scaleDown 3 index (-exponent).toNat)
  else if index = 0 then some (zero negative)
  else if 308 < exponent then none
  else ofIndex? negative (timesPower index exponent.toNat)

end Double

end Postboard.Number
