import Postboard.Text.Decimal
import Postboard.Number.Format

/-! Decimal numbers with a point and an exponent.

A written number is a sign, a significand and a power of ten. Its nearest value in a binary format
is computed exactly; a number whose first digit stands beyond the four-hundredth place is too large
or zero in every format, whatever its digits.
-/

set_option autoImplicit false

namespace Postboard.Number

/-- The number `± significand · 10 ^ exponent`. -/
structure Scientific where
  negative : Bool
  significand : Nat
  exponent : Int
  deriving DecidableEq, Repr

namespace Scientific

open Text Text.Decimal

def index? (f : Format) (s : Scientific) : Option Nat :=
  if s.significand = 0 then some 0
  else
    let place := (digits s.significand).length + s.exponent
    if 400 < place then none
    else if place < -400 then some 0
    else
      let i :=
        if 0 ≤ s.exponent then f.round (s.significand * Nat.pow 10 s.exponent.toNat) 1
        else f.round s.significand (Nat.pow 10 (-s.exponent).toNat)
      if i < f.limit then some i else none

def exponentOf? : List Char → Option Int
  | [] => some 0
  | c :: rest => if lower c = 'e' then intOf? rest else none

/-- Read digits with at most one point among them, at least one digit, and an optional exponent. -/
def unsignedOf? (negative : Bool) (cs : List Char) : Option Scientific :=
  let whole := cs.takeWhile isDigit
  let rest := cs.dropWhile isDigit
  let part := match rest with
    | '.' :: r => (r.takeWhile isDigit, r.dropWhile isDigit)
    | r => ([], r)
  if whole = [] ∧ part.1 = [] then none
  else (exponentOf? part.2).map fun e =>
    ⟨negative, value (whole ++ part.1), e - part.1.length⟩

def read? : List Char → Option Scientific
  | '-' :: rest => unsignedOf? true rest
  | '+' :: rest => unsignedOf? false rest
  | cs => unsignedOf? false cs

end Scientific

end Postboard.Number
