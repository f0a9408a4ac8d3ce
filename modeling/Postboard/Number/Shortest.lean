import Postboard.Number.Double

/-! The shortest decimal text of a double.

Of the decimal numbers that read back as the double, one with the fewest digits is written, and of
those the nearest. A magnitude from `1e-5` to below `1e16` is written with a point and at least one
digit on each side; any other with one digit before the point and an exponent.
-/

set_option autoImplicit false

namespace Postboard.Number.Shortest

open Text

/-- A decimal magnitude: digits with a point in front of them, shifted by a power of ten. -/
structure Digits where
  digits : List Char
  point : Int
  deriving DecidableEq, Repr

def stripZeros (cs : List Char) : List Char := (cs.reverse.dropWhile (· == '0')).reverse

/-- The place of the first digit: the least `p` with the magnitude below `10 ^ p`. -/
def place (index : Nat) : Int :=
  (Decimal.digits (Format.double.units index * Nat.pow 10 400 / Nat.pow 2 1074)).length - 400

/-- Whether `c` steps, of which `den` steps are `num`, read back as the double. The ends of the
interval belong to it when the index is even. -/
def fits (index : Nat) (scale den c : Nat) : Bool :=
  let u := Format.double.units index
  let low := (Format.double.units (index - 1) + u) * scale
  let high := (u + Format.double.units (index + 1)) * scale
  if index % 2 = 0 then low ≤ 2 * c * den && 2 * c * den ≤ high
  else low < 2 * c * den && 2 * c * den < high

def onGrid? (index : Nat) (scale den : Nat) : Option Nat :=
  let num := Format.double.units index * scale
  let below := num / den
  let r := num % den
  let above := below + 1
  let preferAbove := den < 2 * r || (den == 2 * r && below % 2 == 1)
  match fits index scale den below, fits index scale den above with
  | true, true => some (if preferAbove then above else below)
  | true, false => some below
  | false, true => some above
  | false, false => none

/-- Try the grids of `n`, `n + 1`, … digits, as many as `left` of them. -/
def search (index : Nat) (p : Int) : Nat → Nat → Digits
  | 0, _ => ⟨[], p⟩
  | left + 1, n =>
    let down := n - p
    let scale := Nat.pow 10 down.toNat
    let den := Nat.pow 2 1074 * Nat.pow 10 (-down).toNat
    match onGrid? index scale den with
    | some c =>
      let ds := Decimal.digits c
      ⟨stripZeros ds, ds.length - down⟩
    | none => search index p left (n + 1)

/-- The digits of a magnitude that is not zero. Seventeen always suffice. -/
def digits (index : Nat) : Digits := search index (place index) 17 1

def layout (d : Digits) : List Char :=
  let n : Int := d.digits.length
  let k := d.point
  if 0 < k && k ≤ 16 then
    if n ≤ k then d.digits ++ List.replicate (k - n).toNat '0' ++ ['.', '0']
    else d.digits.take k.toNat ++ '.' :: d.digits.drop k.toNat
  else if -5 < k && k ≤ 0 then '0' :: '.' :: List.replicate (-k).toNat '0' ++ d.digits
  else
    let tail := match d.digits.drop 1 with
      | [] => []
      | more => '.' :: more
    let e := k - 1
    d.digits.take 1 ++ tail ++ ['e', if e < 0 then '-' else '+'] ++ Decimal.digits e.natAbs

def text (d : Double) : List Char :=
  let body := if d.index = 0 then ['0', '.', '0'] else layout (digits d.index)
  if d.negative then '-' :: body else body

end Postboard.Number.Shortest
