import Postboard.Text.Ascii

/-! Integers in decimal: writing, and reading with bounds. -/

set_option autoImplicit false

namespace Postboard.Text.Decimal

def digit (n : Nat) : Char := Char.ofNat (48 + n % 10)

/-- Digits of `n` in front of a text; `fuel` bounds their number. -/
def digitsOnto : Nat → Nat → List Char → List Char
  | 0, _, acc => acc
  | fuel + 1, n, acc =>
    if n < 10 then digit n :: acc else digitsOnto fuel (n / 10) (digit n :: acc)

def digits (n : Nat) : List Char := digitsOnto (n + 1) n []

def ofNat (n : Nat) : String := String.ofList (digits n)

def ofInt (n : Int) : String :=
  if n < 0 then String.ofList ('-' :: digits n.natAbs) else ofNat n.natAbs

def digitValue (c : Char) : Nat := c.toNat - 48

def value (cs : List Char) : Nat := cs.foldl (fun n c => n * 10 + digitValue c) 0

def natOf? (cs : List Char) : Option Nat :=
  if cs ≠ [] && cs.all isDigit then some (value cs) else none

/-- Read a signed number: an optional `+` or `-`, then one or more digits. -/
def intOf? (cs : List Char) : Option Int :=
  match cs with
  | '-' :: rest => (natOf? rest).map fun n => -(n : Int)
  | '+' :: rest => (natOf? rest).map fun n => (n : Int)
  | _ => (natOf? cs).map fun n => (n : Int)

def wordOf? (bits : Nat) (cs : List Char) : Option Int :=
  match intOf? cs with
  | none => none
  | some n =>
    let bound := Int.ofNat (Nat.pow 2 (bits - 1))
    if -bound ≤ n && n < bound then some n else none

end Postboard.Text.Decimal
