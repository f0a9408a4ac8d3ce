/-! ASCII letters, digits and the cutting of texts at a separator. -/

set_option autoImplicit false

namespace Postboard.Text

def isDigit (c : Char) : Bool := 48 ≤ c.toNat && c.toNat ≤ 57

def isLetter (c : Char) : Bool :=
  (65 ≤ c.toNat && c.toNat ≤ 90) || (97 ≤ c.toNat && c.toNat ≤ 122)

/-- Lower case for `A` to `Z`; every other character stays. -/
def lower (c : Char) : Char :=
  if 65 ≤ c.toNat && c.toNat ≤ 90 then Char.ofNat (c.toNat + 32) else c

def lowered (cs : List Char) : List Char := cs.map lower

def hexValue? (c : Char) : Option Nat :=
  let n := c.toNat
  if 48 ≤ n && n ≤ 57 then some (n - 48)
  else if 97 ≤ n && n ≤ 102 then some (n - 87)
  else if 65 ≤ n && n ≤ 70 then some (n - 55)
  else none

def hexDigit (n : Nat) : Char :=
  if n < 10 then Char.ofNat (48 + n) else Char.ofNat (87 + n)

/-- The pieces between the occurrences of a separator; always at least one piece. -/
def splitAt (sep : Char) (cs : List Char) : List (List Char) :=
  let parts := cs.foldr
    (fun c acc => if c = sep then ([], acc.1 :: acc.2) else (c :: acc.1, acc.2)) ([], [])
  parts.1 :: parts.2

def cutFirst (sep : Char) (cs : List Char) : Option (List Char × List Char) :=
  match cs.dropWhile (fun c => c != sep) with
  | [] => none
  | _ :: rest => some (cs.takeWhile (fun c => c != sep), rest)

def startsWith (cs start : List Char) : Bool := start.isPrefixOf cs

/-- The text after the first occurrence of a non-empty pattern, if it occurs. -/
def afterFirst (pattern : List Char) : List Char → Option (List Char)
  | [] => none
  | c :: rest =>
    if pattern.isPrefixOf (c :: rest) then some ((c :: rest).drop pattern.length)
    else afterFirst pattern rest

end Postboard.Text
