import Postboard.Text.Utf8

/-! Positions in a text, counted in bytes.

A position is a boundary when a character begins there or the text ends there. A text can be cut at
boundaries only.
-/

set_option autoImplicit false

namespace Postboard.Text.Utf8

def isBoundary (bs : List UInt8) (pos : Nat) : Bool :=
  pos = 0 ||
    match bs[pos]? with
    | some b => !isTail b
    | none => pos = bs.length

/-- The first boundary on the way down from a position. There is none when the way leads below
zero. -/
def boundaryFrom (bs : List UInt8) : Nat → Option Nat
  | 0 => if isBoundary bs 0 then some 0 else none
  | pos + 1 => if isBoundary bs (pos + 1) then some (pos + 1) else boundaryFrom bs pos

/-- The part of a text before a position, or all of it when it ends earlier. There is none when the
position is inside a character. -/
def truncate (cs : List Char) (pos : Nat) : Option (List Char) :=
  let bs := encode cs
  if bs.length < pos then some cs
  else if isBoundary bs pos then decode? (bs.take pos)
  else none

end Postboard.Text.Utf8
