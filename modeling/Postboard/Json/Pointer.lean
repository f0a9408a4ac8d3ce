import Postboard.Text.Decimal
import Postboard.Json.Basic

/-! Pointers into a JSON value (RFC 6901).

A pointer is a sequence of reference tokens, each after a slash. In a token `~0` stands for `~` and
`~1` for a slash. A token names a member of an object or, as a decimal index without leading zeros,
an item of a list. Main operations: `leaves`, the pointers to all values that hold no others, in
order, and `resolve`, the value that a pointer leads to.
-/

set_option autoImplicit false

namespace Postboard.Json.Pointer

open Text

def escape (key : List Char) : List Char :=
  key.flatMap fun c => if c = '~' then ['~', '0'] else if c = '/' then ['~', '1'] else [c]

/-- Read `~1` as a slash and then `~0` as `~`. -/
def unescape : List Char → List Char
  | '~' :: '1' :: rest => '/' :: unescape rest
  | '~' :: '0' :: rest => '~' :: unescape rest
  | c :: rest => c :: unescape rest
  | [] => []

/-- The index that a token writes: digits, without a zero in front of others. -/
def index? (token : List Char) : Option Nat :=
  match token with
  | '0' :: _ :: _ => none
  | _ => Decimal.natOf? token

def step (v : Json) (token : List Char) : Option Json :=
  match v with
  | .obj members => Assoc.find? (String.ofList (unescape token)) members
  | .arr items => (index? token).bind fun i => items[i]?
  | _ => none

def follow : Json → List (List Char) → Option Json
  | v, [] => some v
  | v, token :: rest => (step v token).bind fun v => follow v rest

def resolve (v : Json) (pointer : List Char) : Option Json :=
  match pointer with
  | [] => some v
  | '/' :: rest => follow v (splitAt '/' rest)
  | _ => none

mutual

/-- The pointers to the leaves of a value that itself is at `path`, depth first. A value that is a
leaf itself has none when it is the whole. -/
def leavesFrom (path : List Char) : Json → List (List Char)
  | .obj members => memberLeaves path members
  | .arr items => itemLeaves path 0 items
  | _ => if path = [] then [] else [path]

def itemLeaves (path : List Char) (i : Nat) : List Json → List (List Char)
  | [] => []
  | v :: rest => leavesFrom (path ++ '/' :: Decimal.digits i) v ++ itemLeaves path (i + 1) rest

def memberLeaves (path : List Char) : List (String × Json) → List (List Char)
  | [] => []
  | (k, v) :: rest => leavesFrom (path ++ '/' :: escape k.toList) v ++ memberLeaves path rest

end

def leaves (v : Json) : List (List Char) := leavesFrom [] v

end Postboard.Json.Pointer
