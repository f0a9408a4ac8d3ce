import Postboard.Text.Decimal
import Postboard.Text.Utf8
import Postboard.Yaml.Event
import Postboard.Yaml.Value

/-! What a scalar means.

A plain scalar is null, a boolean, an integer, a floating-point number or else a string; any other
scalar is a string, unless a standard tag asks for one of these types. An integer of at most 128
bits must fit in 64; a longer one counts as a floating-point number.
-/

set_option autoImplicit false

namespace Postboard.Yaml.Resolve

open Text Number

def isNull (s : String) : Bool := s = "null" || s = "Null" || s = "NULL" || s = "~"

def bool? (s : String) : Option Bool :=
  if s = "true" || s = "True" || s = "TRUE" then some true
  else if s = "false" || s = "False" || s = "FALSE" then some false
  else none

def isSign (c : Char) : Bool := c = '+' || c = '-'

def inBase? (base : Nat) (cs : List Char) : Option Nat :=
  if cs = [] then none
  else
    let step (n : Nat) (c : Char) : Option Nat :=
      (hexValue? c).bind fun d => if d < base then some (n * base + d) else none
    cs.foldlM step 0

def base? : List Char → Option (Nat × List Char)
  | '0' :: 'x' :: rest => some (16, rest)
  | '0' :: 'o' :: rest => some (8, rest)
  | '0' :: 'b' :: rest => some (2, rest)
  | _ => none

/-- Whether a scalar consists of a zero and more digits, with or without a sign. It is no number. -/
def isPadded (cs : List Char) : Bool :=
  let cs := match cs with
    | c :: rest => if isSign c then rest else cs
    | [] => []
  match cs with
  | '0' :: d :: rest => (d :: rest).all isDigit
  | _ => false

def magnitude? (cs : List Char) : Option Nat :=
  match base? cs with
  | some (base, rest) => inBase? base rest
  | none => if isPadded cs then none else inBase? 10 cs

def int? : List Char → Option Int
  | '-' :: rest => (magnitude? rest).map fun n => -(n : Int)
  | '+' :: rest => (magnitude? rest).map fun n => (n : Int)
  | cs => (magnitude? cs).map fun n => (n : Int)

def float? (cs : List Char) : Option Value :=
  let s := String.ofList cs
  let unsigned := match cs with
    | '+' :: rest => rest
    | _ => cs
  let u := String.ofList unsigned
  if cs.length ≠ unsigned.length && nextIs isSign unsigned then none
  else if u = ".inf" || u = ".Inf" || u = ".INF" then some (.infinite false)
  else if s = "-.inf" || s = "-.Inf" || s = "-.INF" then some (.infinite true)
  else if s = ".nan" || s = ".NaN" || s = ".NAN" then some .notNumber
  else ((Scientific.read? unsigned).bind Double.ofScientific?).map Value.double

def ofInt (n : Int) : Option Value :=
  if -0x8000000000000000 ≤ n ∧ n < 0x10000000000000000 then some (.int n) else none

def wideInt? (cs : List Char) : Option Int :=
  (int? cs).bind fun n =>
    if -0x80000000000000000000000000000000 ≤ n ∧ n < 0x100000000000000000000000000000000 then some n
    else none

/-- What a plain scalar without a tag means. Nothing for an integer that is out of bounds. -/
def plain (cs : List Char) : Option Value :=
  let s := String.ofList cs
  if cs = [] || isNull s then some .null
  else match bool? s with
    | some b => some (.bool b)
    | none =>
      match wideInt? cs with
      | some n => ofInt n
      | none => if isPadded cs then some (.str s) else some ((float? cs).getD (.str s))

def standardTag (name : String) : Tag := Utf8.bytes ("tag:yaml.org,2002:" ++ name)

def scalar (tag : Option Tag) (cs : List Char) (isPlain : Bool) : Option Value :=
  let s := String.ofList cs
  match tag with
  | none => if isPlain then plain cs else some (.str s)
  | some t =>
    if t = standardTag "bool" then (bool? s).map Value.bool
    else if t = standardTag "int" then (wideInt? cs).bind ofInt
    else if t = standardTag "float" then float? cs
    else if t = standardTag "null" then if isNull s then some .null else none
    else if t.head? = some 0x21 && isPlain then plain cs
    else some (.str s)

/-- The name of a tag of the application: what stands after its exclamation mark, or the mark itself
when nothing does. -/
def ownTag? : Option Tag → Option String
  | some [0x21] => some "!"
  | some (0x21 :: rest) => (Utf8.decode? rest).map String.ofList
  | _ => none

end Postboard.Yaml.Resolve
