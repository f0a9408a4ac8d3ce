import Postboard.Assoc
import Postboard.Number.Double

/-! JSON values.

A number is an integer or a finite double, and the two never coincide: `1` and `1.0` are different
values. An object is a list of members in increasing key order without repetition (`Ordered`), so
equal objects are equal lists.
-/

set_option autoImplicit false

namespace Postboard

inductive Json.Number where
  | int (n : Int)
  | double (d : Number.Double)
  deriving DecidableEq

inductive Json where
  | null
  | bool (b : Bool)
  | num (n : Json.Number)
  | str (s : String)
  | arr (items : List Json)
  | obj (members : List (String × Json))

namespace Json

instance : Inhabited Json := ⟨.null⟩

abbrev Members := List (String × Json)

def int (n : Int) : Json := .num (.int n)

def nat (n : Nat) : Json := .num (.int n)

/-- An object from members in any order; of two members with one key the last counts. -/
def object (members : Members) : Json := .obj (Assoc.ofList members)

def kind : Json → String
  | .null => "null"
  | .bool _ => "bool"
  | .num _ => "number"
  | .str _ => "string"
  | .arr _ => "array"
  | .obj _ => "object"

def str? : Json → Option String
  | .str s => some s
  | _ => none

mutual

/-- Whether the members of every object inside are in increasing key order. -/
def Ordered : Json → Prop
  | .arr items => OrderedItems items
  | .obj members => Assoc.Sorted members ∧ OrderedMembers members
  | _ => True

def OrderedItems : List Json → Prop
  | [] => True
  | v :: rest => v.Ordered ∧ OrderedItems rest

def OrderedMembers : List (String × Json) → Prop
  | [] => True
  | (_, v) :: rest => v.Ordered ∧ OrderedMembers rest

end

end Json

end Postboard
