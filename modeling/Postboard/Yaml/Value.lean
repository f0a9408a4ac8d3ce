import Postboard.Json.Basic
import Postboard.Number.Double

/-! YAML values, and when two of them are the same key of a mapping. -/

set_option autoImplicit false

namespace Postboard.Yaml

open Number

/-- A YAML value. The entries of a mapping are in the order of the text. -/
inductive Value where
  | null
  | bool (b : Bool)
  | int (n : Int)
  | double (d : Double)
  | infinite (negative : Bool)
  | notNumber
  | str (s : String)
  | seq (items : List Value)
  | map (entries : List (Value × Value))
  | tagged (tag : String) (v : Value)

namespace Value

/-- Whether a value is null, under tags or not. -/
def isNull : Value → Bool
  | .null => true
  | .tagged _ v => isNull v
  | _ => false

/-- A tag without the exclamation mark in front, unless it is nothing else. -/
def bareTag (tag : String) : List Char :=
  match tag.toList with
  | '!' :: c :: rest => c :: rest
  | cs => cs

/-- Whether two doubles are the same number; the two zeros are. -/
def sameDouble (a b : Double) : Bool := a = b || (a.index = 0 && b.index = 0)

mutual

/-- Whether two values are the same as keys. The order of entries does not matter. -/
def same : Value → Value → Bool
  | .null, .null => true
  | .bool a, .bool b => a = b
  | .int a, .int b => a = b
  | .double a, .double b => sameDouble a b
  | .infinite a, .infinite b => a = b
  | .notNumber, .notNumber => true
  | .str a, .str b => a = b
  | .seq a, .seq b => sameItems a b
  | .map a, .map b => a.length = b.length && entriesIn b a
  | .tagged t a, .tagged u b => bareTag t = bareTag u && same a b
  | _, _ => false

def sameItems : List Value → List Value → Bool
  | [], [] => true
  | a :: as, b :: bs => same a b && sameItems as bs
  | _, _ => false

def entriesIn (others : List (Value × Value)) : List (Value × Value) → Bool
  | [] => true
  | (k, v) :: rest => others.any (fun e => same k e.1 && same v e.2) && entriesIn others rest

end

def hasKey (k : Value) (entries : List (Value × Value)) : Bool := entries.any fun e => same k e.1

end Value

end Postboard.Yaml
