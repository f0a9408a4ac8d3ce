import Postboard.Text.Blank
import Postboard.Text.Decimal
import Postboard.Json.Printer

/-! Query descriptors: the view and the parameter that name one derived result of the backend.

A descriptor is all that is ever sent to the backend, so the limit is checked when a descriptor is
made: it is positive and at most the ceiling, which is a 32-bit number.
-/

set_option autoImplicit false

namespace Postboard.Query

open Text

inductive View where
  | posts
  deriving DecidableEq, Repr

def View.name : View → String
  | .posts => "posts"

inductive Error where
  | invalidParameter (view : View) (reason : String)
  | unknownQuery (name : String)
  deriving DecidableEq, Repr

def Error.message : Error → String
  | .invalidParameter view reason =>
    "invalid parameter for query '" ++ view.name ++ "': " ++ reason
  | .unknownQuery name => "unknown query '" ++ name ++ "'"

def Error.kind : Error → String
  | .invalidParameter .. => "invalid_parameter"
  | .unknownQuery _ => "unknown_query"

/-- The view with a name; blanks around the name do not count. -/
def View.ofName (s : String) : Except Error View :=
  let name := trimmed s
  if name = "posts" then .ok .posts else .error (.unknownQuery name)

inductive Param where
  | limit (n : UInt32)
  deriving DecidableEq, Repr

/-- A parameter as JSON: the bare number. It is the body of a request to the backend. -/
def Param.json : Param → Json
  | .limit n => .nat n.toNat

structure Descriptor where
  view : View
  param : Param
  deriving DecidableEq, Repr

namespace Descriptor

def maxLimit : UInt32 := 100

def postsBounded (limit : Int) (max : UInt32) : Except Error Descriptor :=
  if limit ≤ 0 then
    .error (.invalidParameter .posts ("limit must be positive, got " ++ Decimal.ofInt limit))
  else if (max.toNat : Int) < limit then
    .error (.invalidParameter .posts
      ("limit must be at most " ++ Decimal.ofNat max.toNat ++ ", got " ++ Decimal.ofInt limit))
  else .ok ⟨.posts, .limit (UInt32.ofNat limit.toNat)⟩

def posts (limit : Int) : Except Error Descriptor := postsBounded limit maxLimit

/-- The posts view with a limit as it stands in a query string: a 64-bit integer, blanks around it
not counting. -/
def postsFromRaw (raw : String) (max : UInt32) : Except Error Descriptor :=
  match Decimal.wordOf? 64 (trim raw.toList) with
  | some limit => postsBounded limit max
  | none => .error (.invalidParameter .posts ("limit is not an integer: '" ++ raw ++ "'"))

def display (d : Descriptor) : String :=
  match d.param with
  | .limit n => d.view.name ++ "(limit=" ++ Decimal.ofNat n.toNat ++ ")"

def json (d : Descriptor) : Json :=
  .obj [("name", .str d.view.name), ("param", d.param.json)]

end Descriptor

end Postboard.Query
