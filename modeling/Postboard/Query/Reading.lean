import Postboard.Query.Basic
import Postboard.Json.Typed

/-! View names and parameters read from JSON texts. -/

set_option autoImplicit false

namespace Postboard.Query

open Json

def quotedView (input : List UInt8) : Except Fault (View × List UInt8) :=
  match Parser.string input with
  | .error e => .error (.malformed e)
  | .ok (s, rest) =>
    if s = "posts" then .ok (.posts, rest) else .error (.misfit (.variant s "posts"))

/-- What follows the name of a view that is written as the only key of an object. -/
def closing (input : List UInt8) : Except Fault (List UInt8) :=
  match Parser.colon input with
  | .error e => .error (.malformed e)
  | .ok rest =>
    match Parser.skipSpace rest with
    | [] => .error (.malformed .endInValue)
    | b :: rest =>
      if b = 0x6E then
        match Parser.word [0x75, 0x6C, 0x6C] rest with
        | .error e => .error (.malformed e)
        | .ok rest =>
          match Parser.skipSpace rest with
          | [] => .error (.malformed .endInObject)
          | c :: rest => if c = 0x7D then .ok rest else .error (.malformed .valueExpected)
      else .error (misread (b :: rest) "unit")

/-- Read a view: a string, or an object with the name as its key and null under it. -/
def View.parse (input : List UInt8) : Except Fault View :=
  match Parser.skipSpace input with
  | [] => .error (.malformed .endInValue)
  | b :: rest =>
    if b = 0x22 then (quotedView rest).bind complete
    else if b = 0x7B then
      match Parser.skipSpace rest with
      | [] => .error (.malformed .endInValue)
      | c :: rest =>
        if c = 0x22 then
          (quotedView rest).bind fun r => (closing r.2).bind fun rest => complete (r.1, rest)
        else .error (misread (c :: rest) "variant identifier")
    else .error (.malformed .valueExpected)

def Param.ofJson? : Json → Option Param
  | .num (.int n) => if 0 ≤ n && n < 0x100000000 then some (.limit (UInt32.ofNat n.toNat)) else none
  | _ => none

/-- Read a parameter. The shape of the value is looked at before what follows it. -/
def Param.parse (input : List UInt8) : Except Fault Param :=
  match Parser.value input.length Parser.maxDepth input with
  | .error e => .error (.malformed e)
  | .ok (v, rest) =>
    match Param.ofJson? v with
    | some p => complete (p, rest)
    | none => .error (.misfit (.noAlternative "QueryParam"))

end Postboard.Query
