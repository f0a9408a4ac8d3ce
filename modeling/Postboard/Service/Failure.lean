import Postboard.Http.Message
import Postboard.Json.Printer
import Postboard.Json.Record
import Postboard.Json.Struct
import Postboard.Query.Basic
import Postboard.Reactive.Error

/-! Failures of reads, as responses.

A query that cannot be made is the client's fault; a failure of the backend is told by its kind,
with the status that the backend gave. `FailureBody` is what a client takes from the body.
-/

set_option autoImplicit false

namespace Postboard.Service

inductive Failure where
  | query (e : Query.Error)
  | reactive (e : Reactive.Error)
  deriving DecidableEq, Repr

namespace Failure

def message : Failure → String
  | .query e => e.message
  | .reactive e => e.message

def kind : Failure → String
  | .query e => e.kind
  | .reactive e => e.kind

def status : Failure → Nat
  | .query _ => 400
  | .reactive (.unavailable _) => 503
  | .reactive (.backend _ _) => 502
  | .reactive (.decode _) => 500

def backendStatus? : Failure → Option UInt16
  | .query _ => none
  | .reactive e => e.status?

def body (f : Failure) : Json :=
  let given := match f.backendStatus? with
    | some n => [("backend_status", Json.nat n.toNat)]
    | none => []
  .obj ([("error", .str f.message), ("kind", .str f.kind)] ++ given)

def response (f : Failure) : Http.Response := .json f.status f.body.text

end Failure

/-! ### What a client reads -/

structure FailureBody where
  error : String
  kind : String
  backendStatus : Option UInt16
  deriving DecidableEq, Repr

namespace FailureBody

open Json

def statusOf : Json → Except Misfit (Option UInt16)
  | .null => .ok none
  | v => (readInteger 0 0xFFFF "u16" v).map fun n => some (UInt16.ofNat n.toNat)

/-- The status at the front of a text. The parts of a list or object are not looked at. -/
def statusValue (input : List UInt8) : Except Fault (Option UInt16 × List UInt8) :=
  match Parser.skipSpace input with
  | [] => .error (.malformed .endInValue)
  | b :: rest =>
    if b = 0x5B || b = 0x7B then .error (misread (b :: rest) "u16")
    else
      match Parser.scalar b rest with
      | .error e => .error (.malformed e)
      | .ok (v, rest) =>
        match statusOf v with
        | .error m => .error (.misfit m)
        | .ok n => .ok (n, rest)

structure Found where
  error : Option String
  kind : Option String
  backendStatus : Option UInt16

def Found.body (s : Found) : Except Misfit FailureBody :=
  match s.error, s.kind with
  | none, _ => .error (.missing "error")
  | _, none => .error (.missing "kind")
  | some error, some kind => .ok ⟨error, kind, s.backendStatus⟩

def struct : Struct Found FailureBody where
  name := "struct ErrorBody"
  fields :=
    [.of "error" stringValue fun v s => { s with error := some v },
     .of "kind" stringValue fun v s => { s with kind := some v },
     .of "backend_status" statusValue fun v s => { s with backendStatus := v }]
  start := ⟨none, none, none⟩
  whole := Found.body

def parse (input : List UInt8) : Except Fault FailureBody := struct.parse input

end FailureBody

end Postboard.Service
