import Postboard.Json.Parser

/-! Reading JSON texts where a value of a certain type is wanted. -/

set_option autoImplicit false

namespace Postboard.Json

/-- A value that has to be of another type, read for the sake of the message. The parts of a list or
object are not looked at. -/
def misread (input : List UInt8) (wanted : String) : Fault :=
  match Parser.skipSpace input with
  | [] => .malformed .endInValue
  | b :: rest =>
    if b = 0x5B then .misfit (.type (.arr []) wanted)
    else if b = 0x7B then .misfit (.type (.obj []) wanted)
    else match Parser.scalar b rest with
      | .ok (v, _) => .misfit (.type v wanted)
      | .error e => .malformed e

def syntactic {α : Type} : Except Malformed α → Except Fault α
  | .ok a => .ok a
  | .error e => .error (.malformed e)

def complete {α : Type} (r : α × List UInt8) : Except Fault α := syntactic (Parser.atEnd r)

def stringValue (input : List UInt8) : Except Fault (String × List UInt8) :=
  match Parser.skipSpace input with
  | [] => .error (.malformed .endInValue)
  | b :: rest =>
    if b = 0x22 then syntactic (Parser.string rest) else .error (misread (b :: rest) "a string")

end Postboard.Json
