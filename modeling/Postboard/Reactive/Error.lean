import Postboard.Text.Decimal

/-! Failures of reading from the reactive backend. -/

set_option autoImplicit false

namespace Postboard.Reactive

open Text

inductive Error where
  | unavailable (reason : String)
  | backend (status : UInt16) (body : String)
  | decode (reason : String)
  deriving DecidableEq, Repr

namespace Error

def message : Error → String
  | .unavailable reason => "reactive backend unavailable: " ++ reason
  | .backend status body =>
    "reactive backend returned status " ++ Decimal.ofNat status.toNat ++ ": " ++ body
  | .decode reason => "reactive response decode failed: " ++ reason

def kind : Error → String
  | .unavailable _ => "backend_unavailable"
  | .backend .. => "backend_error"
  | .decode _ => "decode_error"

def status? : Error → Option UInt16
  | .backend status _ => some status
  | _ => none

end Error

end Postboard.Reactive
