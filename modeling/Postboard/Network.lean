import Postboard.Text.Decimal

/-! What a wait for another host comes to. -/

set_option autoImplicit false

namespace Postboard.Network

inductive Fault where
  | unreachable
  | refused
  deriving DecidableEq, Repr

def Fault.message : Fault → String
  | .unreachable => "Network is unreachable (os error 101)"
  | .refused => "Connection refused (os error 111)"

/-- What a wait comes to: a value after so many whole milliseconds, or nothing ever. -/
inductive Arrival (α : Type) where
  | after (delay : Nat) (value : α)
  | never
  deriving DecidableEq, Repr

namespace Arrival

variable {α : Type}

/-- The value, with the time that has passed by then, if it is there before the time is up. A limit
that is none is no limit. -/
def within (limit : Option Nat) (elapsed : Nat) : Arrival α → Option (α × Nat)
  | .never => none
  | .after delay value =>
    match limit with
    | none => some (value, elapsed + delay)
    | some n => if elapsed + delay < n then some (value, elapsed + delay) else none

end Arrival

end Postboard.Network
