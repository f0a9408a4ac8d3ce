import Postboard.Reactive.Error
import Postboard.Text.Quoted

/-! Stream handles: opaque tokens that go into a redirect path as they are. -/

set_option autoImplicit false

namespace Postboard.Reactive

open Text

def isUnreserved (c : Char) : Bool :=
  isLetter c || isDigit c || c = '-' || c = '.' || c = '_' || c = '~'

/-- A token that names a live stream: one or more unreserved characters. -/
structure Handle where
  text : String
  nonempty : text.toList ≠ []
  unreserved : text.toList.all isUnreserved = true
  deriving DecidableEq

inductive TokenFault where
  | empty
  | forbidden (c : Char)
  deriving DecidableEq, Repr

def TokenFault.reason : TokenFault → String
  | .empty => "stream token is empty"
  | .forbidden c => "stream token contains forbidden character " ++ Quoted.ofChar c

/-- The handle that a text is, or its first fault. -/
def Handle.ofString (s : String) : Except TokenFault Handle :=
  if h : s.toList = [] then .error .empty
  else match g : s.toList.find? (fun c => !isUnreserved c) with
    | some c => .error (.forbidden c)
    | none => .ok ⟨s, h, by
        rw [List.all_eq_true]
        intro c hc
        have := List.find?_eq_none.1 g c hc
        simpa using this⟩

def Handle.read (s : String) : Except Error Handle :=
  match Handle.ofString s with
  | .ok h => .ok h
  | .error f => .error (.decode f.reason)

end Postboard.Reactive
