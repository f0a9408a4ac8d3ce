/-! The two ways to read a view: its rows now, or a token for a live stream of them. -/

set_option autoImplicit false

namespace Postboard.Reactive

/-- Which of the two sibling endpoints of a view a request goes to. -/
inductive Mode where
  | snapshot
  | stream
  deriving DecidableEq, Repr

def Mode.endpoint : Mode → String
  | .snapshot => "snapshot"
  | .stream => "streams"

def Mode.name : Mode → String
  | .snapshot => "snapshot"
  | .stream => "stream"

end Postboard.Reactive
