import Postboard.Reactive.Remote

/-! A remote backend with canned answers, which keeps the requests that reach it. -/

set_option autoImplicit false

namespace Postboard.Reactive.Remote

inductive Answer where
  | reply (status : UInt16) (body : List UInt8)
  | close
  | short
  | hang
  deriving DecidableEq, Repr

def hasBody (status : UInt16) : Bool := status ≠ 204 && status ≠ 304

def Answer.arrival : Answer → Network.Arrival (Except Fault Response)
  | .reply status body => .after 0 (.ok ⟨status, if hasBody status then body else []⟩)
  | .close => .after 0 (.error .closed)
  | .short => .after 0 (.error .short)
  | .hang => .never

/-- A backend that has one answer, with the requests that reached it, the oldest first. -/
structure Script where
  answer : Answer
  received : List Request
  deriving DecidableEq, Repr

def target? (host url : String) : Option String :=
  let start := ("http://" ++ host).toList
  if start.isPrefixOf url.toList then some (String.ofList (url.toList.drop start.length)) else none

/-- The transport to a scripted backend on a host. Other hosts refuse, and what is no web address
cannot be sent to. -/
def Script.transport (host : String) : Transport Script where
  send request s :=
    if !("http://".toList.isPrefixOf request.url.toList) then (.after 0 (.error .address), s)
    else
      match target? host request.url with
      | some _ => (s.answer.arrival, { s with received := s.received ++ [request] })
      | none => (.after 0 (.error (.network .refused)), s)

end Postboard.Reactive.Remote
