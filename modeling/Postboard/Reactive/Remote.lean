import Postboard.Http.Message
import Postboard.Network
import Postboard.Reactive.Client
import Postboard.Text.Boundary

/-! The backend behind a web address.

A read is one request: the endpoint names the mode and the view, and the body is the parameter. The
status decides first: only the body of a success is decoded, as the mode demands.
-/

set_option autoImplicit false

namespace Postboard.Reactive

open Text

structure Remote where
  base : String
  timeout : UInt64
  deriving DecidableEq, Repr

namespace Remote

structure Request where
  method : Http.Method
  url : String
  contentType : String
  body : String
  deriving DecidableEq, Repr

structure Response where
  status : UInt16
  body : List UInt8
  deriving DecidableEq, Repr

inductive Fault where
  | address
  | network (f : Network.Fault)
  | closed
  | short
  deriving DecidableEq, Repr

def Fault.message (url : String) : Fault → String
  | .address => "builder error"
  | .network _ | .closed => "error sending request for url (" ++ url ++ ")"
  | .short => "request or response body error for url (" ++ url ++ ")"

/-- A way to send requests, over a state that they may change. -/
structure Transport (σ : Type) where
  send : Request → σ → Network.Arrival (Except Fault Response) × σ

/-- A transport over a network that may be down; then nothing is sent. -/
def Transport.over {σ : Type} (outage : Option Network.Fault) (t : Transport σ) : Transport σ where
  send request s :=
    match outage with
    | none => t.send request s
    | some f => (.after 0 (.error (.network f)), s)

/-- Where a view is read in a mode. Slashes at the end of the base do not count. -/
def endpoint (r : Remote) (d : Query.Descriptor) (mode : Mode) : String :=
  String.ofList (dropWhileEnd (· = '/') r.base.toList) ++ "/" ++ mode.endpoint ++ "/" ++ d.view.name

def requestFor (r : Remote) (d : Query.Descriptor) (mode : Mode) : Request where
  method := .post
  url := r.endpoint d mode
  contentType := "application/json"
  body := d.param.json.text

/-! ### Responses -/

/-- The most bytes of a failed response that an error carries. -/
def maxErrorBody : Nat := 512

/-- What an error carries of a text: all of it when it fits, and otherwise what stands before the
first boundary on the way down from the greatest size. -/
def excerpt (text : List Char) : Option (List Char) :=
  let bs := Utf8.encode text
  if maxErrorBody < bs.length then
    (Utf8.boundaryFrom bs maxErrorBody).bind fun pos => Utf8.truncate text pos
  else some text

def isSuccess (status : UInt16) : Bool := 200 ≤ status && status < 300

def decode (body : List UInt8) : Mode → Except Error Reply
  | .snapshot => (Snapshot.read body).map .snapshot
  | .stream => (Handle.readBody body).map .handle

def interpret (response : Response) (mode : Mode) : Except Error Reply :=
  if isSuccess response.status then decode response.body mode
  else
    -- Every text has an excerpt (`exists_excerpt`), so nothing ever stands in for one.
    .error (.backend response.status
      (String.ofList ((excerpt (Utf8.repair response.body)).getD [])))

def outcome (r : Remote) (url : String) (mode : Mode)
    (arrival : Network.Arrival (Except Fault Response)) : Except Error Reply :=
  match arrival.within (some r.timeout.toNat) 0 with
  | none => .error (.unavailable ("error sending request for url (" ++ url ++ ")"))
  | some (.error f, _) => .error (.unavailable (f.message url))
  | some (.ok response, _) => interpret response mode

def client {σ : Type} (t : Transport σ) (r : Remote) : Client σ where
  request d mode s :=
    let request := r.requestFor d mode
    let (arrival, s) := t.send request s
    (r.outcome request.url mode arrival, s)

end Remote

end Postboard.Reactive
