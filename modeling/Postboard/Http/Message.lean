import Postboard.Http.Header
import Postboard.Http.Uri

/-! Requests and responses. Header names are in lower case. -/

set_option autoImplicit false

namespace Postboard.Http

open Text

inductive Method where
  | get
  | head
  | post
  | put
  | delete
  | other
  deriving DecidableEq, Repr

def Method.ofName (s : String) : Method :=
  if s = "GET" then .get
  else if s = "HEAD" then .head
  else if s = "POST" then .post
  else if s = "PUT" then .put
  else if s = "DELETE" then .delete
  else .other

structure Request where
  method : Method
  target : Target
  headers : List (String × List UInt8)
  body : List UInt8

namespace Request

def ofParts? (method uri : String) (headers : List (String × List UInt8)) (body : List UInt8) :
    Option Request :=
  if isToken method && headers.all fun h => isToken h.1 && isHeaderValue h.2 then
    (Target.parse (Utf8.bytes uri)).map fun target =>
      { method := .ofName method
        target := target
        headers := headers.map fun h => (String.ofList (lowered h.1.toList), h.2)
        body := body }
  else none

def values (r : Request) (name : String) : List (List UInt8) :=
  (r.headers.filter fun h => h.1 = name).map Prod.snd

end Request

structure Response where
  status : Nat
  contentType : Option String
  location : Option String
  allow : Option String
  body : String
  deriving DecidableEq, Repr

namespace Response

def plainType : String := "text/plain; charset=utf-8"

def jsonType : String := "application/json"

def text (status : Nat) (body : String) : Response := ⟨status, some plainType, none, none, body⟩

def json (status : Nat) (body : String) : Response := ⟨status, some jsonType, none, none, body⟩

def empty (status : Nat) : Response := ⟨status, none, none, none, ""⟩

def redirect (location : String) : Response := ⟨307, none, some location, none, ""⟩

def notAllowed (methods : String) : Response := ⟨405, none, none, some methods, ""⟩

end Response

end Postboard.Http
