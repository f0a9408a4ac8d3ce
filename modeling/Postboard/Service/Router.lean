import Postboard.Http.Accept
import Postboard.Http.Form
import Postboard.Http.MediaType
import Postboard.Post.Reading
import Postboard.Service.Basic
import Postboard.Service.Failure

/-! The routes of the service.

Reads of `/posts` go to the backend, mutations go to the gateway, and neither looks at the other. Of
two faults of a request the one that comes first in this order is answered: path, method, number of
the post, type of the body, size of the body, text of the body.
-/

set_option autoImplicit false

namespace Postboard.Service

open Http Text

variable {σ ε : Type}

/-! ### Reads -/

/-- The limit that a query asks for, if it names one; it may do so once. -/
def limitOf (query : List UInt8) : Except Query.Error (Option String) :=
  match (formPairs query).filter fun p => p.1 = "limit" with
  | [] => .ok none
  | [p] => .ok (some p.2)
  | _ => .error (.invalidParameter .posts
      ("Failed to deserialize query string: " ++ (Json.Misfit.duplicate "limit").message))

def descriptorOf (s : Service σ ε) (query : List UInt8) : Except Query.Error Query.Descriptor :=
  -- A query that is no query is refused like a limit that is none.
  match limitOf query with
  | .error e => .error e
  | .ok (some raw) => Query.Descriptor.postsFromRaw raw s.maxLimit
  | .ok none => Query.Descriptor.postsBounded s.defaultLimit.toNat s.maxLimit

def snapshotResponse : Except Reactive.Error Reactive.Snapshot → Response
  | .ok snapshot => .json 200 snapshot.flat.text
  | .error e => (Failure.reactive e).response

/-- The response to a read of a stream: nothing, and the handling of the request breaks off, when
the place of the stream is no legal header value. -/
def streamResponse (s : Service σ ε) : Except Reactive.Error Reactive.Handle → Option Response
  | .ok handle =>
    -- The handle needs no escaping, but the configured path may be no header value.
    let location := s.streamLocation handle.text
    if isHeaderValue (Utf8.bytes location) then some (.redirect location) else none
  | .error e => some (Failure.reactive e).response

def readPosts (s : Service σ ε) (r : Request) (state : σ) : Option Response × σ :=
  match s.descriptorOf (r.target.query.getD []) with
  | .error e => (some (Failure.query e).response, state)
  | .ok d =>
    -- The backend is asked once, whatever it replies.
    match Accept.mode (r.values "accept") with
    | .stream =>
      let (reply, state) := s.client.openStream d state
      (s.streamResponse reply, state)
    | .snapshot =>
      let (reply, state) := s.client.fetchSnapshot d state
      (some (snapshotResponse reply), state)

/-! ### Mutations -/

def mutationResponse {α : Type} : Except ε α → Response
  | .ok _ => .text 200 "ok"
  | .error _ => .text 500 "not ok"

def postNumber (segment : List UInt8) : Except Response Int32 :=
  match Utf8.decode? (percentDecode segment) with
  | none => .error (.text 400 "Invalid URL: Invalid UTF-8 in \x60id\x60")
  | some cs =>
    match Decimal.wordOf? 32 cs with
    | some n => .ok (Int32.ofInt n)
    | none => .error (.text 400
        ("Invalid URL: Cannot parse \x60" ++ Quoted.ofString (String.ofList cs) ++
          "\x60 to a \x60i32\x60"))

def maxBody : Nat := 2097152

def hasJson (r : Request) : Bool :=
  match r.values "content-type" with
  | value :: _ => isReadable value && MediaType.isJson (Utf8.repair value)
  | [] => false

def draftResponse (f : Json.PlacedFault) : Response :=
  match f.why with
  | .malformed _ => .text 400 ("Failed to parse the request body as JSON: " ++ f.message)
  | .misfit _ =>
    .text 422 ("Failed to deserialize the JSON body into the target type: " ++ f.message)

/-- The draft in the body of a request. What follows it in the body does not matter. -/
def draftOf (type : String) (r : Request) : Except Response Post.Draft :=
  if !hasJson r then
    .error (.text 415 "Expected request with \x60Content-Type: application/json\x60")
  else if maxBody < r.body.length then
    .error (.text 413 "Failed to buffer the request body: length limit exceeded")
  else
    match (Post.Draft.struct type).read r.body with
    | .ok (draft, _) => .ok draft
    | .error f => .error (draftResponse f)

def createPost (s : Service σ ε) (r : Request) (state : σ) : Response × σ :=
  match draftOf Post.newPost r with
  | .error response => (response, state)
  | .ok draft =>
    let (result, state) := s.gateway.create s.principal draft state
    (mutationResponse result, state)

def updatePost (s : Service σ ε) (segment : List UInt8) (r : Request) (state : σ) :
    Response × σ :=
  match postNumber segment with
  | .error response => (response, state)
  | .ok id =>
    match draftOf Post.postFields r with
    | .error response => (response, state)
    | .ok draft =>
      let (result, state) := s.gateway.update id draft state
      (mutationResponse result, state)

def deletePost (s : Service σ ε) (segment : List UInt8) (state : σ) : Response × σ :=
  match postNumber segment with
  | .error response => (response, state)
  | .ok id =>
    let (result, state) := s.gateway.delete id state
    (mutationResponse result, state)

def upvotePost (s : Service σ ε) (segment : List UInt8) (state : σ) : Response × σ :=
  match postNumber segment with
  | .error response => (response, state)
  | .ok id =>
    let (result, state) := s.gateway.upvote s.principal id state
    (mutationResponse result, state)

/-! ### Routes -/

inductive Route where
  | posts
  | post (number : List UInt8)
  | upvotes (number : List UInt8)
  | healthcheck
  | unknown
  deriving DecidableEq, Repr

/-- The place that a path leads to. The number of a post may be empty only in front of a slash. -/
def Route.ofPath (path : List UInt8) : Route :=
  match splitBytes 0x2F path with
  | [[], first] =>
    if first = Utf8.bytes "posts" then .posts
    else if first = Utf8.bytes "healthcheck" then .healthcheck
    else .unknown
  | [[], first, number] =>
    if first = Utf8.bytes "posts" && number ≠ [] then .post number else .unknown
  | [[], first, number, last] =>
    if first = Utf8.bytes "posts" && last = Utf8.bytes "upvotes" then .upvotes number
    else .unknown
  | _ => .unknown

def withoutBody (r : Response) : Response := { r with body := "" }

def healthy : Response := .text 200 "ok"

/-- Answer a request. No response means that its handling broke off. -/
def respond (s : Service σ ε) (r : Request) (state : σ) : Option Response × σ :=
  match Route.ofPath r.target.path, r.method with
  | .posts, .get => s.readPosts r state
  | .posts, .head =>
    let (response, state) := s.readPosts r state
    (response.map withoutBody, state)
  | .posts, .post =>
    let (response, state) := s.createPost r state
    (some response, state)
  | .posts, _ => (some (.notAllowed "GET,HEAD,POST"), state)
  | .post number, .put =>
    let (response, state) := s.updatePost number r state
    (some response, state)
  | .post number, .delete =>
    let (response, state) := s.deletePost number state
    (some response, state)
  | .post _, _ => (some (.notAllowed "PUT,DELETE"), state)
  | .upvotes number, .post =>
    let (response, state) := s.upvotePost number state
    (some response, state)
  | .upvotes _, _ => (some (.notAllowed "POST"), state)
  | .healthcheck, .get => (some healthy, state)
  | .healthcheck, .head => (some (withoutBody healthy), state)
  | .healthcheck, _ => (some (.notAllowed "GET,HEAD"), state)
  | .unknown, _ => (some (.empty 404), state)

end Postboard.Service
