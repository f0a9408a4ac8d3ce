import Postboard.Http.Header
import Postboard.Number.Scientific
import Postboard.Reactive.Mode
import Postboard.Text.Blank
import Postboard.Text.Utf8

/-! Negotiation between a snapshot and a stream by the `Accept` header.

A value is a list of media ranges with weights. A read streams when `text/event-stream` is
acceptable: the most specific of the classes `text/event-stream`, `text/*` and `*/*` that occurs has
no entry of weight zero. Without an `Accept` header a read is a snapshot.
-/

set_option autoImplicit false

namespace Postboard.Http

open Text Number

/-- A weight between zero and one: a four-byte floating-point number by sign and index. -/
structure Weight where
  negative : Bool
  index : Nat
  deriving DecidableEq, Repr

namespace Weight

def one : Weight := ⟨false, 0x3F800000⟩

/-- Read a weight. After rounding it has to lie between zero and one, so only zero may be
negative. -/
def read? (cs : List Char) : Option Weight :=
  match Scientific.read? cs with
  | none => none
  | some s =>
    match s.index? Format.single with
    | none => none
    | some i =>
      if i ≤ one.index && (!s.negative || i = 0) then some ⟨s.negative, i⟩ else none

def bits (w : Weight) : Nat := (if w.negative then 0x80000000 else 0) + w.index

def positive (w : Weight) : Bool := 0 < w.index

def least (a b : Weight) : Weight := if b.index < a.index then b else a

end Weight

structure MediaRange where
  essence : String
  weight : Weight
  deriving DecidableEq, Repr

namespace Accept

/-- The weight that a parameter sets: nothing when it is not `q`, and `some none` when it is but its
value is no weight. -/
def weightParam? (param : List Char) : Option (Option Weight) :=
  match cutFirst '=' param with
  | none => none
  | some (k, v) => if lowered (trim k) = ['q'] then some (Weight.read? (trim v)) else none

/-- The weight of an entry from its parameters: the last `q`, or one; nothing when any `q` is
bad. -/
def entryWeight? (params : List (List Char)) : Option Weight :=
  params.foldl
    (fun w param => match weightParam? param with
      | none => w
      | some q => w.bind fun _ => q)
    (some .one)

/-- An entry between commas. Without a slash in its type, or with a bad weight, it is dropped. -/
def entry? (cs : List Char) : Option MediaRange :=
  match splitAt ';' cs with
  | [] => none
  | first :: params =>
    let essence := lowered (trim first)
    if essence.contains '/' then
      (entryWeight? params).map fun w => ⟨String.ofList essence, w⟩
    else none

def ranges (value : List Char) : List MediaRange := (splitAt ',' value).filterMap entry?

/-- The media ranges of all values together; a value that is not readable counts as absent. -/
def allRanges (values : List (List UInt8)) : List MediaRange :=
  (values.filter isReadable).flatMap fun v => ranges (Utf8.repair v)

/-- The least weight of a class of media ranges, if it occurs. -/
def classWeight? (essence : String) (rs : List MediaRange) : Option Weight :=
  match (rs.filter (fun r => r.essence = essence)).map MediaRange.weight with
  | [] => none
  | w :: ws => some (ws.foldl Weight.least w)

def eventStream : String := "text/event-stream"

/-- The weight of the stream type under the most specific class that occurs. -/
def streamWeight? (rs : List MediaRange) : Option Weight :=
  (classWeight? eventStream rs).or ((classWeight? "text/*" rs).or (classWeight? "*/*" rs))

def mode (values : List (List UInt8)) : Reactive.Mode :=
  match streamWeight? (allRanges values) with
  | some w => if w.positive then .stream else .snapshot
  | none => .snapshot

end Accept

end Postboard.Http
