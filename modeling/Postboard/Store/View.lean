import Postboard.Reactive.Client
import Postboard.Store.Basic

/-! The posts view of a store: every post with the name of its author and the number of its upvotes,
most upvotes first, and among equals the lowest number first.
-/

set_option autoImplicit false

namespace Postboard.Store

open Text

structure Ranked where
  id : Int32
  upvotes : Nat
  post : Stored
  deriving DecidableEq, Repr

/-- Whether a row stands before another: it has more upvotes, or as many and a lower number. -/
def Ranked.before (a b : Ranked) : Bool :=
  b.upvotes < a.upvotes || (a.upvotes = b.upvotes && a.id < b.id)

def place (r : Ranked) : List Ranked → List Ranked
  | [] => [r]
  | q :: rest => if q.before r then q :: place r rest else r :: q :: rest

def ranking (s : Store) : List Ranked :=
  (s.posts.map fun e => ⟨e.1, (s.upvotesOf e.1).length, e.2⟩).foldr place []

/-- A row as the backend gives it. The name of an author who does not exist is null. -/
def row (s : Store) (r : Ranked) : Reactive.Row where
  key := .num (.int r.id.toInt)
  value :=
    [("author", match Assoc.find? r.post.author s.users with
      | some name => .str name
      | none => .null),
     ("body", .str r.post.draft.body),
     ("id", .int r.id.toInt),
     ("title", .str r.post.draft.title),
     ("upvotes", .nat r.upvotes),
     ("url", .str r.post.draft.url)]

def view (s : Store) (limit : Nat) : Reactive.Snapshot := ⟨(s.ranking.take limit).map s.row⟩

/-- The token of a stream over a view: the name of the view and a number that is given once. -/
def streamToken (view : Query.View) (n : UInt64) : String :=
  "mem-" ++ view.name ++ "-" ++ Decimal.ofNat n.toNat

def client : Reactive.Client Store where
  request d mode s :=
    match mode with
    | .snapshot =>
      match d.param with
      | .limit n => (.ok (.snapshot (s.view n.toNat)), s)
    | .stream =>
      -- Only streams use up a number.
      let n := s.lastStream + 1
      ((Reactive.Handle.read (streamToken d.view n)).map .handle, { s with lastStream := n })

end Postboard.Store
