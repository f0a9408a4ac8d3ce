import Postboard.Assoc
import Postboard.Post.Gateway
import Postboard.Text.Decimal

/-! Posts, users and upvotes in memory.

A post has an author and an upvote a post and a user, and these have to exist when the row is made.
Posts and upvotes are numbered from one; a number is given once. A store can be broken on purpose:
then every mutation fails.
-/

set_option autoImplicit false

namespace Postboard

structure Store.Stored where
  draft : Post.Draft
  author : Int32
  deriving DecidableEq, Repr

structure Store.Vote where
  post : Int32
  user : Int32
  deriving DecidableEq, Repr

/-- The tables by number, the numbers that were given last, and the message of every mutation once the
store is broken. -/
structure Store where
  users : List (Int32 × String)
  posts : List (Int32 × Store.Stored)
  upvotes : List (Int32 × Store.Vote)
  lastPost : Int32
  lastUpvote : Int32
  lastStream : UInt64
  broken : Option String
  deriving DecidableEq, Repr

namespace Store

open Text

inductive Error where
  | broken (message : String)
  | noAuthor (user : Int32)
  | noPost (post : Int32)
  | noUser (user : Int32)
  deriving DecidableEq, Repr

def Error.message : Error → String
  | .broken message => message
  | .noAuthor user =>
    "create_post failed: author " ++ Decimal.ofInt user.toInt ++ " does not exist"
  | .noPost post => "upvote_post failed: post " ++ Decimal.ofInt post.toInt ++ " does not exist"
  | .noUser user => "upvote_post failed: user " ++ Decimal.ofInt user.toInt ++ " does not exist"

def empty : Store := ⟨[], [], [], 0, 0, 0, none⟩

/-- Enter a user; the last name of a number counts. -/
def withUser (s : Store) (id : Int32) (name : String) : Store :=
  { s with users := Assoc.insert id name s.users }

def breakWith (s : Store) (message : String) : Store := { s with broken := some message }

def hasPost (s : Store) (id : Int32) : Bool := Assoc.contains id s.posts

def hasUser (s : Store) (id : Int32) : Bool := Assoc.contains id s.users

def upvotesOf (s : Store) (post : Int32) : List (Int32 × Vote) :=
  s.upvotes.filter fun e => e.2.post = post

/-! ### Mutations -/

def mutate {α : Type} (s : Store) (f : Store → Except Error α × Store) : Except Error α × Store :=
  match s.broken with
  -- This comes before the mutation looks at anything, so a broken store stays as it is.
  | some message => (.error (.broken message), s)
  | none => f s

def create (author : Int32) (draft : Post.Draft) (s : Store) : Except Error Int32 × Store :=
  s.mutate fun s =>
    if s.hasUser author then
      let id := s.lastPost + 1
      (.ok id, { s with posts := Assoc.insert id ⟨draft, author⟩ s.posts, lastPost := id })
    else (.error (.noAuthor author), s)

def update (id : Int32) (draft : Post.Draft) (s : Store) : Except Error Bool × Store :=
  s.mutate fun s =>
    match Assoc.find? id s.posts with
    | some p => (.ok true, { s with posts := Assoc.insert id { p with draft := draft } s.posts })
    | none => (.ok false, s)

def delete (id : Int32) (s : Store) : Except Error Post.Deletion × Store :=
  s.mutate fun s =>
    (.ok ⟨(s.upvotesOf id).length, s.hasPost id⟩,
      { s with
        posts := Assoc.erase id s.posts
        upvotes := s.upvotes.filter fun e => e.2.post ≠ id })

/-- Upvote a post. The post is looked for before the user. -/
def upvote (user post : Int32) (s : Store) : Except Error Int32 × Store :=
  s.mutate fun s =>
    if !s.hasPost post then (.error (.noPost post), s)
    else if !s.hasUser user then (.error (.noUser user), s)
    else
      let id := s.lastUpvote + 1
      (.ok id, { s with upvotes := Assoc.insert id ⟨post, user⟩ s.upvotes, lastUpvote := id })

def gateway : Post.Gateway Store Error := ⟨create, update, delete, upvote⟩

end Store

end Postboard
