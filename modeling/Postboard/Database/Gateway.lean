import Postboard.Database.Session
import Postboard.Post.Gateway

/-! The mutations of posts as statements to a database.

Each mutation is one statement, but for a deletion: the upvotes of a post go before the post itself,
and both go in one transaction. Each mutation is limited in time as a whole.
-/

set_option autoImplicit false

namespace Postboard.Database

open Operation

variable {σ : Type}

/-- Send a statement that gives the number of the row it has made. -/
def insertion (db : Server σ) (limit : Option Nat) (statement : Statement) : Operation σ Int32 := do
  let result ← query db limit statement
  let n ← lift result.number
  pure (Int32.ofInt n)

def createPost (db : Server σ) (limit : UInt64) (author : Int32) (draft : Post.Draft) :
    σ → Except Error Int32 × σ :=
  bounded "create_post" limit (insertion db (some limit.toNat) (.insertPost author draft))

def updatePost (db : Server σ) (limit : UInt64) (post : Int32) (draft : Post.Draft) :
    σ → Except Error Bool × σ :=
  bounded "update_post" limit do
    let result ← query db (some limit.toNat) (.updatePost post draft)
    pure (0 < result.affected)

def deletion (db : Server σ) (limit : Option Nat) (post : Int32) : Operation σ Post.Deletion := do
  let upvotes ← ask db limit (.deleteUpvotes post)
  let posts ← ask db limit (.deletePost post)
  pure ⟨upvotes.affected.toNat, 0 < posts.affected⟩

/-- Remove a post and its upvotes, or neither. -/
def deletePost (db : Server σ) (limit : UInt64) (post : Int32) :
    σ → Except Error Post.Deletion × σ :=
  bounded "delete_post" limit
    (transaction db (some limit.toNat) (deletion db (some limit.toNat) post))

def upvotePost (db : Server σ) (limit : UInt64) (user post : Int32) : σ → Except Error Int32 × σ :=
  bounded "upvote_post" limit (insertion db (some limit.toNat) (.insertUpvote user post))

/-- The database as a gateway whose mutations take at most so many milliseconds. -/
def gateway (db : Server σ) (limit : UInt64) : Post.Gateway σ Error where
  create := createPost db limit
  update := updatePost db limit
  delete := deletePost db limit
  upvote := upvotePost db limit

end Postboard.Database
