import Postboard.Database.Session

/-! Looking into a database past the backend, and preparing it. -/

set_option autoImplicit false

namespace Postboard.Database

open Operation

variable {σ : Type}

def ensureUser (db : Server σ) (user : Int32) (name : String) : σ → Except Error Unit × σ :=
  unbounded "ensure_user failed" do
    let _ ← query db none (.insertUser user name)
    pure ()

def countUpvotes (db : Server σ) (post : Int32) : σ → Except Error Int × σ :=
  unbounded "count_upvotes failed" do
    let result ← query db none (.countUpvotes post)
    lift result.number

structure PostRow where
  id : Int32
  title : String
  url : String
  body : String
  author : Option String
  upvotes : Int
  deriving DecidableEq, Repr

/-- A post from a row; the first column at fault is told. -/
def PostRow.ofRow (r : Row) : Except Cause PostRow := do
  let id ← r.int 0 "\"id\""
  let title ← r.text 1 "\"title\""
  let url ← r.text 2 "\"url\""
  let body ← r.text 3 "\"body\""
  let author ← r.text? 4 "\"author\""
  let upvotes ← r.int 5 "\"upvotes\""
  pure ⟨Int32.ofInt id, title, url, body, author, upvotes⟩

def fetchPosts (db : Server σ) (limit : Int64) : σ → Except Error (List PostRow) × σ :=
  unbounded "fetch_posts_direct failed" do
    let result ← query db none (.posts limit)
    lift (result.rows.mapM PostRow.ofRow)

def createTables (db : Server σ) : σ → Except Error Unit × σ :=
  unbounded "apply schema.sql failed" do
    let _ ← query db none .createTables
    pure ()

end Postboard.Database
