import Postboard.Post.Draft
import Postboard.Text.Blank

/-! The statements that are sent to the database. Whatever varies is a parameter. -/

set_option autoImplicit false

namespace Postboard.Database

open Text

inductive Cell where
  | null
  | int (n : Int)
  | text (s : String)
  deriving DecidableEq, Repr

/-- A statement with its parameters, which stand for `$1`, `$2`, and so on. -/
structure Statement where
  sql : String
  params : List Cell
  deriving DecidableEq, Repr

namespace Statement

def begin : Statement := ⟨"BEGIN", []⟩

def commit : Statement := ⟨"COMMIT", []⟩

def rollback : Statement := ⟨"ROLLBACK", []⟩

def number (n : Int32) : Cell := .int n.toInt

def insertPost (author : Int32) (draft : Post.Draft) : Statement where
  sql := "insert into posts (title, url, body, author_id) values ($1, $2, $3, $4) returning id"
  params := [.text draft.title, .text draft.url, .text draft.body, number author]

def updatePost (post : Int32) (draft : Post.Draft) : Statement where
  sql := "update posts set title = $1, url = $2, body = $3 where id = $4"
  params := [.text draft.title, .text draft.url, .text draft.body, number post]

def deleteUpvotes (post : Int32) : Statement where
  sql := "delete from upvotes where post_id = $1"
  params := [number post]

def deletePost (post : Int32) : Statement where
  sql := "delete from posts where id = $1"
  params := [number post]

def insertUpvote (user post : Int32) : Statement where
  sql := "insert into upvotes (post_id, user_id) values ($1, $2) returning id"
  params := [number post, number user]

def insertUser (user : Int32) (name : String) : Statement where
  sql := "insert into users (id, name) values ($1, $2) on conflict (id) do nothing"
  params := [number user, .text name]

def ping : Statement := ⟨"select 1", []⟩

def tables : Statement where
  sql := "select table_name::text from information_schema.tables where table_schema = 'public' " ++
    "and table_name in ('posts', 'upvotes', 'users')"
  params := []

def countUpvotes (post : Int32) : Statement where
  sql := "select count(*)::bigint from upvotes where post_id = $1"
  params := [number post]

def posts (limit : Int64) : Statement where
  sql := "select p.id, p.title, p.url, p.body, " ++
    "(select u.name from users u where u.id = p.author_id limit 1) as author, " ++
    "(select count(v.id) from upvotes v where v.post_id = p.id) as upvotes " ++
    "from posts p order by upvotes desc, p.id asc limit $1"
  params := [.int limit.toInt]

/-- The tables of the service. An upvote does not vanish with its post by itself. -/
def createTables : Statement where
  sql := String.intercalate "\n"
    ["-- Authoritative store schema for DB-backed tests.",
     "-- Upvotes reference posts without ON DELETE CASCADE: the gateway removes",
     "-- dependent upvotes itself before deleting a post.",
     "",
     "create table if not exists users (",
     "  id    serial primary key,",
     "  name  text not null",
     ");",
     "",
     "create table if not exists posts (",
     "  id         serial primary key,",
     "  title      text not null,",
     "  url        text not null default '',",
     "  body       text not null,",
     "  author_id  integer not null references users (id)",
     ");",
     "",
     "create table if not exists upvotes (",
     "  id       serial primary key,",
     "  post_id  integer not null references posts (id),",
     "  user_id  integer not null references users (id)",
     ");",
     "",
     "create index if not exists upvotes_post_id_idx on upvotes (post_id);",
     ""]
  params := []

/-! ### Display -/

def words : List Char → List (List Char)
  | [] => []
  | c :: rest =>
    if isBlank c then [] :: words rest
    else
      match words rest with
      | [] => [[c]]
      | w :: ws => (c :: w) :: ws

def line (s : Statement) : String :=
  String.intercalate " " ((words s.sql.toList).filterMap fun w =>
    if w.isEmpty then none else some (String.ofList w))

end Statement

end Postboard.Database
