import Postboard.Database.Session

/-! Whether a database answers, and which of the tables of the service it has. -/

set_option autoImplicit false

namespace Postboard.Database

open Operation

structure Status where
  ok : Bool
  posts : Bool
  upvotes : Bool
  users : Bool
  deriving DecidableEq, Repr

namespace Status

def complete (s : Status) : Bool := s.posts && s.upvotes && s.users

def ofAnswers (pong : Int) (tables : List String) : Status :=
  ⟨pong = 1, tables.contains "posts", tables.contains "upvotes", tables.contains "users"⟩

end Status

variable {σ : Type}

def status (db : Server σ) (state : σ) : Except Error Status × σ :=
  let ping := do
    let result ← query db none .ping
    lift result.number
  match unbounded "status connectivity query failed" ping state with
  | (.error e, state) => (.error e, state)
  | (.ok pong, state) =>
    let tables := do
      let result ← query db none .tables
      lift (result.rows.mapM fun row => Row.text row 0 "0")
    match unbounded "status table-exists query failed" tables state with
    | (.error e, state) => (.error e, state)
    | (.ok names, state) => (.ok (.ofAnswers pong names), state)

end Postboard.Database
