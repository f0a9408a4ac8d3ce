import Postboard.Database.Error
import Postboard.Database.Statement

/-! Databases behind a pool of connections, as what they do with statements. -/

set_option autoImplicit false

namespace Postboard.Database

structure Result where
  rows : List (List Cell)
  affected : UInt64
  deriving DecidableEq, Repr

structure Refusal where
  code : String
  message : String
  deriving DecidableEq, Repr

/-- A database: it gives connections, takes in statements, and takes in that a transaction is given
up, and why. A connection or an answer may come later or never. -/
structure Server (σ : Type) where
  acquire : σ → Network.Arrival (Except Cause Unit) × σ
  run : Statement → σ → Network.Arrival (Except Refusal Result) × σ
  rollback : Stop → σ → σ

/-- A database that takes its answers from a list, with the statements that it has received, the
oldest first. -/
structure Script where
  answers : List (Network.Arrival (Except Refusal Result))
  received : List Statement
  deriving Repr

namespace Script

def quiet : Network.Arrival (Except Refusal Result) := .after 0 (.ok ⟨[], 0⟩)

/-- The scripted database, which always has a connection. Only statements take answers from the
list. -/
def server : Server Script where
  acquire s := (.after 0 (.ok ()), s)
  run statement s :=
    (s.answers.headD quiet,
      { s with answers := s.answers.drop 1, received := s.received ++ [statement] })
  rollback
    | .cause _, s => { s with received := s.received ++ [.rollback] }
    -- It never comes to what stands behind a statement that it does not answer.
    | .late, s => s

end Script

end Postboard.Database
