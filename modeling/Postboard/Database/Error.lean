import Postboard.Network

/-! Failures of the database.

An error names the operation. Its chain adds the cause in the words of whoever failed, who say it
twice: once in a sentence about it, and once by itself.
-/

set_option autoImplicit false

namespace Postboard.Database

open Text

inductive Cause where
  | refused (message : String)
  | noRow
  | noValue (column : String)
  | mismatch (column : String)
  | network (f : Network.Fault)
  | busy
  deriving DecidableEq, Repr

/-- A sentence, and again what it is about. -/
def Cause.twice (sentence about : String) : String := sentence ++ ": " ++ about ++ ": " ++ about

def Cause.message : Cause → String
  | .refused message => twice "error returned from database" message
  | .noRow => "no rows returned by a query that expected to return at least one row"
  | .noValue column =>
    twice ("error occurred while decoding column " ++ column)
      "unexpected null; try decoding as an \x60Option\x60"
  | .mismatch column =>
    twice ("error occurred while decoding column " ++ column) "mismatched types"
  | .network f => twice "error communicating with database" f.message
  | .busy => "pool timed out while waiting for an open connection"

inductive Stop where
  | cause (c : Cause)
  | late
  deriving DecidableEq, Repr

inductive Error where
  | failed (operation : String) (cause : Cause)
  | timedOut (operation : String) (limit : UInt64)
  | unanswered (operation : String)
  | noAddress (name : String)
  deriving DecidableEq, Repr

namespace Error

def message : Error → String
  | .failed operation _ => operation
  | .timedOut operation limit =>
    operation ++ " timed out after " ++ Decimal.ofNat limit.toNat ++ "ms"
  | .unanswered operation => operation ++ " was not answered"
  | .noAddress name => "missing env var " ++ name

def chain (e : Error) : String :=
  match e with
  | .failed _ cause => e.message ++ ": " ++ cause.message
  | .noAddress _ => e.message ++ ": environment name not found"
  | _ => e.message

end Error

end Postboard.Database
