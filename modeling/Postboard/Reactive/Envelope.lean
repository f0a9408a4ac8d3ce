import Postboard.Json.Parser
import Postboard.Reactive.Handle
import Postboard.Text.Blank

/-! The two response envelopes of the backend.

A snapshot is a JSON array of pairs `[key, [object]]`, whose key is a number or a string. A stream
response is a token, bare or as a JSON string, with white space around it.
-/

set_option autoImplicit false

namespace Postboard.Reactive

open Text

inductive Key where
  | num (n : Json.Number)
  | str (s : String)
  deriving DecidableEq

def Key.json : Key → Json
  | .num n => .num n
  | .str s => .str s

def Key.ofJson? : Json → Option Key
  | .num n => some (.num n)
  | .str s => some (.str s)
  | _ => none

structure Row where
  key : Key
  value : Json.Members

/-- The rows of a view at one point in time, in the backend's order. -/
structure Snapshot where
  rows : List Row

/-- A row as clients see it: the value, with the key under `id` when it has no `id` itself. -/
def Row.flat (r : Row) : Json :=
  if Assoc.contains "id" r.value then .obj r.value
  else .obj (Assoc.insert "id" r.key.json r.value)

def Snapshot.flat (s : Snapshot) : Json := .arr (s.rows.map Row.flat)

def Row.envelope (r : Row) : Json := .arr [r.key.json, .arr [.obj r.value]]

def Snapshot.envelope (s : Snapshot) : Json := .arr (s.rows.map Row.envelope)

inductive RowFault where
  | length (n : Nat)
  | notPair (kind : String)
  | key (kind : String)
  | notValues (kind : String)
  | count (n : Nat)
  | notObject (kind : String)
  deriving DecidableEq, Repr

def RowFault.reason : RowFault → String
  | .length n => "expected [id, values] pair, got array of length " ++ Decimal.ofNat n
  | .notPair kind => "expected [id, values] pair, got " ++ kind
  | .key kind => "id must be a number or string, got " ++ kind
  | .notValues kind => "values must be an array, got " ++ kind
  | .count n => "values must hold exactly one object, got " ++ Decimal.ofNat n
  | .notObject kind => "value must be an object, got " ++ kind

inductive SnapshotFault where
  | notJson (why : Json.Malformed)
  | notArray (kind : String)
  | row (index : Nat) (fault : RowFault)
  deriving DecidableEq, Repr

def SnapshotFault.reason : SnapshotFault → String
  | .notJson why => "snapshot body is not JSON: " ++ why.message
  | .notArray kind => "snapshot envelope must be an array, got " ++ kind
  | .row index fault => "row " ++ Decimal.ofNat index ++ ": " ++ fault.reason

/-- The row that an envelope holds. The key is looked at before the values. -/
def Row.ofEnvelope : Json → Except RowFault Row
  | .arr [k, values] =>
    match Key.ofJson? k with
    | none => .error (.key k.kind)
    | some key =>
      match values with
      | .arr [.obj value] => .ok ⟨key, value⟩
      | .arr [v] => .error (.notObject v.kind)
      | .arr vs => .error (.count vs.length)
      | v => .error (.notValues v.kind)
  | .arr items => .error (.length items.length)
  | v => .error (.notPair v.kind)

/-- The rows of envelopes, in front of reversed ones; the first faulty row is reported with its
index. -/
def rowsOnto : List Row → Nat → List Json → Except SnapshotFault (List Row)
  | acc, _, [] => .ok acc.reverse
  | acc, i, v :: rest =>
    match Row.ofEnvelope v with
    | .ok r => rowsOnto (r :: acc) (i + 1) rest
    | .error f => .error (.row i f)

def Snapshot.ofEnvelope : Json → Except SnapshotFault Snapshot
  | .arr items => (rowsOnto [] 0 items).map Snapshot.mk
  | v => .error (.notArray v.kind)

def Snapshot.ofBody (body : List UInt8) : Except SnapshotFault Snapshot :=
  match Json.parse body with
  | .ok v => Snapshot.ofEnvelope v
  | .error e => .error (.notJson e)

def Snapshot.read (body : List UInt8) : Except Error Snapshot :=
  match Snapshot.ofBody body with
  | .ok s => .ok s
  | .error f => .error (.decode f.reason)

inductive StreamFault where
  | notUtf8 (fault : Utf8.Fault)
  | badString (why : Json.Malformed)
  | structured
  | token (fault : TokenFault)
  deriving DecidableEq, Repr

def utf8Reason (f : Utf8.Fault) : String :=
  match f.width with
  | some n =>
    "invalid utf-8 sequence of " ++ Decimal.ofNat n ++ " bytes from index " ++
      Decimal.ofNat f.validUpTo
  | none => "incomplete utf-8 byte sequence from index " ++ Decimal.ofNat f.validUpTo

def StreamFault.reason : StreamFault → String
  | .notUtf8 fault => "stream token is not UTF-8: " ++ utf8Reason fault
  | .badString why => "stream token is a malformed JSON string: " ++ why.message
  | .structured => "stream response is structured JSON, expected a token"
  | .token fault => fault.reason

def quotedToken (cs : List Char) : Except Json.Malformed String :=
  match Json.Parser.string (Utf8.encode cs) with
  | .ok r => Json.Parser.atEnd r
  | .error e => .error e

def tokenOf : List Char → Except StreamFault String
  | '"' :: rest =>
    match quotedToken rest with
    | .ok s => .ok s
    | .error e => .error (.badString e)
  | '[' :: _ => .error .structured
  | '\x7b' :: _ => .error .structured
  | cs => .ok (String.ofList cs)

def Handle.ofBody (body : List UInt8) : Except StreamFault Handle :=
  match Utf8.decode body with
  | .error f => .error (.notUtf8 f)
  | .ok cs =>
    match tokenOf (trim cs) with
    | .error f => .error f
    | .ok token =>
      match Handle.ofString token with
      | .ok h => .ok h
      | .error f => .error (.token f)

def Handle.readBody (body : List UInt8) : Except Error Handle :=
  match Handle.ofBody body with
  | .ok h => .ok h
  | .error f => .error (.decode f.reason)

end Postboard.Reactive
