import Postboard.Json.Skip
import Postboard.Json.Typed

/-! Structures read from JSON texts, value by value.

A text is an object, in which no field stands twice and other members are passed over, or a list of
all fields in their order. The first fault from left to right ends the reading, and it is told with
the place where it was met.
-/

set_option autoImplicit false

namespace Postboard.Json

/-- The part of a text that a fault belongs to. -/
inductive Place where
  | whole
  | field (key : String)
  | item (index : Nat)
  deriving DecidableEq, Repr

structure PlacedFault where
  place : Place
  why : Fault

def PlacedFault.message (f : PlacedFault) : String :=
  match f.place with
  | .whole => f.why.message
  | .field key => key ++ ": " ++ f.why.message
  | .item index => "[" ++ Text.Decimal.ofNat index ++ "]: " ++ f.why.message

variable {σ α : Type}

def located (place : Place) : Except Fault α → Except PlacedFault α
  | .ok a => .ok a
  | .error why => .error ⟨place, why⟩

def broken (m : Malformed) : Except PlacedFault α := .error ⟨.whole, .malformed m⟩

def unfit (m : Misfit) : Except PlacedFault α := .error ⟨.whole, .misfit m⟩

/-- A field of a structure: its name, whether a list may end before it, and how the value at the
front of a text sets it. -/
structure TextField (σ : Type) where
  name : String
  optional : Bool
  put : σ → List UInt8 → Except Fault (σ × List UInt8)

def TextField.of {τ : Type} (name : String) (read : List UInt8 → Except Fault (τ × List UInt8))
    (set : τ → σ → σ) : TextField σ where
  name := name
  optional := false
  put := fun s input => (read input).map fun r => (set r.1 s, r.2)

/-- A structure: how messages call it, its fields in order, what there is before any of them, and
what has been read in the end. -/
structure Struct (σ α : Type) where
  name : String
  fields : List (TextField σ)
  start : σ
  whole : σ → Except Misfit α

namespace Struct

/-! ### Objects -/

/-- The value of a member, after its key. The fields that stood before are `seen`. -/
def memberValue (t : Struct σ α) (seen : List String) (s : σ) (key : String) (input : List UInt8) :
    Except PlacedFault ((List String × σ) × List UInt8) :=
  match t.fields.find? (fun f => f.name = key) with
  | some f =>
    if key ∈ seen then unfit (.duplicate key)
    else located (.field key) do
      let rest ← syntactic (Parser.colon input)
      let (s, rest) ← f.put s rest
      .ok ((key :: seen, s), rest)
  | none => located (.field key) do
    let rest ← syntactic (Parser.colon input)
    let rest ← syntactic (Parser.pass rest)
    .ok ((seen, s), rest)

/-- Members, just after the opening quote of a key. -/
def members (t : Struct σ α) :
    Nat → List String → σ → List UInt8 → Except PlacedFault (σ × List UInt8)
  | 0, _, _, _ => broken .endInObject
  | bound + 1, seen, s, input => do
    let (key, rest) ← located .whole (syntactic (Parser.string input))
    let ((seen, s), rest) ← t.memberValue seen s key rest
    match Parser.skipSpace rest with
    | [] => broken .endInObject
    | b :: rest =>
      if b = 0x7D then .ok (s, rest)
      else if b = 0x2C then
        match Parser.skipSpace rest with
        | [] => broken .endInValue
        | c :: rest =>
          if c = 0x22 then members t bound seen s rest
          else if c = 0x7D then broken .trailingComma
          else broken .keyNotString
      else broken .commaOrBraceExpected

def finish (t : Struct σ α) (s : σ) : Except PlacedFault α :=
  located .whole ((t.whole s).mapError .misfit)

def ofObject (t : Struct σ α) (input : List UInt8) : Except PlacedFault (α × List UInt8) := do
  let (s, rest) ← match Parser.skipSpace input with
    | [] => broken .endInObject
    | b :: rest =>
      if b = 0x7D then .ok (t.start, rest)
      else if b = 0x22 then t.members input.length [] t.start rest
      else broken .keyNotString
  let a ← t.finish s
  .ok (a, rest)

/-! ### Lists -/

/-- The start of the next item, or the end of the list, which stays. -/
def nextItem? (index : Nat) (input : List UInt8) : Except Malformed (Option (List UInt8)) :=
  match Parser.skipSpace input with
  | [] => .error .endInList
  | b :: rest =>
    if b = 0x5D then .ok none
    else if index = 0 then .ok (some (b :: rest))
    else if b = 0x2C then
      match Parser.skipSpace rest with
      | [] => .error .endInValue
      | c :: rest => if c = 0x5D then .error .trailingComma else .ok (some (c :: rest))
    else .error .commaOrBracketExpected

def listEnd (input : List UInt8) : Except Malformed (List UInt8) :=
  match Parser.skipSpace input with
  | [] => .error .endInList
  | b :: rest =>
    if b = 0x5D then .ok rest
    else if b = 0x2C && (Parser.skipSpace rest).head? = some 0x5D then .error .trailingComma
    else .error .trailingCharacters

/-- An item for each field, from the field with this index on. Optional fields at the end of the list
keep what they start with. -/
def items (t : Struct σ α) :
    List (TextField σ) → Nat → σ → List UInt8 → Except PlacedFault (σ × List UInt8)
  | [], _, s, input => .ok (s, input)
  | f :: fields, index, s, input => do
    match ← located (.item index) (syntactic (nextItem? index input)) with
    | none =>
      if f.optional then items t fields (index + 1) s input
      else
        let wanted := t.name ++ " with " ++ Text.Decimal.ofNat t.fields.length ++ " elements"
        unfit (.length index wanted)
    | some rest =>
      let (s, rest) ← located (.item index) (f.put s rest)
      items t fields (index + 1) s rest

def ofList (t : Struct σ α) (input : List UInt8) : Except PlacedFault (α × List UInt8) := do
  let (s, rest) ← t.items t.fields 0 t.start input
  let a ← t.finish s
  let rest ← located .whole (syntactic (listEnd rest))
  .ok (a, rest)

/-! ### Texts -/

def read (t : Struct σ α) (input : List UInt8) : Except PlacedFault (α × List UInt8) :=
  match Parser.skipSpace input with
  | [] => broken .endInValue
  | b :: rest =>
    if b = 0x5B then t.ofList rest
    else if b = 0x7B then t.ofObject rest
    else located .whole (.error (misread (b :: rest) t.name))

/-- Read a whole text. Where a fault was met is not told. -/
def parse (t : Struct σ α) (input : List UInt8) : Except Fault α :=
  match t.read input with
  | .ok r => complete r
  | .error f => .error f.why

end Struct

end Postboard.Json
