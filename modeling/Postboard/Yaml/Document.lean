import Postboard.Assoc
import Postboard.Number.Shortest
import Postboard.Yaml.Resolve

/-! The value of a YAML document.

Collections may nest 128 deep, with aliases followed. Aliases may be followed a hundred times as
often as there are events. The keys of a mapping have to differ.
-/

set_option autoImplicit false

namespace Postboard.Yaml.Document

open Text Number

/-! ### Anchors -/

/-- The anchors of a document: a number for each name, and for each number the position of the last
node that has it. -/
structure Anchors where
  numbers : List (List Char × Nat)
  positions : List (Nat × Nat)

namespace Anchors

def none : Anchors := ⟨[], []⟩

/-- Note an anchor at a position. Its number is that of the names so far, whether it is one of them
or not. -/
def add (as : Anchors) (name : List Char) (position : Nat) : Anchors :=
  let n := as.numbers.length
  ⟨(name, n) :: as.numbers.filter (fun e => e.1 ≠ name), Assoc.insert n position as.positions⟩

def addOption (as : Anchors) (name : Option (List Char)) (position : Nat) : Anchors :=
  match name with
  | some name => as.add name position
  | .none => as

end Anchors

/-- Let aliases point to the numbers of their anchors, in front of reversed events. An anchor has to
stand before its aliases. -/
def linkOnto : Anchors → Nat → List (Event Nat) → List (Event (List Char)) →
    Option (Anchors × List (Event Nat))
  | as, _, acc, [] => some (as, acc.reverse)
  | as, i, acc, e :: rest =>
    match e with
    | .alias name => do
      let n ← as.numbers.lookup name
      linkOnto as (i + 1) (.alias n :: acc) rest
    | .scalar a tag text plain =>
      linkOnto (as.addOption a i) (i + 1) (.scalar a tag text plain :: acc) rest
    | .sequence a tag => linkOnto (as.addOption a i) (i + 1) (.sequence a tag :: acc) rest
    | .mapping a tag => linkOnto (as.addOption a i) (i + 1) (.mapping a tag :: acc) rest
    | .sequenceEnd => linkOnto as (i + 1) (.sequenceEnd :: acc) rest
    | .mappingEnd => linkOnto as (i + 1) (.mappingEnd :: acc) rest

/-! ### Values -/

structure Source where
  events : List (Event Nat)
  positions : List (Nat × Nat)

def Source.target (src : Source) (n : Nat) : Option (List (Event Nat)) :=
  (Assoc.find? n src.positions).map fun i => src.events.drop i

def Source.limit (src : Source) : Nat := src.events.length * 100

/-- What a reader of a value makes of the events at the front: the value, how often aliases have
been followed so far, and the events that are left. -/
abbrev Reading := Option (Value × Nat × List (Event Nat))

def element (src : Source) (read : Nat → List (Event Nat) → Reading) (jumps : Nat) :
    List (Event Nat) → Reading
  | .alias n :: rest => do
    if src.limit < jumps + 1 then none
    else
      let events ← src.target n
      let (v, jumps, _) ← read (jumps + 1) events
      some (v, jumps, rest)
  | events => read jumps events

def items (read : Nat → List (Event Nat) → Reading) :
    Nat → Nat → List Value → List (Event Nat) → Option (List Value × Nat × List (Event Nat))
  | 0, _, _, _ => none
  | _ + 1, jumps, acc, .sequenceEnd :: rest => some (acc.reverse, jumps, rest)
  | bound + 1, jumps, acc, events => do
    let (v, jumps, rest) ← read jumps events
    items read bound jumps (v :: acc) rest

def entries (read : Nat → List (Event Nat) → Reading) :
    Nat → Nat → List (Value × Value) → List (Event Nat) →
      Option (List (Value × Value) × Nat × List (Event Nat))
  | 0, _, _, _ => none
  | _ + 1, jumps, acc, .mappingEnd :: rest => some (acc.reverse, jumps, rest)
  | bound + 1, jumps, acc, events => do
    let (k, jumps, rest) ← read jumps events
    if Value.hasKey k acc then none
    else
      let (v, jumps, rest) ← read jumps rest
      entries read bound jumps ((k, v) :: acc) rest

def underTag (tag : Option Tag) (v : Value) : Value :=
  match Resolve.ownTag? tag with
  | some name => .tagged name v
  | none => v

/-- A value whose collections nest at most `depth` deep. -/
def value (src : Source) : Nat → Nat → List (Event Nat) → Reading
  | _, jumps, .scalar _ tag text plain :: rest => do
    let v ← Resolve.scalar tag text plain
    some (underTag tag v, jumps, rest)
  | depth + 1, jumps, .sequence _ tag :: rest => do
    let (vs, jumps, rest) ←
      items (element src (value src depth)) src.events.length jumps [] rest
    some (underTag tag (.seq vs), jumps, rest)
  | depth + 1, jumps, .mapping _ tag :: rest => do
    let (es, jumps, rest) ←
      entries (element src (value src depth)) src.events.length jumps [] rest
    some (underTag tag (.map es), jumps, rest)
  | _, _, _ => none

def maxDepth : Nat := 128

def ofEvents (events : List (Event (List Char))) : Option Value :=
  if events = [] then some .null
  else do
    let (as, events) ← linkOnto .none 0 [] events
    let src : Source := ⟨events, as.positions⟩
    let (v, _, _) ← element src (value src maxDepth) 0 events
    some v

def parse (cs : List Char) : Option Value := do
  let tokens ← Token.ofText cs
  let events ← Event.ofTokens tokens
  ofEvents events

end Document

namespace Value

/-! ### As JSON -/

def key? : Value → Option String
  | .str s => some s
  | .int n => some (Text.Decimal.ofInt n)
  | .double d => some (String.ofList (Number.Shortest.text d))
  | .bool true => some "true"
  | .bool false => some "false"
  | _ => none

mutual

/-- The JSON value that corresponds to a value; infinities and what is no number become null.
Nothing when a key is none of JSON. -/
def json? : Value → Option Json
  | .null => some .null
  | .bool b => some (.bool b)
  | .int n => some (.int n)
  | .double d => some (.num (.double d))
  | .infinite _ => some .null
  | .notNumber => some .null
  | .str s => some (.str s)
  | .seq vs => (itemsJson? vs).map Json.arr
  | .map es => (entriesJson? es).map Json.object
  | .tagged tag v =>
    (json? v).map fun j => .obj [(String.ofList ('!' :: bareTag tag), j)]

def itemsJson? : List Value → Option (List Json)
  | [] => some []
  | v :: rest => do
    let j ← json? v
    let js ← itemsJson? rest
    some (j :: js)

def entriesJson? : List (Value × Value) → Option Json.Members
  | [] => some []
  | (k, v) :: rest => do
    let key ← k.key?
    let j ← json? v
    let js ← entriesJson? rest
    some ((key, j) :: js)

end

end Value

end Postboard.Yaml
