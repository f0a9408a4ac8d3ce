import Postboard.Text.Utf8
import Postboard.Yaml.Token.Scan

/-! The events of a YAML document: its nodes in order, with the beginnings and ends of collections.

The grammar reads one token after the other. It stands in a state, and a stack holds the states in
which it goes on behind the nodes that are open. A node that is left out is an empty plain scalar.
-/

set_option autoImplicit false

namespace Postboard.Yaml

open Text

/-- A tag as it is meant: its bytes, with the handle expanded. -/
abbrev Tag := List UInt8

/-- An event. Aliases point to their nodes by an `α`. -/
inductive Event (α : Type) where
  | alias (target : α)
  | scalar (anchor : Option (List Char)) (tag : Option Tag) (text : List Char) (plain : Bool)
  | sequence (anchor : Option (List Char)) (tag : Option Tag)
  | sequenceEnd
  | mapping (anchor : Option (List Char)) (tag : Option Tag)
  | mappingEnd
  deriving DecidableEq, Repr

/-- Where the grammar stands. A `looseItem` is indented no deeper than the mapping around it, a `pairKey`
belongs to a mapping that is a single pair in a flow sequence, and `noFlowValue` stands behind a key
without a question mark. -/
inductive State where
  | node
  | content
  | documentEnd
  | item
  | looseItem
  | key
  | value
  | firstFlowItem
  | flowItem
  | pairKey
  | pairValue
  | pairEnd
  | firstFlowKey
  | flowKey
  | flowValue
  | noFlowValue
  deriving DecidableEq, Repr

namespace Event

/-- An event by name of an alias, and how the grammar goes on: state, stack and tokens. -/
abbrev Step := Event (List Char) × State × List State × List Token

def missing (state : State) (stack : List State) (tokens : List Token) : Option Step :=
  some (.scalar none none [] true, state, stack, tokens)

def closing (e : Event (List Char)) (stack : List State) (tokens : List Token) : Option Step :=
  match stack with
  | state :: stack => some (e, state, stack, tokens)
  | [] => none

abbrev Handles := List (List Char × List UInt8)

def expand (handles : Handles) (t : TagText) : Option Tag :=
  if t.handle = [] then some t.suffix
  else (handles.lookup t.handle).map fun start => start ++ t.suffix

def properties (handles : Handles) :
    List Token → Option (Option (List Char) × Option Tag × List Token)
  | .anchor a :: .tag t :: rest => (expand handles t).map fun t => (some a, some t, rest)
  | .tag t :: .anchor a :: rest => (expand handles t).map fun t => (some a, some t, rest)
  | .anchor a :: rest => some (some a, none, rest)
  | .tag t :: rest => (expand handles t).map fun t => (none, some t, rest)
  | tokens => some (none, none, tokens)

def openTag : Tag := [0x21]

/-- A scalar with its properties. A text under the open tag counts as untagged. -/
def ofScalar (anchor : Option (List Char)) (tag : Option Tag) (text : List Char) (plain : Bool) :
    Event (List Char) :=
  .scalar anchor (if tag = some openTag then none else tag) text plain

def bare (anchor : Option (List Char)) (tag : Option Tag) (stack : List State)
    (tokens : List Token) : Option Step :=
  if anchor.isSome || tag.isSome then closing (.scalar anchor tag [] true) stack tokens else none

/-- A node. Block collections may begin only in a block, and only there as the value of a key may a
sequence begin without deeper indentation. -/
def node (handles : Handles) (inBlock loose : Bool) (stack : List State) (tokens : List Token) :
    Option Step :=
  match tokens with
  | .alias a :: rest => closing (.alias a) stack rest
  | _ => do
    let (anchor, tag, tokens) ← properties handles tokens
    match tokens with
    | .item :: _ =>
      if loose then some (.sequence anchor tag, .looseItem, stack, tokens)
      else bare anchor tag stack tokens
    | .scalar text plain :: rest => closing (ofScalar anchor tag text plain) stack rest
    | .flowSequence :: rest => some (.sequence anchor tag, .firstFlowItem, stack, rest)
    | .flowMapping :: rest => some (.mapping anchor tag, .firstFlowKey, stack, rest)
    | .blockSequence :: rest =>
      if inBlock then some (.sequence anchor tag, .item, stack, rest)
      else bare anchor tag stack tokens
    | .blockMapping :: rest =>
      if inBlock then some (.mapping anchor tag, .key, stack, rest)
      else bare anchor tag stack tokens
    | _ => bare anchor tag stack tokens

def startsNode (without : List Token) : List Token → Bool
  | [] => true
  | t :: _ => !without.contains t

def flowItem (handles : Handles) (stack : List State) (tokens : List Token) : Option Step :=
  match tokens with
  | .key :: rest => some (.mapping none none, .pairKey, stack, rest)
  | .flowSequenceEnd :: rest => closing .sequenceEnd stack rest
  | _ => node handles false false (.flowItem :: stack) tokens

def flowKey (handles : Handles) (stack : List State) (tokens : List Token) : Option Step :=
  match tokens with
  | .key :: rest =>
    if startsNode [.value, .comma, .flowMappingEnd] rest then
      node handles false false (.flowValue :: stack) rest
    else missing .flowValue stack rest
  | .flowMappingEnd :: rest => closing .mappingEnd stack rest
  | _ => node handles false false (.noFlowValue :: stack) tokens

def step (handles : Handles) (state : State) (stack : List State) (tokens : List Token) :
    Option Step :=
  match state with
  | .node => node handles true false stack tokens
  | .content =>
    match tokens with
    | [] => closing (.scalar none none [] true) stack tokens
    | t :: _ =>
      match t with
      | .version _ _ | .tagDirective _ _ | .documentStart | .documentEnd =>
        closing (.scalar none none [] true) stack tokens
      | _ => node handles true false stack tokens
  | .documentEnd => none
  | .item =>
    match tokens with
    | .item :: rest =>
      if startsNode [.item, .blockEnd] rest then node handles true false (.item :: stack) rest
      else missing .item stack rest
    | .blockEnd :: rest => closing .sequenceEnd stack rest
    | _ => none
  | .looseItem =>
    match tokens with
    | .item :: rest =>
      if startsNode [.item, .key, .value, .blockEnd] rest then
        node handles true false (.looseItem :: stack) rest
      else missing .looseItem stack rest
    | _ => closing .sequenceEnd stack tokens
  | .key =>
    match tokens with
    | .key :: rest =>
      if startsNode [.key, .value, .blockEnd] rest then
        node handles true true (.value :: stack) rest
      else missing .value stack rest
    | .blockEnd :: rest => closing .mappingEnd stack rest
    | _ => none
  | .value =>
    match tokens with
    | .value :: rest =>
      if startsNode [.key, .value, .blockEnd] rest then
        node handles true true (.key :: stack) rest
      else missing .key stack rest
    | _ => missing .key stack tokens
  | .firstFlowItem => flowItem handles stack tokens
  | .flowItem =>
    match tokens with
    | .flowSequenceEnd :: rest => closing .sequenceEnd stack rest
    | .comma :: rest => flowItem handles stack rest
    | _ => none
  | .pairKey =>
    if startsNode [.value, .comma, .flowSequenceEnd] tokens then
      node handles false false (.pairValue :: stack) tokens
    else missing .pairValue stack (tokens.drop 1)
  | .pairValue =>
    match tokens with
    | .value :: rest =>
      if startsNode [.comma, .flowSequenceEnd] rest then
        node handles false false (.pairEnd :: stack) rest
      else missing .pairEnd stack rest
    | _ => missing .pairEnd stack tokens
  | .pairEnd => some (.mappingEnd, .flowItem, stack, tokens)
  | .firstFlowKey => flowKey handles stack tokens
  | .flowKey =>
    match tokens with
    | .flowMappingEnd :: rest => closing .mappingEnd stack rest
    | .comma :: rest => flowKey handles stack rest
    | _ => none
  | .flowValue =>
    match tokens with
    | .value :: rest =>
      if startsNode [.comma, .flowMappingEnd] rest then
        node handles false false (.flowKey :: stack) rest
      else missing .flowKey stack rest
    | _ => missing .flowKey stack tokens
  | .noFlowValue => missing .flowKey stack tokens

def run (handles : Handles) :
    Nat → List (Event (List Char)) → State → List State → List Token →
      Option (List (Event (List Char)) × List Token)
  | 0, _, _, _, _ => none
  | fuel + 1, acc, state, stack, tokens =>
    if state = .documentEnd then some (acc.reverse, tokens)
    else do
      let (e, state, stack, tokens) ← step handles state stack tokens
      run handles fuel (e :: acc) state stack tokens

def directives : Bool → Handles → List Token → Option (Handles × List Token)
  | version, handles, .version major minor :: rest =>
    if version || major ≠ 1 || (minor ≠ 1 && minor ≠ 2) then none
    else directives true handles rest
  | version, handles, .tagDirective h start :: rest =>
    if (handles.lookup h).isSome then none
    else directives version (handles ++ [(h, start)]) rest
  | _, handles, tokens => some (handles, tokens)

def standardHandles : Handles :=
  [(['!'], [0x21]), (['!', '!'], Utf8.bytes "tag:yaml.org,2002:")]

/-- More steps than the grammar takes on some tokens: no token is followed by more than four events
that take none. -/
def stepBound (tokens : List Token) : Nat := 6 * tokens.length + 16

/-- The events of the only document. A document without a marker may not have directives. -/
def ofTokens (tokens : List Token) : Option (List (Event (List Char))) :=
  match tokens with
  | [] => some []
  | _ => do
    let (given, rest) ← directives false [] tokens
    let handles := given ++ standardHandles
    let (state, rest) ←
      match rest with
      | .documentStart :: rest => some (State.content, rest)
      | _ => if rest.length = tokens.length then some (State.node, rest) else none
    let (events, rest) ← run handles (stepBound rest) [] state [.documentEnd] rest
    if rest.all (· = .documentEnd) then some events else none

end Event

end Postboard.Yaml
