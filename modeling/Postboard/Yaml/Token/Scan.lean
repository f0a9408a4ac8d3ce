import Postboard.Yaml.Token.Scalar
import Postboard.Yaml.Token.Tag

/-! The tokens of a text.

A mapping key is known only by the colon behind it. So the place where a key may begin is kept for
each open flow collection and for the block around them, and when the colon comes on the same line
and within 1024 characters, a key token, and for a new block mapping its opening, is put in at that
place. Block collections open and close with the indentation.
-/

set_option autoImplicit false

namespace Postboard.Yaml

/-- A place where a key may begin, with the number of tokens before it. The text is wrong when none
begins at a required place. -/
structure KeyPlace where
  tokens : Nat
  index : Nat
  line : Nat
  column : Nat
  required : Bool

/-- The state of the scanner. The tokens are reversed, `outer` is the key places of the collections
around the innermost one, and `indent` is the column of the innermost block, -1 outside of all. -/
structure Scanner where
  cursor : Cursor
  tokens : List Token
  count : Nat
  keyAllowed : Bool
  key? : Option KeyPlace
  outer : List (Option KeyPlace)
  indent : Int
  indents : List Int

namespace Scanner

def start (cs : List Char) : Scanner := ⟨.start cs, [], 0, true, none, [], -1, []⟩

def inFlow (s : Scanner) : Bool := !s.outer.isEmpty

def push (t : Token) (s : Scanner) : Scanner :=
  { s with tokens := t :: s.tokens, count := s.count + 1 }

/-- Put a token in behind the first `n`. -/
def insert (n : Nat) (t : Token) (s : Scanner) : Scanner :=
  let back := s.count - n
  { s with
    tokens := s.tokens.take back ++ t :: s.tokens.drop back
    count := s.count + 1 }

/-- Go over spaces, comments and line ends. A tab does not count as space where a key may begin in a
block. -/
def toToken : Nat → Scanner → Scanner
  | 0, s => s
  | fuel + 1, s =>
    let c := s.cursor
    let c := if c.column = 0 && nextIs (·.toNat = 0xFEFF) c.rest then c.skip 1 else c
    let tabs := s.inFlow || !s.keyAllowed
    let c := (c.span fun x => x = ' ' || tabs && x = '\t').2.skipComment
    if nextIs isBreak c.rest then
      toToken fuel { s with cursor := c.lineBreak.2, keyAllowed := s.keyAllowed || !s.inFlow }
    else { s with cursor := c }

/-- Whether a place is too far behind for a key. -/
def isStale (c : Cursor) (k : KeyPlace) : Bool := k.line < c.line || k.index + 1024 < c.index

def refresh (c : Cursor) : Option KeyPlace → Option (Option KeyPlace)
  | none => some none
  | some k => if isStale c k then (if k.required then none else some none) else some (some k)

def dropStale (s : Scanner) : Option Scanner := do
  let key ← refresh s.cursor s.key?
  let outer ← s.outer.mapM (refresh s.cursor)
  some { s with key? := key, outer := outer }

def dropKey (s : Scanner) : Option Scanner :=
  match s.key? with
  | some k => if k.required then none else some { s with key? := none }
  | none => some s

def saveKey (s : Scanner) : Option Scanner :=
  let c := s.cursor
  if s.keyAllowed then do
    let required := !s.inFlow && s.indent = c.column
    let s ← s.dropKey
    some { s with key? := some ⟨s.count, c.index, c.line, c.column, required⟩ }
  else some s

def unroll (column : Int) (s : Scanner) : Scanner :=
  if s.inFlow then s
  else
    let inside := (s.indent :: s.indents).takeWhile (column < ·)
    match (s.indent :: s.indents).drop inside.length with
    | indent :: indents =>
      { s with
        tokens := List.replicate inside.length .blockEnd ++ s.tokens
        count := s.count + inside.length
        indent := indent
        indents := indents }
    | [] => s

/-- Open a block collection at a column behind the innermost one, with its token put in behind the
first `n`. -/
def roll (column : Nat) (n : Nat) (t : Token) (s : Scanner) : Scanner :=
  if !s.inFlow && s.indent < column then
    { s.insert n t with indent := column, indents := s.indent :: s.indents }
  else s

def indicator (n : Nat) (t : Token) (s : Scanner) : Scanner :=
  { s with cursor := s.cursor.skip n }.push t

def outside (s : Scanner) : Option Scanner := do
  let s ← (s.unroll (-1)).dropKey
  some { s with keyAllowed := false }

def flowStart (t : Token) (s : Scanner) : Option Scanner := do
  let s ← s.saveKey
  some <| { s with key? := none, outer := s.key? :: s.outer, keyAllowed := true }.indicator 1 t

def flowEnd (t : Token) (s : Scanner) : Option Scanner := do
  let s ← s.dropKey
  let s := match s.outer with
    | key :: outer => { s with key? := key, outer := outer }
    | [] => s
  some <| { s with keyAllowed := false }.indicator 1 t

def itemDash (s : Scanner) : Option Scanner := do
  if !s.inFlow && !s.keyAllowed then none
  else
    let s ← (s.roll s.cursor.column s.count .blockSequence).dropKey
    some <| { s with keyAllowed := true }.indicator 1 .item

def keyMark (s : Scanner) : Option Scanner := do
  if !s.inFlow && !s.keyAllowed then none
  else
    let s ← (s.roll s.cursor.column s.count .blockMapping).dropKey
    some <| { s with keyAllowed := !s.inFlow }.indicator 1 .key

def valueMark (s : Scanner) : Option Scanner :=
  match s.key? with
  | some k =>
    let s := (s.insert k.tokens .key).roll k.column k.tokens .blockMapping
    some <| { s with key? := none, keyAllowed := false }.indicator 1 .value
  | none =>
    if !s.inFlow && !s.keyAllowed then none
    else
      let s := s.roll s.cursor.column s.count .blockMapping
      some <| { s with keyAllowed := !s.inFlow }.indicator 1 .value

def content (n : Nat) (read : Cursor → Option (Token × Cursor)) (s : Scanner) :
    Option Scanner := do
  let s ← s.saveKey
  let (t, c) ← read (s.cursor.skip n)
  some ({ s with cursor := c, keyAllowed := false }.push t)

def blockScalar (literal : Bool) (s : Scanner) : Option Scanner := do
  let s ← s.dropKey
  let (cs, c) ← Scalar.block literal s.indent (s.cursor.skip 1)
  some ({ s with cursor := c, keyAllowed := true }.push (.scalar cs false))

/-- A plain scalar. Behind one that has reached into the next line a key may begin. -/
def plainScalar (s : Scanner) : Option Scanner := do
  let s ← s.saveKey
  let (cs, broken, c) ← Scalar.plain s.inFlow (s.indent + 1) s.cursor
  some ({ s with cursor := c, keyAllowed := broken }.push (.scalar cs true))

def beginsPlain (x : Char) : Bool :=
  !(isGap x || isBreak x || isFlowIndicator x ||
    ['#', '&', '*', '!', '|', '>', '\'', '"', '%', '@', Char.ofNat 0x60].contains x)

def token (x : Char) (rest : List Char) (s : Scanner) : Option Scanner :=
  let named (f : List Char → Token) (c : Cursor) := (Token.name c).map fun r => (f r.1, r.2)
  let quoted (single : Bool) (c : Cursor) :=
    (Scalar.quoted single c).map fun r => (Token.scalar r.1 false, r.2)
  if s.cursor.column = 0 && x = '%' then do
    let s ← s.outside
    let (t, c) ← Token.directive s.cursor
    some ({ s with cursor := c }.push t)
  else if s.cursor.atMarker '-' then s.outside.map (indicator 3 .documentStart)
  else if s.cursor.atMarker '.' then s.outside.map (indicator 3 .documentEnd)
  else if x = '[' then s.flowStart .flowSequence
  else if x = '\x7b' then s.flowStart .flowMapping
  else if x = ']' then s.flowEnd .flowSequenceEnd
  else if x = '\x7d' then s.flowEnd .flowMappingEnd
  else if x = ',' then
    s.dropKey.map fun s => { s with keyAllowed := true }.indicator 1 .comma
  else if x = '-' && atWordEnd rest then s.itemDash
  else if x = '?' && (s.inFlow || atWordEnd rest) then s.keyMark
  else if x = ':' && (s.inFlow || atWordEnd rest) then s.valueMark
  else if x = '*' then s.content 1 (named .alias)
  else if x = '&' then s.content 1 (named .anchor)
  else if x = '!' then
    s.content 0 fun c => (TagText.scan s.inFlow c).map fun r => (Token.tag r.1, r.2)
  else if x = '|' && !s.inFlow then s.blockScalar true
  else if x = '>' && !s.inFlow then s.blockScalar false
  else if x = '\'' then s.content 1 (quoted true)
  else if x = '"' then s.content 1 (quoted false)
  else if x = '-' || x = '?' || x = ':' || beginsPlain x then s.plainScalar
  else none

def run : Nat → Scanner → Option (List Token)
  | 0, _ => none
  | fuel + 1, s => do
    let s ← (s.toToken (s.cursor.left + 1)).dropStale
    let s := s.unroll s.cursor.column
    match s.cursor.rest with
    | [] =>
      let s ← (s.unroll (-1)).dropKey
      some s.tokens.reverse
    | x :: rest =>
      let s ← s.token x rest
      run fuel s

end Scanner

def Token.ofText (cs : List Char) : Option (List Token) :=
  if cs.all isAllowed then Scanner.run (cs.length + 2) (.start cs) else none

end Postboard.Yaml
