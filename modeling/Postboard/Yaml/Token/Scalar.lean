import Postboard.Text.Utf8
import Postboard.Yaml.Token

/-! Scalars in the text: plain, quoted, and as literal or folded blocks.

In plain and quoted scalars a line break is folded: to a space when one stands alone, and to the
further breaks when there are several. A break that is no line feed stays.
-/

set_option autoImplicit false

namespace Postboard.Yaml.Scalar

open Text

/-- What lies between two words of a scalar: gaps, and if a line has ended, the first line break and
the further ones. -/
structure Between where
  gaps : List Char
  broken : Bool
  first : List Char
  more : List Char

namespace Between

def none : Between := ⟨[], false, [], []⟩

def fill (b : Between) : List Char :=
  if b.broken then
    if b.first.head? = some '\n' then
      if b.more = [] then [' '] else b.more
    else b.first ++ b.more
  else b.gaps

end Between

/-- Go over spaces, tabs and line breaks. At the beginning of a line no tab may stand in front of
the column `indent`. -/
def between (indent : Int) : Nat → Between → Cursor → Option (Between × Cursor)
  | 0, b, c => some (b, c)
  | fuel + 1, b, c =>
    match c.rest with
    | [] => some (b, c)
    | x :: _ =>
      if isGap x then
        if !b.broken then between indent fuel { b with gaps := b.gaps ++ [x] } (c.skip 1)
        else if x = '\t' && (c.column : Int) < indent then Option.none
        else between indent fuel b (c.skip 1)
      else if isBreak x then
        let (br, c) := c.lineBreak
        if b.broken then between indent fuel { b with more := b.more ++ br } c
        else between indent fuel { b with gaps := [], broken := true, first := br } c
      else some (b, c)

/-! ### Plain scalars -/

def plainWord (inFlow : Bool) : List Char → Option (List Char)
  | [] => some []
  | x :: rest =>
    if isGap x || isBreak x then some []
    else if inFlow && x = ':' && nextIs (fun y => isFlowIndicator y || y = '?') rest then none
    else if x = ':' && atWordEnd rest || inFlow && isFlowIndicator x then some []
    else (plainWord inFlow rest).map (x :: ·)

/-- A plain scalar in front of reversed text: its text, and whether a line has ended behind it. -/
def plainOnto (inFlow : Bool) (indent : Int) :
    Nat → List Char → Between → Cursor → Option (List Char × Bool × Cursor)
  | 0, _, _, _ => none
  | fuel + 1, acc, b, c =>
    if c.atDocumentMarker || nextIs (· = '#') c.rest then some (acc.reverse, b.broken, c)
    else do
      let word ← plainWord inFlow c.rest
      if word = [] then some (acc.reverse, b.broken, c)
      else
        let acc := word.reverse ++ (b.fill.reverse ++ acc)
        let (b, c) ← between indent (c.left + 1) .none (c.skip word.length)
        if c.rest = [] || (!inFlow && (c.column : Int) < indent) then
          some (acc.reverse, b.broken, c)
        else plainOnto inFlow indent fuel acc b c

/-- A plain scalar whose further lines have to stand at the column `indent` or behind it, unless it
is in a flow collection. -/
def plain (inFlow : Bool) (indent : Int) (c : Cursor) : Option (List Char × Bool × Cursor) :=
  plainOnto inFlow indent (c.left + 1) [] .none c

/-! ### Quoted scalars -/

def letterEscape? (x : Char) : Option Char :=
  match x with
  | '0' => some '\x00'
  | 'a' => some '\x07'
  | 'b' => some '\x08'
  | 't' => some '\t'
  | '\t' => some '\t'
  | 'n' => some '\n'
  | 'v' => some '\x0b'
  | 'f' => some '\x0c'
  | 'r' => some '\r'
  | 'e' => some '\x1b'
  | ' ' => some ' '
  | '"' => some '"'
  | '/' => some '/'
  | '\\' => some '\\'
  | 'N' => some (Char.ofNat 0x85)
  | '_' => some (Char.ofNat 0xA0)
  | 'L' => some (Char.ofNat 0x2028)
  | 'P' => some (Char.ofNat 0x2029)
  | _ => none

def escapeDigits? (x : Char) : Option Nat :=
  match x with
  | 'x' => some 2
  | 'u' => some 4
  | 'U' => some 8
  | _ => none

def hexNumber? (n : Nat) (cs : List Char) : Option Nat :=
  if cs.length < n then none
  else (cs.take n).foldlM (fun v x => (hexValue? x).map fun d => v * 16 + d) 0

def escape? : List Char → Option (Char × Nat)
  | [] => none
  | x :: rest =>
    match escapeDigits? x with
    | some n => do
      let v ← hexNumber? n rest
      if (0xD800 ≤ v && v ≤ 0xDFFF) || 0x10FFFF < v then none else some (Char.ofNat v, n + 1)
    | none => (letterEscape? x).map fun y => (y, 1)

/-- How the word of a quoted scalar ends. -/
inductive WordEnd where
  | open
  | quote
  | escapedBreak

def quotedWord (single : Bool) :
    Nat → List Char → Cursor → Option (List Char × WordEnd × Cursor)
  | 0, _, _ => none
  | fuel + 1, acc, c =>
    match c.rest with
    | [] => some (acc, .open, c)
    | x :: rest =>
      if isGap x || isBreak x then some (acc, .open, c)
      else if single then
        if x = '\'' then
          if nextIs (· = '\'') rest then quotedWord single fuel (x :: acc) (c.skip 2)
          else some (acc, .quote, c)
        else quotedWord single fuel (x :: acc) (c.skip 1)
      else if x = '"' then some (acc, .quote, c)
      else if x = '\\' then
        if nextIs isBreak rest then some (acc, .escapedBreak, (c.skip 1).lineBreak.2)
        else do
          let (y, n) ← escape? rest
          quotedWord single fuel (y :: acc) (c.skip (n + 1))
      else quotedWord single fuel (x :: acc) (c.skip 1)

def quotedOnto (single : Bool) : Nat → List Char → Cursor → Option (List Char × Cursor)
  | 0, _, _ => none
  | fuel + 1, acc, c =>
    if c.atDocumentMarker || c.rest = [] then none
    else do
      let (acc, ending, c) ← quotedWord single (c.left + 1) acc c
      if nextIs (· = if single then '\'' else '"') c.rest then some (acc.reverse, c.skip 1)
      else
        let start := match ending with
          | .escapedBreak => { Between.none with broken := true }
          | _ => .none
        let (b, c) ← between 0 (c.left + 1) start c
        quotedOnto single fuel (b.fill.reverse ++ acc) c

def quoted (single : Bool) (c : Cursor) : Option (List Char × Cursor) :=
  quotedOnto single (c.left + 1) [] c

/-! ### Block scalars -/

inductive Chomping where
  | strip
  | clip
  | keep
  deriving DecidableEq, Repr

def chompingOf? (x : Char) : Option Chomping :=
  if x = '+' then some .keep else if x = '-' then some .strip else none

def indentOf (x : Char) : Option Nat :=
  if x = '0' then none else some (x.toNat - 48)

/-- The header of a block after its indicator: chomping and indentation in either order. -/
def header (c : Cursor) : Option (Chomping × Option Nat × Cursor) :=
  match c.rest with
  | [] => some (.clip, none, c)
  | x :: rest =>
    match chompingOf? x with
    | some chomping =>
      match rest with
      | d :: _ =>
        if isDigit d then (indentOf d).map fun n => (chomping, some n, c.skip 2)
        else some (chomping, none, c.skip 1)
      | [] => some (chomping, none, c.skip 1)
    | none =>
      if isDigit x then do
        let n ← indentOf x
        match rest with
        | s :: _ =>
          match chompingOf? s with
          | some chomping => some (chomping, some n, c.skip 2)
          | none => some (.clip, some n, c.skip 1)
        | [] => some (.clip, some n, c.skip 1)
      else some (.clip, none, c)

/-- Go over indentation and empty lines: the line breaks, the widest indentation, and the place. A
tab may not stand where indentation is due. -/
def emptyLines (indent : Option Nat) :
    Nat → Nat → List Char → Cursor → Option (List Char × Nat × Cursor)
  | 0, _, _, _ => none
  | fuel + 1, widest, breaks, c =>
    let spaces := (c.rest.takeWhile (· = ' ')).length
    let c := c.skip (match indent with
      | some n => min spaces (n - c.column)
      | none => spaces)
    let widest := max widest c.column
    let due := match indent with
      | some n => c.column < n
      | none => true
    if due && nextIs (· = '\t') c.rest then none
    else if nextIs isBreak c.rest then
      let (br, c) := c.lineBreak
      emptyLines indent fuel widest (breaks ++ br) c
    else some (breaks, widest, c)

/-- The lines of a block with a known indentation, in front of reversed text. `first` is the break
behind the line before, `more` are the breaks of the empty lines after it, and `gap` tells whether
that line began with a space or tab. -/
def lines (literal : Bool) (indent : Nat) :
    Nat → List Char → List Char → List Char → Bool → Cursor →
      Option (List Char × List Char × List Char × Cursor)
  | 0, _, _, _, _, _ => none
  | fuel + 1, acc, first, more, gap, c =>
    if c.column = indent && c.rest ≠ [] then do
      let starts := nextIs isGap c.rest
      let folds := !literal && first.head? = some '\n' && !gap && !starts
      let joint := if folds then (if more = [] then [' '] else []) else first
      let (line, c) := c.span fun x => !isBreak x
      let acc := line.reverse ++ (more.reverse ++ (joint.reverse ++ acc))
      let (first, c) := c.lineBreak
      let (more, _, c) ← emptyLines (some indent) (c.left + 1) 0 [] c
      lines literal indent fuel acc first more starts c
    else some (acc, first, more, c)

def block (literal : Bool) (parent : Int) (c : Cursor) : Option (List Char × Cursor) := do
  let (chomping, increment, c) ← header c
  let c ← c.finishLine
  let wanted := increment.map fun n => if 0 ≤ parent then parent.toNat + n else n
  let (more, widest, c) ← emptyLines wanted (c.left + 1) 0 [] c
  let indent := wanted.getD (max widest (max (parent + 1).toNat 1))
  let (acc, first, more, c) ← lines literal indent (c.left + 1) [] [] more false c
  let tail := match chomping with
    | .strip => []
    | .clip => first
    | .keep => first ++ more
  some (acc.reverse ++ tail, c)

end Postboard.Yaml.Scalar
