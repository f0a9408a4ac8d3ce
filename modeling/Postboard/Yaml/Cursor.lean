import Postboard.Text.Ascii

/-! Positions in a YAML text, and the character classes of YAML 1.1.

A line ends with a carriage return and line feed, with one of the two, or with the next-line, the
line-separator or the paragraph-separator character.
-/

set_option autoImplicit false

namespace Postboard.Yaml

open Text

def isAllowed (c : Char) : Bool :=
  let n := c.toNat
  n == 0x09 || n == 0x0A || n == 0x0D || (0x20 ≤ n && n ≤ 0x7E) || n == 0x85 ||
    (0xA0 ≤ n && n ≤ 0xFFFD) || 0x10000 ≤ n

def isGap (c : Char) : Bool := c = ' ' || c = '\t'

def isBreak (c : Char) : Bool :=
  let n := c.toNat
  n == 0x0A || n == 0x0D || n == 0x85 || n == 0x2028 || n == 0x2029

def atLineEnd : List Char → Bool
  | [] => true
  | c :: _ => isBreak c

def atWordEnd : List Char → Bool
  | [] => true
  | c :: _ => isGap c || isBreak c

def nextIs (p : Char → Bool) : List Char → Bool
  | [] => false
  | c :: _ => p c

def isNameChar (c : Char) : Bool := isLetter c || isDigit c || c = '_' || c = '-'

def isFlowIndicator (c : Char) : Bool :=
  c = ',' || c = '[' || c = ']' || c = '\x7b' || c = '\x7d'

/-- The text from some position on. Lines and columns are counted from zero. -/
structure Cursor where
  rest : List Char
  index : Nat
  line : Nat
  column : Nat
  size : Nat

namespace Cursor

def start (cs : List Char) : Cursor := ⟨cs, 0, 0, 0, cs.length⟩

def left (c : Cursor) : Nat := c.size - c.index

def skip (n : Nat) (c : Cursor) : Cursor :=
  ⟨c.rest.drop n, c.index + n, c.line, c.column + n, c.size⟩

/-- The characters that satisfy a test, and what follows them. They end no line. -/
def span (p : Char → Bool) (c : Cursor) : List Char × Cursor :=
  let cs := c.rest.takeWhile p
  (cs, c.skip cs.length)

def newLine (n : Nat) (c : Cursor) : Cursor :=
  ⟨c.rest.drop n, c.index + n, c.line + 1, 0, c.size⟩

/-- The line end at this position, as it counts in a scalar: a line feed for the ASCII ones and
the next-line character, and the separators as they are. Nothing where no line ends. -/
def lineBreak (c : Cursor) : List Char × Cursor :=
  match c.rest with
  | '\r' :: '\n' :: _ => (['\n'], c.newLine 2)
  | b :: _ =>
    if b.toNat = 0x2028 || b.toNat = 0x2029 then ([b], c.newLine 1)
    else if isBreak b then (['\n'], c.newLine 1)
    else ([], c)
  | [] => ([], c)

def skipGaps (c : Cursor) : Cursor := (c.span isGap).2

def skipComment (c : Cursor) : Cursor :=
  if nextIs (· = '#') c.rest then (c.span fun b => !isBreak b).2 else c

/-- Go over what may stand after a directive or header; then the line has to end. -/
def finishLine (c : Cursor) : Option Cursor :=
  let c := c.skipGaps.skipComment
  if atLineEnd c.rest then some c.lineBreak.2 else none

/-- Whether a marker of three equal characters stands at the beginning of a line. -/
def atMarker (b : Char) (c : Cursor) : Bool :=
  c.column = 0 && [b, b, b].isPrefixOf c.rest && atWordEnd (c.rest.drop 3)

def atDocumentMarker (c : Cursor) : Bool := c.atMarker '-' || c.atMarker '.'

end Cursor

end Postboard.Yaml
