import Postboard.Yaml.Token

/-! Tags, anchors and directives in the text. -/

set_option autoImplicit false

namespace Postboard.Yaml

open Text

namespace TagText

/-- A character of a tag. Commas and brackets may stand only in a tag between angle brackets and in
the start that a directive gives. -/
def isTagChar (verbatim : Bool) (x : Char) : Bool :=
  isNameChar x || [';', '/', '?', ':', '@', '&', '=', '+', '$', '.', '%', '!', '~', '*', '\'', '(',
    ')'].contains x || verbatim && [',', '[', ']'].contains x

def escapedByte? : List Char → Option UInt8
  | '%' :: a :: b :: _ =>
    match hexValue? a, hexValue? b with
    | some a, some b => some (UInt8.ofNat (a * 16 + b))
    | _, _ => none
  | _ => none

def sequenceLength? (b : UInt8) : Option Nat :=
  if b < 0x80 then some 1
  else if b &&& 0xE0 = 0xC0 then some 2
  else if b &&& 0xF0 = 0xE0 then some 3
  else if b &&& 0xF8 = 0xF0 then some 4
  else none

def escapedTail : Nat → List Char → Option (List UInt8)
  | 0, _ => some []
  | n + 1, cs => do
    let b ← escapedByte? cs
    if b &&& 0xC0 = 0x80 then (escapedTail n (cs.drop 3)).map (b :: ·) else none

def escapedSequence (cs : List Char) : Option (List UInt8) := do
  let b ← escapedByte? cs
  let n ← sequenceLength? b
  (escapedTail (n - 1) (cs.drop 3)).map (b :: ·)

/-- The characters of a tag as bytes, behind reversed ones, and the number of characters. -/
def bytesOnto (verbatim : Bool) :
    Nat → List UInt8 → Nat → List Char → Option (List UInt8 × Nat)
  | 0, _, _, _ => none
  | fuel + 1, acc, n, cs =>
    match cs with
    | [] => some (acc.reverse, n)
    | x :: rest =>
      if !isTagChar verbatim x then some (acc.reverse, n)
      else if x = '%' then do
        let bs ← escapedSequence cs
        bytesOnto verbatim fuel (bs.reverse ++ acc) (n + 3 * bs.length) (cs.drop (3 * bs.length))
      else bytesOnto verbatim fuel (UInt8.ofNat x.toNat :: acc) (n + 1) rest

def untilZero (bs : List UInt8) : List UInt8 := bs.takeWhile (· != 0)

def bytes (verbatim : Bool) (given : List Char) (c : Cursor) : Option (List UInt8 × Cursor) := do
  let (bs, n) ← bytesOnto verbatim (c.left + 1) [] 0 c.rest
  if n = 0 && given = [] then none
  else
    let before := (given.drop 1).map fun x => UInt8.ofNat x.toNat
    some (untilZero (before ++ bs), c.skip n)

def readHandle (c : Cursor) : List Char × Cursor :=
  let (name, c) := c.span isNameChar
  if nextIs (· = '!') c.rest then ('!' :: name ++ ['!'], c.skip 1) else ('!' :: name, c)

def isClosed (h : List Char) : Bool := 1 < h.length && h.getLast? = some '!'

def mayEnd (inFlow : Bool) (cs : List Char) : Bool :=
  atWordEnd cs || inFlow && nextIs (· = ',') cs

def scan (inFlow : Bool) (c : Cursor) : Option (TagText × Cursor) := do
  let (t, c) ←
    if ['!', '<'].isPrefixOf c.rest then do
      let (suffix, c) ← bytes true [] (c.skip 2)
      if nextIs (· = '>') c.rest then some (⟨[], suffix⟩, c.skip 1) else none
    else do
      let (h, c) := readHandle (c.skip 1)
      if isClosed h then do
        let (suffix, c) ← bytes false [] c
        some ((⟨h, suffix⟩ : TagText), c)
      else do
        let (suffix, c) ← bytes false h c
        if suffix = [] then some (⟨[], [0x21]⟩, c) else some (⟨['!'], suffix⟩, c)
  if mayEnd inFlow c.rest then some (t, c) else none

end TagText

namespace Token

def name (c : Cursor) : Option (List Char × Cursor) :=
  let (cs, c) := c.span isNameChar
  let ends := atWordEnd c.rest ||
    nextIs (fun x => ['?', ':', ',', ']', '\x7d', '%', '@', Char.ofNat 0x60].contains x) c.rest
  if cs ≠ [] && ends then some (cs, c) else none

def versionNumber (c : Cursor) : Option (Nat × Cursor) :=
  let (ds, c) := c.span isDigit
  if ds = [] || 9 < ds.length then none
  else some (ds.foldl (fun n d => n * 10 + (d.toNat - 48)) 0, c)

def versionValue (c : Cursor) : Option (Token × Cursor) := do
  let (major, c) ← versionNumber c.skipGaps
  if nextIs (· = '.') c.rest then
    let (minor, c) ← versionNumber (c.skip 1)
    some (.version major minor, c)
  else none

def tagValue (c : Cursor) : Option (Token × Cursor) := do
  let c := c.skipGaps
  if nextIs (· = '!') c.rest then
    let (h, c) := TagText.readHandle (c.skip 1)
    if (TagText.isClosed h || h = ['!']) && nextIs isGap c.rest then
      let (start, c) ← TagText.bytes true [] c.skipGaps
      if atWordEnd c.rest then some (.tagDirective h start, c) else none
    else none
  else none

def directive (c : Cursor) : Option (Token × Cursor) := do
  let (cs, c) := (c.skip 1).span isNameChar
  if !atWordEnd c.rest then none
  else
    let (t, c) ←
      if cs = ['Y', 'A', 'M', 'L'] then versionValue c
      else if cs = ['T', 'A', 'G'] then tagValue c
      else none
    let c ← c.finishLine
    some (t, c)

end Token

end Postboard.Yaml
