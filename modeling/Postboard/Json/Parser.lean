import Postboard.Json.Fault
import Postboard.Text.Utf8

/-! Reading JSON texts.

A reader takes bytes from the front of the input and returns a value with the bytes that are left,
or the first fault from left to right. Lists and objects nest at most 127 deep. A loop over items or
members carries a bound, which the length of the whole text always satisfies; at the bound it
reports an end of input.
-/

set_option autoImplicit false

namespace Postboard.Json.Parser

open Text

/-- What a reader of an `α` makes of the front of the input. -/
abbrev Reading (α : Type) := Except Malformed (α × List UInt8)

def isSpace (b : UInt8) : Bool := b == 0x20 || b == 0x09 || b == 0x0A || b == 0x0D

def skipSpace (input : List UInt8) : List UInt8 := input.dropWhile isSpace

def isDigit (b : UInt8) : Bool := 0x30 ≤ b && b ≤ 0x39

def digitValue (b : UInt8) : Nat := b.toNat - 0x30

/-! ### Words -/

def word : List UInt8 → List UInt8 → Except Malformed (List UInt8)
  | [], input => .ok input
  | _ :: _, [] => .error .endInValue
  | w :: ws, b :: rest => if b = w then word ws rest else .error .wordExpected

/-! ### Numbers -/

/-- Take digits onto a significand as long as it stays below `2 ^ 64`; count them. -/
def gather : Nat → Nat → List UInt8 → Nat × Nat × List UInt8
  | acc, n, [] => (acc, n, [])
  | acc, n, b :: rest =>
    if isDigit b && acc * 10 + digitValue b < 0x10000000000000000 then
      gather (acc * 10 + digitValue b) (n + 1) rest
    else (acc, n, b :: rest)

def digitNext : List UInt8 → Bool
  | [] => false
  | b :: _ => isDigit b

def exponentNext : List UInt8 → Bool
  | [] => false
  | b :: _ => b == 0x65 || b == 0x45

def finish (negative : Bool) (significand : Nat) (exponent : Int) (rest : List UInt8) :
    Reading Number :=
  match Number.Double.ofParts? negative significand exponent with
  | some d => .ok (.double d, rest)
  | none => .error .numberTooLarge

def digitsValue (ds : List UInt8) : Nat := ds.foldl (fun n b => n * 10 + digitValue b) 0

def exponentSign : List UInt8 → Bool × List UInt8
  | [] => (false, [])
  | b :: rest =>
    if b = 0x2B then (false, rest) else if b = 0x2D then (true, rest) else (false, b :: rest)

def exponent (negative : Bool) (significand : Nat) (start : Int) (input : List UInt8) :
    Reading Number :=
  let (down, rest) := exponentSign input
  if digitNext rest then
    let e : Int := digitsValue (rest.takeWhile isDigit)
    finish negative significand (if down then start - e else start + e) (rest.dropWhile isDigit)
  else if rest = [] then .error .endInValue
  else .error .badNumber

def scaled (negative : Bool) (significand : Nat) (start : Int) (input : List UInt8) :
    Reading Number :=
  if exponentNext input then exponent negative significand start (input.drop 1)
  else finish negative significand start input

/-- The digits after the point. Those that the significand has no room for are dropped. -/
def fraction (negative : Bool) (significand : Nat) (start : Int) (input : List UInt8) :
    Reading Number :=
  let (acc, n, rest) := gather significand 0 input
  if digitNext rest then scaled negative acc (start - n) (rest.dropWhile isDigit)
  else if n = 0 then .error (if rest = [] then .endInValue else .badNumber)
  else scaled negative acc (start - n) rest

/-- What follows the digits of a whole part that had `dropped` digits too many. -/
def afterWhole (negative : Bool) (significand : Nat) (dropped : Nat) (input : List UInt8) :
    Reading Number :=
  match input with
  | 0x2E :: rest => fraction negative significand dropped rest
  | _ => scaled negative significand dropped input

def whole (negative : Bool) (significand : Nat) (rest : List UInt8) : Reading Number :=
  if negative then
    if significand = 0 || 0x8000000000000000 < significand then finish true significand 0 rest
    else .ok (.int (-significand), rest)
  else .ok (.int significand, rest)

def number (negative : Bool) : List UInt8 → Reading Number
  | [] => .error .endInValue
  | b :: rest =>
    if b = 0x30 && digitNext rest then .error .badNumber
    else if isDigit b then
      let (acc, _, rest) := if b = 0x30 then (0, 0, rest) else gather (digitValue b) 0 rest
      if digitNext rest then
        afterWhole negative acc (rest.takeWhile isDigit).length (rest.dropWhile isDigit)
      else
        match rest with
        | 0x2E :: _ => afterWhole negative acc 0 rest
        | _ => if exponentNext rest then afterWhole negative acc 0 rest else whole negative acc rest
    else .error .badNumber

/-! ### Strings -/

def hexValue? (b : UInt8) : Option Nat := Text.hexValue? (Char.ofNat b.toNat)

def hex4 : List UInt8 → Except Malformed Nat
  | a :: b :: c :: d :: _ =>
    match hexValue? a, hexValue? b, hexValue? c, hexValue? d with
    | some a, some b, some c, some d => .ok (((a * 16 + b) * 16 + c) * 16 + d)
    | _, _, _, _ => .error .badEscape
  | _ => .error .endInString

/-- The second half of a surrogate pair, after the four digits of the first half. -/
def pair (high : Nat) : List UInt8 → Except Malformed Nat
  | [] => .error .endInString
  | a :: rest =>
    if a ≠ 0x5C then .error .surrogateUnpaired
    else match rest with
      | [] => .error .endInString
      | b :: rest' =>
        if b ≠ 0x75 then .error .surrogateUnpaired
        else do
          let low ← hex4 rest'
          if 0xDC00 ≤ low && low ≤ 0xDFFF then
            .ok (0x10000 + (high - 0xD800) * 1024 + (low - 0xDC00))
          else .error .loneSurrogate

/-- A `\u` escape after the `u`: the character and the number of bytes it takes. -/
def unicode (input : List UInt8) : Except Malformed (Char × Nat) := do
  let n ← hex4 input
  if 0xDC00 ≤ n && n ≤ 0xDFFF then .error .loneSurrogate
  else if 0xD800 ≤ n && n ≤ 0xDBFF then do
    let p ← pair n (input.drop 4)
    .ok (Char.ofNat p, 10)
  else .ok (Char.ofNat n, 4)

def letterEscape? (b : UInt8) : Option Char :=
  if b = 0x22 then some '"'
  else if b = 0x5C then some '\\'
  else if b = 0x2F then some '/'
  else if b = 0x62 then some '\x08'
  else if b = 0x66 then some '\x0c'
  else if b = 0x6E then some '\n'
  else if b = 0x72 then some '\r'
  else if b = 0x74 then some '\t'
  else none

def escaped : List UInt8 → Except Malformed (Char × Nat)
  | [] => .error .endInString
  | b :: rest =>
    match letterEscape? b with
    | some c => .ok (c, 1)
    | none =>
      if b = 0x75 then do
        let (c, n) ← unicode rest
        .ok (c, n + 1)
      else .error .badEscape

/-- The bytes of a string up to its closing quote, in front of reversed ones; `skip` bytes are
already accounted for. -/
def stringOnto : List UInt8 → Nat → List UInt8 → Reading (List UInt8)
  | _, _, [] => .error .endInString
  | acc, skip + 1, _ :: rest => stringOnto acc skip rest
  | acc, 0, b :: rest =>
    if b = 0x22 then .ok (acc.reverse, rest)
    else if b = 0x5C then
      match escaped rest with
      | .ok (c, n) => stringOnto ((String.utf8EncodeChar c).reverse ++ acc) n rest
      | .error e => .error e
    else if b < 0x20 then .error .controlInString
    else stringOnto (b :: acc) 0 rest

/-- A string after its opening quote. Its bytes have to be UTF-8. -/
def string (input : List UInt8) : Except Malformed (String × List UInt8) := do
  let (bytes, rest) ← stringOnto [] 0 input
  match Utf8.decode? bytes with
  | some cs => .ok (String.ofList cs, rest)
  | none => .error .notUtf8

/-! ### Values -/

def items (item : List UInt8 → Reading Json) :
    Nat → List Json → List UInt8 → Except Malformed (List Json × List UInt8)
  | 0, _, _ => .error .endInList
  | bound + 1, acc, input => do
    let (v, rest) ← item input
    match skipSpace rest with
    | [] => .error .endInList
    | b :: rest =>
      if b = 0x5D then .ok ((v :: acc).reverse, rest)
      else if b = 0x2C then
        match skipSpace rest with
        | [] => .error .endInValue
        | c :: rest =>
          if c = 0x5D then .error .trailingComma
          else items item bound (v :: acc) (c :: rest)
      else .error .commaOrBracketExpected

def colon (input : List UInt8) : Except Malformed (List UInt8) :=
  match skipSpace input with
  | [] => .error .endInObject
  | b :: rest => if b = 0x3A then .ok rest else .error .colonExpected

def members (item : List UInt8 → Reading Json) :
    Nat → Members → List UInt8 → Except Malformed (Members × List UInt8)
  | 0, _, _ => .error .endInObject
  | bound + 1, acc, input => do
    let (k, rest) ← string input
    let rest ← colon rest
    let (v, rest) ← item rest
    match skipSpace rest with
    | [] => .error .endInObject
    | b :: rest =>
      if b = 0x7D then .ok (((k, v) :: acc).reverse, rest)
      else if b = 0x2C then
        match skipSpace rest with
        | [] => .error .endInValue
        | c :: rest =>
          if c = 0x22 then members item bound ((k, v) :: acc) rest
          else if c = 0x7D then .error .trailingComma
          else .error .keyNotString
      else .error .commaOrBraceExpected

def list (item : List UInt8 → Reading Json) (bound : Nat) (input : List UInt8) : Reading Json :=
  match skipSpace input with
  | [] => .error .endInList
  | b :: rest =>
    if b = 0x5D then .ok (.arr [], rest)
    else (items item bound [] (b :: rest)).map fun r => (.arr r.1, r.2)

def object (item : List UInt8 → Reading Json) (bound : Nat) (input : List UInt8) : Reading Json :=
  match skipSpace input with
  | [] => .error .endInObject
  | b :: rest =>
    if b = 0x7D then .ok (.obj [], rest)
    else if b = 0x22 then (members item bound [] rest).map fun r => (Json.object r.1, r.2)
    else .error .keyNotString

def scalar (b : UInt8) (rest : List UInt8) : Reading Json :=
  if b = 0x6E then (word [0x75, 0x6C, 0x6C] rest).map fun r => (.null, r)
  else if b = 0x74 then (word [0x72, 0x75, 0x65] rest).map fun r => (.bool true, r)
  else if b = 0x66 then (word [0x61, 0x6C, 0x73, 0x65] rest).map fun r => (.bool false, r)
  else if b = 0x22 then (string rest).map fun r => (.str r.1, r.2)
  else if b = 0x2D then (number true rest).map fun r => (.num r.1, r.2)
  else if isDigit b then (number false (b :: rest)).map fun r => (.num r.1, r.2)
  else .error .valueExpected

/-- A value in which lists and objects nest at most `depth` deep. -/
def value (bound : Nat) (depth : Nat) (input : List UInt8) : Reading Json :=
  match skipSpace input with
  | [] => .error .endInValue
  | b :: rest =>
    if b = 0x5B || b = 0x7B then
      match depth with
      | 0 => .error .tooDeep
      | depth + 1 =>
        if b = 0x5B then list (value bound depth) bound rest
        else object (value bound depth) bound rest
    else scalar b rest

def maxDepth : Nat := 127

def atEnd {α : Type} (r : α × List UInt8) : Except Malformed α :=
  if skipSpace r.2 = [] then .ok r.1 else .error .trailingCharacters

end Parser

def parse (input : List UInt8) : Except Malformed Json := do
  let r ← Parser.value input.length Parser.maxDepth input
  Parser.atEnd r

end Postboard.Json
