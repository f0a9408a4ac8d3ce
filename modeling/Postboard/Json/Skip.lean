import Postboard.Json.Parser

/-! Passing over a JSON value whose content does not matter.

Only the grammar is checked: nesting may be of any depth, a number of any size, and a string need be
neither UTF-8 nor hold whole surrogate pairs. The open lists and objects are kept as a stack.
-/

set_option autoImplicit false

namespace Postboard.Json.Parser

/-- A list or object that is open around a value. -/
inductive Frame where
  | list
  | object
  deriving DecidableEq, Repr

namespace Frame

def closer : Frame → UInt8
  | .list => 0x5D
  | .object => 0x7D

/-- The fault of an input that ends where a frame could close. -/
def cut : Frame → Malformed
  | .list => .endInList
  | .object => .endInObject

def unseparated : Frame → Malformed
  | .list => .commaOrBracketExpected
  | .object => .commaOrBraceExpected

end Frame

def afterDigits (input : List UInt8) : List UInt8 := input.dropWhile isDigit

def passExponent (input : List UInt8) : Except Malformed (List UInt8) :=
  let rest := (exponentSign input).2
  if digitNext rest then .ok (afterDigits rest) else .error .badNumber

def passScale (input : List UInt8) : Except Malformed (List UInt8) :=
  if exponentNext input then passExponent (input.drop 1) else .ok input

def passNumber : List UInt8 → Except Malformed (List UInt8)
  | [] => .error .badNumber
  | b :: rest =>
    if !isDigit b || b = 0x30 && digitNext rest then .error .badNumber
    else
      match afterDigits rest with
      | 0x2E :: rest =>
        if digitNext rest then passScale (afterDigits rest) else .error .badNumber
      | rest => passScale rest

def escapeLength : List UInt8 → Except Malformed Nat
  | [] => .error .endInString
  | b :: rest =>
    if (letterEscape? b).isSome then .ok 1
    else if b = 0x75 then (hex4 rest).map fun _ => 5
    else .error .badEscape

/-- Pass over a string after its opening quote; `skip` bytes are already accounted for. -/
def passString : Nat → List UInt8 → Except Malformed (List UInt8)
  | _, [] => .error .endInString
  | skip + 1, _ :: rest => passString skip rest
  | 0, b :: rest =>
    if b = 0x22 then .ok rest
    else if b = 0x5C then
      match escapeLength rest with
      | .ok n => passString n rest
      | .error e => .error e
    else if b < 0x20 then .error .controlInString
    else passString 0 rest

def passKey (input : List UInt8) : Except Malformed (List UInt8) :=
  match skipSpace input with
  | [] => .error .endInObject
  | b :: rest => if b = 0x22 then (passString 0 rest).bind colon else .error .keyNotString

def Frame.next : Frame → List UInt8 → Except Malformed (List UInt8)
  | .list, input => .ok input
  | .object, input => passKey input

/-- After a value: close frames as long as their closers come, then go to the next value. No frame
is left when the whole value has been passed. -/
def leave : List Frame → List UInt8 → Except Malformed (List Frame × List UInt8)
  | [], input => .ok ([], input)
  | f :: frames, input =>
    match skipSpace input with
    | [] => .error f.cut
    | b :: rest =>
      if b = 0x2C then (f.next rest).map fun rest => (f :: frames, rest)
      else if b = f.closer then leave frames rest
      else .error f.unseparated

def enter (f : Frame) (frames : List Frame) (input : List UInt8) :
    Except Malformed (List Frame × List UInt8) :=
  match skipSpace input with
  | [] => .error f.cut
  | b :: rest =>
    if b = f.closer then leave frames rest
    else (f.next (b :: rest)).map fun rest => (f :: frames, rest)

def passScalar (b : UInt8) (rest : List UInt8) : Except Malformed (List UInt8) :=
  if b = 0x6E then word [0x75, 0x6C, 0x6C] rest
  else if b = 0x74 then word [0x72, 0x75, 0x65] rest
  else if b = 0x66 then word [0x61, 0x6C, 0x73, 0x65] rest
  else if b = 0x22 then passString 0 rest
  else if b = 0x2D then passNumber rest
  else if isDigit b then passNumber (b :: rest)
  else .error .valueExpected

def passStep (frames : List Frame) (b : UInt8) (rest : List UInt8) :
    Except Malformed (List Frame × List UInt8) :=
  if b = 0x5B then enter .list frames rest
  else if b = 0x7B then enter .object frames rest
  else (passScalar b rest).bind (leave frames)

def passOver : Nat → List Frame → List UInt8 → Except Malformed (List UInt8)
  | 0, _, _ => .error .endInValue
  | bound + 1, frames, input =>
    match skipSpace input with
    | [] => .error .endInValue
    | b :: rest =>
      match passStep frames b rest with
      | .error e => .error e
      | .ok ([], rest) => .ok rest
      | .ok (f :: frames, rest) => passOver bound (f :: frames) rest

/-- Pass over one value. Every step takes at least one byte. -/
def pass (input : List UInt8) : Except Malformed (List UInt8) :=
  passOver (input.length + 1) [] input

end Postboard.Json.Parser
