import Postboard.Http.Uri

/-! Percent escapes and form-encoded queries. -/

set_option autoImplicit false

namespace Postboard.Http

open Text

def hexByte? (b : UInt8) : Option Nat := hexValue? (Char.ofNat b.toNat)

def escapedByte? : List UInt8 → Option UInt8
  | a :: b :: _ =>
    match hexByte? a, hexByte? b with
    | some a, some b => some (UInt8.ofNat (a * 16 + b))
    | _, _ => none
  | _ => none

/-- Decode escapes behind reversed bytes; `skip` bytes are already accounted for. A percent sign
that begins no escape stays. -/
def percentDecodeOnto : List UInt8 → Nat → List UInt8 → List UInt8
  | acc, _, [] => acc.reverse
  | acc, skip + 1, _ :: rest => percentDecodeOnto acc skip rest
  | acc, 0, b :: rest =>
    if b = 0x25 then
      match escapedByte? rest with
      | some d => percentDecodeOnto (d :: acc) 2 rest
      | none => percentDecodeOnto (b :: acc) 0 rest
    else percentDecodeOnto (b :: acc) 0 rest

def percentDecode (bs : List UInt8) : List UInt8 := percentDecodeOnto [] 0 bs

/-- A name or value of a form as text: a plus sign is a space, escapes are decoded, and what is not
UTF-8 is replaced. -/
def formText (bs : List UInt8) : String :=
  String.ofList (Utf8.repair (percentDecode (bs.map fun b => if b = 0x2B then 0x20 else b)))

def splitBytes (sep : UInt8) (bs : List UInt8) : List (List UInt8) :=
  let parts := bs.foldr
    (fun b acc => if b = sep then ([], acc.1 :: acc.2) else (b :: acc.1, acc.2)) ([], [])
  parts.1 :: parts.2

def formPair (bs : List UInt8) : String × String :=
  let name := bs.takeWhile (· ≠ 0x3D)
  (formText name, formText (bs.drop (name.length + 1)))

def formPairs (query : List UInt8) : List (String × String) :=
  ((splitBytes 0x26 query).filter (· ≠ [])).map formPair

end Postboard.Http
