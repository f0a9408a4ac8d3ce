import Postboard.Text.Ascii

/-! UTF-8: encoding, strict decoding and decoding with replacement.

A sequence is ill-formed at the first byte that cannot continue it. Strict decoding reports where
the well-formed part ends and how many bytes belong to the fault; decoding with replacement puts
one U+FFFD for each such fault.
-/

set_option autoImplicit false

namespace Postboard.Text.Utf8

def encode (cs : List Char) : List UInt8 := cs.flatMap String.utf8EncodeChar

def bytes (s : String) : List UInt8 := encode s.toList

def size (cs : List Char) : Nat := cs.foldl (fun n c => n + c.utf8Size) 0

/-- What a byte and the bytes after it begin: a character or a fault that takes `more` further bytes,
or a sequence that is well-formed so far and cut off by the end. -/
inductive Lead where
  | char (c : Char) (more : Nat)
  | bad (more : Nat)
  | cut

def isTail (b : UInt8) : Bool := 0x80 ≤ b && b ≤ 0xBF

def point (hi : Nat) (tail : List UInt8) : Nat :=
  tail.foldl (fun n b => n * 64 + (b.toNat - 0x80)) hi

/-- Which second bytes may follow a first byte of a sequence of three or four. -/
def secondFits (a b : UInt8) : Bool :=
  if a == 0xE0 then 0xA0 ≤ b && b ≤ 0xBF
  else if a == 0xED then 0x80 ≤ b && b ≤ 0x9F
  else if a == 0xF0 then 0x90 ≤ b && b ≤ 0xBF
  else if a == 0xF4 then 0x80 ≤ b && b ≤ 0x8F
  else isTail b

def lead (a : UInt8) (rest : List UInt8) : Lead :=
  if a < 0x80 then .char (Char.ofNat a.toNat) 0
  else if 0xC2 ≤ a && a ≤ 0xDF then
    match rest with
    | [] => .cut
    | b :: _ => if isTail b then .char (Char.ofNat (point (a.toNat - 0xC0) [b])) 1 else .bad 0
  else if 0xE0 ≤ a && a ≤ 0xEF then
    match rest with
    | [] => .cut
    | b :: rest' =>
      if secondFits a b then
        match rest' with
        | [] => .cut
        | c :: _ =>
          if isTail c then .char (Char.ofNat (point (a.toNat - 0xE0) [b, c])) 2 else .bad 1
      else .bad 0
  else if 0xF0 ≤ a && a ≤ 0xF4 then
    match rest with
    | [] => .cut
    | b :: rest' =>
      if secondFits a b then
        match rest' with
        | [] => .cut
        | c :: rest'' =>
          if isTail c then
            match rest'' with
            | [] => .cut
            | d :: _ =>
              if isTail d then .char (Char.ofNat (point (a.toNat - 0xF0) [b, c, d])) 3 else .bad 2
          else .bad 1
      else .bad 0
  else .bad 0

/-- Decode with replacement in front of a reversed text; `skip` bytes are already accounted for. -/
def repairOnto : List Char → Nat → List UInt8 → List Char
  | acc, _, [] => acc.reverse
  | acc, skip + 1, _ :: rest => repairOnto acc skip rest
  | acc, 0, b :: rest =>
    match lead b rest with
    | .char c more => repairOnto (c :: acc) more rest
    | .bad more => repairOnto (Char.ofNat 0xFFFD :: acc) more rest
    | .cut => (Char.ofNat 0xFFFD :: acc).reverse

/-- Decode, with U+FFFD for each fault. -/
def repair (bs : List UInt8) : List Char := repairOnto [] 0 bs

/-- Where bytes stop being UTF-8. A fault has no width when the end cuts a sequence off. -/
structure Fault where
  validUpTo : Nat
  width : Option Nat
  deriving DecidableEq, Repr

/-- Decode strictly onto a reversed text, `at` bytes into the input. -/
def decodeOnto : List Char → Nat → Nat → List UInt8 → Except Fault (List Char)
  | acc, _, _, [] => .ok acc.reverse
  | acc, pos, skip + 1, _ :: rest => decodeOnto acc (pos + 1) skip rest
  | acc, pos, 0, b :: rest =>
    match lead b rest with
    | .char c more => decodeOnto (c :: acc) (pos + 1) more rest
    | .bad more => .error ⟨pos, some (more + 1)⟩
    | .cut => .error ⟨pos, none⟩

def decode (bs : List UInt8) : Except Fault (List Char) := decodeOnto [] 0 0 bs

def decode? (bs : List UInt8) : Option (List Char) := (decode bs).toOption

end Postboard.Text.Utf8
