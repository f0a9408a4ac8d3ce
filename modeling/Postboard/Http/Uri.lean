import Postboard.Text.Ascii
import Postboard.Text.Utf8

/-! Request targets.

A target that begins with a slash is a path with an optional query; any other one is an authority,
or a scheme, an authority and a path. A fragment is cut off. Which bytes may stand where is checked,
and the target as a whole has to be UTF-8.
-/

set_option autoImplicit false

namespace Postboard.Http

open Text

structure Target where
  path : List UInt8
  query : Option (List UInt8)
  deriving DecidableEq, Repr

namespace Target

def byte (c : Char) : UInt8 := UInt8.ofNat c.toNat

def oneOf (cs : String) (b : UInt8) : Bool := cs.toList.any fun c => byte c = b

def isPathByte (b : UInt8) : Bool := 0x21 ≤ b && !oneOf "<>\x60" b

def isQueryByte (b : UInt8) : Bool := 0x21 ≤ b && !oneOf "\"<>" b

def pathAndQuery (bs : List UInt8) : Option Target :=
  let path := bs.takeWhile fun b => b ≠ byte '?' && b ≠ byte '#'
  let rest := bs.dropWhile fun b => b ≠ byte '?' && b ≠ byte '#'
  let query := match rest with
    | b :: r => if b = byte '?' then some (r.takeWhile fun b => b ≠ byte '#') else none
    | [] => none
  let legal := path.all isPathByte && (query.getD []).all isQueryByte &&
    (Utf8.decode? (path ++ query.getD [])).isSome
  if legal then some ⟨path, query⟩ else none

def isWordByte (b : UInt8) : Bool :=
  let c := Char.ofNat b.toNat
  b < 0x80 && (isLetter c || isDigit c)

/-- A byte that may stand in an authority. A percent sign may too, before an at sign or between
brackets. -/
def isAuthorityByte (b : UInt8) : Bool := isWordByte b || oneOf "!$&'()*+,-.:;=@[]_~%" b

structure Seen where
  colons : Nat
  opened : Bool
  closed : Bool
  percent : Bool
  atSign : Bool

def Seen.add (s : Seen) (b : UInt8) : Option Seen :=
  let s' := { s with atSign := false }
  if !isAuthorityByte b then none
  else if b = byte ':' then
    if 8 ≤ s.colons then none else some { s' with colons := s.colons + 1 }
  else if b = byte '[' then
    if s.percent || s.opened then none else some { s' with opened := true }
  else if b = byte ']' then
    if !s.opened || s.closed then none
    else some { s' with closed := true, colons := 0, percent := false }
  else if b = byte '@' then some { s' with colons := 0, percent := false, atSign := true }
  else if b = byte '%' then some { s' with percent := true }
  else some s'

def Seen.complete (s : Seen) : Bool :=
  s.opened = s.closed && s.colons ≤ 1 && !s.atSign && !s.percent

def endsAuthority (b : UInt8) : Bool := oneOf "/?#" b

/-- Whether bytes are an authority; they may be none at all. -/
def isAuthority (bs : List UInt8) : Bool :=
  match bs.foldlM Seen.add ⟨0, false, false, false, false⟩ with
  | some s => s.complete
  | none => false

/-- The number of bytes of the scheme in front of `://`, if there is one of at most 64 bytes. -/
def schemeLength? (bs : List UInt8) : Option (Option Nat) :=
  let scheme := bs.takeWhile fun b => isWordByte b || oneOf "+-." b
  if ([byte ':', byte '/', byte '/'].isPrefixOf (bs.drop scheme.length)) && 3 < bs.length then
    if 64 < scheme.length then none else some (some scheme.length)
  else some none

/-- A target that does not begin with a slash. -/
def absolute (bs : List UInt8) : Option Target :=
  match schemeLength? bs with
  | none => none
  | some none => if isAuthority bs then some ⟨[], none⟩ else none
  | some (some n) =>
    let rest := bs.drop (n + 3)
    let authority := rest.takeWhile fun b => !endsAuthority b
    if authority = [] || !isAuthority authority then none
    else (pathAndQuery (rest.drop authority.length)).map fun t =>
      if t.path = [] then { t with path := [byte '/'] } else t

def parse (bs : List UInt8) : Option Target :=
  if 65534 < bs.length then none
  else match bs with
    | [] => none
    | b :: rest =>
      if b = byte '/' then pathAndQuery bs
      else if b = byte '*' && rest = [] then some ⟨bs, none⟩
      else absolute bs

end Target

end Postboard.Http
