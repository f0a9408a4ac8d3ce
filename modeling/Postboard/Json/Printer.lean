import Postboard.Number.Shortest
import Postboard.Json.Basic
import Postboard.Text.Utf8

/-! The compact text of a JSON value.

No spaces; members in the order of the object; `"`, `\` and the controls below U+0020 escaped, with
a letter where JSON has one and as `\u00xx` otherwise; every other character as it is.
-/

set_option autoImplicit false

namespace Postboard.Json

open Text

def escape (c : Char) : List Char :=
  if c = '"' then ['\\', '"']
  else if c = '\\' then ['\\', '\\']
  else if c = '\x08' then ['\\', 'b']
  else if c = '\x0c' then ['\\', 'f']
  else if c = '\n' then ['\\', 'n']
  else if c = '\r' then ['\\', 'r']
  else if c = '\t' then ['\\', 't']
  else if c.toNat < 32 then
    ['\\', 'u', '0', '0', hexDigit (c.toNat / 16), hexDigit (c.toNat % 16)]
  else [c]

def quote (s : String) : List Char := '"' :: s.toList.flatMap escape ++ ['"']

def Number.chars : Number → List Char
  | .int n => (Decimal.ofInt n).toList
  | .double d => Number.Shortest.text d

mutual

def chars : Json → List Char
  | .null => ['n', 'u', 'l', 'l']
  | .bool true => ['t', 'r', 'u', 'e']
  | .bool false => ['f', 'a', 'l', 's', 'e']
  | .num n => n.chars
  | .str s => quote s
  | .arr items => '[' :: itemChars items ++ [']']
  | .obj members => '\x7b' :: memberChars members ++ ['\x7d']

def itemChars : List Json → List Char
  | [] => []
  | [v] => chars v
  | v :: rest => chars v ++ ',' :: itemChars rest

def memberChars : List (String × Json) → List Char
  | [] => []
  | [(k, v)] => quote k ++ ':' :: chars v
  | (k, v) :: rest => quote k ++ ':' :: chars v ++ ',' :: memberChars rest

end

def text (v : Json) : String := String.ofList v.chars

def bytes (v : Json) : List UInt8 := Utf8.encode v.chars

end Postboard.Json
