import Postboard.Text.Ascii
import Postboard.Text.Printable

/-! Texts shown between quotes in messages.

A quote of the enclosing kind, the backslash and NUL, tab, line feed and carriage return are
written with a backslash; an extender or an unprintable character as `\u{…}` with its code point in
lower-case hexadecimal; every other character stands for itself.
-/

set_option autoImplicit false

namespace Postboard.Text.Quoted

def hexOnto : Nat → Nat → List Char → List Char
  | 0, _, acc => acc
  | fuel + 1, n, acc =>
    if n < 16 then hexDigit n :: acc else hexOnto fuel (n / 16) (hexDigit (n % 16) :: acc)

def hex (n : Nat) : List Char := hexOnto 8 n []

def escape (quote : Char) (c : Char) : List Char :=
  if c = '\x00' then ['\\', '0']
  else if c = '\t' then ['\\', 't']
  else if c = '\n' then ['\\', 'n']
  else if c = '\r' then ['\\', 'r']
  else if c = '\\' then ['\\', '\\']
  else if c = quote then ['\\', quote]
  else if isExtender c || !isPrintable c then
    ['\\', 'u', '\x7b'] ++ hex c.toNat ++ ['\x7d']
  else [c]

def ofChar (c : Char) : String :=
  String.ofList ('\'' :: escape '\'' c ++ ['\''])

def ofString (s : String) : String :=
  String.ofList ('"' :: s.toList.flatMap (escape '"') ++ ['"'])

end Postboard.Text.Quoted
