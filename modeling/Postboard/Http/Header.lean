import Postboard.Text.Ascii
import Postboard.Text.Utf8

/-! Methods, header names and header values. -/

set_option autoImplicit false

namespace Postboard.Http

open Text

/-- Whether bytes may be the value of a header: no control but the tab. -/
def isHeaderValue (value : List UInt8) : Bool :=
  value.all fun b => b = 0x09 || (0x20 ≤ b && b ≠ 0x7F)

def isReadable (value : List UInt8) : Bool :=
  value.all fun b => (0x20 ≤ b && b ≤ 0x7E) || b == 0x09

def isTokenChar (c : Char) : Bool :=
  isLetter c || isDigit c || ['!', '#', '$', '%', '&', '\'', '*', '+', '-', '.', '^', '_',
    Char.ofNat 0x60, '|', '~'].contains c

/-- Whether a text is a token: one or more of its characters. Methods and header names are
tokens. -/
def isToken (s : String) : Bool := s.toList ≠ [] && s.toList.all isTokenChar

end Postboard.Http
