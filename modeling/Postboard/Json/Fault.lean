import Postboard.Number.Shortest
import Postboard.Text.Quoted
import Postboard.Json.Basic

/-! What can be wrong with a JSON text, and with a JSON value where another shape is wanted. -/

set_option autoImplicit false

namespace Postboard.Json

open Text

inductive Malformed where
  | endInValue
  | endInList
  | endInObject
  | endInString
  | valueExpected
  | wordExpected
  | colonExpected
  | commaOrBracketExpected
  | commaOrBraceExpected
  | keyNotString
  | trailingComma
  | trailingCharacters
  | badNumber
  | numberTooLarge
  | badEscape
  | controlInString
  | loneSurrogate
  | surrogateUnpaired
  | notUtf8
  | tooDeep
  deriving DecidableEq, Repr

def Malformed.message : Malformed → String
  | .endInValue => "EOF while parsing a value"
  | .endInList => "EOF while parsing a list"
  | .endInObject => "EOF while parsing an object"
  | .endInString => "EOF while parsing a string"
  | .valueExpected => "expected value"
  | .wordExpected => "expected ident"
  | .colonExpected => "expected `:`"
  | .commaOrBracketExpected => "expected `,` or `]`"
  | .commaOrBraceExpected => "expected `,` or `\x7d`"
  | .keyNotString => "key must be a string"
  | .trailingComma => "trailing comma"
  | .trailingCharacters => "trailing characters"
  | .badNumber => "invalid number"
  | .numberTooLarge => "number out of range"
  | .badEscape => "invalid escape"
  | .controlInString => "control character (\\u0000-\\u001F) found while parsing a string"
  | .loneSurrogate => "lone leading surrogate in hex escape"
  | .surrogateUnpaired => "unexpected end of hex escape"
  | .notUtf8 => "invalid unicode code point"
  | .tooDeep => "recursion limit exceeded"

/-- A well-formed value that does not have the wanted shape. -/
inductive Misfit where
  | type (found : Json) (wanted : String)
  | range (found : Int) (wanted : String)
  | length (found : Nat) (wanted : String)
  | missing (field : String)
  | duplicate (field : String)
  | variant (found : String) (wanted : String)
  | noAlternative (wanted : String)

def describe : Json → String
  | .null => "null"
  | .bool true => "boolean `true`"
  | .bool false => "boolean `false`"
  | .num (.int n) => "integer `" ++ Decimal.ofInt n ++ "`"
  | .num (.double d) => "floating point `" ++ String.ofList (Number.Shortest.text d) ++ "`"
  | .str s => "string " ++ Quoted.ofString s
  | .arr _ => "sequence"
  | .obj _ => "map"

def Misfit.message : Misfit → String
  | .type found wanted => "invalid type: " ++ describe found ++ ", expected " ++ wanted
  | .range found wanted =>
    "invalid value: integer `" ++ Decimal.ofInt found ++ "`, expected " ++ wanted
  | .length found wanted => "invalid length " ++ Decimal.ofNat found ++ ", expected " ++ wanted
  | .missing field => "missing field `" ++ field ++ "`"
  | .duplicate field => "duplicate field `" ++ field ++ "`"
  | .variant found wanted => "unknown variant `" ++ found ++ "`, expected `" ++ wanted ++ "`"
  | .noAlternative wanted => "data did not match any variant of untagged enum " ++ wanted

inductive Fault where
  | malformed (m : Malformed)
  | misfit (m : Misfit)

def Fault.message : Fault → String
  | .malformed m => m.message
  | .misfit m => m.message

end Postboard.Json
