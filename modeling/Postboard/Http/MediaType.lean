import Postboard.Http.Header

/-! Media types of request bodies. -/

set_option autoImplicit false

namespace Postboard.Http.MediaType

open Text

def isQuotable (c : Char) : Bool := 31 < c.toNat && c.toNat ≠ 127

def afterQuoted : List Char → Option (List Char)
  | [] => some []
  | ' ' :: rest => afterQuoted rest
  | ';' :: rest => some rest
  | _ => none

def value : List Char → Option (List Char)
  | '"' :: rest =>
    match rest with
    | [] => none
    | first :: _ =>
      if !isQuotable first then none
      else
        let tail := rest.drop 1
        let inside := tail.takeWhile fun c => isQuotable c && c != '"'
        match tail.drop inside.length with
        | '"' :: rest => afterQuoted rest
        | _ => none
  | cs =>
    let token := cs.takeWhile isTokenChar
    match cs.drop token.length with
    | [] => some []
    | ';' :: rest => if token = [] then none else some rest
    | _ => none

/-- Whether parameters are well-formed. Each step takes at least one character. -/
def parametersFit : Nat → List Char → Bool
  | 0, _ => false
  | _ + 1, [] => true
  | fuel + 1, ' ' :: rest => parametersFit fuel rest
  | fuel + 1, cs =>
    let name := cs.takeWhile isTokenChar
    match cs.drop name.length with
    | '=' :: rest =>
      match value rest with
      | some rest => name ≠ [] && parametersFit fuel rest
      | none => false
    | _ => false

/-- The subtype and its suffix, which follows the last plus sign that does not come first. -/
def splitSuffix (cs : List Char) : List Char × Option (List Char) :=
  match cs with
  | [] => ([], none)
  | first :: rest =>
    match cutFirst '+' rest.reverse with
    | some (suffix, front) => (first :: front.reverse, some suffix.reverse)
    | none => (cs, none)

/-- Whether a media type is that of JSON: `application/json`, or any `application` type with the
suffix `json`. Case does not matter, and parameters are only checked for their form. -/
def isJson (cs : List Char) : Bool :=
  let top := cs.takeWhile isTokenChar
  match cs.drop top.length with
  | '/' :: rest =>
    let sub := rest.takeWhile isTokenChar
    let fits := match rest.drop sub.length with
      | [] => true
      | ';' :: rest => sub ≠ [] && parametersFit (rest.length + 1) rest
      | _ => false
    let (subtype, suffix) := splitSuffix (lowered sub)
    fits && lowered top = "application".toList &&
      (subtype = "json".toList || suffix = some "json".toList)
  | _ => false

end Postboard.Http.MediaType
