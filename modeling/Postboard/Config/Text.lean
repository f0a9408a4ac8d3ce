import Postboard.Config.Layer
import Postboard.Yaml.Document

/-! Settings from YAML texts and files. -/

set_option autoImplicit false

namespace Postboard.Config

open Text

/-- The value that a text lays over others. A text that holds null has none, but a number that JSON
does not have is the value null. -/
def document (cs : List Char) : Except Error (Option Json) :=
  match Yaml.Document.parse cs with
  | none => .error .malformed
  | some v =>
    if v.isNull then .ok none
    else
      match v.json? with
      | none => .error .noJson
      | some j => .ok (some j)

def documents (texts : List (List Char)) : Except Error (List (Option Json)) := texts.mapM document

def loadTexts (texts : List (List Char)) : Except Error Loaded := (documents texts).bind load

abbrev Files := String → Option (List UInt8)

def fileText (files : Files) (path : String) : Except Error (List Char) :=
  match (files path).bind Utf8.decode? with
  | some cs => .ok cs
  | none => .error (.unreadable path)

/-- Load settings from YAML files. All are read before the first is looked into. -/
def loadFiles (files : Files) (paths : List String) : Except Error Loaded :=
  (paths.mapM (fileText files)).bind loadTexts

def loadFromEnvironment (files : Files) (lookup : Lookup) : Except Error Loaded :=
  (loadFiles files (lookup.text? fileName).toList).bind fun loaded =>
    -- The source and its hash stay those of the documents.
    let c := loaded.config.override lookup
    match c.check with
    | .ok _ => .ok { loaded with config := c }
    | .error why => .error (.invalid why)

end Postboard.Config
