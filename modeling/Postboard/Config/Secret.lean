import Postboard.Config.Error
import Postboard.Json.Pointer
import Postboard.Text.Utf8

/-! Secrets: keeping them out of configuration documents, and taking the database address from the
environment instead.
-/

set_option autoImplicit false

namespace Postboard.Config

open Text

def secretStarts : List String := ["-----BEGIN", "sk-", "ghp_", "xoxb-"]

/-- Whether a text is an address with a password: after the first `://`, a colon before the last `@`
of the authority. -/
def hasPassword (cs : List Char) : Bool :=
  match afterFirst [':', '/', '/'] cs with
  | none => false
  | some rest =>
    let authority := rest.takeWhile fun c => c != '/'
    match cutFirst '@' authority.reverse with
    | none => false
    | some (_, user) => user.contains ':'

/-- Whether a text looks like a secret: a key or token of at least eight bytes, or an address with a
password. Blanks around it do not count. -/
def looksSecret (s : String) : Bool :=
  let cs := trim s.toList
  (secretStarts.any fun start => startsWith cs start.toList) && 8 ≤ Utf8.size cs || hasPassword cs

def isSecretAt (v : Json) (pointer : List Char) : Bool :=
  match Json.Pointer.resolve v pointer with
  | some (.str s) => looksSecret s
  | _ => false

/-- The first pointer to a text that looks like a secret, depth first. -/
def secretPointer? (v : Json) : Option (List Char) :=
  (Json.Pointer.leaves v).find? (isSecretAt v)

def refuseSecrets (v : Json) : Except Error Unit :=
  match secretPointer? v with
  | some pointer => .error (.secret (String.ofList pointer))
  | none => .ok ()

abbrev Lookup := String → Option String

/-- The value of a variable without the blanks at its ends; a blank value counts as none. -/
def Lookup.text? (lookup : Lookup) (name : String) : Option String :=
  match lookup name with
  | none => none
  | some v => if isBlankText v then none else some (trimmed v)

/-- What must not be printed. -/
structure Secrets where
  databaseUrl : String
  deriving DecidableEq

def Secrets.display (_ : Secrets) : String :=
  "ResolvedSecrets \x7b database_url: \"<REDACTED>\" \x7d"

def secrets (c : Config) (lookup : Lookup) : Except Error Secrets :=
  let name := trimmed c.db.urlEnv
  match lookup.text? name with
  | some url => .ok ⟨url⟩
  | none => .error (.secretMissing name)

end Postboard.Config
