import Postboard.Config.Secret
import Postboard.Digest.Sha256
import Postboard.Json.Merge
import Postboard.Json.Printer

/-! Settings from layers of documents.

Documents are laid over one another in order, and those without a value do not count. The result
must hold nothing that looks like a secret, fit the schema and pass the checks. Its digest, that of
the canonical text of the merged value, tells whether two processes read the same settings.
-/

set_option autoImplicit false

namespace Postboard.Config

/-- Settings, the merged documents that they come from, and the digest of these. -/
structure Loaded where
  config : Config
  source : Json
  hash : String

/-- Lay a document over others. Without a value it leaves them as they are. -/
def overlay (lower : Json) : Option Json → Json
  | none => lower
  | some v => Json.merge lower v

def merged (documents : List (Option Json)) : Json := documents.foldl overlay (.obj [])

def ofJson (v : Json) : Except Error Config :=
  match read v with
  | .error why => .error (.schema why)
  | .ok c =>
    match c.check with
    | .error why => .error (.invalid why)
    | .ok _ => .ok c

def hash (v : Json) : String := Digest.Sha256.hex v.bytes

def ofMerged (v : Json) : Except Error Loaded :=
  -- Secrets come first, so no later message can quote one that stands below the root.
  match refuseSecrets v with
  | .error e => .error e
  | .ok _ =>
    match ofJson v with
    | .error e => .error e
    | .ok c => .ok ⟨c, v, hash v⟩

def load (documents : List (Option Json)) : Except Error Loaded := ofMerged (merged documents)

/-! ### The environment -/

def fileName : String := "HN_CONFIG"

def addrName : String := "HN_DAEMON_ADDR"

def reactiveUrlName : String := "HN_REACTIVE_URL"

def override (c : Config) (lookup : Lookup) : Config :=
  let c := match lookup.text? addrName with
    | some addr => { c with daemon := ⟨addr⟩ }
    | none => c
  match lookup.text? reactiveUrlName with
  | some url => { c with reactive := { c.reactive with baseUrl := url } }
  | none => c

end Postboard.Config
