import Postboard.Config.Basic

/-! Why no settings could be loaded. -/

set_option autoImplicit false

namespace Postboard.Config

inductive Error where
  | unreadable (path : String)
  | malformed
  | noJson
  | secret (pointer : String)
  | schema (why : Json.Misfit)
  | invalid (why : Invalid)
  | secretMissing (name : String)

namespace Error

/-- The wording of a failure. The pointer to a secret stands in it, with the keys on the way. -/
def message : Error → String
  | .unreadable path => "failed to read yaml path: " ++ path
  | .malformed => "invalid yaml"
  | .noJson => "yaml->json conversion failed"
  | .secret pointer => "CONFIG_SECRET_DETECTED leaf=" ++ pointer ++ " value=REDACTED"
  | .schema _ => "config does not match schema"
  | .invalid why => why.message
  | .secretMissing name =>
    "SECRETS_MISSING: required env var '" ++ name ++ "' (database url) is not set or empty"

/-- What lies behind a failure, if that is more than its wording says. -/
def cause? : Error → Option String
  | .schema why => some why.message
  | _ => none

end Error

end Postboard.Config
