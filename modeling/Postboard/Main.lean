import Postboard.Config.Text

/-! The command line: look at the settings that the environment names, the way the service does when
it starts, and tell their digest or the first fault.
-/

set_option autoImplicit false

namespace Postboard

def environment (names : List String) : IO Config.Lookup := do
  let found ← names.mapM fun name => do
    let value ← IO.getEnv name
    return (name, value)
  return fun name => (found.find? fun e => e.1 = name).bind Prod.snd

def fileAt (path : String) : IO Config.Files := do
  try
    let content ← IO.FS.readBinFile path
    return fun p => if p = path then some content.toList else none
  catch _ => return fun _ => none

def report (e : Config.Error) : IO UInt32 := do
  IO.eprintln ("config load failed: " ++ e.message)
  match e.cause? with
  | some cause => IO.eprintln cause
  | none => pure ()
  return 1

def checkSettings : IO UInt32 := do
  let lookup ← environment [Config.fileName, Config.addrName, Config.reactiveUrlName]
  let files ← match lookup.text? Config.fileName with
    | some path => fileAt path
    | none => pure fun _ => none
  match Config.loadFromEnvironment files lookup with
  | .error e => report e
  | .ok loaded =>
    let lookup ← environment [Text.trimmed loaded.config.db.urlEnv]
    match loaded.config.secrets lookup with
    | .error e => report e
    | .ok secrets =>
      IO.println ("config loaded: " ++ loaded.hash)
      IO.println ("secrets: " ++ secrets.display)
      IO.println ("listening address: " ++ loaded.config.daemon.addr)
      return 0

end Postboard

/-- Check the settings; the exit code tells whether the service could start with them. -/
def main : IO UInt32 := Postboard.checkSettings
