import Postboard.Config.Text

/-! A directory of files in memory, as a source of configuration. -/

set_option autoImplicit false

namespace Postboard.Config

open Text

abbrev Directory := List (String × List UInt8)

namespace Directory

/-- The steps of a path; single dots and repeated slashes do not count. -/
def steps (path : String) : List (List Char) :=
  (splitAt '/' path.toList).filter fun s => s ≠ [] && s ≠ ['.']

def endsInDirectory (path : String) : Bool :=
  match (splitAt '/' path.toList).getLast? with
  | some s => s = [] || s = ['.']
  | none => true

def files (d : Directory) : Files := fun path =>
  if path.toList.head? = some '/' || endsInDirectory path then none
  else (d.find? fun e => steps e.1 = steps path).map Prod.snd

end Directory

end Postboard.Config
