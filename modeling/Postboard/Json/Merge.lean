import Postboard.Json.Basic

/-! Laying one JSON value over another.

Two objects are merged member by member; in every other case the upper value replaces the lower one.
-/

set_option autoImplicit false

namespace Postboard.Json

mutual

def merge (lower : Json) (upper : Json) : Json :=
  match upper with
  | .obj members =>
    match lower with
    -- Only two objects are merged; a list replaces a list as a whole.
    | .obj under => .obj (mergeMembers under members)
    | _ => .obj members
  | v => v

/-- The members `under` with others laid over them. A key that is new lies over null. -/
def mergeMembers (under : Members) : List (String × Json) → Members
  | [] => under
  | (k, v) :: rest =>
    mergeMembers (Assoc.insert k (merge ((Assoc.find? k under).getD .null) v) under) rest

end

end Postboard.Json
