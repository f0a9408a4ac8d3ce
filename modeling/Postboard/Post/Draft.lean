import Postboard.Json.Basic

/-! What an author writes: the title, the address and the body of a post. The address is empty when
the post points to none. -/

set_option autoImplicit false

namespace Postboard.Post

structure Draft where
  title : String
  url : String
  body : String
  deriving DecidableEq, Repr

def Draft.json (d : Draft) : Json :=
  .obj [("title", .str d.title), ("url", .str d.url), ("body", .str d.body)]

end Postboard.Post
