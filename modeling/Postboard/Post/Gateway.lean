import Postboard.Post.Draft

/-! The mutations of posts, whatever keeps them. -/

set_option autoImplicit false

namespace Postboard.Post

structure Deletion where
  upvotes : Nat
  post : Bool
  deriving DecidableEq, Repr

/-- The four mutations over a state, with failures of a type of their own. Users and posts are named
by number: `create` and `upvote` give the number of the new row, and `update` tells whether there was
a post. -/
structure Gateway (σ ε : Type) where
  create : Int32 → Draft → σ → Except ε Int32 × σ
  update : Int32 → Draft → σ → Except ε Bool × σ
  delete : Int32 → σ → Except ε Deletion × σ
  upvote : Int32 → Int32 → σ → Except ε Int32 × σ

namespace Gateway

variable {σ τ ε : Type}

def onFirst.step {α : Type} (f : σ → α × σ) (s : σ × τ) : α × (σ × τ) :=
  let (r, s') := f s.1
  (r, (s', s.2))

def onFirst (g : Gateway σ ε) : Gateway (σ × τ) ε where
  create author draft := onFirst.step (g.create author draft)
  update id draft := onFirst.step (g.update id draft)
  delete id := onFirst.step (g.delete id)
  upvote user id := onFirst.step (g.upvote user id)

end Gateway

end Postboard.Post
