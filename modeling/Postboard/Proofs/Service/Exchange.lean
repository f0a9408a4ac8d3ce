import Postboard.Proofs.Service.Routes

/-! What a service does with one request.

A request reads the posts, asks for a mutation, or does neither. `respond_cases` says all that can
happen: a read goes to the client, a mutation whose number and body are accepted goes to the gateway
once, and everything else is answered without touching the state.
-/

set_option autoImplicit false

namespace Postboard.Service

open Http Text

variable {σ ε : Type}

structure IsRead (r : Request) : Prop where
  path : r.target.path = postsPath
  method : r.method = .get ∨ r.method = .head

/-- The path of a request is that of a post whose number is written so. -/
def AtPost (r : Request) (number : List UInt8) : Prop :=
  number ≠ [] ∧ 0x2F ∉ number ∧ r.target.path = postPath number

def AtUpvotes (r : Request) (number : List UInt8) : Prop :=
  0x2F ∉ number ∧ r.target.path = upvotesPath number

inductive IsMutation (r : Request) : Prop where
  | create : r.target.path = postsPath → r.method = .post → IsMutation r
  | update {number : List UInt8} : AtPost r number → r.method = .put → IsMutation r
  | delete {number : List UInt8} : AtPost r number → r.method = .delete → IsMutation r
  | upvote {number : List UInt8} : AtUpvotes r number → r.method = .post → IsMutation r

/-- A mutation with its arguments. The user is not one of them. -/
inductive Mutation where
  | create (draft : Post.Draft)
  | update (id : Int32) (draft : Post.Draft)
  | delete (id : Int32)
  | upvote (id : Int32)
  deriving DecidableEq, Repr

/-- A request from which number and body of a mutation are accepted. -/
inductive Accepted (r : Request) : Mutation → Prop where
  | create {draft : Post.Draft} : r.target.path = postsPath → r.method = .post →
      draftOf Post.newPost r = .ok draft → Accepted r (.create draft)
  | update {number : List UInt8} {id : Int32} {draft : Post.Draft} : AtPost r number →
      r.method = .put → postNumber number = .ok id → draftOf Post.postFields r = .ok draft →
      Accepted r (.update id draft)
  | delete {number : List UInt8} {id : Int32} : AtPost r number → r.method = .delete →
      postNumber number = .ok id → Accepted r (.delete id)
  | upvote {number : List UInt8} {id : Int32} : AtUpvotes r number → r.method = .post →
      postNumber number = .ok id → Accepted r (.upvote id)

/-- A mutation on behalf of a user: whether it succeeds, and the state after it. -/
def Mutation.run (g : Post.Gateway σ ε) (user : Int32) (state : σ) : Mutation → Bool × σ
  | .create draft => let (result, state) := g.create user draft state; (result.isOk, state)
  | .update id draft => let (result, state) := g.update id draft state; (result.isOk, state)
  | .delete id => let (result, state) := g.delete id state; (result.isOk, state)
  | .upvote id => let (result, state) := g.upvote user id state; (result.isOk, state)

def verdict (succeeded : Bool) : Response :=
  if succeeded then .text 200 "ok" else .text 500 "not ok"

/-- A response as it is shown to a request: without its body to `HEAD`. -/
def shownTo (r : Request) (response : Response) : Response :=
  if r.method = .head then withoutBody response else response

def IsRefusal (response : Response) : Prop := 400 ≤ response.status ∧ response.status < 500

theorem mutationResponse_eq {α : Type} (result : Except ε α) :
    mutationResponse result = verdict result.isOk := by
  cases result <;> rfl

theorem postNumber_refusal {segment : List UInt8} {response : Response}
    (refused : postNumber segment = .error response) : IsRefusal response := by
  unfold postNumber at refused
  split at refused
  · cases refused
    exact ⟨by decide, by decide⟩
  · split at refused
    · cases refused
    · cases refused
      exact ⟨by simp [Response.text], by simp [Response.text]⟩

theorem draftOf_refusal {type : String} {r : Request} {response : Response}
    (refused : draftOf type r = .error response) : IsRefusal response := by
  unfold draftOf at refused
  split at refused
  · cases refused
    exact ⟨by decide, by decide⟩
  · split at refused
    · cases refused
      exact ⟨by decide, by decide⟩
    · split at refused
      · cases refused
      next fault _ =>
        cases refused
        unfold draftResponse
        split <;> exact ⟨by simp [Response.text], by simp [Response.text]⟩

/-! ### The cases of a request -/

variable (s : Service σ ε) (r : Request) (state : σ)

theorem respond_read (read : IsRead r) :
    s.respond r state =
      ((s.readPosts r state).1.map (shownTo r), (s.readPosts r state).2) := by
  have route := Route.ofPath_posts_iff.mpr read.path
  have shown : r.method = .get → shownTo r = id := by
    intro get
    funext response
    simp [shownTo, get]
  have bare : r.method = .head → shownTo r = withoutBody := by
    intro head
    funext response
    simp [shownTo, head]
  rcases read.method with get | head
  · simp [respond, route, get, shown get]
  · simp [respond, route, head, bare head]

theorem respond_accepted {m : Mutation} (accepted : Accepted r m) :
    s.respond r state =
      (some (verdict (m.run s.gateway s.principal state).1),
        (m.run s.gateway s.principal state).2) := by
  cases accepted with
  | create path method draft =>
    have route := Route.ofPath_posts_iff.mpr path
    simp [respond, route, method, createPost, draft, mutationResponse_eq, Mutation.run]
  | update place method number draft =>
    have route := Route.ofPath_post_iff.mpr place
    simp [respond, route, method, updatePost, number, draft, mutationResponse_eq, Mutation.run]
  | delete place method number =>
    have route := Route.ofPath_post_iff.mpr place
    simp [respond, route, method, deletePost, number, mutationResponse_eq, Mutation.run]
  | upvote place method number =>
    have route := Route.ofPath_upvotes_iff.mpr place
    simp [respond, route, method, upvotePost, number, mutationResponse_eq, Mutation.run]

/-- A mutation whose number or body is not accepted is refused and changes nothing. -/
theorem respond_refused (asked : IsMutation r) (refused : ∀ m, ¬ Accepted r m) :
    ∃ response, s.respond r state = (some response, state) ∧ IsRefusal response := by
  -- The number is looked at before the body, and the proof follows that order.
  cases asked with
  | create path method =>
    have route := Route.ofPath_posts_iff.mpr path
    cases body : draftOf Post.newPost r with
    | ok draft => exact absurd (.create path method body) (refused _)
    | error response =>
      exact ⟨response, by simp [respond, route, method, createPost, body], draftOf_refusal body⟩
  | @update number place method =>
    have route := Route.ofPath_post_iff.mpr place
    cases id : postNumber number with
    | error response =>
      exact ⟨response, by simp [respond, route, method, updatePost, id], postNumber_refusal id⟩
    | ok _ =>
      cases body : draftOf Post.postFields r with
      | ok draft => exact absurd (.update place method id body) (refused _)
      | error response =>
        exact ⟨response, by simp [respond, route, method, updatePost, id, body],
          draftOf_refusal body⟩
  | @delete number place method =>
    have route := Route.ofPath_post_iff.mpr place
    cases id : postNumber number with
    | error response =>
      exact ⟨response, by simp [respond, route, method, deletePost, id], postNumber_refusal id⟩
    | ok _ => exact absurd (.delete place method id) (refused _)
  | @upvote number place method =>
    have route := Route.ofPath_upvotes_iff.mpr place
    cases id : postNumber number with
    | error response =>
      exact ⟨response, by simp [respond, route, method, upvotePost, id], postNumber_refusal id⟩
    | ok _ => exact absurd (.upvote place method id) (refused _)

/-- A request that is neither a read nor a mutation is answered by itself. -/
theorem respond_other (noRead : ¬ IsRead r) (noMutation : ¬ IsMutation r) :
    ∃ response, s.respond r state = (some response, state) := by
  cases route : Route.ofPath r.target.path with
  | posts =>
    have path := Route.ofPath_posts_iff.mp route
    cases method : r.method with
    | get => exact absurd ⟨path, .inl method⟩ noRead
    | head => exact absurd ⟨path, .inr method⟩ noRead
    | post => exact absurd (.create path method) noMutation
    | _ => exact ⟨_, by simp only [respond, route, method]; rfl⟩
  | post number =>
    have place := Route.ofPath_post_iff.mp route
    cases method : r.method with
    | put => exact absurd (.update place method) noMutation
    | delete => exact absurd (.delete place method) noMutation
    | _ => exact ⟨_, by simp only [respond, route, method]; rfl⟩
  | upvotes number =>
    have place := Route.ofPath_upvotes_iff.mp route
    cases method : r.method with
    | post => exact absurd (.upvote place method) noMutation
    | _ => exact ⟨_, by simp only [respond, route, method]; rfl⟩
  | healthcheck => cases method : r.method <;> exact ⟨_, by simp only [respond, route, method]; rfl⟩
  | unknown => exact ⟨_, by simp only [respond, route]; rfl⟩

theorem respond_cases :
    (IsRead r ∧ s.respond r state =
      ((s.readPosts r state).1.map (shownTo r), (s.readPosts r state).2)) ∨
    (∃ m, Accepted r m ∧ s.respond r state =
      (some (verdict (m.run s.gateway s.principal state).1),
        (m.run s.gateway s.principal state).2)) ∨
    (IsMutation r ∧ (∀ m, ¬ Accepted r m) ∧
      ∃ response, s.respond r state = (some response, state) ∧ IsRefusal response) ∨
    (¬ IsRead r ∧ ¬ IsMutation r ∧ ∃ response, s.respond r state = (some response, state)) := by
  by_cases read : IsRead r
  · exact .inl ⟨read, s.respond_read r state read⟩
  · by_cases accepted : ∃ m, Accepted r m
    · obtain ⟨m, accepted⟩ := accepted
      exact .inr (.inl ⟨m, accepted, s.respond_accepted r state accepted⟩)
    · have refused : ∀ m, ¬ Accepted r m := fun m yes => accepted ⟨m, yes⟩
      by_cases asked : IsMutation r
      · exact .inr (.inr (.inl ⟨asked, refused, s.respond_refused r state asked refused⟩))
      · exact .inr (.inr (.inr ⟨read, asked, s.respond_other r state read asked⟩))

theorem Accepted.isMutation {m : Mutation} (accepted : Accepted r m) : IsMutation r := by
  cases accepted with
  | create path method => exact .create path method
  | update place method => exact .update place method
  | delete place method => exact .delete place method
  | upvote place method => exact .upvote place method

/-- No request is both a read and a mutation. -/
theorem IsRead.not_isMutation (read : IsRead r) : ¬ IsMutation r := by
  have route := Route.ofPath_posts_iff.mpr read.path
  intro asked
  cases asked with
  | create _ method => rcases read.method with get | head <;> simp_all
  | update place => exact absurd (route.symm.trans (Route.ofPath_post_iff.mpr place)) (by simp)
  | delete place => exact absurd (route.symm.trans (Route.ofPath_post_iff.mpr place)) (by simp)
  | upvote place => exact absurd (route.symm.trans (Route.ofPath_upvotes_iff.mpr place)) (by simp)

end Postboard.Service
