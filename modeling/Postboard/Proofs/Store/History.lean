import Postboard.Proofs.Store.Ranking
import Postboard.Proofs.Store.Run

/-! The posts view computed from a history alone.

The history of a run says which posts were made, which of them were deleted later, what texts they
had last and how often each was upvoted. `listing` is the view that follows from it, without any
table. The lemmas say how each part changes when one more event happens.
-/

set_option autoImplicit false

namespace Postboard.Store

/-! ### What one event does -/

namespace Event

def creates : Event → Bool
  | .create _ _ (.ok _) => true
  | _ => false

def upvotes : Event → Bool
  | .upvote _ _ (.ok _) => true
  | _ => false

def deletes (id : Int32) : Event → Bool
  | .delete id' (.ok _) => id' = id
  | _ => false

def votesFor (id : Int32) : Event → Bool
  | .upvote _ post (.ok _) => post = id
  | _ => false

/-- The texts of a post after an event: every update of it that does not fail counts. -/
def retext (id : Int32) (draft : Post.Draft) : Event → Post.Draft
  | .update id' texts (.ok _) => if id' = id then texts else draft
  | _ => draft

def born : Event → List (Int32 × Stored)
  | .create author draft (.ok id) => [(id, ⟨draft, author⟩)]
  | _ => []

def quiet : Event → Bool
  | .create _ _ (.ok _) => false
  | .update _ _ (.ok true) => false
  | .delete _ (.ok _) => false
  | .upvote _ _ (.ok _) => false
  | _ => true

/-- An event that says nothing about which posts there are and which upvotes. -/
structure Still (e : Event) : Prop where
  creates : e.creates = false
  upvotes : e.upvotes = false
  deletes : ∀ id, e.deletes id = false
  votesFor : ∀ id, e.votesFor id = false
  born : e.born = []

theorem Still.of_quiet {e : Event} (quiet : e.quiet = true) : e.Still := by
  cases e with
  | create author draft result =>
    cases result with
    | ok id => cases quiet
    | error e => exact ⟨rfl, rfl, fun _ => rfl, fun _ => rfl, rfl⟩
  | delete id result =>
    cases result with
    | ok outcome => cases quiet
    | error e => exact ⟨rfl, rfl, fun _ => rfl, fun _ => rfl, rfl⟩
  | upvote user post result =>
    cases result with
    | ok id => cases quiet
    | error e => exact ⟨rfl, rfl, fun _ => rfl, fun _ => rfl, rfl⟩
  | _ => exact ⟨rfl, rfl, fun _ => rfl, fun _ => rfl, rfl⟩

end Event

/-- What one operation comes to: a table changes in one of four ways, or none does. -/
inductive Effect (s : Store) : Event → Store → Prop where
  | created {author : Int32} (draft : Post.Draft) : s.hasUser author = true →
      Effect s (.create author draft (.ok (s.lastPost + 1)))
        { s with
          posts := Assoc.insert (s.lastPost + 1) ⟨draft, author⟩ s.posts
          lastPost := s.lastPost + 1 }
  | updated {id : Int32} {p : Stored} (draft : Post.Draft) : Assoc.find? id s.posts = some p →
      Effect s (.update id draft (.ok true))
        { s with posts := Assoc.insert id { p with draft := draft } s.posts }
  | deleted (id : Int32) (outcome : Post.Deletion) :
      Effect s (.delete id (.ok outcome))
        { s with
          posts := Assoc.erase id s.posts
          upvotes := s.upvotes.filter fun e => e.2.post ≠ id }
  | upvoted {user post : Int32} : s.hasPost post = true → s.hasUser user = true →
      Effect s (.upvote user post (.ok (s.lastUpvote + 1)))
        { s with
          upvotes := Assoc.insert (s.lastUpvote + 1) ⟨post, user⟩ s.upvotes
          lastUpvote := s.lastUpvote + 1 }
  | still {e : Event} {t : Store} : e.quiet = true → t.users = s.users → t.posts = s.posts →
      t.upvotes = s.upvotes → t.lastPost = s.lastPost → t.lastUpvote = s.lastUpvote →
      (∀ p ∈ s.posts, e.retext p.1 p.2.draft = p.2.draft) → Effect s e t

theorem step_effect (s : Store) (op : Op) : Effect s (s.step op).1 (s.step op).2 := by
  cases op with
  | create author draft =>
    rcases create_cases author draft s with ⟨-, known, made⟩ | ⟨-, e, made⟩
    · simp only [step, made]
      exact .created draft known
    · simp only [step, made]
      exact .still rfl rfl rfl rfl rfl rfl fun _ _ => rfl
  | update id draft =>
    rcases update_cases id draft s with ⟨-, p, found, made⟩ | ⟨-, absent, made⟩ | ⟨-, e, made⟩
    · simp only [step, made]
      exact .updated draft found
    · simp only [step, made]
      refine .still rfl rfl rfl rfl rfl rfl fun p member => if_neg fun same => ?_
      have present : s.hasPost id = true := hasPost_iff.mpr ⟨p.2, same ▸ member⟩
      rw [hasPost, Assoc.contains, absent] at present
      cases present
    · simp only [step, made]
      exact .still rfl rfl rfl rfl rfl rfl fun _ _ => rfl
  | delete id =>
    rcases delete_cases id s with ⟨-, made⟩ | ⟨-, e, made⟩
    · simp only [step, made]
      exact .deleted id _
    · simp only [step, made]
      exact .still rfl rfl rfl rfl rfl rfl fun _ _ => rfl
  | upvote user post =>
    rcases upvote_cases user post s with ⟨-, present, known, made⟩ | ⟨-, e, made⟩
    · simp only [step, made]
      exact .upvoted present known
    · simp only [step, made]
      exact .still rfl rfl rfl rfl rfl rfl fun _ _ => rfl
  | breakWith message => exact .still rfl rfl rfl rfl rfl rfl fun _ _ => rfl
  | read d mode =>
    have same := request_sameTables d mode s
    unfold SameTables at same
    simp only [step]
    rw [same]
    exact .still rfl rfl rfl rfl rfl rfl fun _ _ => rfl

/-! ### What a history says -/

def textsAfter (id : Int32) (draft : Post.Draft) (later : List Event) : Post.Draft :=
  later.foldl (Event.retext id) draft

/-- The posts that were made and not deleted later, with their last texts, in the order in which
they were made. -/
def survivors : List Event → List (Int32 × Stored)
  | [] => []
  | .create author draft (.ok id) :: later =>
    if later.any (Event.deletes id) then survivors later
    else (id, ⟨textsAfter id draft later, author⟩) :: survivors later
  | _ :: later => survivors later

def votes (id : Int32) (h : List Event) : Nat := h.countP (Event.votesFor id)

def nameOf (entered : List (Int32 × String)) (user : Int32) : Option String :=
  (entered.reverse.find? fun e => e.1 = user).map Prod.snd

def standings (h : List Event) : List Ranked :=
  (survivors h).map fun e => ⟨e.1, votes e.1 h, e.2⟩

def listed (entered : List (Int32 × String)) (r : Ranked) : Reactive.Row where
  key := .num (.int r.id.toInt)
  value :=
    [("author", .str ((nameOf entered r.post.author).getD "")),
     ("body", .str r.post.draft.body),
     ("id", .int r.id.toInt),
     ("title", .str r.post.draft.title),
     ("upvotes", .nat r.upvotes),
     ("url", .str r.post.draft.url)]

/-- The posts of a history as they are listed: most upvotes first, then the lowest number. -/
def listing (entered : List (Int32 × String)) (h : List Event) : List Reactive.Row :=
  ((standings h).mergeSort Ranked.above).map (listed entered)

/-! ### One more event -/

def revise (kept : Int32 → Bool) (texts : Int32 → Post.Draft → Post.Draft)
    (posts : List (Int32 × Stored)) : List (Int32 × Stored) :=
  (posts.filter fun p => kept p.1).map fun p => (p.1, { p.2 with draft := texts p.1 p.2.draft })

theorem revise_append (kept : Int32 → Bool) (texts : Int32 → Post.Draft → Post.Draft)
    (posts posts' : List (Int32 × Stored)) :
    revise kept texts (posts ++ posts') = revise kept texts posts ++ revise kept texts posts' := by
  simp [revise]

theorem revise_revise (kept kept' : Int32 → Bool) (texts texts' : Int32 → Post.Draft → Post.Draft)
    (posts : List (Int32 × Stored)) :
    revise kept' texts' (revise kept texts posts) =
      revise (fun id => kept id && kept' id) (fun id draft => texts' id (texts id draft))
        posts := by
  simp [revise, List.filter_map, List.filter_filter, Function.comp_def, Bool.and_comm]

/-- Without anything left out only texts change. -/
theorem revise_all {kept : Int32 → Bool} (all : ∀ id, kept id = true)
    (texts : Int32 → Post.Draft → Post.Draft) (posts : List (Int32 × Stored)) :
    revise kept texts posts =
      posts.map fun p => (p.1, { p.2 with draft := texts p.1 p.2.draft }) := by
  rw [revise, List.filter_eq_self.mpr fun p _ => all p.1]

theorem revise_same {kept : Int32 → Bool} {texts : Int32 → Post.Draft → Post.Draft}
    {posts : List (Int32 × Stored)} (all : ∀ id, kept id = true)
    (same : ∀ p ∈ posts, texts p.1 p.2.draft = p.2.draft) : revise kept texts posts = posts := by
  rw [revise_all all]
  exact (List.map_congr_left fun p member => by rw [same p member]).trans (List.map_id' posts)

theorem survivors_cons (e : Event) (later : List Event) :
    survivors (e :: later) =
      revise (fun id => !later.any (Event.deletes id)) (fun id draft => textsAfter id draft later)
        e.born ++ survivors later := by
  cases e with
  | create author draft result =>
    cases result with
    | error _ => rfl
    | ok id =>
      by_cases gone : later.any (Event.deletes id) = true
      · simp [survivors, Event.born, revise, gone]
      · simp [survivors, Event.born, revise, gone]
  | _ => rfl

theorem survivors_snoc (h : List Event) (e : Event) :
    survivors (h ++ [e]) =
      revise (fun id => !e.deletes id) (fun id draft => e.retext id draft) (survivors h) ++
        e.born := by
  -- The new event is last for every post, also for those made at the very beginning.
  induction h with
  | nil =>
    rw [List.nil_append, survivors_cons]
    simp [revise, survivors, textsAfter]
  | cons first rest ih =>
    rw [List.cons_append, survivors_cons, ih, survivors_cons, revise_append, revise_revise,
      List.append_assoc]
    simp [textsAfter]

theorem survivors_snoc_unborn {e : Event} (unborn : e.born = []) (h : List Event) :
    survivors (h ++ [e]) =
      revise (fun id => !e.deletes id) (fun id draft => e.retext id draft) (survivors h) := by
  rw [survivors_snoc, unborn, List.append_nil]

theorem votes_snoc (id : Int32) (h : List Event) (e : Event) :
    votes id (h ++ [e]) = votes id h + if e.votesFor id then 1 else 0 := by
  simp only [votes, List.countP_append, List.countP_cons, List.countP_nil, Nat.zero_add]

theorem votes_snoc_other {e : Event} {id : Int32} (other : e.votesFor id = false)
    (h : List Event) : votes id (h ++ [e]) = votes id h := by
  rw [votes_snoc, other]
  rfl

theorem survivors_snoc_still {e : Event} (still : e.Still) {h : List Event}
    (same : ∀ p ∈ survivors h, e.retext p.1 p.2.draft = p.2.draft) :
    survivors (h ++ [e]) = survivors h := by
  rw [survivors_snoc_unborn still.born]
  exact revise_same (fun id => by rw [still.deletes]; rfl) same

end Postboard.Store
