import Postboard.Proofs.Store.History

/-! A store follows its history: each table is what the events so far have made of it.

One lemma for each kind of event says that the store still follows; events that change no table are
one case for all operations. Numbers must not be used up, which `Fits` says of a history.
-/

set_option autoImplicit false

namespace Postboard.Store

variable {entered : List (Int32 × String)} {h : List Event} {s : Store}

structure Follows (entered : List (Int32 × String)) (h : List Event) (s : Store) : Prop where
  consistent : Consistent s
  users : s.users = Assoc.ofList entered
  posts : s.posts = survivors h
  counted : ∀ id, s.hasPost id = true → (s.upvotesOf id).length = votes id h
  unvoted : ∀ id : Int32, s.lastPost.toInt < id.toInt → votes id h = 0
  lastPost : s.lastPost.toInt = h.countP Event.creates
  lastUpvote : s.lastUpvote.toInt = h.countP Event.upvotes

/-- A history with fewer than 2³¹ - 1 posts made and as many upvotes given: no number is used up. -/
def Fits (h : List Event) : Prop :=
  h.countP Event.creates < 2147483647 ∧ h.countP Event.upvotes < 2147483647

theorem follows_start (entered : List (Int32 × String)) :
    Follows entered [] (withUsers entered) := by
  have start := withUsers_eq entered
  exact {
    consistent := withUsers_consistent entered
    users := by rw [start]
    posts := by rw [start]; rfl
    counted := by
      intro id present
      rw [start] at present
      cases present
    unvoted := fun _ _ => rfl
    lastPost := by rw [start]; rfl
    lastUpvote := by rw [start]; rfl }

theorem Follows.still (follows : Follows entered h s) {e : Event} (still : e.Still) {t : Store}
    (users : t.users = s.users) (posts : t.posts = s.posts) (upvotes : t.upvotes = s.upvotes)
    (lastPost : t.lastPost = s.lastPost) (lastUpvote : t.lastUpvote = s.lastUpvote)
    (texts : ∀ p ∈ s.posts, e.retext p.1 p.2.draft = p.2.draft) :
    Follows entered (h ++ [e]) t where
  consistent := follows.consistent.congr users posts upvotes lastPost lastUpvote
  users := users.trans follows.users
  posts := by rw [posts, survivors_snoc_still still (follows.posts ▸ texts), follows.posts]
  counted := by
    intro id present
    have same := follows.counted id (by rwa [hasPost, posts] at present)
    simpa [upvotesOf, upvotes, votes_snoc, still.votesFor] using same
  unvoted := by
    intro id beyond
    rw [lastPost] at beyond
    simp [votes_snoc, still.votesFor, follows.unvoted id beyond]
  lastPost := by simp [lastPost, follows.lastPost, still.creates]
  lastUpvote := by simp [lastUpvote, follows.lastUpvote, still.upvotes]

theorem Follows.created (follows : Follows entered h s) (room : s.lastPost.toInt < 2147483647)
    {author : Int32} (draft : Post.Draft) (known : s.hasUser author = true) :
    Follows entered (h ++ [.create author draft (.ok (s.lastPost + 1))])
      { s with
        posts := Assoc.insert (s.lastPost + 1) ⟨draft, author⟩ s.posts
        lastPost := s.lastPost + 1 } := by
  have next := Int32.toInt_next room
  have new := Assoc.insert_above (follows.consistent.sound.post_above room) (⟨draft, author⟩ : Stored)
  exact {
    consistent := consistent_created follows.consistent room draft known
    users := follows.users
    posts := by
      rw [survivors_snoc, ← follows.posts]
      have kept : revise (fun _ => true) (fun _ draft => draft) s.posts = s.posts :=
        revise_same (fun _ => rfl) fun _ _ => rfl
      exact new.trans (congrArg (· ++ _) kept.symm)
    counted := by
      intro id present
      rw [votes_snoc_other rfl]
      obtain ⟨p, member⟩ := hasPost_iff.mp present
      simp only [new] at member
      rcases List.mem_append.mp member with old | last
      · exact follows.counted id (hasPost_iff.mpr ⟨p, old⟩)
      -- The new number was never given before: nobody can have upvoted it.
      · obtain rfl : id = s.lastPost + 1 := (Prod.mk.inj (List.mem_singleton.mp last)).1
        have sound := follows.consistent.sound
        have none := sound.upvotesOf_absent (sound.next_absent room)
        have zero := follows.unvoted (s.lastPost + 1) (by omega)
        rw [zero]
        exact congrArg List.length none
    unvoted := by
      intro id beyond
      rw [votes_snoc_other rfl]
      exact follows.unvoted id (by simp only [next] at beyond; omega)
    lastPost := by simp [next, follows.lastPost, Event.creates]
    lastUpvote := by simp [follows.lastUpvote, Event.upvotes] }

theorem Follows.updated (follows : Follows entered h s) {id : Int32} {p : Stored}
    (found : Assoc.find? id s.posts = some p) (draft : Post.Draft) :
    Follows entered (h ++ [.update id draft (.ok true)])
      { s with posts := Assoc.insert id { p with draft := draft } s.posts } := by
  have sorted := follows.consistent.postsSorted
  exact {
    consistent := consistent_updated follows.consistent found draft
    users := follows.users
    posts := by
      rw [survivors_snoc_unborn rfl, ← follows.posts]
      refine Eq.trans ?_ (revise_all (fun _ => rfl) _ s.posts).symm
      refine (sorted.insert_present _ (Assoc.mem_of_find? found)).trans ?_
      refine List.map_congr_left fun e member => ?_
      -- An entry in place of another is a map over the entries, as in the history.
      by_cases here : e.1 = id
      · have same : e.2 = p := by
          have value : Assoc.find? e.1 s.posts = some e.2 := sorted.find?_of_mem member
          rw [here, found] at value
          exact (Option.some.inj value).symm
        simp [Event.retext, here, same]
      · simp [Event.retext, here, Ne.symm here]
    counted := by
      intro id' present
      rw [votes_snoc_other rfl]
      refine follows.counted id' ?_
      simp only [hasPost, Assoc.contains, Assoc.find?_insert] at present ⊢
      split at present
      next same => rw [same, found]; rfl
      next => exact present
    unvoted := by
      intro id' beyond
      rw [votes_snoc_other rfl]
      exact follows.unvoted id' beyond
    lastPost := by simp [follows.lastPost, Event.creates]
    lastUpvote := by simp [follows.lastUpvote, Event.upvotes] }

theorem Follows.deleted (follows : Follows entered h s) (id : Int32) (outcome : Post.Deletion) :
    Follows entered (h ++ [.delete id (.ok outcome)])
      { s with
        posts := Assoc.erase id s.posts
        upvotes := s.upvotes.filter fun e => e.2.post ≠ id } := by
  have sorted := follows.consistent.postsSorted
  have left := sorted.erase_eq_filter id
  exact {
    consistent := consistent_deleted follows.consistent id
    users := follows.users
    posts := by
      rw [survivors_snoc_unborn rfl, ← follows.posts]
      refine left.trans ?_
      simp [revise, Event.deletes, Event.retext, eq_comm]
    counted := by
      intro id' present
      rw [votes_snoc_other rfl]
      obtain ⟨p, member⟩ := hasPost_iff.mp present
      simp only [left] at member
      obtain ⟨old, other⟩ := List.mem_filter.mp member
      -- What is still there is another post, and its upvotes pass the filter.
      have distinct : id' ≠ id := of_decide_eq_true other
      have same := filter_other distinct s.upvotes
      exact (congrArg List.length same).trans (follows.counted id' (hasPost_iff.mpr ⟨p, old⟩))
    unvoted := by
      intro id' beyond
      rw [votes_snoc_other rfl]
      exact follows.unvoted id' beyond
    lastPost := by simp [follows.lastPost, Event.creates]
    lastUpvote := by simp [follows.lastUpvote, Event.upvotes] }

theorem Follows.upvoted (follows : Follows entered h s) (room : s.lastUpvote.toInt < 2147483647)
    {user post : Int32} (present : s.hasPost post = true) (known : s.hasUser user = true) :
    Follows entered (h ++ [.upvote user post (.ok (s.lastUpvote + 1))])
      { s with
        upvotes := Assoc.insert (s.lastUpvote + 1) ⟨post, user⟩ s.upvotes
        lastUpvote := s.lastUpvote + 1 } := by
  have next := Int32.toInt_next room
  have new := Assoc.insert_above (follows.consistent.upvote_above room) (⟨post, user⟩ : Vote)
  exact {
    consistent := consistent_upvoted follows.consistent room present known
    users := follows.users
    posts := by
      rw [survivors_snoc_unborn rfl]
      exact follows.posts.trans (revise_same (fun _ => rfl) fun _ _ => rfl).symm
    counted := by
      intro id there
      have before := follows.counted id there
      simp only [upvotesOf, new, List.filter_append, List.length_append, votes_snoc] at before ⊢
      by_cases here : post = id <;> simp [here, before, Event.votesFor]
    unvoted := by
      intro id beyond
      obtain ⟨p, member⟩ := hasPost_iff.mp present
      have within := (follows.consistent.postNumber _ member).2
      -- The post exists, so its number has been given.
      have other : post ≠ id := by
        rintro rfl
        dsimp only at beyond within
        omega
      simp [votes_snoc, follows.unvoted id beyond, Event.votesFor, other]
    lastPost := by simp [follows.lastPost, Event.creates]
    lastUpvote := by simp [next, follows.lastUpvote, Event.upvotes] }

/-! ### Runs -/

theorem fits_prefix (h later : List Event) (fit : Fits (h ++ later)) : Fits h := by
  simp only [Fits, List.countP_append] at fit ⊢
  omega

theorem follows_step (h : List Event) (s : Store) (op : Op) (follows : Follows entered h s)
    (fit : Fits (h ++ [(s.step op).1])) : Follows entered (h ++ [(s.step op).1]) (s.step op).2 := by
  have made := follows.lastPost
  have given := follows.lastUpvote
  have effect := step_effect s op
  generalize (s.step op).1 = e, (s.step op).2 = t at fit effect ⊢
  cases effect with
  | created draft known =>
    have room : s.lastPost.toInt < 2147483647 := by
      simp [Fits, Event.creates] at fit
      omega
    exact follows.created room draft known
  | updated draft found => exact follows.updated found draft
  | deleted id outcome => exact follows.deleted id outcome
  | upvoted present known =>
    have room : s.lastUpvote.toInt < 2147483647 := by
      simp [Fits, Event.upvotes] at fit
      omega
    exact follows.upvoted room present known
  | still quiet users posts upvotes lastPost lastUpvote texts =>
    exact follows.still (.of_quiet quiet) users posts upvotes lastPost lastUpvote texts

theorem follows_run (ops : List Op) (fit : Fits (run ops (withUsers entered)).1) :
    Follows entered (run ops (withUsers entered)).1 (run ops (withUsers entered)).2 := by
  have kept := run_keeps fits_prefix follows_step ops (follows_start entered)
  exact kept fit

end Postboard.Store
