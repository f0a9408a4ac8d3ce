import Postboard.Proofs.Assoc
import Postboard.Proofs.Store.Operations

/-! What holds between the tables of a store, whatever was done to it.

Numbers lie between one and the number that was given last, and whatever a row refers to exists.
Every operation keeps this as long as a new number can be given.
-/

set_option autoImplicit false

namespace Postboard

theorem Int32.toInt_next {n : Int32} (room : n.toInt < 2147483647) :
    (n + 1).toInt = n.toInt + 1 := by
  have lower := Int32.le_toInt n
  rw [Int32.toInt_add]
  exact Int.bmod_eq_of_le (by simp; omega) (by simp; omega)

namespace Store

variable {s : Store}

structure Consistent (s : Store) : Prop where
  postsSorted : Assoc.Sorted s.posts
  upvotesSorted : Assoc.Sorted s.upvotes
  postNumber : ∀ e ∈ s.posts, 0 < e.1.toInt ∧ e.1.toInt ≤ s.lastPost.toInt
  upvoteNumber : ∀ e ∈ s.upvotes, 0 < e.1.toInt ∧ e.1.toInt ≤ s.lastUpvote.toInt
  lastPost : 0 ≤ s.lastPost.toInt
  lastUpvote : 0 ≤ s.lastUpvote.toInt
  author : ∀ e ∈ s.posts, s.hasUser e.2.author = true
  voted : ∀ e ∈ s.upvotes, s.hasPost e.2.post = true
  voter : ∀ e ∈ s.upvotes, s.hasUser e.2.user = true

theorem hasPost_iff {id : Int32} : s.hasPost id = true ↔ ∃ p, (id, p) ∈ s.posts :=
  Assoc.contains_eq_true

/-- The part that does not depend on how upvotes are numbered. It is kept for as long as a new post
can be numbered, however many upvotes there are. -/
structure Sound (s : Store) : Prop where
  postsSorted : Assoc.Sorted s.posts
  upvotesSorted : Assoc.Sorted s.upvotes
  postNumber : ∀ e ∈ s.posts, 0 < e.1.toInt ∧ e.1.toInt ≤ s.lastPost.toInt
  lastPost : 0 ≤ s.lastPost.toInt
  voted : ∀ e ∈ s.upvotes, s.hasPost e.2.post = true

theorem Consistent.sound (consistent : Consistent s) : Sound s :=
  ⟨consistent.postsSorted, consistent.upvotesSorted, consistent.postNumber, consistent.lastPost,
    consistent.voted⟩

/-- The next number of a post is above all that are there. -/
theorem Sound.post_above (sound : Sound s) (room : s.lastPost.toInt < 2147483647) :
    ∀ e ∈ s.posts, e.1 < s.lastPost + 1 := by
  intro e member
  have next := Int32.toInt_next room
  have last := (sound.postNumber e member).2
  exact Int32.lt_iff_toInt_lt.mpr (by omega)

/-- The next number of an upvote is above all that are there. -/
theorem Consistent.upvote_above (consistent : Consistent s)
    (room : s.lastUpvote.toInt < 2147483647) : ∀ e ∈ s.upvotes, e.1 < s.lastUpvote + 1 := by
  intro e member
  have next := Int32.toInt_next room
  have last := (consistent.upvoteNumber e member).2
  exact Int32.lt_iff_toInt_lt.mpr (by omega)

/-- Without the upvotes of one post those of another are as they were. -/
theorem filter_other {id id' : Int32} (distinct : id' ≠ id) (votes : List (Int32 × Vote)) :
    (votes.filter fun e => e.2.post ≠ id).filter (fun e => e.2.post = id') =
      votes.filter fun e => e.2.post = id' := by
  rw [List.filter_filter]
  refine List.filter_congr fun e _ => ?_
  by_cases here : e.2.post = id'
  · simp [here, distinct]
  · simp [here]

/-- A post that does not exist has no upvotes. -/
theorem Sound.upvotesOf_absent (sound : Sound s) {id : Int32} (absent : s.hasPost id = false) :
    s.upvotesOf id = [] := by
  refine List.filter_eq_nil_iff.mpr ?_
  intro e member here
  have there := sound.voted e member
  rw [of_decide_eq_true here, absent] at there
  exact Bool.false_ne_true there

theorem Sound.next_absent (sound : Sound s) (room : s.lastPost.toInt < 2147483647) :
    s.hasPost (s.lastPost + 1) = false := by
  refine eq_false_of_ne_true fun present => ?_
  obtain ⟨p, member⟩ := hasPost_iff.mp present
  exact Std.lt_irrefl (sound.post_above room _ member)

/-! ### What each change keeps -/

theorem Sound.created (sound : Sound s) (room : s.lastPost.toInt < 2147483647) (author : Int32)
    (draft : Post.Draft) :
    Sound { s with
      posts := Assoc.insert (s.lastPost + 1) ⟨draft, author⟩ s.posts
      lastPost := s.lastPost + 1 } := by
  have next := Int32.toInt_next room
  have new := Assoc.insert_above (sound.post_above room) (⟨draft, author⟩ : Stored)
  have first := sound.lastPost
  exact {
    postsSorted := sound.postsSorted.insert _ _
    upvotesSorted := sound.upvotesSorted
    postNumber := by
      intro e member
      rw [new] at member
      rcases List.mem_append.mp member with old | last
      · have bounds := sound.postNumber e old
        exact ⟨bounds.1, by simp only [next]; omega⟩
      · obtain rfl := List.mem_singleton.mp last
        exact ⟨by simp only [next]; omega, Int.le_refl _⟩
    lastPost := by simp only [next]; omega
    voted := by
      intro e member
      obtain ⟨p, present⟩ := hasPost_iff.mp (sound.voted e member)
      refine hasPost_iff.mpr ⟨p, ?_⟩
      rw [new]
      exact List.mem_append_left _ present }

theorem Sound.updated (sound : Sound s) {id : Int32} {p : Stored}
    (found : Assoc.find? id s.posts = some p) (draft : Post.Draft) :
    Sound { s with posts := Assoc.insert id { p with draft := draft } s.posts } where
  postsSorted := sound.postsSorted.insert _ _
  upvotesSorted := sound.upvotesSorted
  postNumber := by
    intro e member
    rcases Assoc.mem_insert member with rfl | old
    · exact sound.postNumber (id, p) (Assoc.mem_of_find? found)
    · exact sound.postNumber e old
  lastPost := sound.lastPost
  voted := by
    intro e member
    have before := sound.voted e member
    simp only [hasPost, Assoc.contains, Assoc.find?_insert] at before ⊢
    -- A post that is replaced is still there.
    split
    · rfl
    · exact before

theorem Sound.deleted (sound : Sound s) (id : Int32) :
    Sound { s with
      posts := Assoc.erase id s.posts
      upvotes := s.upvotes.filter fun e => e.2.post ≠ id } := by
  have left := sound.postsSorted.erase_eq_filter id
  exact {
    postsSorted := by
      simp only [left]
      exact sound.postsSorted.filter _
    upvotesSorted := sound.upvotesSorted.filter _
    postNumber := by
      intro e member
      rw [left] at member
      exact sound.postNumber e (List.mem_filter.mp member).1
    lastPost := sound.lastPost
    voted := by
      intro e member
      obtain ⟨old, other⟩ := List.mem_filter.mp member
      obtain ⟨p, present⟩ := hasPost_iff.mp (sound.voted e old)
      refine hasPost_iff.mpr ⟨p, ?_⟩
      simp only [left]
      exact List.mem_filter.mpr ⟨present, other⟩ }

/-- Whatever number an upvote gets, its post exists. -/
theorem Sound.upvoted (sound : Sound s) (user : Int32) {post : Int32}
    (present : s.hasPost post = true) :
    Sound { s with
      upvotes := Assoc.insert (s.lastUpvote + 1) ⟨post, user⟩ s.upvotes
      lastUpvote := s.lastUpvote + 1 } where
  postsSorted := sound.postsSorted
  upvotesSorted := sound.upvotesSorted.insert _ _
  postNumber := sound.postNumber
  lastPost := sound.lastPost
  voted := by
    intro e member
    rcases Assoc.mem_insert member with rfl | old
    · exact present
    · exact sound.voted e old

theorem Sound.congr {t : Store} (sound : Sound s) (posts : t.posts = s.posts)
    (upvotes : t.upvotes = s.upvotes) (lastPost : t.lastPost = s.lastPost) : Sound t := by
  obtain ⟨⟩ := s
  obtain ⟨⟩ := t
  subst posts upvotes lastPost
  exact ⟨sound.postsSorted, sound.upvotesSorted, sound.postNumber, sound.lastPost, sound.voted⟩

theorem consistent_created (consistent : Consistent s) (room : s.lastPost.toInt < 2147483647)
    {author : Int32} (draft : Post.Draft) (known : s.hasUser author = true) :
    Consistent { s with
      posts := Assoc.insert (s.lastPost + 1) ⟨draft, author⟩ s.posts
      lastPost := s.lastPost + 1 } := by
  have sound := consistent.sound.created room author draft
  exact {
    postsSorted := sound.postsSorted
    upvotesSorted := sound.upvotesSorted
    postNumber := sound.postNumber
    upvoteNumber := consistent.upvoteNumber
    lastPost := sound.lastPost
    lastUpvote := consistent.lastUpvote
    author := by
      intro e member
      rcases Assoc.mem_insert member with rfl | old
      · exact known
      · exact consistent.author e old
    voted := sound.voted
    voter := consistent.voter }

theorem consistent_updated (consistent : Consistent s) {id : Int32} {p : Stored}
    (found : Assoc.find? id s.posts = some p) (draft : Post.Draft) :
    Consistent { s with posts := Assoc.insert id { p with draft := draft } s.posts } := by
  have sound := consistent.sound.updated found draft
  exact {
    postsSorted := sound.postsSorted
    upvotesSorted := sound.upvotesSorted
    postNumber := sound.postNumber
    upvoteNumber := consistent.upvoteNumber
    lastPost := sound.lastPost
    lastUpvote := consistent.lastUpvote
    author := by
      intro e member
      rcases Assoc.mem_insert member with rfl | old
      · exact consistent.author (id, p) (Assoc.mem_of_find? found)
      · exact consistent.author e old
    voted := sound.voted
    voter := consistent.voter }

theorem consistent_deleted (consistent : Consistent s) (id : Int32) :
    Consistent { s with
      posts := Assoc.erase id s.posts
      upvotes := s.upvotes.filter fun e => e.2.post ≠ id } := by
  have sound := consistent.sound.deleted id
  have counted : ∀ e ∈ s.upvotes.filter (fun e => e.2.post ≠ id), e ∈ s.upvotes :=
    fun e member => (List.mem_filter.mp member).1
  exact {
    postsSorted := sound.postsSorted
    upvotesSorted := sound.upvotesSorted
    postNumber := sound.postNumber
    upvoteNumber := fun e member => consistent.upvoteNumber e (counted e member)
    lastPost := sound.lastPost
    lastUpvote := consistent.lastUpvote
    author := by
      intro e member
      rw [consistent.postsSorted.erase_eq_filter id] at member
      exact consistent.author e (List.mem_filter.mp member).1
    voted := sound.voted
    voter := fun e member => consistent.voter e (counted e member) }

theorem consistent_upvoted (consistent : Consistent s) (room : s.lastUpvote.toInt < 2147483647)
    {post user : Int32} (present : s.hasPost post = true) (known : s.hasUser user = true) :
    Consistent { s with
      upvotes := Assoc.insert (s.lastUpvote + 1) ⟨post, user⟩ s.upvotes
      lastUpvote := s.lastUpvote + 1 } := by
  have next := Int32.toInt_next room
  have first := consistent.lastUpvote
  have sound := consistent.sound.upvoted user present
  exact {
    postsSorted := sound.postsSorted
    upvotesSorted := sound.upvotesSorted
    postNumber := sound.postNumber
    upvoteNumber := by
      intro e member
      rcases Assoc.mem_insert member with rfl | old
      · exact ⟨by simp only [next]; omega, Int.le_refl _⟩
      · have bounds := consistent.upvoteNumber e old
        exact ⟨bounds.1, by simp only [next]; omega⟩
    lastPost := sound.lastPost
    lastUpvote := by simp only [next]; omega
    author := consistent.author
    voted := sound.voted
    voter := by
      intro e member
      rcases Assoc.mem_insert member with rfl | old
      · exact known
      · exact consistent.voter e old }

/-- Neither streams nor being broken matter. -/
theorem Consistent.congr {t : Store} (consistent : Consistent s) (users : t.users = s.users)
    (posts : t.posts = s.posts) (upvotes : t.upvotes = s.upvotes)
    (lastPost : t.lastPost = s.lastPost) (lastUpvote : t.lastUpvote = s.lastUpvote) :
    Consistent t := by
  obtain ⟨⟩ := s
  obtain ⟨⟩ := t
  subst users posts upvotes lastPost lastUpvote
  exact ⟨consistent.postsSorted, consistent.upvotesSorted, consistent.postNumber,
    consistent.upvoteNumber, consistent.lastPost, consistent.lastUpvote, consistent.author,
    consistent.voted, consistent.voter⟩

end Store

end Postboard
