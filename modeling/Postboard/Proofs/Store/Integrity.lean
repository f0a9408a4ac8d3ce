import Mathlib
import Postboard.Proofs.Store.Reached

/-! The integrity of the tables in every store that comes about.

References lead to rows that exist, numbers lie in their range and are handed out once, the upvotes
that the view shows add up to those that are stored, and a deletion takes out one post with exactly
its upvotes.
-/

set_option autoImplicit false

namespace Postboard.Store

variable {h : List Event} {s : Store}

/-! ### The columns of the view -/

def column (name : String) (rows : List Reactive.Row) : List (Option Json) :=
  rows.map fun r => Assoc.find? name r.value

theorem column_upvotes (s : Store) (limit : Nat) :
    column "upvotes" (s.view limit).rows =
      (s.ranking.take limit).map fun r => some (.nat r.upvotes) := by
  rw [column, view, List.map_map]
  rfl

theorem column_author (s : Store) (limit : Nat) :
    column "author" (s.view limit).rows =
      (s.ranking.take limit).map fun r => some
        (match Assoc.find? r.post.author s.users with
          | some name => .str name
          | none => .null) := by
  rw [column, view, List.map_map]
  rfl

theorem Consistent.author_named (consistent : Consistent s) (limit : Nat) :
    ∀ cell ∈ column "author" (s.view limit).rows, ∃ name : String, cell = some (.str name) := by
  intro cell member
  rw [column_author] at member
  obtain ⟨r, shown, rfl⟩ := List.mem_map.mp member
  have ranked := s.ranking_perm.mem_iff.mp (List.mem_of_mem_take shown)
  obtain ⟨e, there, rfl⟩ := List.mem_map.mp ranked
  have known := consistent.author e there
  rw [hasUser, Assoc.contains] at known
  obtain ⟨name, found⟩ := Option.isSome_iff_exists.mp known
  exact ⟨name, by rw [found]⟩

/-- Each upvote belongs to one post, so the posts' upvotes are all of them. -/
theorem Sound.sum_upvotesOf (sound : Sound s) :
    (s.posts.map fun e => (s.upvotesOf e.1).length).sum = s.upvotes.length := by
  have distinct : (s.posts.map Prod.fst).Nodup := sound.postsSorted.keys_nodup
  let targets : Multiset Int32 := s.upvotes.map fun v => v.2.post
  have counted : ∀ id, (s.upvotesOf id).length = targets.count id := by
    intro id
    rw [upvotesOf, ← List.countP_eq_length_filter, Multiset.coe_count, List.count, List.countP_map]
    rfl
  have there : ∀ id ∈ targets, id ∈ (s.posts.map Prod.fst).toFinset := by
    intro id member
    obtain ⟨v, voted, rfl⟩ := List.mem_map.mp (Multiset.mem_coe.mp member)
    obtain ⟨p, present⟩ := hasPost_iff.mp (sound.voted v voted)
    exact List.mem_toFinset.mpr (List.mem_map.mpr ⟨_, present, rfl⟩)
  calc (s.posts.map fun e => (s.upvotesOf e.1).length).sum
      = ((s.posts.map Prod.fst).map fun id => targets.count id).sum := by
        simp only [List.map_map, counted, Function.comp_def]
    _ = ∑ id ∈ (s.posts.map Prod.fst).toFinset, targets.count id := by
        rw [List.sum_toFinset _ distinct]
    _ = Multiset.card targets := Multiset.sum_count_eq_card there
    _ = s.upvotes.length := by simp [targets]

theorem Sound.column_upvotes_sum (sound : Sound s) {limit : Nat} (whole : s.posts.length ≤ limit) :
    ∃ counts : List Nat, column "upvotes" (s.view limit).rows =
      counts.map (fun n => some (.nat n)) ∧ counts.sum = s.upvotes.length := by
  refine ⟨s.ranking.map Ranked.upvotes, ?_, ?_⟩
  · rw [column_upvotes, take_ranking whole, List.map_map]
    rfl
  · rw [(s.ranking_perm.map Ranked.upvotes).sum_eq, tally, List.map_map]
    exact sound.sum_upvotesOf

/-! ### Deletions -/

structure Deletes (s : Store) (id : Int32) (outcome : Post.Deletion) (t : Store) : Prop where
  reported : outcome.upvotes = s.upvotes.countP fun v => v.2.post = id
  removed : t.upvotes.length + outcome.upvotes = s.upvotes.length
  gone : t.hasPost id = false ∧ ∀ v ∈ t.upvotes, v.2.post ≠ id
  others : t.posts = s.posts.filter (fun p => p.1 ≠ id) ∧
    t.upvotes = s.upvotes.filter fun v => v.2.post ≠ id
  kept : t.users = s.users ∧ t.lastPost = s.lastPost ∧ t.lastUpvote = s.lastUpvote
  existed : outcome.post = s.hasPost id
  absent : outcome.post = false → outcome.upvotes = 0

/-- A deletion fails in a broken store only. -/
theorem delete_succeeds (unbroken : s.broken = none) (id : Int32) :
    ∃ outcome t, delete id s = (.ok outcome, t) := by
  rcases delete_cases id s with ⟨-, deleted⟩ | ⟨broken, -⟩
  · exact ⟨_, _, deleted⟩
  · simp [unbroken] at broken

theorem Sound.delete_deletes (sound : Sound s) {id : Int32} {outcome : Post.Deletion} {t : Store}
    (done : delete id s = (.ok outcome, t)) : Deletes s id outcome t := by
  rcases delete_cases id s with ⟨-, deleted⟩ | ⟨-, e, failed⟩
  · rw [deleted] at done
    obtain ⟨reported, rfl⟩ := Prod.mk.inj done
    obtain rfl := Except.ok.inj reported
    have left := sound.postsSorted.erase_eq_filter id
    have count : (s.upvotesOf id).length = s.upvotes.countP fun v => v.2.post = id :=
      List.countP_eq_length_filter.symm
    exact {
      reported := count
      removed := by
        simp only [count, ← List.countP_eq_length_filter]
        have split := List.length_eq_countP_add_countP (fun v : Int32 × Vote => v.2.post = id)
          (l := s.upvotes)
        simp only [decide_eq_true_eq, ← ne_eq] at split
        omega
      gone := by
        refine ⟨eq_false_of_ne_true fun present => ?_, ?_⟩
        · obtain ⟨p, member⟩ := hasPost_iff.mp present
          simp only [left] at member
          simpa using (List.mem_filter.mp member).2
        · intro v member
          simpa using (List.mem_filter.mp member).2
      others := ⟨left, rfl⟩
      kept := ⟨rfl, rfl, rfl⟩
      existed := rfl
      -- Here the references matter: no upvote is for a post that is not there.
      absent := fun absent => congrArg List.length (sound.upvotesOf_absent absent) }
  · rw [failed] at done
    cases done

/-! ### All together -/

structure Integrity (h : List Event) (s : Store) : Prop where
  voted : ∀ v ∈ s.upvotes, s.hasPost v.2.post = true ∧ s.hasUser v.2.user = true
  authored : ∀ p ∈ s.posts, s.hasUser p.2.author = true
  named : ∀ limit, ∀ cell ∈ column "author" (s.view limit).rows,
    ∃ name : String, cell = some (.str name)
  postNumbers : ∀ p ∈ s.posts, 1 ≤ p.1.toInt ∧ p.1.toInt ≤ s.lastPost.toInt
  upvoteNumbers : ∀ v ∈ s.upvotes, 1 ≤ v.1.toInt ∧ v.1.toInt ≤ s.lastUpvote.toInt
  totalled : ∀ limit, s.posts.length ≤ limit → ∃ counts : List Nat,
    column "upvotes" (s.view limit).rows = counts.map (fun n => some (.nat n)) ∧
      counts.sum = s.upvotes.length
  postsIncrease : (postsMade h).Pairwise (· < ·)
  upvotesIncrease : (upvotesMade h).Pairwise (· < ·)
  created : ∀ author draft id t, create author draft s = (.ok id, t) →
    id ∉ postsMade h ∧ s.hasPost id = false ∧ t.posts = s.posts ++ [(id, ⟨draft, author⟩)]
  upvoted : ∀ user post id t, upvote user post s = (.ok id, t) →
    id ∉ upvotesMade h ∧ Assoc.contains id s.upvotes = false ∧
      t.upvotes = s.upvotes ++ [(id, ⟨post, user⟩)]
  deletable : s.broken = none → ∀ id, ∃ outcome t, delete id s = (.ok outcome, t)
  deleted : ∀ id outcome t, delete id s = (.ok outcome, t) → Deletes s id outcome t

theorem Reached.create_new (reached : Reached h s) (fit : Fits h) {author id : Int32}
    {draft : Post.Draft} {t : Store} (done : create author draft s = (.ok id, t)) :
    id ∉ postsMade h ∧ s.hasPost id = false ∧ t.posts = s.posts ++ [(id, ⟨draft, author⟩)] := by
  rcases create_cases author draft s with ⟨-, -, made⟩ | ⟨-, e, failed⟩
  · rw [made] at done
    obtain ⟨number, rfl⟩ := Prod.mk.inj done
    obtain rfl := Except.ok.inj number
    have ascending := reached.postsMade_ascending fit.1
    have size : (postsMade h).length < 2147483647 := by
      rw [length_postsMade]
      exact fit.1
    have room : s.lastPost.toInt < 2147483647 := by
      rw [ascending.count]
      omega
    have sound := reached.sound fit.1
    exact ⟨ascending.notMem_next size, sound.next_absent room,
      Assoc.insert_above (sound.post_above room) _⟩
  · rw [failed] at done
    cases done

theorem Reached.upvote_new (reached : Reached h s) (fit : Fits h) {user post id : Int32}
    {t : Store} (done : upvote user post s = (.ok id, t)) :
    id ∉ upvotesMade h ∧ Assoc.contains id s.upvotes = false ∧
      t.upvotes = s.upvotes ++ [(id, ⟨post, user⟩)] := by
  rcases upvote_cases user post s with ⟨-, -, -, made⟩ | ⟨-, e, failed⟩
  · rw [made] at done
    obtain ⟨number, rfl⟩ := Prod.mk.inj done
    obtain rfl := Except.ok.inj number
    have ascending := reached.upvotesMade_ascending fit.2
    have size : (upvotesMade h).length < 2147483647 := by
      rw [length_upvotesMade]
      exact fit.2
    have room : s.lastUpvote.toInt < 2147483647 := by
      rw [ascending.count]
      omega
    obtain ⟨entered, follows⟩ := reached.follows fit
    have above := follows.consistent.upvote_above room
    refine ⟨ascending.notMem_next size, eq_false_of_ne_true fun present => ?_,
      Assoc.insert_above above _⟩
    obtain ⟨v, member⟩ := Assoc.contains_eq_true.mp present
    exact Std.lt_irrefl (above _ member)
  · rw [failed] at done
    cases done

/-- As long as numbers are left, the tables of a store keep their integrity. -/
theorem reached_integrity (reached : Reached h s) (fit : Fits h) : Integrity h s := by
  obtain ⟨entered, follows⟩ := reached.follows fit
  have consistent := follows.consistent
  have sound := consistent.sound
  exact {
    voted := fun v member => ⟨consistent.voted v member, consistent.voter v member⟩
    authored := consistent.author
    named := consistent.author_named
    postNumbers := consistent.postNumber
    upvoteNumbers := consistent.upvoteNumber
    totalled := fun limit whole => sound.column_upvotes_sum whole
    postsIncrease := (reached.postsMade_ascending fit.1).sorted
    upvotesIncrease := (reached.upvotesMade_ascending fit.2).sorted
    created := fun author draft id t => reached.create_new fit
    upvoted := fun user post id t => reached.upvote_new fit
    deletable := delete_succeeds
    deleted := fun id outcome t => sound.delete_deletes }

/-- A post is made, upvoted and deleted, another one is made and upvoted, and operations fail in
between. -/
def turnover : List Op :=
  [.create 1 ⟨"a", "", "x"⟩, .upvote 1 1, .create 9 ⟨"b", "", ""⟩, .delete 1, .upvote 1 1,
    .create 1 ⟨"c", "", "y"⟩, .upvote 1 2, .upvote 9 2]

theorem integrity_of_turnover :
    Reached (run turnover (empty.withUser 1 "ann")).1 (run turnover (empty.withUser 1 "ann")).2 ∧
      Fits (run turnover (empty.withUser 1 "ann")).1 ∧
      postsMade (run turnover (empty.withUser 1 "ann")).1 = [1, 2] ∧
      Integrity (run turnover (empty.withUser 1 "ann")).1
        (run turnover (empty.withUser 1 "ann")).2 := by
  have reached := (Reached.start.enter 1 "ann").run turnover
  have fit : Fits (run turnover (empty.withUser 1 "ann")).1 := ⟨by decide, by decide⟩
  exact ⟨reached, fit, by decide, reached_integrity reached fit⟩

end Postboard.Store
