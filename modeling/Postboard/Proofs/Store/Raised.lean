import Mathlib.Data.List.Nodup
import Mathlib.Data.List.TakeWhile
import Postboard.Proofs.Store.Slot

/-! What one upvote does to the view.

The row of the post gets one more upvote and goes up past the rows that it now stands before. The
other rows stay as they are and in their order, so the first rows of the view, however many, gain at
most the row of the post and lose at most one row.
-/

set_option autoImplicit false

namespace Postboard.Store

variable {h : List Event} {s t : Store} {post : Int32}

def Ranked.raised (r : Ranked) : Ranked := { r with upvotes := r.upvotes + 1 }

/-! ### Lists in which one element goes up -/

/-- What is taken from the front of a list with an element in between. -/
theorem mem_take_between {α : Type} {front back : List α} {a x : α} {n : Nat} :
    x ∈ (front ++ a :: back).take n ↔
      x = a ∧ front.length < n ∨
        x ∈ (front ++ back).take (if front.length < n then n - 1 else n) := by
  by_cases here : front.length < n
  · obtain ⟨k, rfl⟩ := Nat.exists_eq_add_of_lt here
    have shorter : front.length + k + 1 - 1 = front.length + k := rfl
    rw [if_pos here, shorter, Nat.add_assoc, List.take_length_add_append,
      List.take_length_add_append, List.take_succ_cons]
    simp only [List.mem_append, List.mem_cons, Nat.lt_add_of_pos_right k.succ_pos, and_true]
    exact or_left_comm
  · have short : n ≤ front.length := Nat.not_lt.mp here
    rw [if_neg here, List.take_append_of_le_length short, List.take_append_of_le_length short]
    simp [here]

section GoesUp

variable {α : Type} {above passed below : List α} {a b x : α} {n : Nat}

/-- Of the first elements only the one that went up can be new. -/
theorem gained_up (new : x ∈ (above ++ b :: (passed ++ below)).take n) :
    x = b ∨ x ∈ (above ++ passed ++ a :: below).take n := by
  rw [mem_take_between, ← List.append_assoc] at new
  rcases new with ⟨same, -⟩ | other
  · exact .inl same
  · refine .inr (mem_take_between.mpr (.inr (List.take_subset_take_left _ ?_ other)))
    rw [List.length_append]
    split <;> split <;> omega

/-- Of the first elements only the last can be lost, and only to the one that went up. -/
theorem lost_up (old : x ∈ (above ++ passed ++ a :: below).take n) :
    x = a ∧ b ∈ (above ++ b :: (passed ++ below)).take n ∨
      x ∈ (above ++ b :: (passed ++ below)).take n ∨
      (above ++ passed ++ below)[n - 1]? = some x := by
  simp only [mem_take_between, List.length_append, ← List.append_assoc] at old ⊢
  rcases old with ⟨same, there⟩ | other
  · exact .inl ⟨same, .inl ⟨trivial, by omega⟩⟩
  by_cases crossed : above.length < n ∧ n ≤ above.length + passed.length
  -- The element that went up comes to stand among the first ones and pushes one out.
  · have whole : n = n - 1 + 1 := by omega
    rw [if_neg (by omega), whole, List.take_add_one, List.mem_append, Option.mem_toList] at other
    rw [if_pos crossed.1]
    exact .inr (other.imp .inr id)
  · have same : (if above.length < n then n - 1 else n) =
        if above.length + passed.length < n then n - 1 else n := by
      split <;> split <;> omega
    rw [same]
    exact .inr (.inl (.inr other))

end GoesUp

/-! ### The rows after an upvote -/

structure Climb (s t : Store) (post : Int32) (above passed below : List Ranked) (r : Ranked) :
    Prop where
  number : r.id = post
  counted : r.upvotes = (s.upvotesOf post).length
  before : s.ranking = above ++ passed ++ r :: below
  after : t.ranking = above ++ r.raised :: (passed ++ below)
  higher : ∀ q ∈ above, q.before r.raised = true
  lower : ∀ q ∈ passed ++ below, r.raised.before q = true

/-- The post has one more upvote, and nothing else that a row is made from changes. -/
structure Upvoted (s t : Store) (post : Int32) : Prop where
  users : t.users = s.users
  posts : t.posts = s.posts
  votes : ∀ id, (t.upvotesOf id).length = (s.upvotesOf id).length + if id = post then 1 else 0

theorem Tidy.upvoted (tidy : Tidy s) (room : s.lastUpvote.toInt < 2147483647)
    (user post : Int32) :
    Upvoted s { s with
      upvotes := Assoc.insert (s.lastUpvote + 1) ⟨post, user⟩ s.upvotes
      lastUpvote := s.lastUpvote + 1 } post := by
  refine ⟨rfl, rfl, fun id => ?_⟩
  have slot := congrArg Slot.votes (congrFun (tidy.slot_upvoted room user post) id)
  by_cases here : id = post
  · subst here
    rw [Function.update_self] at slot
    rw [if_pos rfl]
    exact slot
  · rw [Function.update_of_ne here] at slot
    rw [if_neg here]
    exact slot

theorem Upvoted.tally (upvoted : Upvoted s t post) :
    t.tally = s.tally.map fun q => if q.id = post then q.raised else q := by
  rw [Store.tally, Store.tally, List.map_map, upvoted.posts]
  refine List.map_congr_left fun e _ => ?_
  simp only [Function.comp_apply, upvoted.votes]
  split <;> rfl

/-- The numbers of the rows are those of the posts, each once. -/
theorem ranking_numbers (sorted : Assoc.Sorted s.posts) : (s.ranking.map Ranked.id).Nodup := by
  have tally : s.tally.map Ranked.id = s.posts.map Prod.fst := by
    rw [Store.tally, List.map_map]
    rfl
  rw [(s.ranking_perm.map Ranked.id).nodup_iff, tally]
  exact sorted.keys_nodup

/-- Rows in order stay so when one of them goes up past those that it now stands before. -/
theorem ordered_raised {above passed below : List Ranked} {r : Ranked}
    (ordered : (above ++ passed ++ r :: below).Pairwise fun a b => a.above b = true)
    (higher : ∀ q ∈ above, q.before r.raised = true)
    (stop : ∀ q ∈ passed.head?, ¬ q.before r.raised = true) :
    (above ++ r.raised :: (passed ++ below)).Pairwise fun a b => a.above b = true := by
  have others : (above ++ (passed ++ below)).Pairwise fun a b => a.above b = true := by
    rw [← List.append_assoc]
    exact ordered.sublist ((List.Sublist.refl _).append (List.sublist_cons_self ..))
  obtain ⟨front, rest, across⟩ := List.pairwise_append.mp others
  obtain ⟨inPassed, -, -⟩ := List.pairwise_append.mp rest
  obtain ⟨-, back, -⟩ := List.pairwise_append.mp ordered
  refine List.pairwise_append.mpr ⟨front, List.pairwise_cons.mpr ⟨?_, rest⟩, ?_⟩
  · intro q member
    rcases List.mem_append.mp member with inside | behind
    -- The row stands above the first that it passed, and so above all of them.
    · cases passed with
      | nil => cases inside
      | cons first later =>
        have head := Ranked.above_of_not_before (stop first rfl)
        rcases List.mem_cons.mp inside with rfl | further
        · exact head
        · exact Ranked.above_trans head ((List.pairwise_cons.mp inPassed).1 q further)
    · have old := (List.pairwise_cons.mp back).1 q behind
      rw [Ranked.above_iff] at old ⊢
      simp only [Ranked.raised]
      omega
  · intro q member q' member'
    rcases List.mem_cons.mp member' with rfl | other
    · exact Ranked.above_of_before (higher q member)
    · exact across q member q' other

/-- When the row with a number gets one more upvote, no other row changes. -/
theorem map_raised {front below : List Ranked} {r : Ranked}
    (numbers : ((front ++ r :: below).map Ranked.id).Nodup) :
    (front ++ r :: below).map (fun q => if q.id = r.id then q.raised else q) =
      front ++ r.raised :: below := by
  rw [List.map_append, List.map_cons, List.nodup_middle, List.nodup_cons, ← List.map_append]
    at numbers
  have kept : ∀ q ∈ front ++ below, (if q.id = r.id then q.raised else q) = q := by
    intro q member
    exact if_neg fun same => numbers.1 (List.mem_map.mpr ⟨q, member, same⟩)
  rw [List.forall_mem_append] at kept
  rw [List.map_append, List.map_cons, if_pos rfl, List.map_congr_left kept.1,
    List.map_congr_left kept.2, List.map_id', List.map_id']

theorem Upvoted.exists_climb (upvoted : Upvoted s t post) (sorted : Assoc.Sorted s.posts)
    (present : s.hasPost post = true) :
    ∃ above passed below r, Climb s t post above passed below r := by
  obtain ⟨p, stored⟩ := hasPost_iff.mp present
  let r : Ranked := ⟨post, (s.upvotesOf post).length, p⟩
  have ranked : r ∈ s.ranking := s.ranking_perm.mem_iff.mpr (List.mem_map.mpr ⟨_, stored, rfl⟩)
  obtain ⟨front, below, shape⟩ := List.append_of_mem ranked
  let above := front.takeWhile fun q => q.before r.raised
  let passed := front.dropWhile fun q => q.before r.raised
  have split : above ++ passed = front := List.takeWhile_append_dropWhile
  rw [← split] at shape
  have numbers := ranking_numbers sorted
  have higher : ∀ q ∈ above, q.before r.raised = true := fun q => List.mem_takeWhile_imp
  have stop : ∀ q ∈ passed.head?, ¬ q.before r.raised = true := by
    intro q first
    have head := List.head?_dropWhile_not (fun q : Ranked => q.before r.raised) front
    rw [Option.mem_def.mp first] at head
    simpa using head
  have ordered := ordered_raised (shape ▸ s.ranking_ordered) higher stop
  have changed : t.tally.Perm (above ++ r.raised :: (passed ++ below)) := by
    rw [upvoted.tally]
    refine (s.ranking_perm.symm.map _).trans ?_
    rw [shape] at numbers ⊢
    rw [map_raised numbers]
    refine List.perm_middle.trans (.trans ?_ List.perm_middle.symm)
    rw [List.append_assoc]
  have numbers' := ranking_numbers (upvoted.posts ▸ sorted : Assoc.Sorted t.posts)
  have after := ordered_unique (t.ranking_perm.trans changed)
    (fun a here b there => List.inj_on_of_nodup_map numbers' here there) t.ranking_ordered ordered
  rw [after] at numbers'
  obtain ⟨-, behind, -⟩ := List.pairwise_append.mp (ordered_strict numbers' ordered)
  exact ⟨above, passed, below, r, rfl, rfl, shape, after, higher, (List.pairwise_cons.mp behind).1⟩

/-! ### The view after an upvote -/

def rowKey (post : Int32) : Reactive.Key := .num (.int post.toInt)

theorem rowKey_inj {a b : Int32} : rowKey a = rowKey b ↔ a = b := by
  simp [rowKey, Int32.toInt_inj]

theorem row_key (s : Store) (r : Ranked) : (s.row r).key = rowKey r.id := rfl

structure Shows (row : Reactive.Row) (post : Int32) (n : Nat) : Prop where
  key : row.key = rowKey post
  upvotes : Assoc.find? "upvotes" row.value = some (.nat n)

theorem shows_row (s : Store) (r : Ranked) : Shows (s.row r) r.id r.upvotes := ⟨rfl, rfl⟩

/-- How the row of a post with so many upvotes gets one more and goes up among the rows of a view. It
passes some rows, to stand right behind those with more upvotes, or as many and a lower number. -/
structure Rises (rows rows' : List Reactive.Row) (post : Int32) (n : Nat)
    (above passed below : List Reactive.Row) (row : Reactive.Row) : Prop where
  before : rows = above ++ passed ++ row :: below
  shown : Shows row post n
  after : rows' = above ++
    { row with value := Assoc.insert "upvotes" (.nat (n + 1)) row.value } :: (passed ++ below)
  higher : ∀ other ∈ above, ∃ id m, Shows other id m ∧
    (n + 1 < m ∨ m = n + 1 ∧ id.toInt < post.toInt)
  lower : ∀ other ∈ passed ++ below, ∃ id m, Shows other id m ∧
    (m < n + 1 ∨ m = n + 1 ∧ post.toInt < id.toInt)

structure Raises (s t : Store) (post : Int32) : Prop where
  climbed : ∀ limit, s.posts.length ≤ limit → ∃ above passed below row,
    Rises (s.view limit).rows (t.view limit).rows post
      (s.upvotes.countP fun v => v.2.post = post) above passed below row
  others : ∀ limit, s.posts.length ≤ limit →
    (t.view limit).rows.filter (fun row => row.key ≠ rowKey post) =
      (s.view limit).rows.filter fun row => row.key ≠ rowKey post
  -- Of the first rows only that of the post can be new.
  gained : ∀ limit, ∀ row ∈ (t.view limit).rows,
    row.key = rowKey post ∨ row ∈ (s.view limit).rows
  lost : ∀ limit, ∀ row ∈ (s.view limit).rows, ∀ row' ∈ (s.view limit).rows,
    row.key ∉ (t.view limit).rows.map Reactive.Row.key →
    row'.key ∉ (t.view limit).rows.map Reactive.Row.key → row = row'

theorem Upvoted.row (upvoted : Upvoted s t post) : t.row = s.row := by
  funext r
  simp only [Store.row, upvoted.users]

section Views

variable {above passed below : List Ranked} {r : Ranked}

theorem Climb.rises (climb : Climb s t post above passed below r) (same : t.row = s.row)
    {limit : Nat} (whole : s.posts.length ≤ limit) (whole' : t.posts.length ≤ limit) :
    Rises (s.view limit).rows (t.view limit).rows post
      (s.upvotes.countP fun v => v.2.post = post) (above.map s.row) (passed.map s.row)
      (below.map s.row) (s.row r) := by
  have count : (s.upvotes.countP fun v => v.2.post = post) = r.upvotes := by
    rw [climb.counted, upvotesOf, List.countP_eq_length_filter]
  have number : r.raised.id = post := climb.number
  rw [count]
  exact {
    before := by
      rw [view, take_ranking whole, climb.before]
      simp
    shown := climb.number ▸ shows_row s r
    after := by
      rw [view, take_ranking whole', climb.after, same]
      simp only [List.map_append, List.map_cons]
      rfl
    higher := by
      intro other member
      obtain ⟨q, there, rfl⟩ := List.mem_map.mp member
      have order := Ranked.before_iff.mp (climb.higher q there)
      rw [number] at order
      exact ⟨_, _, shows_row s q, order⟩
    lower := by
      intro other member
      rw [← List.map_append] at member
      obtain ⟨q, there, rfl⟩ := List.mem_map.mp member
      have order := Ranked.before_iff.mp (climb.lower q there)
      rw [number] at order
      exact ⟨_, _, shows_row s q, order.imp id (And.imp_left Eq.symm)⟩ }

theorem Climb.others (climb : Climb s t post above passed below r) :
    t.ranking.filter (fun q => q.id ≠ post) = s.ranking.filter fun q => q.id ≠ post := by
  have number := climb.number
  have number' : r.raised.id = post := number
  rw [climb.before, climb.after]
  simp [List.filter_append, number, number']

theorem Climb.gained (climb : Climb s t post above passed below r) {limit : Nat} {q : Ranked}
    (shown : q ∈ t.ranking.take limit) : q.id = post ∨ q ∈ s.ranking.take limit := by
  rw [climb.after] at shown
  rw [climb.before]
  rcases gained_up (a := r) shown with rfl | old
  · exact .inl climb.number
  · exact .inr old

/-- A row whose number is gone from the first rows was the last of them. -/
theorem Climb.lost (climb : Climb s t post above passed below r) {limit : Nat} {q : Ranked}
    (shown : q ∈ s.ranking.take limit) (gone : q.id ∉ (t.ranking.take limit).map Ranked.id) :
    (above ++ passed ++ below)[limit - 1]? = some q := by
  rw [climb.before] at shown
  rw [climb.after] at gone
  rcases lost_up (b := r.raised) shown with ⟨rfl, there⟩ | there | last
  · exact absurd (List.mem_map.mpr ⟨_, there, rfl⟩) gone
  · exact absurd (List.mem_map_of_mem there) gone
  · exact last

end Views

theorem Upvoted.raises (upvoted : Upvoted s t post) (sorted : Assoc.Sorted s.posts)
    (present : s.hasPost post = true) : Raises s t post := by
  obtain ⟨above, passed, below, r, climb⟩ := upvoted.exists_climb sorted present
  have rows : ∀ {u : Store} {limit : Nat} {row : Reactive.Row}, row ∈ (u.view limit).rows ↔
      ∃ q ∈ u.ranking.take limit, u.row q = row := List.mem_map
  exact {
    climbed := fun limit whole =>
      ⟨_, _, _, _, climb.rises upvoted.row whole (upvoted.posts ▸ whole)⟩
    others := by
      intro limit whole
      have whole' : t.posts.length ≤ limit := upvoted.posts ▸ whole
      have filtered : ∀ u : Store, u.posts.length ≤ limit → u.row = s.row →
          (u.view limit).rows.filter (fun row => row.key ≠ rowKey post) =
            (u.ranking.filter fun q => q.id ≠ post).map s.row := by
        intro u fits row
        rw [view, take_ranking fits, List.filter_map, row]
        simp only [Function.comp_def, row_key, ne_eq, rowKey_inj]
      rw [filtered t whole' upvoted.row, filtered s whole rfl, climb.others]
    gained := by
      intro limit row shown
      obtain ⟨q, first, rfl⟩ := rows.mp shown
      rcases climb.gained first with number | old
      · exact .inl (congrArg rowKey number)
      · exact .inr (rows.mpr ⟨q, old, by rw [upvoted.row]⟩)
    lost := by
      have last : ∀ {limit : Nat} {q : Ranked}, q ∈ s.ranking.take limit →
          (s.row q).key ∉ (t.view limit).rows.map Reactive.Row.key →
            (above ++ passed ++ below)[limit - 1]? = some q := by
        intro limit q shown gone
        refine climb.lost shown fun there => gone ?_
        obtain ⟨q', first, same⟩ := List.mem_map.mp there
        exact List.mem_map.mpr ⟨_, rows.mpr ⟨q', first, rfl⟩, congrArg rowKey same⟩
      intro limit row shown row' shown' gone gone'
      obtain ⟨q, first, rfl⟩ := rows.mp shown
      obtain ⟨q', first', rfl⟩ := rows.mp shown'
      have same := (last first gone).symm.trans (last first' gone')
      rw [Option.some.inj same] }

/-- As long as numbers are left for upvotes, an upvote of a post by a user is made and raises the
post in the view. -/
theorem Reached.upvote_raises (reached : Reached h s) (unbroken : s.broken = none)
    (fit : h.countP Event.upvotes < 2147483647) {user post : Int32}
    (present : s.hasPost post = true) (known : s.hasUser user = true) :
    ∃ id t, upvote user post s = (.ok id, t) ∧ Raises s t post := by
  have tidy := reached.tidy fit
  have given := (reached.upvotesMade_ascending fit).count
  rw [length_upvotesMade] at given
  have made := upvote_unbroken unbroken user post
  rw [if_pos present, if_pos known] at made
  exact ⟨_, _, made, (tidy.upvoted (by omega) user post).raises tidy.posts present⟩

def tied : List Op :=
  [.create 1 ⟨"a", "", "x"⟩, .create 1 ⟨"b", "", "y"⟩, .create 1 ⟨"c", "", "z"⟩, .upvote 1 2]

/-- The third post goes up past the first, and with as many upvotes it stays behind the second. -/
theorem upvote_raises_third :
    ∃ s t id, Reached (run tied (empty.withUser 1 "ann")).1 s ∧ s.broken = none ∧
      (run tied (empty.withUser 1 "ann")).1.countP Event.upvotes < 2147483647 ∧
      s.hasPost 3 = true ∧ s.hasUser 1 = true ∧ upvote 1 3 s = (.ok id, t) ∧ Raises s t 3 ∧
      (s.view 3).rows.map Reactive.Row.key = [rowKey 2, rowKey 1, rowKey 3] ∧
      ((upvote 1 3 s).2.view 3).rows.map Reactive.Row.key = [rowKey 2, rowKey 3, rowKey 1] := by
  have reached := (Reached.start.enter 1 "ann").run tied
  have unbroken : (run tied (empty.withUser 1 "ann")).2.broken = none := by decide
  have fit : (run tied (empty.withUser 1 "ann")).1.countP Event.upvotes < 2147483647 := by decide
  have present : (run tied (empty.withUser 1 "ann")).2.hasPost 3 = true := by decide
  have known : (run tied (empty.withUser 1 "ann")).2.hasUser 1 = true := by decide
  obtain ⟨id, t, made, raises⟩ := reached.upvote_raises unbroken fit present known
  exact ⟨_, t, id, reached, unbroken, fit, present, known, made, raises, by decide, by decide⟩

end Postboard.Store
