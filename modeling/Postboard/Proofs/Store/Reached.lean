import Mathlib.Data.List.Pairwise
import Postboard.Proofs.Store.ViewOfHistory

/-! The stores that come about, and the numbers that posts and upvotes get on the way.

`Reached` also lets users be entered between operations. The numbers of posts and of upvotes are
handed out in the same way, so one lemma about a counter serves both.
-/

set_option autoImplicit false

namespace Postboard.Store

/-- A store that comes about with a history: users are entered and operations carried out in any
order. -/
inductive Reached : List Event → Store → Prop where
  | start : Reached [] empty
  | enter {h : List Event} {s : Store} (id : Int32) (name : String) : Reached h s →
      Reached h (s.withUser id name)
  | step {h : List Event} {s : Store} (op : Op) : Reached h s →
      Reached (h ++ [(s.step op).1]) (s.step op).2

variable {h : List Event} {s : Store}

theorem Reached.run (reached : Reached h s) (ops : List Op) :
    Reached (h ++ (Store.run ops s).1) (Store.run ops s).2 :=
  @run_keeps Reached (fun _ => True) (fun _ _ _ => trivial)
    (fun _ _ op before _ => before.step op) ops h s reached trivial

/-! ### Counters -/

/-- Numbers that a counter handed out from one on, with the last of them. -/
structure Ascending (ids : List Int32) (last : Int32) : Prop where
  sorted : ids.Pairwise (· < ·)
  range : ∀ id ∈ ids, 0 < id.toInt ∧ id.toInt ≤ last.toInt
  count : last.toInt = ids.length

/-- What an event says of the number that it may have got. -/
def Counts (result : Option Int32) (last last' : Int32) : Prop :=
  result = some (last + 1) ∧ last' = last + 1 ∨ result = none ∧ last' = last

theorem Ascending.start : Ascending [] 0 := ⟨.nil, by simp, rfl⟩

theorem Ascending.next {ids : List Int32} {last : Int32} (ascending : Ascending ids last)
    (room : ids.length < 2147483647) : Ascending (ids ++ [last + 1]) (last + 1) := by
  have count := ascending.count
  have next : (last + 1).toInt = last.toInt + 1 := Int32.toInt_next (by omega)
  exact {
    sorted := by
      refine List.pairwise_append.mpr ⟨ascending.sorted, List.pairwise_singleton .., ?_⟩
      intro id old id' new
      obtain rfl := List.mem_singleton.mp new
      have bound := (ascending.range id old).2
      exact Int32.lt_iff_toInt_lt.mpr (by omega)
    range := by
      intro id member
      rcases List.mem_append.mp member with old | new
      · have bounds := ascending.range id old
        omega
      · obtain rfl := List.mem_singleton.mp new
        omega
    count := by simp [next, count] }

theorem Ascending.counts {number : Event → Option Int32} {last last' : Int32} {e : Event}
    (ascending : Ascending (h.filterMap number) last) (counts : Counts (number e) last last')
    (room : (h.filterMap number).length < 2147483647) :
    Ascending ((h ++ [e]).filterMap number) last' := by
  rw [List.filterMap_append]
  rcases counts with ⟨got, rfl⟩ | ⟨none, rfl⟩
  · simpa [got] using ascending.next room
  · simpa [none] using ascending

theorem Ascending.notMem_next {ids : List Int32} {last : Int32} (ascending : Ascending ids last)
    (room : ids.length < 2147483647) : last + 1 ∉ ids := by
  intro member
  have sorted := (ascending.next room).sorted
  have less := (List.pairwise_append.mp sorted).2.2 _ member _ List.mem_cons_self
  exact Std.lt_irrefl less

/-! ### The two counters of a store -/

def Event.madePost : Event → Option Int32
  | .create _ _ (.ok id) => some id
  | _ => none

def Event.madeUpvote : Event → Option Int32
  | .upvote _ _ (.ok id) => some id
  | _ => none

def postsMade (h : List Event) : List Int32 := h.filterMap Event.madePost

def upvotesMade (h : List Event) : List Int32 := h.filterMap Event.madeUpvote

theorem length_postsMade (h : List Event) : (postsMade h).length = h.countP Event.creates := by
  rw [postsMade, List.length_filterMap_eq_countP]
  congr 1
  funext e
  rcases e with ⟨_, _, _ | _⟩ | _ | _ | _ | _ | _ <;> rfl

theorem length_upvotesMade (h : List Event) :
    (upvotesMade h).length = h.countP Event.upvotes := by
  rw [upvotesMade, List.length_filterMap_eq_countP]
  congr 1
  funext e
  rcases e with _ | _ | _ | ⟨_, _, _ | _⟩ | _ | _ <;> rfl

theorem Event.unnumbered_of_quiet {e : Event} (quiet : e.quiet = true) :
    e.madePost = none ∧ e.madeUpvote = none := by
  cases e with
  | create author draft result =>
    cases result with
    | ok id => cases quiet
    | error e => exact ⟨rfl, rfl⟩
  | upvote user post result =>
    cases result with
    | ok id => cases quiet
    | error e => exact ⟨rfl, rfl⟩
  | _ => exact ⟨rfl, rfl⟩

theorem Effect.counts_posts {e : Event} {t : Store} (effect : Effect s e t) :
    Counts e.madePost s.lastPost t.lastPost := by
  cases effect with
  | created _ _ => exact .inl ⟨rfl, rfl⟩
  | updated _ _ => exact .inr ⟨rfl, rfl⟩
  | deleted _ _ => exact .inr ⟨rfl, rfl⟩
  | upvoted _ _ => exact .inr ⟨rfl, rfl⟩
  | still quiet _ _ _ lastPost _ =>
    exact .inr ⟨(Event.unnumbered_of_quiet quiet).1, lastPost⟩

theorem Effect.counts_upvotes {e : Event} {t : Store} (effect : Effect s e t) :
    Counts e.madeUpvote s.lastUpvote t.lastUpvote := by
  cases effect with
  | created _ _ => exact .inr ⟨rfl, rfl⟩
  | updated _ _ => exact .inr ⟨rfl, rfl⟩
  | deleted _ _ => exact .inr ⟨rfl, rfl⟩
  | upvoted _ _ => exact .inl ⟨rfl, rfl⟩
  | still quiet _ _ _ _ lastUpvote =>
    exact .inr ⟨(Event.unnumbered_of_quiet quiet).2, lastUpvote⟩

/-- A counter that only counting events move has handed out ascending numbers. -/
theorem Reached.ascending {number : Event → Option Int32} {last : Store → Int32}
    (starts : last empty = 0)
    (entered : ∀ (s : Store) id name, last (s.withUser id name) = last s)
    (counts : ∀ (s : Store) op, Counts (number (s.step op).1) (last s) (last (s.step op).2))
    (reached : Reached h s) (room : (h.filterMap number).length < 2147483647) :
    Ascending (h.filterMap number) (last s) := by
  induction reached with
  | start =>
    rw [starts]
    exact .start
  | @enter h s id name _ ih =>
    rw [entered]
    exact ih room
  | @step h s op _ ih =>
    have shorter : (h.filterMap number).length < 2147483647 := by
      rw [List.filterMap_append, List.length_append] at room
      omega
    exact (ih shorter).counts (counts s op) shorter

theorem Reached.postsMade_ascending (reached : Reached h s)
    (fit : h.countP Event.creates < 2147483647) : Ascending (postsMade h) s.lastPost := by
  rw [← length_postsMade] at fit
  exact @Reached.ascending h s Event.madePost lastPost rfl (fun _ _ _ => rfl)
    (fun s op => (step_effect s op).counts_posts) reached fit

theorem Reached.upvotesMade_ascending (reached : Reached h s)
    (fit : h.countP Event.upvotes < 2147483647) : Ascending (upvotesMade h) s.lastUpvote := by
  rw [← length_upvotesMade] at fit
  exact @Reached.ascending h s Event.madeUpvote lastUpvote rfl (fun _ _ _ => rfl)
    (fun s op => (step_effect s op).counts_upvotes) reached fit

/-! ### The tables of a store that comes about -/

theorem Effect.sound {e : Event} {t : Store} (effect : Effect s e t) (sound : Sound s)
    (room : s.lastPost.toInt < 2147483647) : Sound t := by
  cases effect with
  | created draft _ => exact sound.created room _ draft
  | updated draft found => exact sound.updated found draft
  | deleted id _ => exact sound.deleted id
  | upvoted present _ => exact sound.upvoted _ present
  | still _ _ posts upvotes lastPost _ => exact sound.congr posts upvotes lastPost

/-- For the posts to be in order it does not matter how many upvotes there were. -/
theorem Reached.sound (reached : Reached h s) (fit : h.countP Event.creates < 2147483647) :
    Sound s := by
  induction reached with
  | start => exact (withUsers_consistent []).sound
  | enter id name _ ih => exact (ih fit).congr rfl rfl rfl
  | @step h s op before ih =>
    have shorter : h.countP Event.creates < 2147483647 := by
      rw [List.countP_append] at fit
      omega
    have count := (before.postsMade_ascending shorter).count
    rw [length_postsMade] at count
    exact (step_effect s op).sound (ih shorter) (by omega)

/-- A user who is entered later changes nothing but names. -/
theorem Follows.entered {entered : List (Int32 × String)} (follows : Follows entered h s)
    (id : Int32) (name : String) : Follows (entered ++ [(id, name)]) h (s.withUser id name) := by
  have known : ∀ user, s.hasUser user = true → (s.withUser id name).hasUser user = true := by
    intro user known
    simp only [hasUser, withUser, Assoc.contains, Assoc.find?_insert] at known ⊢
    split
    · rfl
    · exact known
  have consistent := follows.consistent
  exact {
    consistent := {
      postsSorted := consistent.postsSorted
      upvotesSorted := consistent.upvotesSorted
      postNumber := consistent.postNumber
      upvoteNumber := consistent.upvoteNumber
      lastPost := consistent.lastPost
      lastUpvote := consistent.lastUpvote
      author := fun e member => known _ (consistent.author e member)
      voted := consistent.voted
      voter := fun e member => known _ (consistent.voter e member) }
    users := by simp [withUser, follows.users, Assoc.ofList]
    posts := follows.posts
    counted := follows.counted
    unvoted := follows.unvoted
    lastPost := follows.lastPost
    lastUpvote := follows.lastUpvote }

theorem Reached.follows (reached : Reached h s) (fit : Fits h) :
    ∃ entered, Follows entered h s := by
  induction reached with
  | start => exact ⟨[], follows_start []⟩
  | enter id name _ ih =>
    obtain ⟨entered, follows⟩ := ih fit
    exact ⟨_, follows.entered id name⟩
  | step op _ ih =>
    have before := fits_prefix _ _ fit
    obtain ⟨entered, follows⟩ := ih before
    exact ⟨entered, follows_step _ _ op follows fit⟩

end Postboard.Store
