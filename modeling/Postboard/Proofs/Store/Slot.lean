import Mathlib.Logic.Function.Basic
import Postboard.Proofs.Store.Reached

/-! What a store has for one post, and operations that depend on nothing else.

An edit is a mutation of a post that is there or not. Its result, up to the number of an upvote, and
what it leaves for its post follow from the slot of the post and from which users there are; the
slots of other posts stay as they are. The view is determined by the slots and the users.
-/

set_option autoImplicit false

namespace Postboard.Store

variable {h : List Event} {s : Store}

inductive Edit where
  | update (id : Int32) (draft : Post.Draft)
  | delete (id : Int32)
  | upvote (user post : Int32)
  deriving DecidableEq, Repr

namespace Edit

def post : Edit → Int32
  | .update id _ => id
  | .delete id => id
  | .upvote _ post => post

def op : Edit → Op
  | .update id draft => .update id draft
  | .delete id => .delete id
  | .upvote user post => .upvote user post

end Edit

/-- An event without the number that an upvote got. -/
def Event.unnumbered : Event → Event
  | .upvote user post (.ok _) => .upvote user post (.ok 0)
  | e => e

theorem Event.upvotes_unnumbered (e : Event) : e.unnumbered.upvotes = e.upvotes := by
  rcases e with _ | _ | _ | ⟨_, _, _ | _⟩ | _ | _ <;> rfl

structure Slot where
  stored : Option Stored
  votes : Nat

def slot (s : Store) (id : Int32) : Slot := ⟨Assoc.find? id s.posts, (s.upvotesOf id).length⟩

/-- What an edit comes to for the slot of its post, when `known` tells which users exist. -/
def Edit.act (known : Int32 → Bool) : Edit → Slot → Event × Slot
  | .update id draft, r =>
    match r.stored with
    | some p => (.update id draft (.ok true), { r with stored := some { p with draft := draft } })
    | none => (.update id draft (.ok false), r)
  | .delete id, r => (.delete id (.ok ⟨r.votes, r.stored.isSome⟩), ⟨none, 0⟩)
  | .upvote user post, r =>
    if r.stored.isSome then
      if known user then (.upvote user post (.ok 0), { r with votes := r.votes + 1 })
      else (.upvote user post (.error (.noUser user)), r)
    else (.upvote user post (.error (.noPost post)), r)

/-! ### Tables with numbers in order -/

/-- Posts are in order, and no upvote has a number above the last. This holds however many posts
there were. -/
structure Tidy (s : Store) : Prop where
  posts : Assoc.Sorted s.posts
  numbered : ∀ e ∈ s.upvotes, e.1.toInt ≤ s.lastUpvote.toInt

theorem Tidy.upvote_above (tidy : Tidy s) (room : s.lastUpvote.toInt < 2147483647) :
    ∀ e ∈ s.upvotes, e.1 < s.lastUpvote + 1 := by
  intro e member
  have next := Int32.toInt_next room
  have last := tidy.numbered e member
  exact Int32.lt_iff_toInt_lt.mpr (by omega)

/-- The number of the last upvote after an event that leaves room for it. -/
theorem Effect.lastUpvote {e : Event} {t : Store} (effect : Effect s e t)
    (room : e.upvotes = true → s.lastUpvote.toInt < 2147483647) :
    t.lastUpvote.toInt = s.lastUpvote.toInt + e.upvotes.toNat := by
  cases effect with
  | created _ _ => exact (Int.add_zero _).symm
  | updated _ _ => exact (Int.add_zero _).symm
  | deleted _ _ => exact (Int.add_zero _).symm
  | upvoted _ _ => exact Int32.toInt_next (room rfl)
  | still quiet _ _ _ _ last =>
    rw [last, (Event.Still.of_quiet quiet).upvotes]
    exact (Int.add_zero _).symm

theorem Effect.tidy {e : Event} {t : Store} (effect : Effect s e t) (tidy : Tidy s)
    (room : e.upvotes = true → s.lastUpvote.toInt < 2147483647) : Tidy t := by
  cases effect with
  | created _ _ => exact ⟨tidy.posts.insert _ _, tidy.numbered⟩
  | updated _ _ => exact ⟨tidy.posts.insert _ _, tidy.numbered⟩
  | deleted id _ =>
    refine ⟨?_, fun e member => tidy.numbered e (List.mem_filter.mp member).1⟩
    simp only [tidy.posts.erase_eq_filter]
    exact tidy.posts.filter _
  | upvoted _ _ =>
    have next := Int32.toInt_next (room rfl)
    refine ⟨tidy.posts, ?_⟩
    intro e member
    rcases Assoc.mem_insert member with rfl | old
    · exact Int.le_refl _
    · have last := tidy.numbered e old
      simp only [next]
      omega
  | still _ _ posts upvotes _ last =>
    refine ⟨by rw [posts]; exact tidy.posts, ?_⟩
    rw [upvotes, last]
    exact tidy.numbered

theorem Reached.tidy (reached : Reached h s) (fit : h.countP Event.upvotes < 2147483647) :
    Tidy s := by
  induction reached with
  | start => exact ⟨Assoc.sorted_nil, by simp [empty]⟩
  | enter id name _ ih => exact ⟨(ih fit).posts, (ih fit).numbered⟩
  | @step h s op before ih =>
    rw [List.countP_append] at fit
    have given := (before.upvotesMade_ascending (by omega)).count
    rw [length_upvotesMade] at given
    exact (step_effect s op).tidy (ih (by omega)) fun _ => by omega

/-! ### What each change does to the slots -/

theorem slot_updated {id : Int32} {p : Stored} (draft : Post.Draft) :
    slot { s with posts := Assoc.insert id { p with draft := draft } s.posts } =
      Function.update s.slot id { s.slot id with stored := some { p with draft := draft } } := by
  funext j
  by_cases here : j = id
  · subst here
    simp [slot, upvotesOf, Assoc.find?_insert]
  · simp [slot, upvotesOf, Assoc.find?_insert, here]

theorem Tidy.slot_deleted (tidy : Tidy s) (id : Int32) :
    slot { s with
      posts := Assoc.erase id s.posts
      upvotes := s.upvotes.filter fun e => e.2.post ≠ id } = Function.update s.slot id ⟨none, 0⟩ := by
  funext j
  by_cases here : j = id
  · subst here
    simp [slot, upvotesOf, tidy.posts.find?_erase, List.filter_filter]
  · rw [Function.update_of_ne here]
    simp only [slot, upvotesOf, tidy.posts.find?_erase, if_neg here, filter_other here]

theorem Tidy.slot_upvoted (tidy : Tidy s) (room : s.lastUpvote.toInt < 2147483647)
    (user post : Int32) :
    slot { s with
      upvotes := Assoc.insert (s.lastUpvote + 1) ⟨post, user⟩ s.upvotes
      lastUpvote := s.lastUpvote + 1 } =
        Function.update s.slot post { s.slot post with votes := (s.slot post).votes + 1 } := by
  have new := Assoc.insert_above (tidy.upvote_above room) (⟨post, user⟩ : Vote)
  funext j
  by_cases here : j = post
  · subst here
    simp [slot, upvotesOf, new]
  · simp [slot, upvotesOf, new, here, Ne.symm here]

/-! ### Edits act on slots -/

theorem upvote_unbroken (unbroken : s.broken = none) (user post : Int32) :
    upvote user post s =
      if s.hasPost post then
        if s.hasUser user then
          (.ok (s.lastUpvote + 1),
            { s with
              upvotes := Assoc.insert (s.lastUpvote + 1) ⟨post, user⟩ s.upvotes
              lastUpvote := s.lastUpvote + 1 })
        else (.error (.noUser user), s)
      else (.error (.noPost post), s) := by
  rw [upvote, mutate_unbroken unbroken]
  cases s.hasPost post <;> cases s.hasUser user <;> rfl

theorem act_upvote (s : Store) (user post : Int32) :
    (Edit.upvote user post).act s.hasUser (s.slot post) =
      if s.hasPost post then
        if s.hasUser user then
          (.upvote user post (.ok 0), { s.slot post with votes := (s.slot post).votes + 1 })
        else (.upvote user post (.error (.noUser user)), s.slot post)
      else (.upvote user post (.error (.noPost post)), s.slot post) := rfl

theorem step_event (unbroken : s.broken = none) (e : Edit) :
    (s.step e.op).1.unnumbered = (e.act s.hasUser (s.slot e.post)).1 := by
  cases e with
  | update id draft =>
    rcases update_cases id draft s with ⟨-, p, found, made⟩ | ⟨-, absent, made⟩ | ⟨broken, -⟩
    · simp [Edit.op, Edit.post, step, made, Edit.act, slot, found, Event.unnumbered]
    · simp [Edit.op, Edit.post, step, made, Edit.act, slot, absent, Event.unnumbered]
    · simp [unbroken] at broken
  | delete id =>
    rcases delete_cases id s with ⟨-, made⟩ | ⟨broken, -⟩
    · simp only [Edit.op, step, made]
      rfl
    · simp [unbroken] at broken
  | upvote user post =>
    simp only [Edit.op, Edit.post, step, upvote_unbroken unbroken, act_upvote]
    split
    · split <;> rfl
    · rfl

/-- An edit leaves the slot of its post as `act` says, and no other slot changes. -/
theorem Tidy.step_slot (tidy : Tidy s) (unbroken : s.broken = none) (e : Edit)
    (room : (s.step e.op).1.upvotes = true → s.lastUpvote.toInt < 2147483647) :
    (s.step e.op).2.slot =
      Function.update s.slot e.post (e.act s.hasUser (s.slot e.post)).2 := by
  cases e with
  | update id draft =>
    rcases update_cases id draft s with ⟨-, p, found, made⟩ | ⟨-, absent, made⟩ | ⟨broken, -⟩
    · simp only [Edit.op, Edit.post, step, made, slot_updated]
      simp [Edit.act, slot, found]
    · simp [Edit.op, Edit.post, step, made, Edit.act, slot, absent]
    · simp [unbroken] at broken
  | delete id =>
    rcases delete_cases id s with ⟨-, made⟩ | ⟨broken, -⟩
    · simp only [Edit.op, step, made]
      exact tidy.slot_deleted id
    · simp [unbroken] at broken
  | upvote user post =>
    simp only [Edit.op, Edit.post, step, upvote_unbroken unbroken, act_upvote] at room ⊢
    split
    next present =>
      split
      next known =>
        rw [if_pos present, if_pos known] at room
        exact tidy.slot_upvoted (room rfl) user post
      next => exact (Function.update_eq_self post s.slot).symm
    next => exact (Function.update_eq_self post s.slot).symm

/-- An edit changes neither users nor whether the store is broken. -/
theorem step_edit_kept (s : Store) (e : Edit) :
    (s.step e.op).2.users = s.users ∧ (s.step e.op).2.broken = s.broken := by
  cases e with
  | update id draft =>
    rcases update_cases id draft s with ⟨-, p, -, made⟩ | ⟨-, -, made⟩ | ⟨-, e, made⟩
    all_goals simp [Edit.op, step, made]
  | delete id =>
    rcases delete_cases id s with ⟨-, made⟩ | ⟨-, e, made⟩
    all_goals simp [Edit.op, step, made]
  | upvote user post =>
    rcases upvote_cases user post s with ⟨-, -, -, made⟩ | ⟨-, e, made⟩
    all_goals simp [Edit.op, step, made]

/-! ### Slots determine the view -/

theorem view_congr {t : Store} (posts : Assoc.Sorted s.posts) (posts' : Assoc.Sorted t.posts)
    (users : s.users = t.users) (slots : s.slot = t.slot) (limit : Nat) :
    s.view limit = t.view limit := by
  have found : ∀ id, Assoc.find? id s.posts = Assoc.find? id t.posts := fun id =>
    congrArg Slot.stored (congrFun slots id)
  have votes : ∀ id, (s.upvotesOf id).length = (t.upvotesOf id).length := fun id =>
    congrArg Slot.votes (congrFun slots id)
  have ranking : s.ranking = t.ranking := by
    simp only [Store.ranking, posts.ext posts' found, votes]
  have row : s.row = t.row := by
    funext r
    simp only [Store.row, users]
  rw [view, view, ranking, row]

end Postboard.Store
