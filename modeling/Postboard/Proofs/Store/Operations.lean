import Postboard.Store.View

/-! What each operation of a store can do, guards included.

A mutation either goes through, and then its guards held and the tables change in one stated way, or
it leaves the store as it is. Reads change nothing but the number of the last stream.
-/

set_option autoImplicit false

namespace Postboard.Store

variable {s : Store}

/-! ### Mutations -/

theorem mutate_broken {α : Type} {message : String} (broken : s.broken = some message)
    (f : Store → Except Error α × Store) : s.mutate f = (.error (.broken message), s) := by
  simp [mutate, broken]

theorem mutate_unbroken {α : Type} (unbroken : s.broken = none)
    (f : Store → Except Error α × Store) : s.mutate f = f s := by
  simp [mutate, unbroken]

theorem create_cases (author : Int32) (draft : Post.Draft) (s : Store) :
    (s.broken = none ∧ s.hasUser author = true ∧ create author draft s =
      (.ok (s.lastPost + 1),
        { s with
          posts := Assoc.insert (s.lastPost + 1) ⟨draft, author⟩ s.posts
          lastPost := s.lastPost + 1 })) ∨
    ((s.broken.isSome = true ∨ s.hasUser author = false) ∧
      ∃ e, create author draft s = (.error e, s)) := by
  obtain broken | ⟨message, broken⟩ := s.broken.eq_none_or_eq_some
  · by_cases user : s.hasUser author = true
    · exact .inl ⟨broken, user, by rw [create, mutate_unbroken broken, if_pos user]⟩
    · exact .inr ⟨.inr (eq_false_of_ne_true user), _,
        by rw [create, mutate_unbroken broken, if_neg user]⟩
  · exact .inr ⟨.inl (by simp [broken]), _, mutate_broken broken _⟩

theorem update_cases (id : Int32) (draft : Post.Draft) (s : Store) :
    (s.broken = none ∧ ∃ p, Assoc.find? id s.posts = some p ∧ update id draft s =
      (.ok true, { s with posts := Assoc.insert id { p with draft := draft } s.posts })) ∨
    (s.broken = none ∧ Assoc.find? id s.posts = none ∧ update id draft s = (.ok false, s)) ∨
    (s.broken.isSome = true ∧ ∃ e, update id draft s = (.error e, s)) := by
  obtain broken | ⟨message, broken⟩ := s.broken.eq_none_or_eq_some
  · obtain absent | ⟨p, found⟩ := (Assoc.find? id s.posts).eq_none_or_eq_some
    · exact .inr (.inl ⟨broken, absent, by simp only [update, mutate_unbroken broken, absent]⟩)
    · exact .inl ⟨broken, p, found, by simp only [update, mutate_unbroken broken, found]⟩
  · exact .inr (.inr ⟨by simp [broken], _, mutate_broken broken _⟩)

theorem delete_cases (id : Int32) (s : Store) :
    (s.broken = none ∧ delete id s =
      (.ok ⟨(s.upvotesOf id).length, s.hasPost id⟩,
        { s with
          posts := Assoc.erase id s.posts
          upvotes := s.upvotes.filter fun e => e.2.post ≠ id })) ∨
    (s.broken.isSome = true ∧ ∃ e, delete id s = (.error e, s)) := by
  obtain broken | ⟨message, broken⟩ := s.broken.eq_none_or_eq_some
  · exact .inl ⟨broken, mutate_unbroken broken _⟩
  · exact .inr ⟨by simp [broken], _, mutate_broken broken _⟩

theorem upvote_cases (user post : Int32) (s : Store) :
    (s.broken = none ∧ s.hasPost post = true ∧ s.hasUser user = true ∧ upvote user post s =
      (.ok (s.lastUpvote + 1),
        { s with
          upvotes := Assoc.insert (s.lastUpvote + 1) ⟨post, user⟩ s.upvotes
          lastUpvote := s.lastUpvote + 1 })) ∨
    ((s.broken.isSome = true ∨ s.hasPost post = false ∨ s.hasUser user = false) ∧
      ∃ e, upvote user post s = (.error e, s)) := by
  obtain broken | ⟨message, broken⟩ := s.broken.eq_none_or_eq_some
  · by_cases present : s.hasPost post = true
    · by_cases known : s.hasUser user = true
      · exact .inl ⟨broken, present, known,
          by simp [upvote, mutate_unbroken broken, present, known]⟩
      · exact .inr ⟨.inr (.inr (eq_false_of_ne_true known)), .noUser user,
          by simp [upvote, mutate_unbroken broken, present, known]⟩
    · exact .inr ⟨.inr (.inl (eq_false_of_ne_true present)), .noPost post,
        by simp [upvote, mutate_unbroken broken, present]⟩
  · exact .inr ⟨.inl (by simp [broken]), _, mutate_broken broken _⟩

/-! ### Reads -/

/-- Stores that differ in nothing but the number of the last stream. -/
def SameTables (s t : Store) : Prop := t = { s with lastStream := t.lastStream }

theorem SameTables.refl (s : Store) : SameTables s s := rfl

theorem SameTables.trans {s t u : Store} (first : SameTables s t) (second : SameTables t u) :
    SameTables s u := by
  unfold SameTables at *
  rw [second, first]

/-- The view does not depend on streams. -/
theorem SameTables.view_eq {s t : Store} (same : SameTables s t) (limit : Nat) :
    t.view limit = s.view limit := by
  rw [same]
  rfl

theorem request_sameTables (d : Query.Descriptor) (mode : Reactive.Mode) (s : Store) :
    SameTables s (client.request d mode s).2 := by
  cases mode with
  | snapshot => exact SameTables.refl s
  | stream => rfl

theorem fetchSnapshot_eq (n : UInt32) (s : Store) :
    client.fetchSnapshot ⟨.posts, .limit n⟩ s = (.ok (s.view n.toNat), s) := rfl

end Postboard.Store
