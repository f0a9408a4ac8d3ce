import Postboard.Proofs.Store.Consistent

/-! Runs of a store: operations in any order, and the history of what came of them.

`run_keeps` carries a property of a history and the store after it through a run, as long as the
history stays within a bound.
-/

set_option autoImplicit false

namespace Postboard.Store

inductive Op where
  | create (author : Int32) (draft : Post.Draft)
  | update (id : Int32) (draft : Post.Draft)
  | delete (id : Int32)
  | upvote (user post : Int32)
  | breakWith (message : String)
  | read (d : Query.Descriptor) (mode : Reactive.Mode)

inductive Event where
  | create (author : Int32) (draft : Post.Draft) (result : Except Error Int32)
  | update (id : Int32) (draft : Post.Draft) (result : Except Error Bool)
  | delete (id : Int32) (result : Except Error Post.Deletion)
  | upvote (user post : Int32) (result : Except Error Int32)
  | breakWith (message : String)
  | read (d : Query.Descriptor) (mode : Reactive.Mode)
      (reply : Except Reactive.Error Reactive.Reply)

def step (s : Store) : Op → Event × Store
  | .create author draft =>
    let (result, s) := create author draft s
    (.create author draft result, s)
  | .update id draft =>
    let (result, s) := update id draft s
    (.update id draft result, s)
  | .delete id =>
    let (result, s) := delete id s
    (.delete id result, s)
  | .upvote user post =>
    let (result, s) := upvote user post s
    (.upvote user post result, s)
  | .breakWith message => (.breakWith message, s.breakWith message)
  | .read d mode =>
    let (reply, s) := client.request d mode s
    (.read d mode reply, s)

/-- Carry out operations in order: their history, and the store after them. -/
def run : List Op → Store → List Event × Store
  | [], s => ([], s)
  | op :: rest, s =>
    let (event, s) := s.step op
    let (history, s) := run rest s
    (event :: history, s)

def withUsers (entered : List (Int32 × String)) : Store :=
  entered.foldl (fun s e => s.withUser e.1 e.2) empty

theorem run_cons (op : Op) (rest : List Op) (s : Store) :
    run (op :: rest) s =
      ((s.step op).1 :: (run rest (s.step op).2).1, (run rest (s.step op).2).2) := rfl

/-- What every operation keeps, a run keeps; `fits` bounds the history. -/
theorem run_keeps {inv : List Event → Store → Prop} {fits : List Event → Prop}
    (prefixes : ∀ h later, fits (h ++ later) → fits h)
    (keep : ∀ h s op, inv h s → fits (h ++ [(s.step op).1]) →
      inv (h ++ [(s.step op).1]) (s.step op).2)
    (ops : List Op) {h : List Event} {s : Store} (start : inv h s)
    (fit : fits (h ++ (run ops s).1)) : inv (h ++ (run ops s).1) (run ops s).2 := by
  -- The history grows at its end while operations are taken from the front.
  induction ops generalizing h s with
  | nil => simpa [run] using start
  | cons op rest ih =>
    have whole : h ++ (run (op :: rest) s).1 =
        (h ++ [(s.step op).1]) ++ (run rest (s.step op).2).1 := by
      simp [run_cons]
    rw [whole] at fit ⊢
    exact ih (keep h s op start (prefixes _ _ fit)) fit

theorem withUsers_eq (entered : List (Int32 × String)) :
    withUsers entered = { empty with users := Assoc.ofList entered } := by
  have onto : ∀ users, entered.foldl (fun s e => s.withUser e.1 e.2) { empty with users := users } =
      { empty with users := entered.foldl (fun m e => Assoc.insert e.1 e.2 m) users } := by
    induction entered with
    | nil => exact fun users => rfl
    | cons e rest ih => exact fun users => ih _
  exact onto []

theorem withUsers_consistent (entered : List (Int32 × String)) :
    Consistent (withUsers entered) := by
  rw [withUsers_eq]
  exact ⟨Assoc.sorted_nil, Assoc.sorted_nil, by simp [empty], by simp [empty], by simp [empty],
    by simp [empty], by simp [empty], by simp [empty], by simp [empty]⟩

end Postboard.Store
