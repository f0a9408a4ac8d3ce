import Mathlib.Data.List.TakeWhile
import Postboard.Http.Form
import Postboard.Text.Ascii

/-! Cutting at a separator is the library's `List.splitOn`: the pieces are those lists without the
separator that give the whole when they are joined by it. Cutting at the first separator only gives
what stands before and after it.
-/

set_option autoImplicit false

namespace Postboard.Text

variable {α : Type} [DecidableEq α]

def cutStep (sep x : α) (acc : List α × List (List α)) : List α × List (List α) :=
  if x = sep then ([], acc.1 :: acc.2) else (x :: acc.1, acc.2)

/-- Cutting from the right with the first piece kept apart. -/
theorem foldr_cutStep (sep : α) (xs : List α) :
    (xs.foldr (cutStep sep) ([], [])).1 :: (xs.foldr (cutStep sep) ([], [])).2 =
      xs.splitOn sep := by
  induction xs with
  | nil => rfl
  | cons x rest ih =>
    -- A separator opens a new piece; anything else goes into the first one.
    rw [List.splitOn_cons_eq_if_modifyHead, ← ih]
    by_cases same : x = sep <;> simp [cutStep, same]

theorem splitAt_eq_splitOn (sep : Char) (cs : List Char) : splitAt sep cs = cs.splitOn sep :=
  foldr_cutStep sep cs

theorem splitBytes_eq_splitOn (sep : UInt8) (bs : List UInt8) :
    Http.splitBytes sep bs = bs.splitOn sep := foldr_cutStep sep bs

theorem not_mem_of_mem_splitOn {sep : α} {xs piece : List α} (member : piece ∈ xs.splitOn sep) :
    sep ∉ piece := by
  induction xs generalizing piece with
  | nil => simp_all
  | cons x rest ih =>
    rw [List.splitOn_cons_eq_if_modifyHead] at member
    split at member
    · rcases List.mem_cons.mp member with first | later
      · simp [first]
      · exact ih later
    next different =>
      cases pieces : rest.splitOn sep with
      | nil => exact absurd pieces (List.splitOn_ne_nil sep rest)
      | cons head tail =>
        rw [pieces] at ih member
        rcases List.mem_cons.mp member with first | later
        · have free : sep ∉ head := ih List.mem_cons_self
          have other : sep ≠ x := fun same => different (by simp [same])
          rw [first]
          exact List.not_mem_cons_of_ne_of_not_mem other free
        · exact ih (List.mem_cons_of_mem _ later)

theorem splitOn_eq_iff {sep : α} {xs : List α} {pieces : List (List α)} (some_piece : pieces ≠ []) :
    xs.splitOn sep = pieces ↔ (∀ p ∈ pieces, sep ∉ p) ∧ xs = [sep].intercalate pieces := by
  constructor
  · rintro rfl
    exact ⟨fun p member => not_mem_of_mem_splitOn member, (List.intercalate_splitOn sep).symm⟩
  · rintro ⟨free, rfl⟩
    exact List.splitOn_intercalate sep free some_piece

theorem cutFirst_eq_some {sep : Char} {cs front back : List Char} :
    cutFirst sep cs = some (front, back) ↔ sep ∉ front ∧ cs = front ++ sep :: back := by
  constructor
  · intro cut
    unfold cutFirst at cut
    split at cut
    · cases cut
    next c rest found =>
      cases cut
      have stop := List.head_dropWhile_not (fun x => x != sep) (l := cs) (by simp [found])
      have same : c = sep := by simpa [found] using stop
      refine ⟨fun member => ?_, ?_⟩
      · simpa using List.all_eq_true.mp List.all_takeWhile sep member
      · rw [← same, ← found, same, List.takeWhile_append_dropWhile]
  · rintro ⟨free, rfl⟩
    have kept : ∀ c ∈ front, (c != sep) = true := fun c member => by
      simpa using fun same : c = sep => free (same ▸ member)
    simp [cutFirst, List.takeWhile_append_of_pos kept, List.dropWhile_append_of_pos kept]

theorem cutFirst_eq_none {sep : Char} {cs : List Char} : cutFirst sep cs = none ↔ sep ∉ cs := by
  have cut : cutFirst sep cs = none ↔ cs.dropWhile (fun c => c != sep) = [] := by
    unfold cutFirst
    split <;> simp_all
  rw [cut, List.dropWhile_eq_nil_iff]
  constructor
  · exact fun others member => by simpa using others sep member
  · exact fun free c member => by simpa using fun same : c = sep => free (same ▸ member)

/-- The first piece is what stands before the first separator. -/
theorem splitOn_eq_cons (sep : α) (xs : List α) :
    xs.splitOn sep = xs.takeWhile (fun x => x != sep) :: (xs.splitOn sep).tail := by
  induction xs with
  | nil => rfl
  | cons x rest ih =>
    rw [List.splitOn_cons_eq_if_modifyHead, List.takeWhile_cons]
    by_cases same : x = sep
    · simp [same]
    · rw [ih]
      simp [same]

end Postboard.Text
