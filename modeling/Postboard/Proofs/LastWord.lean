/-! The last element of a list that speaks, where some elements speak and some tell a thing. -/

set_option autoImplicit false

namespace Postboard

variable {α : Type} {speaks tells : α → Prop}

/-- Some element tells it, and no later one speaks. -/
def LastWord (speaks tells : α → Prop) (xs : List α) : Prop :=
  ∃ earlier x later, xs = earlier ++ x :: later ∧ tells x ∧ ∀ y ∈ later, ¬ speaks y

theorem lastWord_nil : ¬ LastWord speaks tells [] := by
  rintro ⟨earlier, x, later, split, -⟩
  simp at split

theorem LastWord.append {xs ys : List α} (word : LastWord speaks tells xs)
    (silent : ∀ y ∈ ys, ¬ speaks y) : LastWord speaks tells (xs ++ ys) := by
  obtain ⟨earlier, x, later, rfl, here, quiet⟩ := word
  refine ⟨earlier, x, later ++ ys, by simp, here, ?_⟩
  intro y member
  rcases List.mem_append.mp member with old | new
  · exact quiet y old
  · exact silent y new

/-- One more element either tells it itself or leaves the word to the others. -/
theorem lastWord_snoc {xs : List α} {y : α} :
    LastWord speaks tells (xs ++ [y]) ↔ tells y ∨ (LastWord speaks tells xs ∧ ¬ speaks y) := by
  constructor
  · rintro ⟨earlier, x, later, split, here, quiet⟩
    rcases List.eq_nil_or_concat later with rfl | ⟨later, last, rfl⟩
    · obtain ⟨-, same⟩ := List.append_inj' split rfl
      obtain rfl : y = x := List.singleton_inj.mp same
      exact .inl here
    · rw [List.concat_eq_append, ← List.cons_append, ← List.append_assoc] at split
      obtain ⟨front, same⟩ := List.append_inj' split rfl
      obtain rfl : y = last := List.singleton_inj.mp same
      refine .inr ⟨⟨earlier, x, later, front, here, ?_⟩, quiet y (by simp)⟩
      exact fun z member => quiet z (by simp [member])
  · rintro (here | ⟨word, silent⟩)
    · exact ⟨xs, y, [], rfl, here, by simp⟩
    · exact word.append (by simpa using silent)

end Postboard
