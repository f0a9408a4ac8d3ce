/-! Where a text can stand inside others that are put together. -/

set_option autoImplicit false

namespace Postboard.Text

variable {x u w : List Char} {c : Char}

/-- A text without a separator stands on one side of it. -/
theorem infix_split (absent : c ∉ x) (inside : x <:+: u ++ c :: w) : x <:+: u ∨ x <:+: w := by
  obtain ⟨a, b, same⟩ := inside
  rcases List.append_eq_append_iff.mp same with ⟨z, rest, -⟩ | ⟨z, front, back⟩
  · exact .inl ⟨a, z, rest.symm⟩
  · rcases List.append_eq_append_iff.mp front with ⟨y, rfl, rfl⟩ | ⟨y, rfl, rfl⟩
    · cases z with
      | nil => exact .inl ⟨a, [], by simp⟩
      | cons d z =>
        obtain rfl := (List.cons.inj back).1
        exact absurd (by simp) absent
    · cases y with
      | cons d y => exact .inr ⟨y, b, by simpa using (List.cons.inj back).2.symm⟩
      | nil =>
        cases x with
        | nil => exact .inl List.nil_infix
        | cons d x =>
          obtain rfl := (List.cons.inj back).1
          exact absurd (by simp) absent

end Postboard.Text
