import Mathlib.Data.List.DropRight
import Postboard.Text.Blank

/-! Trimming takes away the blanks at both ends of a text and nothing else. -/

set_option autoImplicit false

namespace Postboard.Text

theorem isBlank_visible {c : Char} (low : 32 < c.toNat) (high : c.toNat < 127) :
    isBlank c = false := by
  simp [isBlank]
  omega

/-- A text that is empty, or begins and ends with something else than a blank. -/
structure Trimmed (cs : List Char) : Prop where
  first : ∀ c ∈ cs.head?, isBlank c = false
  last : ∀ c ∈ cs.getLast?, isBlank c = false

theorem Trimmed.of_visible {cs : List Char} (visible : ∀ c ∈ cs, isBlank c = false) :
    Trimmed cs where
  first := fun c first => visible c (List.mem_of_head? first)
  last := fun c last => visible c (List.mem_of_getLast? last)

theorem trim_eq_rdropWhile (cs : List Char) :
    trim cs = (cs.dropWhile isBlank).rdropWhile isBlank := rfl

theorem dropWhile_blanks {before : List Char} (blank : ∀ c ∈ before, isBlank c = true)
    (cs : List Char) : (before ++ cs).dropWhile isBlank = cs.dropWhile isBlank :=
  List.dropWhile_append_of_pos blank

theorem rdropWhile_blanks {after : List Char} (blank : ∀ c ∈ after, isBlank c = true)
    (cs : List Char) : (cs ++ after).rdropWhile isBlank = cs.rdropWhile isBlank := by
  induction after using List.reverseRecOn with
  | nil => rw [List.append_nil]
  | append_singleton after c ih =>
    have last := blank c (by simp)
    rw [← List.append_assoc, List.rdropWhile_concat_pos _ _ _ last]
    exact ih fun d member => blank d (by simp [member])

theorem Trimmed.dropWhile_eq {cs : List Char} (trimmed : Trimmed cs) :
    cs.dropWhile isBlank = cs := by
  cases cs with
  | nil => rfl
  | cons c rest => rw [List.dropWhile_cons_of_neg (by simp [trimmed.first c rfl])]

theorem Trimmed.rdropWhile_eq {cs : List Char} (trimmed : Trimmed cs) :
    cs.rdropWhile isBlank = cs := by
  rw [List.rdropWhile_eq_self_iff]
  intro nonempty blank
  rw [trimmed.last _ (List.getLast?_eq_some_getLast nonempty)] at blank
  cases blank

theorem Trimmed.trim_eq {cs : List Char} (trimmed : Trimmed cs) : trim cs = cs := by
  rw [trim_eq_rdropWhile, trimmed.dropWhile_eq, trimmed.rdropWhile_eq]

/-- Trimming undoes any padding with blanks. -/
theorem trim_padded {before cs after : List Char} (front : ∀ c ∈ before, isBlank c = true)
    (trimmed : Trimmed cs) (back : ∀ c ∈ after, isBlank c = true) :
    trim (before ++ cs ++ after) = cs := by
  rw [trim_eq_rdropWhile, List.append_assoc, dropWhile_blanks front]
  by_cases empty : cs = []
  · subst empty
    have none : after.dropWhile isBlank = [] := List.dropWhile_eq_nil_iff.mpr back
    rw [List.nil_append, none]
    rfl
  · obtain ⟨c, rest, rfl⟩ := List.exists_cons_of_ne_nil empty
    have stays : ¬ isBlank c = true := by simp [trimmed.first c rfl]
    rw [List.cons_append, List.dropWhile_cons_of_neg stays, ← List.cons_append,
      rdropWhile_blanks back, trimmed.rdropWhile_eq]

theorem trimmed_trim (cs : List Char) : Trimmed (trim cs) where
  first := by
    intro c first
    -- What is cut off at the end leaves the first character where it is.
    obtain ⟨dropped, split⟩ := List.rdropWhile_prefix isBlank (cs.dropWhile isBlank)
    rw [← trim_eq_rdropWhile] at split
    have front : (cs.dropWhile isBlank).head? = some c := by
      rw [← split, List.head?_append, Option.mem_def.mp first]
      rfl
    have stops := List.head?_dropWhile_not isBlank cs
    rw [front] at stops
    simpa using stops
  last := by
    intro c last
    obtain ⟨nonempty, rfl⟩ := List.mem_getLast?_eq_getLast last
    exact eq_false_of_ne_true (List.rdropWhile_last_not isBlank (cs.dropWhile isBlank) nonempty)

theorem head?_trim {before : List Char} (blank : ∀ c ∈ before, isBlank c = true) {c : Char}
    (visible : isBlank c = false) (rest : List Char) :
    (trim (before ++ c :: rest)).head? = some c := by
  have stays : ¬ isBlank c = true := by simp [visible]
  rw [trim_eq_rdropWhile, dropWhile_blanks blank, List.dropWhile_cons_of_neg stays]
  obtain ⟨dropped, split⟩ := List.rdropWhile_prefix isBlank (c :: rest)
  cases kept : (c :: rest).rdropWhile isBlank with
  | nil => exact absurd (List.rdropWhile_eq_nil_iff.mp kept c List.mem_cons_self) stays
  | cons d ds =>
    rw [kept] at split
    obtain ⟨rfl, -⟩ := List.cons.inj split
    rfl

theorem exists_padding (cs : List Char) : ∃ before after, cs = before ++ trim cs ++ after ∧
    (∀ c ∈ before, isBlank c = true) ∧ ∀ c ∈ after, isBlank c = true := by
  refine ⟨cs.takeWhile isBlank, (cs.dropWhile isBlank).rtakeWhile isBlank, ?_, ?_, ?_⟩
  · rw [List.append_assoc, trim_eq_rdropWhile, List.rdropWhile_append_rtakeWhile,
      List.takeWhile_append_dropWhile]
  · exact fun c member => List.mem_takeWhile_imp member
  · exact fun c member => List.mem_rtakeWhile_imp member

/-- More blanks at the ends make no difference. -/
theorem trim_blanks {before after : List Char} (front : ∀ c ∈ before, isBlank c = true)
    (back : ∀ c ∈ after, isBlank c = true) (cs : List Char) :
    trim (before ++ cs ++ after) = trim cs := by
  obtain ⟨left, right, split, blankLeft, blankRight⟩ := exists_padding cs
  have whole : before ++ cs ++ after = (before ++ left) ++ trim cs ++ (right ++ after) := by
    nth_rewrite 1 [split]
    simp only [List.append_assoc]
  rw [whole]
  apply trim_padded _ (trimmed_trim cs)
  · simpa [or_imp, forall_and] using ⟨blankRight, back⟩
  · simpa [or_imp, forall_and] using ⟨front, blankLeft⟩

end Postboard.Text
