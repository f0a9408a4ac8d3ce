import Postboard.Proofs.Text.Utf8
import Postboard.Text.Boundary

/-! The boundaries of an encoded text are where its beginnings end.

Within the bytes of one character all but the first are marked as tails, so a position is told to be
a boundary by one byte. From any position a boundary is found, and the text can be cut there.
-/

set_option autoImplicit false

namespace Postboard.Text.Utf8

theorem isTail_eq_false {b : UInt8} : isTail b = false ↔ b.toNat < 0x80 ∨ 0xBF < b.toNat := by
  rw [← Bool.not_eq_true, isTail_iff]
  omega

theorem secondFits_tail {a b : UInt8} (fits : secondFits a b = true) : isTail b = true :=
  isTail_iff.mpr (secondFits_iff.mp fits).1

/-- The bytes of a character are one that is no tail and tails behind it. -/
theorem Sequence.tails {c : Char} {a : UInt8} {tail : List UInt8}
    (sequence : Sequence c (a :: tail)) : isTail a = false ∧ ∀ b ∈ tail, isTail b = true := by
  cases sequence with
  | one first => exact ⟨isTail_eq_false.mpr (.inl first), by simp⟩
  | two first second => exact ⟨isTail_eq_false.mpr (.inr (by omega)), by simpa using second⟩
  | three first second third =>
    exact ⟨isTail_eq_false.mpr (.inr (by omega)), by simpa using ⟨secondFits_tail second, third⟩⟩
  | four first second third fourth =>
    exact ⟨isTail_eq_false.mpr (.inr (by omega)),
      by simpa using ⟨secondFits_tail second, third, fourth⟩⟩

/-- No text begins with a tail. -/
theorem isTail_first {cs : List Char} {b : UInt8} (first : (encode cs)[0]? = some b) :
    isTail b = false := by
  cases cs with
  | nil => cases first
  | cons c cs =>
    obtain ⟨a, tail, sequence⟩ := exists_sequence c
    rw [encode_cons, sequence.encode] at first
    obtain rfl : a = b := Option.some.inj first
    exact sequence.tails.1

/-! ### Boundaries -/

theorem isBoundary_zero (bs : List UInt8) : isBoundary bs 0 = true := rfl

theorem isBoundary_inside {a : UInt8} {tail : List UInt8} (tails : ∀ b ∈ tail, isTail b = true)
    (rest : List UInt8) {pos : Nat} (positive : 0 < pos) (inside : pos ≤ tail.length) :
    isBoundary (a :: tail ++ rest) pos = false := by
  obtain ⟨k, rfl⟩ := Nat.exists_eq_add_one_of_ne_zero (Nat.ne_of_gt positive)
  have byte : (a :: tail ++ rest)[k + 1]? = some tail[k] := by
    rw [List.cons_append, List.getElem?_cons_succ, List.getElem?_append_left inside,
      List.getElem?_eq_getElem inside]
  have marked := tails tail[k] (List.getElem_mem inside)
  simp only [isBoundary, byte, marked]
  rfl

theorem isBoundary_behind (front : List UInt8) (cs : List Char) (pos : Nat) :
    isBoundary (front ++ encode cs) (front.length + pos) = isBoundary (encode cs) pos := by
  have byte : (front ++ encode cs)[front.length + pos]? = (encode cs)[pos]? := by
    rw [List.getElem?_append_right (Nat.le_add_right _ _), Nat.add_sub_cancel_left]
  unfold isBoundary
  rw [byte]
  cases pos with
  | succ pos => simp
  | zero =>
    -- The text has a boundary in front, and its first byte says the same.
    cases first : (encode cs)[0]? with
    | none =>
      have nothing : encode cs = [] := by simpa using first
      simp [nothing]
    | some b => simp [isTail_first first]

/-- The boundaries of a text are where its beginnings end. -/
theorem isBoundary_encode {cs : List Char} {pos : Nat} :
    isBoundary (encode cs) pos = true ↔
      ∃ front back, cs = front ++ back ∧ (encode front).length = pos := by
  induction cs generalizing pos with
  | nil =>
    constructor
    · intro boundary
      cases pos with
      | zero => exact ⟨[], [], rfl, rfl⟩
      | succ pos => cases boundary
    · rintro ⟨front, back, split, rfl⟩
      rw [(List.append_eq_nil_iff.mp split.symm).1]
      rfl
  | cons c cs ih =>
    obtain ⟨a, tail, sequence⟩ := exists_sequence c
    have first (front : List Char) : encode (c :: front) = a :: tail ++ encode front := by
      rw [encode_cons, sequence.encode]
    rw [first]
    by_cases start : pos = 0
    · subst start
      exact iff_of_true (isBoundary_zero _) ⟨[], c :: cs, rfl, rfl⟩
    by_cases inside : pos ≤ tail.length
    · rw [isBoundary_inside sequence.tails.2 _ (Nat.pos_of_ne_zero start) inside]
      simp only [Bool.false_eq_true, false_iff]
      rintro ⟨front, back, split, size⟩
      cases front with
      | nil => exact start size.symm
      | cons d front =>
        obtain ⟨rfl, -⟩ := List.cons.inj split
        rw [first, List.length_append, List.length_cons] at size
        omega
    · obtain ⟨k, rfl⟩ : ∃ k, pos = (a :: tail).length + k :=
        Nat.exists_eq_add_of_le (by simp only [List.length_cons]; omega)
      rw [isBoundary_behind, ih]
      constructor
      · rintro ⟨front, back, rfl, rfl⟩
        exact ⟨c :: front, back, rfl, by rw [first, List.length_append]⟩
      · rintro ⟨front, back, split, size⟩
        cases front with
        | nil => exact absurd size.symm start
        | cons d front =>
          obtain ⟨rfl, rfl⟩ := List.cons.inj split
          rw [first, List.length_append] at size
          exact ⟨front, back, rfl, Nat.add_left_cancel size⟩

/-! ### The search for a boundary, and the cut -/

/-- The search ends at the last boundary that is not above its start. -/
theorem exists_boundaryFrom (bs : List UInt8) (pos : Nat) :
    ∃ last, boundaryFrom bs pos = some last ∧ last ≤ pos ∧ isBoundary bs last = true ∧
      ∀ later, last < later → later ≤ pos → isBoundary bs later = false := by
  induction pos with
  | zero => exact ⟨0, rfl, Nat.le_refl 0, isBoundary_zero bs, by omega⟩
  | succ pos ih =>
    by_cases here : isBoundary bs (pos + 1) = true
    · exact ⟨pos + 1, by rw [boundaryFrom, if_pos here], Nat.le_refl _, here, by omega⟩
    · obtain ⟨last, found, below, boundary, none⟩ := ih
      refine ⟨last, by rw [boundaryFrom, if_neg here, found], by omega, boundary, ?_⟩
      intro later above within
      by_cases top : later = pos + 1
      · exact top ▸ eq_false_of_ne_true here
      · exact none later above (by omega)

theorem truncate_append (front back : List Char) :
    truncate (front ++ back) (encode front).length = some front := by
  have boundary : isBoundary (encode (front ++ back)) (encode front).length = true :=
    isBoundary_encode.mpr ⟨front, back, rfl, rfl⟩
  have within : ¬ (encode (front ++ back)).length < (encode front).length := by
    rw [encode_append, List.length_append]
    omega
  rw [truncate, if_neg within, if_pos boundary, encode_append, List.take_left' rfl, decode?_encode]

end Postboard.Text.Utf8
