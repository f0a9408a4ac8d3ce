import Mathlib.Data.Nat.Digits.Defs
import Postboard.Proofs.Text.Blank
import Postboard.Proofs.Text.Decimal

/-! Numerals: which texts write an integer in decimal, and that the readers take these and no others.

A numeral has at most one sign, and behind it one or more of the ten ASCII digits, the greatest place
first. Zeros may stand in front.
-/

set_option autoImplicit false

namespace Postboard.Text.Decimal

/-! ### Digits -/

def IsDigits (ds : List Char) : Prop := ds ≠ [] ∧ ∀ d ∈ ds, '0' ≤ d ∧ d ≤ '9'

/-- What digits stand for: each place counts ten times the place behind it. -/
def placeValue (ds : List Char) : Nat := Nat.ofDigits 10 (ds.reverse.map digitValue)

theorem isDigit_iff {c : Char} : isDigit c = true ↔ '0' ≤ c ∧ c ≤ '9' := by
  have le : ∀ a b : Char, a ≤ b ↔ a.toNat ≤ b.toNat := fun a b => UInt32.le_iff_toNat_le
  simp [isDigit, le]

theorem value_eq_placeValue (ds : List Char) : value ds = placeValue ds := by
  induction ds using List.reverseRecOn with
  | nil => rfl
  | append_singleton ds d ih =>
    rw [value_snoc, ih, placeValue, placeValue, List.reverse_append, List.reverse_singleton,
      List.singleton_append, List.map_cons, Nat.ofDigits_cons, Nat.mul_comm, Nat.add_comm]

theorem natOf?_eq_some {ds : List Char} {n : Nat} :
    natOf? ds = some n ↔ IsDigits ds ∧ placeValue ds = n := by
  simp [natOf?, IsDigits, isDigit_iff, ← value_eq_placeValue]

theorem isDigits_digits (n : Nat) : IsDigits (digits n) :=
  (natOf?_eq_some.mp (natOf?_digits n)).1

theorem IsDigits.bounds {ds : List Char} (digits : IsDigits ds) {d : Char} (member : d ∈ ds) :
    48 ≤ d.toNat ∧ d.toNat ≤ 57 := by
  have digit := isDigit_iff.mpr (digits.2 d member)
  simpa [isDigit] using digit

/-! ### Signs -/

inductive Writes : List Char → Int → Prop where
  | bare {ds : List Char} : IsDigits ds → Writes ds (placeValue ds)
  | plus {ds : List Char} : IsDigits ds → Writes ('+' :: ds) (placeValue ds)
  | minus {ds : List Char} : IsDigits ds → Writes ('-' :: ds) (-(placeValue ds : Int))

theorem IsDigits.not_sign {c : Char} {ds : List Char} (digits : IsDigits (c :: ds)) :
    c ≠ '-' ∧ c ≠ '+' := by
  have bounds := digits.bounds List.mem_cons_self
  constructor
  all_goals
    rintro rfl
    exact absurd bounds (by decide)

theorem intOf?_eq_some {cs : List Char} {n : Int} : intOf? cs = some n ↔ Writes cs n := by
  constructor
  · intro read
    unfold intOf? at read
    split at read
    all_goals
      obtain ⟨_, cast, rfl⟩ := Option.map_eq_some_iff.mp read
      obtain ⟨m, number, same⟩ := Option.bind_eq_some_iff.mp cast
      obtain ⟨digits, rfl⟩ := natOf?_eq_some.mp number
      obtain rfl := Option.some.inj same
    next => exact .minus digits
    next => exact .plus digits
    next => exact .bare digits
  · intro written
    cases written with
    | @bare ds digits =>
      unfold intOf?
      split
      next => exact absurd rfl digits.not_sign.1
      next => exact absurd rfl digits.not_sign.2
      next =>
        rw [natOf?_eq_some.mpr ⟨digits, rfl⟩]
        rfl
    | plus digits =>
      rw [intOf?, natOf?_eq_some.mpr ⟨digits, rfl⟩]
      rfl
    | minus digits =>
      rw [intOf?, natOf?_eq_some.mpr ⟨digits, rfl⟩]
      rfl

theorem Writes.unique {cs : List Char} {m n : Int} (here : Writes cs m) (there : Writes cs n) :
    m = n :=
  Option.some.inj ((intOf?_eq_some.mpr here).symm.trans (intOf?_eq_some.mpr there))

/-- The word reader takes the numerals of what fits in the word. -/
theorem wordOf?_eq_some {bits : Nat} {cs : List Char} {n : Int} :
    wordOf? bits cs = some n ↔ Writes cs n ∧ -2 ^ (bits - 1) ≤ n ∧ n < 2 ^ (bits - 1) := by
  rw [← intOf?_eq_some]
  unfold wordOf?
  cases intOf? cs with
  | none => simp
  | some m =>
    simp only [Option.ite_none_right_eq_some, Bool.and_eq_true, decide_eq_true_eq,
      Option.some.injEq]
    constructor
    · rintro ⟨within, rfl⟩
      exact ⟨rfl, by simpa using within⟩
    · rintro ⟨rfl, within⟩
      exact ⟨by simpa using within, rfl⟩

theorem writes_digits (n : Nat) : Writes (digits n) n := by
  have written : Writes (digits n) (placeValue (digits n)) := .bare (isDigits_digits n)
  rwa [← value_eq_placeValue, value_digits] at written

/-- The decimal text of a number: its digits, of which the first is no zero unless it is the only
one. -/
structure Spells (cs : List Char) (n : Nat) : Prop where
  digits : IsDigits cs
  value : placeValue cs = n
  lead : cs.head? = some '0' → cs = ['0']

theorem spells_digits (n : Nat) : Spells (digits n) n where
  digits := isDigits_digits n
  value := by rw [← value_eq_placeValue, value_digits]
  lead zero := by
    rw [digits_head_zero zero]
    rfl

/-! ### Blanks around a numeral -/

theorem IsDigits.not_isBlank {ds : List Char} (digits : IsDigits ds) :
    ∀ d ∈ ds, isBlank d = false := by
  intro d member
  have bounds := digits.bounds member
  exact isBlank_visible (by omega) (by omega)

theorem Writes.not_isBlank {cs : List Char} {n : Int} (written : Writes cs n) :
    ∀ c ∈ cs, isBlank c = false := by
  cases written with
  | bare digits => exact digits.not_isBlank
  | plus digits => exact List.forall_mem_cons.mpr ⟨rfl, digits.not_isBlank⟩
  | minus digits => exact List.forall_mem_cons.mpr ⟨rfl, digits.not_isBlank⟩

def Padded (cs : List Char) (n : Int) : Prop :=
  ∃ before numeral after, cs = before ++ numeral ++ after ∧ (∀ c ∈ before, isBlank c = true) ∧
    (∀ c ∈ after, isBlank c = true) ∧ Writes numeral n

theorem padded_digits (n : Nat) : Padded (digits n) n :=
  ⟨[], digits n, [], by simp, by simp, by simp, writes_digits n⟩

theorem padded_iff {cs : List Char} {n : Int} : Padded cs n ↔ Writes (trim cs) n := by
  constructor
  · rintro ⟨before, numeral, after, rfl, front, back, written⟩
    rwa [trim_padded front (.of_visible written.not_isBlank) back]
  · intro written
    obtain ⟨before, after, whole, front, back⟩ := exists_padding cs
    exact ⟨before, trim cs, after, whole, front, back, written⟩

theorem Padded.unique {cs : List Char} {m n : Int} (here : Padded cs m) (there : Padded cs n) :
    m = n := (padded_iff.mp here).unique (padded_iff.mp there)

end Postboard.Text.Decimal
