import Mathlib.Data.List.Induction
import Postboard.Http.Accept
import Postboard.Proofs.LastWord
import Postboard.Proofs.Number.Format
import Postboard.Proofs.Text.Split

/-! The weight of an entry: that of its last `q` parameter, when every one of them is a number
between zero and one.
-/

set_option autoImplicit false

namespace Postboard.Http

open Text Number

namespace Weight

/-- The value of a weight, in units of which `2 ^ 149` make one. -/
def amount (w : Weight) : Int :=
  if w.negative then -(Format.single.units w.index : Int) else Format.single.units w.index

/-- A text is a decimal number whose nearest four-byte one is a weight between zero and one. -/
structure Reads (text : List Char) (w : Weight) : Prop where
  nearest : ∃ s, Scientific.read? text = some s ∧ s.negative = w.negative ∧
    s.index? Format.single = some w.index
  nonneg : 0 ≤ w.amount
  atMostOne : w.amount ≤ 2 ^ 149

theorem units_one : Format.single.units one.index = 2 ^ 149 := by decide

theorem units_pos_iff {i : Nat} : 0 < Format.single.units i ↔ 0 < i := by
  have nothing := Format.single.units_le_iff (i := i) (j := 0)
  rw [Format.units_zero] at nothing
  omega

theorem units_le_one_iff {i : Nat} : Format.single.units i ≤ 2 ^ 149 ↔ i ≤ one.index := by
  rw [← units_one, Format.units_le_iff]

theorem amount_pos {w : Weight} (inside : 0 ≤ w.amount) : w.positive = true ↔ 0 < w.amount := by
  have some_units := units_pos_iff (i := w.index)
  unfold amount at inside ⊢
  simp only [positive, decide_eq_true_eq]
  cases sign : w.negative with
  | false => simp only [Bool.false_eq_true, if_false]; omega
  | true => simp only [sign, if_true] at inside ⊢; omega

/-- The two tests of the reader are the bounds of the value. -/
theorem inside_iff (w : Weight) :
    (w.index ≤ one.index ∧ (w.negative = false ∨ w.index = 0)) ↔
      0 ≤ w.amount ∧ w.amount ≤ 2 ^ 149 := by
  have some_units := units_pos_iff (i := w.index)
  have below := units_le_one_iff (i := w.index)
  unfold amount
  cases w.negative with
  | false =>
    simp only [true_or, and_true, Bool.false_eq_true, if_false]
    omega
  | true =>
    have small : 0 ≤ one.index := Nat.zero_le _
    simp only [Bool.true_eq_false, false_or, if_true]
    omega

theorem read?_eq_some {text : List Char} {w : Weight} : read? text = some w ↔ Reads text w := by
  constructor
  · intro read
    unfold read? at read
    split at read
    · cases read
    next s parsed =>
      split at read
      · cases read
      next i nearest =>
        split at read
        next inside =>
          cases read
          simp only [Bool.and_eq_true, Bool.or_eq_true, decide_eq_true_eq, Bool.not_eq_true']
            at inside
          obtain ⟨nonneg, atMostOne⟩ := (inside_iff ⟨s.negative, i⟩).mp inside
          exact ⟨⟨s, parsed, rfl, nearest⟩, nonneg, atMostOne⟩
        next => cases read
  · rintro ⟨⟨s, parsed, sign, nearest⟩, nonneg, atMostOne⟩
    have inside := (inside_iff w).mpr ⟨nonneg, atMostOne⟩
    simp [read?, parsed, nearest, sign, inside]

end Weight

namespace Accept

def IsQ (param text : List Char) : Prop :=
  ∃ name, '=' ∉ name ∧ param = name ++ '=' :: text ∧ lowered (trim name) = ['q']

def GoodParams (params : List (List Char)) : Prop :=
  ∀ p ∈ params, ∀ text, IsQ p text → ∃ w, Weight.Reads (trim text) w

/-- The weight that the parameters of an entry give to it: that of the last `q`, or one. -/
structure Weighs (params : List (List Char)) (w : Weight) : Prop where
  good : GoodParams params
  last : ((∀ p ∈ params, ∀ text, ¬ IsQ p text) ∧ w = .one) ∨
    LastWord (fun p => ∃ text, IsQ p text)
      (fun p => ∃ text, IsQ p text ∧ Weight.Reads (trim text) w) params

theorem isQ_iff {param text : List Char} :
    IsQ param text ↔
      ∃ name, cutFirst '=' param = some (name, text) ∧ lowered (trim name) = ['q'] := by
  simp only [IsQ, cutFirst_eq_some, and_assoc]

theorem IsQ.unique {param text text' : List Char} (here : IsQ param text)
    (there : IsQ param text') : text' = text := by
  obtain ⟨name, cut, -⟩ := isQ_iff.mp here
  obtain ⟨name', cut', -⟩ := isQ_iff.mp there
  rw [cut] at cut'
  exact (Prod.mk.inj (Option.some.inj cut')).2.symm

theorem weightParam?_q {param text : List Char} (q : IsQ param text) :
    weightParam? param = some (Weight.read? (trim text)) := by
  obtain ⟨name, cut, named⟩ := isQ_iff.mp q
  simp [weightParam?, cut, named]

theorem weightParam?_other {param : List Char} (other : ∀ text, ¬ IsQ param text) :
    weightParam? param = none := by
  unfold weightParam?
  cases cut : cutFirst '=' param with
  | none => rfl
  | some parts =>
    obtain ⟨name, text⟩ := parts
    have unnamed : lowered (trim name) ≠ ['q'] := fun named =>
      other text (isQ_iff.mpr ⟨name, cut, named⟩)
    simp [unnamed]

/-! ### One more parameter -/

theorem goodParams_snoc {params : List (List Char)} {p : List Char} :
    GoodParams (params ++ [p]) ↔
      GoodParams params ∧ ∀ text, IsQ p text → ∃ w, Weight.Reads (trim text) w := by
  simp [GoodParams, or_imp, forall_and]

theorem weighs_other {params : List (List Char)} {p : List Char} (other : ∀ text, ¬ IsQ p text)
    {w : Weight} : Weighs (params ++ [p]) w ↔ Weighs params w := by
  constructor
  · rintro ⟨good, last⟩
    refine ⟨(goodParams_snoc.mp good).1, ?_⟩
    simpa [lastWord_snoc, other, or_imp, forall_and] using last
  · rintro ⟨good, last⟩
    refine ⟨goodParams_snoc.mpr ⟨good, fun text q => absurd q (other text)⟩, ?_⟩
    simpa [lastWord_snoc, other, or_imp, forall_and] using last

theorem weighs_q {params : List (List Char)} {p text : List Char} (q : IsQ p text) {w : Weight} :
    Weighs (params ++ [p]) w ↔ GoodParams params ∧ Weight.Reads (trim text) w := by
  constructor
  · rintro ⟨good, ⟨none, -⟩ | word⟩
    · exact absurd q (none p (by simp) text)
    · refine ⟨(goodParams_snoc.mp good).1, ?_⟩
      rcases lastWord_snoc.mp word with ⟨text', q', reads⟩ | ⟨-, silent⟩
      · exact q.unique q' ▸ reads
      · exact absurd ⟨text, q⟩ silent
  · rintro ⟨good, reads⟩
    refine ⟨goodParams_snoc.mpr ⟨good, ?_⟩, .inr (lastWord_snoc.mpr (.inl ⟨text, q, reads⟩))⟩
    intro text' q'
    exact ⟨w, q.unique q' ▸ reads⟩

theorem entryWeight?_snoc (params : List (List Char)) (p : List Char) :
    entryWeight? (params ++ [p]) = match weightParam? p with
      | none => entryWeight? params
      | some q => (entryWeight? params).bind fun _ => q := by
  rw [entryWeight?, List.foldl_append]
  rfl

theorem entryWeight?_isSome {params : List (List Char)} :
    (entryWeight? params).isSome = true ↔ GoodParams params := by
  induction params using List.reverseRecOn with
  | nil => simp [entryWeight?, GoodParams]
  | append_singleton params p ih =>
    rw [entryWeight?_snoc, goodParams_snoc]
    by_cases q : ∃ text, IsQ p text
    · obtain ⟨text, q⟩ := q
      have same : (∀ t, IsQ p t → ∃ w, Weight.Reads (trim t) w) ↔ ∃ w, Weight.Reads (trim text) w :=
        ⟨fun all => all text q, fun reads t q' => q.unique q' ▸ reads⟩
      rw [weightParam?_q q, same, ← ih]
      simp only [← Weight.read?_eq_some]
      cases entryWeight? params <;> simp [Option.isSome_iff_exists]
    · have other : ∀ text, ¬ IsQ p text := not_exists.mp q
      simp [weightParam?_other other, ih, other]

theorem entryWeight?_eq_some {params : List (List Char)} {w : Weight} :
    entryWeight? params = some w ↔ Weighs params w := by
  induction params using List.reverseRecOn with
  | nil =>
    constructor
    · intro one
      exact ⟨by simp [GoodParams], .inl ⟨by simp, (Option.some.inj one).symm⟩⟩
    · rintro ⟨-, ⟨-, rfl⟩ | word⟩
      · rfl
      · exact absurd word lastWord_nil
  | append_singleton params p ih =>
    rw [entryWeight?_snoc]
    by_cases q : ∃ text, IsQ p text
    · obtain ⟨text, q⟩ := q
      rw [weightParam?_q q, weighs_q q, ← entryWeight?_isSome, ← Weight.read?_eq_some]
      cases entryWeight? params <;> simp
    · have other : ∀ text, ¬ IsQ p text := not_exists.mp q
      rw [weightParam?_other other, weighs_other other, ← ih]

end Accept

end Postboard.Http
