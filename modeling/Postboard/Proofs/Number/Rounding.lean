import Mathlib.Algebra.Order.Field.Power
import Mathlib.Data.Nat.Cast.Order.Field
import Mathlib.Tactic.FieldSimp
import Mathlib.Tactic.Linarith
import Mathlib.Tactic.Ring
import Postboard.Number.Shortest
import Postboard.Proofs.Number.Format
import Postboard.Proofs.Text.Decimal

/-! Which decimal numbers read back as a double, and on which grids there is one.

They lie between the middles to the neighbours of the double (`Rounds`), so one number reads back as
one magnitude only. On the grid of seventeen digits there always is one, since a step of that grid
is smaller than what lies between the middles.
-/

set_option autoImplicit false

namespace Postboard.Number.Shortest

open Text

/-! ### Rounding intervals -/

def magnitude (index : Nat) : ℚ := Format.double.units index / 2 ^ 1074

/-- A number is nearest to the magnitude with an index: it is not beyond the middles to the
neighbours, nor at them when the index is odd. -/
structure Rounds (index : Nat) (x : ℚ) : Prop where
  low : magnitude (index - 1) + magnitude index ≤ 2 * x
  high : 2 * x ≤ magnitude index + magnitude (index + 1)
  odd : index % 2 = 1 → magnitude (index - 1) + magnitude index < 2 * x ∧
    2 * x < magnitude index + magnitude (index + 1)

theorem magnitude_strictMono : StrictMono magnitude := by
  intro i j less
  have cast : (Format.double.units i : ℚ) < Format.double.units j :=
    Nat.cast_lt.mpr (Format.double.units_strictMono less)
  exact div_lt_div_of_pos_right cast (by positivity)

theorem not_rounds_both {i j : Nat} (less : i < j) {x : ℚ} (here : Rounds i x)
    (there : Rounds j x) : False := by
  have first : magnitude i ≤ magnitude (j - 1) := magnitude_strictMono.monotone (by omega)
  have second : magnitude (i + 1) ≤ magnitude j := magnitude_strictMono.monotone less
  have upper := here.high
  have lower := there.low
  -- The intervals can only touch, where one of two neighbours is odd.
  have touch : magnitude i = magnitude (j - 1) := by linarith
  obtain rfl : j = i + 1 := by
    have := magnitude_strictMono.injective touch
    omega
  rw [Nat.add_sub_cancel] at lower
  rcases Nat.mod_two_eq_zero_or_one i with even | odd
  · have strict := (there.odd (by omega)).1
    rw [Nat.add_sub_cancel] at strict
    linarith
  · have strict := (here.odd odd).2
    linarith

theorem Rounds.unique {i j : Nat} {x : ℚ} (here : Rounds i x) (there : Rounds j x) : i = j := by
  rcases Nat.lt_trichotomy i j with less | same | more
  · exact (not_rounds_both less here there).elim
  · exact same
  · exact (not_rounds_both more there here).elim

theorem rounds_zero : Rounds 0 0 := by
  have next := magnitude_strictMono (Nat.zero_lt_one)
  have zero : magnitude 0 = 0 := by simp [magnitude, Format.units_zero]
  refine ⟨?_, ?_, ?_⟩
  · simp [zero]
  · rw [zero] at next ⊢
    linarith
  · simp

/-! ### Grids -/

/-- A grid of steps of a given size: steps and units are compared after `den` and `scale` have
brought them to a common size. -/
structure Grid (scale den : Nat) (size factor : ℚ) : Prop where
  positive : 0 < factor
  some : 0 < den
  units : ∀ u : Nat, ((u * scale : Nat) : ℚ) = factor * (u / 2 ^ 1074)
  steps : ∀ c : Nat, ((c * den : Nat) : ℚ) = factor * (c * size)

theorem grid (down : Int) : ∃ factor, Grid (Nat.pow 10 down.toNat)
    (Nat.pow 2 1074 * Nat.pow 10 (-down).toNat) (10 ^ (-down)) factor := by
  have ten : (10 : ℚ) ≠ 0 := by norm_num
  have power : (10 : ℚ) ^ (-down).toNat = 10 ^ down.toNat * 10 ^ (-down) := by
    rw [← zpow_natCast, ← zpow_natCast, ← zpow_add₀ ten]
    congr 1
    omega
  -- The number of units in one is left general, since its power is not to be computed.
  generalize unit : 1074 = places
  refine ⟨2 ^ places * 10 ^ down.toNat, by positivity, by simp, fun u => ?_, fun c => ?_⟩
  · rw [unit, Nat.pow_eq]
    push_cast
    field_simp
  · rw [Nat.pow_eq, Nat.pow_eq]
    push_cast
    rw [power]
    ring

theorem Grid.fits_iff {scale den : Nat} {size factor : ℚ} (grid : Grid scale den size factor)
    (index c : Nat) : fits index scale den c = true ↔ Rounds index (c * size) := by
  have middle (i j : Nat) : (((Format.double.units i + Format.double.units j) * scale : Nat) : ℚ) =
      factor * (magnitude i + magnitude j) := by
    rw [grid.units, Nat.cast_add, add_div, magnitude, magnitude]
  have twice : ((2 * c * den : Nat) : ℚ) = factor * (2 * (c * size)) := by
    rw [grid.steps, Nat.cast_mul, Nat.cast_ofNat, mul_assoc]
  unfold fits
  simp only
  split
  next even =>
    simp only [Bool.and_eq_true, decide_eq_true_eq, ← Nat.cast_le (α := ℚ), middle, twice,
      mul_le_mul_iff_right₀ grid.positive]
    exact ⟨fun ⟨low, high⟩ => ⟨low, high, by omega⟩, fun rounds => ⟨rounds.low, rounds.high⟩⟩
  next odd =>
    simp only [Bool.and_eq_true, decide_eq_true_eq, ← Nat.cast_lt (α := ℚ), middle, twice,
      mul_lt_mul_iff_right₀ grid.positive]
    exact ⟨fun ⟨low, high⟩ => ⟨low.le, high.le, fun _ => ⟨low, high⟩⟩,
      fun rounds => rounds.odd (by omega)⟩

theorem onGrid?_eq_some {index scale den c : Nat} (found : onGrid? index scale den = some c) :
    fits index scale den c = true := by
  unfold onGrid? at found
  simp only at found
  split at found
  next here there =>
    split at found
    all_goals
      obtain rfl := Option.some.inj found
      assumption
  next here _ => exact Option.some.inj found ▸ here
  next _ here => exact Option.some.inj found ▸ here
  next => cases found

theorem onGrid?_eq_none {index scale den : Nat} (missed : onGrid? index scale den = none) :
    fits index scale den (Format.double.units index * scale / den) = false ∧
      fits index scale den (Format.double.units index * scale / den + 1) = false := by
  unfold onGrid? at missed
  simp only at missed
  split at missed
  next => cases missed
  next => cases missed
  next => cases missed
  next here there => exact ⟨here, there⟩

/-! ### Seventeen digits -/

theorem units_pos {index : Nat} (positive : 0 < index) : 0 < Format.double.units index := by
  have more := Format.double.units_strictMono positive
  rwa [Format.units_zero] at more

/-- The number of digits that a magnitude has, after a shift, tells its first place. -/
theorem pow_length_le {u unit shift : Nat} (positive : 0 < u)
    (enough : Nat.pow 2 unit ≤ Nat.pow 10 shift) :
    (10 : ℚ) ^ (((Decimal.digits (u * Nat.pow 10 shift / Nat.pow 2 unit)).length : Int) - shift - 1)
      ≤ u / 2 ^ unit := by
  have ten : (10 : ℚ) ≠ 0 := by norm_num
  have whole : 0 < u * Nat.pow 10 shift / Nat.pow 2 unit :=
    Nat.div_pos (Nat.le_trans enough (Nat.le_mul_of_pos_left _ positive)) (Nat.two_pow_pos unit)
  have floor : ((u * Nat.pow 10 shift / Nat.pow 2 unit : Nat) : ℚ) ≤ u / 2 ^ unit * 10 ^ shift := by
    rw [div_mul_eq_mul_div]
    exact_mod_cast Nat.cast_div_le (α := ℚ) (m := u * 10 ^ shift) (n := 2 ^ unit)
  generalize u * Nat.pow 10 shift / Nat.pow 2 unit = m at whole floor
  have length := List.length_pos_iff.mpr (Decimal.digits_ne_nil m)
  have first : (10 : ℚ) ^ ((Decimal.digits m).length - 1) ≤ m := by
    exact_mod_cast Decimal.pow_le whole
  have shifted : (10 : ℚ) ^ ((Decimal.digits m).length - 1) =
      10 ^ (((Decimal.digits m).length : Int) - shift - 1) * 10 ^ shift := by
    rw [← zpow_natCast, ← zpow_natCast (10 : ℚ) shift, ← zpow_add₀ ten]
    congr 1
    omega
  rw [shifted] at first
  exact le_of_mul_le_mul_right (first.trans floor) (by positivity)

/-- The place of the first digit is not too high. -/
theorem pow_place_le {index : Nat} (positive : 0 < index) :
    (10 : ℚ) ^ (place index - 1) ≤ magnitude index := by
  have enough : Nat.pow 2 1074 ≤ Nat.pow 10 400 := by decide +kernel
  have first := pow_length_le (units_pos positive) enough
  rw [Nat.cast_ofNat] at first
  exact first

theorem not_fits {index scale den c : Nat} (fails : fits index scale den c = false)
    (low : (Format.double.units (index - 1) + Format.double.units index) * scale < 2 * c * den) :
    (Format.double.units index + Format.double.units (index + 1)) * scale ≤ 2 * c * den := by
  by_contra high
  simp only [fits, low, Nat.lt_of_not_le high, Nat.le_of_lt low, Nat.le_of_lt (Nat.lt_of_not_le high),
    decide_true, Bool.and_self, ite_self, Bool.true_eq_false] at fails

/-- On a grid on which the magnitude is at least `10 ^ 16` steps, one of the neighbours reads
back: the interval is wider than a step. -/
theorem fine_grid {index scale den : Nat} (positive : 0 < index) (some : 0 < den)
    (fine : 10 ^ 16 * den ≤ Format.double.units index * scale) : onGrid? index scale den ≠ none := by
  intro missed
  -- The points around the magnitude both miss, so the interval would be narrower than a step.
  obtain ⟨below, above⟩ := onGrid?_eq_none missed
  obtain ⟨left, -, last, leftWide⟩ := Format.double.units_succ (index - 1)
  obtain ⟨right, -, next, rightWide⟩ := Format.double.units_succ index
  rw [Nat.sub_add_cancel positive] at last leftWide
  have sum : Format.double.units index * scale =
      Format.double.units (index - 1) * scale + left * scale := by rw [last, Nat.add_mul]
  have sum' : Format.double.units (index + 1) * scale =
      Format.double.units index * scale + right * scale := by rw [next, Nat.add_mul]
  have wide : Format.double.units index * scale ≤ 2 ^ 53 * (left * scale) := by
    rw [← Nat.mul_assoc]
    exact Nat.mul_le_mul_right scale leftWide
  have wide' : Format.double.units (index + 1) * scale ≤ 2 ^ 53 * (right * scale) := by
    rw [← Nat.mul_assoc]
    exact Nat.mul_le_mul_right scale rightWide
  have quotient := Nat.div_mul_le_self (Format.double.units index * scale) den
  have remainder := Nat.lt_div_mul_add some (a := Format.double.units index * scale)
  have low := mt (not_fits below)
  have high := not_fits above
  simp only [Nat.add_mul, Nat.mul_assoc, Nat.one_mul] at *
  omega

/-- Seventeen digits always suffice. -/
theorem seventeen {index n : Nat} (positive : 0 < index) (enough : 17 ≤ n) :
    onGrid? index (Nat.pow 10 (n - place index).toNat)
      (Nat.pow 2 1074 * Nat.pow 10 (-(n - place index)).toNat) ≠ none := by
  obtain ⟨factor, grid⟩ := grid (n - place index)
  refine fine_grid positive grid.some ?_
  rw [← Nat.cast_le (α := ℚ), grid.units, grid.steps, mul_le_mul_iff_right₀ grid.positive]
  refine le_trans ?_ (pow_place_le positive)
  rw [Nat.cast_pow, Nat.cast_ofNat, ← zpow_natCast, ← zpow_add₀ (by norm_num)]
  exact zpow_le_zpow_right₀ (by norm_num) (by omega)

end Postboard.Number.Shortest
