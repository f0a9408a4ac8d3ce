import Mathlib.Algebra.Ring.Int.Defs
import Mathlib.Algebra.Ring.Nat
import Mathlib.Order.Monotone.Basic
import Postboard.Number.Format

/-! The values of a format increase with their index. -/

set_option autoImplicit false

namespace Postboard.Number.Format

theorem units_at (f : Format) (step : Nat) {low : Nat} (below : low < 2 ^ f.fraction) :
    f.units (step * 2 ^ f.fraction + low) =
      if step = 0 then low else (low + 2 ^ f.fraction) * 2 ^ (step - 1) := by
  have div : (step * 2 ^ f.fraction + low) / 2 ^ f.fraction = step := by
    rw [Nat.add_comm, Nat.add_mul_div_right _ _ (Nat.two_pow_pos _), Nat.div_eq_of_lt below,
      Nat.zero_add]
  have mod : (step * 2 ^ f.fraction + low) % 2 ^ f.fraction = low := by
    rw [Nat.add_comm, Nat.add_mul_mod_self_right, Nat.mod_eq_of_lt below]
  simp only [units, Nat.pow_eq, div, mod]

/-- The next value is larger, by no less than its own last place. -/
theorem units_succ (f : Format) (index : Nat) : ∃ gap, 0 < gap ∧
    f.units (index + 1) = f.units index + gap ∧ f.units (index + 1) ≤ 2 ^ (f.fraction + 1) * gap := by
  have size := Nat.two_pow_pos f.fraction
  obtain ⟨step, low, below, rfl⟩ : ∃ step low, low < 2 ^ f.fraction ∧
      index = step * 2 ^ f.fraction + low :=
    ⟨index / 2 ^ f.fraction, index % 2 ^ f.fraction, Nat.mod_lt _ size,
      (Nat.div_add_mod' index (2 ^ f.fraction)).symm⟩
  refine ⟨2 ^ (step - 1), Nat.two_pow_pos _, ?_⟩
  rw [units_at f step below, Nat.pow_succ']
  by_cases inside : low + 1 < 2 ^ f.fraction
  · rw [Nat.add_assoc, units_at f step inside]
    split
    next first =>
      subst first
      omega
    next =>
      refine ⟨by rw [← Nat.add_one_mul, Nat.add_right_comm], ?_⟩
      exact Nat.mul_le_mul_right _ (by omega)
  · have next : step * 2 ^ f.fraction + low + 1 = (step + 1) * 2 ^ f.fraction + 0 := by
      rw [Nat.add_one_mul]
      omega
    have full : low + 1 = 2 ^ f.fraction := by omega
    rw [next, units_at f (step + 1) size, if_neg (Nat.succ_ne_zero step), Nat.zero_add,
      Nat.add_sub_cancel]
    split
    next first =>
      subst first
      omega
    next later =>
      -- The exponent changes here: the sum is twice the power that the fraction starts with.
      obtain ⟨step, rfl⟩ := Nat.exists_eq_add_one_of_ne_zero later
      rw [Nat.add_sub_cancel, ← Nat.add_one_mul, Nat.add_right_comm, full, Nat.pow_succ',
        ← Nat.two_mul, Nat.mul_left_comm, ← Nat.mul_assoc]
      exact ⟨rfl, Nat.le_refl _⟩

/-- The next index has a larger value, also where the exponent changes. -/
theorem units_lt_succ (f : Format) (index : Nat) : f.units index < f.units (index + 1) := by
  obtain ⟨gap, positive, next, -⟩ := f.units_succ index
  omega

theorem units_strictMono (f : Format) : StrictMono f.units :=
  strictMono_nat_of_lt_succ f.units_lt_succ

theorem units_le_iff (f : Format) {i j : Nat} : f.units i ≤ f.units j ↔ i ≤ j :=
  f.units_strictMono.le_iff_le

theorem units_zero (f : Format) : f.units 0 = 0 := by
  simpa using units_at f 0 (Nat.two_pow_pos f.fraction)

end Postboard.Number.Format
