import Mathlib.Algebra.Group.Nat.Defs
import Postboard.Text.Decimal

/-! Numbers in decimal: what `digits` writes is read back, and has no zero in front. -/

set_option autoImplicit false

namespace Postboard.Text.Decimal

/-! ### Writing -/

/-- Enough fuel is as good as any. -/
theorem digitsOnto_fuel {fuel n : Nat} (enough : n < fuel) (acc : List Char) :
    digitsOnto fuel n acc = digits n ++ acc := by
  induction n using Nat.strongRecOn generalizing fuel acc with
  | ind n ih =>
    -- Both sides leave the same quotient, for which any fuel above it will do.
    obtain ⟨fuel, rfl⟩ := Nat.exists_eq_add_one_of_ne_zero (Nat.ne_of_gt (Nat.zero_lt_of_lt enough))
    by_cases small : n < 10
    · simp [digits, digitsOnto, small]
    · have less : n / 10 < n := Nat.div_lt_self (by omega) (by decide)
      simp only [digits, digitsOnto, small, if_false]
      rw [ih (n / 10) less (by omega), ih (n / 10) less (by omega)]
      simp

theorem digits_small {n : Nat} (small : n < 10) : digits n = [digit n] := by
  simp [digits, digitsOnto, small]

theorem digits_large {n : Nat} (large : 10 ≤ n) : digits n = digits (n / 10) ++ [digit n] := by
  have less : n / 10 < n := Nat.div_lt_self (by omega) (by decide)
  have notSmall : ¬ n < 10 := by omega
  rw [digits, digitsOnto, if_neg notSmall, digitsOnto_fuel less]

/-- What holds of one digit and is kept by one more holds of all digits. -/
theorem digits_induct {motive : Nat → List Char → Prop}
    (small : ∀ n, n < 10 → motive n [digit n])
    (large : ∀ n, 10 ≤ n → motive (n / 10) (digits (n / 10)) →
      motive n (digits (n / 10) ++ [digit n])) (n : Nat) : motive n (digits n) := by
  induction n using Nat.strongRecOn with
  | ind n ih =>
    by_cases one : n < 10
    · rw [digits_small one]
      exact small n one
    · have more : 10 ≤ n := by omega
      rw [digits_large more]
      exact large n more (ih (n / 10) (Nat.div_lt_self (by omega) (by decide)))

/-! ### Digits -/

theorem digit_toNat (n : Nat) : (digit n).toNat = 48 + n % 10 := by
  have below : n % 10 < 10 := Nat.mod_lt n (by decide)
  unfold digit
  generalize n % 10 = d at below
  revert d
  decide

theorem isDigit_digit (n : Nat) : isDigit (digit n) = true := by
  have below : n % 10 < 10 := Nat.mod_lt n (by decide)
  simp only [isDigit, digit_toNat, Bool.and_eq_true, decide_eq_true_eq]
  omega

theorem digitValue_digit (n : Nat) : digitValue (digit n) = n % 10 := by
  rw [digitValue, digit_toNat]
  omega

theorem value_snoc (cs : List Char) (c : Char) :
    value (cs ++ [c]) = value cs * 10 + digitValue c := by
  simp [value]

theorem foldl_value (ds : List Char) (n : Nat) :
    ds.foldl (fun n c => n * 10 + digitValue c) n = n * 10 ^ ds.length + value ds := by
  induction ds generalizing n with
  | nil => simp [value]
  | cons d ds ih =>
    rw [value, List.foldl_cons, List.foldl_cons, ih, ih, List.length_cons, Nat.pow_succ', Nat.add_mul,
      Nat.mul_assoc, Nat.zero_mul, Nat.zero_add, Nat.add_assoc]

theorem value_append (cs ds : List Char) :
    value (cs ++ ds) = value cs * 10 ^ ds.length + value ds := by
  rw [value, List.foldl_append, foldl_value]
  rfl

theorem value_zeros (n : Nat) : value (List.replicate n '0') = 0 := by
  induction n with
  | zero => rfl
  | succ n ih =>
    rw [List.replicate_succ', value_snoc, ih]
    rfl

theorem value_zeros_append (n : Nat) (cs : List Char) :
    value (List.replicate n '0' ++ cs) = value cs := by
  rw [value_append, value_zeros, Nat.zero_mul, Nat.zero_add]

theorem value_append_zeros (cs : List Char) (n : Nat) :
    value (cs ++ List.replicate n '0') = value cs * 10 ^ n := by
  rw [value_append, value_zeros, List.length_replicate, Nat.add_zero]

/-! ### Reading back -/

theorem value_digits (n : Nat) : value (digits n) = n := by
  refine digits_induct (motive := fun n cs => value cs = n) ?_ ?_ n
  · intro n small
    simp only [value, List.foldl_cons, List.foldl_nil, digitValue_digit]
    omega
  · intro n large ih
    rw [value_snoc, ih, digitValue_digit]
    omega

theorem isDigit_digits (n : Nat) : (digits n).all isDigit = true := by
  refine digits_induct (motive := fun _ cs => cs.all isDigit = true) ?_ ?_ n
  · intro n small
    simp [isDigit_digit]
  · intro n large ih
    simp [ih, isDigit_digit]

theorem digits_ne_nil (n : Nat) : digits n ≠ [] := by
  refine digits_induct (motive := fun _ cs => cs ≠ []) ?_ ?_ n
  · exact fun n small => List.cons_ne_nil _ _
  · exact fun n large ih => List.append_ne_nil_of_right_ne_nil _ (List.cons_ne_nil _ _)

theorem natOf?_digits (n : Nat) : natOf? (digits n) = some n := by
  simp [natOf?, digits_ne_nil, isDigit_digits, value_digits]

/-- Only zero itself is written with a zero in front. -/
theorem digits_head_zero {n : Nat} (zero : (digits n).head? = some '0') : n = 0 := by
  revert zero
  refine digits_induct (motive := fun n cs => cs.head? = some '0' → n = 0) ?_ ?_ n
  · intro n small zero
    have same : (digit n).toNat = 48 := congrArg Char.toNat (Option.some.inj zero)
    rw [digit_toNat] at same
    omega
  · intro n large ih zero
    rw [List.head?_append, Option.or_of_isSome (List.isSome_head?.mpr (digits_ne_nil _))] at zero
    have none := ih zero
    omega

/-- A number is no less than the power of ten for its first place. -/
theorem pow_le {n : Nat} (positive : 0 < n) : 10 ^ ((digits n).length - 1) ≤ n := by
  revert positive
  refine digits_induct (motive := fun n cs => 0 < n → 10 ^ (cs.length - 1) ≤ n) ?_ ?_ n
  · exact fun n small positive => positive
  · intro n large ih positive
    have length := List.length_pos_iff.mpr (digits_ne_nil (n / 10))
    have power : 10 ^ (digits (n / 10)).length = 10 ^ ((digits (n / 10)).length - 1) * 10 := by
      rw [← Nat.pow_succ, Nat.succ_eq_add_one, Nat.sub_add_cancel length]
    have quotient := ih (by omega)
    simp only [List.length_append, List.length_singleton, Nat.add_sub_cancel, power]
    omega

theorem digits_inj {m n : Nat} (same : digits m = digits n) : m = n := by
  rw [← value_digits m, ← value_digits n, same]

end Postboard.Text.Decimal
