import Postboard.Query.Basic

/-! Which limits make a descriptor. -/

set_option autoImplicit false

namespace Postboard.Query.Descriptor

open Text

/-- A bounded descriptor holds the limit itself, which lies between one and the ceiling. -/
theorem postsBounded_eq_ok {limit : Int} {max : UInt32} {d : Descriptor} :
    postsBounded limit max = .ok d ↔
      ∃ n : UInt32, limit = n.toNat ∧ 1 ≤ n.toNat ∧ n.toNat ≤ max.toNat ∧
        d = ⟨.posts, .limit n⟩ := by
  constructor
  · intro made
    unfold postsBounded at made
    split at made
    · cases made
    · split at made
      · cases made
      next positive within =>
        cases made
        have small : limit.toNat < 2 ^ 32 := by have := max.toNat_lt; omega
        have same : (UInt32.ofNat limit.toNat).toNat = limit.toNat :=
          UInt32.toNat_ofNat_of_lt' small
        exact ⟨_, by omega, by omega, by omega, rfl⟩
  · rintro ⟨n, rfl, positive, within, rfl⟩
    have notLow : ¬ (n.toNat : Int) ≤ 0 := by omega
    have notHigh : ¬ (max.toNat : Int) < n.toNat := by omega
    rw [postsBounded, if_neg notLow, if_neg notHigh]
    simp

theorem postsBounded_eq_error {limit : Int} {max : UInt32} {e : Error}
    (failed : postsBounded limit max = .error e) :
    ∃ reason, e = .invalidParameter .posts reason := by
  unfold postsBounded at failed
  split at failed
  · exact ⟨_, (Except.error.inj failed).symm⟩
  · split at failed
    · exact ⟨_, (Except.error.inj failed).symm⟩
    · cases failed

theorem postsFromRaw_eq_ok {raw : String} {max : UInt32} {d : Descriptor} :
    postsFromRaw raw max = .ok d ↔
      ∃ n : UInt32, Decimal.wordOf? 64 (trim raw.toList) = some (n.toNat : Int) ∧
        1 ≤ n.toNat ∧ n.toNat ≤ max.toNat ∧ d = ⟨.posts, .limit n⟩ := by
  unfold postsFromRaw
  cases Decimal.wordOf? 64 (trim raw.toList) with
  | none => simp
  | some limit => simpa using postsBounded_eq_ok

theorem postsFromRaw_eq_error {raw : String} {max : UInt32} {e : Error}
    (failed : postsFromRaw raw max = .error e) : ∃ reason, e = .invalidParameter .posts reason := by
  unfold postsFromRaw at failed
  split at failed
  · exact postsBounded_eq_error failed
  · exact ⟨_, (Except.error.inj failed).symm⟩

end Postboard.Query.Descriptor
