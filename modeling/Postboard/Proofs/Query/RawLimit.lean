import Postboard.Proofs.Query.Limits
import Postboard.Proofs.Text.Numeral

/-! Limits as they stand in a query string: which of them are taken, as which number, and how the
others are refused.
-/

set_option autoImplicit false

namespace Postboard.Query.Descriptor

open Text

/-- How a text is refused as a limit under a ceiling. -/
inductive Refusal (raw : String) (max : UInt32) : String → Prop where
  -- There is no numeral between blanks, or it stands for an integer that no word of 64 bits holds.
  | noInteger : (∀ n, Decimal.Padded raw.toList n → n < -2 ^ 63 ∨ 2 ^ 63 ≤ n) →
      Refusal raw max ("limit is not an integer: '" ++ raw ++ "'")
  | notPositive {n : Int} : Decimal.Padded raw.toList n → -2 ^ 63 ≤ n → n ≤ 0 →
      Refusal raw max ("limit must be positive, got " ++ Decimal.ofInt n)
  | tooLarge {n : Int} : Decimal.Padded raw.toList n → max.toNat < n → n < 2 ^ 63 →
      Refusal raw max
        ("limit must be at most " ++ Decimal.ofNat max.toNat ++ ", got " ++ Decimal.ofInt n)

def Limits (raw : String) (max : UInt32) (n : UInt32) : Prop :=
  Decimal.Padded raw.toList n.toNat ∧ 1 ≤ n.toNat ∧ n.toNat ≤ max.toNat

theorem wordOf?_trim {raw : String} {n : Int} :
    Decimal.wordOf? 64 (trim raw.toList) = some n ↔
      Decimal.Padded raw.toList n ∧ -2 ^ 63 ≤ n ∧ n < 2 ^ 63 := by
  rw [Decimal.wordOf?_eq_some, ← Decimal.padded_iff]

theorem postsFromRaw_limits {raw : String} {max : UInt32} {d : Descriptor} :
    postsFromRaw raw max = .ok d ↔ ∃ n, Limits raw max n ∧ d = ⟨.posts, .limit n⟩ := by
  rw [postsFromRaw_eq_ok]
  refine exists_congr fun n => ?_
  -- A number of 32 bits is always one that a word of 64 bits holds.
  have small := n.toNat_lt
  rw [wordOf?_trim]
  constructor
  · rintro ⟨⟨padded, -, -⟩, positive, within, made⟩
    exact ⟨⟨padded, positive, within⟩, made⟩
  · rintro ⟨⟨padded, positive, within⟩, made⟩
    exact ⟨⟨padded, by omega, by omega⟩, positive, within, made⟩

theorem postsBounded_refusal {raw : String} {max : UInt32} {n : Int}
    (padded : Decimal.Padded raw.toList n) (low : -2 ^ 63 ≤ n) (high : n < 2 ^ 63) {reason : String} :
    postsBounded n max = .error (.invalidParameter .posts reason) ↔ Refusal raw max reason := by
  constructor
  · intro failed
    unfold postsBounded at failed
    split at failed
    next notPositive =>
      obtain rfl := (Error.invalidParameter.inj (Except.error.inj failed)).2
      exact .notPositive padded low notPositive
    next =>
      split at failed
      next tooLarge =>
        obtain rfl := (Error.invalidParameter.inj (Except.error.inj failed)).2
        exact .tooLarge padded tooLarge high
      next => cases failed
  · intro refused
    cases refused with
    | noInteger none =>
      have outside := none n padded
      omega
    | notPositive padded' _ notPositive =>
      obtain rfl := padded.unique padded'
      rw [postsBounded, if_pos notPositive]
    | tooLarge padded' tooLarge _ =>
      obtain rfl := padded.unique padded'
      have positive : ¬ n ≤ 0 := by omega
      rw [postsBounded, if_neg positive, if_pos tooLarge]

theorem postsFromRaw_refusal {raw : String} {max : UInt32} {reason : String} :
    postsFromRaw raw max = .error (.invalidParameter .posts reason) ↔ Refusal raw max reason := by
  unfold postsFromRaw
  cases read : Decimal.wordOf? 64 (trim raw.toList) with
  | some n =>
    obtain ⟨padded, low, high⟩ := wordOf?_trim.mp read
    exact postsBounded_refusal padded low high
  | none =>
    have outside : ∀ n, Decimal.Padded raw.toList n → n < -2 ^ 63 ∨ 2 ^ 63 ≤ n := by
      intro n padded
      by_contra inside
      have word := wordOf?_trim.mpr ⟨padded, by omega, by omega⟩
      rw [read] at word
      cases word
    constructor
    · intro failed
      obtain rfl := (Error.invalidParameter.inj (Except.error.inj failed)).2
      exact .noInteger outside
    · intro refused
      cases refused with
      | noInteger => rfl
      | notPositive padded low _ =>
        have := outside _ padded
        omega
      | tooLarge padded _ high =>
        have := outside _ padded
        omega

structure ReadsLimit (raw : String) (max : UInt32) : Prop where
  accepted : ∀ d, postsFromRaw raw max = .ok d ↔ ∃ n, Limits raw max n ∧ d = ⟨.posts, .limit n⟩
  unique : ∀ m n, Limits raw max m → Limits raw max n → m = n
  refused : (∀ n, ¬ Limits raw max n) ↔
    ∃ reason, postsFromRaw raw max = .error (.invalidParameter .posts reason)
  reason : ∀ e, postsFromRaw raw max = .error e ↔
    ∃ reason, e = .invalidParameter .posts reason ∧ Refusal raw max reason
  -- Neither an empty text is a number, nor one with another character inside than a digit behind a
  -- sign.
  foreign : (trim raw.toList = [] ∨ ∃ c ∈ (trim raw.toList).tail, ¬ ('0' ≤ c ∧ c ≤ '9')) →
    Refusal raw max ("limit is not an integer: '" ++ raw ++ "'")
  noRoom : max = 0 → ∀ n, ¬ Limits raw max n

theorem Limits.unique {raw : String} {max m n : UInt32} (here : Limits raw max m)
    (there : Limits raw max n) : m = n :=
  UInt32.toNat_inj.mp (Int.ofNat.inj (here.1.unique there.1))

theorem not_padded_of_foreign {cs : List Char}
    (foreign : trim cs = [] ∨ ∃ c ∈ (trim cs).tail, ¬ ('0' ≤ c ∧ c ≤ '9')) (n : Int) :
    ¬ Decimal.Padded cs n := by
  rw [Decimal.padded_iff]
  generalize trim cs = inner at foreign
  intro written
  rcases foreign with rfl | ⟨c, inside, other⟩
  · cases written with
    | bare digits => exact digits.1 rfl
  · cases written with
    | bare digits => exact other (digits.2 c (List.mem_of_mem_tail inside))
    | plus digits => exact other (digits.2 c inside)
    | minus digits => exact other (digits.2 c inside)

theorem rawLimit_read (raw : String) (max : UInt32) : ReadsLimit raw max where
  accepted d := postsFromRaw_limits
  unique m n := Limits.unique
  refused := by
    constructor
    · intro none
      cases read : postsFromRaw raw max with
      | ok d =>
        obtain ⟨n, limits, -⟩ := postsFromRaw_limits.mp read
        exact absurd limits (none n)
      | error e =>
        obtain ⟨reason, rfl⟩ := postsFromRaw_eq_error read
        exact ⟨reason, rfl⟩
    · rintro ⟨reason, failed⟩ n limits
      rw [postsFromRaw_limits.mpr ⟨n, limits, rfl⟩] at failed
      cases failed
  reason := by
    intro e
    constructor
    · intro failed
      obtain ⟨reason, rfl⟩ := postsFromRaw_eq_error failed
      exact ⟨reason, rfl, postsFromRaw_refusal.mp failed⟩
    · rintro ⟨reason, rfl, refusal⟩
      exact postsFromRaw_refusal.mpr refusal
  foreign := fun foreign => .noInteger fun n padded =>
    absurd padded (not_padded_of_foreign foreign n)
  noRoom := by
    rintro rfl n ⟨-, positive, within⟩
    exact absurd (Nat.le_trans positive within) (by decide)

end Postboard.Query.Descriptor
