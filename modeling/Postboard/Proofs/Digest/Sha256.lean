import Postboard.Digest.Sha256

/-! The hexadecimal text of a digest tells the digest. -/

set_option autoImplicit false

namespace Postboard.Digest.Sha256

open Text

theorem hexDigit_inj : ∀ m < 16, ∀ n < 16, hexDigit m = hexDigit n → m = n := by decide

theorem hexDigits_inj {bytes bytes' : List UInt8}
    (same : bytes.flatMap (fun b => [hexDigit (b.toNat / 16), hexDigit (b.toNat % 16)]) =
      bytes'.flatMap (fun b => [hexDigit (b.toNat / 16), hexDigit (b.toNat % 16)])) :
    bytes = bytes' := by
  induction bytes generalizing bytes' with
  | nil =>
    cases bytes' with
    | nil => rfl
    | cons => cases same
  | cons b rest ih =>
    cases bytes' with
    | nil => cases same
    | cons b' rest' =>
      simp only [List.flatMap_cons, List.cons_append, List.nil_append, List.cons.injEq] at same
      obtain ⟨high, low, later⟩ := same
      have size := b.toNat_lt
      have size' := b'.toNat_lt
      have quotient := hexDigit_inj _ (by omega) _ (by omega) high
      have remainder := hexDigit_inj _ (by omega) _ (by omega) low
      have byte : b = b' := UInt8.toNat_inj.mp (by omega)
      rw [byte, ih later]

theorem hex_eq_iff {message message' : List UInt8} :
    hex message = hex message' ↔ digest message = digest message' := by
  constructor
  · intro same
    exact hexDigits_inj (String.ofList_injective same)
  · intro same
    rw [hex, hex, same]

end Postboard.Digest.Sha256
