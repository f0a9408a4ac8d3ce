import Postboard.Text.Blank
import Postboard.Text.Utf8

/-! The bytes of texts, and of texts whose end was cut off. -/

set_option autoImplicit false

namespace Postboard.Text

namespace Utf8

theorem bytes_append (a b : String) : bytes (a ++ b) = bytes a ++ bytes b := by
  simp [bytes, encode]

/-- An ASCII character is the byte of its number. -/
theorem encodeChar_ascii {c : Char} (ascii : c.toNat < 128) :
    String.utf8EncodeChar c = [UInt8.ofNat c.toNat] := by
  have small : c.val.toNat ≤ 127 := Nat.le_of_lt_succ ascii
  unfold String.utf8EncodeChar
  exact if_pos small

theorem toNat_byte {c : Char} (ascii : c.toNat < 128) :
    (UInt8.ofNat c.toNat).toNat = c.toNat :=
  UInt8.toNat_ofNat_of_lt' (Nat.lt_trans ascii (by decide))

theorem repairOnto_ascii {bs : List UInt8} (ascii : ∀ b ∈ bs, b < 0x80) (acc : List Char) :
    repairOnto acc 0 bs = acc.reverse ++ bs.map fun b => Char.ofNat b.toNat := by
  induction bs generalizing acc with
  | nil => simp [repairOnto]
  | cons b rest ih =>
    have small : b < 0x80 := ascii b List.mem_cons_self
    simp [repairOnto, lead, small, ih fun b' member => ascii b' (List.mem_cons_of_mem _ member)]

/-- ASCII bytes are the characters of their numbers. -/
theorem repair_ascii {bs : List UInt8} (ascii : ∀ b ∈ bs, b < 0x80) :
    repair bs = bs.map fun b => Char.ofNat b.toNat := repairOnto_ascii ascii []

end Utf8

/-- What is dropped at the end is a last part that satisfies the test. -/
theorem dropWhileEnd_append (p : Char → Bool) (cs : List Char) :
    ∃ dropped, cs = dropWhileEnd p cs ++ dropped ∧ dropped.all p = true := by
  refine ⟨(cs.reverse.takeWhile p).reverse, ?_, ?_⟩
  · rw [dropWhileEnd, ← List.reverse_append, List.takeWhile_append_dropWhile, List.reverse_reverse]
  · rw [List.all_reverse]
    exact List.all_takeWhile

theorem dropWhileEnd_last (p : Char → Bool) (cs : List Char) :
    ∀ c ∈ (dropWhileEnd p cs).getLast?, p c = false := by
  intro c last
  rw [dropWhileEnd, List.getLast?_reverse] at last
  have stops := List.head?_dropWhile_not p cs.reverse
  rw [Option.mem_def.mp last] at stops
  simpa using stops

/-- A text without one character at its end: what is dropped is that character, and it stands no more
at the end of what is left. -/
theorem dropWhileEnd_split (x : Char) (cs : List Char) :
    ∃ dropped, cs = dropWhileEnd (· = x) cs ++ dropped ∧ (∀ c ∈ dropped, c = x) ∧
      (dropWhileEnd (· = x) cs).getLast? ≠ some x := by
  obtain ⟨dropped, whole, all⟩ := dropWhileEnd_append (· = x) cs
  refine ⟨dropped, whole, fun c member => of_decide_eq_true (List.all_eq_true.mp all c member), ?_⟩
  intro last
  exact absurd rfl (of_decide_eq_false (dropWhileEnd_last (· = x) cs x last))

end Postboard.Text
