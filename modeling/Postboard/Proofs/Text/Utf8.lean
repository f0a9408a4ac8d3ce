import Postboard.Proofs.Text.Bytes

/-! Decoding and encoding in UTF-8 undo each other.

`Sequence` lists the well-formed sequences of bytes by their length. A character is encoded by its
one sequence and `lead` finds exactly the sequences, so strict decoding accepts exactly the bytes
of texts and gives the text back.
-/

set_option autoImplicit false

namespace Postboard.Text.Utf8

theorem isTail_iff {b : UInt8} : isTail b = true ↔ 0x80 ≤ b.toNat ∧ b.toNat ≤ 0xBF := by
  simp [isTail, UInt8.le_iff_toNat_le]

/-- Four first bytes leave only a part of the second bytes. -/
theorem secondFits_iff {a b : UInt8} : secondFits a b = true ↔
    (0x80 ≤ b.toNat ∧ b.toNat ≤ 0xBF) ∧ (a.toNat = 0xE0 → 0xA0 ≤ b.toNat) ∧
      (a.toNat = 0xED → b.toNat ≤ 0x9F) ∧ (a.toNat = 0xF0 → 0x90 ≤ b.toNat) ∧
      (a.toNat = 0xF4 → b.toNat ≤ 0x8F) := by
  unfold secondFits
  simp only [beq_iff_eq, ← UInt8.toNat_inj]
  split
  next special => simp [UInt8.le_iff_toNat_le, special]; omega
  split
  next special => simp [UInt8.le_iff_toNat_le, special]; omega
  split
  next special => simp [UInt8.le_iff_toNat_le, special]; omega
  split
  next special => simp [UInt8.le_iff_toNat_le, special]; omega
  next first second third fourth =>
    have noE0 : a.toNat ≠ 0xE0 := first
    have noED : a.toNat ≠ 0xED := second
    have noF0 : a.toNat ≠ 0xF0 := third
    have noF4 : a.toNat ≠ 0xF4 := fourth
    rw [isTail_iff]
    omega

/-! ### Sequences -/

inductive Sequence : Char → List UInt8 → Prop where
  | one {a : UInt8} : a.toNat < 0x80 → Sequence (Char.ofNat a.toNat) [a]
  | two {a b : UInt8} : 0xC2 ≤ a.toNat ∧ a.toNat ≤ 0xDF → isTail b = true →
      Sequence (Char.ofNat (point (a.toNat - 0xC0) [b])) [a, b]
  | three {a b c : UInt8} : 0xE0 ≤ a.toNat ∧ a.toNat ≤ 0xEF → secondFits a b = true →
      isTail c = true → Sequence (Char.ofNat (point (a.toNat - 0xE0) [b, c])) [a, b, c]
  | four {a b c d : UInt8} : 0xF0 ≤ a.toNat ∧ a.toNat ≤ 0xF4 → secondFits a b = true →
      isTail c = true → isTail d = true →
      Sequence (Char.ofNat (point (a.toNat - 0xF0) [b, c, d])) [a, b, c, d]

theorem toNat_ofNat {n : Nat} (valid : n < 0xD800 ∨ 0xDFFF < n ∧ n < 0x110000) :
    (Char.ofNat n).toNat = n := by
  have legal : n.isValidChar := valid
  rw [Char.ofNat, dif_pos legal]
  rfl

theorem ofNat_eq {n : Nat} {b : UInt8} (same : n = b.toNat) : UInt8.ofNat n = b := by
  rw [same, UInt8.ofNat_toNat]

theorem exists_byte {n : Nat} (small : n < 256) : ∃ b : UInt8, b.toNat = n :=
  ⟨.ofNat n, UInt8.toNat_ofNat_of_lt' small⟩

theorem encodeChar_eq (c : Char) : String.utf8EncodeChar c =
    if c.toNat < 0x80 then [UInt8.ofNat c.toNat]
    else if c.toNat < 0x800 then
      [UInt8.ofNat (c.toNat / 64 + 0xC0), UInt8.ofNat (c.toNat % 64 + 0x80)]
    else if c.toNat < 0x10000 then
      [UInt8.ofNat (c.toNat / 4096 + 0xE0), UInt8.ofNat (c.toNat / 64 % 64 + 0x80),
        UInt8.ofNat (c.toNat % 64 + 0x80)]
    else
      [UInt8.ofNat (c.toNat / 262144 + 0xF0), UInt8.ofNat (c.toNat / 4096 % 64 + 0x80),
        UInt8.ofNat (c.toNat / 64 % 64 + 0x80), UInt8.ofNat (c.toNat % 64 + 0x80)] := by
  have valid : c.toNat < 0xD800 ∨ 0xDFFF < c.toNat ∧ c.toNat < 0x110000 := c.valid
  unfold String.utf8EncodeChar
  simp only [← Char.toNat.eq_1]
  generalize c.toNat = n at *
  grind

theorem Sequence.encode {c : Char} {bs : List UInt8} (sequence : Sequence c bs) :
    String.utf8EncodeChar c = bs := by
  rw [encodeChar_eq]
  cases sequence with
  | @one a first =>
    have code : (Char.ofNat a.toNat).toNat = a.toNat := toNat_ofNat (by omega)
    rw [code, if_pos first, ofNat_eq rfl]
  | @two a b first second =>
    rw [isTail_iff] at second
    have code : (Char.ofNat (point (a.toNat - 0xC0) [b])).toNat =
        (a.toNat - 0xC0) * 64 + (b.toNat - 0x80) :=
      toNat_ofNat (by simp only [point, List.foldl]; omega)
    rw [code, if_neg (by omega), if_pos (by omega), ofNat_eq (b := a) (by omega),
      ofNat_eq (b := b) (by omega)]
  | @three a b c first second third =>
    rw [secondFits_iff] at second
    rw [isTail_iff] at third
    have code : (Char.ofNat (point (a.toNat - 0xE0) [b, c])).toNat =
        ((a.toNat - 0xE0) * 64 + (b.toNat - 0x80)) * 64 + (c.toNat - 0x80) :=
      toNat_ofNat (by simp only [point, List.foldl]; omega)
    rw [code, if_neg (by omega), if_neg (by omega), if_pos (by omega),
      ofNat_eq (b := a) (by omega), ofNat_eq (b := b) (by omega), ofNat_eq (b := c) (by omega)]
  | @four a b c d first second third fourth =>
    rw [secondFits_iff] at second
    rw [isTail_iff] at third fourth
    have code : (Char.ofNat (point (a.toNat - 0xF0) [b, c, d])).toNat =
        (((a.toNat - 0xF0) * 64 + (b.toNat - 0x80)) * 64 + (c.toNat - 0x80)) * 64 +
          (d.toNat - 0x80) :=
      toNat_ofNat (by simp only [point, List.foldl]; omega)
    rw [code, if_neg (by omega), if_neg (by omega), if_neg (by omega),
      ofNat_eq (b := a) (by omega), ofNat_eq (b := b) (by omega), ofNat_eq (b := c) (by omega),
      ofNat_eq (b := d) (by omega)]

theorem exists_sequence (c : Char) : ∃ a tail, Sequence c (a :: tail) := by
  have valid : c.toNat < 0xD800 ∨ 0xDFFF < c.toNat ∧ c.toNat < 0x110000 := c.valid
  have named : ∀ n, n = c.toNat → c = Char.ofNat n := fun n same => by
    rw [same, Char.ofNat_toNat]
  -- The bytes are the digits of the code point to the base 64.
  by_cases one : c.toNat < 0x80
  · obtain ⟨a, ha⟩ := exists_byte (n := c.toNat) (by omega)
    rw [named a.toNat ha]
    exact ⟨a, [], .one (by omega)⟩
  by_cases two : c.toNat < 0x800
  · obtain ⟨a, ha⟩ := exists_byte (n := c.toNat / 64 + 0xC0) (by omega)
    obtain ⟨b, hb⟩ := exists_byte (n := c.toNat % 64 + 0x80) (by omega)
    rw [named (point (a.toNat - 0xC0) [b]) (by simp only [point, List.foldl]; omega)]
    exact ⟨a, [b], .two (by omega) (isTail_iff.mpr (by omega))⟩
  by_cases three : c.toNat < 0x10000
  · obtain ⟨a, ha⟩ := exists_byte (n := c.toNat / 4096 + 0xE0) (by omega)
    obtain ⟨b, hb⟩ := exists_byte (n := c.toNat / 64 % 64 + 0x80) (by omega)
    obtain ⟨d, hd⟩ := exists_byte (n := c.toNat % 64 + 0x80) (by omega)
    rw [named (point (a.toNat - 0xE0) [b, d]) (by simp only [point, List.foldl]; omega)]
    exact ⟨a, [b, d], .three (by omega) (secondFits_iff.mpr (by omega)) (isTail_iff.mpr (by omega))⟩
  · obtain ⟨a, ha⟩ := exists_byte (n := c.toNat / 262144 + 0xF0) (by omega)
    obtain ⟨b, hb⟩ := exists_byte (n := c.toNat / 4096 % 64 + 0x80) (by omega)
    obtain ⟨d, hd⟩ := exists_byte (n := c.toNat / 64 % 64 + 0x80) (by omega)
    obtain ⟨e, he⟩ := exists_byte (n := c.toNat % 64 + 0x80) (by omega)
    rw [named (point (a.toNat - 0xF0) [b, d, e]) (by simp only [point, List.foldl]; omega)]
    exact ⟨a, [b, d, e], .four (by omega) (secondFits_iff.mpr (by omega))
      (isTail_iff.mpr (by omega)) (isTail_iff.mpr (by omega))⟩

theorem Sequence.lead_eq {c : Char} {a : UInt8} {tail : List UInt8}
    (sequence : Sequence c (a :: tail)) (rest : List UInt8) :
    lead a (tail ++ rest) = .char c tail.length := by
  cases sequence with
  | one first => simp [lead, UInt8.lt_iff_toNat_lt, first]
  | two first second =>
    have high : ¬ a.toNat < 0x80 := by omega
    simp [lead, UInt8.lt_iff_toNat_lt, UInt8.le_iff_toNat_le, high, first, second]
  | three first second third =>
    have high : ¬ a.toNat < 0x80 := by omega
    have notTwo : ¬ (0xC2 ≤ a.toNat ∧ a.toNat ≤ 0xDF) := by omega
    simp [lead, UInt8.lt_iff_toNat_lt, UInt8.le_iff_toNat_le, high, notTwo, first, second, third]
  | four first second third fourth =>
    have high : ¬ a.toNat < 0x80 := by omega
    have notTwo : ¬ (0xC2 ≤ a.toNat ∧ a.toNat ≤ 0xDF) := by omega
    have notThree : ¬ (0xE0 ≤ a.toNat ∧ a.toNat ≤ 0xEF) := by omega
    simp [lead, UInt8.lt_iff_toNat_lt, UInt8.le_iff_toNat_le, high, notTwo, notThree, first, second,
      third, fourth]

theorem sequence_of_lead {a : UInt8} {rest : List UInt8} {c : Char} {more : Nat}
    (found : lead a rest = .char c more) :
    ∃ tail rest', rest = tail ++ rest' ∧ tail.length = more ∧ Sequence c (a :: tail) := by
  unfold lead at found
  simp only [UInt8.le_iff_toNat_le, UInt8.lt_iff_toNat_lt, Bool.and_eq_true,
    decide_eq_true_eq] at found
  split at found
  next one =>
    obtain ⟨rfl, rfl⟩ := Lead.char.inj found
    exact ⟨[], rest, rfl, rfl, .one one⟩
  split at found
  next two =>
    split at found
    next => cases found
    next b rest =>
      split at found
      next second =>
        obtain ⟨rfl, rfl⟩ := Lead.char.inj found
        exact ⟨[b], rest, rfl, rfl, .two two second⟩
      next => cases found
  split at found
  next three =>
    split at found
    next => cases found
    next b rest =>
      split at found
      next second =>
        split at found
        next => cases found
        next d rest =>
          split at found
          next third =>
            obtain ⟨rfl, rfl⟩ := Lead.char.inj found
            exact ⟨[b, d], rest, rfl, rfl, .three three second third⟩
          next => cases found
      next => cases found
  split at found
  next four =>
    split at found
    next => cases found
    next b rest =>
      split at found
      next second =>
        split at found
        next => cases found
        next d rest =>
          split at found
          next third =>
            split at found
            next => cases found
            next e rest =>
              split at found
              next fourth =>
                obtain ⟨rfl, rfl⟩ := Lead.char.inj found
                exact ⟨[b, d, e], rest, rfl, rfl, .four four second third fourth⟩
              next => cases found
          next => cases found
      next => cases found
  next => cases found

/-! ### Texts -/

@[simp] theorem encode_nil : encode [] = [] := rfl

theorem encode_cons (c : Char) (cs : List Char) :
    encode (c :: cs) = String.utf8EncodeChar c ++ encode cs := by
  simp [encode]

theorem encode_append (cs ds : List Char) : encode (cs ++ ds) = encode cs ++ encode ds := by
  simp [encode]

theorem length_le_encode (cs : List Char) : cs.length ≤ (encode cs).length := by
  induction cs with
  | nil => exact Nat.zero_le _
  | cons c cs ih =>
    have some := String.utf8EncodeChar_ne_nil (c := c)
    have pos := List.length_pos_iff.mpr some
    rw [encode_cons, List.length_append, List.length_cons]
    omega

/-- The bytes of a first character that was found are passed over. -/
theorem decodeOnto_skip (acc : List Char) (pos : Nat) (tail rest : List UInt8) :
    decodeOnto acc pos tail.length (tail ++ rest) = decodeOnto acc (pos + tail.length) 0 rest := by
  induction tail generalizing pos with
  | nil => rfl
  | cons b tail ih =>
    rw [List.length_cons, List.cons_append, decodeOnto, ih]
    congr 1
    omega

theorem decodeOnto_encode (acc : List Char) (pos : Nat) (cs : List Char) :
    decodeOnto acc pos 0 (encode cs) = .ok (acc.reverse ++ cs) := by
  induction cs generalizing acc pos with
  | nil => simp [decodeOnto]
  | cons c cs ih =>
    obtain ⟨a, tail, sequence⟩ := exists_sequence c
    rw [encode_cons, sequence.encode, List.cons_append, decodeOnto, sequence.lead_eq]
    simp only [decodeOnto_skip, ih]
    simp

theorem decodeOnto_eq_ok {bs : List UInt8} {acc : List Char} {pos : Nat} {cs : List Char}
    (decoded : decodeOnto acc pos 0 bs = .ok cs) :
    ∃ ds, cs = acc.reverse ++ ds ∧ bs = encode ds := by
  -- A character takes several bytes at once, so the induction is on the number of those left.
  induction size : bs.length using Nat.strongRecOn generalizing bs acc pos with
  | ind n ih =>
    cases bs with
    | nil =>
      simp only [decodeOnto, Except.ok.injEq] at decoded
      exact ⟨[], by simp [decoded], rfl⟩
    | cons b rest =>
      rw [decodeOnto] at decoded
      split at decoded
      next c more found =>
        obtain ⟨tail, rest', rfl, rfl, sequence⟩ := sequence_of_lead found
        rw [decodeOnto_skip] at decoded
        obtain ⟨ds, rfl, rfl⟩ := ih _ (by simp at size; omega) decoded rfl
        exact ⟨c :: ds, by simp, by rw [encode_cons, sequence.encode]; rfl⟩
      next => cases decoded
      next => cases decoded

theorem decode_eq_ok {bs : List UInt8} {cs : List Char} : decode bs = .ok cs ↔ bs = encode cs := by
  constructor
  · intro decoded
    obtain ⟨ds, rfl, rfl⟩ := decodeOnto_eq_ok decoded
    rfl
  · rintro rfl
    exact decodeOnto_encode [] 0 cs

theorem decode_encode (cs : List Char) : decode (encode cs) = .ok cs := decode_eq_ok.mpr rfl

theorem decode?_encode (cs : List Char) : decode? (encode cs) = some cs := by
  rw [decode?, decode_encode]
  rfl

theorem repairOnto_skip (acc : List Char) (tail rest : List UInt8) :
    repairOnto acc tail.length (tail ++ rest) = repairOnto acc 0 rest := by
  induction tail with
  | nil => rfl
  | cons b tail ih => rw [List.length_cons, List.cons_append, repairOnto, ih]

theorem repairOnto_encode (acc cs : List Char) :
    repairOnto acc 0 (encode cs) = acc.reverse ++ cs := by
  induction cs generalizing acc with
  | nil => simp [repairOnto]
  | cons c cs ih =>
    obtain ⟨a, tail, sequence⟩ := exists_sequence c
    rw [encode_cons, sequence.encode, List.cons_append, repairOnto, sequence.lead_eq]
    simp only [repairOnto_skip, ih]
    simp

/-- The bytes of a text need no replacement. -/
theorem repair_encode (cs : List Char) : repair (encode cs) = cs := repairOnto_encode [] cs

theorem encode_injective {cs ds : List Char} (same : encode cs = encode ds) : cs = ds := by
  have decoded := decode_encode cs
  rw [same, decode_encode] at decoded
  exact (Except.ok.inj decoded).symm

/-! ### ASCII -/

theorem encode_ascii {c : Char} (ascii : c.toNat < 0x80) (cs : List Char) :
    encode (c :: cs) = UInt8.ofNat c.toNat :: encode cs := by
  rw [encode_cons, encodeChar_ascii ascii]
  rfl

theorem encodeChar_high {c : Char} (high : 0x80 ≤ c.toNat) :
    ∀ b ∈ String.utf8EncodeChar c, 0x80 ≤ b.toNat := by
  obtain ⟨a, tail, sequence⟩ := exists_sequence c
  rw [sequence.encode]
  cases sequence with
  | one first =>
    rw [toNat_ofNat (by omega)] at high
    omega
  | two first second =>
    rw [isTail_iff] at second
    simp
    omega
  | three first second third =>
    rw [secondFits_iff] at second
    rw [isTail_iff] at third
    simp
    omega
  | four first second third fourth =>
    rw [secondFits_iff] at second
    rw [isTail_iff] at third fourth
    simp
    omega

theorem encode_eq_cons {cs : List Char} {b : UInt8} {rest : List UInt8} (ascii : b.toNat < 0x80)
    (front : encode cs = b :: rest) :
    ∃ cs', cs = Char.ofNat b.toNat :: cs' ∧ rest = encode cs' := by
  cases cs with
  | nil => cases front
  | cons c cs' =>
    by_cases high : 0x80 ≤ c.toNat
    · obtain ⟨a, tail, sequence⟩ := exists_sequence c
      have above := encodeChar_high high a (by rw [sequence.encode]; exact List.mem_cons_self)
      rw [encode_cons, sequence.encode] at front
      obtain ⟨rfl, -⟩ := List.cons.inj front
      omega
    · rw [encode_ascii (by omega)] at front
      obtain ⟨rfl, rfl⟩ := List.cons.inj front
      exact ⟨cs', by rw [toNat_byte (by omega), Char.ofNat_toNat], rfl⟩

end Postboard.Text.Utf8
