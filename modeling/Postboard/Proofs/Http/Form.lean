import Mathlib.Data.List.Forall2
import Postboard.Proofs.Text.Split
import Postboard.Proofs.Text.Utf8

/-! Forms: which names and values a query writes.

The pieces between ampersands are pairs, and the first equals sign of a piece stands between the
name and the value. `Unescapes` is the grammar of names and values, one constructor for each way to
write a byte. The reader of forms gives the pairs that are written, and no other.
-/

set_option autoImplicit false

namespace Postboard.Http

open Text

/-! ### Escapes -/

/-- A hexadecimal digit of either case and its value. -/
def HexByte (b : UInt8) (n : Nat) : Prop :=
  b.toNat = 0x30 + n ∧ n < 10 ∨ (b.toNat = 0x37 + n ∨ b.toNat = 0x57 + n) ∧ 10 ≤ n ∧ n < 16

theorem hexByte?_eq_some {b : UInt8} {n : Nat} : hexByte? b = some n ↔ HexByte b n := by
  have small := b.toNat_lt
  have number : (Char.ofNat b.toNat).toNat = b.toNat := Utf8.toNat_ofNat (by omega)
  simp only [hexByte?, hexValue?, number, HexByte, Bool.and_eq_true, decide_eq_true_eq]
  -- The cases are the ranges of digits; in each the value is settled by the byte.
  split
  · rw [Option.some.injEq]
    omega
  · split
    · rw [Option.some.injEq]
      omega
    · split
      · rw [Option.some.injEq]
        omega
      · simp only [reduceCtorEq, false_iff]
        omega

theorem hexByte?_space : hexByte? 0x20 = none := by decide

theorem hexByte?_plus : hexByte? 0x2B = none := by decide

/-- A name or value, as it is written and as it is meant. -/
inductive Unescapes : List UInt8 → List UInt8 → Prop where
  | nil : Unescapes [] []
  | space {bs ds : List UInt8} : Unescapes bs ds → Unescapes (0x2B :: bs) (0x20 :: ds)
  | escape {a b : UInt8} {high low : Nat} {bs ds : List UInt8} : HexByte a high → HexByte b low →
      Unescapes bs ds → Unescapes (0x25 :: a :: b :: bs) (UInt8.ofNat (high * 16 + low) :: ds)
  | percent {bs ds : List UInt8} :
      (∀ a b rest high low, bs = a :: b :: rest → HexByte a high → ¬ HexByte b low) →
      Unescapes bs ds → Unescapes (0x25 :: bs) (0x25 :: ds)
  | plain {b : UInt8} {bs ds : List UInt8} : b ≠ 0x2B → b ≠ 0x25 → Unescapes bs ds →
      Unescapes (b :: bs) (b :: ds)

/-- Bytes with spaces for plus signs. -/
def spaced (bs : List UInt8) : List UInt8 := bs.map fun b => if b = 0x2B then 0x20 else b

theorem percentDecodeOnto_eq (acc : List UInt8) (skip : Nat) (bs : List UInt8) :
    percentDecodeOnto acc skip bs = acc.reverse ++ percentDecode (bs.drop skip) := by
  induction bs generalizing acc skip with
  | nil => simp [percentDecodeOnto, percentDecode]
  | cons b rest ih =>
    cases skip with
    | succ skip => rw [percentDecodeOnto, ih, List.drop_succ_cons]
    | zero =>
      rw [List.drop_zero, percentDecode, percentDecodeOnto, percentDecodeOnto]
      split
      · split <;> simp [ih]
      · simp [ih]

theorem percentDecode_escape {rest : List UInt8} {d : UInt8} (escape : escapedByte? rest = some d) :
    percentDecode (0x25 :: rest) = d :: percentDecode (rest.drop 2) := by
  rw [percentDecode, percentDecodeOnto, if_pos rfl, escape]
  exact percentDecodeOnto_eq [d] 2 rest

theorem percentDecode_stays {b : UInt8} {rest : List UInt8}
    (none : b = 0x25 → escapedByte? rest = none) :
    percentDecode (b :: rest) = b :: percentDecode rest := by
  rw [percentDecode, percentDecodeOnto]
  split
  next same =>
    rw [none same]
    exact percentDecodeOnto_eq [b] 0 rest
  next => exact percentDecodeOnto_eq [b] 0 rest

theorem escapedByte?_eq_some {bs : List UInt8} {d : UInt8} : escapedByte? bs = some d ↔
    ∃ a b rest high low, bs = a :: b :: rest ∧ HexByte a high ∧ HexByte b low ∧
      d = UInt8.ofNat (high * 16 + low) := by
  constructor
  · intro escape
    unfold escapedByte? at escape
    split at escape
    next a b rest =>
      split at escape
      next high low first second =>
        cases escape
        exact ⟨a, b, rest, high, low, rfl, hexByte?_eq_some.mp first, hexByte?_eq_some.mp second, rfl⟩
      next => cases escape
    next => cases escape
  · rintro ⟨a, b, rest, high, low, rfl, first, second, rfl⟩
    simp only [escapedByte?, hexByte?_eq_some.mpr first, hexByte?_eq_some.mpr second]

theorem hexByte?_spaced (b : UInt8) : hexByte? (if b = 0x2B then 0x20 else b) = hexByte? b := by
  split
  next plus => rw [plus, hexByte?_space, hexByte?_plus]
  next => rfl

theorem escapedByte?_spaced (bs : List UInt8) : escapedByte? (spaced bs) = escapedByte? bs := by
  rcases bs with - | ⟨a, - | ⟨b, rest⟩⟩
  · rfl
  · rfl
  · simp only [spaced, List.map_cons, escapedByte?, hexByte?_spaced]

theorem Unescapes.decoded {bs ds : List UInt8} (written : Unescapes bs ds) :
    percentDecode (spaced bs) = ds := by
  induction written with
  | nil => rfl
  | @space bs ds later ih =>
    have front : spaced (0x2B :: bs) = 0x20 :: spaced bs := rfl
    rw [front, percentDecode_stays (fun same => by cases same), ih]
  | @escape a b high low bs ds first second later ih =>
    have escape : escapedByte? (spaced (a :: b :: bs)) = some (UInt8.ofNat (high * 16 + low)) :=
      (escapedByte?_spaced _).trans
        (escapedByte?_eq_some.mpr ⟨a, b, bs, high, low, rfl, first, second, rfl⟩)
    have front : spaced (0x25 :: a :: b :: bs) = 0x25 :: spaced (a :: b :: bs) := rfl
    rw [front, percentDecode_escape escape]
    exact congrArg _ ih
  | @percent bs ds alone later ih =>
    have none : escapedByte? (spaced bs) = none := by
      rw [escapedByte?_spaced, Option.eq_none_iff_forall_not_mem]
      intro d escape
      obtain ⟨a, b, rest, high, low, shape, first, second, -⟩ := escapedByte?_eq_some.mp escape
      exact alone a b rest high low shape first second
    have front : spaced (0x25 :: bs) = 0x25 :: spaced bs := rfl
    rw [front, percentDecode_stays (fun _ => none), ih]
  | @plain b bs ds noPlus noPercent later ih =>
    have front : spaced (b :: bs) = b :: spaced bs := by simp [spaced, noPlus]
    rw [front, percentDecode_stays (fun same => absurd same noPercent), ih]

theorem exists_unescapes (bs : List UInt8) : ∃ ds, Unescapes bs ds := by
  -- An escape takes three bytes at once, so the induction is on the length.
  induction length : bs.length using Nat.strong_induction_on generalizing bs with
  | _ n ih =>
    have shorter (rest : List UInt8) (less : rest.length < n) : ∃ ds, Unescapes rest ds :=
      ih rest.length less rest rfl
    rcases bs with - | ⟨b, rest⟩
    · exact ⟨[], .nil⟩
    rw [List.length_cons] at length
    obtain ⟨ds, later⟩ := shorter rest (by omega)
    by_cases plus : b = 0x2B
    · subst plus
      exact ⟨_, .space later⟩
    by_cases percent : b = 0x25
    · subst percent
      cases escape : escapedByte? rest with
      | none =>
        refine ⟨_, .percent ?_ later⟩
        intro a b back high low shape first second
        have some := escapedByte?_eq_some.mpr ⟨a, b, back, high, low, shape, first, second, rfl⟩
        rw [escape] at some
        cases some
      | some d =>
        obtain ⟨a, b, back, high, low, rfl, first, second, -⟩ := escapedByte?_eq_some.mp escape
        obtain ⟨ds, later⟩ := shorter back (by simp only [List.length_cons] at length; omega)
        exact ⟨_, .escape first second later⟩
    · exact ⟨_, .plain plus percent later⟩

/-- The bytes that write a text. They stand for the bytes of the text; where they stand for none,
replacements make a text of them. -/
def WrittenAs (bs : List UInt8) (text : String) : Prop :=
  ∃ ds, Unescapes bs ds ∧ (ds = Utf8.bytes text ∨
    (∀ other, ds ≠ Utf8.bytes other) ∧ text = String.ofList (Utf8.repair ds))

theorem repair_bytes (text : String) : String.ofList (Utf8.repair (Utf8.bytes text)) = text := by
  rw [Utf8.bytes, Utf8.repair_encode, String.ofList_toList]

theorem writtenAs_iff {bs : List UInt8} {text : String} : WrittenAs bs text ↔ formText bs = text := by
  constructor
  · rintro ⟨ds, written, meant⟩
    have whole : formText bs = String.ofList (Utf8.repair ds) :=
      congrArg (fun ds => String.ofList (Utf8.repair ds)) written.decoded
    rcases meant with rfl | ⟨-, rfl⟩
    · rw [whole, repair_bytes]
    · exact whole
  · rintro rfl
    obtain ⟨ds, written⟩ := exists_unescapes bs
    have whole : formText bs = String.ofList (Utf8.repair ds) :=
      congrArg (fun ds => String.ofList (Utf8.repair ds)) written.decoded
    by_cases proper : ∃ text, ds = Utf8.bytes text
    · obtain ⟨text, rfl⟩ := proper
      exact ⟨_, written, .inl (by rw [whole, repair_bytes])⟩
    · exact ⟨ds, written, .inr ⟨not_exists.mp proper, whole⟩⟩

/-! ### Pairs -/

/-- A piece of a query that writes a name and a value. -/
inductive WritesPair : List UInt8 → String × String → Prop where
  | named {front back : List UInt8} {name value : String} : 0x3D ∉ front → WrittenAs front name →
      WrittenAs back value → WritesPair (front ++ 0x3D :: back) (name, value)
  | bare {front : List UInt8} {name : String} : 0x3D ∉ front → WrittenAs front name →
      WritesPair front (name, "")

theorem formPair_named {front : List UInt8} (free : 0x3D ∉ front) (back : List UInt8) :
    formPair (front ++ 0x3D :: back) = (formText front, formText back) := by
  have kept : ∀ b ∈ front, decide (b ≠ 0x3D) = true := fun b member =>
    decide_eq_true fun same => free (same ▸ member)
  have before : (front ++ 0x3D :: back).takeWhile (· ≠ 0x3D) = front := by
    rw [List.takeWhile_append_of_pos kept]
    simp
  have after : (front ++ 0x3D :: back).drop (front.length + 1) = back := by
    rw [List.drop_append]
    simp
  simp only [formPair, before, after]

theorem formPair_bare {front : List UInt8} (free : 0x3D ∉ front) :
    formPair front = (formText front, "") := by
  have whole : front.takeWhile (· ≠ 0x3D) = front := by
    rw [List.takeWhile_eq_self_iff]
    exact fun b member => decide_eq_true fun same => free (same ▸ member)
  have nothing : front.drop (front.length + 1) = [] := by simp
  simp only [formPair, whole, nothing]
  rfl

theorem writesPair_iff {bs : List UInt8} {p : String × String} :
    WritesPair bs p ↔ formPair bs = p := by
  constructor
  · rintro (⟨free, name, value⟩ | ⟨free, name⟩)
    · rw [formPair_named free, writtenAs_iff.mp name, writtenAs_iff.mp value]
    · rw [formPair_bare free, writtenAs_iff.mp name]
  · rintro rfl
    by_cases equals : 0x3D ∈ bs
    · obtain ⟨front, back, rfl, free⟩ := List.eq_append_cons_of_mem equals
      rw [formPair_named free]
      exact .named free (writtenAs_iff.mpr rfl) (writtenAs_iff.mpr rfl)
    · rw [formPair_bare equals]
      exact .bare equals (writtenAs_iff.mpr rfl)

/-- A query that writes some pairs. Empty pieces write none. -/
def WritesPairs (query : List UInt8) (pairs : List (String × String)) : Prop :=
  ∃ pieces, pieces ≠ [] ∧ (∀ p ∈ pieces, 0x26 ∉ p) ∧ query = [0x26].intercalate pieces ∧
    List.Forall₂ WritesPair (pieces.filter (· ≠ [])) pairs

theorem forall₂_writesPair {pieces : List (List UInt8)} {pairs : List (String × String)} :
    List.Forall₂ WritesPair pieces pairs ↔ pieces.map formPair = pairs := by
  have same : WritesPair = fun bs p => formPair bs = p := by
    funext bs p
    exact propext writesPair_iff
  rw [same, ← List.forall₂_eq_eq_eq, List.forall₂_map_left_iff]

theorem writesPairs_iff {query : List UInt8} {pairs : List (String × String)} :
    WritesPairs query pairs ↔ formPairs query = pairs := by
  simp only [WritesPairs, forall₂_writesPair, formPairs, splitBytes_eq_splitOn]
  constructor
  · rintro ⟨pieces, some, free, whole, rfl⟩
    rw [(splitOn_eq_iff some).mpr ⟨free, whole⟩]
  · rintro rfl
    obtain ⟨free, whole⟩ := (splitOn_eq_iff (List.splitOn_ne_nil 0x26 query)).mp rfl
    exact ⟨_, List.splitOn_ne_nil 0x26 query, free, whole, rfl⟩

/-! ### What needs no escaping -/

/-- A character that stands for itself in a form. -/
def Clear (c : Char) : Prop := c.toNat < 0x80 ∧ c ∉ ['%', '+', '&', '=']

theorem Clear.byte_ne {c d : Char} (clear : Clear c) (small : d.toNat < 0x80)
    (other : d ∈ ['%', '+', '&', '=']) : UInt8.ofNat c.toNat ≠ UInt8.ofNat d.toNat := by
  intro same
  have number := congrArg UInt8.toNat same
  rw [Utf8.toNat_byte clear.1, Utf8.toNat_byte small] at number
  exact clear.2 (Char.toNat_inj.mp number ▸ other)

theorem mem_encode_clear {cs : List Char} (clear : ∀ c ∈ cs, Clear c) {b : UInt8}
    (member : b ∈ Utf8.encode cs) : b ≠ 0x25 ∧ b ≠ 0x2B ∧ b ≠ 0x26 ∧ b ≠ 0x3D := by
  induction cs with
  | nil => cases member
  | cons c cs ih =>
    rw [List.forall_mem_cons] at clear
    obtain ⟨here, later⟩ := clear
    rw [Utf8.encode_ascii here.1] at member
    rcases List.mem_cons.mp member with rfl | member
    · exact ⟨here.byte_ne (d := '%') (by decide) (by decide),
        here.byte_ne (d := '+') (by decide) (by decide),
        here.byte_ne (d := '&') (by decide) (by decide),
        here.byte_ne (d := '=') (by decide) (by decide)⟩
    · exact ih later member

theorem unescapes_self {bs : List UInt8} (plain : ∀ b ∈ bs, b ≠ 0x2B ∧ b ≠ 0x25) :
    Unescapes bs bs := by
  induction bs with
  | nil => exact .nil
  | cons b bs ih =>
    rw [List.forall_mem_cons] at plain
    exact .plain plain.1.1 plain.1.2 (ih plain.2)

theorem writtenAs_clear {cs : List Char} (clear : ∀ c ∈ cs, Clear c) :
    WrittenAs (Utf8.encode cs) (String.ofList cs) := by
  refine ⟨_, unescapes_self fun b member => ?_, .inl (by rw [Utf8.bytes, String.toList_ofList])⟩
  have bytes := mem_encode_clear clear member
  exact ⟨bytes.2.1, bytes.1⟩

/-- A query of one name and value writes that pair. -/
theorem writesPairs_clear {name value : List Char} (names : ∀ c ∈ name, Clear c)
    (values : ∀ c ∈ value, Clear c) :
    WritesPairs (Utf8.encode (name ++ '=' :: value))
      [(String.ofList name, String.ofList value)] := by
  have bytes : Utf8.encode (name ++ '=' :: value) =
      Utf8.encode name ++ 0x3D :: Utf8.encode value := by
    rw [Utf8.encode_append, Utf8.encode_ascii (by decide)]
    rfl
  have noEquals : 0x3D ∉ Utf8.encode name := fun member =>
    (mem_encode_clear names member).2.2.2 rfl
  have noAmpersand : 0x26 ∉ Utf8.encode name ++ 0x3D :: Utf8.encode value := by
    intro member
    rcases List.mem_append.mp member with inName | inValue
    · exact (mem_encode_clear names inName).2.2.1 rfl
    rcases List.mem_cons.mp inValue with equals | inValue
    · cases equals
    · exact (mem_encode_clear values inValue).2.2.1 rfl
  have pair : WritesPair (Utf8.encode name ++ 0x3D :: Utf8.encode value)
      (String.ofList name, String.ofList value) :=
    .named noEquals (writtenAs_clear names) (writtenAs_clear values)
  rw [bytes]
  refine ⟨[_], by simp, ?_, List.intercalate_singleton.symm, ?_⟩
  · simpa using noAmpersand
  · simpa using pair

end Postboard.Http
