import Postboard.Json.Parser
import Postboard.Proofs.Text.Utf8

/-! JSON strings: what may stand between the quotes, and what it means.

`Spelled` is the grammar, one constructor for each way to write a character. The reader of strings
accepts exactly the spelled texts up to the first quote that no backslash stands before, and gives
what they spell.
-/

set_option autoImplicit false

namespace Postboard.Json

open Text

def letters : List (Char × Char) :=
  [('"', '"'), ('\\', '\\'), ('/', '/'), ('b', '\x08'), ('f', '\x0c'), ('n', '\n'), ('r', '\r'),
    ('t', '\t')]

inductive Hex4 : List Char → Nat → Prop where
  | digits {a b c d : Char} {i j k l : Nat} : hexValue? a = some i → hexValue? b = some j →
      hexValue? c = some k → hexValue? d = some l →
      Hex4 [a, b, c, d] (((i * 16 + j) * 16 + k) * 16 + l)

inductive Spelling : List Char → Char → Prop where
  | plain {c : Char} : c ≠ '"' → c ≠ '\\' → 0x20 ≤ c.toNat → Spelling [c] c
  | letter {l c : Char} : (l, c) ∈ letters → Spelling ['\\', l] c
  | code {ds : List Char} {n : Nat} : Hex4 ds n → n < 0xD800 ∨ 0xDFFF < n →
      Spelling ('\\' :: 'u' :: ds) (Char.ofNat n)
  | pair {ds es : List Char} {high low : Nat} : Hex4 ds high → 0xD800 ≤ high ∧ high ≤ 0xDBFF →
      Hex4 es low → 0xDC00 ≤ low ∧ low ≤ 0xDFFF →
      Spelling ('\\' :: 'u' :: (ds ++ '\\' :: 'u' :: es))
        (Char.ofNat (0x10000 + (high - 0xD800) * 1024 + (low - 0xDC00)))

inductive Spelled : List Char → List Char → Prop where
  | nil : Spelled [] []
  | cons {unit inner : List Char} {c : Char} {cs : List Char} : Spelling unit c →
      Spelled inner cs → Spelled (unit ++ inner) (c :: cs)

/-- A whole JSON string: one pair of quotes around a spelled text. -/
def Literal (text : List Char) (s : String) : Prop :=
  ∃ inner, text = '"' :: inner ++ ['"'] ∧ Spelled inner s.toList

namespace Parser

/-! ### Hexadecimal digits -/

theorem hexValue?_bounds {c : Char} {n : Nat} (digit : Text.hexValue? c = some n) :
    c.toNat < 0x80 ∧ n < 16 := by
  unfold Text.hexValue? at digit
  grind

theorem ofNat_toNat_ascii {c : Char} (ascii : c.toNat < 0x80) :
    Char.ofNat (UInt8.ofNat c.toNat).toNat = c := by
  rw [Utf8.toNat_byte ascii, Char.ofNat_toNat]

theorem encode_hex4 {ds : List Char} {n : Nat} (hex : Hex4 ds n) (rest : List UInt8) :
    (Utf8.encode ds).length = 4 ∧ hex4 (Utf8.encode ds ++ rest) = .ok n := by
  cases hex with
  | @digits a b c d i j k l first second third fourth =>
    have ha := (hexValue?_bounds first).1
    have hb := (hexValue?_bounds second).1
    have hc := (hexValue?_bounds third).1
    have hd := (hexValue?_bounds fourth).1
    simp only [Utf8.encode_ascii ha, Utf8.encode_ascii hb, Utf8.encode_ascii hc,
      Utf8.encode_ascii hd, Utf8.encode_nil]
    refine ⟨rfl, ?_⟩
    simp only [List.cons_append, List.nil_append, hex4, hexValue?, ofNat_toNat_ascii ha,
      ofNat_toNat_ascii hb, ofNat_toNat_ascii hc, ofNat_toNat_ascii hd, first, second, third,
      fourth]

/-- A byte that is a hexadecimal digit is an ASCII character in front of a text. -/
theorem hexValue?_encode {text : List Char} {b : UInt8} {rest : List UInt8} {n : Nat}
    (front : Utf8.encode text = b :: rest) (digit : hexValue? b = some n) :
    ∃ c text', text = c :: text' ∧ rest = Utf8.encode text' ∧ Text.hexValue? c = some n := by
  have size := b.toNat_lt
  have code : (Char.ofNat b.toNat).toNat = b.toNat := Utf8.toNat_ofNat (by omega)
  have ascii := (hexValue?_bounds digit).1
  rw [code] at ascii
  obtain ⟨text', rfl, rfl⟩ := Utf8.encode_eq_cons ascii front
  exact ⟨_, text', rfl, rfl, digit⟩

theorem hex4_eq_ok {text : List Char} {n : Nat} (read : hex4 (Utf8.encode text) = .ok n) :
    ∃ ds text', text = ds ++ text' ∧ Hex4 ds n := by
  unfold hex4 at read
  split at read
  next a b c d rest front =>
    split at read
    next i j k l first second third fourth =>
      obtain ⟨a, text, rfl, front, first⟩ := hexValue?_encode front first
      obtain ⟨b, text, rfl, front, second⟩ := hexValue?_encode front.symm second
      obtain ⟨c, text, rfl, front, third⟩ := hexValue?_encode front.symm third
      obtain ⟨d, text, rfl, front, fourth⟩ := hexValue?_encode front.symm fourth
      cases read
      exact ⟨[a, b, c, d], text, rfl, .digits first second third fourth⟩
    next => cases read
  next => cases read

/-! ### Spelled characters -/

theorem letterEscape?_eq_some {b : UInt8} {c : Char} (letter : letterEscape? b = some c) :
    b.toNat < 0x80 ∧ (Char.ofNat b.toNat, c) ∈ letters := by
  unfold letterEscape? at letter
  repeat'
    split at letter
    next same =>
      subst same
      obtain rfl := Option.some.inj letter
      exact ⟨by decide, by decide⟩
  cases letter

theorem letterEscape?_letter {l c : Char} (letter : (l, c) ∈ letters) :
    l.toNat < 0x80 ∧ letterEscape? (UInt8.ofNat l.toNat) = some c := by
  simp only [letters, List.mem_cons, Prod.mk.injEq, List.not_mem_nil, or_false] at letter
  rcases letter with ⟨rfl, rfl⟩ | ⟨rfl, rfl⟩ | ⟨rfl, rfl⟩ | ⟨rfl, rfl⟩ | ⟨rfl, rfl⟩ | ⟨rfl, rfl⟩ |
    ⟨rfl, rfl⟩ | ⟨rfl, rfl⟩
  all_goals exact ⟨by decide, by decide⟩

theorem stringOnto_skip (acc : List UInt8) (seen rest : List UInt8) :
    stringOnto acc seen.length (seen ++ rest) = stringOnto acc 0 rest := by
  induction seen with
  | nil => rfl
  | cons b seen ih => rw [List.length_cons, List.cons_append, stringOnto, ih]

theorem stringOnto_plain {bs : List UInt8}
    (plain : ∀ b ∈ bs, b ≠ 0x22 ∧ b ≠ 0x5C ∧ ¬ b < 0x20) (acc rest : List UInt8) :
    stringOnto acc 0 (bs ++ rest) = stringOnto (bs.reverse ++ acc) 0 rest := by
  induction bs generalizing acc with
  | nil => rfl
  | cons b bs ih =>
    obtain ⟨noQuote, noBackslash, noControl⟩ := plain b List.mem_cons_self
    rw [List.cons_append, stringOnto, if_neg noQuote, if_neg noBackslash, if_neg noControl,
      ih fun b' member => plain b' (List.mem_cons_of_mem _ member)]
    simp

theorem plain_encodeChar {c : Char} (noQuote : c ≠ '"') (noBackslash : c ≠ '\\')
    (noControl : 0x20 ≤ c.toNat) :
    ∀ b ∈ String.utf8EncodeChar c, b ≠ 0x22 ∧ b ≠ 0x5C ∧ ¬ b < 0x20 := by
  intro b member
  by_cases high : 0x80 ≤ c.toNat
  · have above := Utf8.encodeChar_high high b member
    refine ⟨?_, ?_, ?_⟩
    · rintro rfl
      exact absurd above (by decide)
    · rintro rfl
      exact absurd above (by decide)
    · rw [UInt8.lt_iff_toNat_lt]
      exact Nat.not_lt.mpr (Nat.le_trans (by decide) above)
  · have ascii : c.toNat < 128 := by omega
    rw [Utf8.encodeChar_ascii ascii, List.mem_singleton] at member
    have code : b.toNat = c.toNat := by
      rw [member]
      exact Utf8.toNat_byte ascii
    have other : ∀ d : Char, c ≠ d → b.toNat ≠ d.toNat := fun d different same =>
      different (Char.toNat_inj.mp (code.symm.trans same))
    refine ⟨fun same => other '"' noQuote (congrArg UInt8.toNat same),
      fun same => other '\\' noBackslash (congrArg UInt8.toNat same), ?_⟩
    rw [UInt8.lt_iff_toNat_lt, code]
    exact Nat.not_lt.mpr noControl

/-! ### Escapes -/

theorem encode_u (ds : List Char) : Utf8.encode ('u' :: ds) = 0x75 :: Utf8.encode ds :=
  Utf8.encode_ascii (by decide) ds

theorem encode_backslash (cs : List Char) : Utf8.encode ('\\' :: cs) = 0x5C :: Utf8.encode cs :=
  Utf8.encode_ascii (by decide) cs

theorem escaped_u (rest : List UInt8) :
    escaped (0x75 :: rest) = (unicode rest).map fun r => (r.1, r.2 + 1) := by
  have noLetter : letterEscape? 0x75 = none := by decide
  simp only [escaped, noLetter, if_true]
  cases unicode rest <;> rfl

theorem unicode_code {ds : List Char} {n : Nat} (hex : Hex4 ds n)
    (whole : n < 0xD800 ∨ 0xDFFF < n) (rest : List UInt8) :
    unicode (Utf8.encode ds ++ rest) = .ok (Char.ofNat n, 4) := by
  have notLow : ¬ (0xDC00 ≤ n ∧ n ≤ 0xDFFF) := by omega
  have notHigh : ¬ (0xD800 ≤ n ∧ n ≤ 0xDBFF) := by omega
  simp [unicode, (encode_hex4 hex rest).2, bind, Except.bind, notLow, notHigh]

theorem unicode_pair {ds es : List Char} {high low : Nat} (first : Hex4 ds high)
    (isHigh : 0xD800 ≤ high ∧ high ≤ 0xDBFF) (second : Hex4 es low)
    (isLow : 0xDC00 ≤ low ∧ low ≤ 0xDFFF) (rest : List UInt8) :
    unicode (Utf8.encode ds ++ 0x5C :: 0x75 :: (Utf8.encode es ++ rest)) =
      .ok (Char.ofNat (0x10000 + (high - 0xD800) * 1024 + (low - 0xDC00)), 10) := by
  have notLow : ¬ (0xDC00 ≤ high ∧ high ≤ 0xDFFF) := by omega
  obtain ⟨size, read⟩ := encode_hex4 first (0x5C :: 0x75 :: (Utf8.encode es ++ rest))
  have four : (Utf8.encode ds ++ 0x5C :: 0x75 :: (Utf8.encode es ++ rest)).drop 4 =
      0x5C :: 0x75 :: (Utf8.encode es ++ rest) := by
    rw [← size, List.drop_left]
  simp [unicode, read, bind, Except.bind, notLow, isHigh, isLow, four, pair,
    (encode_hex4 second rest).2]

theorem escaped_spelling {unit : List Char} {c : Char} (spelling : Spelling ('\\' :: unit) c)
    (rest : List UInt8) :
    escaped (Utf8.encode unit ++ rest) = .ok (c, (Utf8.encode unit).length) := by
  generalize whole : '\\' :: unit = text at spelling
  cases spelling with
  | plain _ noBackslash =>
    obtain ⟨rfl, -⟩ := List.cons.inj whole
    exact absurd rfl noBackslash
  | letter letter =>
    obtain ⟨-, rfl⟩ := List.cons.inj whole
    obtain ⟨ascii, escape⟩ := letterEscape?_letter letter
    simp [Utf8.encode_ascii ascii, escaped, escape]
  | @code ds n hex isWhole =>
    obtain ⟨-, rfl⟩ := List.cons.inj whole
    rw [encode_u, List.cons_append, escaped_u, unicode_code hex isWhole]
    simp [Except.map, (encode_hex4 hex rest).1]
  | @pair ds es high low first isHigh second isLow =>
    obtain ⟨-, rfl⟩ := List.cons.inj whole
    have size := (encode_hex4 first []).1
    have size' := (encode_hex4 second []).1
    rw [encode_u, Utf8.encode_append, encode_backslash, encode_u, List.cons_append, escaped_u,
      List.append_assoc, List.cons_append, List.cons_append, unicode_pair first isHigh second isLow]
    simp [Except.map, size, size']

theorem pair_eq_ok {high n : Nat} {text : List Char} (read : pair high (Utf8.encode text) = .ok n) :
    ∃ es text' low, text = '\\' :: 'u' :: es ++ text' ∧ Hex4 es low ∧
      (0xDC00 ≤ low ∧ low ≤ 0xDFFF) ∧ n = 0x10000 + (high - 0xD800) * 1024 + (low - 0xDC00) := by
  unfold pair at read
  split at read
  next => cases read
  next a rest front =>
    split at read
    next => cases read
    next backslash =>
      obtain rfl : a = 0x5C := Decidable.not_not.mp backslash
      obtain ⟨text, rfl, rfl⟩ := Utf8.encode_eq_cons (by decide) front
      split at read
      next => cases read
      next b rest front =>
        split at read
        next => cases read
        next u =>
          obtain rfl : b = 0x75 := Decidable.not_not.mp u
          obtain ⟨text, rfl, rfl⟩ := Utf8.encode_eq_cons (by decide) front
          cases second : hex4 (Utf8.encode text) with
          | error e => simp [second, bind, Except.bind] at read
          | ok low =>
            obtain ⟨es, text, rfl, hex⟩ := hex4_eq_ok second
            simp only [second, bind, Except.bind, Bool.and_eq_true, decide_eq_true_eq] at read
            split at read
            next isLow => exact ⟨es, text, low, rfl, hex, isLow, (Except.ok.inj read).symm⟩
            next => cases read

theorem unicode_eq_ok {text : List Char} {c : Char} {n : Nat}
    (read : unicode (Utf8.encode text) = .ok (c, n)) :
    ∃ unit text', text = unit ++ text' ∧ Spelling ('\\' :: 'u' :: unit) c := by
  unfold unicode at read
  cases first : hex4 (Utf8.encode text) with
  | error e => simp [first, bind, Except.bind] at read
  | ok high =>
    obtain ⟨ds, text, rfl, hex⟩ := hex4_eq_ok first
    have four : (Utf8.encode (ds ++ text)).drop 4 = Utf8.encode text := by
      rw [Utf8.encode_append, ← (encode_hex4 hex []).1, List.drop_left]
    simp only [first, four, bind, Except.bind, Bool.and_eq_true, decide_eq_true_eq] at read
    split at read
    next => cases read
    next notLow =>
      split at read
      next isHigh =>
        cases second : pair high (Utf8.encode text) with
        | error e => simp [second] at read
        | ok p =>
          obtain ⟨es, text, low, rfl, hex', isLow, code⟩ := pair_eq_ok second
          simp only [second, Except.ok.injEq, Prod.mk.injEq] at read
          obtain ⟨rfl, -⟩ := read
          rw [code]
          exact ⟨ds ++ '\\' :: 'u' :: es, text, by simp, .pair hex isHigh hex' isLow⟩
      next notHigh =>
        simp only [Except.ok.injEq, Prod.mk.injEq] at read
        obtain ⟨rfl, -⟩ := read
        exact ⟨ds, text, rfl, .code hex (by omega)⟩

theorem escaped_eq_ok {text : List Char} {c : Char} {n : Nat}
    (read : escaped (Utf8.encode text) = .ok (c, n)) :
    ∃ unit text', text = unit ++ text' ∧ Spelling ('\\' :: unit) c := by
  unfold escaped at read
  split at read
  next => cases read
  next b rest front =>
    split at read
    next d letter =>
      obtain ⟨rfl, -⟩ := Prod.mk.inj (Except.ok.inj read)
      obtain ⟨ascii, listed⟩ := letterEscape?_eq_some letter
      obtain ⟨text', rfl, -⟩ := Utf8.encode_eq_cons ascii front
      exact ⟨[_], text', rfl, .letter listed⟩
    next =>
      split at read
      next u =>
        subst u
        obtain ⟨text, rfl, rfl⟩ := Utf8.encode_eq_cons (by decide) front
        cases code : unicode (Utf8.encode text) with
        | error e => simp [code, bind, Except.bind] at read
        | ok r =>
          obtain ⟨d, m⟩ := r
          obtain ⟨unit, text', rfl, spelling⟩ := unicode_eq_ok code
          simp only [code, bind, Except.bind, Except.ok.injEq, Prod.mk.injEq] at read
          obtain ⟨rfl, -⟩ := read
          exact ⟨'u' :: unit, text', rfl, spelling⟩
      next => cases read

/-! ### Strings -/

theorem stringOnto_spelling {unit : List Char} {c : Char} (spelling : Spelling unit c)
    (acc rest : List UInt8) :
    stringOnto acc 0 (Utf8.encode unit ++ rest) =
      stringOnto ((String.utf8EncodeChar c).reverse ++ acc) 0 rest := by
  have escape : ∀ after, unit = '\\' :: after → stringOnto acc 0 (Utf8.encode unit ++ rest) =
      stringOnto ((String.utf8EncodeChar c).reverse ++ acc) 0 rest := by
    rintro after rfl
    have read := escaped_spelling spelling rest
    simp only [encode_backslash, List.cons_append, stringOnto, read]
    exact stringOnto_skip _ _ _
  cases spelling with
  | plain noQuote noBackslash noControl =>
    rw [Utf8.encode_cons, Utf8.encode_nil, List.append_nil]
    exact stringOnto_plain (plain_encodeChar noQuote noBackslash noControl) acc rest
  | letter _ => exact escape _ rfl
  | code _ _ => exact escape _ rfl
  | pair _ _ _ _ => exact escape _ rfl

theorem stringOnto_spelled {inner cs : List Char} (spelled : Spelled inner cs)
    (acc rest : List UInt8) :
    stringOnto acc 0 (Utf8.encode inner ++ 0x22 :: rest) =
      .ok (acc.reverse ++ Utf8.encode cs, rest) := by
  induction spelled generalizing acc with
  | nil => simp [stringOnto]
  | @cons unit inner c cs spelling _ ih =>
    rw [Utf8.encode_append, List.append_assoc, stringOnto_spelling spelling, ih, Utf8.encode_cons]
    simp

theorem stringOnto_eq_ok {text : List Char} {acc bytes rest : List UInt8}
    (read : stringOnto acc 0 (Utf8.encode text) = .ok (bytes, rest)) :
    ∃ inner cs text', text = inner ++ '"' :: text' ∧ Spelled inner cs ∧
      bytes = acc.reverse ++ Utf8.encode cs ∧ rest = Utf8.encode text' := by
  -- One character is read from several of the text, so the induction is on the length.
  induction size : text.length using Nat.strongRecOn generalizing text acc with
  | ind n ih =>
    -- Whatever spells one character leaves a shorter text.
    have more : ∀ unit text' c, text = unit ++ text' → unit ≠ [] → Spelling unit c →
        ∃ inner cs text', text = inner ++ '"' :: text' ∧ Spelled inner cs ∧
          bytes = acc.reverse ++ Utf8.encode cs ∧ rest = Utf8.encode text' := by
      rintro unit text' c rfl nonempty spelling
      have pos := List.length_pos_iff.mpr nonempty
      rw [Utf8.encode_append, stringOnto_spelling spelling] at read
      obtain ⟨inner, cs, text'', rfl, spelled, rfl, rfl⟩ :=
        ih text'.length (by rw [List.length_append] at size; omega) read rfl
      refine ⟨unit ++ inner, c :: cs, text'', by simp, .cons spelling spelled, ?_, rfl⟩
      rw [Utf8.encode_cons]
      simp
    cases text with
    | nil => cases read
    | cons c text =>
      by_cases quote : c = '"'
      · subst quote
        rw [Utf8.encode_ascii (by decide)] at read
        obtain ⟨rfl, rfl⟩ := Prod.mk.inj (Except.ok.inj read)
        exact ⟨[], [], text, rfl, .nil, by simp, rfl⟩
      by_cases backslash : c = '\\'
      · subst backslash
        have read' := read
        simp only [encode_backslash, stringOnto] at read'
        cases escape : escaped (Utf8.encode text) with
        | error e => simp [escape] at read'
        | ok r =>
          obtain ⟨unit, text', rfl, spelling⟩ := escaped_eq_ok escape
          exact more _ text' r.1 rfl (List.cons_ne_nil _ _) spelling
      by_cases control : c.toNat < 0x20
      · have low : UInt8.ofNat c.toNat < 0x20 := by
          rw [UInt8.lt_iff_toNat_lt, Utf8.toNat_byte (by omega)]
          exact control
        have noQuote : UInt8.ofNat c.toNat ≠ 0x22 := fun same =>
          absurd (same ▸ low) (by decide)
        have noBackslash : UInt8.ofNat c.toNat ≠ 0x5C := fun same =>
          absurd (same ▸ low) (by decide)
        rw [Utf8.encode_ascii (by omega), stringOnto, if_neg noQuote, if_neg noBackslash,
          if_pos low] at read
        cases read
      · exact more [c] text c rfl (List.cons_ne_nil _ _) (.plain quote backslash (by omega))

theorem string_spelled {inner cs : List Char} (spelled : Spelled inner cs) (rest : List UInt8) :
    string (Utf8.encode inner ++ 0x22 :: rest) = .ok (String.ofList cs, rest) := by
  simp [string, stringOnto_spelled spelled, Utf8.decode?_encode, bind, Except.bind]

/-- Reading a string after its opening quote takes a spelled text and the closing quote. -/
theorem string_eq_ok {text : List Char} {s : String} {rest : List UInt8} :
    string (Utf8.encode text) = .ok (s, rest) ↔
      ∃ inner text', text = inner ++ '"' :: text' ∧ Spelled inner s.toList ∧
        rest = Utf8.encode text' := by
  constructor
  · intro read
    unfold string at read
    cases bytes : stringOnto [] 0 (Utf8.encode text) with
    | error e => simp [bytes, bind, Except.bind] at read
    | ok r =>
      obtain ⟨inner, cs, text', rfl, spelled, front, left⟩ := stringOnto_eq_ok bytes
      have whole : r = (Utf8.encode cs, Utf8.encode text') := Prod.ext front left
      simp only [bytes, whole, bind, Except.bind, Utf8.decode?_encode, Except.ok.injEq,
        Prod.mk.injEq] at read
      obtain ⟨rfl, rfl⟩ := read
      exact ⟨inner, text', rfl, by rwa [String.toList_ofList], rfl⟩
  · rintro ⟨inner, text', rfl, spelled, rfl⟩
    rw [Utf8.encode_append, Utf8.encode_ascii (by decide)]
    exact (string_spelled spelled _).trans (by rw [String.ofList_toList])

end Parser

end Postboard.Json
