import Postboard.Json.Printer
import Postboard.Json.Typed
import Postboard.Proofs.Assoc
import Postboard.Proofs.Json.Literal
import Postboard.Proofs.Text.Decimal

/-! Reading undoes printing: the compact text of a value is read as that value.

This is shown for values whose numbers are integers. What follows a value in the text matters for
numbers only: there nothing may come that could belong to one.
-/

set_option autoImplicit false

namespace Postboard.Json

open Text

/-! ### Strings -/

theorem hexValue?_hexDigit {n : Nat} (small : n < 16) : hexValue? (hexDigit n) = some n := by
  revert n
  decide

theorem spelling_escape (c : Char) : Spelling (escape c) c := by
  unfold escape
  iterate 7
    split
    next same =>
      subst same
      exact .letter (by decide)
  split
  next control =>
    have zero : hexValue? '0' = some 0 := rfl
    have high := hexValue?_hexDigit (n := c.toNat / 16) (by omega)
    have low := hexValue?_hexDigit (n := c.toNat % 16) (by omega)
    have code := Spelling.code (.digits zero zero high low) (.inl (by omega))
    have number : ((0 * 16 + 0) * 16 + c.toNat / 16) * 16 + c.toNat % 16 = c.toNat := by omega
    rw [number, Char.ofNat_toNat] at code
    exact code
  next noControl =>
    exact .plain ‹_› ‹_› (by omega)

theorem spelled_escape (cs : List Char) : Spelled (cs.flatMap escape) cs := by
  induction cs with
  | nil => exact .nil
  | cons c cs ih => exact .cons (spelling_escape c) ih

namespace Parser

theorem string_escape (s : String) (rest : List UInt8) :
    string (Utf8.encode (s.toList.flatMap escape) ++ 0x22 :: rest) = .ok (s, rest) := by
  rw [string_spelled (spelled_escape _), String.ofList_toList]

/-! ### Numbers -/

/-- What follows cannot belong to a number. -/
def Ends : List UInt8 → Prop
  | [] => True
  | b :: _ => isDigit b = false ∧ b ≠ 0x2E ∧ b ≠ 0x65 ∧ b ≠ 0x45

theorem byte_of_digit {c : Char} (digit : Text.isDigit c = true) :
    c.toNat < 0x80 ∧ isDigit (UInt8.ofNat c.toNat) = true ∧
      digitValue (UInt8.ofNat c.toNat) = Decimal.digitValue c := by
  simp only [Text.isDigit, Bool.and_eq_true, decide_eq_true_eq] at digit
  have ascii : c.toNat < 0x80 := Nat.lt_of_le_of_lt digit.2 (by decide)
  have code := Utf8.toNat_byte ascii
  refine ⟨ascii, ?_, ?_⟩
  · simp only [isDigit, UInt8.le_iff_toNat_le, code, Bool.and_eq_true, decide_eq_true_eq]
    exact digit
  · simp [digitValue, Decimal.digitValue, code]

theorem le_foldl_digits (ds : List Char) (acc : Nat) :
    acc ≤ ds.foldl (fun n c => n * 10 + Decimal.digitValue c) acc := by
  induction ds generalizing acc with
  | nil => exact Nat.le_refl acc
  | cons d ds ih => exact Nat.le_trans (Nat.le_add_right_of_le (Nat.le_mul_of_pos_right _ (by decide))) (ih _)

theorem gather_digits {ds : List Char} (digits : ∀ d ∈ ds, Text.isDigit d = true) (acc k : Nat)
    (fit : ds.foldl (fun n c => n * 10 + Decimal.digitValue c) acc < 0x10000000000000000)
    {rest : List UInt8} (ends : Ends rest) :
    gather acc k (Utf8.encode ds ++ rest) =
      (ds.foldl (fun n c => n * 10 + Decimal.digitValue c) acc, k + ds.length, rest) := by
  induction ds generalizing acc k with
  | nil =>
    cases rest with
    | nil => rfl
    | cons b rest => simp [gather, ends.1]
  | cons d ds ih =>
    rw [List.forall_mem_cons] at digits
    obtain ⟨ascii, isDigit, value⟩ := byte_of_digit digits.1
    have here := Nat.lt_of_le_of_lt (le_foldl_digits ds (acc * 10 + Decimal.digitValue d)) fit
    rw [Utf8.encode_ascii ascii, List.cons_append, gather, isDigit, value, Bool.true_and,
      if_pos (decide_eq_true here), ih digits.2 _ _ fit]
    simp [Nat.add_assoc, Nat.add_comm 1]

theorem Ends.digitNext {rest : List UInt8} (ends : Ends rest) : digitNext rest = false := by
  cases rest with
  | nil => rfl
  | cons b rest => exact ends.1

theorem Ends.exponentNext {rest : List UInt8} (ends : Ends rest) : exponentNext rest = false := by
  cases rest with
  | nil => rfl
  | cons b rest => simp [Parser.exponentNext, ends.2.2.1, ends.2.2.2]

theorem number_ends (negative : Bool) {b : UInt8} {n k : Nat} {input rest : List UInt8}
    (digit : isDigit b = true) (lone : b = 0x30 → digitNext input = false)
    (taken : (if b = 0x30 then (0, 0, input) else gather (digitValue b) 0 input) = (n, k, rest))
    (ends : Ends rest) : number negative (b :: input) = whole negative n rest := by
  have alone : ¬ (b = 0x30 && digitNext input) = true := by
    intro both
    simp only [Bool.and_eq_true, decide_eq_true_eq] at both
    simp [lone both.1] at both
  rw [number, if_neg alone, if_pos digit]
  simp only [taken, ends.digitNext, ends.exponentNext, Bool.false_eq_true, if_false]
  split
  next => exact absurd rfl ends.2.1
  next => rfl

theorem number_digits (negative : Bool) {n : Nat} (fit : n < 0x10000000000000000)
    {rest : List UInt8} (ends : Ends rest) :
    number negative (Utf8.encode (Decimal.digits n) ++ rest) = whole negative n rest := by
  by_cases zero : n = 0
  · subst zero
    exact number_ends negative (b := 0x30) rfl (fun _ => ends.digitNext) rfl ends
  · have digits := List.all_eq_true.mp (Decimal.isDigit_digits n)
    have value := Decimal.value_digits n
    cases shape : Decimal.digits n with
    | nil => exact absurd shape (Decimal.digits_ne_nil n)
    | cons d ds =>
      rw [shape, List.forall_mem_cons] at digits
      rw [shape, Decimal.value, List.foldl_cons, Nat.zero_mul, Nat.zero_add] at value
      obtain ⟨ascii, isDigit, digitValue⟩ := byte_of_digit digits.1
      -- Only zero itself begins with a zero.
      have noZero : UInt8.ofNat d.toNat ≠ 0x30 := by
        intro same
        have first : d = '0' := by
          rw [← ofNat_toNat_ascii ascii, same]
          rfl
        exact zero (Decimal.digits_head_zero (by rw [shape, first]; rfl))
      have gathered := gather_digits digits.2 (Decimal.digitValue d) 0 (by rwa [value]) ends
      rw [value] at gathered
      rw [Utf8.encode_ascii ascii, List.cons_append]
      refine number_ends (k := 0 + ds.length) negative isDigit (fun same => absurd same noZero) ?_ ends
      rw [if_neg noZero, digitValue]
      exact gathered

/-! ### Values -/

end Parser

/-- A value whose numbers are integers of 64 bits, signed or not, whose objects are in order, and
in which lists and objects nest at most so deep. -/
inductive Whole : Nat → Json → Prop where
  | null {depth : Nat} : Whole depth .null
  | bool {depth : Nat} (b : Bool) : Whole depth (.bool b)
  | int {depth : Nat} {n : Int} : -0x8000000000000000 ≤ n → n < 0x10000000000000000 →
      Whole depth (.num (.int n))
  | str {depth : Nat} (s : String) : Whole depth (.str s)
  | arr {depth : Nat} {items : List Json} : (∀ v ∈ items, Whole depth v) →
      Whole (depth + 1) (.arr items)
  | obj {depth : Nat} {members : Members} : Assoc.Sorted members →
      (∀ m ∈ members, Whole depth m.2) → Whole (depth + 1) (.obj members)

namespace Parser

def Opens (v : Json) : Prop :=
  ∃ b input, Utf8.encode v.chars = b :: input ∧ isSpace b = false ∧ b ≠ 0x5D

/-- A reader of values that takes one value from the front of its text. -/
def Reads (item : List UInt8 → Reading Json) (v : Json) : Prop :=
  ∀ rest, Ends rest → item (Utf8.encode v.chars ++ rest) = .ok (v, rest)

theorem skipSpace_cons {b : UInt8} (visible : isSpace b = false) (input : List UInt8) :
    skipSpace (b :: input) = b :: input :=
  List.dropWhile_cons_of_neg (by simp [visible])

theorem value_scalar {b : UInt8} (visible : isSpace b = false) (noBracket : b ≠ 0x5B)
    (noBrace : b ≠ 0x7B) (bound depth : Nat) (input : List UInt8) :
    value bound depth (b :: input) = scalar b input := by
  rw [value.eq_def]
  simp [skipSpace_cons visible, noBracket, noBrace]

/-! ### Numbers as values -/

theorem not_digit {b c : UInt8} (digit : isDigit b = true) (other : isDigit c = false) : b ≠ c := by
  rintro rfl
  rw [digit] at other
  cases other

theorem scalar_digit {b : UInt8} (digit : isDigit b = true) (input : List UInt8) :
    scalar b input = (number false (b :: input)).map fun r => (.num r.1, r.2) := by
  rw [scalar, if_neg (not_digit digit rfl), if_neg (not_digit digit rfl),
    if_neg (not_digit digit rfl), if_neg (not_digit digit rfl), if_neg (not_digit digit rfl),
    if_pos digit]

theorem encode_digits (n : Nat) :
    ∃ b input, Utf8.encode (Decimal.digits n) = b :: input ∧ isDigit b = true := by
  have digits := List.all_eq_true.mp (Decimal.isDigit_digits n)
  cases shape : Decimal.digits n with
  | nil => exact absurd shape (Decimal.digits_ne_nil n)
  | cons d ds =>
    obtain ⟨ascii, digit, -⟩ := byte_of_digit (digits d (by simp [shape]))
    exact ⟨_, _, Utf8.encode_ascii ascii ds, digit⟩

theorem isSpace_digit {b : UInt8} (digit : isDigit b = true) : isSpace b = false := by
  have other : ∀ c, isDigit c = false → (b == c) = false :=
    fun c no => beq_false_of_ne (not_digit digit no)
  simp [isSpace, other 0x20 rfl, other 0x09 rfl, other 0x0A rfl, other 0x0D rfl]

theorem chars_nonneg {n : Int} (sign : ¬ n < 0) :
    Json.chars (.num (.int n)) = Decimal.digits n.natAbs := by
  simp [Json.chars, Number.chars, Decimal.ofInt, sign, Decimal.ofNat]

theorem chars_negative {n : Int} (sign : n < 0) :
    Json.chars (.num (.int n)) = '-' :: Decimal.digits n.natAbs := by
  simp [Json.chars, Number.chars, Decimal.ofInt, sign]

theorem opens_int (n : Int) : Opens (.num (.int n)) := by
  by_cases sign : n < 0
  · exact ⟨0x2D, _, by rw [chars_negative sign]; exact Utf8.encode_ascii (by decide) _, rfl, by decide⟩
  · obtain ⟨b, input, shape, digit⟩ := encode_digits n.natAbs
    exact ⟨b, input, by rw [chars_nonneg sign, shape], isSpace_digit digit, not_digit digit rfl⟩

theorem reads_int {n : Int} (low : -0x8000000000000000 ≤ n) (high : n < 0x10000000000000000)
    (bound depth : Nat) : Reads (value bound depth) (.num (.int n)) := by
  intro rest ends
  by_cases sign : n < 0
  · have size : n.natAbs ≤ 0x8000000000000000 := by omega
    have read := number_digits true (n := n.natAbs) (by omega) ends
    have negated : whole true n.natAbs rest = .ok (.int n, rest) := by
      have same : -(n.natAbs : Int) = n := by omega
      have fits : ¬ (n.natAbs = 0 || 0x8000000000000000 < n.natAbs) = true := by
        simp only [Bool.or_eq_true, decide_eq_true_eq]
        omega
      rw [whole, if_pos rfl, if_neg fits, same]
    rw [chars_negative sign, Utf8.encode_ascii (by decide), List.cons_append,
      value_scalar (by decide) (by decide) (by decide)]
    simp [scalar, read, negated, Except.map]
  · obtain ⟨b, input, shape, digit⟩ := encode_digits n.natAbs
    have read := number_digits false (n := n.natAbs) (by omega) ends
    have same : (n.natAbs : Int) = n := by omega
    rw [chars_nonneg sign]
    rw [shape, List.cons_append] at read ⊢
    rw [value_scalar (isSpace_digit digit) (not_digit digit rfl) (not_digit digit rfl),
      scalar_digit digit, read]
    simp [whole, Except.map, same]

/-! ### Words and strings -/

theorem encode_quote (s : String) (rest : List UInt8) :
    Utf8.encode (quote s) ++ rest =
      0x22 :: (Utf8.encode (s.toList.flatMap escape) ++ 0x22 :: rest) := by
  rw [quote, List.cons_append, Utf8.encode_ascii (by decide), Utf8.encode_append,
    Utf8.encode_ascii (by decide), Utf8.encode_nil]
  simp

theorem reads_str (s : String) (bound depth : Nat) : Reads (value bound depth) (.str s) := by
  intro rest _
  rw [Json.chars, encode_quote, value_scalar (by decide) (by decide) (by decide)]
  simp [scalar, string_escape, Except.map]

theorem opens_str (s : String) : Opens (.str s) :=
  ⟨0x22, _, (List.append_nil _).symm.trans (encode_quote s []), rfl, by decide⟩

theorem reads_null (bound depth : Nat) : Reads (value bound depth) .null := by
  intro rest _
  have bytes : Utf8.encode (Json.chars .null) = [0x6E, 0x75, 0x6C, 0x6C] := by decide
  rw [bytes, List.cons_append, value_scalar (by decide) (by decide) (by decide)]
  simp [scalar, word, Except.map]

theorem reads_bool (b : Bool) (bound depth : Nat) : Reads (value bound depth) (.bool b) := by
  intro rest _
  cases b with
  | true =>
    have bytes : Utf8.encode (Json.chars (.bool true)) = [0x74, 0x72, 0x75, 0x65] := by decide
    rw [bytes, List.cons_append, value_scalar (by decide) (by decide) (by decide)]
    simp [scalar, word, Except.map]
  | false =>
    have bytes : Utf8.encode (Json.chars (.bool false)) = [0x66, 0x61, 0x6C, 0x73, 0x65] := by
      decide
    rw [bytes, List.cons_append, value_scalar (by decide) (by decide) (by decide)]
    simp [scalar, word, Except.map]

/-! ### Lists and objects -/

theorem opens_front {v : Json} (opens : Opens v) (more : List Char) (rest : List UInt8) :
    ∃ b input, Utf8.encode (v.chars ++ more) ++ rest = b :: input ∧
      skipSpace (b :: input) = b :: input ∧ b ≠ 0x5D := by
  obtain ⟨b, input, shape, visible, other⟩ := opens
  exact ⟨b, input ++ Utf8.encode more ++ rest, by simp [Utf8.encode_append, shape],
    skipSpace_cons visible _, other⟩

theorem itemChars_cons (v : Json) (vs : List Json) :
    ∃ more, itemChars (v :: vs) = v.chars ++ more := by
  cases vs with
  | nil => exact ⟨[], by simp [itemChars]⟩
  | cons w vs => exact ⟨_, by rw [itemChars]; simp⟩

theorem itemChars_cons_cons (v w : Json) (vs : List Json) :
    itemChars (v :: w :: vs) = v.chars ++ ',' :: itemChars (w :: vs) := by
  rw [itemChars]
  simp

theorem items_chars {item : List UInt8 → Reading Json} {v : Json} {vs : List Json}
    (reads : ∀ w ∈ v :: vs, Reads item w) (opens : ∀ w ∈ v :: vs, Opens w) {bound : Nat}
    (room : vs.length < bound) (acc : List Json) (rest : List UInt8) :
    items item bound acc (Utf8.encode (itemChars (v :: vs)) ++ 0x5D :: rest) =
      .ok (acc.reverse ++ v :: vs, rest) := by
  induction vs generalizing v bound acc with
  | nil =>
    obtain ⟨bound, rfl⟩ := Nat.exists_eq_add_one_of_ne_zero (Nat.ne_of_gt room)
    have read := reads v List.mem_cons_self (0x5D :: rest) ⟨rfl, by decide, by decide, by decide⟩
    rw [itemChars, items, read]
    simp [bind, Except.bind, skipSpace, isSpace]
  | cons w vs ih =>
    obtain ⟨bound, rfl⟩ := Nat.exists_eq_add_one_of_ne_zero (Nat.ne_of_gt (Nat.zero_lt_of_lt room))
    have later := ih (fun u member => reads u (List.mem_cons_of_mem _ member))
      (fun u member => opens u (List.mem_cons_of_mem _ member))
      (Nat.lt_of_succ_lt_succ room) (v :: acc)
    -- The next item begins with neither a space nor the closing bracket.
    obtain ⟨more, front⟩ := itemChars_cons w vs
    obtain ⟨b, input, shape, stays, other⟩ :=
      opens_front (opens w (by simp)) more (0x5D :: rest)
    rw [← front] at shape
    have read := reads v List.mem_cons_self (0x2C :: b :: input)
      ⟨rfl, by decide, by decide, by decide⟩
    rw [itemChars_cons_cons, Utf8.encode_append, Utf8.encode_ascii (by decide), List.append_assoc,
      List.cons_append, shape, items]
    rw [shape] at later
    have comma : skipSpace (0x2C :: b :: input) = 0x2C :: b :: input := skipSpace_cons rfl _
    simp only [Char.reduceToNat, UInt8.reduceOfNat, read, bind, Except.bind, comma, stays, other]
    simpa using later

theorem memberChars_cons_cons (k : String) (v : Json) (m : String × Json) (ms : Members) :
    memberChars ((k, v) :: m :: ms) = quote k ++ ':' :: v.chars ++ ',' :: memberChars (m :: ms) := by
  rw [memberChars]
  simp

def keyBytes (k : String) (rest : List UInt8) : List UInt8 :=
  Utf8.encode (k.toList.flatMap escape) ++ 0x22 :: 0x3A :: rest

theorem encode_member (k : String) (v : Json) (rest : List UInt8) :
    Utf8.encode (memberChars [(k, v)]) ++ rest =
      0x22 :: keyBytes k (Utf8.encode v.chars ++ rest) := by
  rw [memberChars, Utf8.encode_append, List.append_assoc, encode_quote,
    Utf8.encode_ascii (by decide)]
  rfl

theorem encode_members {k : String} {v : Json} {m : String × Json} {ms : Members}
    {rest input : List UInt8} (shape : Utf8.encode (memberChars (m :: ms)) ++ rest = 0x22 :: input) :
    Utf8.encode (memberChars ((k, v) :: m :: ms)) ++ rest =
      0x22 :: keyBytes k (Utf8.encode v.chars ++ 0x2C :: 0x22 :: input) := by
  rw [memberChars_cons_cons, List.append_assoc, List.cons_append, Utf8.encode_append,
    List.append_assoc, encode_quote, Utf8.encode_ascii (by decide), Utf8.encode_append,
    Utf8.encode_ascii (by decide), ← shape]
  simp [keyBytes]

theorem string_keyBytes (k : String) (rest : List UInt8) :
    string (keyBytes k rest) = .ok (k, 0x3A :: rest) := string_escape k _

theorem colon_cons (rest : List UInt8) : colon (0x3A :: rest) = .ok rest := by
  rw [colon, skipSpace_cons rfl]
  rfl

theorem members_chars {item : List UInt8 → Reading Json} {m : String × Json} {ms : Members}
    (reads : ∀ n ∈ m :: ms, Reads item n.2) {bound : Nat} (room : ms.length < bound)
    (acc : Members) (rest : List UInt8) :
    ∃ input, Utf8.encode (memberChars (m :: ms)) ++ 0x7D :: rest = 0x22 :: input ∧
      members item bound acc input = .ok (acc.reverse ++ m :: ms, rest) := by
  induction ms generalizing m bound acc with
  | nil =>
    obtain ⟨bound, rfl⟩ := Nat.exists_eq_add_one_of_ne_zero (Nat.ne_of_gt room)
    obtain ⟨k, v⟩ := m
    have read := reads (k, v) List.mem_cons_self (0x7D :: rest)
      ⟨rfl, by decide, by decide, by decide⟩
    refine ⟨_, encode_member k v _, ?_⟩
    simp only [members, string_keyBytes, colon_cons, read, bind, Except.bind]
    simp [skipSpace, isSpace]
  | cons n ms ih =>
    obtain ⟨bound, rfl⟩ := Nat.exists_eq_add_one_of_ne_zero (Nat.ne_of_gt (Nat.zero_lt_of_lt room))
    obtain ⟨k, v⟩ := m
    obtain ⟨input, shape, later⟩ := ih (fun u member => reads u (List.mem_cons_of_mem _ member))
      (Nat.lt_of_succ_lt_succ room) ((k, v) :: acc)
    have read := reads (k, v) List.mem_cons_self (0x2C :: 0x22 :: input)
      ⟨rfl, by decide, by decide, by decide⟩
    have comma : skipSpace (0x2C :: 0x22 :: input) = 0x2C :: 0x22 :: input := skipSpace_cons rfl _
    have quoted : skipSpace (0x22 :: input) = 0x22 :: input := skipSpace_cons rfl _
    refine ⟨_, encode_members shape, ?_⟩
    simp only [members, string_keyBytes, colon_cons, read, bind, Except.bind, comma, quoted]
    simpa using later

theorem opens_whole {depth : Nat} {v : Json} (whole : Json.Whole depth v) : Opens v := by
  cases whole with
  | null => exact ⟨0x6E, _, rfl, rfl, by decide⟩
  | bool b => cases b <;> exact ⟨_, _, rfl, rfl, by decide⟩
  | int _ _ => exact opens_int _
  | str s => exact opens_str s
  | arr _ => exact ⟨0x5B, _, by rw [Json.chars]; exact Utf8.encode_ascii (by decide) _, rfl, by decide⟩
  | obj _ _ => exact ⟨0x7B, _, by rw [Json.chars]; exact Utf8.encode_ascii (by decide) _, rfl, by decide⟩

theorem length_itemChars (v : Json) (vs : List Json) :
    vs.length ≤ (itemChars (v :: vs)).length := by
  induction vs generalizing v with
  | nil => exact Nat.zero_le _
  | cons w vs ih =>
    have later := ih w
    rw [itemChars_cons_cons]
    simp only [List.length_append, List.length_cons]
    omega

theorem length_item {v : Json} {items : List Json} (member : v ∈ items) :
    v.chars.length ≤ (itemChars items).length := by
  induction items with
  | nil => cases member
  | cons w items ih =>
    rcases List.mem_cons.mp member with rfl | later
    · obtain ⟨more, shape⟩ := itemChars_cons v items
      simp [shape]
    · obtain ⟨u, rest, rfl⟩ := List.exists_cons_of_ne_nil (List.ne_nil_of_mem later)
      have inside := ih later
      rw [itemChars_cons_cons]
      simp only [List.length_append, List.length_cons]
      omega

theorem length_memberChars (m : String × Json) (ms : Members) :
    ms.length ≤ (memberChars (m :: ms)).length := by
  induction ms generalizing m with
  | nil => exact Nat.zero_le _
  | cons n ms ih =>
    have later := ih n
    rw [memberChars_cons_cons]
    simp only [List.length_append, List.length_cons]
    omega

theorem length_member {m : String × Json} {members : Members} (member : m ∈ members) :
    m.2.chars.length ≤ (memberChars members).length := by
  induction members with
  | nil => cases member
  | cons n members ih =>
    cases members with
    | nil =>
      obtain rfl := List.mem_singleton.mp member
      simp only [memberChars, List.length_append, List.length_cons]
      omega
    | cons n' rest =>
      rw [memberChars_cons_cons]
      simp only [List.length_append, List.length_cons]
      rcases List.mem_cons.mp member with rfl | later
      · omega
      · have inside := ih later
        omega

theorem reads_arr {bound depth : Nat} {vs : List Json}
    (reads : ∀ w ∈ vs, Reads (value bound depth) w) (opens : ∀ w ∈ vs, Opens w)
    (room : (itemChars vs).length < bound) : Reads (value bound (depth + 1)) (.arr vs) := by
  intro rest _
  rw [Json.chars, List.cons_append, Utf8.encode_ascii (by decide), Utf8.encode_append,
    Utf8.encode_ascii (by decide), Utf8.encode_nil]
  cases vs with
  | nil => simp [itemChars, value, skipSpace, isSpace, list]
  | cons v vs =>
    have enough : vs.length < bound := Nat.lt_of_le_of_lt (length_itemChars v vs) room
    have read := items_chars reads opens enough [] rest
    -- The first item begins with neither a space nor the closing bracket.
    obtain ⟨more, front⟩ := itemChars_cons v vs
    obtain ⟨b, input, shape, stays, other⟩ :=
      opens_front (opens v List.mem_cons_self) more (0x5D :: rest)
    rw [← front] at shape
    rw [shape] at read
    have opening : skipSpace (0x5B :: b :: input) = 0x5B :: b :: input := skipSpace_cons rfl _
    rw [List.cons_append, List.append_assoc, List.cons_append, List.nil_append]
    simp only [Char.reduceToNat, UInt8.reduceOfNat, shape]
    rw [value, opening]
    simp [list, stays, other, read, Except.map]

/-- Members in any order are read as the object that they make. -/
theorem value_members {bound depth : Nat} {ms : Members}
    (reads : ∀ m ∈ ms, Reads (value bound depth) m.2) (room : (memberChars ms).length < bound)
    (rest : List UInt8) :
    value bound (depth + 1) (Utf8.encode (Json.obj ms).chars ++ rest) =
      .ok (Json.object ms, rest) := by
  rw [Json.chars, List.cons_append, Utf8.encode_ascii (by decide), Utf8.encode_append,
    Utf8.encode_ascii (by decide), Utf8.encode_nil]
  cases ms with
  | nil => simp [memberChars, value, skipSpace, isSpace, Parser.object, Json.object, Assoc.ofList]
  | cons m ms =>
    have enough : ms.length < bound := Nat.lt_of_le_of_lt (length_memberChars m ms) room
    obtain ⟨input, shape, read⟩ := members_chars reads enough [] rest
    have opening : skipSpace (0x7B :: 0x22 :: input) = 0x7B :: 0x22 :: input := skipSpace_cons rfl _
    have quoted : skipSpace (0x22 :: input) = 0x22 :: input := skipSpace_cons rfl _
    rw [List.cons_append, List.append_assoc, List.cons_append, List.nil_append]
    simp only [Char.reduceToNat, UInt8.reduceOfNat, shape]
    rw [value, opening]
    simp [Parser.object, quoted, read, Except.map]

theorem reads_obj {bound depth : Nat} {ms : Members} (sorted : Assoc.Sorted ms)
    (reads : ∀ m ∈ ms, Reads (value bound depth) m.2) (room : (memberChars ms).length < bound) :
    Reads (value bound (depth + 1)) (.obj ms) := by
  intro rest _
  rw [value_members reads room, Json.object, sorted.ofList_eq]

/-- A bound as long as the text is enough, inside as well, where texts are shorter. -/
theorem reads_whole {depth : Nat} {v : Json} (whole : Json.Whole depth v) {bound : Nat}
    (room : v.chars.length ≤ bound) : Reads (value bound depth) v := by
  induction whole with
  | null => exact reads_null _ _
  | bool b => exact reads_bool b _ _
  | int low high => exact reads_int low high _ _
  | str s => exact reads_str s _ _
  | @arr depth items each ih =>
    rw [Json.chars, List.length_append, List.length_cons, List.length_singleton] at room
    refine reads_arr (fun w member => ?_) (fun w member => opens_whole (each w member)) (by omega)
    have shorter := length_item member
    exact ih w member (by omega)
  | @obj depth members sorted each ih =>
    rw [Json.chars, List.length_append, List.length_cons, List.length_singleton] at room
    refine reads_obj sorted (fun m member => ?_) (by omega)
    have shorter := length_member member
    exact ih m member (by omega)

end Parser

theorem parse_bytes {v : Json} (whole : Whole Parser.maxDepth v) : parse v.bytes = .ok v := by
  have read := Parser.reads_whole whole (Utf8.length_le_encode v.chars) [] trivial
  rw [List.append_nil] at read
  simp [parse, bytes, read, bind, Except.bind, Parser.atEnd, Parser.skipSpace]

/-- The text of members in any order is read as the object that they make. -/
theorem parse_members {ms : Members} {depth : Nat} (deep : Parser.maxDepth = depth + 1)
    (whole : ∀ m ∈ ms, Whole depth m.2) : parse (Json.obj ms).bytes = .ok (object ms) := by
  have size : (memberChars ms).length + 2 = (Json.obj ms).chars.length := by
    rw [chars, List.length_append, List.length_cons, List.length_singleton]
  have room := Utf8.length_le_encode (Json.obj ms).chars
  have reads : ∀ m ∈ ms, Parser.Reads
      (Parser.value (Utf8.encode (Json.obj ms).chars).length depth) m.2 := by
    intro m member
    have shorter := Parser.length_member member
    exact Parser.reads_whole (whole m member) (by omega)
  have read := Parser.value_members reads (by omega) []
  rw [List.append_nil] at read
  simp [parse, bytes, deep, read, bind, Except.bind, Parser.atEnd, Parser.skipSpace]

theorem stringValue_quote (s : String) (rest : List UInt8) :
    stringValue (Utf8.encode (quote s) ++ rest) = .ok (s, rest) := by
  rw [Parser.encode_quote]
  simp [stringValue, Parser.skipSpace_cons, Parser.isSpace, Parser.string_escape, syntactic]

theorem parse_text {v : Json} (whole : Whole Parser.maxDepth v) :
    parse (Utf8.bytes v.text) = .ok v := by
  have same : Utf8.bytes v.text = v.bytes := congrArg Utf8.encode String.toList_ofList
  rw [same, parse_bytes whole]

end Postboard.Json
