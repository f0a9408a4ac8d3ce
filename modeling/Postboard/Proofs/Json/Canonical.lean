import Postboard.Proofs.Json.Nested
import Postboard.Proofs.Json.Printed
import Postboard.Proofs.Number.Shortest

/-! The compact text tells the value: different values have different texts.

A value is told even when more text follows, so long as nothing of that could belong to a number.
-/

set_option autoImplicit false

namespace Postboard.Json

open Text
open Number.Shortest (isNumeric isNumeric_digits text_numeric text_marked text_injective)

/-! ### Numbers -/

theorem digits_numeric (n : Nat) : ∀ c ∈ Decimal.digits n, isNumeric c = true :=
  isNumeric_digits (List.all_eq_true.mp (Decimal.isDigit_digits n))

theorem int_chars (n : Int) :
    (Number.int n).chars = (if n < 0 then ['-'] else []) ++ Decimal.digits n.natAbs := by
  split
  next sign => exact Parser.chars_negative sign
  next sign => exact Parser.chars_nonneg sign

theorem number_numeric (n : Number) : ∀ c ∈ n.chars, isNumeric c = true := by
  cases n with
  | double d => exact text_numeric d
  | int n =>
    rw [int_chars]
    refine List.forall_mem_append.mpr ⟨?_, digits_numeric _⟩
    split
    next => exact List.forall_mem_singleton.mpr rfl
    next => exact List.forall_mem_nil _

theorem not_digit_mark {c : Char} (digit : isDigit c = true) : c ≠ '.' ∧ c ≠ 'e' := by
  constructor
  all_goals
    rintro rfl
    cases digit

theorem int_unmarked (n : Int) : ∀ c ∈ (Number.int n).chars, c ≠ '.' ∧ c ≠ 'e' := by
  have digits := List.all_eq_true.mp (Decimal.isDigit_digits n.natAbs)
  rw [int_chars]
  refine List.forall_mem_append.mpr ⟨?_, fun c member => not_digit_mark (digits c member)⟩
  split
  next => exact List.forall_mem_singleton.mpr (by decide)
  next => exact List.forall_mem_nil _

theorem not_digits_minus (n : Nat) (more : List Char) : Decimal.digits n ≠ '-' :: more := by
  intro same
  have digit := List.all_eq_true.mp (Decimal.isDigit_digits n) '-' (by simp [same])
  cases digit

theorem int_injective {m n : Int} (same : (Number.int m).chars = (Number.int n).chars) : m = n := by
  rw [int_chars, int_chars] at same
  by_cases sign : m < 0
  · by_cases sign' : n < 0
    · rw [if_pos sign, if_pos sign'] at same
      have size := Decimal.digits_inj (List.cons.inj same).2
      omega
    · rw [if_pos sign, if_neg sign'] at same
      exact (not_digits_minus _ _ same.symm).elim
  · by_cases sign' : n < 0
    · rw [if_neg sign, if_pos sign'] at same
      exact (not_digits_minus _ _ same).elim
    · rw [if_neg sign, if_neg sign'] at same
      have size := Decimal.digits_inj same
      omega

theorem int_ne_double (n : Int) (d : Number.Double) :
    (Number.int n).chars ≠ (Number.double d).chars := by
  intro same
  have plain := int_unmarked n
  rw [same, Number.chars] at plain
  rcases text_marked d with point | exponent
  · exact (plain _ point).1 rfl
  · exact (plain _ exponent).2 rfl

theorem number_injective {m n : Number} (same : m.chars = n.chars) : m = n := by
  cases m with
  | int m =>
    cases n with
    | int n => rw [int_injective same]
    | double d => exact (int_ne_double m d same).elim
  | double d =>
    cases n with
    | int n => exact (int_ne_double n d same.symm).elim
    | double e => rw [text_injective same]

/-! ### Texts that are followed by others -/

def Stops (rest : List Char) : Prop := rest.takeWhile isNumeric = []

/-- A piece of text tells what was written, and where it ends. -/
def Tells {α : Type} (piece : α → List Char) (a : α) : Prop :=
  ∀ b rest rest', Stops rest → Stops rest' → piece a ++ rest = piece b ++ rest' → a = b ∧ rest = rest'

theorem tells_number (n : Number) : Tells Number.chars n := by
  intro m rest rest' stops stops' same
  have taken (k : Number) {tail : List Char} (stops : Stops tail) :
      (k.chars ++ tail).takeWhile isNumeric = k.chars := by
    rw [List.takeWhile_append_of_pos (number_numeric k), stops, List.append_nil]
  obtain rfl : n = m := by
    apply number_injective
    rw [← taken n stops, same, taken m stops']
  exact ⟨rfl, List.append_cancel_left same⟩

theorem quote_append_inj {s s' : String} {rest rest' : List Char}
    (same : quote s ++ rest = quote s' ++ rest') : s = s' ∧ rest = rest' := by
  have bytes := congrArg Utf8.encode same
  rw [Utf8.encode_append, Utf8.encode_append, Parser.encode_quote, Parser.encode_quote] at bytes
  have read := congrArg Parser.string (List.cons.inj bytes).2
  rw [Parser.string_escape, Parser.string_escape] at read
  obtain ⟨text, tail⟩ := Prod.mk.inj (Except.ok.inj read)
  exact ⟨text, Utf8.encode_injective tail⟩

/-! ### Pieces with commas between them -/

def joined {α : Type} (piece : α → List Char) : List α → List Char
  | [] => []
  | [a] => piece a
  | a :: b :: more => piece a ++ ',' :: joined piece (b :: more)

def behind {α : Type} (piece : α → List Char) : List α → List Char
  | [] => []
  | b :: more => ',' :: joined piece (b :: more)

theorem joined_cons {α : Type} (piece : α → List Char) (a : α) (more : List α) :
    joined piece (a :: more) = piece a ++ behind piece more := by
  cases more with
  | nil => rw [joined, behind, List.append_nil]
  | cons => rfl

theorem stops_behind {α : Type} (piece : α → List Char) (more : List α) {close : Char}
    (stop : isNumeric close = false) (rest : List Char) : Stops (behind piece more ++ close :: rest) := by
  cases more with
  | nil => simp [behind, Stops, stop]
  | cons => rfl

/-- The pieces are told when each of them is, and none looks like the end. -/
theorem joined_append_inj {α : Type} {piece : α → List Char} (close : Char)
    (stop : isNumeric close = false) (comma : close ≠ ',')
    (opens : ∀ a rest rest', piece a ++ rest ≠ close :: rest') {as : List α}
    (tells : ∀ a ∈ as, Tells piece a) {bs : List α} {rest rest' : List Char}
    (same : joined piece as ++ close :: rest = joined piece bs ++ close :: rest') :
    as = bs ∧ rest = rest' := by
  -- The lists end at the same place, since neither a comma nor a piece looks like the end.
  induction as generalizing bs with
  | nil =>
    cases bs with
    | nil => exact ⟨rfl, (List.cons.inj same).2⟩
    | cons b bs =>
      rw [joined_cons, List.append_assoc] at same
      exact (opens _ _ _ same.symm).elim
  | cons a as ih =>
    cases bs with
    | nil =>
      rw [joined_cons, List.append_assoc] at same
      exact (opens _ _ _ same).elim
    | cons b bs =>
      rw [joined_cons, joined_cons, List.append_assoc, List.append_assoc] at same
      obtain ⟨rfl, more⟩ := tells a List.mem_cons_self b _ _ (stops_behind piece as stop rest)
        (stops_behind piece bs stop rest') same
      cases as with
      | nil =>
        cases bs with
        | nil => exact ⟨rfl, (List.cons.inj more).2⟩
        | cons => exact (comma (List.cons.inj more).1).elim
      | cons =>
        cases bs with
        | nil => exact (comma (List.cons.inj more).1.symm).elim
        | cons =>
          obtain ⟨later, tail⟩ :=
            ih (fun a member => tells a (List.mem_cons_of_mem _ member)) (List.cons.inj more).2
          exact ⟨by rw [later], tail⟩

theorem itemChars_joined (items : List Json) : itemChars items = joined chars items := by
  induction items with
  | nil => rw [itemChars, joined]
  | cons v rest ih =>
    cases rest with
    | nil => rw [itemChars, joined]
    | cons w rest => rw [Parser.itemChars_cons_cons, ih, joined]

def memberText (e : String × Json) : List Char := quote e.1 ++ ':' :: e.2.chars

theorem memberChars_joined (members : Members) : memberChars members = joined memberText members := by
  induction members with
  | nil => rw [memberChars, joined]
  | cons e rest ih =>
    obtain ⟨k, v⟩ := e
    cases rest with
    | nil => rw [memberChars, joined, memberText]
    | cons e' rest =>
      rw [Parser.memberChars_cons_cons, ih, joined, memberText]

/-! ### Values -/

theorem number_ne_nil (n : Number) : n.chars ≠ [] := by
  cases n with
  | int n =>
    rw [int_chars]
    exact List.append_ne_nil_of_right_ne_nil _ (Decimal.digits_ne_nil _)
  | double d =>
    rcases text_marked d with point | exponent
    · exact List.ne_nil_of_mem point
    · exact List.ne_nil_of_mem exponent

/-- The kind of values whose text begins with a character. -/
def kindOf? (c : Char) : Option String :=
  if isNumeric c then some "number"
  else [('n', "null"), ('t', "bool"), ('f', "bool"), ('"', "string"), ('[', "array"),
    ('\x7b', "object")].lookup c

theorem chars_kind (v : Json) : ∃ c more, v.chars = c :: more ∧ kindOf? c = some v.kind := by
  cases v with
  | null => exact ⟨_, _, rfl, rfl⟩
  | bool b => cases b <;> exact ⟨_, _, rfl, rfl⟩
  | str s => exact ⟨_, _, rfl, rfl⟩
  | arr items => exact ⟨_, _, rfl, rfl⟩
  | obj members => exact ⟨_, _, rfl, rfl⟩
  | num n =>
    obtain ⟨c, more, shape⟩ := List.exists_cons_of_ne_nil (number_ne_nil n)
    have numeric := number_numeric n c (by simp [shape])
    exact ⟨c, more, shape, if_pos numeric⟩

theorem kind_eq {v w : Json} {rest rest' : List Char} (same : v.chars ++ rest = w.chars ++ rest') :
    v.kind = w.kind := by
  obtain ⟨c, more, shape, front⟩ := chars_kind v
  obtain ⟨c', more', shape', front'⟩ := chars_kind w
  rw [shape, shape'] at same
  obtain rfl := (List.cons.inj same).1
  exact Option.some.inj (front.symm.trans front')

/-- No value begins like the end of a list or an object. -/
theorem chars_ne_close {v : Json} {close : Char} (none : kindOf? close = none)
    (rest rest' : List Char) : v.chars ++ rest ≠ close :: rest' := by
  obtain ⟨c, more, shape, front⟩ := chars_kind v
  intro same
  rw [shape] at same
  obtain rfl := (List.cons.inj same).1
  rw [none] at front
  cases front

theorem tells_leaf {v : Json} (leaf : v.isLeaf = true) : Tells chars v := by
  intro w rest rest' stops stops' same
  have kinds := kind_eq same
  cases v with
  | arr => cases leaf
  | obj => cases leaf
  | null =>
    cases w with
    | null => exact ⟨rfl, List.append_cancel_left same⟩
    | _ => simp [kind] at kinds
  | bool b =>
    cases w with
    | bool b' =>
      cases b <;> cases b'
      all_goals simp_all [chars]
    | _ => simp [kind] at kinds
  | num n =>
    cases w with
    | num m =>
      obtain ⟨rfl, tail⟩ := tells_number n m rest rest' stops stops' same
      exact ⟨rfl, tail⟩
    | _ => simp [kind] at kinds
  | str s =>
    cases w with
    | str s' =>
      obtain ⟨rfl, tail⟩ := quote_append_inj same
      exact ⟨rfl, tail⟩
    | _ => simp [kind] at kinds

theorem tells_memberText {e : String × Json} (tells : Tells chars e.2) : Tells memberText e := by
  obtain ⟨k, v⟩ := e
  rintro ⟨k', w⟩ rest rest' stops stops' same
  simp only [memberText, List.append_assoc] at same
  obtain ⟨rfl, more⟩ := quote_append_inj same
  obtain ⟨rfl, tail⟩ := tells w rest rest' stops stops' (List.cons.inj more).2
  exact ⟨rfl, tail⟩

/-- The text of a value tells the value, and where it ends. -/
theorem tells_chars (v : Json) : Tells chars v := by
  induction v using nested with
  | leaf v leaf => exact tells_leaf leaf
  | arr items tells =>
    intro w rest rest' stops stops' same
    have kinds := kind_eq same
    cases w with
    | arr items' =>
      rw [chars, chars, itemChars_joined, itemChars_joined, List.append_assoc, List.append_assoc] at same
      obtain ⟨rfl, tail⟩ := joined_append_inj ']' rfl (by decide)
        (fun v => chars_ne_close rfl) tells (List.cons.inj same).2
      exact ⟨rfl, tail⟩
    | _ => simp [kind] at kinds
  | obj members tells =>
    intro w rest rest' stops stops' same
    have kinds := kind_eq same
    cases w with
    | obj members' =>
      rw [chars, chars, memberChars_joined, memberChars_joined, List.append_assoc,
        List.append_assoc] at same
      have opens (e : String × Json) (rest rest' : List Char) :
          memberText e ++ rest ≠ '\x7d' :: rest' :=
        fun same => absurd (List.cons.inj same).1 (by decide)
      obtain ⟨rfl, tail⟩ := joined_append_inj '\x7d' rfl (by decide) opens
        (fun e member => tells_memberText (tells e member)) (List.cons.inj same).2
      exact ⟨rfl, tail⟩
    | _ => simp [kind] at kinds

theorem chars_injective {v w : Json} (same : v.chars = w.chars) : v = w :=
  (tells_chars v w [] [] rfl rfl (congrArg (· ++ []) same)).1

/-- Values with the same compact text are the same. -/
theorem bytes_injective {v w : Json} (same : v.bytes = w.bytes) : v = w :=
  chars_injective (Utf8.encode_injective same)

end Postboard.Json
