import Postboard.Proofs.Json.Literal
import Postboard.Proofs.Text.Blank
import Postboard.Reactive.Envelope

/-! Stream responses: which bodies are read, and as which token.

A token may be sent bare or as a JSON string, with blanks around it. Escapes are resolved before the
characters are looked at, so both forms of one token give the same handle and no escape brings in
a character that a bare token could not have.
-/

set_option autoImplicit false

namespace Postboard.Reactive

open Text

/-- A character that stands for itself in the address of a redirect. -/
def IsPlain (c : Char) : Prop :=
  'A' ≤ c ∧ c ≤ 'Z' ∨ 'a' ≤ c ∧ c ≤ 'z' ∨ '0' ≤ c ∧ c ≤ '9' ∨ c ∈ ['-', '.', '_', '~']

instance (c : Char) : Decidable (IsPlain c) := by
  unfold IsPlain
  infer_instance

structure IsToken (s : String) : Prop where
  nonempty : s.toList ≠ []
  plain : ∀ c ∈ s.toList, IsPlain c

theorem isUnreserved_iff {c : Char} : isUnreserved c = true ↔ IsPlain c := by
  have le : ∀ a b : Char, a ≤ b ↔ a.toNat ≤ b.toNat := fun a b => UInt32.le_iff_toNat_le
  simp [isUnreserved, IsPlain, isLetter, isDigit, le, or_assoc]

theorem IsPlain.bounds {c : Char} (plain : IsPlain c) : 32 < c.toNat ∧ c.toNat < 127 := by
  rw [← isUnreserved_iff] at plain
  simp only [isUnreserved, isLetter, isDigit, Bool.or_eq_true, Bool.and_eq_true,
    decide_eq_true_eq] at plain
  rcases plain with ((((letter | digit) | rfl) | rfl) | rfl) | rfl
  · omega
  · omega
  all_goals decide

theorem IsPlain.not_isBlank {c : Char} (plain : IsPlain c) : isBlank c = false :=
  isBlank_visible plain.bounds.1 plain.bounds.2

/-! ### Handles -/

theorem Handle.isToken (h : Handle) : IsToken h.text :=
  ⟨h.nonempty, fun c member => isUnreserved_iff.mp (List.all_eq_true.mp h.unreserved c member)⟩

theorem exists_handle {s : String} (token : IsToken s) : ∃ h : Handle, h.text = s := by
  refine ⟨⟨s, token.nonempty, List.all_eq_true.mpr ?_⟩, rfl⟩
  intro c member
  exact isUnreserved_iff.mpr (token.plain c member)

theorem Handle.ofString_eq_ok {s : String} {h : Handle} : Handle.ofString s = .ok h ↔ h.text = s := by
  constructor
  · intro made
    unfold Handle.ofString at made
    split at made
    next => cases made
    next =>
      split at made
      next => cases made
      next =>
        cases made
        rfl
  · rintro rfl
    unfold Handle.ofString
    rw [dif_neg h.nonempty]
    split
    next c found =>
      have forbidden := List.find?_some found
      have allowed := List.all_eq_true.mp h.unreserved c (List.mem_of_find?_eq_some found)
      simp [allowed] at forbidden
    next => rfl

/-! ### White space -/

/-- JSON passes over blanks only, and stops at what it does not pass over. -/
theorem skipSpace_encode (cs : List Char) : ∃ before after, cs = before ++ after ∧
    (∀ c ∈ before, isBlank c = true) ∧ Json.Parser.skipSpace (Utf8.encode cs) = Utf8.encode after := by
  induction cs with
  | nil => exact ⟨[], [], rfl, by simp, rfl⟩
  | cons c cs ih =>
    cases bytes : Utf8.encode (c :: cs) with
    | nil => exact ⟨[], c :: cs, rfl, by simp, by rw [bytes]; rfl⟩
    | cons b rest =>
      by_cases space : Json.Parser.isSpace b = true
      · have known : b = 0x20 ∨ b = 0x09 ∨ b = 0x0A ∨ b = 0x0D := by
          simpa [Json.Parser.isSpace, or_assoc] using space
        have ascii : b.toNat < 0x80 := by
          rcases known with rfl | rfl | rfl | rfl <;> decide
        obtain ⟨cs', whole, rfl⟩ := Utf8.encode_eq_cons ascii bytes
        obtain ⟨rfl, rfl⟩ := List.cons.inj whole
        obtain ⟨before, after, rfl, blank, skipped⟩ := ih
        refine ⟨_ :: before, after, rfl, ?_, ?_⟩
        · intro d member
          rcases List.mem_cons.mp member with rfl | later
          · rcases known with rfl | rfl | rfl | rfl <;> decide
          · exact blank d later
        · rw [← skipped]
          exact List.dropWhile_cons_of_pos space
      · refine ⟨[], c :: cs, rfl, by simp, ?_⟩
        rw [bytes]
        exact List.dropWhile_cons_of_neg space

/-! ### The two forms of a token -/

theorem atEnd_eq_ok {α : Type} {r : α × List UInt8} {a : α} :
    Json.Parser.atEnd r = .ok a ↔ Json.Parser.skipSpace r.2 = [] ∧ r.1 = a := by
  unfold Json.Parser.atEnd
  split
  next nothing => simp [nothing]
  next something => simp [something]

/-- A trimmed text that begins with a quote is read when it is a string as a whole. -/
theorem quotedToken_eq_ok {cs : List Char} {s : String} (trimmed : Trimmed ('"' :: cs)) :
    quotedToken cs = .ok s ↔ Json.Literal ('"' :: cs) s := by
  unfold quotedToken
  constructor
  · intro read
    cases string : Json.Parser.string (Utf8.encode cs) with
    | error e => simp [string] at read
    | ok r =>
      simp only [string] at read
      obtain ⟨nothing, rfl⟩ := atEnd_eq_ok.mp read
      obtain ⟨inner, after, rfl, spelled, rest⟩ := Json.Parser.string_eq_ok.mp string
      -- What follows the closing quote is blank, and the text does not end in a blank.
      rw [rest] at nothing
      obtain ⟨before, left, rfl, blank, skipped⟩ := skipSpace_encode after
      obtain rfl : left = [] := Utf8.encode_injective (skipped.symm.trans nothing)
      rw [List.append_nil] at trimmed ⊢
      obtain rfl : before = [] := by
        by_contra nonempty
        have last := List.getLast?_eq_some_getLast nonempty
        have whole : ('"' :: (inner ++ '"' :: before)).getLast? = some (before.getLast nonempty) := by
          rw [← List.cons_append, List.getLast?_append, List.getLast?_cons, last]
          rfl
        have visible := trimmed.last _ whole
        rw [blank _ (List.getLast_mem nonempty)] at visible
        cases visible
      exact ⟨inner, rfl, spelled⟩
  · rintro ⟨inner, whole, spelled⟩
    obtain rfl : cs = inner ++ ['"'] := (List.cons.inj whole).2
    have read := Json.Parser.string_eq_ok.mpr ⟨inner, [], rfl, spelled, rfl⟩
    simp only [read]
    exact atEnd_eq_ok.mpr ⟨rfl, rfl⟩

theorem Literal.head {text : List Char} {s : String} (literal : Json.Literal text s) :
    text.head? = some '"' := by
  obtain ⟨inner, rfl, -⟩ := literal
  rfl

theorem tokenOf_eq_ok {text : List Char} (trimmed : Trimmed text) {s : String} (token : IsToken s) :
    tokenOf text = .ok s ↔ text = s.toList ∨ Json.Literal text s := by
  have bare : ∀ {c rest}, s.toList = c :: rest → IsPlain c := fun shape =>
    token.plain _ (by rw [shape]; exact List.mem_cons_self)
  unfold tokenOf
  split
  next rest =>
    have noToken : '"' :: rest ≠ s.toList := fun same => absurd (bare same.symm) (by decide)
    rw [or_iff_right noToken, ← quotedToken_eq_ok trimmed]
    cases quotedToken rest <;> simp
  next rest =>
    refine iff_of_false (by simp) ?_
    rintro (same | literal)
    · exact absurd (bare same.symm) (by decide)
    · cases Literal.head literal
  next rest =>
    refine iff_of_false (by simp) ?_
    rintro (same | literal)
    · exact absurd (bare same.symm) (by decide)
    · cases Literal.head literal
  next noQuote _ _ =>
    have noLiteral : ¬ Json.Literal text s := by
      rintro ⟨inner, rfl, -⟩
      exact noQuote _ rfl
    rw [or_iff_left noLiteral, Except.ok.injEq]
    constructor
    · rintro rfl
      exact String.toList_ofList.symm
    · rintro rfl
      exact String.ofList_toList

/-! ### Bodies -/

theorem Handle.readBody_encode (cs : List Char) (h : Handle) :
    Handle.readBody (Utf8.encode cs) = .ok h ↔ tokenOf (trim cs) = .ok h.text := by
  unfold Handle.readBody Handle.ofBody
  simp only [Utf8.decode_encode]
  cases parsed : tokenOf (trim cs) with
  | error f => simp
  | ok token =>
    simp only [Except.ok.injEq, eq_comm (a := token), ← Handle.ofString_eq_ok]
    cases Handle.ofString token <;> simp

theorem Handle.readBody_eq_ok {body : List UInt8} {h : Handle} :
    Handle.readBody body = .ok h ↔ ∃ cs, body = Utf8.encode cs ∧
      (trim cs = h.text.toList ∨ Json.Literal (trim cs) h.text) := by
  constructor
  · intro read
    cases decoded : Utf8.decode body with
    | error f => simp [readBody, ofBody, decoded] at read
    | ok cs =>
      obtain rfl := Utf8.decode_eq_ok.mp decoded
      exact ⟨cs, rfl, (tokenOf_eq_ok (trimmed_trim cs) h.isToken).mp ((readBody_encode cs h).mp read)⟩
  · rintro ⟨cs, rfl, written⟩
    exact (readBody_encode cs h).mpr ((tokenOf_eq_ok (trimmed_trim cs) h.isToken).mpr written)

theorem Handle.readBody_eq_error {body : List UInt8} (refused : ∀ h, Handle.readBody body ≠ .ok h) :
    ∃ reason, Handle.readBody body = .error (.decode reason) := by
  unfold Handle.readBody at refused ⊢
  cases made : Handle.ofBody body with
  | ok h => simp [made] at refused
  | error f => exact ⟨f.reason, rfl⟩

/-- Either form of a token begins and ends with something that is not blank. -/
theorem trimmed_form {text : List Char} {s : String} (token : IsToken s)
    (form : text = s.toList ∨ Json.Literal text s) : Trimmed text := by
  rcases form with rfl | ⟨inner, rfl, -⟩
  · exact .of_visible fun c member => (token.plain c member).not_isBlank
  · exact {
      first := by
        rintro c ⟨⟩
        rfl
      last := by
        intro c last
        rw [List.getLast?_append] at last
        obtain rfl : '"' = c := by simpa using last
        rfl }

theorem hexValue?_visible {c : Char} {n : Nat} (digit : hexValue? c = some n) :
    isBlank c = false := by
  have range : 48 ≤ c.toNat ∧ c.toNat < 103 := by
    unfold hexValue? at digit
    grind
  exact isBlank_visible (by omega) (by omega)

theorem hex4_visible {ds : List Char} {n : Nat} (hex : Json.Hex4 ds n) :
    ∀ d ∈ ds, isBlank d = false := by
  cases hex with
  | digits first second third fourth =>
    simp [hexValue?_visible first, hexValue?_visible second, hexValue?_visible third,
      hexValue?_visible fourth]

theorem spelling_visible {unit : List Char} {c : Char} (spelling : Json.Spelling unit c)
    (plain : IsPlain c) : ∀ d ∈ unit, isBlank d = false := by
  have backslash : isBlank '\\' = false := rfl
  have u : isBlank 'u' = false := rfl
  have letters : ∀ e ∈ Json.letters, ¬ IsPlain e.2 := by decide
  cases spelling with
  | plain _ _ _ =>
    intro d member
    obtain rfl := List.mem_singleton.mp member
    exact plain.not_isBlank
  -- No escape of one letter stands for a plain character.
  | letter letter => exact absurd plain (letters _ letter)
  | code first _ => simpa [backslash, u] using hex4_visible first
  | pair first _ second _ =>
    simp only [List.forall_mem_cons, List.forall_mem_append]
    exact ⟨backslash, u, hex4_visible first, backslash, u, hex4_visible second⟩

theorem spelled_visible {inner cs : List Char} (spelled : Json.Spelled inner cs)
    (plain : ∀ c ∈ cs, IsPlain c) : ∀ d ∈ inner, isBlank d = false := by
  induction spelled with
  | nil => simp
  | cons spelling _ ih =>
    rw [List.forall_mem_cons] at plain
    rw [List.forall_mem_append]
    exact ⟨spelling_visible spelling plain.1, ih plain.2⟩

theorem form_visible {text : List Char} {s : String} (token : IsToken s)
    (form : text = s.toList ∨ Json.Literal text s) : ∀ c ∈ text, isBlank c = false := by
  rcases form with rfl | ⟨inner, rfl, spelled⟩
  · exact fun c member => (token.plain c member).not_isBlank
  · have quote : isBlank '"' = false := rfl
    simp only [List.cons_append, List.forall_mem_cons, List.forall_mem_append]
    exact ⟨quote, spelled_visible spelled token.plain, quote, by simp⟩

theorem literal_of_token {s : String} (token : IsToken s) :
    Json.Literal ('"' :: s.toList ++ ['"']) s := by
  refine ⟨s.toList, rfl, ?_⟩
  have plain := token.plain
  generalize s.toList = cs at plain
  induction cs with
  | nil => exact .nil
  | cons c cs ih =>
    rw [List.forall_mem_cons] at plain
    have itself : Json.Spelling [c] c := by
      apply Json.Spelling.plain
      · rintro rfl
        exact absurd plain.1 (by decide)
      · rintro rfl
        exact absurd plain.1 (by decide)
      · exact Nat.le_of_lt plain.1.bounds.1
    exact .cons itself (ih plain.2)

/-- Nothing can follow the closing quote of a string and be part of it. -/
theorem Literal.alone {text rest : List Char} {s t : String} (literal : Json.Literal text s)
    (longer : Json.Literal (text ++ rest) t) : rest = [] := by
  obtain ⟨inner, rfl, spelled⟩ := literal
  obtain ⟨inner', whole, spelled'⟩ := longer
  have first := Json.Parser.string_eq_ok.mpr ⟨inner, rest, rfl, spelled, rfl⟩
  have second := Json.Parser.string_eq_ok.mpr ⟨inner', [], rfl, spelled', rfl⟩
  have same : inner ++ '"' :: rest = inner' ++ ['"'] := by simpa using whole
  rw [same, second] at first
  have left := congrArg Prod.snd (Except.ok.inj first)
  exact (Utf8.encode_injective left).symm

/-! ### Structured JSON -/

inductive Structured : Json → Prop where
  | arr (items : List Json) : Structured (.arr items)
  | obj (members : Json.Members) : Structured (.obj members)

theorem scalar_not_structured {b : UInt8} {rest left : List UInt8} {v : Json}
    (read : Json.Parser.scalar b rest = .ok (v, left)) : ¬ Structured v := by
  have mapped : ∀ {α : Type} {r : Except Json.Malformed α} {f : α → Json × List UInt8},
      (∀ a, ¬ Structured (f a).1) → r.map f = .ok (v, left) → ¬ Structured v := by
    intro α r f none read
    cases r with
    | error e => cases read
    | ok a =>
      have whole : f a = (v, left) := Except.ok.inj read
      have isNone := none a
      rwa [whole] at isNone
  unfold Json.Parser.scalar at read
  repeat'
    split at read
    next => exact mapped (by rintro a ⟨⟩) read
  cases read

theorem parse_structured {body : List UInt8} {v : Json} (read : Json.parse body = .ok v)
    (structured : Structured v) :
    ∃ b rest, Json.Parser.skipSpace body = b :: rest ∧ (b = 0x5B ∨ b = 0x7B) := by
  unfold Json.parse at read
  cases value : Json.Parser.value body.length Json.Parser.maxDepth body with
  | error e => simp [value, bind, Except.bind] at read
  | ok r =>
    simp only [value, bind, Except.bind] at read
    obtain ⟨-, rfl⟩ := atEnd_eq_ok.mp read
    unfold Json.Parser.value at value
    split at value
    next => cases value
    next b rest front =>
      split at value
      next bracket => exact ⟨b, rest, front, by simpa using bracket⟩
      next => exact absurd structured (scalar_not_structured value)

theorem Handle.readBody_structured {body : List UInt8} {v : Json} (read : Json.parse body = .ok v)
    (structured : Structured v) (h : Handle) : Handle.readBody body ≠ .ok h := by
  intro taken
  obtain ⟨cs, rfl, form⟩ := readBody_eq_ok.mp taken
  obtain ⟨b, rest, front, bracket⟩ := parse_structured read structured
  obtain ⟨before, after, rfl, blank, skipped⟩ := skipSpace_encode cs
  rw [skipped] at front
  have ascii : b.toNat < 0x80 := by
    rcases bracket with rfl | rfl <;> decide
  obtain ⟨after, rfl, -⟩ := Utf8.encode_eq_cons ascii front
  have visible : isBlank (Char.ofNat b.toNat) = false := by
    rcases bracket with rfl | rfl <;> decide
  have head := head?_trim blank visible after
  -- Neither form of a token begins with a bracket.
  rcases form with bare | literal
  · rw [bare] at head
    have plain := h.isToken.plain _ (List.mem_of_head? head)
    rcases bracket with rfl | rfl <;> exact absurd plain (by decide)
  · rw [Literal.head literal] at head
    rcases bracket with rfl | rfl <;> exact absurd head (by decide)

/-! ### What is read -/

/-- A body that holds a token, bare or as a string, with nothing but blanks around it. -/
def Holds (body : List UInt8) (s : String) : Prop :=
  ∃ before text after, body = Utf8.encode (before ++ text ++ after) ∧
    (∀ c ∈ before, isBlank c = true) ∧ (∀ c ∈ after, isBlank c = true) ∧
    (text = s.toList ∨ Json.Literal text s)

theorem Handle.readBody_iff_holds {body : List UInt8} {h : Handle} :
    Handle.readBody body = .ok h ↔ Holds body h.text := by
  rw [readBody_eq_ok]
  constructor
  · rintro ⟨cs, rfl, form⟩
    obtain ⟨before, after, whole, front, back⟩ := exists_padding cs
    exact ⟨before, trim cs, after, congrArg Utf8.encode whole, front, back, form⟩
  · rintro ⟨before, text, after, rfl, front, back, form⟩
    exact ⟨_, rfl, by rwa [trim_padded front (trimmed_form h.isToken form) back]⟩

structure ReadsTokens (read : List UInt8 → Except Error Handle) : Prop where
  accepted : ∀ body s, (∃ h, read body = .ok h ∧ h.text = s) ↔ IsToken s ∧ Holds body s
  refused : ∀ body, (∃ h, read body = .ok h) ∨ ∃ reason, read body = .error (.decode reason)
  forms : ∀ s, IsToken s → ∃ h : Handle, h.text = s ∧ ∀ before after : List Char,
    (∀ c ∈ before, isBlank c = true) → (∀ c ∈ after, isBlank c = true) →
      read (Utf8.encode (before ++ s.toList ++ after)) = .ok h ∧
      read (Utf8.encode (before ++ ('"' :: s.toList ++ ['"']) ++ after)) = .ok h
  structured : ∀ body v, Json.parse body = .ok v → Structured v → ∀ h, read body ≠ .ok h
  unbroken : ∀ cs h, read (Utf8.encode cs) = .ok h → ∀ c ∈ trim cs, isBlank c = false
  trailing : ∀ cs literal rest s, trim cs = literal ++ rest → Json.Literal literal s → rest ≠ [] →
    ∀ h, read (Utf8.encode cs) ≠ .ok h

theorem Handle.readBody_readsTokens : ReadsTokens Handle.readBody where
  accepted := by
    intro body s
    constructor
    · rintro ⟨h, read, rfl⟩
      exact ⟨h.isToken, readBody_iff_holds.mp read⟩
    · rintro ⟨token, holds⟩
      obtain ⟨h, rfl⟩ := exists_handle token
      exact ⟨h, readBody_iff_holds.mpr holds, rfl⟩
  refused := by
    intro body
    by_cases taken : ∃ h, readBody body = .ok h
    · exact .inl taken
    · exact .inr (readBody_eq_error (not_exists.mp taken))
  forms := by
    intro s token
    obtain ⟨h, rfl⟩ := exists_handle token
    refine ⟨h, rfl, fun before after front back => ⟨?_, ?_⟩⟩
    · exact readBody_iff_holds.mpr ⟨before, _, after, rfl, front, back, .inl rfl⟩
    · exact readBody_iff_holds.mpr
        ⟨before, _, after, rfl, front, back, .inr (literal_of_token token)⟩
  structured := fun body v => readBody_structured
  unbroken := by
    intro cs h read
    obtain ⟨cs', same, form⟩ := readBody_eq_ok.mp read
    obtain rfl := Utf8.encode_injective same
    exact form_visible h.isToken form
  trailing := by
    intro cs literal rest s whole written more h read
    obtain ⟨cs', same, form⟩ := readBody_eq_ok.mp read
    obtain rfl := Utf8.encode_injective same
    rw [whole] at form
    rcases form with bare | longer
    · obtain ⟨inner, rfl, -⟩ := written
      have quote := h.isToken.plain '"' (by rw [← bare]; simp)
      exact absurd quote (by decide)
    · exact more (Literal.alone written longer)

end Postboard.Reactive
