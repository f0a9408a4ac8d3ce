import Mathlib.Data.List.DropRight
import Postboard.Proofs.Number.Rounding

/-! The shortest text of a double tells the double.

The digits that are found stand for a number that reads back as the double, and the text is read as
that number.
-/

set_option autoImplicit false

namespace Postboard.Number.Shortest

open Text

/-! ### Digits -/

def Digits.amount (d : Digits) : ℚ := Decimal.value d.digits * 10 ^ (d.point - d.digits.length)

theorem amount_stripZeros (ds : List Char) (point : Int) :
    Digits.amount ⟨stripZeros ds, point⟩ = Digits.amount ⟨ds, point⟩ := by
  have ten : (10 : ℚ) ≠ 0 := by norm_num
  induction ds using List.reverseRecOn with
  | nil => rfl
  | append_singleton ds d ih =>
    by_cases zero : d = '0'
    · subst zero
      have same : stripZeros (ds ++ ['0']) = stripZeros ds := by simp [stripZeros]
      rw [same, ih]
      have power : (10 : ℚ) ^ (point - ds.length) = 10 * 10 ^ (point - (ds.length + 1 : Nat)) := by
        rw [← zpow_one_add₀ ten]
        congr 1
        omega
      rw [Digits.amount, Digits.amount, Decimal.value_snoc, List.length_append,
        List.length_singleton, power]
      simp [Decimal.digitValue, mul_assoc]
    · have same : stripZeros (ds ++ [d]) = ds ++ [d] := by simp [stripZeros, zero]
      rw [same]

theorem amount_digits (c : Nat) (down : Int) :
    Digits.amount ⟨Decimal.digits c, (Decimal.digits c).length - down⟩ = c * 10 ^ (-down) := by
  have places : ((Decimal.digits c).length : Int) - down - (Decimal.digits c).length = -down := by
    omega
  rw [Digits.amount, Decimal.value_digits, places]

/-- The digits that are found stand for a number that reads back. -/
theorem search_rounds {index : Nat} (positive : 0 < index) (left n : Nat) (some : 0 < left)
    (last : left + n = 18) :
    ∃ c point, search index (place index) left n = ⟨stripZeros (Decimal.digits c), point⟩ ∧
      Rounds index (Digits.amount ⟨Decimal.digits c, point⟩) := by
  induction left generalizing n with
  | zero => cases some
  | succ left ih =>
    rw [search]
    split
    next c found =>
      obtain ⟨factor, grid⟩ := grid (n - place index)
      refine ⟨c, _, rfl, ?_⟩
      rw [amount_digits, ← grid.fits_iff]
      exact onGrid?_eq_some found
    next missed =>
      cases left with
      | zero => exact (seventeen (n := n) positive (by omega) missed).elim
      | succ left => exact ih _ (Nat.succ_pos left) (by omega)

theorem digits_rounds {index : Nat} (positive : 0 < index) :
    Rounds index (digits index).amount ∧ ∀ c ∈ (digits index).digits, isDigit c = true := by
  obtain ⟨c, point, found, rounds⟩ := search_rounds positive 17 1 (by decide) rfl
  rw [digits, found, amount_stripZeros]
  refine ⟨rounds, fun d member => ?_⟩
  have taken : stripZeros (Decimal.digits c) <+: Decimal.digits c := List.rdropWhile_prefix _ _
  exact List.all_eq_true.mp (Decimal.isDigit_digits c) d (taken.subset member)

/-! ### Reading the text -/

def amount (s : Scientific) : ℚ := s.significand * 10 ^ s.exponent

theorem takeWhile_digits {ds rest : List Char} (digits : ∀ c ∈ ds, isDigit c = true)
    (stop : rest.takeWhile isDigit = []) : (ds ++ rest).takeWhile isDigit = ds := by
  rw [List.takeWhile_append_of_pos digits, stop, List.append_nil]

theorem dropWhile_digits {ds rest : List Char} (digits : ∀ c ∈ ds, isDigit c = true)
    (stop : rest.takeWhile isDigit = []) : (ds ++ rest).dropWhile isDigit = rest := by
  have whole := List.takeWhile_append_dropWhile (p := isDigit) (l := rest)
  rw [List.dropWhile_append_of_pos digits]
  rwa [stop, List.nil_append] at whole

theorem unsignedOf?_point (negative : Bool) (whole part rest : List Char) {e : Int}
    (some : whole ≠ []) (digits : ∀ c ∈ whole, isDigit c = true)
    (digits' : ∀ c ∈ part, isDigit c = true) (stop : rest.takeWhile isDigit = [])
    (exponent : Scientific.exponentOf? rest = .some e) :
    Scientific.unsignedOf? negative (whole ++ '.' :: (part ++ rest)) =
      .some ⟨negative, Decimal.value (whole ++ part), e - part.length⟩ := by
  have point : ('.' :: (part ++ rest)).takeWhile isDigit = [] := rfl
  simp only [Scientific.unsignedOf?, takeWhile_digits digits point, dropWhile_digits digits point,
    takeWhile_digits digits' stop, dropWhile_digits digits' stop, some, false_and, if_false,
    exponent, Option.map_some]

theorem unsignedOf?_noPoint (negative : Bool) (whole tail : List Char) {e : Int}
    (some : whole ≠ []) (digits : ∀ c ∈ whole, isDigit c = true)
    (exponent : Decimal.intOf? tail = .some e) :
    Scientific.unsignedOf? negative (whole ++ 'e' :: tail) =
      .some ⟨negative, Decimal.value whole, e⟩ := by
  have mark : ('e' :: tail).takeWhile isDigit = [] := rfl
  have read : Scientific.exponentOf? ('e' :: tail) = .some e := exponent
  simp [Scientific.unsignedOf?, takeWhile_digits digits mark, dropWhile_digits digits mark, some,
    read]

theorem intOf?_signed (e : Int) :
    Decimal.intOf? ((if e < 0 then '-' else '+') :: Decimal.digits e.natAbs) = some e := by
  split
  next negative =>
    have value : -(e.natAbs : Int) = e := by omega
    rw [Decimal.intOf?, Decimal.natOf?_digits]
    exact congrArg some value
  next positive =>
    have value : (e.natAbs : Int) = e := by omega
    rw [Decimal.intOf?, Decimal.natOf?_digits]
    exact congrArg some value

theorem digits_zeros {n : Nat} : ∀ c ∈ List.replicate n '0', isDigit c = true :=
  fun _ member => (List.eq_of_mem_replicate member).symm ▸ rfl

def ReadsAs (negative : Bool) (cs : List Char) (d : Digits) : Prop :=
  ∃ s, Scientific.unsignedOf? negative cs = some s ∧ s.negative = negative ∧ amount s = d.amount

section Layout

variable (negative : Bool) {ds : List Char} (some : ds ≠ []) (digits : ∀ c ∈ ds, isDigit c = true)

include some digits

/-- All digits stand before the point, with zeros after them. -/
theorem readsAs_whole (zeros : Nat) :
    ReadsAs negative (ds ++ List.replicate zeros '0' ++ ['.', '0']) ⟨ds, ds.length + zeros⟩ := by
  have ten : (10 : ℚ) ≠ 0 := by norm_num
  have part := unsignedOf?_point negative (ds ++ List.replicate zeros '0') ['0'] [] (by simp [some])
    (List.forall_mem_append.mpr ⟨digits, digits_zeros⟩) (List.forall_mem_singleton.mpr rfl) rfl rfl
  refine ⟨_, part, rfl, ?_⟩
  -- The zero after the point is one more place, which the exponent takes back.
  have more : ds ++ List.replicate zeros '0' ++ ['0'] = ds ++ List.replicate (zeros + 1) '0' := by
    rw [List.append_assoc, List.replicate_succ']
  rw [amount, Digits.amount, more, Decimal.value_append_zeros, Nat.cast_mul, Nat.cast_pow,
    Nat.cast_ofNat, mul_assoc, ← zpow_natCast, ← zpow_add₀ ten]
  congr 2
  simp

theorem readsAs_inside {front : Nat} (positive : 0 < front) (less : front < ds.length) :
    ReadsAs negative (ds.take front ++ '.' :: ds.drop front) ⟨ds, front⟩ := by
  have part := unsignedOf?_point negative (ds.take front) (ds.drop front) []
    (by simp [some]; omega) (fun c member => digits c (List.mem_of_mem_take member))
    (fun c member => digits c (List.mem_of_mem_drop member)) rfl rfl
  rw [List.append_nil, List.take_append_drop] at part
  refine ⟨_, part, rfl, ?_⟩
  simp only [amount, Digits.amount, List.length_drop]
  congr 2
  omega

omit some in
theorem readsAs_small (zeros : Nat) :
    ReadsAs negative ('0' :: '.' :: List.replicate zeros '0' ++ ds) ⟨ds, -zeros⟩ := by
  have part := unsignedOf?_point negative ['0'] (List.replicate zeros '0' ++ ds) []
    (List.cons_ne_nil _ _) (List.forall_mem_singleton.mpr rfl)
    (List.forall_mem_append.mpr ⟨digits_zeros, digits⟩) rfl rfl
  rw [List.append_nil] at part
  refine ⟨_, part, rfl, ?_⟩
  have lead : Decimal.value ('0' :: (List.replicate zeros '0' ++ ds)) = Decimal.value ds :=
    Decimal.value_zeros_append (zeros + 1) ds
  simp only [amount, Digits.amount, List.cons_append, List.nil_append, lead, List.length_append,
    List.length_replicate]
  congr 2
  omega

/-- One digit stands before the point, and there is no point when it is the only one. -/
theorem readsAs_exponent (k : Int) :
    ReadsAs negative (ds.take 1 ++ (match ds.drop 1 with
      | [] => []
      | more => '.' :: more) ++ ['e', if k - 1 < 0 then '-' else '+'] ++
        Decimal.digits (k - 1).natAbs) ⟨ds, k⟩ := by
  cases ds with
  | nil => exact absurd rfl some
  | cons c ds =>
    cases ds with
    | nil =>
      have whole := unsignedOf?_noPoint negative [c] _ (List.cons_ne_nil _ _) digits
        (intOf?_signed (k - 1))
      refine ⟨_, whole, rfl, ?_⟩
      simp [amount, Digits.amount]
    | cons c' ds =>
      obtain ⟨first, more⟩ := List.forall_mem_cons.mp digits
      have part := unsignedOf?_point negative [c] (c' :: ds) ('e' :: _) (List.cons_ne_nil _ _)
        (List.forall_mem_singleton.mpr first) more rfl (intOf?_signed (k - 1))
      refine ⟨_, by simpa using part, rfl, ?_⟩
      simp only [amount, Digits.amount, List.length_cons]
      congr 2
      omega

/-- The text of digits is read as the number that they stand for. -/
theorem readsAs_layout (k : Int) : ReadsAs negative (layout ⟨ds, k⟩) ⟨ds, k⟩ := by
  simp only [layout, Bool.and_eq_true, decide_eq_true_eq]
  split
  next inside =>
    split
    next short =>
      obtain ⟨zeros, count⟩ := Int.eq_ofNat_of_zero_le (Int.sub_nonneg_of_le short)
      obtain rfl : k = ds.length + zeros := by omega
      rw [count, Int.toNat_natCast]
      exact readsAs_whole negative some digits zeros
    next long =>
      obtain ⟨front, rfl⟩ := Int.eq_ofNat_of_zero_le (Int.le_of_lt inside.1)
      rw [Int.toNat_natCast]
      exact readsAs_inside negative some digits (by omega) (by omega)
  next =>
    split
    next small =>
      obtain ⟨zeros, count⟩ := Int.eq_ofNat_of_zero_le (Int.neg_nonneg_of_nonpos small.2)
      obtain rfl : k = -zeros := by omega
      rw [count, Int.toNat_natCast]
      exact readsAs_small negative digits zeros
    next => exact readsAs_exponent negative some digits k

end Layout

def body (index : Nat) : List Char :=
  if index = 0 then ['0', '.', '0'] else layout (digits index)

theorem text_eq (d : Double) :
    text d = if d.negative then '-' :: body d.index else body d.index := rfl

theorem unsignedOf?_body (negative : Bool) (index : Nat) :
    ∃ s, Scientific.unsignedOf? negative (body index) = some s ∧ s.negative = negative ∧
      Rounds index (amount s) := by
  unfold body
  split
  next zero =>
    subst zero
    refine ⟨⟨negative, 0, -1⟩, by cases negative <;> rfl, rfl, ?_⟩
    simpa [amount] using rounds_zero
  next more =>
    obtain ⟨rounds, numeric⟩ := digits_rounds (Nat.pos_of_ne_zero more)
    have some : (digits index).digits ≠ [] := by
      intro none
      have nothing : (digits index).amount = 0 := by simp [Digits.amount, none, Decimal.value]
      exact more (rounds.unique (nothing ▸ rounds_zero))
    obtain ⟨s, read, sign, same⟩ := readsAs_layout negative some numeric _
    exact ⟨s, read, sign, same ▸ rounds⟩

/-- A point or an exponent tells the text of a double from that of an integer. -/
theorem layout_marked (d : Digits) : '.' ∈ layout d ∨ 'e' ∈ layout d := by
  unfold layout
  simp only
  split
  next =>
    split
    next => simp
    next => simp
  next =>
    split
    next => simp
    next => simp

theorem text_marked (d : Double) : '.' ∈ text d ∨ 'e' ∈ text d := by
  have marked : '.' ∈ body d.index ∨ 'e' ∈ body d.index := by
    unfold body
    split
    next => simp
    next => exact layout_marked _
  rw [text_eq]
  split
  next => exact marked.imp (List.mem_cons_of_mem _) (List.mem_cons_of_mem _)
  next => exact marked

def isNumeric (c : Char) : Bool := isDigit c || ['-', '+', '.', 'e'].contains c

theorem isNumeric_digits {cs : List Char} (digits : ∀ c ∈ cs, isDigit c = true) :
    ∀ c ∈ cs, isNumeric c = true :=
  fun c member => by rw [isNumeric, digits c member, Bool.true_or]

theorem layout_numeric {d : Digits} (digits : ∀ c ∈ d.digits, isDigit c = true) :
    ∀ c ∈ layout d, isNumeric c = true := by
  have taken (n : Nat) : ∀ c ∈ d.digits.take n, isNumeric c = true :=
    fun c member => isNumeric_digits digits c (List.mem_of_mem_take member)
  have left (n : Nat) : ∀ c ∈ d.digits.drop n, isNumeric c = true :=
    fun c member => isNumeric_digits digits c (List.mem_of_mem_drop member)
  have zeros (n : Nat) := isNumeric_digits (digits_zeros (n := n))
  have exponent (n : Nat) :=
    isNumeric_digits (List.all_eq_true.mp (Decimal.isDigit_digits n))
  unfold layout
  simp only
  split
  next =>
    split
    next =>
      simp only [List.forall_mem_append, List.forall_mem_cons]
      exact ⟨⟨isNumeric_digits digits, zeros _⟩, rfl, rfl, List.forall_mem_nil _⟩
    next =>
      simp only [List.forall_mem_append, List.forall_mem_cons]
      exact ⟨taken _, rfl, left _⟩
  next =>
    split
    next =>
      simp only [List.forall_mem_append, List.forall_mem_cons, List.cons_append]
      exact ⟨rfl, rfl, zeros _, isNumeric_digits digits⟩
    next =>
      simp only [List.forall_mem_append, List.forall_mem_cons]
      refine ⟨⟨⟨taken _, ?_⟩, rfl, ?_, List.forall_mem_nil _⟩, exponent _⟩
      · split
        next => exact List.forall_mem_nil _
        next => exact List.forall_mem_cons.mpr ⟨rfl, left 1⟩
      · split <;> rfl

theorem text_numeric (d : Double) : ∀ c ∈ text d, isNumeric c = true := by
  have numeric : ∀ c ∈ body d.index, isNumeric c = true := by
    unfold body
    split
    next => exact List.all_eq_true.mp rfl
    next more => exact layout_numeric (digits_rounds (Nat.pos_of_ne_zero more)).2
  rw [text_eq]
  split
  next => exact List.forall_mem_cons.mpr ⟨rfl, numeric⟩
  next => exact numeric

/-- What is read as a number without a sign has none. -/
theorem read?_unsigned {cs : List Char} {s : Scientific}
    (read : Scientific.unsignedOf? false cs = some s) : Scientific.read? cs = some s := by
  unfold Scientific.read?
  split
  next => cases read
  next => cases read
  next => exact read

/-- The text of a double is read as a number that rounds to it. -/
theorem text_reads (d : Double) : ∃ s, Scientific.read? (text d) = some s ∧
    s.negative = d.negative ∧ Rounds d.index (amount s) := by
  rw [text_eq]
  cases sign : d.negative with
  | false =>
    obtain ⟨s, read, sign, rounds⟩ := unsignedOf?_body false d.index
    exact ⟨s, read?_unsigned read, sign, rounds⟩
  | true => exact unsignedOf?_body true d.index

theorem text_injective {d e : Double} (same : text d = text e) : d = e := by
  obtain ⟨s, read, sign, rounds⟩ := text_reads d
  obtain ⟨t, read', sign', rounds'⟩ := text_reads e
  obtain rfl : s = t := by
    rw [same, read'] at read
    exact (Option.some.inj read).symm
  have index := rounds.unique rounds'
  cases d
  cases e
  simp_all

end Postboard.Number.Shortest
