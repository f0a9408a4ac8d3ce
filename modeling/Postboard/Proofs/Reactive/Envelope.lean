import Postboard.Reactive.Envelope

/-! Reading a snapshot undoes the wrapping of its rows, and accepts nothing that is not so wrapped.
Of an envelope with faulty rows the first one is reported, and what follows it is not looked at.
-/

set_option autoImplicit false

namespace Postboard.Reactive

open Text

/-- A row of an envelope: a pair of a number or a string and a list of one object. -/
def IsRow (v : Json) : Prop :=
  ∃ k members, v = .arr [k, .arr [.obj members]] ∧ ((∃ n, k = .num n) ∨ ∃ s, k = .str s)

theorem Key.ofJson?_eq_some {v : Json} {k : Key} : Key.ofJson? v = some k ↔ v = k.json := by
  constructor
  · intro made
    cases v with
    | num n => cases made; rfl
    | str s => cases made; rfl
    | _ => cases made
  · rintro rfl
    cases k <;> rfl

theorem Row.ofEnvelope_eq_ok {v : Json} {r : Row} : Row.ofEnvelope v = .ok r ↔ v = r.envelope := by
  constructor
  · intro made
    unfold ofEnvelope at made
    split at made
    next k values =>
      split at made
      next => cases made
      next key known =>
        split at made
        · cases made
          rw [envelope, Key.ofJson?_eq_some.mp known]
        all_goals cases made
    all_goals cases made
  · rintro rfl
    simp [envelope, ofEnvelope, Key.ofJson?_eq_some.mpr rfl]

theorem isRow_iff {v : Json} : IsRow v ↔ ∃ r : Row, v = r.envelope := by
  constructor
  · rintro ⟨k, members, rfl, ⟨n, rfl⟩ | ⟨s, rfl⟩⟩
    · exact ⟨⟨.num n, members⟩, rfl⟩
    · exact ⟨⟨.str s, members⟩, rfl⟩
  · rintro ⟨⟨key, members⟩, rfl⟩
    refine ⟨key.json, members, rfl, ?_⟩
    cases key with
    | num n => exact .inl ⟨n, rfl⟩
    | str s => exact .inr ⟨s, rfl⟩

theorem isRow_envelope (r : Row) : IsRow r.envelope := isRow_iff.mpr ⟨r, rfl⟩

theorem Row.ofEnvelope_eq_error {v : Json} :
    (∃ f, Row.ofEnvelope v = .error f) ↔ ¬ IsRow v := by
  rw [isRow_iff]
  cases made : Row.ofEnvelope v with
  | ok r => simpa using ⟨r, Row.ofEnvelope_eq_ok.mp made⟩
  | error f =>
    simp only [Except.error.injEq, exists_eq', true_iff]
    rintro ⟨r, same⟩
    rw [Row.ofEnvelope_eq_ok.mpr same] at made
    cases made

/-! ### Rows from the first on -/

theorem rowsOnto_envelopes (acc : List Row) (i : Nat) (rows : List Row) (rest : List Json) :
    rowsOnto acc i (rows.map Row.envelope ++ rest) =
      rowsOnto (rows.reverse ++ acc) (i + rows.length) rest := by
  induction rows generalizing acc i with
  | nil => rfl
  | cons r rows ih =>
    simp only [List.map_cons, List.cons_append, rowsOnto, Row.ofEnvelope_eq_ok.mpr rfl, ih]
    simp [Nat.add_right_comm, Nat.add_assoc]

theorem rowsOnto_faulty {v : Json} {f : RowFault} (faulty : Row.ofEnvelope v = .error f)
    (rows : List Row) (rest : List Json) :
    rowsOnto [] 0 (rows.map Row.envelope ++ v :: rest) = .error (.row rows.length f) := by
  rw [rowsOnto_envelopes, rowsOnto, faulty, Nat.zero_add]

/-- Values are all rows, or they are rows up to the first one that is none. -/
theorem rows_or_faulty (items : List Json) :
    (∃ rows : List Row, items = rows.map Row.envelope) ∨
      ∃ (rows : List Row) (v : Json) (rest : List Json),
        items = rows.map Row.envelope ++ v :: rest ∧ ¬ IsRow v := by
  induction items with
  | nil => exact .inl ⟨[], rfl⟩
  | cons v items ih =>
    by_cases row : IsRow v
    · obtain ⟨r, rfl⟩ := isRow_iff.mp row
      rcases ih with ⟨rows, rfl⟩ | ⟨rows, w, rest, rfl, faulty⟩
      · exact .inl ⟨r :: rows, rfl⟩
      · exact .inr ⟨r :: rows, w, rest, rfl, faulty⟩
    · exact .inr ⟨[], v, items, rfl, row⟩

theorem exists_first_faulty {items : List Json} (faulty : ∃ v ∈ items, ¬ IsRow v) :
    ∃ (rows : List Row) (v : Json) (rest : List Json) (f : RowFault),
      items = rows.map Row.envelope ++ v :: rest ∧ ¬ IsRow v ∧ Row.ofEnvelope v = .error f := by
  rcases rows_or_faulty items with ⟨rows, rfl⟩ | ⟨rows, v, rest, split, none⟩
  · obtain ⟨v, member, none⟩ := faulty
    obtain ⟨r, -, rfl⟩ := List.mem_map.mp member
    exact absurd (isRow_envelope r) none
  · obtain ⟨f, why⟩ := Row.ofEnvelope_eq_error.mpr none
    exact ⟨rows, v, rest, f, split, none, why⟩

theorem Snapshot.ofEnvelope_eq_ok {v : Json} {s : Snapshot} :
    Snapshot.ofEnvelope v = .ok s ↔ v = s.envelope := by
  constructor
  · intro made
    cases v with
    | arr items =>
      rcases rows_or_faulty items with ⟨rows, rfl⟩ | ⟨rows, w, rest, rfl, faulty⟩
      · rw [ofEnvelope, ← List.append_nil (rows.map _), rowsOnto_envelopes] at made
        obtain rfl : Snapshot.mk rows = s := by simpa [rowsOnto, Except.map] using made
        rfl
      · obtain ⟨f, why⟩ := Row.ofEnvelope_eq_error.mpr faulty
        rw [ofEnvelope, rowsOnto_faulty why] at made
        cases made
    | _ => cases made
  · rintro rfl
    rw [envelope, ofEnvelope, ← List.append_nil (s.rows.map _), rowsOnto_envelopes]
    simp [rowsOnto, Except.map]

/-! ### Bodies -/

theorem Snapshot.read_eq_ok {body : List UInt8} {s : Snapshot} :
    Snapshot.read body = .ok s ↔ Json.parse body = .ok s.envelope := by
  unfold Snapshot.read ofBody
  cases Json.parse body with
  | error why => simp
  | ok v =>
    simp only [Except.ok.injEq, ← ofEnvelope_eq_ok]
    cases ofEnvelope v <;> simp

theorem Snapshot.read_faulty {body : List UInt8} {rows : List Row} {v : Json} {rest : List Json}
    {f : RowFault} (parsed : Json.parse body = .ok (.arr (rows.map Row.envelope ++ v :: rest)))
    (faulty : Row.ofEnvelope v = .error f) :
    Snapshot.read body = .error (.decode (SnapshotFault.row rows.length f).reason) := by
  unfold Snapshot.read ofBody
  simp only [parsed, ofEnvelope, rowsOnto_faulty faulty, Except.map]

structure SnapshotReading (body : List UInt8) : Prop where
  accepted : ∀ s : Snapshot, Snapshot.read body = .ok s ↔
    Json.parse body = .ok (.arr (s.rows.map fun r => .arr [r.key.json, .arr [.obj r.value]]))
  readable : (∃ s, Snapshot.read body = .ok s) ↔
    ∃ items, Json.parse body = .ok (.arr items) ∧ ∀ v ∈ items, IsRow v
  -- The first value that is no row is reported with its index.
  faulty : ∀ items, Json.parse body = .ok (.arr items) → (∃ v ∈ items, ¬ IsRow v) →
    ∃ i v f, items[i]? = some v ∧ ¬ IsRow v ∧ (∀ j w, j < i → items[j]? = some w → IsRow w) ∧
      Snapshot.read body = .error (.decode ("row " ++ Decimal.ofNat i ++ ": " ++ RowFault.reason f))
  -- What follows it makes no difference.
  unread : ∀ body' front rest rest', Json.parse body = .ok (.arr (front ++ rest)) →
    Json.parse body' = .ok (.arr (front ++ rest')) → (∃ v ∈ front, ¬ IsRow v) →
      Snapshot.read body = Snapshot.read body'
  noList : (∀ items, Json.parse body ≠ .ok (.arr items)) →
    ∃ reason, Snapshot.read body = .error (.decode reason)

/-- Every body is read as `SnapshotReading` says. -/
theorem snapshot_reading (body : List UInt8) : SnapshotReading body where
  accepted s := Snapshot.read_eq_ok
  readable := by
    constructor
    · rintro ⟨s, read⟩
      refine ⟨_, Snapshot.read_eq_ok.mp read, ?_⟩
      intro v member
      obtain ⟨r, -, rfl⟩ := List.mem_map.mp member
      exact isRow_envelope r
    · rintro ⟨items, parsed, whole⟩
      rcases rows_or_faulty items with ⟨rows, rfl⟩ | ⟨rows, v, rest, rfl, none⟩
      · exact ⟨⟨rows⟩, Snapshot.read_eq_ok.mpr parsed⟩
      · exact absurd (whole v (by simp)) none
  faulty := by
    intro items parsed faulty
    obtain ⟨rows, v, rest, f, rfl, none, why⟩ := exists_first_faulty faulty
    refine ⟨rows.length, v, f, by simp, none, ?_, Snapshot.read_faulty parsed why⟩
    intro j w before found
    rw [List.getElem?_append_left (by simpa using before)] at found
    obtain ⟨r, -, rfl⟩ := List.mem_map.mp (List.mem_of_getElem? found)
    exact isRow_envelope r
  unread := by
    intro body' front rest rest' parsed parsed' faulty
    obtain ⟨rows, v, between, f, rfl, -, why⟩ := exists_first_faulty faulty
    rw [List.append_assoc, List.cons_append] at parsed parsed'
    rw [Snapshot.read_faulty parsed why, Snapshot.read_faulty parsed' why]
  noList := by
    intro noList
    unfold Snapshot.read Snapshot.ofBody
    cases parsed : Json.parse body with
    | error why => exact ⟨_, rfl⟩
    | ok v =>
      cases v with
      | arr items => exact absurd parsed (noList items)
      | _ => exact ⟨_, rfl⟩

example : Snapshot.ofEnvelope (.arr [.arr [.int 1, .arr [.obj []]], .arr [.null, .arr []], .null]) =
    .error (.row 1 (.key "null")) := rfl

end Postboard.Reactive
