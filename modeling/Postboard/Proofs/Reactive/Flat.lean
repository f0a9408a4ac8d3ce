import Mathlib.Data.List.Forall2
import Postboard.Proofs.Assoc
import Postboard.Proofs.Json.Path
import Postboard.Proofs.Reactive.Envelope

/-! What the rows of a snapshot are shown as.

A row is shown as its object. The key of the row comes in under `id` when the object has no `id`, and
never in the place of one, so showing what is shown already changes nothing more.
-/

set_option autoImplicit false

namespace Postboard.Reactive

open Text

/-! ### One row -/

def Row.shown (r : Row) : Json.Members :=
  if Assoc.contains "id" r.value then r.value else Assoc.insert "id" r.key.json r.value

/-- What a value with a key is shown as. -/
structure Keyed (key : Json) (value shown : Json.Members) : Prop where
  own : ∀ id, Assoc.find? "id" value = some id → shown = value
  filled : Assoc.find? "id" value = none →
    shown.Perm (("id", key) :: value) ∧ Assoc.find? "id" shown = some key
  others : ∀ k rest, k ≠ "id" →
    (Json.obj shown).at? (.key k :: rest) = (Json.obj value).at? (.key k :: rest)

theorem Row.flat_eq (r : Row) : r.flat = .obj r.shown := by
  unfold flat shown
  split <;> rfl

theorem Row.shown_own {r : Row} {id : Json} (own : Assoc.find? "id" r.value = some id) :
    r.shown = r.value := by
  simp [shown, Assoc.contains, own]

theorem Row.shown_filled {r : Row} (absent : Assoc.find? "id" r.value = none) :
    r.shown = Assoc.insert "id" r.key.json r.value := by
  simp [shown, Assoc.contains, absent]

theorem Row.find?_shown (r : Row) (k : String) : Assoc.find? k r.shown =
    if k = "id" then (Assoc.find? "id" r.value).or (some r.key.json)
    else Assoc.find? k r.value := by
  cases own : Assoc.find? "id" r.value with
  | some id =>
    rw [shown_own own]
    split
    next here => rw [here, own, Option.some_or]
    next => rfl
  | none => rw [shown_filled own, Assoc.find?_insert, Option.none_or]

theorem Row.keyed (r : Row) : Keyed r.key.json r.value r.shown where
  own _ own := shown_own own
  filled absent := by
    refine ⟨?_, by rw [find?_shown, if_pos rfl, absent, Option.none_or]⟩
    rw [shown_filled absent]
    exact Assoc.insert_perm absent _
  others k rest other := by
    have same : (Json.obj r.shown).down? (.key k) = (Json.obj r.value).down? (.key k) := by
      rw [Json.down?, Json.down?, find?_shown, if_neg other]
    rw [Json.at?, Json.at?, same]

/-! ### Rows wrapped again -/

def Row.again (r : Row) : Row := { r with value := r.shown }

theorem Row.flat_again (r : Row) : r.again.flat = r.flat := by
  have own : ∃ id, Assoc.find? "id" r.again.value = some id := by
    rw [again, find?_shown, if_pos rfl]
    cases Assoc.find? "id" r.value with
    | some id => exact ⟨id, rfl⟩
    | none => exact ⟨r.key.json, rfl⟩
  obtain ⟨id, own⟩ := own
  rw [flat_eq, flat_eq, shown_own own]
  rfl

theorem Row.envelope_again (r : Row) : r.again.envelope = .arr [r.key.json, .arr [r.flat]] := by
  rw [flat_eq]
  rfl

def Snapshot.again (s : Snapshot) : Snapshot := ⟨s.rows.map Row.again⟩

theorem Snapshot.flat_again (s : Snapshot) : s.again.flat = s.flat := by
  simp only [flat, again, List.map_map, Function.comp_def, Row.flat_again]

theorem Snapshot.envelope_again (s : Snapshot) :
    s.again.envelope = .arr (s.rows.map fun r => .arr [r.key.json, .arr [r.flat]]) := by
  simp only [envelope, again, List.map_map, Function.comp_def, Row.envelope_again]

/-! ### Bodies -/

def ShownAs (item v : Json) : Prop :=
  ∃ key value shown, item = .arr [key, .arr [.obj value]] ∧ v = .obj shown ∧ Keyed key value shown

structure Flattened (body : List UInt8) (s : Snapshot) : Prop where
  rows : ∃ items values, Json.parse body = .ok (.arr items) ∧ s.flat = .arr values ∧
    List.Forall₂ ShownAs items values
  -- Wrapped with the keys of their rows and shown again, the objects are the same.
  again : ∃ s', s'.flat = s.flat ∧
    Snapshot.ofEnvelope (.arr (s.rows.map fun r => .arr [r.key.json, .arr [r.flat]])) = .ok s' ∧
    ∀ body', Json.parse body' =
      .ok (.arr (s.rows.map fun r => .arr [r.key.json, .arr [r.flat]])) →
        Snapshot.read body' = .ok s'

theorem Snapshot.flattened {body : List UInt8} {s : Snapshot}
    (accepted : Snapshot.read body = .ok s) : Flattened body s where
  rows := by
    refine ⟨_, _, read_eq_ok.mp accepted, rfl, ?_⟩
    rw [List.forall₂_map_left_iff, List.forall₂_map_right_iff, List.forall₂_same]
    exact fun r _ => ⟨_, _, _, rfl, r.flat_eq, r.keyed⟩
  again := by
    have wrapped := s.envelope_again
    refine ⟨s.again, s.flat_again, ofEnvelope_eq_ok.mpr wrapped.symm, fun body' parsed => ?_⟩
    rw [← wrapped] at parsed
    exact read_eq_ok.mpr parsed

end Postboard.Reactive
