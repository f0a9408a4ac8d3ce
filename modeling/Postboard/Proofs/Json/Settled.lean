import Postboard.Proofs.Json.Merge
import Postboard.Proofs.Json.Path

/-! What stands under keys in a merged value.

A value settles what is under some keys when it has a value there, or a value on the way there that
is no object. A merged value has the plain values of the upper one, and of the lower one those that
the upper one does not settle.
-/

set_option autoImplicit false

namespace Postboard.Json

def under? (v : Json) (keys : List String) : Option Json := v.at? (keys.map Step.key)

def Settles (v : Json) (keys : List String) : Prop :=
  (∃ w, v.under? keys = some w) ∨
    ∃ front key back w, keys = front ++ key :: back ∧ v.under? front = some w ∧ w.isObject = false

def PlainAt (v : Json) (keys : List String) (w : Json) : Prop :=
  v.under? keys = some w ∧ w.isObject = false

theorem under?_nil (v : Json) : v.under? [] = some v := rfl

theorem under?_object (members : Members) (k : String) (ks : List String) :
    (Json.obj members).under? (k :: ks) = (Assoc.find? k members).bind fun w => w.under? ks := rfl

theorem under?_single (members : Members) (k : String) :
    (Json.obj members).under? [k] = Assoc.find? k members := by
  rw [under?_object]
  cases Assoc.find? k members <;> rfl

theorem under?_other {v : Json} (plain : v.isObject = false) (k : String) (ks : List String) :
    v.under? (k :: ks) = none := by
  cases v with
  | obj => cases plain
  | _ => rfl

theorem under?_append (v : Json) (front back : List String) :
    v.under? (front ++ back) = (v.under? front).bind fun w => w.under? back := by
  rw [under?, List.map_append, at?_append]
  rfl

/-! ### What is settled -/

theorem settles_nil (v : Json) : v.Settles [] := .inl ⟨v, rfl⟩

theorem settles_other {v : Json} (plain : v.isObject = false) (k : String) (ks : List String) :
    v.Settles (k :: ks) := .inr ⟨[], k, ks, v, rfl, rfl, plain⟩

theorem settles_object (members : Members) (k : String) (ks : List String) :
    (Json.obj members).Settles (k :: ks) ↔ ∃ w, Assoc.find? k members = some w ∧ w.Settles ks := by
  constructor
  · rintro (⟨x, reached⟩ | ⟨front, key, back, x, split, reached, plain⟩)
    · obtain ⟨w, found, below⟩ := Option.bind_eq_some_iff.mp reached
      exact ⟨w, found, .inl ⟨x, below⟩⟩
    · cases front with
      | nil =>
        obtain rfl : Json.obj members = x := Option.some.inj reached
        cases plain
      | cons k' front =>
        obtain ⟨rfl, rfl⟩ := List.cons.inj split
        obtain ⟨w, found, below⟩ := Option.bind_eq_some_iff.mp reached
        exact ⟨w, found, .inr ⟨front, key, back, x, rfl, below, plain⟩⟩
  · rintro ⟨w, found, ⟨x, below⟩ | ⟨front, key, back, x, rfl, below, plain⟩⟩
    · exact .inl ⟨x, by rw [under?_object, found]; exact below⟩
    · exact .inr ⟨k :: front, key, back, x, rfl, by rw [under?_object, found]; exact below, plain⟩

/-! ### Plain values -/

theorem plainAt_nil {v x : Json} : v.PlainAt [] x ↔ v = x ∧ v.isObject = false := by
  constructor
  · rintro ⟨reached, plain⟩
    obtain rfl : v = x := Option.some.inj reached
    exact ⟨rfl, plain⟩
  · rintro ⟨rfl, plain⟩
    exact ⟨rfl, plain⟩

theorem plainAt_object {members : Members} {k : String} {ks : List String} {x : Json} :
    (Json.obj members).PlainAt (k :: ks) x ↔
      ∃ w, Assoc.find? k members = some w ∧ w.PlainAt ks x := by
  simp only [PlainAt, under?_object, Option.bind_eq_some_iff]
  constructor
  · rintro ⟨⟨w, found, below⟩, plain⟩
    exact ⟨w, found, below, plain⟩
  · rintro ⟨w, found, below, plain⟩
    exact ⟨⟨w, found, below⟩, plain⟩

/-! ### What holds of a value in its place -/

def HoldsAt (P : Json → Prop) (v : Json) (keys : List String) : Prop :=
  ∃ w, v.under? keys = some w ∧ P w

variable {P : Json → Prop}

theorem holdsAt_nil {v : Json} : v.HoldsAt P [] ↔ P v := by
  constructor
  · rintro ⟨w, reached, holds⟩
    obtain rfl : v = w := Option.some.inj reached
    exact holds
  · exact fun holds => ⟨v, rfl, holds⟩

theorem holdsAt_object {members : Members} {k : String} {ks : List String} :
    (Json.obj members).HoldsAt P (k :: ks) ↔
      ∃ w, Assoc.find? k members = some w ∧ w.HoldsAt P ks := by
  simp only [HoldsAt, under?_object, Option.bind_eq_some_iff]
  constructor
  · rintro ⟨x, ⟨w, found, below⟩, holds⟩
    exact ⟨w, found, x, below, holds⟩
  · rintro ⟨w, found, x, below, holds⟩
    exact ⟨x, ⟨w, found, below⟩, holds⟩

theorem not_holdsAt_other {v : Json} (plain : v.isObject = false) {k : String} {ks : List String} :
    ¬ v.HoldsAt P (k :: ks) := by
  rintro ⟨w, reached, -⟩
  rw [under?_other plain] at reached
  cases reached

/-- What the merged value of two objects has under a key, in terms of what each of them has. -/
theorem holdsAt_mergeMembers {members : Members} (sorted : Assoc.Sorted members) (under : Members)
    {k : String} {ks : List String}
    (deeper : ∀ w, Assoc.find? k members = some w → ∀ lower : Json,
      (merge lower w).HoldsAt P ks ↔ w.HoldsAt P ks ∨ lower.HoldsAt P ks ∧ ¬ w.Settles ks) :
    (Json.obj (mergeMembers under members)).HoldsAt P (k :: ks) ↔
      (Json.obj members).HoldsAt P (k :: ks) ∨
        (Json.obj under).HoldsAt P (k :: ks) ∧ ¬ (Json.obj members).Settles (k :: ks) := by
  simp only [holdsAt_object, settles_object, find?_mergeMembers sorted]
  cases above : Assoc.find? k members with
  | none => simp
  | some w =>
    simp only [Option.some.injEq, exists_eq_left', deeper w above]
    cases below : Assoc.find? k under with
    | some lower => simp
    | none =>
      -- The null that a new key lies over has a value at no keys but none, and those are settled.
      cases ks with
      | nil => simp [settles_nil]
      | cons k' ks => simp [not_holdsAt_other (v := .null) rfl]

/-- What holds of a merged value when it holds of the upper one has its place in the upper value, or
in the lower one where the upper one does not settle it. -/
theorem holdsAt_merge (kept : ∀ lower upper : Json, P (merge lower upper) ↔ P upper) {upper : Json}
    (ordered : upper.Ordered) (lower : Json) {keys : List String} :
    (merge lower upper).HoldsAt P keys ↔
      upper.HoldsAt P keys ∨ lower.HoldsAt P keys ∧ ¬ upper.Settles keys := by
  induction keys generalizing upper lower with
  | nil => simp [holdsAt_nil, settles_nil, kept]
  | cons k ks ih =>
    rcases object_or_plain upper with ⟨members, rfl⟩ | plain
    · obtain ⟨sorted, inside⟩ := ordered_obj.mp ordered
      rcases object_or_plain lower with ⟨under, rfl⟩ | plain
      · rw [merge]
        apply holdsAt_mergeMembers sorted
        intro w found lower
        exact ih (inside (k, w) (Assoc.mem_of_find? found)) lower
      · simp [merge_onto_other plain, not_holdsAt_other plain]
    · simp [merge_other plain, not_holdsAt_other plain, settles_other plain]

/-- To be an object, or a given value that is none, is up to the upper one. -/
theorem isObject_merge_iff (lower upper : Json) :
    (merge lower upper).isObject = true ↔ upper.isObject = true := by
  rw [isObject_merge]

theorem plain_merge_iff {x : Json} (lower upper : Json) :
    merge lower upper = x ∧ (merge lower upper).isObject = false ↔
      upper = x ∧ upper.isObject = false := by
  rw [isObject_merge]
  exact and_congr_left fun plain => by rw [merge_other plain]

theorem plainAt_iff {v : Json} {keys : List String} {x : Json} :
    v.PlainAt keys x ↔ v.HoldsAt (fun w => w = x ∧ w.isObject = false) keys := by
  constructor
  · rintro ⟨reached, plain⟩
    exact ⟨x, reached, rfl, plain⟩
  · rintro ⟨x, reached, rfl, plain⟩
    exact ⟨reached, plain⟩

theorem plainAt_merge {upper : Json} (ordered : upper.Ordered) (lower : Json) {keys : List String}
    {x : Json} :
    (merge lower upper).PlainAt keys x ↔
      upper.PlainAt keys x ∨ lower.PlainAt keys x ∧ ¬ upper.Settles keys := by
  simp only [plainAt_iff]
  exact holdsAt_merge plain_merge_iff ordered lower

/-- Nothing is left under a plain value of the upper one. -/
theorem under?_merge_below {upper : Json} (ordered : upper.Ordered) (lower : Json)
    {keys : List String} {x : Json} (here : upper.PlainAt keys x) (k : String) (ks : List String) :
    (merge lower upper).under? (keys ++ k :: ks) = none := by
  obtain ⟨reached, plain⟩ := (plainAt_merge ordered lower).mpr (.inl here)
  rw [under?_append, reached]
  exact under?_other plain k ks

/-! ### Places tell the value -/

def ObjectAt (v : Json) (keys : List String) : Prop := v.HoldsAt (fun w => w.isObject = true) keys

/-- What stands under some keys is an object or none. -/
theorem under?_isSome {v : Json} {keys : List String} :
    (v.under? keys).isSome ↔ v.ObjectAt keys ∨ ∃ x, v.PlainAt keys x := by
  constructor
  · intro some
    obtain ⟨w, reached⟩ := Option.isSome_iff_exists.mp some
    cases kind : w.isObject with
    | true => exact .inl ⟨w, reached, kind⟩
    | false => exact .inr ⟨w, reached, kind⟩
  · rintro (⟨w, reached, -⟩ | ⟨x, reached, -⟩)
    · exact Option.isSome_iff_exists.mpr ⟨w, reached⟩
    · exact Option.isSome_iff_exists.mpr ⟨x, reached⟩

theorem objectAt_nil {v : Json} : v.ObjectAt [] ↔ ¬ ∃ x, v.PlainAt [] x := by
  simp [ObjectAt, holdsAt_nil, plainAt_nil]

/-- Values with the same in the same places are the same. -/
theorem eq_of_places {v w : Json} (ordered : v.Ordered) (ordered' : w.Ordered)
    (plain : ∀ keys x, v.PlainAt keys x ↔ w.PlainAt keys x)
    (objects : ∀ keys, v.ObjectAt keys ↔ w.ObjectAt keys) : v = w := by
  induction v using nested generalizing w with
  | leaf v leaf =>
    have here := (plain [] v).mp (plainAt_nil.mpr ⟨rfl, plain_of_leaf leaf⟩)
    exact (plainAt_nil.mp here).1.symm
  | arr items =>
    have here := (plain [] (.arr items)).mp (plainAt_nil.mpr ⟨rfl, rfl⟩)
    exact (plainAt_nil.mp here).1.symm
  | obj members same =>
    have root : w.isObject = true := holdsAt_nil.mp ((objects []).mp (holdsAt_nil.mpr rfl))
    rcases object_or_plain w with ⟨members', rfl⟩ | other
    · obtain ⟨sorted, inside⟩ := ordered_obj.mp ordered
      obtain ⟨sorted', inside'⟩ := ordered_obj.mp ordered'
      congr 1
      refine sorted.ext sorted' fun k => ?_
      have both : (Assoc.find? k members).isSome ↔ (Assoc.find? k members').isSome := by
        rw [← under?_single, ← under?_single, under?_isSome, under?_isSome, objects,
          exists_congr fun x => plain [k] x]
      cases here : Assoc.find? k members with
      | none =>
        cases there : Assoc.find? k members' with
        | none => rfl
        | some b => simp [here, there] at both
      | some a =>
        cases there : Assoc.find? k members' with
        | none => simp [here, there] at both
        | some b =>
          have member := Assoc.mem_of_find? here
          refine congrArg some (same (k, a) member (inside _ member)
            (inside' _ (Assoc.mem_of_find? there)) (fun ks x => ?_) fun ks => ?_)
          · simpa [plainAt_object, here, there] using plain (k :: ks) x
          · simpa [ObjectAt, holdsAt_object, here, there] using objects (k :: ks)
    · rw [other] at root
      cases root

end Postboard.Json
