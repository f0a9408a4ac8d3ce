import Postboard.Proofs.Http.Weight
import Postboard.Proofs.Text.Bytes

/-! Which `Accept` values ask for a stream.

The entries of all readable values are taken together. The first of three classes of media types
that has any entry decides, and it asks for a stream when none of its entries has weight zero.
-/

set_option autoImplicit false

namespace Postboard.Http.Accept

open Text

def Readable (value : List UInt8) : Prop := ∀ b ∈ value, (0x20 ≤ b ∧ b ≤ 0x7E) ∨ b = 0x09

def text (value : List UInt8) : List Char := value.map fun b => Char.ofNat b.toNat

/-- An entry is kept as a media type with a weight: what stands before the first semicolon names the
type, and each piece after it is a parameter. -/
structure Keeps (entry : List Char) (essence : String) (w : Weight) : Prop where
  named : essence.toList = lowered (trim (entry.takeWhile fun c => c != ';'))
  nonempty : essence.toList ≠ []
  slash : '/' ∈ essence.toList
  weighed : Weighs (entry.splitOn ';').tail w

def Offered (values : List (List UInt8)) (essence : String) (w : Weight) : Prop :=
  ∃ value ∈ values, Readable value ∧ ∃ entry ∈ (text value).splitOn ',', Keeps entry essence w

/-- The classes of media types that a stream belongs to, the most specific first. -/
def classes : List String := ["text/event-stream", "text/*", "*/*"]

/-! ### Entries -/

theorem isReadable_iff {value : List UInt8} : isReadable value = true ↔ Readable value := by
  simp [isReadable, Readable]

theorem Readable.repair {value : List UInt8} (readable : Readable value) :
    Utf8.repair value = text value := by
  apply Utf8.repair_ascii
  intro b member
  rcases readable b member with ⟨-, high⟩ | rfl
  · exact Std.lt_of_le_of_lt high (by decide)
  · decide

theorem entry?_eq_some {entry : List Char} {r : MediaRange} :
    entry? entry = some r ↔ Keeps entry r.essence r.weight := by
  unfold entry?
  rw [splitAt_eq_splitOn, splitOn_eq_cons]
  constructor
  · intro made
    dsimp only at made
    split at made
    next slash =>
      obtain ⟨w, weight, rfl⟩ := Option.map_eq_some_iff.mp made
      have member : '/' ∈ lowered (trim (entry.takeWhile fun c => c != ';')) := by
        simpa using slash
      refine ⟨by simp, ?_, by simpa using member, entryWeight?_eq_some.mp weight⟩
      simpa using List.ne_nil_of_mem member
    next => cases made
  · rintro ⟨named, -, slash, weighed⟩
    have weight := entryWeight?_eq_some.mpr weighed
    simp [← named, slash, weight]

theorem mem_allRanges {values : List (List UInt8)} {r : MediaRange} :
    r ∈ allRanges values ↔ Offered values r.essence r.weight := by
  simp only [allRanges, ranges, List.mem_flatMap, List.mem_filter, List.mem_filterMap,
    isReadable_iff, splitAt_eq_splitOn, entry?_eq_some, and_assoc, Offered]
  constructor
  · rintro ⟨value, member, readable, kept⟩
    exact ⟨value, member, readable, readable.repair ▸ kept⟩
  · rintro ⟨value, member, readable, kept⟩
    exact ⟨value, member, readable, readable.repair.symm ▸ kept⟩

theorem Offered.nonneg {values : List (List UInt8)} {essence : String} {w : Weight}
    (offered : Offered values essence w) : 0 ≤ w.amount := by
  obtain ⟨_, _, _, _, _, kept⟩ := offered
  rcases kept.weighed.last with ⟨-, rfl⟩ | ⟨_, _, _, _, ⟨_, _, reads⟩, _⟩
  · decide
  · exact reads.nonneg

/-! ### Classes -/

theorem positive_least (a b : Weight) :
    (a.least b).positive = true ↔ a.positive = true ∧ b.positive = true := by
  unfold Weight.least
  split <;> simp only [Weight.positive, decide_eq_true_eq] <;> omega

theorem positive_foldl_least (w : Weight) (ws : List Weight) :
    (ws.foldl Weight.least w).positive = true ↔ ∀ v ∈ w :: ws, v.positive = true := by
  induction ws generalizing w with
  | nil => simp
  | cons v ws ih => simp [ih, positive_least, and_assoc]

theorem classWeight?_eq_none {essence : String} {rs : List MediaRange} :
    classWeight? essence rs = none ↔ ∀ r ∈ rs, r.essence ≠ essence := by
  unfold classWeight?
  split
  next none => simpa using none
  next w ws some =>
    simp only [reduceCtorEq, false_iff, not_forall]
    have member : w ∈ (rs.filter fun r => r.essence = essence).map MediaRange.weight := by
      simp [some]
    obtain ⟨r, kept, -⟩ := List.mem_map.mp member
    obtain ⟨there, same⟩ := List.mem_filter.mp kept
    exact ⟨r, there, by simpa using same⟩

/-- The least weight of a class is positive when all its weights are. -/
theorem classWeight?_positive {essence : String} {rs : List MediaRange} {w : Weight}
    (least : classWeight? essence rs = some w) :
    w.positive = true ↔ ∀ r ∈ rs, r.essence = essence → r.weight.positive = true := by
  unfold classWeight? at least
  split at least
  · cases least
  next v vs weights =>
    cases least
    rw [positive_foldl_least, ← weights]
    simp only [List.forall_mem_map, List.mem_filter, decide_eq_true_eq, and_imp]

theorem streamWeight?_eq (rs : List MediaRange) :
    streamWeight? rs = classes.findSome? fun essence => classWeight? essence rs := by
  simp only [streamWeight?, eventStream, classes, List.findSome?_cons, List.findSome?_nil]
  cases classWeight? "text/event-stream" rs <;> cases classWeight? "text/*" rs <;>
    cases classWeight? "*/*" rs <;> rfl

theorem mode_eq_stream_iff (values : List (List UInt8)) :
    mode values = .stream ↔ ∃ w, streamWeight? (allRanges values) = some w ∧ w.positive = true := by
  unfold mode
  cases streamWeight? (allRanges values) with
  | none => simp
  | some w => cases positive : w.positive <;> simp [positive]

theorem mode_eq_snapshot_iff (values : List (List UInt8)) :
    mode values = .snapshot ↔ mode values ≠ .stream := by
  cases mode values <;> simp

theorem classWeight?_offered {values : List (List UInt8)} {essence : String} :
    classWeight? essence (allRanges values) = none ↔ ∀ w, ¬ Offered values essence w := by
  rw [classWeight?_eq_none]
  constructor
  · intro none w offered
    exact none ⟨essence, w⟩ (mem_allRanges.mpr offered) rfl
  · rintro none r member rfl
    exact none r.weight (mem_allRanges.mp member)

theorem positive_offered {values : List (List UInt8)} {essence : String} {w : Weight}
    (least : classWeight? essence (allRanges values) = some w) :
    w.positive = true ↔ ∀ v, Offered values essence v → 0 < v.amount := by
  rw [classWeight?_positive least]
  constructor
  · intro all v offered
    exact (Weight.amount_pos offered.nonneg).mp (all ⟨essence, v⟩ (mem_allRanges.mpr offered) rfl)
  · rintro all r member rfl
    have offered := mem_allRanges.mp member
    exact (Weight.amount_pos offered.nonneg).mpr (all r.weight offered)

/-- The first class of which anything is offered decides. -/
theorem stream_iff (values : List (List UInt8)) :
    mode values = .stream ↔ ∃ before essence after, classes = before ++ essence :: after ∧
      (∀ b ∈ before, ∀ w, ¬ Offered values b w) ∧ (∃ w, Offered values essence w) ∧
      ∀ w, Offered values essence w → 0 < w.amount := by
  rw [mode_eq_stream_iff, streamWeight?_eq]
  simp only [List.findSome?_eq_some_iff, classWeight?_offered]
  constructor
  · rintro ⟨w, ⟨before, essence, after, split, least, none⟩, positive⟩
    refine ⟨before, essence, after, split, none, ?_, (positive_offered least).mp positive⟩
    by_contra nothing
    rw [classWeight?_offered.mpr (not_exists.mp nothing)] at least
    cases least
  · rintro ⟨before, essence, after, split, none, ⟨v, offered⟩, positive⟩
    cases least : classWeight? essence (allRanges values) with
    | none => exact absurd offered (classWeight?_offered.mp least v)
    | some w =>
      exact ⟨w, ⟨before, essence, after, split, least, none⟩, (positive_offered least).mpr positive⟩

structure Negotiation (values : List (List UInt8)) : Prop where
  -- A stream, when the first class with any entry has positive weights only.
  stream : mode values = .stream ↔ ∃ before essence after, classes = before ++ essence :: after ∧
    (∀ b ∈ before, ∀ w, ¬ Offered values b w) ∧ (∃ w, Offered values essence w) ∧
    ∀ w, Offered values essence w → 0 < w.amount
  none : (∀ essence ∈ classes, ∀ w, ¬ Offered values essence w) → mode values = .snapshot
  excluded : ∀ w, Offered values "text/event-stream" w → w.amount = 0 → mode values = .snapshot

theorem negotiation (values : List (List UInt8)) : Negotiation values where
  stream := stream_iff values
  none := by
    intro nothing
    rw [mode_eq_snapshot_iff, Ne, stream_iff]
    rintro ⟨before, essence, after, split, -, ⟨w, offered⟩, -⟩
    exact nothing essence (by simp [split]) w offered
  excluded := by
    intro w offered zero
    rw [mode_eq_snapshot_iff, Ne, stream_iff]
    rintro ⟨before, essence, after, split, none, -, positive⟩
    cases before with
    | nil =>
      obtain ⟨rfl, -⟩ := List.cons.inj split
      have := positive w offered
      omega
    | cons b before =>
      obtain ⟨rfl, -⟩ := List.cons.inj split
      exact none _ List.mem_cons_self w offered

/-- Any other type is welcome here, but a weight of minus zero excludes the stream. -/
example : mode [Utf8.bytes "*/*, Text/Event-Stream; q=-0"] = .snapshot := by rfl

end Postboard.Http.Accept
