import Mathlib.Data.List.Induction
import Postboard.Proofs.Config.Load
import Postboard.Proofs.Json.Settled
import Postboard.Proofs.LastWord

/-! Which document of a list has the last word about what stands under some keys. -/

set_option autoImplicit false

namespace Postboard.Config

open Json

/-- A document has a value that settles what is under some keys. -/
def Speaks (keys : List String) (d : Option Json) : Prop := ∃ v, d = some v ∧ v.Settles keys

/-- A document has a value with one that is no object under some keys. -/
def Says (keys : List String) (w : Json) (d : Option Json) : Prop :=
  ∃ v, d = some v ∧ v.PlainAt keys w

theorem speaks_some {keys : List String} {v : Json} : Speaks keys (some v) ↔ v.Settles keys := by
  simp [Speaks]

theorem speaks_none {keys : List String} : ¬ Speaks keys none := by simp [Speaks]

theorem says_some {keys : List String} {v w : Json} :
    Says keys w (some v) ↔ v.PlainAt keys w := by
  simp [Says]

theorem merged_snoc (documents : List (Option Json)) (d : Option Json) :
    merged (documents ++ [d]) = overlay (merged documents) d := by
  simp [merged]

/-- Which document of a list a value in its place comes from, if the upper of two values decides
what holds of them merged. -/
theorem holdsAt_merged {P : Json → Prop}
    (kept : ∀ lower upper : Json, P (merge lower upper) ↔ P upper) {documents : List (Option Json)}
    (ordered : ∀ v, some v ∈ documents → v.Ordered) {keys : List String}
    (bare : ¬ (Json.obj []).HoldsAt P keys) :
    (merged documents).HoldsAt P keys ↔
      LastWord (Speaks keys) (fun d => ∃ v, d = some v ∧ v.HoldsAt P keys) documents := by
  -- Documents are laid over one another from the first on, so the last one is taken off here.
  induction documents using List.reverseRecOn with
  | nil => simp only [merged, List.foldl_nil, bare, lastWord_nil]
  | append_singleton documents d ih =>
    have before : ∀ v, some v ∈ documents → v.Ordered :=
      fun v member => ordered v (by simp [member])
    rw [merged_snoc, lastWord_snoc, ← ih before]
    cases d with
    | none => simp [overlay, speaks_none]
    | some v => simp [overlay, holdsAt_merge kept (ordered v (by simp)), speaks_some]

theorem plainAt_merged {documents : List (Option Json)}
    (ordered : ∀ v, some v ∈ documents → v.Ordered) {keys : List String} {w : Json} :
    (merged documents).PlainAt keys w ↔ LastWord (Speaks keys) (Says keys w) documents := by
  have bare : ¬ (Json.obj []).HoldsAt (fun x => x = w ∧ x.isObject = false) keys := by
    cases keys with
    | nil => simp [holdsAt_nil, isObject_obj]
    | cons => simp [holdsAt_object, Assoc.find?]
  have told : Says keys w =
      fun d => ∃ v, d = some v ∧ v.HoldsAt (fun x => x = w ∧ x.isObject = false) keys := by
    funext d
    simp only [Says, plainAt_iff]
  rw [plainAt_iff, told]
  exact holdsAt_merged plain_merge_iff ordered bare

structure Layering (documents : List (Option Json)) : Prop where
  -- A value that is no object stands there when some document has it there and no later one speaks
  -- about the place, and only then.
  last : ∀ keys w, (merged documents).PlainAt keys w ↔
    LastWord (Speaks keys) (Says keys w) documents
  -- Such a value survives documents that do not speak about it.
  kept : ∀ earlier later, documents = earlier ++ later → ∀ keys w,
    (merged earlier).PlainAt keys w → (∀ e ∈ later, ¬ Speaks keys e) →
      (merged documents).PlainAt keys w
  cleared : ∀ earlier v, documents = earlier ++ [some v] → ∀ keys w, v.PlainAt keys w →
    ∀ k ks, (merged documents).under? (keys ++ k :: ks) = none
  nulls : ∀ earlier later, documents = earlier ++ none :: later →
    merged documents = merged (earlier ++ later)

theorem layering {documents : List (Option Json)}
    (ordered : ∀ v, some v ∈ documents → v.Ordered) : Layering documents where
  last keys w := plainAt_merged ordered
  kept := by
    rintro earlier later rfl keys w here silent
    have before : ∀ v, some v ∈ earlier → v.Ordered := fun v member => ordered v (by simp [member])
    exact (plainAt_merged ordered).mpr (((plainAt_merged before).mp here).append silent)
  cleared := by
    rintro earlier v rfl keys w here k ks
    rw [merged_snoc, overlay]
    exact under?_merge_below (ordered v (by simp)) _ here k ks
  nulls := by
    rintro earlier later rfl
    simp [merged, overlay]

/-! ### Documents of texts -/

/-- A value that is nothing but null, under tags or not. -/
inductive HoldsNull : Yaml.Value → Prop where
  | null : HoldsNull .null
  | tagged {v : Yaml.Value} (tag : String) : HoldsNull v → HoldsNull (.tagged tag v)

theorem isNull_iff {v : Yaml.Value} : v.isNull = true ↔ HoldsNull v := by
  constructor
  · intro null
    induction v using Yaml.Value.isNull.induct with
    | case1 => exact .null
    | case2 tag v ih => exact .tagged tag (ih null)
    | case3 v => simp [Yaml.Value.isNull] at null
  · intro empty
    induction empty with
    | null => rfl
    | tagged tag _ ih => exact ih

/-- What a text lays over others: nothing when it holds null, and else the JSON value of what it
holds. -/
inductive LaysOver (cs : List Char) : Option Json → Prop where
  | nothing {v : Yaml.Value} : Yaml.Document.parse cs = some v → HoldsNull v → LaysOver cs none
  | value {v : Yaml.Value} {j : Json} : Yaml.Document.parse cs = some v → ¬ HoldsNull v →
      v.json? = some j → LaysOver cs (some j)

theorem laysOver_iff {cs : List Char} {d : Option Json} : LaysOver cs d ↔ document cs = .ok d := by
  unfold document
  constructor
  · rintro (⟨parsed, empty⟩ | ⟨parsed, full, value⟩)
    · simp only [parsed, isNull_iff.mpr empty, if_true]
    · simp only [parsed, mt isNull_iff.mp full, value, Bool.false_eq_true, if_false]
  · intro made
    split at made
    next => cases made
    next v parsed =>
      split at made
      next null =>
        obtain rfl := Except.ok.inj made
        exact .nothing parsed (isNull_iff.mp null)
      next full =>
        split at made
        next => cases made
        next j value =>
          obtain rfl := Except.ok.inj made
          exact .value parsed (mt isNull_iff.mpr full) value

/-- Documents are layered as `Layering` says, those of texts that load among them. -/
theorem documents_layered :
    (∀ documents : List (Option Json), (∀ v, some v ∈ documents → v.Ordered) →
      Layering documents) ∧
    ∀ texts vs, documents texts = .ok vs →
      List.Forall₂ LaysOver texts vs ∧ Layering vs ∧
        ∀ loaded, loadTexts texts = .ok loaded → loaded.source = merged vs := by
  refine ⟨fun vs ordered => layering ordered, fun texts vs read => ⟨?_, ?_, ?_⟩⟩
  · exact (documents_eq_ok.mp read).imp fun _ _ => laysOver_iff.mpr
  · exact layering (ordered_documents read)
  · intro loaded made
    rw [loadTexts, read] at made
    exact (ofMerged_eq_ok made).1

/-- After a document that is no number, an object, nothing but a tag, null over the object, and the
object again with another member. -/
def relaidTexts : List (List Char) :=
  ["z: 0".toList, ".nan".toList, "a: \x7bb: 1\x7d\nc: x".toList, "!t".toList, "a:".toList,
    "a: \x7bd: []\x7d".toList]

def relaid : List (Option Json) :=
  [some (.obj [("z", .int 0)]), some .null, some (.obj [("a", .obj [("b", .int 1)]), ("c", .str "x")]),
    none, some (.obj [("a", .null)]), some (.obj [("a", .obj [("d", .arr [])])])]

theorem relaid_layered :
    documents relaidTexts = .ok relaid ∧ (∀ v, some v ∈ relaid → v.Ordered) ∧ Layering relaid ∧
      (merged relaid).PlainAt ["c"] (.str "x") ∧ (merged relaid).PlainAt ["a", "d"] (.arr []) ∧
      (merged relaid).under? ["a", "b"] = none ∧ (merged relaid).under? ["z"] = none ∧
      ∃ loaded, loadTexts relaidTexts = .ok loaded ∧ loaded.source = merged relaid := by
  have read : documents relaidTexts = .ok relaid := rfl
  have ordered := ordered_documents read
  refine ⟨read, ordered, documents_layered.1 relaid ordered, ⟨rfl, rfl⟩, ⟨rfl, rfl⟩, rfl, rfl,
    ?_⟩
  have clear : refuseSecrets (merged relaid) = .ok () := rfl
  have fits : ofJson (merged relaid) = .ok standard := rfl
  have made : loadTexts relaidTexts = .ok ⟨standard, merged relaid, hash (merged relaid)⟩ := by
    rw [loadTexts, read]
    simp only [Except.bind, load, ofMerged, clear, fits]
  exact ⟨_, made, (documents_layered.2 relaidTexts relaid read).2.2 _ made⟩

end Postboard.Config
