import Postboard.Json.Merge
import Postboard.Proofs.Json.Nested

/-! What a merge of objects holds under a key, and that merging keeps values ordered. -/

set_option autoImplicit false

namespace Postboard.Json

theorem merge_other {upper : Json} (plain : upper.isObject = false) (lower : Json) :
    merge lower upper = upper := by
  cases upper with
  | obj => cases plain
  | _ => simp [merge]

theorem merge_onto_other {lower : Json} (plain : lower.isObject = false) (members : Members) :
    merge lower (.obj members) = .obj members := by
  cases lower with
  | obj => cases plain
  | _ => simp [merge]

/-- The upper value decides whether the merged one is an object. -/
theorem isObject_merge (lower upper : Json) : (merge lower upper).isObject = upper.isObject := by
  rcases object_or_plain upper with ⟨members, rfl⟩ | plain
  · rcases object_or_plain lower with ⟨under, rfl⟩ | plain
    · rw [merge, isObject_obj, isObject_obj]
    · rw [merge_onto_other plain]
  · rw [merge_other plain]

theorem find?_mergeMembers {members : Members} (sorted : Assoc.Sorted members) (under : Members)
    (k : String) :
    Assoc.find? k (mergeMembers under members) =
      match Assoc.find? k members with
      | some v => some (merge ((Assoc.find? k under).getD .null) v)
      | none => Assoc.find? k under := by
  induction members generalizing under with
  | nil => simp [mergeMembers, Assoc.find?]
  | cons e rest ih =>
    obtain ⟨k', v⟩ := e
    have later := (Assoc.sorted_cons.mp sorted).2
    rw [mergeMembers, ih later, Assoc.find?_insert]
    by_cases same : k = k'
    -- A key of a sorted list does not occur again, so what it is given here stays.
    · subst same
      simp [sorted.find?_tail, Assoc.find?]
    · simp [Assoc.find?, same]

theorem ordered_insert {members : Members} (ordered : (Json.obj members).Ordered) (k : String)
    {v : Json} (value : v.Ordered) : (Json.obj (Assoc.insert k v members)).Ordered := by
  obtain ⟨sorted, inside⟩ := ordered_obj.mp ordered
  refine ordered_obj.mpr ⟨sorted.insert k v, ?_⟩
  intro e member
  rcases Assoc.mem_insert member with rfl | old
  · exact value
  · exact inside e old

theorem ordered_find? {members : Members} (ordered : (Json.obj members).Ordered) (k : String) :
    ((Assoc.find? k members).getD .null).Ordered := by
  cases found : Assoc.find? k members with
  | none => simp [Ordered]
  | some v => exact (ordered_obj.mp ordered).2 (k, v) (Assoc.mem_of_find? found)

theorem ordered_mergeMembers {members : Members}
    (inside : ∀ e ∈ members, ∀ lower : Json, lower.Ordered → (merge lower e.2).Ordered)
    {under : Members} (ordered : (Json.obj under).Ordered) :
    (Json.obj (mergeMembers under members)).Ordered := by
  -- Each step leaves an ordered object for the next one to be merged into.
  induction members generalizing under with
  | nil => exact ordered
  | cons e rest ih =>
    have merged := inside e List.mem_cons_self _ (ordered_find? ordered e.1)
    rw [mergeMembers]
    exact ih (fun e' member => inside e' (List.mem_cons_of_mem _ member))
      (ordered_insert ordered e.1 merged)

theorem ordered_merge {upper : Json} (ordered : upper.Ordered) {lower : Json}
    (under : lower.Ordered) : (merge lower upper).Ordered := by
  induction upper using nested generalizing lower with
  | leaf v leaf =>
    cases v with
    | arr => cases leaf
    | obj => cases leaf
    | _ => simpa [merge] using ordered
  | arr items ih => simpa [merge] using ordered
  | obj members ih =>
    have inside := (ordered_obj.mp ordered).2
    cases lower with
    | obj members' =>
      rw [merge]
      exact ordered_mergeMembers (fun e member lower => ih e member (inside e member)) under
    | _ => simpa [merge] using ordered

end Postboard.Json
