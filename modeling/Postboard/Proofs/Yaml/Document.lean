import Postboard.Proofs.Json.Nested
import Postboard.Yaml.Document

/-! The JSON value of a YAML value is ordered. -/

set_option autoImplicit false

namespace Postboard.Yaml.Value

theorem ordered_object {members : Json.Members} (inside : ∀ e ∈ members, e.2.Ordered) :
    (Json.object members).Ordered := by
  refine Json.ordered_obj.mpr ⟨Assoc.sorted_ofList members, ?_⟩
  intro e member
  exact inside e (Assoc.mem_ofList member)

mutual

theorem ordered_json? : ∀ {v : Value} {j : Json}, v.json? = some j → j.Ordered
  | .null, _, made => by cases made; simp [Json.Ordered]
  | .bool b, _, made => by cases made; simp [Json.Ordered]
  | .int n, _, made => by cases made; simp [Json.int, Json.Ordered]
  | .double d, _, made => by cases made; simp [Json.Ordered]
  | .infinite _, _, made => by cases made; simp [Json.Ordered]
  | .notNumber, _, made => by cases made; simp [Json.Ordered]
  | .str s, _, made => by cases made; simp [Json.Ordered]
  | .seq vs, _, whole => by
    rw [json?] at whole
    obtain ⟨items, made, rfl⟩ := Option.map_eq_some_iff.mp whole
    exact Json.ordered_arr.mpr (ordered_itemsJson? made)
  | .map es, _, whole => by
    rw [json?] at whole
    obtain ⟨members, made, rfl⟩ := Option.map_eq_some_iff.mp whole
    exact ordered_object (ordered_entriesJson? made)
  | .tagged tag v, _, whole => by
    rw [json?] at whole
    obtain ⟨j, made, rfl⟩ := Option.map_eq_some_iff.mp whole
    refine Json.ordered_obj.mpr ⟨List.pairwise_singleton _ _, ?_⟩
    intro e member
    obtain rfl := List.mem_singleton.mp member
    exact ordered_json? made

theorem ordered_itemsJson? : ∀ {vs : List Value} {items : List Json},
    itemsJson? vs = some items → ∀ v ∈ items, v.Ordered
  | [], _, made => by cases made; simp
  | v :: rest, _, made => by
    simp only [itemsJson?, Option.bind_eq_bind, Option.bind_eq_some_iff] at made
    obtain ⟨j, here, js, later, made⟩ := made
    obtain rfl := Option.some.inj made
    intro w member
    rcases List.mem_cons.mp member with rfl | tail
    · exact ordered_json? here
    · exact ordered_itemsJson? later w tail

theorem ordered_entriesJson? : ∀ {es : List (Value × Value)} {members : Json.Members},
    entriesJson? es = some members → ∀ e ∈ members, e.2.Ordered
  | [], _, made => by cases made; simp
  | (k, v) :: rest, _, made => by
    simp only [entriesJson?, Option.bind_eq_bind, Option.bind_eq_some_iff] at made
    obtain ⟨key, -, j, here, js, later, made⟩ := made
    obtain rfl := Option.some.inj made
    intro e member
    rcases List.mem_cons.mp member with rfl | tail
    · exact ordered_json? here
    · exact ordered_entriesJson? later e tail

end

end Postboard.Yaml.Value
