import Postboard.Proofs.Assoc
import Postboard.Json.Basic

/-! Induction over nested values, and what it means for them to be ordered. -/

set_option autoImplicit false

namespace Postboard.Json

/-- Whether a value holds no others, whatever it may hold. -/
def isLeaf : Json → Bool
  | .arr _ => false
  | .obj _ => false
  | _ => true

def isObject : Json → Bool
  | .obj _ => true
  | _ => false

theorem isObject_obj (members : Members) : (Json.obj members).isObject = true := rfl

theorem object_or_plain (v : Json) : (∃ members, v = .obj members) ∨ v.isObject = false := by
  cases v with
  | obj members => exact .inl ⟨members, rfl⟩
  | _ => exact .inr rfl

theorem exists_members {v : Json} (object : v.isObject = true) : ∃ members, v = .obj members := by
  rcases object_or_plain v with whole | plain
  · exact whole
  · rw [object] at plain
    cases plain

theorem plain_of_leaf {v : Json} (leaf : v.isLeaf = true) : v.isObject = false := by
  cases v with
  | obj => cases leaf
  | _ => rfl

/-- What holds of leaves, and of a list or an object when it holds of everything in it, holds of all
values. -/
@[elab_as_elim]
theorem nested {motive : Json → Prop} (leaf : ∀ v, v.isLeaf = true → motive v)
    (arr : ∀ items, (∀ v ∈ items, motive v) → motive (.arr items))
    (obj : ∀ members : Members, (∀ e ∈ members, motive e.2) → motive (.obj members)) (v : Json) :
    motive v := by
  refine @Json.rec motive (fun items => ∀ v ∈ items, motive v)
    (fun members => ∀ e ∈ members, motive e.2) (fun e => motive e.2)
    (leaf _ rfl) (fun _ => leaf _ rfl) (fun _ => leaf _ rfl) (fun _ => leaf _ rfl) arr obj
    ?_ ?_ ?_ ?_ ?_ v
  · exact fun _ member => absurd member List.not_mem_nil
  · intro v rest here later w member
    rcases List.mem_cons.mp member with rfl | tail
    · exact here
    · exact later w tail
  · exact fun _ member => absurd member List.not_mem_nil
  · intro e rest here later e' member
    rcases List.mem_cons.mp member with rfl | tail
    · exact here
    · exact later e' tail
  · exact fun _ _ value => value

/-! ### Ordered values -/

theorem orderedItems_iff {items : List Json} :
    OrderedItems items ↔ ∀ v ∈ items, v.Ordered := by
  induction items with
  | nil => simp [OrderedItems]
  | cons v rest ih => simp [OrderedItems, ih]

theorem orderedMembers_iff {members : Members} :
    OrderedMembers members ↔ ∀ e ∈ members, e.2.Ordered := by
  induction members with
  | nil => simp [OrderedMembers]
  | cons e rest ih => simp [OrderedMembers, ih]

theorem ordered_arr {items : List Json} : (Json.arr items).Ordered ↔ ∀ v ∈ items, v.Ordered := by
  rw [Ordered, orderedItems_iff]

theorem ordered_obj {members : Members} :
    (Json.obj members).Ordered ↔ Assoc.Sorted members ∧ ∀ e ∈ members, e.2.Ordered := by
  rw [Ordered, orderedMembers_iff]

theorem ordered_leaf {v : Json} (leaf : v.isLeaf = true) : v.Ordered := by
  cases v with
  | arr => cases leaf
  | obj => cases leaf
  | _ => trivial

end Postboard.Json
