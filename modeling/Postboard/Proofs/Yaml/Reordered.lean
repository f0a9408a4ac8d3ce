import Postboard.Proofs.Assoc
import Postboard.Yaml.Document

/-! Values that differ in the order of entries correspond to the same JSON value, and both are null
or neither is.
-/

set_option autoImplicit false

namespace Postboard.Yaml.Value

/-- Keys that are not the same key of a JSON object. -/
def KeysDiffer (k k' : Value) : Prop := ∀ key, k.key? = some key → k'.key? ≠ some key

/-- A value with some of its entries in another order, at any depth. -/
inductive Reordered : Value → Value → Prop where
  | refl (v : Value) : Reordered v v
  | trans {u v w : Value} : Reordered u v → Reordered v w → Reordered u w
  | swap (front back : List (Value × Value)) {k k' : Value} (v v' : Value) : KeysDiffer k k' →
      Reordered (.map (front ++ (k, v) :: (k', v') :: back))
        (.map (front ++ (k', v') :: (k, v) :: back))
  | entry (front back : List (Value × Value)) (k : Value) {v w : Value} : Reordered v w →
      Reordered (.map (front ++ (k, v) :: back)) (.map (front ++ (k, w) :: back))
  | item (front back : List Value) {v w : Value} : Reordered v w →
      Reordered (.seq (front ++ v :: back)) (.seq (front ++ w :: back))
  | tagged (tag : String) {v w : Value} : Reordered v w → Reordered (.tagged tag v) (.tagged tag w)

def memberJson? (e : Value × Value) : Option (String × Json) :=
  e.1.key?.bind fun key => e.2.json?.map fun j => (key, j)

theorem itemsJson?_eq (vs : List Value) : itemsJson? vs = vs.mapM json? := by
  induction vs with
  | nil => rfl
  | cons v rest ih => rw [itemsJson?, ih, List.mapM_cons]; rfl

theorem entriesJson?_eq (es : List (Value × Value)) : entriesJson? es = es.mapM memberJson? := by
  induction es with
  | nil => rfl
  | cons e rest ih =>
    obtain ⟨k, v⟩ := e
    rw [entriesJson?, ih, List.mapM_cons, memberJson?]
    cases k.key? <;> cases v.json? <;> rfl

theorem key?_of_memberJson? {e : Value × Value} {m : String × Json}
    (made : memberJson? e = some m) : e.1.key? = some m.1 := by
  obtain ⟨key, named, value⟩ := Option.bind_eq_some_iff.mp made
  obtain ⟨j, -, rfl⟩ := Option.map_eq_some_iff.mp value
  exact named

theorem Reordered.isNull_eq {v w : Value} (reordered : Reordered v w) : v.isNull = w.isNull := by
  induction reordered with
  | trans _ _ first second => rw [first, second]
  | tagged tag _ same => exact same
  | _ => rfl

theorem Reordered.json?_eq {v w : Value} (reordered : Reordered v w) : v.json? = w.json? := by
  induction reordered with
  | refl => rfl
  | trans _ _ first second => rw [first, second]
  | @swap front back k k' v v' differ =>
    simp only [json?, entriesJson?_eq, List.mapM_append, List.mapM_cons]
    cases here : memberJson? (k, v) with
    | none => cases memberJson? (k', v') <;> simp
    | some e =>
      cases there : memberJson? (k', v') with
      | none => simp
      | some e' =>
        have other : e.1 ≠ e'.1 :=
          fun same => differ e.1 (key?_of_memberJson? here) (same ▸ key?_of_memberJson? there)
        cases front.mapM memberJson? <;> cases back.mapM memberJson?
        all_goals simp [Json.object, Assoc.ofList_swap other]
  | entry front back k _ same =>
    simp only [json?, entriesJson?_eq, List.mapM_append, List.mapM_cons, memberJson?, same]
  | item front back _ same =>
    simp only [json?, itemsJson?_eq, List.mapM_append, List.mapM_cons, same]
  | tagged tag _ same => simp only [json?, same]

end Postboard.Yaml.Value
