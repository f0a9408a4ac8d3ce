import Postboard.Post.Reading
import Postboard.Proofs.Assoc
import Postboard.Proofs.Json.Struct

/-! Drafts that are written as objects: whatever the order of the members, the draft that is read
has the texts that were written.
-/

set_option autoImplicit false

namespace Postboard.Post

open Json Text

def texts (ps : List (String × String)) : Members := ps.map fun p => (p.1, .str p.2)

def names : List String := ["title", "url", "body"]

variable {ps : List (String × String)}

/-- Every name has a field, and it keeps the text under the name. -/
theorem field_takes (type : String) {name : String} (known : name ∈ names) (text : String)
    (found : List (String × String)) :
    ∃ f, (Draft.struct type).fields.find? (fun f => f.name = name) = some f ∧
      f.Takes (.str text) found ((name, text) :: found) := by
  have takes : (textField name).Takes (.str text) found ((name, text) :: found) :=
    .of (fun rest _ => stringValue_quote text rest) name _ found
  simp only [names, List.mem_cons, List.not_mem_nil, or_false] at known
  rcases known with rfl | rfl | rfl
  · exact ⟨_, rfl, takes⟩
  · exact ⟨{ textField "url" with optional := true }, rfl, takes⟩
  · exact ⟨_, rfl, takes⟩

theorem sets_texts (type : String) (known : ∀ p ∈ ps, p.1 ∈ names)
    (found : List (String × String)) :
    (Draft.struct type).Sets found (texts ps) (ps.reverse ++ found) := by
  induction ps generalizing found with
  | nil => exact .nil
  | cons p ps ih =>
    rw [List.forall_mem_cons] at known
    obtain ⟨f, here, takes⟩ := field_takes type known.1 p.2 found
    rw [List.reverse_cons, List.append_assoc, List.singleton_append]
    exact .cons here takes (ih known.2 _)

/-- A JSON text of a draft: its members in any order, where an empty address may be left out. -/
inductive Writes (draft : Draft) (text : List UInt8) : Prop where
  | full {ps : List (String × String)} :
      ps.Perm [("title", draft.title), ("url", draft.url), ("body", draft.body)] →
      text = (Json.obj (texts ps)).bytes → Writes draft text
  | short {ps : List (String × String)} : draft.url = "" →
      ps.Perm [("title", draft.title), ("body", draft.body)] →
      text = (Json.obj (texts ps)).bytes → Writes draft text

/-- Nothing depends on the order of the members. -/
theorem read_keys (type : String) {keys : List String}
    (perm : (ps.map Prod.fst).Perm keys) (known : keys ⊆ names) (distinct : keys.Nodup)
    {title body : String} (isTitle : ("title", title) ∈ ps) (isBody : ("body", body) ∈ ps)
    {url : String} (isUrl : ("url", url) ∈ ps ∨ "url" ∉ keys ∧ url = "") :
    (Draft.struct type).read (Json.obj (texts ps)).bytes = .ok (⟨title, url, body⟩, []) := by
  have once : (ps.map Prod.fst).Nodup := perm.nodup_iff.mpr distinct
  have backwards : (ps.reverse.map Prod.fst).Perm (ps.map Prod.fst) :=
    (List.reverse_perm ps).map Prod.fst
  have kept {key text : String} (member : (key, text) ∈ ps) :
      Assoc.find? key ps.reverse = some text :=
    Assoc.find?_of_mem (backwards.nodup_iff.mpr once) (List.mem_reverse.mpr member)
  have address : (Assoc.find? "url" ps.reverse).getD "" = url := by
    rcases isUrl with member | ⟨absent, rfl⟩
    · rw [kept member]
      rfl
    · rw [Assoc.find?_eq_none fun member => absent ((backwards.trans perm).mem_iff.mp member)]
      rfl
  have draft : Draft.ofTexts ps.reverse = .ok ⟨title, url, body⟩ := by
    simp only [Draft.ofTexts, kept isTitle, kept isBody, address]
  have sets := sets_texts type (fun p member =>
    known (perm.mem_iff.mp (List.mem_map_of_mem member))) []
  have plain : (texts ps).map Prod.fst = ps.map Prod.fst := by
    simp [texts, Function.comp_def]
  rw [List.append_nil] at sets
  have read := Struct.read_sets sets (plain ▸ once) draft []
  rwa [List.append_nil] at read

theorem read_writes {draft : Draft} {text : List UInt8} (writes : Writes draft text)
    (type : String) : (Draft.struct type).read text = .ok (draft, []) := by
  cases writes with
  | @full ps perm same =>
    have member : ∀ p ∈ [("title", draft.title), ("url", draft.url), ("body", draft.body)],
        p ∈ ps := fun p => perm.mem_iff.mpr
    have keys : (ps.map Prod.fst).Perm ["title", "url", "body"] := perm.map Prod.fst
    rw [same]
    exact read_keys type keys (by decide) (by decide) (member _ (by simp))
      (member _ (by simp)) (.inl (member _ (by simp)))
  | @short ps empty perm same =>
    have member : ∀ p ∈ [("title", draft.title), ("body", draft.body)], p ∈ ps :=
      fun p => perm.mem_iff.mpr
    have keys : (ps.map Prod.fst).Perm ["title", "body"] := perm.map Prod.fst
    rw [same]
    exact read_keys type keys (by decide) (by decide) (member _ (by simp))
      (member _ (by simp)) (.inr ⟨by decide, empty⟩)

end Postboard.Post
