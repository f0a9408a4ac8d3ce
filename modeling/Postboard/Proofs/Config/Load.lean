import Mathlib.Data.List.Forall2
import Postboard.Config.Text
import Postboard.Proofs.Json.Merge
import Postboard.Proofs.Yaml.Document

/-! What is known of settings that load, from texts, from files or by the environment: their source
is the merged documents, is ordered, and was not refused.
-/

set_option autoImplicit false

namespace Postboard.Config

open Json

theorem ordered_overlay {lower : Json} {d : Option Json} (under : lower.Ordered)
    (ordered : ∀ v, d = some v → v.Ordered) : (overlay lower d).Ordered := by
  cases d with
  | none => exact under
  | some v => exact ordered_merge (ordered v rfl) under

theorem ordered_merged {documents : List (Option Json)}
    (ordered : ∀ v, some v ∈ documents → v.Ordered) : (merged documents).Ordered := by
  have onto : ∀ lower : Json, lower.Ordered → (documents.foldl overlay lower).Ordered := by
    induction documents with
    | nil => exact fun lower under => under
    | cons d rest ih =>
      intro lower under
      exact ih (fun v member => ordered v (List.mem_cons_of_mem _ member)) _
        (ordered_overlay under fun v value => ordered v (value ▸ List.mem_cons_self))
  exact onto (.obj []) (ordered_obj.mpr ⟨Assoc.sorted_nil, by simp⟩)

theorem ordered_document {cs : List Char} {v : Json} (made : document cs = .ok (some v)) :
    v.Ordered := by
  unfold document at made
  split at made
  · cases made
  · split at made
    · cases made
    · split at made
      · cases made
      next value => exact Option.some.inj (Except.ok.inj made) ▸ Yaml.Value.ordered_json? value

theorem documents_eq_ok {texts : List (List Char)} {ds : List (Option Json)} :
    documents texts = .ok ds ↔ List.Forall₂ (fun cs d => document cs = .ok d) texts ds := by
  unfold documents
  induction texts generalizing ds with
  | nil => cases ds <;> simp [pure, Except.pure]
  | cons cs rest ih =>
    rw [List.mapM_cons, List.forall₂_cons_left_iff]
    cases first : document cs with
    | error e => simp [bind, Except.bind]
    | ok d =>
      simp only [Except.ok.injEq, exists_and_left, exists_eq_left', ← ih]
      cases rest.mapM document with
      | error e => simp [bind, Except.bind]
      | ok ds' => simp [bind, Except.bind, pure, Except.pure, eq_comm]

theorem ordered_documents {texts : List (List Char)} {ds : List (Option Json)}
    (made : documents texts = .ok ds) : ∀ v, some v ∈ ds → v.Ordered := by
  have each := documents_eq_ok.mp made
  clear made
  induction each with
  | nil => simp
  | cons first _ ih =>
    intro v member
    rcases List.mem_cons.mp member with rfl | later
    · exact ordered_document first
    · exact ih v later

theorem ofMerged_eq_ok {v : Json} {loaded : Loaded} (made : ofMerged v = .ok loaded) :
    loaded.source = v ∧ refuseSecrets v = .ok () ∧ ofJson v = .ok loaded.config ∧
      loaded.hash = hash v := by
  unfold ofMerged at made
  split at made
  · cases made
  next clear =>
    split at made
    · cases made
    next fits =>
      obtain rfl := Except.ok.inj made
      exact ⟨rfl, clear, fits, rfl⟩

theorem loadTexts_of {texts : List (List Char)} {vs : List (Option Json)} {c : Config}
    (read : documents texts = .ok vs) (clear : refuseSecrets (merged vs) = .ok ())
    (fits : ofJson (merged vs) = .ok c) :
    loadTexts texts = .ok ⟨c, merged vs, hash (merged vs)⟩ := by
  rw [loadTexts, read]
  simp only [Except.bind, load, ofMerged, clear, fits]

theorem loadTexts_refused {texts : List (List Char)} {vs : List (Option Json)} {e : Error}
    (read : documents texts = .ok vs) (refused : refuseSecrets (merged vs) = .error e) :
    loadTexts texts = .error e := by
  rw [loadTexts, read]
  simp only [Except.bind, load, ofMerged, refused]

theorem loadTexts_unfit {texts : List (List Char)} {vs : List (Option Json)} {e : Error}
    (read : documents texts = .ok vs) (clear : refuseSecrets (merged vs) = .ok ())
    (unfit : ofJson (merged vs) = .error e) : loadTexts texts = .error e := by
  rw [loadTexts, read]
  simp only [Except.bind, load, ofMerged, clear, unfit]

theorem bind_eq_ok {ε α β : Type} {x : Except ε α} {f : α → Except ε β} {b : β} :
    x.bind f = .ok b ↔ ∃ a, x = .ok a ∧ f a = .ok b := by
  cases x <;> simp [Except.bind]

theorem loadTexts_merged {texts : List (List Char)} {loaded : Loaded}
    (made : loadTexts texts = .ok loaded) :
    ∃ vs, documents texts = .ok vs ∧ ofMerged (merged vs) = .ok loaded :=
  bind_eq_ok.mp made

theorem loadTexts_eq_ok {texts : List (List Char)} {loaded : Loaded}
    (made : loadTexts texts = .ok loaded) :
    loaded.source.Ordered ∧ refuseSecrets loaded.source = .ok () := by
  obtain ⟨vs, read, made⟩ := loadTexts_merged made
  obtain ⟨source, clear, -⟩ := ofMerged_eq_ok made
  rw [source]
  exact ⟨ordered_merged (ordered_documents read), clear⟩

theorem loadFiles_eq_ok {files : Files} {paths : List String} {loaded : Loaded}
    (made : loadFiles files paths = .ok loaded) : ∃ texts, loadTexts texts = .ok loaded := by
  obtain ⟨texts, -, made⟩ := bind_eq_ok.mp made
  exact ⟨texts, made⟩

theorem loadFromEnvironment_eq_ok {files : Files} {lookup : Lookup} {loaded : Loaded}
    (made : loadFromEnvironment files lookup = .ok loaded) :
    ∃ texts loaded', loadTexts texts = .ok loaded' ∧ loaded.source = loaded'.source := by
  obtain ⟨loaded', read, made⟩ := bind_eq_ok.mp made
  obtain ⟨texts, here⟩ := loadFiles_eq_ok read
  refine ⟨texts, loaded', here, ?_⟩
  dsimp only at made
  split at made
  · exact Except.ok.inj made ▸ rfl
  · cases made

end Postboard.Config
