import Postboard.Proofs.Config.Overlay
import Postboard.Proofs.Json.Layered

/-! Settings from a document laid over documents that make settings already.

Sections are read one by one, so the document counts only for those that it names: their settings
replace those from below, if what stands below them are objects.
-/

set_option autoImplicit false

namespace Postboard.Config

open Json Record

/-! ### Sections -/

/-- A section over settings that are there before. Where nothing is found, they stay. -/
def Part.over (p : Part) (s : p.τ) : Option Json → Except Misfit p.τ
  | some v => p.own.read s v
  | none => .ok s

theorem leaves_write (p : Part) (member : p ∈ parts) : ∀ a, ∀ e ∈ p.write a, e.2.isLeaf = true := by
  have leaf : ∀ p ∈ parts, ∀ a, ∀ e ∈ p.write a, e.2.isLeaf = true := by
    simp only [parts, List.forall_mem_cons, Daemon.members, Reactive.members, Database.members,
      Posts.members, Principal.members, Streams.members]
    simp [isLeaf, nat, int]
  exact leaf p member

theorem default_eq : ∀ p ∈ parts, p.get standard = p.default := by
  simp [parts]

/-- The section of a document that names all standard settings reads as the section that was found
over the standard settings. -/
theorem read_section {p : Part} (member : p ∈ parts) {members : Members}
    (ordered : (Json.obj members).Ordered) :
    ∃ v, Assoc.find? p.name (mergeMembers standardMembers members) = some v ∧
      p.own.read p.default v = p.over p.default (Assoc.find? p.name members) := by
  obtain ⟨under, json, sections⟩ := json_members standard
  have written := (lawful p member).written
  have idle : p.own.Idle p.default (p.write p.default) := written.idle (leaves_write p member p.default)
  have standing : Assoc.find? p.name standardMembers = some (.obj (p.write p.default)) := by
    rw [standardMembers, json, ← default_eq p member]
    exact sections p member
  obtain ⟨sorted, values⟩ := ordered_obj.mp ordered
  rw [find?_mergeMembers sorted, standing]
  cases found : Assoc.find? p.name members with
  | none =>
    refine ⟨_, rfl, (written.read_eq_ok (written.sorted _) fun f field => ?_).mpr ?_⟩
    · obtain ⟨v, present⟩ := written.mem_of_field p.default field
      exact ⟨v, (written.sorted _).find?_of_mem present⟩
    · exact fun e present => (written.sorted _).find?_of_mem present
  | some v =>
    exact ⟨_, rfl, idle.read_merge written.independent (values _ (Assoc.mem_of_find? found))⟩

theorem read_sections {members : Members} (ordered : (Json.obj members).Ordered) {c : Config} :
    read (.obj members) = .ok c ↔
      ∀ p ∈ parts, p.over p.default (Assoc.find? p.name members) = .ok (p.get c) := by
  -- With the standard settings underneath every section is named, and then the record is exact.
  have merged := ordered_merge ordered idle_standard.ordered
  rw [merge] at merged
  have full := (forall_fields (P := fun k =>
    ∃ v, Assoc.find? k (mergeMembers standardMembers members) = some v)).mpr fun p member =>
      (read_section member ordered).imp fun v both => both.1
  rw [read, ← idle_standard.read_merge independent ordered, merge,
    exact_record.read_eq_ok (ordered_obj.mp merged).1 full,
    forall_fields (P := fun k => ∀ v, Assoc.find? k (mergeMembers standardMembers members) = some v →
      record.Has c k v)]
  refine forall₂_congr fun p member => ?_
  obtain ⟨v, found, same⟩ := read_section member ordered
  simp only [found, Option.some.injEq, forall_eq', (lawful p member).has_iff, same]

/-! ### A document over others -/

variable {members upper : Members} {c c' : Config}

/-- The sections that the document names are objects, and so is what stands below them. -/
structure Meets (upper members : Members) : Prop where
  above : ∀ p ∈ parts, ∀ v, Assoc.find? p.name upper = some v → v.isObject = true
  below : ∀ p ∈ parts, ∀ v, Assoc.find? p.name upper = some v →
    ∀ w, Assoc.find? p.name members = some w → w.isObject = true

theorem Meets.over_merged (meets : Meets upper members) {p : Part} (member : p ∈ parts)
    (ordered : (Json.obj members).Ordered) (ordered' : (Json.obj upper).Ordered) {s s' : p.τ}
    (below : p.over p.default (Assoc.find? p.name members) = .ok s) :
    p.over p.default (Assoc.find? p.name (mergeMembers members upper)) = .ok s' ↔
      p.over s (Assoc.find? p.name upper) = .ok s' := by
  obtain ⟨sorted', values'⟩ := ordered_obj.mp ordered'
  rw [find?_mergeMembers sorted']
  cases above : Assoc.find? p.name upper with
  | none => rw [below]; rfl
  | some v =>
    obtain ⟨outside, rfl⟩ := exists_members (meets.above p member v above)
    cases found : Assoc.find? p.name members with
    | none =>
      rw [found] at below
      obtain rfl : p.default = s := Except.ok.inj below
      simp only [Option.getD_none, merge_plain (rfl : Json.null.isObject = false)]
    | some w =>
      obtain ⟨inside, rfl⟩ := exists_members (meets.below p member _ above w found)
      rw [found] at below
      have here := (ordered_obj.mp ordered).2 _ (Assoc.mem_of_find? found)
      have there := values' _ (Assoc.mem_of_find? above)
      simp only [Option.getD_some, merge]
      exact (lawful p member).written.read_layered (leaves_write p member) here there below

theorem Meets.over_eq_ok (meets : Meets upper members) {p : Part} (member : p ∈ parts)
    (ordered : (Json.obj upper).Ordered) :
    p.over (p.get c) (Assoc.find? p.name upper) = .ok (p.get c') ↔
      ∀ e ∈ p.members c', ((Json.obj upper).under? [p.name, e.1]).or
        (Assoc.find? e.1 (p.members c)) = some e.2 := by
  have written := (lawful p member).written
  simp only [under?_object]
  cases above : Assoc.find? p.name upper with
  | none =>
    -- Nothing over the settings reads like an object without members.
    have empty : (Json.obj []).Ordered := ordered_obj.mpr ⟨Assoc.sorted_nil, by simp⟩
    exact written.read_over (leaves_write p member _) empty
  | some v =>
    obtain ⟨outside, rfl⟩ := exists_members (meets.above p member v above)
    have there := (ordered_obj.mp ordered).2 _ (Assoc.mem_of_find? above)
    simp only [Option.bind_some, under?_single]
    exact written.read_over (leaves_write p member _) there

theorem laid_iff {d : Json} : Laid c d c' ↔ ∀ p ∈ parts, ∀ e ∈ p.members c',
    (d.under? [p.name, e.1]).or (Assoc.find? e.1 (p.members c)) = some e.2 := by
  obtain ⟨under, json, sections⟩ := json_members c
  have told : Laid c d c' ↔
      ∀ s ∈ settings, (d.under? s.keys).or (c.json.under? s.keys) = some (s.value c') := by
    refine forall₂_congr fun s setting => ?_
    rw [under?_json c s setting]
    cases d.under? s.keys <;> simp [eq_comm]
  rw [told, forall_settings (P := fun keys v => (d.under? keys).or (c.json.under? keys) = some v)]
  refine forall₂_congr fun p member => ?_
  simp only [json, under?_object under, sections p member, Option.bind_some, under?_single]

theorem read_merge_eq_ok (meets : Meets upper members) (ordered : (Json.obj members).Ordered)
    (ordered' : (Json.obj upper).Ordered) (below : read (.obj members) = .ok c) :
    read (merge (.obj members) (.obj upper)) = .ok c' ↔ Laid c (.obj upper) c' := by
  have merged := ordered_merge ordered' ordered
  rw [merge] at merged ⊢
  rw [read_sections merged, laid_iff]
  refine forall₂_congr fun p member => ?_
  rw [meets.over_merged member ordered ordered' ((read_sections ordered).mp below p member),
    meets.over_eq_ok member ordered']

end Postboard.Config
