import Postboard.Proofs.Json.Written

/-! Records read from one value laid over another.

A record that is written as plain members reads the same from a value over others as from that value
alone, when the record that the others give is there before.
-/

set_option autoImplicit false

namespace Postboard.Json.Record

variable {σ : Type} {r : Record σ} {write : σ → Members} {s s' : σ}

theorem Written.idle (written : r.Written write) (leaves : ∀ e ∈ write s, e.2.isLeaf = true) :
    r.Idle s (write s) :=
  idle_of_leaves (written.sorted s) leaves fun e member => (written.tells s e member e.2).mpr rfl

/-- An object sets the fields that it names, and no others. -/
theorem Written.read_over (written : r.Written write) (leaves : ∀ e ∈ write s, e.2.isLeaf = true)
    {upper : Members} (ordered : (Json.obj upper).Ordered) :
    r.read s (.obj upper) = .ok s' ↔
      ∀ e ∈ write s', (Assoc.find? e.1 upper).or (Assoc.find? e.1 (write s)) = some e.2 := by
  have idle := written.idle leaves
  have merged := ordered_merge ordered idle.ordered
  have own := find?_over_plain (fun e member => plain_of_leaf (leaves e member))
    (ordered_obj.mp ordered).1
  have full : ∀ f ∈ r.fields, ∃ v, Assoc.find? f.name (mergeMembers (write s) upper) = some v := by
    intro f field
    obtain ⟨v, member⟩ := written.mem_of_field s field
    rw [own, (written.sorted s).find?_of_mem member]
    cases Assoc.find? f.name upper with
    | none => exact ⟨v, rfl⟩
    | some w => exact ⟨w, rfl⟩
  rw [← idle.read_merge written.independent ordered]
  rw [merge] at merged ⊢
  simp only [written.read_eq_ok (ordered_obj.mp merged).1 full, own]

/-- What lies underneath counts for the record that it gives, and for nothing else. -/
theorem Written.read_layered (written : r.Written write)
    (leaves : ∀ s, ∀ e ∈ write s, e.2.isLeaf = true) {default : σ} {inside upper : Members}
    (ordered : (Json.obj inside).Ordered) (ordered' : (Json.obj upper).Ordered)
    (below : r.read default (.obj inside) = .ok s) :
    r.read default (.obj (mergeMembers inside upper)) = .ok s' ↔ r.read s (.obj upper) = .ok s' := by
  have merged := ordered_merge ordered' ordered
  rw [merge] at merged
  rw [written.read_over (leaves default) ordered] at below
  rw [written.read_over (leaves default) merged, written.read_over (leaves s) ordered']
  refine forall₂_congr fun e member => ?_
  -- The field that is written in `s'` has a value in `s`, and what stands below it is that value.
  obtain ⟨f, field, named⟩ := written.field_of_mem member
  obtain ⟨v, present⟩ := written.mem_of_field s field
  have value := below _ present
  have found := (written.sorted s).find?_of_mem present
  rw [named] at value found
  rw [find?_mergeMembers (ordered_obj.mp ordered').1, found]
  cases Assoc.find? e.1 upper with
  | none => rw [value]; rfl
  | some w =>
    have plain : ((Assoc.find? e.1 inside).getD .null).isObject = false := by
      cases lower : Assoc.find? e.1 inside with
      | none => rfl
      | some u =>
        rw [lower] at value
        obtain rfl : u = v := Option.some.inj value
        exact plain_of_leaf (leaves s _ present)
    simp only [merge_plain plain]
    rfl

end Postboard.Json.Record
