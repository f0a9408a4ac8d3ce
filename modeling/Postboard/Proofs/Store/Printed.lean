import Mathlib.Data.Int.Interval
import Postboard.Proofs.Json.Printed
import Postboard.Proofs.Store.Ranking

/-! The view as JSON: its text is read back as the rows, and a new post adds one row at the end. -/

set_option autoImplicit false

namespace Postboard.Store

variable {s : Store}

def shown (s : Store) (r : Ranked) : Json :=
  .obj [("author", match Assoc.find? r.post.author s.users with
      | some name => .str name
      | none => .null),
    ("body", .str r.post.draft.body),
    ("id", .int r.id.toInt),
    ("title", .str r.post.draft.title),
    ("upvotes", .nat r.upvotes),
    ("url", .str r.post.draft.url)]

/-- A row has its number itself, so its key is not needed. -/
theorem flat_row (s : Store) (r : Ranked) : (s.row r).flat = s.shown r := by
  have own : Assoc.contains "id" (s.row r).value = true := by
    simp [row, Assoc.contains, Assoc.find?]
  rw [Reactive.Row.flat, if_pos own]
  rfl

theorem flat_view {limit : Nat} (whole : s.posts.length ≤ limit) :
    (s.view limit).flat = .arr (s.ranking.map s.shown) := by
  simp [view, Reactive.Snapshot.flat, take_ranking whole, Function.comp_def, flat_row]

/-- There are no more upvotes than numbers for them. -/
theorem Sound.length_upvotes (sound : Sound s) : s.upvotes.length ≤ 4294967296 := by
  have distinct : (s.upvotes.map fun e => e.1.toInt).Nodup := by
    refine List.pairwise_map.mpr (sound.upvotesSorted.imp ?_)
    intro a b less
    exact Int.ne_of_lt (Int32.lt_iff_toInt_lt.mp less)
  have within : (s.upvotes.map fun e => e.1.toInt).toFinset ⊆
      Finset.Icc (-2147483648) 2147483647 := by
    intro n member
    obtain ⟨e, -, rfl⟩ := List.mem_map.mp (List.mem_toFinset.mp member)
    have low := Int32.le_toInt e.1
    have high := Int32.toInt_lt e.1
    exact Finset.mem_Icc.mpr ⟨by omega, by omega⟩
  have count := Finset.card_le_card within
  rw [List.toFinset_card_of_nodup distinct, List.length_map, Int.card_Icc] at count
  exact count

/-- The members of a row are in order. -/
theorem names_sorted :
    ["author", "body", "id", "title", "upvotes", "url"].Pairwise (· < ·) := by
  decide

theorem Sound.whole_shown (sound : Sound s) {r : Ranked} (ranked : r ∈ s.ranking) (depth : Nat) :
    Json.Whole (depth + 1) (s.shown r) := by
  obtain ⟨e, -, rfl⟩ := List.mem_map.mp (s.ranking_perm.mem_iff.mp ranked)
  have few : (s.upvotesOf e.1).length ≤ s.upvotes.length := List.length_filter_le ..
  have count := sound.length_upvotes
  have low := Int32.le_toInt e.1
  have high := Int32.toInt_lt e.1
  refine .obj (List.pairwise_map.mp names_sorted) ?_
  simp only [List.forall_mem_cons]
  refine ⟨?_, .str _, .int (by omega) (by omega), .str _, .int (by omega) (by omega), .str _, by simp⟩
  split
  · exact .str _
  · exact .null

theorem Sound.parse_view (sound : Sound s) {limit : Nat} (whole : s.posts.length ≤ limit) :
    Json.parse (Text.Utf8.bytes (s.view limit).flat.text) = .ok (.arr (s.ranking.map s.shown)) := by
  rw [flat_view whole]
  refine Json.parse_text (.arr ?_)
  intro v member
  obtain ⟨r, ranked, rfl⟩ := List.mem_map.mp member
  exact sound.whole_shown ranked _

end Postboard.Store
