import Postboard.Proofs.Store.Follows

/-! The view of a store is the listing of its history, cut at the limit. -/

set_option autoImplicit false

namespace Postboard.Store

variable {entered : List (Int32 × String)} {h : List Event} {s : Store}

theorem Follows.find?_name (follows : Follows entered h s) (user : Int32) :
    Assoc.find? user s.users = nameOf entered user := by
  rw [follows.users, Assoc.find?_ofList, nameOf]

theorem Follows.named (follows : Follows entered h s) {e : Int32 × Stored} (member : e ∈ s.posts) :
    ∃ name, nameOf entered e.2.author = some name := by
  have known := follows.consistent.author e member
  rw [hasUser, Assoc.contains, follows.find?_name] at known
  exact Option.isSome_iff_exists.mp known

theorem Follows.tally_eq (follows : Follows entered h s) : s.tally = standings h := by
  rw [tally, standings, ← follows.posts]
  refine List.map_congr_left fun e member => ?_
  rw [follows.counted e.1 (hasPost_iff.mpr ⟨e.2, member⟩)]

theorem Follows.view_eq (follows : Follows entered h s) (limit : Nat) :
    s.view limit = ⟨(listing entered h).take limit⟩ := by
  rw [view, listing, follows.consistent.ranking_eq, follows.tally_eq, List.map_take]
  congr 2
  refine List.map_congr_left fun r member => ?_
  rw [(List.mergeSort_perm _ _).mem_iff, ← follows.tally_eq] at member
  obtain ⟨e, there, rfl⟩ := List.mem_map.mp member
  obtain ⟨name, named⟩ := follows.named there
  simp only [row, listed, follows.find?_name, named, Option.getD_some]

/-- The numbers of a history are given once. -/
theorem Follows.numbers (follows : Follows entered h s) : ((survivors h).map Prod.fst).Nodup := by
  rw [← follows.posts]
  exact follows.consistent.postsSorted.keys_nodup

theorem Follows.listing_strict (follows : Follows entered h s) :
    ((standings h).mergeSort Ranked.above).Pairwise fun a b => a.before b = true := by
  refine ordered_strict ?_ (mergeSort_ordered _)
  have numbers : ((standings h).map Ranked.id).Nodup := by
    simpa [standings, Function.comp_def] using follows.numbers
  exact ((List.mergeSort_perm _ _).map Ranked.id).nodup_iff.mpr numbers

/-- After any operations a snapshot is the beginning of the listing of their history. The listing
has one row for each number, in strict order, and every author in it has a name. -/
theorem view_of_history (entered : List (Int32 × String)) (ops : List Op)
    (fit : Fits (run ops (withUsers entered)).1) (n : UInt32) :
    client.request ⟨.posts, .limit n⟩ .snapshot (run ops (withUsers entered)).2 =
      (.ok (.snapshot ⟨(listing entered (run ops (withUsers entered)).1).take n.toNat⟩),
        (run ops (withUsers entered)).2) ∧
    ((survivors (run ops (withUsers entered)).1).map Prod.fst).Nodup ∧
    ((standings (run ops (withUsers entered)).1).mergeSort Ranked.above).Pairwise
      (fun a b => b.upvotes < a.upvotes ∨ a.upvotes = b.upvotes ∧ a.id.toInt < b.id.toInt) ∧
    ∀ e ∈ survivors (run ops (withUsers entered)).1,
      ∃ name, nameOf entered e.2.author = some name := by
  have follows := follows_run ops fit
  refine ⟨?_, follows.numbers, ?_, ?_⟩
  · simp only [client, follows.view_eq]
  · exact follows.listing_strict.imp Ranked.before_iff.mp
  · intro e member
    rw [← follows.posts] at member
    exact follows.named member

/-- Three posts are made, the second of them after an update that does not find it. It gets other
texts and an upvote, the first one is deleted, and then the store breaks. -/
def outage : List Op :=
  [.create 1 ⟨"a", "", "x"⟩, .update 2 ⟨"early", "", ""⟩, .create 1 ⟨"b", "", "y"⟩,
    .create 2 ⟨"c", "", "z"⟩, .update 2 ⟨"d", "u", "w"⟩, .upvote 2 2, .upvote 7 3, .delete 1,
    .breakWith "down", .update 3 ⟨"late", "", ""⟩, .delete 2]

def outageRows : List Reactive.Row :=
  [⟨.num (.int 2),
      [("author", .str "ann"), ("body", .str "w"), ("id", .int 2), ("title", .str "d"),
        ("upvotes", .nat 1), ("url", .str "u")]⟩,
    ⟨.num (.int 3),
      [("author", .str "bo"), ("body", .str "z"), ("id", .int 3), ("title", .str "c"),
        ("upvotes", .nat 0), ("url", .str "")]⟩]

theorem view_of_outage :
    Fits (run outage (withUsers [(1, "ann"), (2, "bo")])).1 ∧
      client.request ⟨.posts, .limit 5⟩ .snapshot
          (run outage (withUsers [(1, "ann"), (2, "bo")])).2 =
        (.ok (.snapshot ⟨outageRows⟩), (run outage (withUsers [(1, "ann"), (2, "bo")])).2) ∧
      (listing [(1, "ann"), (2, "bo")]
        (run outage (withUsers [(1, "ann"), (2, "bo")])).1).take 5 = outageRows := by
  have fit : Fits (run outage (withUsers [(1, "ann"), (2, "bo")])).1 := ⟨by decide, by decide⟩
  have viewed := (view_of_history [(1, "ann"), (2, "bo")] outage fit 5).1
  have shown : client.request ⟨.posts, .limit 5⟩ .snapshot
      (run outage (withUsers [(1, "ann"), (2, "bo")])).2 =
        (.ok (.snapshot ⟨outageRows⟩), (run outage (withUsers [(1, "ann"), (2, "bo")])).2) := rfl
  refine ⟨fit, shown, ?_⟩
  have same := viewed.symm.trans shown
  simpa using same

end Postboard.Store
