import Postboard.Proofs.Store.Consistent

/-! The order of the posts view: what `ranking` lists is the posts, each once, in the one order in
which no row stands before a row that is above it.
-/

set_option autoImplicit false

namespace Postboard.Store

def Ranked.above (a b : Ranked) : Bool :=
  b.upvotes < a.upvotes || (a.upvotes = b.upvotes && a.id ≤ b.id)

theorem Ranked.above_iff {a b : Ranked} :
    a.above b = true ↔
      b.upvotes < a.upvotes ∨ a.upvotes = b.upvotes ∧ a.id.toInt ≤ b.id.toInt := by
  simp [above, Int32.le_iff_toInt_le]

theorem Ranked.before_iff {a b : Ranked} :
    a.before b = true ↔
      b.upvotes < a.upvotes ∨ a.upvotes = b.upvotes ∧ a.id.toInt < b.id.toInt := by
  simp [before, Int32.lt_iff_toInt_lt]

theorem Ranked.above_of_before {a b : Ranked} (before : a.before b = true) :
    a.above b = true := by
  rw [before_iff] at before
  rw [above_iff]
  omega

theorem Ranked.above_of_not_before {a b : Ranked} (notBefore : ¬ a.before b = true) :
    b.above a = true := by
  rw [before_iff] at notBefore
  rw [above_iff]
  omega

theorem Ranked.above_trans {a b c : Ranked} (first : a.above b = true)
    (second : b.above c = true) : a.above c = true := by
  rw [above_iff] at *
  omega

theorem Ranked.above_total (a b : Ranked) : (a.above b || b.above a) = true := by
  rw [Bool.or_eq_true, above_iff, above_iff]
  omega

/-- Two rows above each other have the same number. -/
theorem Ranked.above_antisymm {a b : Ranked} (first : a.above b = true)
    (second : b.above a = true) : a.id = b.id := by
  rw [above_iff] at first second
  exact Int32.toInt_inj.mp (by omega)

/-! ### Rows in their places -/

theorem place_perm (r : Ranked) (rows : List Ranked) : (place r rows).Perm (r :: rows) := by
  induction rows with
  | nil => exact .refl _
  | cons q rest ih =>
    unfold place
    split
    · exact (ih.cons q).trans (.swap r q rest)
    · exact .refl _

theorem place_ordered {rows : List Ranked} (ordered : rows.Pairwise fun a b => a.above b = true)
    (r : Ranked) : (place r rows).Pairwise fun a b => a.above b = true := by
  induction rows with
  | nil => exact List.pairwise_singleton ..
  | cons q rest ih =>
    obtain ⟨first, later⟩ := List.pairwise_cons.mp ordered
    unfold place
    split
    next before =>
      refine List.pairwise_cons.mpr ⟨?_, ih later⟩
      intro a member
      rcases List.mem_cons.mp ((place_perm r rest).mem_iff.mp member) with rfl | old
      · exact Ranked.above_of_before before
      · exact first a old
    -- The order is total, so a row that `q` is not before stands above `q` and all behind it.
    next notBefore =>
      have head := Ranked.above_of_not_before notBefore
      refine List.pairwise_cons.mpr ⟨?_, ordered⟩
      intro a member
      rcases List.mem_cons.mp member with rfl | old
      · exact head
      · exact Ranked.above_trans head (first a old)

/-- Rows put in their places one after the other. -/
theorem foldr_place (rows : List Ranked) :
    (rows.foldr place []).Perm rows ∧
      (rows.foldr place []).Pairwise fun a b => a.above b = true := by
  induction rows with
  | nil => exact ⟨.refl _, .nil⟩
  | cons r rest ih => exact ⟨(place_perm r _).trans (ih.1.cons r), place_ordered ih.2 r⟩

/-- Ordered rows with numbers of their own are ordered in one way. -/
theorem ordered_unique {rows rows' : List Ranked} (same : rows.Perm rows')
    (numbers : ∀ a ∈ rows, ∀ b ∈ rows, a.id = b.id → a = b)
    (ordered : rows.Pairwise fun a b => a.above b = true)
    (ordered' : rows'.Pairwise fun a b => a.above b = true) : rows = rows' := by
  refine same.eq_of_pairwise ?_ ordered ordered'
  intro a b here there first second
  exact numbers a here b (same.mem_iff.mpr there) (Ranked.above_antisymm first second)

theorem mergeSort_ordered (rows : List Ranked) :
    (rows.mergeSort Ranked.above).Pairwise fun a b => a.above b = true :=
  @List.pairwise_mergeSort _ Ranked.above (fun _ _ _ => Ranked.above_trans) Ranked.above_total rows

/-- Ordered rows with numbers of their own stand strictly before each other. -/
theorem ordered_strict {rows : List Ranked} (numbers : (rows.map Ranked.id).Nodup)
    (ordered : rows.Pairwise fun a b => a.above b = true) :
    rows.Pairwise fun a b => a.before b = true := by
  refine (ordered.and (List.pairwise_map.mp numbers)).imp ?_
  rintro a b ⟨above, distinct⟩
  rw [Ranked.above_iff] at above
  rw [Ranked.before_iff]
  have other : a.id.toInt ≠ b.id.toInt := fun same => distinct (Int32.toInt_inj.mp same)
  omega

/-! ### The rows of a store -/

/-- The rows of the view in the order of their numbers. -/
def tally (s : Store) : List Ranked :=
  s.posts.map fun e => ⟨e.1, (s.upvotesOf e.1).length, e.2⟩

theorem ranking_perm (s : Store) : s.ranking.Perm s.tally := (foldr_place s.tally).1

/-- As many rows as there are posts are all of them. -/
theorem take_ranking {s : Store} {limit : Nat} (whole : s.posts.length ≤ limit) :
    s.ranking.take limit = s.ranking := by
  refine List.take_of_length_le ?_
  rw [s.ranking_perm.length_eq, tally, List.length_map]
  exact whole

theorem ranking_ordered (s : Store) : s.ranking.Pairwise fun a b => a.above b = true :=
  (foldr_place s.tally).2

theorem Sound.tally_numbers {s : Store} (sound : Sound s) :
    ∀ a ∈ s.tally, ∀ b ∈ s.tally, a.id = b.id → a = b := by
  intro a here b there same
  obtain ⟨⟨i, p⟩, member, rfl⟩ := List.mem_map.mp here
  obtain ⟨⟨j, q⟩, member', rfl⟩ := List.mem_map.mp there
  obtain rfl : i = j := same
  -- Two rows with one number are one entry of the table.
  have found := sound.postsSorted.find?_of_mem member
  have found' := sound.postsSorted.find?_of_mem member'
  obtain rfl : p = q := Option.some.inj (found.symm.trans found')
  rfl

/-- A post that was just made has no upvotes and the greatest number, so it comes last. -/
theorem Sound.ranking_created {s : Store} (sound : Sound s) (room : s.lastPost.toInt < 2147483647)
    (author : Int32) (draft : Post.Draft) :
    ranking { s with
      posts := Assoc.insert (s.lastPost + 1) ⟨draft, author⟩ s.posts
      lastPost := s.lastPost + 1 } =
        s.ranking ++ [⟨s.lastPost + 1, 0, ⟨draft, author⟩⟩] := by
  generalize made : ({ s with
    posts := Assoc.insert (s.lastPost + 1) ⟨draft, author⟩ s.posts
    lastPost := s.lastPost + 1 } : Store) = t
  have above := sound.post_above room
  have posts : t.posts = s.posts ++ [(s.lastPost + 1, ⟨draft, author⟩)] := by
    rw [← made]
    exact Assoc.insert_above above _
  have upvotes : t.upvotesOf = s.upvotesOf := by
    rw [← made]
    rfl
  have tally : t.tally = s.tally ++ [⟨s.lastPost + 1, 0, ⟨draft, author⟩⟩] := by
    have none := sound.upvotesOf_absent (sound.next_absent room)
    simp [Store.tally, posts, upvotes, none]
  have perm : t.ranking.Perm (s.ranking ++ [⟨s.lastPost + 1, 0, ⟨draft, author⟩⟩]) := by
    refine t.ranking_perm.trans ?_
    rw [tally]
    exact (s.ranking_perm.append_right _).symm
  have sound' : Sound t := made ▸ sound.created room author draft
  refine ordered_unique perm ?_ t.ranking_ordered ?_
  · intro a here b there
    exact sound'.tally_numbers a (t.ranking_perm.mem_iff.mp here) b
      (t.ranking_perm.mem_iff.mp there)
  · refine List.pairwise_append.mpr ⟨s.ranking_ordered, List.pairwise_singleton .., ?_⟩
    intro a old b new
    obtain rfl := List.mem_singleton.mp new
    obtain ⟨e, there, rfl⟩ := List.mem_map.mp (s.ranking_perm.mem_iff.mp old)
    have less := Int32.lt_iff_toInt_lt.mp (above e there)
    rw [Ranked.above_iff]
    simp only
    omega

theorem Consistent.ranking_eq {s : Store} (consistent : Consistent s) :
    s.ranking = s.tally.mergeSort Ranked.above := by
  have perm := s.ranking_perm.trans (List.mergeSort_perm s.tally Ranked.above).symm
  refine ordered_unique perm ?_ s.ranking_ordered ?_
  · intro a here b there
    exact consistent.sound.tally_numbers a (s.ranking_perm.mem_iff.mp here) b
      (s.ranking_perm.mem_iff.mp there)
  · exact mergeSort_ordered s.tally

end Postboard.Store
