import Postboard.Assoc

/-! Laws of finite maps as association lists.

Lookup after an insertion needs no invariant. Erasing, membership and the place of a new key are
exact only for sorted lists, and every operation keeps them sorted.
-/

set_option autoImplicit false

namespace Postboard.Assoc

variable {κ α : Type}

section Invariant

variable [LT κ]

@[simp] theorem sorted_nil : Sorted ([] : List (κ × α)) := List.Pairwise.nil

theorem sorted_cons {e : κ × α} {m : List (κ × α)} :
    Sorted (e :: m) ↔ (∀ e' ∈ m, e.1 < e'.1) ∧ Sorted m := List.pairwise_cons

theorem sorted_keys {m : List (κ × α)} :
    Sorted m ↔ (m.map Prod.fst).Pairwise (· < ·) := List.pairwise_map.symm

/-- Entries may be left out. -/
theorem Sorted.filter {m : List (κ × α)} (sorted : Sorted m) (p : κ × α → Bool) :
    Sorted (m.filter p) := List.Pairwise.filter p sorted

end Invariant

variable [DecidableEq κ]

theorem mem_of_find? {k : κ} {v : α} {m : List (κ × α)} (found : find? k m = some v) :
    (k, v) ∈ m := by
  induction m with
  | nil => simp [find?] at found
  | cons e rest ih =>
    obtain ⟨k', v'⟩ := e
    by_cases same : k = k'
    · have value : v' = v := by simpa [find?, same] using found
      simp [same, value]
    · exact List.mem_cons_of_mem _ (ih (by simpa [find?, same] using found))

/-- Where no key stands twice, every entry is found under its key. -/
theorem find?_of_mem {m : List (κ × α)} (distinct : (m.map Prod.fst).Nodup) {k : κ} {v : α}
    (member : (k, v) ∈ m) : find? k m = some v := by
  induction m with
  | nil => cases member
  | cons e rest ih =>
    rw [List.map_cons, List.nodup_cons] at distinct
    rcases List.mem_cons.mp member with head | tail
    · simp [find?, ← head]
    · have different : k ≠ e.1 := fun same => distinct.1 (same ▸ List.mem_map_of_mem tail)
      simpa [find?, different] using ih distinct.2 tail

theorem find?_eq_none {k : κ} {m : List (κ × α)} (absent : k ∉ m.map Prod.fst) :
    find? k m = none := by
  cases found : find? k m with
  | none => rfl
  | some v => exact absurd (List.mem_map_of_mem (mem_of_find? found)) absent

theorem contains_eq_true {k : κ} {m : List (κ × α)} :
    contains k m = true ↔ ∃ v, (k, v) ∈ m := by
  constructor
  · intro present
    obtain ⟨v, found⟩ := Option.isSome_iff_exists.mp present
    exact ⟨v, mem_of_find? found⟩
  · rintro ⟨v, member⟩
    cases found : find? k m with
    | some _ => simp [contains, found]
    | none =>
      exfalso
      induction m with
      | nil => cases member
      | cons e rest ih =>
        obtain ⟨k', v'⟩ := e
        by_cases same : k = k'
        · simp [find?, same] at found
        · have later : (k, v) ∈ rest := by simpa [same] using member
          exact ih later (by simpa [find?, same] using found)

section Order

variable [LT κ] [DecidableLT κ]

/-- Insertion changes what is found under one key only. -/
theorem find?_insert (j k : κ) (v : α) (m : List (κ × α)) :
    find? j (insert k v m) = if j = k then some v else find? j m := by
  induction m with
  | nil => simp [insert, find?]
  | cons e rest ih =>
    obtain ⟨k', v'⟩ := e
    by_cases less : k < k'
    · simp [insert, less, find?]
    · by_cases same : k = k'
      · subst same
        by_cases here : j = k <;> simp [insert, less, find?, here]
      · by_cases here : j = k'
        · have other : j ≠ k := fun eq => same (eq.symm.trans here)
          subst here
          simp [insert, less, same, find?, other]
        · simp [insert, less, same, find?, here, ih]

/-- Of the pairs with a key the last counts. -/
theorem find?_ofList (k : κ) (pairs : List (κ × α)) :
    find? k (ofList pairs) = (pairs.reverse.find? fun e => e.1 = k).map Prod.snd := by
  have onto : ∀ m, find? k (pairs.foldl (fun m e => insert e.1 e.2 m) m) =
      ((pairs.reverse.find? fun e => e.1 = k).map Prod.snd).or (find? k m) := by
    induction pairs with
    | nil => exact fun m => rfl
    | cons e rest ih =>
      intro m
      rw [List.foldl_cons, ih, find?_insert, List.reverse_cons, List.find?_append]
      cases later : rest.reverse.find? fun e => e.1 = k with
      | some e' => rfl
      | none => by_cases here : k = e.1 <;> simp [here, eq_comm]
  exact (onto []).trans Option.or_none

theorem mem_insert {k : κ} {v : α} {m : List (κ × α)} {e : κ × α} (member : e ∈ insert k v m) :
    e = (k, v) ∨ e ∈ m := by
  induction m with
  | nil => simpa [insert] using member
  | cons e' rest ih =>
    obtain ⟨k', v'⟩ := e'
    simp only [insert] at member
    split at member
    · simpa using member
    · split at member
      · rcases List.mem_cons.mp member with new | old
        · exact .inl new
        · exact .inr (List.mem_cons_of_mem _ old)
      · rcases List.mem_cons.mp member with head | later
        · exact .inr (head ▸ List.mem_cons_self)
        · exact (ih later).imp_right (List.mem_cons_of_mem _)

/-- A value under a key that was not there is one entry more. -/
theorem insert_perm {m : List (κ × α)} {k : κ} (absent : find? k m = none) (v : α) :
    (insert k v m).Perm ((k, v) :: m) := by
  induction m with
  | nil => exact .refl _
  | cons e rest ih =>
    obtain ⟨k', v'⟩ := e
    unfold insert
    split
    · exact .refl _
    · split
      next same => simp [find?, same] at absent
      next other =>
        rw [find?, if_neg other] at absent
        exact ((ih absent).cons _).trans (.swap ..)

theorem mem_ofList {pairs : List (κ × α)} {e : κ × α} (member : e ∈ ofList pairs) :
    e ∈ pairs := by
  have onto : ∀ m, e ∈ pairs.foldl (fun m p => insert p.1 p.2 m) m → e ∈ pairs ∨ e ∈ m := by
    clear member
    induction pairs with
    | nil => exact fun m member => .inr member
    | cons p rest ih =>
      intro m member
      rcases ih _ member with later | new
      · exact .inl (List.mem_cons_of_mem _ later)
      · rcases mem_insert new with rfl | old
        · exact .inl List.mem_cons_self
        · exact .inr old
  exact (onto [] member).resolve_right List.not_mem_nil

variable [LE κ] [Std.IsLinearOrder κ] [Std.LawfulOrderLT κ]

theorem Sorted.insert {m : List (κ × α)} (sorted : Sorted m) (k : κ) (v : α) :
    Sorted (Assoc.insert k v m) := by
  induction m with
  | nil => exact List.pairwise_singleton ..
  | cons e rest ih =>
    obtain ⟨k', v'⟩ := e
    obtain ⟨first, later⟩ := sorted_cons.mp sorted
    simp only [Assoc.insert]
    split
    next less =>
      refine sorted_cons.mpr ⟨?_, sorted⟩
      intro e' member
      rcases List.mem_cons.mp member with head | tail
      · exact head ▸ less
      · exact Std.lt_trans less (first e' tail)
    next notLess =>
      split
      next same => exact sorted_cons.mpr ⟨fun e' member => same ▸ first e' member, later⟩
      next different =>
        -- The key is neither below the first one nor equal to it, so it goes further down.
        refine sorted_cons.mpr ⟨?_, ih later⟩
        intro e' member
        rcases mem_insert member with new | old
        · subst new
          rcases Std.lt_trichotomy k k' with less | same | greater
          · exact absurd less notLess
          · exact absurd same different
          · exact greater
        · exact first e' old

theorem sorted_ofList (pairs : List (κ × α)) : Sorted (ofList pairs) := by
  have onto : ∀ (m : List (κ × α)), Sorted m →
      Sorted (pairs.foldl (fun m p => Assoc.insert p.1 p.2 m) m) := by
    induction pairs with
    | nil => exact fun m sorted => sorted
    | cons p rest ih => exact fun m sorted => ih _ (sorted.insert p.1 p.2)
  exact onto [] sorted_nil

omit [DecidableEq κ] [DecidableLT κ] [Std.IsLinearOrder κ] in
theorem Sorted.keys_nodup {m : List (κ × α)} (sorted : Sorted m) : (m.map Prod.fst).Nodup := by
  refine List.pairwise_map.mpr (sorted.imp ?_)
  intro a b less same
  exact Std.lt_irrefl (same ▸ less)

omit [DecidableLT κ] [Std.IsLinearOrder κ] in
theorem Sorted.find?_of_mem {m : List (κ × α)} (sorted : Sorted m) {k : κ} {v : α}
    (member : (k, v) ∈ m) : Assoc.find? k m = some v :=
  Assoc.find?_of_mem sorted.keys_nodup member

omit [DecidableLT κ] [Std.IsLinearOrder κ] in
theorem Sorted.find?_tail {m : List (κ × α)} {k : κ} {v : α} (sorted : Sorted ((k, v) :: m)) :
    Assoc.find? k m = none := by
  cases found : Assoc.find? k m with
  | none => rfl
  | some w => exact absurd ((sorted_cons.mp sorted).1 (k, w) (mem_of_find? found)) Std.lt_irrefl

/-- A key above all others comes last. -/
theorem insert_above {m : List (κ × α)} {k : κ} (above : ∀ e ∈ m, e.1 < k) (v : α) :
    Assoc.insert k v m = m ++ [(k, v)] := by
  induction m with
  | nil => rfl
  | cons e rest ih =>
    have less : e.1 < k := above e List.mem_cons_self
    have notLess : ¬ k < e.1 := fun greater => Std.lt_irrefl (Std.lt_trans less greater)
    have different : k ≠ e.1 := fun same => Std.lt_irrefl (same ▸ less)
    simpa [Assoc.insert, notLess, different] using
      ih fun e' member => above e' (List.mem_cons_of_mem _ member)

/-- Entering the entries of a sorted list gives the list. -/
theorem Sorted.ofList_eq {m : List (κ × α)} (sorted : Sorted m) : ofList m = m := by
  have onto : ∀ front back : List (κ × α), Sorted (front ++ back) →
      back.foldl (fun m p => Assoc.insert p.1 p.2 m) front = front ++ back := by
    intro front back sorted
    induction back generalizing front with
    | nil => rw [List.append_nil, List.foldl_nil]
    | cons e rest ih =>
      have above := (List.pairwise_append.mp sorted).2.2
      rw [List.foldl_cons, insert_above fun e' member => above e' member e List.mem_cons_self,
        ih (front ++ [e]) (by simpa using sorted)]
      simp
  exact onto [] m sorted

/-- A key that is there gets its new value in place. -/
theorem Sorted.insert_present {m : List (κ × α)} (sorted : Sorted m) {k : κ} {v : α} (w : α)
    (member : (k, v) ∈ m) :
    Assoc.insert k w m = m.map fun e => if e.1 = k then (k, w) else e := by
  induction m with
  | nil => cases member
  | cons e rest ih =>
    obtain ⟨first, later⟩ := sorted_cons.mp sorted
    rcases List.mem_cons.mp member with head | tail
    -- No later key is `k`, so the map changes nothing behind the first entry.
    · have others : ∀ e' ∈ rest, e'.1 ≠ k := by
        intro e' member' same
        exact Std.lt_irrefl (same ▸ head ▸ first e' member')
      have kept : rest.map (fun e => if e.1 = k then (k, w) else e) = rest := by
        refine (List.map_congr_left fun e' member' => ?_).trans (List.map_id _)
        simp [others e' member']
      subst head
      simp [Assoc.insert, Std.lt_irrefl, kept]
    · have less : e.1 < k := first (k, v) tail
      have notLess : ¬ k < e.1 := fun greater => Std.lt_irrefl (Std.lt_trans less greater)
      have different : k ≠ e.1 := fun same => Std.lt_irrefl (same ▸ less)
      simp [Assoc.insert, notLess, different, different.symm, ih later tail]

omit [DecidableLT κ] [Std.IsLinearOrder κ] in
/-- Erasing takes out the one entry of a key. -/
theorem Sorted.erase_eq_filter {m : List (κ × α)} (sorted : Sorted m) (k : κ) :
    Assoc.erase k m = m.filter fun e => e.1 ≠ k := by
  induction m with
  | nil => rfl
  | cons e rest ih =>
    obtain ⟨first, later⟩ := sorted_cons.mp sorted
    by_cases same : k = e.1
    · have others : ∀ e' ∈ rest, e'.1 ≠ k := by
        intro e' member' same'
        have less := first e' member'
        rw [same', same] at less
        exact Std.lt_irrefl less
      have kept : rest.filter (fun e' => e'.1 ≠ k) = rest :=
        List.filter_eq_self.mpr fun e' member' => decide_eq_true (others e' member')
      rw [Assoc.erase, if_pos same, List.filter_cons_of_neg (by simp [same]), kept]
    · simp [Assoc.erase, same, Ne.symm same, ih later]

omit [DecidableLT κ] [Std.IsLinearOrder κ] in
/-- Erasing changes what is found under one key only. -/
theorem Sorted.find?_erase {m : List (κ × α)} (sorted : Sorted m) (j k : κ) :
    Assoc.find? j (Assoc.erase k m) = if j = k then none else Assoc.find? j m := by
  induction m with
  | nil => simp [Assoc.erase, Assoc.find?]
  | cons e rest ih =>
    obtain ⟨k', v⟩ := e
    by_cases same : k = k'
    · subst same
      by_cases here : j = k
      · subst here
        simp [Assoc.erase, sorted.find?_tail]
      · simp [Assoc.erase, Assoc.find?, here]
    · by_cases here : j = k'
      · subst here
        simp [Assoc.erase, Assoc.find?, same, Ne.symm same]
      · simp [Assoc.erase, Assoc.find?, same, here, ih (sorted_cons.mp sorted).2]

omit [DecidableEq κ] [DecidableLT κ] [Std.IsLinearOrder κ] in
theorem Sorted.nodup {m : List (κ × α)} (sorted : Sorted m) : m.Nodup := by
  refine sorted.imp ?_
  rintro a _ less rfl
  exact Std.lt_irrefl less

omit [DecidableLT κ] [Std.IsLinearOrder κ] in
theorem Sorted.mem_iff_find? {m : List (κ × α)} (sorted : Sorted m) {k : κ} {v : α} :
    (k, v) ∈ m ↔ Assoc.find? k m = some v :=
  ⟨sorted.find?_of_mem, mem_of_find?⟩

omit [DecidableLT κ] in
/-- Sorted lists in which the same is found are the same. -/
theorem Sorted.ext {m m' : List (κ × α)} (sorted : Sorted m) (sorted' : Sorted m')
    (same : ∀ k, Assoc.find? k m = Assoc.find? k m') : m = m' := by
  have perm : m.Perm m' := by
    refine (List.perm_ext_iff_of_nodup sorted.nodup sorted'.nodup).mpr ?_
    rintro ⟨k, v⟩
    rw [sorted.mem_iff_find?, sorted'.mem_iff_find?, same]
  -- Two entries each before the other cannot be, so the order of the entries is settled.
  refine perm.eq_of_pairwise ?_ sorted sorted'
  intro a b _ _ less greater
  exact absurd (Std.lt_trans less greater) Std.lt_irrefl

/-- Neighbours under different keys can be entered in either order. -/
theorem ofList_swap {a b : κ × α} (other : a.1 ≠ b.1) (front back : List (κ × α)) :
    ofList (front ++ a :: b :: back) = ofList (front ++ b :: a :: back) := by
  refine (sorted_ofList _).ext (sorted_ofList _) fun k => ?_
  have middle : [b, a].find? (fun e => e.1 = k) = [a, b].find? (fun e => e.1 = k) := by
    by_cases here : a.1 = k
    · have there : b.1 ≠ k := fun same => other (here.trans same.symm)
      simp [here, there]
    · simp [List.find?_cons, here]
  have reversed (a b : κ × α) :
      (front ++ a :: b :: back).reverse = back.reverse ++ [b, a] ++ front.reverse := by simp
  rw [find?_ofList, find?_ofList, reversed, reversed]
  simp only [List.find?_append, middle]

end Order

end Postboard.Assoc
