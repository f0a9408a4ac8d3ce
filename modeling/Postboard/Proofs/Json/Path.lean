import Postboard.Proofs.Json.Nested

/-! Places in a value, and the order in which a depth-first walk comes to them.

A path is a sequence of steps to the member of a key or the item of an index. `Before` compares two
paths at the first step in which they differ. `leafPaths` lists the paths to all leaves in that
order.
-/

set_option autoImplicit false

namespace Postboard.Json

inductive Step where
  | key (k : String)
  | index (i : Nat)
  deriving DecidableEq, Repr

abbrev Path := List Step

def down? : Json → Step → Option Json
  | .obj members, .key k => Assoc.find? k members
  | .arr items, .index i => items[i]?
  | _, _ => none

def at? : Json → Path → Option Json
  | v, [] => some v
  | v, step :: rest => (v.down? step).bind fun w => at? w rest

/-- The order of a depth-first walk: members by their keys, items by their indices. -/
inductive Before : Path → Path → Prop where
  | key {k k' : String} {p q : Path} : k < k' → Before (.key k :: p) (.key k' :: q)
  | index {i j : Nat} {p q : Path} : i < j → Before (.index i :: p) (.index j :: q)
  | deeper {step : Step} {p q : Path} : Before p q → Before (step :: p) (step :: q)

mutual

def leafPaths : Json → List Path
  | .obj members => memberPaths members
  | .arr items => itemPaths 0 items
  | _ => [[]]

def itemPaths (i : Nat) : List Json → List Path
  | [] => []
  | v :: rest => (leafPaths v).map (.index i :: ·) ++ itemPaths (i + 1) rest

def memberPaths : List (String × Json) → List Path
  | [] => []
  | (k, v) :: rest => (leafPaths v).map (.key k :: ·) ++ memberPaths rest

end

/-! ### Paths -/

theorem down?_leaf {v : Json} (leaf : v.isLeaf = true) (step : Step) : v.down? step = none := by
  cases v with
  | arr => cases leaf
  | obj => cases leaf
  | _ => cases step <;> rfl

theorem at?_append (v : Json) (p q : Path) :
    v.at? (p ++ q) = (v.at? p).bind fun w => w.at? q := by
  induction p generalizing v with
  | nil => rfl
  | cons step p ih => rw [List.cons_append, at?, at?, Option.bind_assoc, funext ih]

theorem Before.asymm {p q : Path} (before : Before p q) : ¬ Before q p := by
  intro after
  induction before with
  | key less =>
    cases after with
    | key greater => exact Std.lt_irrefl (Std.lt_trans less greater)
    | deeper => exact Std.lt_irrefl less
  | index less =>
    cases after with
    | index greater => exact Nat.lt_irrefl _ (Nat.lt_trans less greater)
    | deeper => exact Nat.lt_irrefl _ less
  | deeper _ ih =>
    cases after with
    | key less => exact Std.lt_irrefl less
    | index less => exact Nat.lt_irrefl _ less
    | deeper after => exact ih after

/-! ### The paths to the leaves -/

theorem mem_itemPaths {items : List Json} {i : Nat} {p : Path} :
    p ∈ itemPaths i items ↔
      ∃ j v q, items[j]? = some v ∧ q ∈ leafPaths v ∧ p = .index (i + j) :: q := by
  induction items generalizing i with
  | nil => simp [itemPaths]
  | cons first rest ih =>
    simp only [itemPaths, List.mem_append, List.mem_map, ih]
    constructor
    · rintro (⟨q, member, rfl⟩ | ⟨j, v, q, found, member, rfl⟩)
      · exact ⟨0, first, q, rfl, member, rfl⟩
      · exact ⟨j + 1, v, q, found, member, by rw [Nat.add_right_comm, Nat.add_assoc]⟩
    · rintro ⟨j, v, q, found, member, rfl⟩
      cases j with
      | zero =>
        obtain rfl : first = v := by simpa using found
        exact .inl ⟨q, member, rfl⟩
      | succ j => exact .inr ⟨j, v, q, found, member, by rw [Nat.add_right_comm, Nat.add_assoc]⟩

theorem mem_memberPaths {members : Members} {p : Path} :
    p ∈ memberPaths members ↔
      ∃ k v q, (k, v) ∈ members ∧ q ∈ leafPaths v ∧ p = .key k :: q := by
  induction members with
  | nil => simp [memberPaths]
  | cons first rest ih =>
    obtain ⟨k, v⟩ := first
    simp only [memberPaths, List.mem_append, List.mem_map, ih, List.mem_cons]
    constructor
    · rintro (⟨q, member, rfl⟩ | ⟨k', v', q, there, member, rfl⟩)
      · exact ⟨k, v, q, .inl rfl, member, rfl⟩
      · exact ⟨k', v', q, .inr there, member, rfl⟩
    · rintro ⟨k', v', q, same | there, member, rfl⟩
      · obtain ⟨rfl, rfl⟩ := Prod.mk.inj same
        exact .inl ⟨q, member, rfl⟩
      · exact .inr ⟨k', v', q, there, member, rfl⟩

theorem leafPaths_leaf {v : Json} (leaf : v.isLeaf = true) : leafPaths v = [[]] := by
  cases v with
  | arr => cases leaf
  | obj => cases leaf
  | _ => simp [leafPaths]

/-- The paths listed are those that end at a leaf. -/
theorem mem_leafPaths {v : Json} (ordered : v.Ordered) {p : Path} :
    p ∈ leafPaths v ↔ ∃ w, v.at? p = some w ∧ w.isLeaf = true := by
  induction v using nested generalizing p with
  | leaf v leaf =>
    rw [leafPaths_leaf leaf, List.mem_singleton]
    cases p with
    | nil => simp [at?, leaf]
    | cons step rest => simp [at?, down?_leaf leaf]
  | arr items ih =>
    have inside := ordered_arr.mp ordered
    rw [leafPaths, mem_itemPaths]
    constructor
    · rintro ⟨j, v, q, found, member, rfl⟩
      have here := List.mem_of_getElem? found
      simpa [at?, down?, found] using (ih v here (inside v here)).mp member
    · rintro ⟨w, reached, leaf⟩
      cases p with
      | nil =>
        obtain rfl : Json.arr items = w := Option.some.inj reached
        cases leaf
      | cons step rest =>
        obtain ⟨v, found, below⟩ := Option.bind_eq_some_iff.mp reached
        cases step with
        | key k => cases found
        | index j =>
          have here : v ∈ items := List.mem_of_getElem? found
          exact ⟨j, v, rest, found, (ih v here (inside v here)).mpr ⟨w, below, leaf⟩,
            by rw [Nat.zero_add]⟩
  | obj members ih =>
    obtain ⟨sorted, inside⟩ := ordered_obj.mp ordered
    rw [leafPaths, mem_memberPaths]
    constructor
    · rintro ⟨k, v, q, here, member, rfl⟩
      -- Without order an earlier member could hide this one under the same key.
      have found := sorted.find?_of_mem here
      simpa [at?, down?, found] using (ih (k, v) here (inside (k, v) here)).mp member
    · rintro ⟨w, reached, leaf⟩
      cases p with
      | nil =>
        obtain rfl : Json.obj members = w := Option.some.inj reached
        cases leaf
      | cons step rest =>
        obtain ⟨v, found, below⟩ := Option.bind_eq_some_iff.mp reached
        cases step with
        | index j => cases found
        | key k =>
          have here : (k, v) ∈ members := Assoc.mem_of_find? found
          exact ⟨k, v, rest, here, (ih (k, v) here (inside (k, v) here)).mpr ⟨w, below, leaf⟩, rfl⟩

/-! ### Their order -/

theorem pairwise_below {paths : List Path} (step : Step) (ordered : paths.Pairwise Before) :
    (paths.map (step :: ·)).Pairwise Before :=
  List.pairwise_map.mpr (ordered.imp Before.deeper)

theorem itemPaths_before {items : List Json}
    (inside : ∀ v ∈ items, (leafPaths v).Pairwise Before) (i : Nat) :
    (itemPaths i items).Pairwise Before := by
  induction items generalizing i with
  | nil => exact .nil
  | cons v rest ih =>
    refine List.pairwise_append.mpr ⟨pairwise_below _ (inside v List.mem_cons_self),
      ih (fun w member => inside w (List.mem_cons_of_mem _ member)) (i + 1), ?_⟩
    intro p here q later
    obtain ⟨p, -, rfl⟩ := List.mem_map.mp here
    obtain ⟨j, w, q, -, -, rfl⟩ := mem_itemPaths.mp later
    exact .index (by omega)

theorem memberPaths_before {members : Members} (sorted : Assoc.Sorted members)
    (inside : ∀ e ∈ members, (leafPaths e.2).Pairwise Before) :
    (memberPaths members).Pairwise Before := by
  induction members with
  | nil => exact .nil
  | cons e rest ih =>
    obtain ⟨first, sorted⟩ := Assoc.sorted_cons.mp sorted
    refine List.pairwise_append.mpr ⟨pairwise_below _ (inside e List.mem_cons_self),
      ih sorted (fun w member => inside w (List.mem_cons_of_mem _ member)), ?_⟩
    intro p here q later
    obtain ⟨p, -, rfl⟩ := List.mem_map.mp here
    obtain ⟨k, w, q, there, -, rfl⟩ := mem_memberPaths.mp later
    exact .key (first (k, w) there)

theorem leafPaths_before {v : Json} (ordered : v.Ordered) : (leafPaths v).Pairwise Before := by
  induction v using nested with
  | leaf v leaf =>
    rw [leafPaths_leaf leaf]
    exact List.pairwise_singleton _ _
  | arr items ih =>
    have inside := ordered_arr.mp ordered
    exact itemPaths_before (fun v member => ih v member (inside v member)) 0
  | obj members ih =>
    obtain ⟨sorted, inside⟩ := ordered_obj.mp ordered
    exact memberPaths_before sorted fun e member => ih e member (inside e member)

end Postboard.Json
