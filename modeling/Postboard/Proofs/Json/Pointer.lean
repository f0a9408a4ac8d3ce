import Postboard.Json.Pointer
import Postboard.Proofs.Json.Path
import Postboard.Proofs.Text.Decimal
import Postboard.Proofs.Text.Split

/-! Pointers lead where their paths lead.

A step is written as a token without a slash, so the tokens of a pointer are those of its path, and
reading a token undoes writing it. Hence a pointer resolves to what stands at its path, and two
paths into one value never share a pointer.
-/

set_option autoImplicit false

namespace Postboard.Json

open Text

/-! ### Tokens -/

namespace Pointer

theorem unescape_cons {c : Char} (plain : c ≠ '~') (rest : List Char) :
    unescape (c :: rest) = c :: unescape rest := by
  rw [unescape]
  · exact fun _ same => absurd same plain
  · exact fun _ same => absurd same plain

theorem unescape_escape (key : List Char) : unescape (escape key) = key := by
  induction key with
  | nil => rfl
  | cons c rest ih =>
    rw [escape, List.flatMap_cons, ← escape]
    by_cases tilde : c = '~'
    · simp [tilde, unescape, ih]
    · by_cases slash : c = '/'
      · simp [slash, unescape, ih]
      · simp [tilde, slash, unescape_cons tilde, ih]

theorem escape_noSlash (key : List Char) : '/' ∉ escape key := by
  intro member
  obtain ⟨c, -, here⟩ := List.mem_flatMap.mp member
  split at here
  · simp at here
  · split at here
    · simp at here
    next different => exact different (by simpa using Eq.symm (List.mem_singleton.mp here))

theorem digits_noSlash (i : Nat) : '/' ∉ Decimal.digits i := by
  intro member
  have digit := List.all_eq_true.mp (Decimal.isDigit_digits i) '/' member
  exact absurd digit (by decide)

theorem index?_digits (i : Nat) : index? (Decimal.digits i) = some i := by
  unfold index?
  split
  next c rest written =>
    have zero : i = 0 := Decimal.digits_head_zero (by rw [written]; rfl)
    subst zero
    cases written
  next => exact Decimal.natOf?_digits i

end Pointer

def Step.token : Step → List Char
  | .key k => Pointer.escape k.toList
  | .index i => Decimal.digits i

def pointer (p : Path) : List Char := p.flatMap fun step => '/' :: step.token

theorem token_noSlash (step : Step) : '/' ∉ step.token := by
  cases step with
  | key k => exact Pointer.escape_noSlash k.toList
  | index i => exact Pointer.digits_noSlash i

theorem pointer_cons (step : Step) (p : Path) :
    pointer (step :: p) = '/' :: (step.token ++ pointer p) := rfl

/-- Cutting a pointer gives the tokens of its path. -/
theorem split_pointer (step : Step) (p : Path) :
    splitAt '/' (step.token ++ pointer p) = (step :: p).map Step.token := by
  rw [splitAt_eq_splitOn, splitOn_eq_iff (by simp)]
  constructor
  · intro token member
    obtain ⟨s, -, rfl⟩ := List.mem_map.mp member
    exact token_noSlash s
  · induction p generalizing step with
    | nil => simp [pointer]
    | cons next rest ih =>
      rw [pointer_cons, ih next, List.map_cons, List.map_cons, List.map_cons]
      simp [List.intercalate_cons_cons]

/-! ### Where a pointer leads -/

theorem step_token {v w : Json} {step : Step} (down : v.down? step = some w) :
    Pointer.step v step.token = some w := by
  cases v with
  | obj members =>
    cases step with
    | key k => simpa [Pointer.step, Step.token, Pointer.unescape_escape, down?] using down
    | index i => cases down
  | arr items =>
    cases step with
    | key k => cases down
    | index i => simpa [Pointer.step, Step.token, Pointer.index?_digits, down?] using down
  | _ => cases step <;> cases down

theorem follow_tokens {v w : Json} {p : Path} (reached : v.at? p = some w) :
    Pointer.follow v (p.map Step.token) = some w := by
  induction p generalizing v with
  | nil => exact reached
  | cons step rest ih =>
    obtain ⟨u, down, below⟩ := Option.bind_eq_some_iff.mp reached
    simp only [List.map_cons, Pointer.follow, step_token down, Option.bind_some]
    exact ih below

/-- A pointer resolves to what stands at its path. -/
theorem resolve_pointer {v w : Json} {p : Path} (reached : v.at? p = some w) :
    Pointer.resolve v (pointer p) = some w := by
  cases p with
  | nil => exact reached
  | cons step rest =>
    rw [pointer_cons, Pointer.resolve, split_pointer]
    exact follow_tokens reached

theorem Pointer.escape_inj {k k' : String} (same : escape k.toList = escape k'.toList) :
    k = k' := by
  have read := congrArg unescape same
  rw [unescape_escape, unescape_escape] at read
  exact String.toList_inj.mp read

/-- Two steps from one value have two tokens. -/
theorem token_inj {v w w' : Json} {step step' : Step} (down : v.down? step = some w)
    (down' : v.down? step' = some w') (same : step.token = step'.token) : step = step' := by
  -- A key and an index may have one token, but no value has both below it.
  cases v with
  | obj members =>
    cases step with
    | key k =>
      cases step' with
      | key k' => rw [Pointer.escape_inj same]
      | index i => cases down'
    | index i => cases down
  | arr items =>
    cases step with
    | key k => cases down
    | index i =>
      cases step' with
      | key k => cases down'
      | index j => rw [Decimal.digits_inj same]
  | _ => cases step <;> cases down

theorem tokens_inj {v w w' : Json} {p q : Path} (reached : v.at? p = some w)
    (reached' : v.at? q = some w') (same : p.map Step.token = q.map Step.token) : p = q := by
  -- Equal first tokens lead to the same value, in which the rest is compared.
  induction p generalizing v q with
  | nil => exact (List.map_eq_nil_iff.mp same.symm).symm
  | cons step rest ih =>
    cases q with
    | nil => cases same
    | cons step' rest' =>
      obtain ⟨first, later⟩ := List.cons.inj same
      obtain ⟨u, down, below⟩ := Option.bind_eq_some_iff.mp reached
      obtain ⟨u', down', below'⟩ := Option.bind_eq_some_iff.mp reached'
      obtain rfl := token_inj down down' first
      obtain rfl : u = u' := Option.some.inj (down.symm.trans down')
      rw [ih below below' later]

/-- Two paths into a value have two pointers. -/
theorem pointer_inj {v w w' : Json} {p q : Path} (reached : v.at? p = some w)
    (reached' : v.at? q = some w') (same : pointer p = pointer q) : p = q := by
  refine tokens_inj reached reached' ?_
  cases p with
  | nil =>
    cases q with
    | nil => rfl
    | cons => cases same
  | cons step rest =>
    cases q with
    | nil => cases same
    | cons step' rest' =>
      rw [pointer_cons, pointer_cons] at same
      rw [← split_pointer, ← split_pointer, (List.cons.inj same).2]

/-! ### The pointers to the leaves -/

/-- What is collected below a value that is at a path of its own. -/
def CollectsBelow (v : Json) : Prop := ∀ path : List Char, path ≠ [] →
  Pointer.leavesFrom path v = (leafPaths v).map fun p => path ++ pointer p

theorem leavesFrom_below {v : Json} (below : CollectsBelow v) (path : List Char) (step : Step) :
    Pointer.leavesFrom (path ++ '/' :: step.token) v =
      ((leafPaths v).map (step :: ·)).map fun p => path ++ pointer p := by
  rw [below _ (by simp), List.map_map]
  refine List.map_congr_left fun p _ => ?_
  simp [pointer_cons]

theorem itemLeaves_eq {items : List Json} (inside : ∀ v ∈ items, CollectsBelow v)
    (path : List Char) (i : Nat) :
    Pointer.itemLeaves path i items = (itemPaths i items).map fun p => path ++ pointer p := by
  induction items generalizing i with
  | nil => rfl
  | cons v rest ih =>
    have here := leavesFrom_below (inside v List.mem_cons_self) path (.index i)
    have later := ih (fun w member => inside w (List.mem_cons_of_mem _ member)) (i + 1)
    rw [Pointer.itemLeaves, itemPaths, List.map_append, later]
    exact congrArg (· ++ _) here

theorem memberLeaves_eq {members : Members} (inside : ∀ e ∈ members, CollectsBelow e.2)
    (path : List Char) :
    Pointer.memberLeaves path members = (memberPaths members).map fun p => path ++ pointer p := by
  induction members with
  | nil => rfl
  | cons e rest ih =>
    have here := leavesFrom_below (inside e List.mem_cons_self) path (.key e.1)
    have later := ih fun w member => inside w (List.mem_cons_of_mem _ member)
    rw [Pointer.memberLeaves, memberPaths, List.map_append, later]
    exact congrArg (· ++ _) here

theorem collectsBelow (v : Json) : CollectsBelow v := by
  induction v using nested with
  | leaf v leaf =>
    intro path below
    rw [leafPaths_leaf leaf]
    cases v with
    | arr => cases leaf
    | obj => cases leaf
    | _ => simp [Pointer.leavesFrom, below, pointer]
  | arr items ih => exact fun path _ => itemLeaves_eq ih path 0
  | obj members ih => exact fun path _ => memberLeaves_eq ih path

/-- The pointers collected from a list or an object are those of the paths to its leaves. -/
theorem leaves_eq {v : Json} (root : v.isLeaf = false) :
    Pointer.leaves v = (leafPaths v).map pointer := by
  cases v with
  | arr items => exact itemLeaves_eq (fun v _ => collectsBelow v) [] 0
  | obj members => exact memberLeaves_eq (fun e _ => collectsBelow e.2) []
  | _ => cases root

end Postboard.Json
