import Mathlib.Data.List.Pairwise
import Postboard.Json.Record
import Postboard.Proofs.Json.Merge

/-! Records read from a value that is laid over what the record already has.

A member that says what a record has anyway changes nothing when it is put, and a record reads the
same from a value as from the value laid over such members. The fields of the record have to be
independent, so that none of them takes back what another one has set.
-/

set_option autoImplicit false

namespace Postboard.Json

variable {σ : Type}

theorem merge_plain {lower : Json} (plain : lower.isObject = false) (upper : Json) :
    merge lower upper = upper := by
  rcases object_or_plain upper with ⟨members, rfl⟩ | other
  · exact merge_onto_other plain members
  · exact merge_other other lower

/-- Over members that are no objects, a value takes the place of what is under its key. -/
theorem find?_over_plain {under members : Members} (plain : ∀ e ∈ under, e.2.isObject = false)
    (sorted : Assoc.Sorted members) (k : String) :
    Assoc.find? k (mergeMembers under members) =
      (Assoc.find? k members).or (Assoc.find? k under) := by
  rw [find?_mergeMembers sorted]
  cases Assoc.find? k members with
  | none => rfl
  | some v =>
    cases below : Assoc.find? k under with
    | none => exact congrArg some (merge_plain rfl v)
    | some w => exact congrArg some (merge_plain (plain _ (Assoc.mem_of_find? below)) v)

def Field.Commute (f g : Field σ) : Prop :=
  ∀ v w s s₁ s₂, f.put v s = .ok s₁ → g.put w s = .ok s₂ →
    ∃ t, f.put v s₂ = .ok t ∧ g.put w s₁ = .ok t

instance : Std.Symm (Field.Commute (σ := σ)) where
  symm f g commute v w s s₁ s₂ first second := by
    obtain ⟨t, here, there⟩ := commute w v s s₂ s₁ second first
    exact ⟨t, there, here⟩

theorem Field.put_of_eq_ok {α : Type} {name : String} {read : Json → Except Misfit α}
    {set : α → σ → σ} {v : Json} {s s' : σ} :
    (Field.of name read set).put v s = .ok s' ↔ ∃ a, read v = .ok a ∧ set a s = s' := by
  cases value : read v with
  | error e => simp [Field.of, value, Except.map]
  | ok a => simp [Field.of, value, Except.map]

theorem Field.commute_of {α β : Type} {set : α → σ → σ} {set' : β → σ → σ}
    (commute : ∀ a b s, set a (set' b s) = set' b (set a s)) (name name' : String)
    (read : Json → Except Misfit α) (read' : Json → Except Misfit β) :
    (Field.of name read set).Commute (Field.of name' read' set') := by
  intro v w s s₁ s₂ first second
  obtain ⟨a, value, rfl⟩ := put_of_eq_ok.mp first
  obtain ⟨b, value', rfl⟩ := put_of_eq_ok.mp second
  exact ⟨_, put_of_eq_ok.mpr ⟨a, value, rfl⟩, put_of_eq_ok.mpr ⟨b, value', (commute a b s).symm⟩⟩

namespace Record

variable {r : Record σ} {s : σ}

def Has (r : Record σ) (s : σ) (k : String) (v : Json) : Prop := r.putMember k v s = .ok s

/-- A value under a key makes no difference once another one is laid over it. -/
def Yields (r : Record σ) (k : String) (v : Json) : Prop :=
  ∀ w : Json, w.Ordered → ∀ s, r.putMember k (merge v w) s = r.putMember k w s

def Independent (r : Record σ) : Prop := r.fields.Pairwise Field.Commute

/-- What a record has under one key survives that another key is set. -/
theorem Independent.has (independent : r.Independent) {k k' : String} (other : k ≠ k') {v w : Json}
    {s' : σ} (has : r.Has s k v) (put : r.putMember k' w s = .ok s') : r.Has s' k v := by
  unfold Has putMember at *
  split at has
  next f found =>
    split at put
    next g found' =>
      have named : f.name = k := by simpa using List.find?_some found
      have named' : g.name = k' := by simpa using List.find?_some found'
      have distinct : f ≠ g := fun same => other (named.symm.trans (same ▸ named'))
      have commute := independent.forall (List.mem_of_find?_eq_some found)
        (List.mem_of_find?_eq_some found') distinct
      obtain ⟨t, here, there⟩ := commute v w s s s' has put
      obtain rfl : s' = t := Except.ok.inj (put.symm.trans there)
      exact here
    next => exact Except.ok.inj put ▸ has
  next => rfl

/-! ### One member underneath -/

/-- A member underneath others: the value that they have under its key is laid over it. -/
def fill (k : String) (v : Json) (members : Members) : Members :=
  Assoc.insert k (match Assoc.find? k members with
    | some w => merge v w
    | none => v) members

theorem mergeMembers_nil {members : Members} (ordered : (Json.obj members).Ordered) :
    mergeMembers [] members = members := by
  have sorted := (ordered_obj.mp ordered).1
  have merged := ordered_merge ordered (ordered_obj.mpr ⟨Assoc.sorted_nil, by simp⟩)
  rw [merge] at merged
  refine (ordered_obj.mp merged).1.ext sorted fun k => ?_
  rw [find?_mergeMembers sorted]
  cases Assoc.find? k members with
  | none => rfl
  | some w => exact congrArg some (merge_plain rfl w)

theorem mergeMembers_cons {k : String} {v : Json} {under members : Members}
    (ordered : (Json.obj ((k, v) :: under)).Ordered) (ordered' : (Json.obj members).Ordered) :
    mergeMembers ((k, v) :: under) members = fill k v (mergeMembers under members) := by
  obtain ⟨sorted, inside⟩ := ordered_obj.mp ordered
  have sorted' := (ordered_obj.mp ordered').1
  have lower : (Json.obj under).Ordered := ordered_obj.mpr
    ⟨(Assoc.sorted_cons.mp sorted).2, fun e member => inside e (List.mem_cons_of_mem _ member)⟩
  have whole := ordered_merge ordered' ordered
  have rest := ordered_merge ordered' lower
  rw [merge] at whole rest
  refine (ordered_obj.mp whole).1.ext ((ordered_obj.mp rest).1.insert _ _) fun j => ?_
  rw [fill, Assoc.find?_insert, find?_mergeMembers sorted', find?_mergeMembers sorted',
    find?_mergeMembers sorted']
  by_cases here : j = k
  · subst here
    cases Assoc.find? j members with
    | none => simp [Assoc.find?, sorted.find?_tail]
    | some w => simp [Assoc.find?, sorted.find?_tail, merge_plain (rfl : Json.null.isObject = false)]
  · simp [Assoc.find?, here]

theorem putMembers_cons (r : Record σ) (k : String) (v : Json) (rest : Members) (s : σ) :
    r.putMembers ((k, v) :: rest) s = (r.putMember k v s).bind (r.putMembers rest) := by
  rw [putMembers]
  cases r.putMember k v s <;> rfl

theorem putMembers_fill (independent : r.Independent) {k : String} {v : Json}
    (yields : r.Yields k v) {members : Members} (ordered : (Json.obj members).Ordered)
    (has : r.Has s k v) : r.putMembers (fill k v members) s = r.putMembers members s := by
  -- The key stands before the first member, at it or behind it.
  induction members generalizing s with
  | nil => rw [fill, Assoc.find?, Assoc.insert, putMembers_cons, has, Except.bind]
  | cons e rest ih =>
    obtain ⟨k', w⟩ := e
    obtain ⟨sorted, inside⟩ := ordered_obj.mp ordered
    obtain ⟨first, later⟩ := Assoc.sorted_cons.mp sorted
    by_cases less : k < k'
    · have front : Assoc.Sorted ((k, v) :: (k', w) :: rest) := by
        refine Assoc.sorted_cons.mpr ⟨?_, sorted⟩
        intro e member
        rcases List.mem_cons.mp member with rfl | tail
        · exact less
        · exact Std.lt_trans less (first e tail)
      rw [fill, front.find?_tail, Assoc.insert, if_pos less, putMembers_cons, has, Except.bind]
    · by_cases same : k = k'
      · subst same
        have value := yields w (inside _ List.mem_cons_self) s
        simp only [fill, Assoc.find?, Assoc.insert, if_neg less, if_true]
        rw [putMembers_cons, putMembers_cons, value]
      · -- The member comes later, where the record still has what it says.
        have deeper : fill k v ((k', w) :: rest) = (k', w) :: fill k v rest := by
          simp only [fill, Assoc.find?, Assoc.insert, if_neg less, if_neg same]
        rw [deeper, putMembers_cons, putMembers_cons]
        cases put : r.putMember k' w s with
        | error e => rfl
        | ok s' =>
          have ordered' : (Json.obj rest).Ordered :=
            ordered_obj.mpr ⟨later, fun e member => inside e (List.mem_cons_of_mem _ member)⟩
          exact ih ordered' (independent.has same has put)

/-! ### All members underneath -/

/-- Members that say what a record has anyway. -/
structure Idle (r : Record σ) (s : σ) (under : Members) : Prop where
  ordered : (Json.obj under).Ordered
  has : ∀ e ∈ under, r.Has s e.1 e.2
  yields : ∀ e ∈ under, r.Yields e.1 e.2

theorem Idle.putMembers_merge (independent : r.Independent) {under : Members}
    (idle : r.Idle s under) {members : Members} (ordered : (Json.obj members).Ordered) :
    r.putMembers (mergeMembers under members) s = r.putMembers members s := by
  induction under with
  | nil => rw [mergeMembers_nil ordered]
  | cons e under ih =>
    obtain ⟨k, v⟩ := e
    obtain ⟨sorted, inside⟩ := ordered_obj.mp idle.ordered
    have lower : r.Idle s under := {
      ordered := ordered_obj.mpr
        ⟨(Assoc.sorted_cons.mp sorted).2, fun e member => inside e (List.mem_cons_of_mem _ member)⟩
      has := fun e member => idle.has e (List.mem_cons_of_mem _ member)
      yields := fun e member => idle.yields e (List.mem_cons_of_mem _ member) }
    have rest := ordered_merge ordered lower.ordered
    rw [merge] at rest
    rw [mergeMembers_cons idle.ordered ordered,
      putMembers_fill independent (idle.yields _ List.mem_cons_self) rest
        (idle.has _ List.mem_cons_self), ih lower]

/-- A record reads the same from a value as from the value laid over idle members. -/
theorem Idle.read_merge (independent : r.Independent) {under : Members} (idle : r.Idle s under)
    {v : Json} (ordered : v.Ordered) : r.read s (merge (.obj under) v) = r.read s v := by
  rcases object_or_plain v with ⟨members, rfl⟩ | plain
  · rw [merge, read, read]
    exact idle.putMembers_merge independent ordered
  · rw [merge_other plain]

theorem idle_of_leaves {under : Members} (sorted : Assoc.Sorted under)
    (leaves : ∀ e ∈ under, e.2.isLeaf = true) (has : ∀ e ∈ under, r.Has s e.1 e.2) :
    r.Idle s under where
  ordered := ordered_obj.mpr ⟨sorted, fun e member => ordered_leaf (leaves e member)⟩
  has := has
  yields e member w _ s := by rw [merge_plain (plain_of_leaf (leaves e member))]

/-- A field that is a record itself yields where its members are idle. -/
theorem Idle.yields_field {τ : Type} {q : Record τ} {d : τ} {under : Members}
    (idle : q.Idle d under) (independent : q.Independent) {k : String} {set : τ → σ → σ}
    (field : r.fields.find? (fun f => f.name = k) = some (.of k (q.read d) set)) :
    r.Yields k (.obj under) := by
  intro w ordered s
  simp only [putMember, field, Field.of, idle.read_merge independent ordered]

end Record

end Postboard.Json
