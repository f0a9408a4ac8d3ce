import Postboard.Proofs.Json.Record

/-! Records read back from objects that name all their fields.

Such an object leaves nothing of the record that it is read over, so it can be read exactly to the
record that has what each of its members says. What other keys say does not even matter for the
error that reading ends with.
-/

set_option autoImplicit false

namespace Postboard.Json

variable {σ : Type}

/-! ### Values of fields -/

theorem readString_eq_ok {v : Json} {s : String} : readString v = .ok s ↔ v = .str s := by
  cases v <;> simp [readString]

theorem readInteger_eq_ok {low high n : Int} {wanted : String} {v : Json} :
    readInteger low high wanted v = .ok n ↔ v = .int n ∧ low ≤ n ∧ n ≤ high := by
  constructor
  · intro read
    unfold readInteger at read
    split at read
    next m =>
      split at read
      next inside =>
        obtain rfl : m = n := Except.ok.inj read
        exact ⟨rfl, inside⟩
      next => cases read
    next => cases read
  · rintro ⟨rfl, inside⟩
    simp [readInteger, int, inside]

theorem nat_inj {m n : Nat} : nat m = nat n ↔ m = n := by
  rw [nat, nat, Json.num.injEq, Number.int.injEq, Int.natCast_inj]

theorem map_eq_ok {α β : Type} {x : Except Misfit α} {f : α → β} {b : β} :
    x.map f = .ok b ↔ ∃ a, x = .ok a ∧ f a = b := by
  cases x <;> simp [Except.map]

theorem readUInt32_eq_ok {v : Json} {n : UInt32} : readUInt32 v = .ok n ↔ v = .nat n.toNat := by
  simp only [readUInt32, map_eq_ok, readInteger_eq_ok]
  constructor
  · rintro ⟨m, ⟨rfl, low, high⟩, rfl⟩
    have small : m.toNat < UInt32.size := by unfold UInt32.size; omega
    rw [UInt32.toNat_ofNat_of_lt' small, nat, int, Int.toNat_of_nonneg low]
  · rintro rfl
    have bound := n.toNat_lt
    exact ⟨n.toNat, ⟨rfl, by omega, by omega⟩, by simp⟩

theorem readUInt64_eq_ok {v : Json} {n : UInt64} : readUInt64 v = .ok n ↔ v = .nat n.toNat := by
  simp only [readUInt64, map_eq_ok, readInteger_eq_ok]
  constructor
  · rintro ⟨m, ⟨rfl, low, high⟩, rfl⟩
    have small : m.toNat < UInt64.size := by unfold UInt64.size; omega
    rw [UInt64.toNat_ofNat_of_lt' small, nat, int, Int.toNat_of_nonneg low]
  · rintro rfl
    have bound := n.toNat_lt
    exact ⟨n.toNat, ⟨rfl, by omega, by omega⟩, by simp⟩

theorem readInt32_eq_ok {v : Json} {n : Int32} : readInt32 v = .ok n ↔ v = .int n.toInt := by
  simp only [readInt32, map_eq_ok, readInteger_eq_ok]
  constructor
  · rintro ⟨m, ⟨rfl, low, high⟩, rfl⟩
    rw [Int32.toInt_ofInt_of_le low (by omega)]
  · rintro rfl
    have low := n.le_toInt
    have high := n.toInt_lt
    exact ⟨n.toInt, ⟨rfl, by omega, by omega⟩, by simp⟩

/-! ### Fields -/

/-- Setting a field a second time changes nothing, and whether it can be set is up to the value. -/
structure Field.Steady (f : Field σ) : Prop where
  again : ∀ {v s s'}, f.put v s = .ok s' → f.put v s' = .ok s'
  anywhere : ∀ {v s s'}, f.put v s = .ok s' → ∀ t, ∃ t', f.put v t = .ok t'

theorem Field.steady_of {α : Type} {set : α → σ → σ} (twice : ∀ a s, set a (set a s) = set a s)
    (name : String) (read : Json → Except Misfit α) : (Field.of name read set).Steady where
  again := by
    intro v s s' put
    obtain ⟨a, value, rfl⟩ := put_of_eq_ok.mp put
    exact put_of_eq_ok.mpr ⟨a, value, twice a s⟩
  anywhere := by
    intro v s s' put t
    obtain ⟨a, value, -⟩ := put_of_eq_ok.mp put
    exact ⟨set a t, put_of_eq_ok.mpr ⟨a, value, rfl⟩⟩

namespace Record

variable {r : Record σ} {s t : σ}

/-- To have a value under the name of a field is to have what the value reads as there. -/
theorem has_iff {α : Type} {k : String} {read : Json → Except Misfit α} {set : α → σ → σ}
    (get : σ → α) (field : r.fields.find? (fun f => f.name = k) = some (.of k read set))
    (kept : ∀ a s, set a s = s ↔ a = get s) {v : Json} : r.Has s k v ↔ read v = .ok (get s) := by
  rw [Has, putMember, field]
  refine Field.put_of_eq_ok.trans ?_
  simp [kept]

structure Exact (r : Record σ) : Prop where
  independent : r.Independent
  steady : ∀ f ∈ r.fields, f.Steady
  told : ∀ s t, (∀ f ∈ r.fields, ∃ v, r.Has s f.name v ∧ r.Has t f.name v) → s = t

theorem has_unknown {k : String} (unknown : ∀ f ∈ r.fields, f.name ≠ k) (v : Json) :
    r.Has s k v := by
  have none : r.fields.find? (fun f => f.name = k) = none := by simpa using unknown
  rw [Has, putMember, none]

theorem Exact.has_of_putMember (exact : r.Exact) {k : String} {v : Json} {s' : σ}
    (put : r.putMember k v s = .ok s') : r.Has s' k v := by
  unfold Has putMember at *
  split at put
  next f found => exact (exact.steady f (List.mem_of_find?_eq_some found)).again put
  next => rfl

theorem Exact.putMember_of_has (exact : r.Exact) {k : String} {v : Json} (has : r.Has s k v)
    (t : σ) : ∃ t', r.putMember k v t = .ok t' := by
  unfold Has putMember at *
  split at has
  next f found => exact (exact.steady f (List.mem_of_find?_eq_some found)).anywhere has t
  next => exact ⟨t, rfl⟩

/-- What a record has under a key survives that members with other keys are put. -/
theorem Exact.has_survives (exact : r.Exact) {k : String} {v : Json} {members : Members} {s' : σ}
    (others : ∀ e ∈ members, k ≠ e.1) (has : r.Has s k v)
    (put : r.putMembers members s = .ok s') : r.Has s' k v := by
  induction members generalizing s with
  | nil => exact Except.ok.inj put ▸ has
  | cons e rest ih =>
    rw [putMembers_cons] at put
    cases first : r.putMember e.1 e.2 s with
    | error e => simp [first, Except.bind] at put
    | ok s₁ =>
      rw [first] at put
      exact ih (fun e' member => others e' (List.mem_cons_of_mem _ member))
        (exact.independent.has (others e List.mem_cons_self) has first) put

theorem Exact.has_of_putMembers (exact : r.Exact) {members : Members}
    (sorted : Assoc.Sorted members) {s' : σ} (put : r.putMembers members s = .ok s') :
    ∀ e ∈ members, r.Has s' e.1 e.2 := by
  induction members generalizing s with
  | nil => simp
  | cons e rest ih =>
    obtain ⟨first, later⟩ := Assoc.sorted_cons.mp sorted
    rw [putMembers_cons] at put
    cases here : r.putMember e.1 e.2 s with
    | error e => simp [here, Except.bind] at put
    | ok s₁ =>
      rw [here] at put
      refine List.forall_mem_cons.mpr ⟨?_, ih later put⟩
      have others : ∀ e' ∈ rest, e.1 ≠ e'.1 := fun e' member => Std.ne_of_lt (first e' member)
      exact exact.has_survives others (exact.has_of_putMember here) put

theorem Exact.putMembers_of_has (exact : r.Exact) {members : Members}
    (has : ∀ e ∈ members, r.Has s e.1 e.2) (t : σ) : ∃ t', r.putMembers members t = .ok t' := by
  induction members generalizing t with
  | nil => exact ⟨t, rfl⟩
  | cons e rest ih =>
    obtain ⟨here, later⟩ := List.forall_mem_cons.mp has
    obtain ⟨t₁, first⟩ := exact.putMember_of_has here t
    rw [putMembers_cons, first]
    exact ih later t₁

/-- An object that names every field reads as the record that has what its members say. -/
theorem Exact.read_eq_ok (exact : r.Exact) {members : Members} (sorted : Assoc.Sorted members)
    (full : ∀ f ∈ r.fields, ∃ v, Assoc.find? f.name members = some v) {default : σ} :
    r.read default (.obj members) = .ok s ↔
      ∀ f ∈ r.fields, ∀ v, Assoc.find? f.name members = some v → r.Has s f.name v := by
  rw [read]
  constructor
  · intro put f _ v found
    exact exact.has_of_putMembers sorted put (f.name, v) (Assoc.mem_of_find? found)
  · intro has
    have all : ∀ e ∈ members, r.Has s e.1 e.2 := by
      intro e member
      by_cases known : ∃ f ∈ r.fields, f.name = e.1
      · obtain ⟨f, field, named⟩ := known
        exact named ▸ has f field e.2 (named.symm ▸ sorted.find?_of_mem member)
      · exact has_unknown (by simpa using known) e.2
    obtain ⟨t, put⟩ := exact.putMembers_of_has all default
    have same : t = s := by
      refine exact.told t s fun f field => ?_
      obtain ⟨v, found⟩ := full f field
      have member := Assoc.mem_of_find? found
      exact ⟨v, exact.has_of_putMembers sorted put _ member, all _ member⟩
    rw [put, same]

/-! ### Written members -/

/-- Members that a record is written as: under the name of each field the one value that the field
has there. -/
structure Written (r : Record σ) (write : σ → Members) : Prop where
  independent : r.Independent
  steady : ∀ f ∈ r.fields, f.Steady
  sorted : ∀ s, Assoc.Sorted (write s)
  names : ∀ s, ((write s).map Prod.fst).Perm (r.fields.map Field.name)
  tells : ∀ s, ∀ e ∈ write s, ∀ v, r.Has s e.1 v ↔ v = e.2
  injective : ∀ s t, write s = write t → s = t

variable {write : σ → Members}

theorem Written.mem_of_field (written : r.Written write) (s : σ) {f : Field σ}
    (field : f ∈ r.fields) : ∃ v, (f.name, v) ∈ write s := by
  have named := (written.names s).mem_iff.mpr (List.mem_map_of_mem field)
  obtain ⟨⟨k, v⟩, member, rfl⟩ := List.mem_map.mp named
  exact ⟨v, member⟩

theorem Written.field_of_mem (written : r.Written write) {e : String × Json}
    (member : e ∈ write s) : ∃ f ∈ r.fields, f.name = e.1 :=
  List.mem_map.mp ((written.names s).mem_iff.mp (List.mem_map_of_mem member))

theorem Written.mem_of_has (written : r.Written write) {f : Field σ} (field : f ∈ r.fields)
    {v : Json} : r.Has s f.name v ↔ (f.name, v) ∈ write s := by
  obtain ⟨w, member⟩ := written.mem_of_field s field
  rw [written.tells s _ member]
  constructor
  · rintro rfl
    exact member
  · intro member'
    have found := (written.sorted s).find?_of_mem member
    rw [(written.sorted s).find?_of_mem member'] at found
    exact Option.some.inj found

theorem Written.exact (written : r.Written write) : r.Exact where
  independent := written.independent
  steady := written.steady
  told := by
    intro s t both
    have inside (s t : σ) (both : ∀ f ∈ r.fields, ∃ v, r.Has s f.name v ∧ r.Has t f.name v)
        {e : String × Json} (member : e ∈ write s) : e ∈ write t := by
      obtain ⟨f, field, named⟩ := written.field_of_mem member
      obtain ⟨v, here, there⟩ := both f field
      rw [named, written.tells s e member] at here
      have member' := (written.mem_of_has field).mp there
      rwa [named, here] at member'
    refine written.injective s t ((written.sorted s).ext (written.sorted t) fun k => ?_)
    refine Option.ext fun v => ?_
    rw [← (written.sorted s).mem_iff_find?, ← (written.sorted t).mem_iff_find?]
    exact ⟨inside s t both, inside t s fun f field =>
      (both f field).imp fun v both => both.symm⟩

/-- An object that names every field reads as the record that is written with the same values. -/
theorem Written.read_eq_ok (written : r.Written write) {members : Members}
    (sorted : Assoc.Sorted members)
    (full : ∀ f ∈ r.fields, ∃ v, Assoc.find? f.name members = some v) {default : σ} :
    r.read default (.obj members) = .ok s ↔
      ∀ e ∈ write s, Assoc.find? e.1 members = some e.2 := by
  rw [written.exact.read_eq_ok sorted full]
  constructor
  · intro has e member
    obtain ⟨f, field, named⟩ := written.field_of_mem member
    obtain ⟨v, found⟩ := full f field
    have same := (written.tells s e member v).mp (named ▸ has f field v found)
    rw [← named, found, same]
  · intro same f field v found
    obtain ⟨w, member⟩ := written.mem_of_field s field
    rw [written.tells s _ member]
    exact Option.some.inj (found.symm.trans (same _ member))

/-! ### Keys that do not matter -/

def putFound (r : Record σ) (k : String) : Option Json → σ → Except Misfit σ
  | none, s => .ok s
  | some v, s => r.putMember k v s

theorem putFound_unknown {k : String} (unknown : ∀ f ∈ r.fields, f.name ≠ k) (found : Option Json)
    (s : σ) : r.putFound k found s = .ok s := by
  cases found with
  | none => rfl
  | some v => exact has_unknown unknown v

def Alike (r : Record σ) (members members' : Members) : Prop :=
  ∀ k s, r.putFound k (Assoc.find? k members) s = r.putFound k (Assoc.find? k members') s

theorem alike_of_same {members members' : Members}
    (same : ∀ f ∈ r.fields, Assoc.find? f.name members = Assoc.find? f.name members') :
    r.Alike members members' := by
  intro k s
  by_cases known : ∃ f ∈ r.fields, f.name = k
  · obtain ⟨f, field, rfl⟩ := known
    rw [same f field]
  · have unknown : ∀ f ∈ r.fields, f.name ≠ k := by simpa using known
    rw [putFound_unknown unknown, putFound_unknown unknown]

theorem Alike.idle {k : String} {v : Json} {rest members : Members}
    (alike : r.Alike ((k, v) :: rest) members) (absent : Assoc.find? k members = none) (s : σ) :
    r.putMember k v s = .ok s := by
  have here := alike k s
  rwa [absent, Assoc.find?, if_pos rfl] at here

theorem Alike.tail {k : String} {v : Json} {rest members : Members}
    (alike : r.Alike ((k, v) :: rest) members) (sorted : Assoc.Sorted ((k, v) :: rest))
    (absent : Assoc.find? k members = none) : r.Alike rest members := by
  intro j s
  by_cases same : j = k
  · rw [same, sorted.find?_tail, absent]
  · have here := alike j s
    rwa [Assoc.find?, if_neg same] at here

theorem Alike.tails {k : String} {v v' : Json} {rest rest' : Members}
    (alike : r.Alike ((k, v) :: rest) ((k, v') :: rest')) (sorted : Assoc.Sorted ((k, v) :: rest))
    (sorted' : Assoc.Sorted ((k, v') :: rest')) : r.Alike rest rest' := by
  intro j s
  by_cases same : j = k
  · rw [same, sorted.find?_tail, sorted'.find?_tail]
  · have here := alike j s
    rwa [Assoc.find?, Assoc.find?, if_neg same, if_neg same] at here

theorem Alike.symm {members members' : Members} (alike : r.Alike members members') :
    r.Alike members' members := fun k s => (alike k s).symm

theorem find?_below {k : String} {e : String × Json} {members : Members}
    (sorted : Assoc.Sorted (e :: members)) (below : k < e.1) :
    Assoc.find? k (e :: members) = none := by
  have sorted' : Assoc.Sorted ((k, Json.null) :: e :: members) := by
    refine Assoc.sorted_cons.mpr ⟨?_, sorted⟩
    intro e' member
    rcases List.mem_cons.mp member with rfl | later
    · exact below
    · exact Std.lt_trans below ((Assoc.sorted_cons.mp sorted).1 e' later)
  exact sorted'.find?_tail

/-- Objects that act the same under every key are read the same, to the same error as well. -/
theorem Alike.putMembers_eq {members members' : Members} (alike : r.Alike members members')
    (sorted : Assoc.Sorted members) (sorted' : Assoc.Sorted members') (s : σ) :
    r.putMembers members s = r.putMembers members' s := by
  match members, members' with
  | [], [] => rfl
  | (k, v) :: rest, [] =>
    rw [putMembers_cons, alike.idle rfl]
    exact (alike.tail sorted rfl).putMembers_eq (Assoc.sorted_cons.mp sorted).2 sorted' s
  | [], (k, v) :: rest =>
    rw [putMembers_cons, alike.symm.idle rfl]
    exact (alike.symm.tail sorted' rfl).symm.putMembers_eq sorted (Assoc.sorted_cons.mp sorted').2 s
  | (k, v) :: rest, (k', v') :: rest' =>
    -- The lesser of the two first keys is not in the other object.
    rcases Std.lt_trichotomy k k' with less | rfl | greater
    · have absent := find?_below sorted' less
      rw [putMembers_cons, alike.idle absent]
      exact (alike.tail sorted absent).putMembers_eq (Assoc.sorted_cons.mp sorted).2 sorted' s
    · have here := alike k s
      rw [Assoc.find?, Assoc.find?, if_pos rfl, if_pos rfl] at here
      rw [putMembers_cons, putMembers_cons, show r.putMember k v s = r.putMember k v' s from here]
      refine congrArg _ (funext fun s' => ?_)
      exact (alike.tails sorted sorted').putMembers_eq (Assoc.sorted_cons.mp sorted).2
        (Assoc.sorted_cons.mp sorted').2 s'
    · have absent := find?_below sorted greater
      rw [putMembers_cons _ k' v', alike.symm.idle absent]
      exact (alike.symm.tail sorted' absent).symm.putMembers_eq sorted
        (Assoc.sorted_cons.mp sorted').2 s
termination_by members.length + members'.length

end Record

end Postboard.Json
