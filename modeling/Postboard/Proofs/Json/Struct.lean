import Postboard.Json.Struct
import Postboard.Proofs.Json.Printed

/-! A structure is read from the text of an object whose members its fields take, one after the other.
-/

set_option autoImplicit false

namespace Postboard.Json

open Text

variable {σ α : Type}

def TextField.Takes (f : TextField σ) (v : Json) (s s' : σ) : Prop :=
  ∀ rest, Parser.Ends rest → f.put s (Utf8.encode v.chars ++ rest) = .ok (s', rest)

theorem TextField.Takes.of {τ : Type} {read : List UInt8 → Except Fault (τ × List UInt8)} {v : Json}
    {a : τ} (reads : ∀ rest, Parser.Ends rest → read (Utf8.encode v.chars ++ rest) = .ok (a, rest))
    (name : String) (set : τ → σ → σ) (s : σ) :
    (TextField.of name read set).Takes v s (set a s) := by
  intro rest ends
  simp only [TextField.of, reads rest ends, Except.map]

namespace Struct

variable {t : Struct σ α}

/-- Members that the fields take in turn. -/
inductive Sets (t : Struct σ α) : σ → Members → σ → Prop where
  | nil {s : σ} : Sets t s [] s
  | cons {f : TextField σ} {k : String} {v : Json} {ms : Members} {s s₁ s₂ : σ} :
      t.fields.find? (fun f => f.name = k) = some f → f.Takes v s s₁ → Sets t s₁ ms s₂ →
      Sets t s ((k, v) :: ms) s₂

theorem memberValue_takes {f : TextField σ} {k : String} {v : Json} {s s' : σ} {seen : List String}
    (found : t.fields.find? (fun f => f.name = k) = some f) (takes : f.Takes v s s')
    (fresh : k ∉ seen) (rest : List UInt8) (ends : Parser.Ends rest) :
    t.memberValue seen s k (0x3A :: (Utf8.encode v.chars ++ rest)) = .ok ((k :: seen, s'), rest) := by
  simp only [memberValue, found, fresh, if_false, Parser.colon_cons, syntactic, takes rest ends, bind,
    Except.bind, located]

theorem members_sets {m : String × Json} {ms : Members} {s s' : σ} (sets : t.Sets s (m :: ms) s')
    (distinct : ((m :: ms).map Prod.fst).Nodup) (seen : List String)
    (fresh : ∀ n ∈ m :: ms, n.1 ∉ seen) {bound : Nat} (room : ms.length < bound)
    (rest : List UInt8) :
    ∃ input, Utf8.encode (memberChars (m :: ms)) ++ 0x7D :: rest = 0x22 :: input ∧
      t.members bound seen s input = .ok (s', rest) := by
  induction ms generalizing m s seen bound with
  | nil =>
    obtain ⟨bound, rfl⟩ := Nat.exists_eq_add_one_of_ne_zero (Nat.ne_of_gt room)
    obtain ⟨k, v⟩ := m
    rcases sets with - | ⟨found, takes, - | -⟩
    have read := memberValue_takes found takes (fresh (k, v) List.mem_cons_self)
      (0x7D :: rest) ⟨rfl, by decide, by decide, by decide⟩
    refine ⟨_, Parser.encode_member k v _, ?_⟩
    simp only [members, Parser.string_keyBytes, syntactic, located, bind, Except.bind, read]
    simp [Parser.skipSpace, Parser.isSpace]
  | cons n ms ih =>
    obtain ⟨bound, rfl⟩ := Nat.exists_eq_add_one_of_ne_zero (Nat.ne_of_gt (Nat.zero_lt_of_lt room))
    obtain ⟨k, v⟩ := m
    rcases sets with - | ⟨found, takes, later⟩
    rw [List.map_cons, List.nodup_cons] at distinct
    -- A key that has been read does not come again, so no later member is a duplicate.
    have fresh' : ∀ u ∈ n :: ms, u.1 ∉ k :: seen := by
      intro u member here
      rcases List.mem_cons.mp here with same | before
      · exact distinct.1 (List.mem_map.mpr ⟨u, member, same⟩)
      · exact fresh u (List.mem_cons_of_mem _ member) before
    obtain ⟨input, shape, after⟩ := ih later distinct.2 (k :: seen) fresh' (Nat.lt_of_succ_lt_succ room)
    have read := memberValue_takes found takes (fresh (k, v) List.mem_cons_self)
      (0x2C :: 0x22 :: input) ⟨rfl, by decide, by decide, by decide⟩
    have comma : Parser.skipSpace (0x2C :: 0x22 :: input) = 0x2C :: 0x22 :: input :=
      Parser.skipSpace_cons rfl _
    have quoted : Parser.skipSpace (0x22 :: input) = 0x22 :: input := Parser.skipSpace_cons rfl _
    refine ⟨_, Parser.encode_members shape, ?_⟩
    simp only [members, Parser.string_keyBytes, syntactic, located, bind, Except.bind, read, comma,
      quoted]
    simpa using after

theorem read_sets {ms : Members} {s : σ} {a : α} (sets : t.Sets t.start ms s)
    (distinct : (ms.map Prod.fst).Nodup) (whole : t.whole s = .ok a) (rest : List UInt8) :
    t.read (Utf8.encode (Json.obj ms).chars ++ rest) = .ok (a, rest) := by
  have finish : t.finish s = .ok a := by
    rw [Struct.finish, whole]
    rfl
  rw [Json.chars, List.cons_append, Utf8.encode_ascii (by decide), Utf8.encode_append,
    Utf8.encode_ascii (by decide), Utf8.encode_nil]
  cases ms with
  | nil =>
    rcases sets with - | -
    simp [memberChars, read, ofObject, finish, Parser.skipSpace, Parser.isSpace, bind, Except.bind]
  | cons m ms =>
    have size := Parser.length_memberChars m ms
    have bytes := Utf8.length_le_encode (memberChars (m :: ms))
    have room : ms.length < (Utf8.encode (memberChars (m :: ms)) ++ 0x7D :: rest).length := by
      simp only [List.length_append, List.length_cons]
      omega
    obtain ⟨input, shape, inside⟩ := members_sets sets distinct []
      (fun _ _ => List.not_mem_nil) room rest
    rw [shape, List.length_cons] at inside
    have opening : Parser.skipSpace (0x7B :: 0x22 :: input) = 0x7B :: 0x22 :: input :=
      Parser.skipSpace_cons rfl _
    have quoted : Parser.skipSpace (0x22 :: input) = 0x22 :: input := Parser.skipSpace_cons rfl _
    rw [List.cons_append, List.append_assoc, List.cons_append, List.nil_append]
    simp only [Char.reduceToNat, UInt8.reduceOfNat, shape]
    simp [read, ofObject, opening, quoted, inside, finish, bind, Except.bind]

/-- Members in any order: each field that there is takes its value. -/
theorem parse_sets {ms : Members} {s : σ} {a : α} (sets : t.Sets t.start ms s)
    (distinct : (ms.map Prod.fst).Nodup) (whole : t.whole s = .ok a) :
    t.parse (Json.obj ms).bytes = .ok a := by
  have read := read_sets sets distinct whole []
  rw [List.append_nil] at read
  simp [parse, bytes, read, complete, syntactic, Parser.atEnd, Parser.skipSpace]

end Struct

end Postboard.Json
