import Postboard.Json.Fault

/-! Records read from JSON values, with a default for every field.

An object sets the fields that its keys name, in key order, and other keys do not matter. A list sets
the fields in their own order; it may be shorter than the record but not longer. The first misfit
ends the reading.
-/

set_option autoImplicit false

namespace Postboard.Json

/-- A field of a record: its name and how a JSON value sets it. -/
structure Field (σ : Type) where
  name : String
  put : Json → σ → Except Misfit σ

variable {σ : Type}

def Field.of {α : Type} (name : String) (read : Json → Except Misfit α) (set : α → σ → σ) :
    Field σ :=
  ⟨name, fun v s => (read v).map fun a => set a s⟩

/-- A record: how messages call it, and its fields in order. -/
structure Record (σ : Type) where
  name : String
  fields : List (Field σ)

namespace Record

def putMember (r : Record σ) (key : String) (v : Json) (s : σ) : Except Misfit σ :=
  match r.fields.find? (fun f => f.name = key) with
  | some f => f.put v s
  | none => .ok s

def putMembers (r : Record σ) : List (String × Json) → σ → Except Misfit σ
  | [], s => .ok s
  | (k, v) :: rest, s =>
    match r.putMember k v s with
    | .ok s => putMembers r rest s
    | .error e => .error e

/-- Set fields from items, as long as there are both. -/
def putItems : List (Field σ) → List Json → σ → Except Misfit σ
  | f :: fields, v :: rest, s =>
    match f.put v s with
    | .ok s => putItems fields rest s
    | .error e => .error e
  | _, _, s => .ok s

def read (r : Record σ) (default : σ) : Json → Except Misfit σ
  | .obj members => r.putMembers members default
  | .arr items =>
    match putItems r.fields items default with
    | .ok s =>
      if items.length ≤ r.fields.length then .ok s
      else .error (.length items.length "fewer elements in array")
    | .error e => .error e
  | v => .error (.type v ("struct " ++ r.name))

end Record

def readString : Json → Except Misfit String
  | .str s => .ok s
  | v => .error (.type v "a string")

def readInteger (low high : Int) (wanted : String) : Json → Except Misfit Int
  | .num (.int n) => if low ≤ n ∧ n ≤ high then .ok n else .error (.range n wanted)
  | v => .error (.type v wanted)

def readUInt32 (v : Json) : Except Misfit UInt32 :=
  (readInteger 0 0xFFFFFFFF "u32" v).map fun n => UInt32.ofNat n.toNat

def readUInt64 (v : Json) : Except Misfit UInt64 :=
  (readInteger 0 0xFFFFFFFFFFFFFFFF "u64" v).map fun n => UInt64.ofNat n.toNat

def readInt32 (v : Json) : Except Misfit Int32 :=
  (readInteger (-0x80000000) 0x7FFFFFFF "i32" v).map Int32.ofInt

end Postboard.Json
