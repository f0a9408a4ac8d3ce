/-! Finite maps as association lists in increasing key order.

A map is plain data, so that it can stand inside a recursive type. `Sorted` is the invariant that
every operation keeps: keys strictly increase, hence no key occurs twice and equal maps are equal
lists.
-/

set_option autoImplicit false

namespace Postboard.Assoc

variable {κ : Type} {α : Type}

def Sorted [LT κ] (m : List (κ × α)) : Prop := m.Pairwise (fun a b => a.1 < b.1)

def find? [DecidableEq κ] (k : κ) : List (κ × α) → Option α
  | [] => none
  | (k', v) :: rest => if k = k' then some v else find? k rest

def insert [DecidableEq κ] [LT κ] [DecidableLT κ] (k : κ) (v : α) : List (κ × α) → List (κ × α)
  | [] => [(k, v)]
  | (k', v') :: rest =>
    if k < k' then (k, v) :: (k', v') :: rest
    else if k = k' then (k, v) :: rest
    else (k', v') :: insert k v rest

def erase [DecidableEq κ] (k : κ) : List (κ × α) → List (κ × α)
  | [] => []
  | (k', v') :: rest => if k = k' then rest else (k', v') :: erase k rest

def contains [DecidableEq κ] (k : κ) (m : List (κ × α)) : Bool := (find? k m).isSome

/-- Enter pairs from left to right: of two values under one key the last stays. -/
def ofList [DecidableEq κ] [LT κ] [DecidableLT κ] (pairs : List (κ × α)) : List (κ × α) :=
  pairs.foldl (fun m p => insert p.1 p.2 m) []

end Postboard.Assoc
