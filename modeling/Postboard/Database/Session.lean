import Postboard.Database.Server

/-! Operations on a database: on a connection that is waited for, statements one after the other,
each sent when the one before it was answered, and all within one span of time.
-/

set_option autoImplicit false

namespace Postboard.Database

/-- A state of the database, and the milliseconds that an operation has taken so far. -/
structure Session (σ : Type) where
  state : σ
  elapsed : Nat
  deriving Repr

abbrev Operation (σ α : Type) := ExceptT Stop (StateM (Session σ)) α

namespace Operation

variable {σ α : Type}

/-- Do something with the database and wait for what comes of it until the time is up. -/
def await {ε : Type} (limit : Option Nat) (cause : ε → Cause)
    (act : σ → Network.Arrival (Except ε α) × σ) : Operation σ α := fun s =>
  let (arrival, state) := act s.state
  match arrival.within limit s.elapsed with
  | none => (.error .late, { s with state := state })
  | some (.ok a, elapsed) => (.ok a, ⟨state, elapsed⟩)
  | some (.error e, elapsed) => (.error (.cause (cause e)), ⟨state, elapsed⟩)

def acquire (db : Server σ) (limit : Option Nat) : Operation σ Unit := await limit id db.acquire

def ask (db : Server σ) (limit : Option Nat) (statement : Statement) : Operation σ Result :=
  await limit (fun refusal => .refused refusal.message) (db.run statement)

/-- Send a statement on a connection of its own. -/
def query (db : Server σ) (limit : Option Nat) (statement : Statement) : Operation σ Result := do
  acquire db limit
  ask db limit statement

def lift (r : Except Cause α) : Operation σ α := fun s =>
  match r with
  | .ok a => (.ok a, s)
  | .error c => (.error (.cause c), s)

def enclosed (db : Server σ) (limit : Option Nat) (body : Operation σ α) : Operation σ α := do
  let _ ← ask db limit .begin
  let a ← body
  let _ ← ask db limit .commit
  pure a

/-- `enclosed`, where the transaction is given up whatever stops it, the end of the time included. -/
def guarded (db : Server σ) (limit : Option Nat) (body : Operation σ α) : Operation σ α := fun s =>
  match enclosed db limit body s with
  | (.ok a, s) => (.ok a, s)
  | (.error stop, s) => (.error stop, { s with state := db.rollback stop s.state })

def transaction (db : Server σ) (limit : Option Nat) (body : Operation σ α) : Operation σ α := do
  acquire db limit
  guarded db limit body

def bounded (name : String) (limit : UInt64) (body : Operation σ α) (state : σ) :
    Except Error α × σ :=
  match body ⟨state, 0⟩ with
  | (.ok a, s) => (.ok a, s.state)
  | (.error (.cause c), s) => (.error (.failed (name ++ " failed") c), s.state)
  | (.error .late, s) => (.error (.timedOut name limit), s.state)

def unbounded (failure : String) (body : Operation σ α) (state : σ) : Except Error α × σ :=
  match body ⟨state, 0⟩ with
  | (.ok a, s) => (.ok a, s.state)
  | (.error (.cause c), s) => (.error (.failed failure c), s.state)
  | (.error .late, s) => (.error (.unanswered failure), s.state)

end Operation

/-! ### Rows -/

abbrev Row := List Cell

namespace Row

def int (r : Row) (i : Nat) (column : String) : Except Cause Int :=
  match r[i]? with
  | some (.int n) => .ok n
  | some .null => .error (.noValue column)
  | _ => .error (.mismatch column)

def text? (r : Row) (i : Nat) (column : String) : Except Cause (Option String) :=
  match r[i]? with
  | some (.text s) => .ok (some s)
  | some .null => .ok none
  | _ => .error (.mismatch column)

def text (r : Row) (i : Nat) (column : String) : Except Cause String :=
  match r.text? i column with
  | .ok (some s) => .ok s
  | .ok none => .error (.noValue column)
  | .error c => .error c

end Row

def Result.first (r : Result) : Except Cause Row :=
  match r.rows with
  | row :: _ => .ok row
  | [] => .error .noRow

def Result.number (r : Result) : Except Cause Int := r.first.bind fun row => Row.int row 0 "0"

end Postboard.Database
