import Postboard.Query.Basic
import Postboard.Reactive.Envelope
import Postboard.Reactive.Mode

/-! Clients of the backend.

A client turns a descriptor and a mode into a reply, which is a snapshot or a handle whatever mode
was asked for. The typed reads check that the reply is of the kind they want.
-/

set_option autoImplicit false

namespace Postboard.Reactive

inductive Reply where
  | snapshot (s : Snapshot)
  | handle (h : Handle)

structure Client (σ : Type) where
  request : Query.Descriptor → Mode → σ → Except Error Reply × σ

def Reply.asSnapshot : Reply → Except Error Snapshot
  | .snapshot s => .ok s
  | .handle _ => .error (.decode "snapshot request produced a stream handle")

def Reply.asHandle : Reply → Except Error Handle
  | .handle h => .ok h
  | .snapshot _ => .error (.decode "stream request produced a snapshot")

namespace Client

variable {σ : Type}

def fetchSnapshot (c : Client σ) (d : Query.Descriptor) (s : σ) : Except Error Snapshot × σ :=
  let (r, s') := c.request d .snapshot s
  (r.bind Reply.asSnapshot, s')

def openStream (c : Client σ) (d : Query.Descriptor) (s : σ) : Except Error Handle × σ :=
  let (r, s') := c.request d .stream s
  (r.bind Reply.asHandle, s')

def onSecond {τ : Type} (c : Client σ) : Client (τ × σ) where
  request d mode s :=
    let (r, s') := c.request d mode s.2
    (r, (s.1, s'))

end Client

/-! ### A client with canned replies -/

/-- The replies of a scripted client; a mode without one answers that it is unavailable. -/
structure Script where
  snapshot : Option (Except Error Snapshot)
  stream : Option (Except Error Handle)

structure Call where
  mode : Mode
  descriptor : Query.Descriptor
  deriving DecidableEq, Repr

def Script.reply (script : Script) : Mode → Except Error Reply
  | .snapshot =>
    match script.snapshot with
    | some r => r.map Reply.snapshot
    | none => .error (.unavailable "no scripted snapshot reply")
  | .stream =>
    match script.stream with
    | some r => r.map Reply.handle
    | none => .error (.unavailable "no scripted stream reply")

def Script.client (script : Script) : Client (List Call) where
  request d mode log := (script.reply mode, log ++ [⟨mode, d⟩])

def Call.count (mode : Mode) (log : List Call) : Nat :=
  (log.filter fun c => c.mode = mode).length

end Postboard.Reactive
