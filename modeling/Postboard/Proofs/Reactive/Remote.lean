import Postboard.Proofs.Query.Forms
import Postboard.Reactive.Remote

/-! Reads from a remote backend: the one request that is sent, and what each response comes to.

A read fails as unavailable when no complete response arrives in time, as a failure of the backend
when one arrives that is no success, and is otherwise what decoding the body for its mode gives.
-/

set_option autoImplicit false

namespace Postboard.Reactive

open Text

namespace Remote

variable {σ : Type}

/-! ### Requests -/

/-- A transport that also records the requests it is given, the oldest first. -/
def Transport.recorded (t : Transport σ) : Transport (σ × List Request) where
  send request s :=
    let (arrival, state) := t.send request s.1
    (arrival, (state, s.2 ++ [request]))

/-- A complete response arrives before the time is up. -/
def Arrives (r : Remote) (arrival : Network.Arrival (Except Fault Response))
    (response : Response) : Prop :=
  ∃ delay, arrival = .after delay (.ok response) ∧ delay < r.timeout.toNat

def Succeeds (status : UInt16) : Prop := 200 ≤ status.toNat ∧ status.toNat < 300

theorem isSuccess_iff {status : UInt16} : isSuccess status = true ↔ Succeeds status := by
  simp [isSuccess, Succeeds, UInt16.le_iff_toNat_le, UInt16.lt_iff_toNat_lt]

theorem outcome_arrived {r : Remote} {arrival : Network.Arrival (Except Fault Response)}
    {response : Response} (arrived : Arrives r arrival response) (url : String) (mode : Mode) :
    r.outcome url mode arrival = interpret response mode := by
  obtain ⟨delay, rfl, inTime⟩ := arrived
  simp [outcome, Network.Arrival.within, inTime]

/-- What a read comes to: nothing in time, a response that is no success, or one to decode. -/
theorem outcome_cases (r : Remote) (url : String) (mode : Mode)
    (arrival : Network.Arrival (Except Fault Response)) :
    ((∀ response, ¬ Arrives r arrival response) ∧
      ∃ reason, r.outcome url mode arrival = .error (.unavailable reason)) ∨
    ∃ response, Arrives r arrival response ∧
      (¬ Succeeds response.status ∧
        (∃ text, r.outcome url mode arrival = .error (.backend response.status text)) ∨
      Succeeds response.status ∧ r.outcome url mode arrival = decode response.body mode) := by
  cases arrival with
  | never =>
    refine .inl ⟨?_, _, rfl⟩
    rintro response ⟨delay, same, -⟩
    cases same
  | after delay value =>
    by_cases inTime : delay < r.timeout.toNat
    · cases value with
      | error f =>
        refine .inl ⟨?_, f.message url, ?_⟩
        · rintro response ⟨delay, same, -⟩
          cases same
        · simp [outcome, Network.Arrival.within, inTime]
      | ok response =>
        have arrived : Arrives r (.after delay (.ok response)) response := ⟨delay, rfl, inTime⟩
        have reply := outcome_arrived arrived url mode
        refine .inr ⟨response, arrived, ?_⟩
        by_cases success : isSuccess response.status = true
        · exact .inr ⟨isSuccess_iff.mp success, by rw [reply, interpret, if_pos success]⟩
        · refine .inl ⟨fun yes => success (isSuccess_iff.mpr yes), ?_⟩
          rw [reply, interpret, if_neg success]
          exact ⟨_, rfl⟩
    · refine .inl ⟨?_, "error sending request for url (" ++ url ++ ")", ?_⟩
      · rintro response ⟨delay', same, before⟩
        obtain ⟨rfl, -⟩ := Network.Arrival.after.inj same
        exact inTime before
      · simp [outcome, Network.Arrival.within, inTime]

theorem arrives_unique {r : Remote} {arrival : Network.Arrival (Except Fault Response)}
    {response response' : Response} (first : Arrives r arrival response)
    (second : Arrives r arrival response') : response = response' := by
  obtain ⟨delay, rfl, -⟩ := first
  obtain ⟨delay', same, -⟩ := second
  exact Except.ok.inj (Network.Arrival.after.inj same).2

/-! ### Decoding -/

def mismatch : Mode → Error
  | .snapshot => .decode "snapshot request produced a stream handle"
  | .stream => .decode "stream request produced a snapshot"

def Suits : Mode → Reply → Prop
  | .snapshot, .snapshot _ => True
  | .stream, .handle _ => True
  | _, _ => False

theorem append_ne {a b : String} (different : ¬ a.toList <+: b.toList) (rest : String) :
    a ++ rest ≠ b := by
  rintro rfl
  rw [String.toList_append] at different
  exact different (List.prefix_append _ _)

theorem snapshotFault_ne (f : SnapshotFault) :
    f.reason ≠ "snapshot request produced a stream handle" := by
  cases f with
  | notJson why => exact append_ne (by simp) _
  | notArray kind => exact append_ne (by simp) _
  | row index fault =>
    change "row " ++ Decimal.ofNat index ++ ": " ++ fault.reason ≠ _
    rw [String.append_assoc, String.append_assoc]
    exact append_ne (by simp) _

theorem streamFault_ne (f : StreamFault) : f.reason ≠ "stream request produced a snapshot" := by
  cases f with
  | notUtf8 fault => exact append_ne (by simp) _
  | badString why => exact append_ne (by simp) _
  | structured =>
    change "stream response is structured JSON, expected a token" ≠ _
    simp
  | token fault =>
    cases fault with
    | empty =>
      change "stream token is empty" ≠ _
      simp
    | forbidden c => exact append_ne (by simp) _

theorem decode_cases (body : List UInt8) (mode : Mode) :
    (∃ reply, decode body mode = .ok reply ∧ Suits mode reply) ∨
      ∃ reason, decode body mode = .error (.decode reason) ∧ .decode reason ≠ mismatch mode := by
  cases mode with
  | snapshot =>
    simp only [decode, Snapshot.read]
    cases Snapshot.ofBody body with
    | ok rows => exact .inl ⟨.snapshot rows, rfl, trivial⟩
    | error f => exact .inr ⟨f.reason, rfl, fun same => snapshotFault_ne f (Error.decode.inj same)⟩
  | stream =>
    simp only [decode, Handle.readBody]
    cases Handle.ofBody body with
    | ok h => exact .inl ⟨.handle h, rfl, trivial⟩
    | error f => exact .inr ⟨f.reason, rfl, fun same => streamFault_ne f (Error.decode.inj same)⟩

theorem decode_suits {body : List UInt8} {mode : Mode} {answer : Reply}
    (read : decode body mode = .ok answer) : Suits mode answer := by
  rcases decode_cases body mode with ⟨reply, good, suits⟩ | ⟨reason, bad, -⟩
  · obtain rfl := Except.ok.inj (good.symm.trans read)
    exact suits
  · rw [bad] at read
    cases read

theorem decode_error {body : List UInt8} {mode : Mode} {e : Error}
    (failed : decode body mode = .error e) : (∃ reason, e = .decode reason) ∧ e ≠ mismatch mode := by
  rcases decode_cases body mode with ⟨reply, good, -⟩ | ⟨reason, bad, typed⟩
  · rw [good] at failed
    cases failed
  · obtain rfl := Except.error.inj (bad.symm.trans failed)
    exact ⟨⟨reason, rfl⟩, typed⟩

/-! ### Reads -/

structure Classified (r : Remote) (mode : Mode)
    (arrival : Network.Arrival (Except Fault Response)) (reply : Except Error Reply) : Prop where
  unavailable : (∃ reason, reply = .error (.unavailable reason)) ↔
    ∀ response, ¬ Arrives r arrival response
  backend : ∀ status, (∃ text, reply = .error (.backend status text)) ↔
    ∃ body, Arrives r arrival ⟨status, body⟩ ∧ ¬ Succeeds status
  decoded : ∀ response, Arrives r arrival response → Succeeds response.status →
    reply = match mode with
      | .snapshot => (Snapshot.read response.body).map .snapshot
      | .stream => (Handle.readBody response.body).map .handle
  suits : ∀ answer, reply = .ok answer → Suits mode answer
  typed : reply ≠ .error (mismatch mode)

theorem outcome_classified (r : Remote) (url : String) (mode : Mode)
    (arrival : Network.Arrival (Except Fault Response)) :
    Classified r mode arrival (r.outcome url mode arrival) := by
  rcases outcome_cases r url mode arrival with
    ⟨nothing, reason, reply⟩ | ⟨response, arrived, ⟨failure, text, reply⟩ | ⟨success, reply⟩⟩
  · rw [reply]
    exact {
      unavailable := iff_of_true ⟨reason, rfl⟩ nothing
      backend := fun status =>
        iff_of_false (by simp) fun ⟨body, arrived, _⟩ => nothing _ arrived
      decoded := fun response arrived => absurd arrived (nothing response)
      suits := by simp
      typed := by cases mode <;> simp [mismatch] }
  · rw [reply]
    exact {
      unavailable := iff_of_false (by simp) fun nothing => nothing _ arrived
      backend := by
        intro status
        constructor
        · rintro ⟨text', same⟩
          obtain ⟨rfl, -⟩ := Error.backend.inj (Except.error.inj same)
          exact ⟨response.body, arrived, failure⟩
        · rintro ⟨body, arrived', -⟩
          obtain rfl := arrives_unique arrived arrived'
          exact ⟨text, rfl⟩
      decoded := by
        intro response' arrived' success
        obtain rfl := arrives_unique arrived arrived'
        exact absurd success failure
      suits := by simp
      typed := by cases mode <;> simp [mismatch] }
  · rw [reply]
    exact {
      unavailable := by
        refine iff_of_false ?_ fun nothing => nothing _ arrived
        rintro ⟨reason, failed⟩
        obtain ⟨⟨_, same⟩, -⟩ := decode_error failed
        cases same
      backend := by
        refine fun status => iff_of_false ?_ ?_
        · rintro ⟨text, failed⟩
          obtain ⟨⟨_, same⟩, -⟩ := decode_error failed
          cases same
        · rintro ⟨body, arrived', failure⟩
          obtain rfl := arrives_unique arrived arrived'
          exact failure success
      decoded := by
        intro response' arrived' _
        obtain rfl := arrives_unique arrived arrived'
        cases mode <;> rfl
      suits := fun answer => decode_suits
      typed := fun failed => (decode_error failed).2 rfl }

theorem request_stream (t : Transport σ) (r : Remote) (d : Query.Descriptor) (s : σ) :
    (client t r).request d .stream s =
      (((client t r).openStream d s).1.map .handle, ((client t r).openStream d s).2) := by
  have suits := (outcome_classified r (r.requestFor d .stream).url .stream
    (t.send (r.requestFor d .stream) s).1).suits
  refine Prod.ext ?_ rfl
  simp only [Client.openStream, client]
  cases reply : r.outcome (r.requestFor d .stream).url .stream
      (t.send (r.requestFor d .stream) s).1 with
  | error e => rfl
  | ok answer =>
    cases answer with
    | handle h => rfl
    | snapshot rows => exact (suits _ reply).elim

end Remote

end Postboard.Reactive
