import Postboard.Proofs.Json.Struct
import Postboard.Service.Failure

/-! The response to a failure tells the failure: its body is read back as the message, the kind and
the status of the backend, and no two failures have all three in common.
-/

set_option autoImplicit false

namespace Postboard

open Text

/-! ### Messages -/

theorem Query.Error.eq_of_message {e e' : Query.Error} (kind : e.kind = e'.kind)
    (message : e.message = e'.message) : e = e' := by
  cases e with
  | invalidParameter view reason =>
    cases e' with
    | invalidParameter view' reason' =>
      cases view
      cases view'
      rw [(String.append_right_inj _).mp message]
    | unknownQuery name' => simp [Query.Error.kind] at kind
  | unknownQuery name =>
    cases e' with
    | invalidParameter view' reason' => simp [Query.Error.kind] at kind
    | unknownQuery name' =>
      rw [(String.append_right_inj _).mp ((String.append_left_inj _).mp message)]

theorem Reactive.Error.eq_of_message {e e' : Reactive.Error} (kind : e.kind = e'.kind)
    (status : e.status? = e'.status?) (message : e.message = e'.message) : e = e' := by
  cases e with
  | unavailable reason =>
    cases e' with
    | unavailable reason' => rw [(String.append_right_inj _).mp message]
    | backend n text => simp [status?] at status
    | decode reason' => simp [Reactive.Error.kind] at kind
  | backend n text =>
    cases e' with
    | unavailable reason' => simp [status?] at status
    | backend n' text' =>
      obtain rfl : n = n' := Option.some.inj status
      rw [(String.append_right_inj _).mp message]
    | decode reason' => simp [status?] at status
  | decode reason =>
    cases e' with
    | unavailable reason' => simp [Reactive.Error.kind] at kind
    | backend n text => simp [status?] at status
    | decode reason' => rw [(String.append_right_inj _).mp message]

theorem Query.Error.kind_ne (e : Query.Error) (e' : Reactive.Error) : e.kind ≠ e'.kind := by
  cases e <;> cases e' <;> simp [Query.Error.kind, Reactive.Error.kind]

namespace Service

/-! ### The status of the backend -/

theorem FailureBody.statusOf_nat (n : UInt16) : statusOf (.nat n.toNat) = .ok (some n) := by
  have bounds : (0 : Int) ≤ n.toNat ∧ (n.toNat : Int) ≤ 0xFFFF := by
    have small := n.toNat_lt
    omega
  simp [statusOf, Json.nat, Json.readInteger, bounds, Except.map]

theorem FailureBody.statusValue_nat (n : UInt16) {rest : List UInt8} (ends : Json.Parser.Ends rest) :
    statusValue (Utf8.encode (Json.nat n.toNat).chars ++ rest) = .ok (some n, rest) := by
  have small := n.toNat_lt
  have read := Json.Parser.reads_int (n := n.toNat) (by omega) (by omega) 0 0 rest ends
  obtain ⟨b, input, shape, digit⟩ := Json.Parser.encode_digits n.toNat
  have visible := Json.Parser.isSpace_digit digit
  have noBracket := Json.Parser.not_digit digit (c := 0x5B) rfl
  have noBrace := Json.Parser.not_digit digit (c := 0x7B) rfl
  rw [Json.Parser.chars_nonneg (by omega), Int.natAbs_natCast, shape, List.cons_append,
    Json.Parser.value_scalar visible noBracket noBrace] at read
  have number := statusOf_nat n
  rw [Json.nat] at number ⊢
  rw [Json.Parser.chars_nonneg (by omega), Int.natAbs_natCast, shape, List.cons_append, statusValue,
    Json.Parser.skipSpace_cons visible]
  simp [noBracket, noBrace, read, number]

namespace Failure

/-! ### The body -/

def account (f : Failure) : FailureBody := ⟨f.message, f.kind, f.backendStatus?⟩

theorem account_injective : Function.Injective account := by
  intro f g same
  obtain ⟨message, kind, status⟩ := FailureBody.mk.inj same
  cases f with
  | query e =>
    cases g with
    | query e' => rw [Query.Error.eq_of_message kind message]
    | reactive e' => exact absurd kind (Query.Error.kind_ne e e')
  | reactive e =>
    cases g with
    | query e' => exact absurd kind.symm (Query.Error.kind_ne e' e)
    | reactive e' => rw [Reactive.Error.eq_of_message kind status message]

def statusMember : Option UInt16 → Json.Members
  | some n => [("backend_status", .nat n.toNat)]
  | none => []

def members (f : Failure) : Json.Members :=
  ("error", .str f.message) :: ("kind", .str f.kind) :: statusMember f.backendStatus?

theorem bytes_body (f : Failure) : Utf8.bytes f.response.body = (Json.obj f.members).bytes :=
  congrArg Utf8.encode String.toList_ofList

theorem distinct_members (f : Failure) : (f.members.map Prod.fst).Nodup := by
  unfold members
  cases f.backendStatus? <;> simp [statusMember]

theorem sets_text (name : String) {set : String → FailureBody.Found → FailureBody.Found}
    (found : FailureBody.struct.fields.find? (fun f => f.name = name) =
      some (.of name Json.stringValue set)) (text : String) {ms : Json.Members}
    {s s' : FailureBody.Found} (later : FailureBody.struct.Sets (set text s) ms s') :
    FailureBody.struct.Sets s ((name, .str text) :: ms) s' :=
  .cons found (.of (fun rest _ => Json.stringValue_quote text rest) name set s) later

theorem sets_status (given : Option UInt16) (error kind : Option String) :
    FailureBody.struct.Sets ⟨error, kind, none⟩ (statusMember given) ⟨error, kind, given⟩ := by
  cases given with
  | none => exact .nil
  | some n => exact .cons rfl (.of (fun _ => FailureBody.statusValue_nat n) _ _ _) .nil

theorem parse_body (f : Failure) :
    FailureBody.parse (Utf8.bytes f.response.body) = .ok f.account := by
  have status := sets_status f.backendStatus? (some f.message) (some f.kind)
  have sets := sets_text "error" rfl f.message (s := ⟨none, none, none⟩)
    (sets_text "kind" rfl f.kind status)
  rw [bytes_body]
  exact Json.Struct.parse_sets sets f.distinct_members rfl

theorem whole_members {f : Failure} {m : String × Json} (member : m ∈ f.members) (depth : Nat) :
    Json.Whole depth m.2 := by
  unfold members at member
  rcases List.mem_cons.mp member with rfl | member
  · exact .str _
  rcases List.mem_cons.mp member with rfl | member
  · exact .str _
  cases given : f.backendStatus? with
  | none => simp [given, statusMember] at member
  | some n =>
    have small := n.toNat_lt
    obtain rfl : m = ("backend_status", .nat n.toNat) := by simpa [given, statusMember] using member
    exact .int (by omega) (by omega)

theorem parse_members (f : Failure) :
    Json.parse (Utf8.bytes f.response.body) = .ok (.obj (statusMember f.backendStatus? ++
      [("error", .str f.message), ("kind", .str f.kind)])) := by
  have whole : ∀ m ∈ f.members, Json.Whole 126 m.2 := fun m member => whole_members member 126
  have behind : ¬ "kind" < "error" := by decide
  rw [bytes_body, Json.parse_members rfl whole]
  unfold members
  cases f.backendStatus? <;>
  · simp only [Json.object, Assoc.ofList, statusMember, List.foldl, Assoc.insert, if_neg behind]
    rfl

/-! ### What is reported -/

theorem backendStatus?_eq_some {f : Failure} {n : UInt16} :
    f.backendStatus? = some n ↔ ∃ text, f = .reactive (.backend n text) := by
  constructor
  · intro given
    cases f with
    | query e => simp [backendStatus?] at given
    | reactive e =>
      cases e with
      | unavailable reason => simp [backendStatus?, Reactive.Error.status?] at given
      | backend n' text =>
        obtain rfl : n' = n := Option.some.inj given
        exact ⟨text, rfl⟩
      | decode reason => simp [backendStatus?, Reactive.Error.status?] at given
  · rintro ⟨text, rfl⟩
    rfl

structure Reported (f : Failure) (members : Json.Members) (body : FailureBody) : Prop where
  error : body.error = f.message
  kind : body.kind = f.kind
  status : ∀ n, body.backendStatus = some n ↔ ∃ text, f = .reactive (.backend n text)
  member : ∀ v, Assoc.find? "backend_status" members = some v ↔
    ∃ n text, v = .nat n.toNat ∧ f = .reactive (.backend n text)

theorem find?_status (f : Failure) (v : Json) :
    Assoc.find? "backend_status" (statusMember f.backendStatus? ++
      [("error", .str f.message), ("kind", .str f.kind)]) = some v ↔
        ∃ n text, v = .nat n.toNat ∧ f = .reactive (.backend n text) := by
  simp only [exists_and_left, ← backendStatus?_eq_some]
  cases f.backendStatus? with
  | none => simp [statusMember, Assoc.find?]
  | some n => simp [statusMember, Assoc.find?, eq_comm]

/-- Two failures have one response when they are the same, and only then. The body is read back as
the message, the kind and the status of the backend. -/
theorem responses_tell_failures :
    (∀ f g : Failure, f.response.status = g.response.status ∧
      Utf8.bytes f.response.body = Utf8.bytes g.response.body ↔ f = g) ∧
    ∀ f : Failure, ∃ members body,
      Json.parse (Utf8.bytes f.response.body) = .ok (.obj members) ∧
      FailureBody.parse (Utf8.bytes f.response.body) = .ok body ∧ Reported f members body := by
  constructor
  · intro f g
    constructor
    · rintro ⟨-, same⟩
      have read := parse_body f
      rw [same, parse_body g] at read
      exact account_injective (Except.ok.inj read).symm
    · rintro rfl
      exact ⟨rfl, rfl⟩
  · intro f
    exact ⟨_, _, parse_members f, parse_body f, {
      error := rfl
      kind := rfl
      status := fun n => backendStatus?_eq_some
      member := find?_status f }⟩

example : FailureBody.parse (Utf8.bytes (Failure.reactive (.backend 503 "\"\n")).response.body) =
    .ok ⟨"reactive backend returned status 503: \"\n", "backend_error", some 503⟩ := parse_body _

end Failure

end Service

end Postboard
