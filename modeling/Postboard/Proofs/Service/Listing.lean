import Postboard.Proofs.Json.Printed
import Postboard.Proofs.Reactive.Flat
import Postboard.Proofs.Reactive.Remote
import Postboard.Proofs.Service.Limits

/-! The listing that is answered to a read: what the snapshot in the body of the backend is shown
as. -/

set_option autoImplicit false

namespace Postboard.Service

open Http Text Reactive

variable {σ ε : Type}

/-- A success from the backend is read as its body is. -/
theorem fetchSnapshot_arrived (t : Remote.Transport σ) (remote : Remote) (d : Query.Descriptor)
    (state : σ) {response : Remote.Response}
    (arrived : Remote.Arrives remote (t.send (remote.requestFor d .snapshot) state).1 response)
    (success : Remote.Succeeds response.status) :
    ((Remote.client t remote).fetchSnapshot d state).1 = Snapshot.read response.body := by
  have reply : ((Remote.client t remote).request d .snapshot state).1 =
      (Snapshot.read response.body).map .snapshot :=
    (Remote.outcome_classified remote _ .snapshot _).decoded response arrived success
  simp only [Client.fetchSnapshot, reply]
  cases Snapshot.read response.body <;> rfl

structure Listed (body : List UInt8) (s : Snapshot) : Prop where
  flattened : Flattened body s
  -- Whatever backend gives the snapshot, it is what is shown of it that is answered.
  answered : ∀ {σ ε : Type} {c : Config} {r : Http.Request} {n : UInt32}, ReadsPosts c r .snapshot n →
    ∀ (client : Client σ) (g : Post.Gateway σ ε) user state,
      (client.fetchSnapshot ⟨.posts, .limit n⟩ state).1 = Snapshot.read body →
      ((ofConfig client g user c).respond r state).1 =
        some (shownTo r (.json 200 s.flat.text))
  remote : ∀ {σ ε : Type} {c : Config} {r : Http.Request} {n : UInt32}, ReadsPosts c r .snapshot n →
    ∀ (t : Remote.Transport σ) remote (g : Post.Gateway σ ε) user state status,
      Remote.Arrives remote (t.send (remote.requestFor ⟨.posts, .limit n⟩ .snapshot) state).1
        ⟨status, body⟩ →
      Remote.Succeeds status →
      ((ofConfig (Remote.client t remote) g user c).respond r state).1 =
        some (shownTo r (.json 200 s.flat.text))

theorem snapshot_listed {body : List UInt8} {s : Snapshot}
    (accepted : Snapshot.read body = .ok s) : Listed body s where
  flattened := Snapshot.flattened accepted
  answered reads client g user state reply := by
    rw [respond_snapshot client g user _ reads, reply, accepted]
    rfl
  remote reads t remote g user state status arrived success := by
    rw [respond_snapshot _ g user _ reads, fetchSnapshot_arrived t remote _ state arrived success,
      accepted]
    rfl

/-- Of these rows the first has no `id`, the second has one that is null. -/
def partlyKeyed : Snapshot :=
  ⟨[⟨.num (.int 7), [("title", .str "x")]⟩, ⟨.str "k", [("id", .null)]⟩]⟩

theorem partlyKeyed_listed : Snapshot.read partlyKeyed.envelope.bytes = .ok partlyKeyed ∧
    partlyKeyed.flat = .arr [.obj [("id", .int 7), ("title", .str "x")], .obj [("id", .null)]] ∧
    Listed partlyKeyed.envelope.bytes partlyKeyed := by
  have single : ∀ {key v : Json} {name : String}, Json.Whole 125 key → Json.Whole 123 v →
      Json.Whole 126 (.arr [key, .arr [.obj [(name, v)]]]) := by
    intro key v name wholeKey whole
    refine .arr (List.forall_mem_cons.mpr ⟨wholeKey, List.forall_mem_singleton.mpr ?_⟩)
    refine .arr (List.forall_mem_singleton.mpr ?_)
    exact .obj (List.pairwise_singleton ..) (List.forall_mem_singleton.mpr whole)
  have whole : Json.Whole Json.Parser.maxDepth partlyKeyed.envelope := by
    refine .arr ?_
    simp only [partlyKeyed, List.map_cons, List.map_nil, List.forall_mem_cons]
    exact ⟨single (.int (by decide) (by decide)) (.str _), single (.str _) .null, by simp⟩
  have accepted := Snapshot.read_eq_ok.mpr (Json.parse_bytes whole)
  exact ⟨accepted, rfl, snapshot_listed accepted⟩

end Postboard.Service
