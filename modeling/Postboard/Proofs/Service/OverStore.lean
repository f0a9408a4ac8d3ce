import Postboard.Proofs.Service.Limits
import Postboard.Proofs.Service.Serving
import Postboard.Proofs.Store.Operations

/-! A service whose backend and gateway are one store.

An exchange either carries out one mutation, and then its answer is `ok`, or leaves the tables as
they are. A broken store keeps its tables through any requests and still answers reads.
-/

set_option autoImplicit false

namespace Postboard.Service

open Http Text Reactive

def overStore (user : Int32) (c : Config) : Service Store Store.Error :=
  ofConfig Store.client Store.gateway user c

/-! ### Mutations of a store -/

theorem run_failed {m : Mutation} {user : Int32} {s : Store}
    (failed : (m.run Store.gateway user s).1 = false) : (m.run Store.gateway user s).2 = s := by
  cases m with
  | create draft =>
    rcases Store.create_cases user draft s with ⟨-, -, made⟩ | ⟨-, e, made⟩
    · simp [Mutation.run, Store.gateway, made, Except.isOk, Except.toBool] at failed
    · simp [Mutation.run, Store.gateway, made]
  | update id draft =>
    rcases Store.update_cases id draft s with ⟨-, p, -, made⟩ | ⟨-, -, made⟩ | ⟨-, e, made⟩
    · simp [Mutation.run, Store.gateway, made, Except.isOk, Except.toBool] at failed
    · simp [Mutation.run, Store.gateway, made]
    · simp [Mutation.run, Store.gateway, made]
  | delete id =>
    rcases Store.delete_cases id s with ⟨-, made⟩ | ⟨-, e, made⟩
    · simp [Mutation.run, Store.gateway, made, Except.isOk, Except.toBool] at failed
    · simp [Mutation.run, Store.gateway, made]
  | upvote id =>
    rcases Store.upvote_cases user id s with ⟨-, -, -, made⟩ | ⟨-, e, made⟩
    · simp [Mutation.run, Store.gateway, made, Except.isOk, Except.toBool] at failed
    · simp [Mutation.run, Store.gateway, made]

theorem run_broken {s : Store} {message : String} (broken : s.broken = some message)
    (m : Mutation) (user : Int32) : m.run Store.gateway user s = (false, s) := by
  cases m <;>
    simp only [Mutation.run, Store.gateway, Store.create, Store.update, Store.delete, Store.upvote,
      Store.mutate_broken broken] <;>
    rfl

/-! ### Reads of a store -/

section Reads

variable (user : Int32) (c : Config) (r : Http.Request) (s : Store)

theorem readPosts_sameTables :
    Store.SameTables s ((overStore user c).readPosts r s).2 := by
  by_cases asked : ∃ n, AsksFor c r n
  · obtain ⟨n, asked⟩ := asked
    rw [overStore, readPosts_asked Store.client Store.gateway user c s asked]
    cases (callOf r n).mode with
    | stream => exact Store.request_sameTables (callOf r n).descriptor .stream s
    | snapshot => exact Store.request_sameTables (callOf r n).descriptor .snapshot s
  · obtain ⟨reason, refused⟩ :=
      readPosts_refused Store.client Store.gateway user c s fun n yes => asked ⟨n, yes⟩
    rw [overStore, refused]
    exact Store.SameTables.refl s

theorem readPosts_snapshot {n : UInt32} (asked : AsksFor c r n)
    (snapshot : Accept.mode (r.values "accept") = .snapshot) :
    (overStore user c).readPosts r s = (some (.json 200 (s.view n.toNat).flat.text), s) := by
  rw [overStore, readPosts_asked Store.client Store.gateway user c s asked]
  simp only [callOf, snapshot, Store.fetchSnapshot_eq, snapshotResponse]

end Reads

/-! ### One exchange, and many over a broken store -/

def done : Response := .text 200 "ok"

/-- What an exchange over a store does: an answer to a request, and the store after it. -/
structure StoreExchange (user : Int32) (r : Http.Request) (s : Store) (answer : Option Response)
    (after : Store) : Prop where
  carried : IsMutation r →
    (answer = some done ↔ ∃ m, Accepted r m ∧ (m.run Store.gateway user s).1 = true)
  effect : ∀ m, Accepted r m → (m.run Store.gateway user s).1 = true →
    after = (m.run Store.gateway user s).2
  -- A mutation that is not done is refused or has failed.
  otherwise : IsMutation r → answer ≠ some done →
    ∃ response, answer = some response ∧ (response = .text 500 "not ok" ∨ IsRefusal response)
  frame : ¬ (IsMutation r ∧ answer = some done) → Store.SameTables s after

/-- What an exchange over a store that was broken with its tables as in `s` does. -/
structure BrokenExchange (c : Config) (s : Store) (r : Http.Request) (answer : Option Response) :
    Prop where
  undone : IsMutation r → ∃ response, answer = some response ∧ response.status ≠ 200
  listed : ∀ n, IsRead r → AsksFor c r n → Accept.mode (r.values "accept") = .snapshot →
    answer = some (shownTo r (.json 200 (s.view n.toNat).flat.text))

theorem IsRefusal.ne_ok {response : Response} (refusal : IsRefusal response) :
    response.status ≠ 200 := by
  have := refusal.1
  omega

theorem verdict_eq_done {succeeded : Bool} : verdict succeeded = done ↔ succeeded = true := by
  cases succeeded <;> simp [verdict, done, Response.text]

theorem respond_carried (user : Int32) (c : Config) {r : Http.Request} {m : Mutation}
    (accepted : Accepted r m) (s : Store) :
    StoreExchange user r s ((overStore user c).respond r s).1
      ((overStore user c).respond r s).2 := by
  -- Whatever mutation is accepted from the request is the one that the service carries out, so it
  -- does not matter here that there is only one.
  have answered : ∀ m, Accepted r m → (overStore user c).respond r s =
      (some (verdict (m.run Store.gateway user s).1), (m.run Store.gateway user s).2) :=
    fun m accepted => (overStore user c).respond_accepted r s accepted
  have answer := answered m accepted
  refine ⟨fun _ => ⟨fun success => ?_, ?_⟩, fun m accepted _ => ?_, fun _ failure => ?_,
    fun undone => ?_⟩
  · rw [answer, Option.some.injEq, verdict_eq_done] at success
    exact ⟨m, accepted, success⟩
  · rintro ⟨m, accepted, success⟩
    rw [answered m accepted, success]
    rfl
  · rw [answered m accepted]
  · rw [answer, ne_eq, Option.some.injEq, verdict_eq_done, Bool.not_eq_true] at failure
    rw [answer, failure]
    exact ⟨_, rfl, .inl rfl⟩
  · rw [answer] at undone ⊢
    cases success : (m.run Store.gateway user s).1 with
    | true => exact absurd ⟨accepted.isMutation, by rw [success]; rfl⟩ undone
    | false =>
      rw [run_failed success]
      exact Store.SameTables.refl s

theorem respond_storeExchange (user : Int32) (c : Config) (r : Http.Request) (s : Store) :
    StoreExchange user r s ((overStore user c).respond r s).1
      ((overStore user c).respond r s).2 := by
  rcases (overStore user c).respond_cases r s with
    ⟨read, answer⟩ | ⟨m, accepted, -⟩ | ⟨-, refused, response, answer, refusal⟩ |
    ⟨-, noMutation, response, answer⟩
  · have noMutation := read.not_isMutation
    rw [answer]
    exact {
      carried := fun asked => absurd asked noMutation
      effect := fun m accepted => absurd accepted.isMutation noMutation
      otherwise := fun asked => absurd asked noMutation
      frame := fun _ => readPosts_sameTables user c r s }
  · exact respond_carried user c accepted s
  · rw [answer]
    have noDone : some response ≠ some done := by
      rintro ⟨⟩
      exact refusal.ne_ok rfl
    exact {
      carried := fun _ => ⟨fun yes => absurd yes noDone, fun ⟨m, yes, _⟩ => absurd yes (refused m)⟩
      effect := fun m accepted => absurd accepted (refused m)
      otherwise := fun _ _ => ⟨response, rfl, .inr refusal⟩
      frame := fun _ => Store.SameTables.refl s }
  · rw [answer]
    exact {
      carried := fun asked => absurd asked noMutation
      effect := fun m accepted => absurd accepted.isMutation noMutation
      otherwise := fun asked => absurd asked noMutation
      frame := fun _ => Store.SameTables.refl s }

/-- A broken store is left as it is and is still read. -/
theorem respond_brokenExchange (user : Int32) (c : Config) (r : Http.Request) {s t : Store}
    {message : String} (same : Store.SameTables (s.breakWith message) t) :
    Store.SameTables (s.breakWith message) ((overStore user c).respond r t).2 ∧
      BrokenExchange c s r ((overStore user c).respond r t).1 := by
  -- The message is among the tables that stay, so the store is still broken.
  have broken : t.broken = some message := by
    rw [same]
    rfl
  have exchange := respond_storeExchange user c r t
  have noDone : IsMutation r → ((overStore user c).respond r t).1 ≠ some done := by
    intro asked success
    obtain ⟨m, -, success⟩ := (exchange.carried asked).mp success
    rw [run_broken broken] at success
    exact absurd success (by simp)
  refine ⟨same.trans (exchange.frame fun both => noDone both.1 both.2), ?_, ?_⟩
  · intro asked
    obtain ⟨response, answer, rfl | refusal⟩ := exchange.otherwise asked (noDone asked)
    · exact ⟨_, answer, by simp [Response.text]⟩
    · exact ⟨response, answer, refusal.ne_ok⟩
  · intro n read asked snapshot
    rw [respond_read _ r t read, readPosts_snapshot user c r t asked snapshot, same.view_eq]
    rfl

/-- Every exchange over a store does what `StoreExchange` says. A store that is broken keeps its
view through any requests, does no mutation, and still lists its posts. -/
theorem mutations_over_store (user : Int32) (c : Config) (s : Store) :
    (∀ r, StoreExchange user r s ((overStore user c).respond r s).1
      ((overStore user c).respond r s).2) ∧
    ∀ message requests,
      (∀ limit, ((overStore user c).serve requests (s.breakWith message)).2.view limit =
        s.view limit) ∧
      List.Forall₂ (BrokenExchange c s) requests
        ((overStore user c).serve requests (s.breakWith message)).1 := by
  refine ⟨fun r => respond_storeExchange user c r s, fun message requests => ?_⟩
  obtain ⟨same, exchanges⟩ := (overStore user c).serve_forall
    (fun r t same => respond_brokenExchange user c r same) requests (s.breakWith message)
    (Store.SameTables.refl _)
  exact ⟨fun limit => same.view_eq limit, exchanges⟩

end Postboard.Service
