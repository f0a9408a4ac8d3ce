import Postboard.Proofs.Service.Location
import Postboard.Proofs.Service.OverStore
import Postboard.Proofs.Store.Streams

/-! Streams of a service over a store: no two reads are redirected to the same place.

Answering a request is at most one operation of the store, so what holds of the streams of every run
holds of a service that works on the store, whatever else is done to the store before and after.
-/

set_option autoImplicit false

namespace Postboard.Service

open Http Text Reactive

variable {h : List Store.Event} {s : Store} {c : Config}

/-! ### Requests as operations -/

def Mutation.op (user : Int32) : Mutation → Store.Op
  | .create draft => .create user draft
  | .update id draft => .update id draft
  | .delete id => .delete id
  | .upvote id => .upvote user id

theorem run_eq_step (m : Mutation) (user : Int32) (s : Store) :
    (m.run Store.gateway user s).2 = (s.step (m.op user)).2 := by
  cases m <;> rfl

theorem Mutation.op_ne_read (m : Mutation) (user : Int32) (d : Query.Descriptor) (mode : Mode) :
    m.op user ≠ .read d mode := by
  cases m <;> exact Store.Op.noConfusion

theorem openStream_eq (d : Query.Descriptor) (s : Store) :
    ∃ x : Handle, Store.client.openStream d s = (.ok x, (s.step (.read d .stream)).2) ∧
      (s.step (.read d .stream)).1 = .read d .stream (.ok (.handle x)) := by
  obtain ⟨x, -, made⟩ := Store.step_stream d s
  have event := congrArg Prod.fst made
  have reply : (Store.client.request d .stream s).1 = .ok (.handle x) := by
    injection event
  have opened : Store.client.openStream d s =
      ((Store.client.request d .stream s).1.bind Reply.asHandle,
        (s.step (.read d .stream)).2) := rfl
  exact ⟨x, by rw [opened, reply]; rfl, event⟩

theorem respond_opened {r : Http.Request} {n : UInt32} (reads : ReadsPosts c r .stream n)
    (user : Int32) (s : Store) :
    ∃ x, (s.step (.read ⟨.posts, .limit n⟩ .stream)).1 =
        .read ⟨.posts, .limit n⟩ .stream (.ok (.handle x)) ∧
      (overStore user c).respond r s =
        (((overStore user c).streamResponse (.ok x)).map (shownTo r),
          (s.step (.read ⟨.posts, .limit n⟩ .stream)).2) := by
  obtain ⟨x, opened, event⟩ := openStream_eq ⟨.posts, .limit n⟩ s
  refine ⟨x, event, ?_⟩
  rw [overStore, respond_stream Store.client Store.gateway user c reads s, opened]

/-- Every other request is answered with at most one operation, and not with one for a stream. -/
theorem respond_noStream {r : Http.Request} (other : ∀ n, ¬ ReadsPosts c r .stream n)
    (user : Int32) (s : Store) :
    ((overStore user c).respond r s).2 = s ∨
      ∃ op, (∀ d, op ≠ .read d .stream) ∧ ((overStore user c).respond r s).2 = (s.step op).2 := by
  rcases (overStore user c).respond_cases r s with
    ⟨read, answer⟩ | ⟨m, -, answer⟩ | ⟨-, -, response, answer, -⟩ | ⟨-, -, response, answer⟩
  · rw [answer]
    left
    by_cases asked : ∃ n, AsksFor c r n
    · obtain ⟨n, limit⟩ := asked
      cases mode : Accept.mode (r.values "accept") with
      | snapshot => rw [readPosts_snapshot user c r s limit mode]
      | stream => exact absurd ⟨read, limit, mode⟩ (other n)
    · obtain ⟨reason, refused⟩ :=
        readPosts_refused Store.client Store.gateway user c s fun n yes => asked ⟨n, yes⟩
      rw [overStore, refused]
  · rw [answer]
    exact .inr ⟨m.op user, fun d => m.op_ne_read user d .stream, run_eq_step m user s⟩
  · exact .inl (by rw [answer])
  · exact .inl (by rw [answer])

/-! ### Requests one after the other -/

/-- How requests are answered when the streams among them get handles in order: each stream is
redirected to its handle, unless the configured path is no header value. -/
inductive Redirects (c : Config) :
    List Http.Request → List (Option Response) → List Handle → Prop where
  | nil : Redirects c [] [] []
  | stream {r : Http.Request} {n : UInt32} {answer : Option Response} {x : Handle}
      {requests : List Http.Request} {answers : List (Option Response)} {handles : List Handle} :
      ReadsPosts c r .stream n →
      (isHeaderValue (Utf8.bytes c.streams.redirectBase) = true →
        answer = some (shownTo r (.redirect (locationUnder c.streams.redirectBase x)))) →
      Redirects c requests answers handles →
      Redirects c (r :: requests) (answer :: answers) (x :: handles)
  | other {r : Http.Request} {answer : Option Response} {requests : List Http.Request}
      {answers : List (Option Response)} {handles : List Handle} :
      (∀ n, ¬ ReadsPosts c r .stream n) →
      Redirects c requests answers handles →
      Redirects c (r :: requests) (answer :: answers) handles

/-- Answering requests continues the run of the store, and the handles that are given on the way are
those that the streams are redirected to. -/
theorem serve_reached (reached : Store.Reached h s) (user : Int32) (c : Config)
    (requests : List Http.Request) :
    ∃ later, Store.Reached (h ++ later) ((overStore user c).serve requests s).2 ∧
      Redirects c requests ((overStore user c).serve requests s).1 (Store.opened later) := by
  induction requests generalizing h s with
  | nil => exact ⟨[], by rwa [List.append_nil], .nil⟩
  | cons r rest ih =>
    rw [serve_cons]
    by_cases stream : ∃ n, ReadsPosts c r .stream n
    · obtain ⟨n, reads⟩ := stream
      obtain ⟨x, event, answer⟩ := respond_opened reads user s
      rw [answer]
      obtain ⟨later, reached', redirects⟩ := ih (reached.step (.read ⟨.posts, .limit n⟩ .stream))
      rw [event, List.append_assoc] at reached'
      refine ⟨_, reached', .stream reads (fun legal => ?_) redirects⟩
      rw [overStore, streamResponse_legal Store.client Store.gateway user legal]
      rfl
    · rw [not_exists] at stream
      rcases respond_noStream stream user s with same | ⟨op, noStream, same⟩
      · obtain ⟨later, reached', redirects⟩ := ih reached
        rw [same]
        exact ⟨later, reached', .other stream redirects⟩
      · obtain ⟨later, reached', redirects⟩ := ih (reached.step op)
        have none := Store.Event.handle?_of_not_opens (Store.step_other noStream s).1
        rw [same]
        rw [List.append_assoc] at reached'
        refine ⟨_, reached', .other stream ?_⟩
        simpa [Store.opened, none] using redirects

theorem locationUnder_inj {path : String} {x y : Handle}
    (same : locationUnder path x = locationUnder path y) : x = y := by
  have chars := congrArg String.toList same
  rw [toList_locationUnder, toList_locationUnder, List.append_cancel_left_eq,
    List.cons.injEq, String.toList_inj] at chars
  obtain ⟨⟩ := x
  obtain ⟨⟩ := y
  obtain rfl := chars.2
  rfl

/-! ### All together -/

structure StreamsApart (h : List Store.Event) (s : Store) : Prop where
  succeeded : ∀ d reply, .read d .stream reply ∈ h →
    ∃ x, reply = .ok (.handle x) ∧ Handle.ofString x.text = .ok x
  counted : (Store.opened h).length = h.countP Store.Event.opens
  distinct : (Store.opened h).Nodup
  kept : ∀ op, (∀ d, op ≠ .read d .stream) → (s.step op).2.lastStream = s.lastStream
  -- A service over the store continues the run, and redirects no two streams to one place.
  redirected : ∀ user c requests, ∃ later,
    Store.Reached (h ++ later) ((overStore user c).serve requests s).2 ∧
    Redirects c requests ((overStore user c).serve requests s).1 (Store.opened later) ∧
    ((h ++ later).countP Store.Event.opens < 2 ^ 64 →
      ((Store.opened (h ++ later)).map (locationUnder c.streams.redirectBase)).Nodup)

/-- As long as there are numbers for streams, all of them are apart. -/
theorem reached_streamsApart (reached : Store.Reached h s)
    (fit : h.countP Store.Event.opens < 2 ^ 64) : StreamsApart h s where
  succeeded d reply member := by
    obtain ⟨x, taken⟩ := reached.numbered.succeeded d reply member
    exact ⟨x, taken, Handle.ofString_eq_ok.mpr rfl⟩
  counted := reached.numbered.length_opened
  distinct := reached.numbered.nodup_opened fit
  kept op other := (Store.step_other other s).2
  redirected user c requests := by
    obtain ⟨later, reached', redirects⟩ := serve_reached reached user c requests
    refine ⟨later, reached', redirects, fun fit' => ?_⟩
    exact (reached'.numbered.nodup_opened fit').map fun x y => locationUnder_inj

/-- Two streams are opened, one of them when the store is broken. -/
def listened : List Store.Op :=
  [.read ⟨.posts, .limit 10⟩ .stream, .create 1 ⟨"a", "", "x"⟩, .breakWith "down",
    .create 1 ⟨"b", "", ""⟩, .read ⟨.posts, .limit 10⟩ .snapshot, .read ⟨.posts, .limit 10⟩ .stream]

theorem streamsApart_listened :
    Store.Reached (Store.run listened (Store.empty.withUser 1 "ann")).1
        (Store.run listened (Store.empty.withUser 1 "ann")).2 ∧
      (Store.run listened (Store.empty.withUser 1 "ann")).1.countP Store.Event.opens = 2 ∧
      (Store.opened (Store.run listened (Store.empty.withUser 1 "ann")).1).map Handle.text =
        ["mem-posts-1", "mem-posts-2"] ∧
      StreamsApart (Store.run listened (Store.empty.withUser 1 "ann")).1
        (Store.run listened (Store.empty.withUser 1 "ann")).2 := by
  have reached := (Store.Reached.start.enter 1 "ann").run listened
  have two : (Store.run listened (Store.empty.withUser 1 "ann")).1.countP Store.Event.opens = 2 := by
    decide
  exact ⟨reached, two, by decide, reached_streamsApart reached (by omega)⟩

end Postboard.Service
