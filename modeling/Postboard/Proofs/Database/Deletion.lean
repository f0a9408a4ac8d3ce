import Mathlib.Data.List.Nodup
import Postboard.Database.Gateway
import Postboard.Proofs.Database.Exchange

/-! The deletion of a post, against every way in which a database may answer. -/

set_option autoImplicit false

namespace Postboard.Database.Deletion

open Network Operation

variable {σ : Type}

def steps (post : Int32) : List Statement :=
  [⟨"BEGIN", []⟩,
    ⟨"delete from upvotes where post_id = $1", [.int post.toInt]⟩,
    ⟨"delete from posts where id = $1", [.int post.toInt]⟩,
    ⟨"COMMIT", []⟩]

def report : List Result → Post.Deletion
  | [_, upvotes, posts, _] => ⟨upvotes.affected.toNat, 0 < posts.affected⟩
  | _ => ⟨0, false⟩

def outcome (limit : UInt64) : Except Stop (List Result) → Except Error Post.Deletion
  | .ok results => .ok (report results)
  | .error (.cause c) => .error (.failed "delete_post failed" c)
  | .error .late => .error (.timedOut "delete_post" limit)

/-- What the database is told when something has stopped the transaction. -/
def givenUp : Except Stop (List Result) → List Statement
  | .ok _ => []
  | .error _ => [.rollback]

variable (db : Server σ) (limit : UInt64) (post : Int32) (state : σ)

def sent : List Statement := (deletePost db.recorded limit post (state, [])).2.2

/-- What the database answers to the statements of a deletion, on the connection that it gives. -/
def replies : List Answer := db.answers (steps post) (db.acquire state).2

def result : Except Error Post.Deletion := (deletePost db limit post state).1

/-- There is a connection after so many milliseconds, and before the limit. -/
def Connected (t : Nat) : Prop := (db.acquire state).1 = .after t (.ok ()) ∧ t < limit.toNat

/-- There is a connection and all four statements are acknowledged, within the limit together, and
this is what they did. -/
def Done (d : Post.Deletion) : Prop :=
  ∃ t d₁ r₁ d₂ upvotes d₃ posts d₄ r₄, Connected db limit state t ∧
    replies db post state =
      [.after d₁ (.ok r₁), .after d₂ (.ok upvotes), .after d₃ (.ok posts), .after d₄ (.ok r₄)] ∧
    t + d₁ + d₂ + d₃ + d₄ < limit.toNat ∧ d = ⟨upvotes.affected.toNat, 0 < posts.affected⟩

/-- There is no connection in time, and nothing is sent. -/
structure Unconnected (e : Error) : Prop where
  reason : (∃ d c, (db.acquire state).1 = .after d (.error c) ∧ d < limit.toNat ∧
      e = .failed "delete_post failed" c) ∨
    (Late limit.toNat 0 (db.acquire state).1 ∧ e = .timedOut "delete_post" limit)
  silent : sent db limit post state = []

/-- The first answer that is no acknowledgement in time is a refusal, or it is late. What was sent so
far is rolled back. -/
def Stopped (t : Nat) (e : Error) : Prop :=
  ∃ before answer later results now,
    replies db post state = before ++ answer :: later ∧ Acked limit.toNat t before results now ∧
    ((∃ d r, answer = .after d (.error r) ∧ now + d < limit.toNat ∧
        e = .failed "delete_post failed" (.refused r.message)) ∨
      (Late limit.toNat now answer ∧ e = .timedOut "delete_post" limit)) ∧
    sent db limit post state = (steps post).take (before.length + 1) ++ [.rollback]

theorem enclosed_deletion (limit : Option Nat) :
    enclosed db limit (deletion db limit post) = report <$> (steps post).mapM (ask db limit) := by
  have same : steps post = [.begin, .deleteUpvotes post, .deletePost post, .commit] := rfl
  rw [same]
  simp [enclosed, deletion, report, List.mapM_cons]

theorem deletePost_recorded : deletePost db limit post state =
    ((deletePost db.recorded limit post (state, [])).1,
      (deletePost db.recorded limit post (state, [])).2.1) := by
  have body : Unseen (deletion db (some limit.toNat) post)
      (deletion db.recorded (some limit.toNat) post) :=
    (unseen_ask db _ (.deleteUpvotes post)).bind fun _ =>
      (unseen_ask db _ (.deletePost post)).bind fun _ => unseen_pure _
  exact body.transaction.bounded "delete_post" limit (state, [])

theorem deletePost_connected {t : Nat} (connected : Connected db limit state t) :
    deletePost db.recorded limit post (state, []) =
      bounded "delete_post" limit (fun _ => guarded db.recorded (some limit.toNat)
        (deletion db.recorded (some limit.toNat) post) ⟨((db.acquire state).2, []), t⟩)
        (state, []) := by
  have held : acquire db.recorded (some limit.toNat) ⟨(state, []), 0⟩ =
      (.ok (), ⟨((db.acquire state).2, []), 0 + t⟩) :=
    await_ok connected.1 (by simpa using connected.2)
  simp only [deletePost, bounded, transaction, bind_apply, held, Nat.zero_add]

/-- A deletion has run a course of its four statements, from the time on when it had a
connection. -/
structure Ran (t n : Nat) (out : Except Stop (List Result)) : Prop where
  connected : Connected db limit state t
  course : Course limit.toNat t (replies db post state) n out
  result_eq : result db limit post state = outcome limit out
  sent_eq : sent db limit post state = (steps post).take n ++ givenUp out

theorem exists_ran {t : Nat} (connected : Connected db limit state t) :
    ∃ n out, Ran db limit post state t n out := by
  obtain ⟨n, out, final, run, course, log⟩ :=
    mapM_course db limit.toNat (steps post) (db.acquire state).2 [] t
  have work : enclosed db.recorded (some limit.toNat)
      (deletion db.recorded (some limit.toNat) post) ⟨((db.acquire state).2, []), t⟩ =
        (out.map report, final) := by
    rw [enclosed_deletion, map_eq_pure_bind, bind_apply, run]
    cases out <;> rfl
  refine ⟨n, out, connected, course, ?_, ?_⟩
  · rw [result, deletePost_recorded, deletePost_connected db limit post state connected]
    simp only [bounded, guarded, work]
    rcases out with (c | _) | results <;> rfl
  · rw [sent, deletePost_connected db limit post state connected]
    simp only [bounded, guarded, work]
    rcases out with (c | _) | results <;> simp [Except.map, givenUp, log, Server.recorded]

/-- A deletion runs, or it never has a connection. -/
theorem ran_or_unconnected : (∃ t n out, Ran db limit post state t n out) ∨
    ∃ e, result db limit post state = .error e ∧ Unconnected db limit post state e := by
  rw [result, deletePost_recorded]
  rcases answer_cases limit.toNat 0 (db.acquire state).1 with
    ⟨d, _, answer, there⟩ | ⟨d, c, answer, there⟩ | late
  · exact .inl ⟨d, exists_ran db limit post state ⟨answer, by simpa using there⟩⟩
  · have failed : acquire db.recorded (some limit.toNat) ⟨(state, []), 0⟩ =
        (.error (.cause c), ⟨((db.acquire state).2, []), 0 + d⟩) := await_error answer there
    refine .inr ⟨.failed "delete_post failed" c, ?_, ?_, ?_⟩
    · simp only [deletePost, bounded, transaction, bind_apply, failed]
      rfl
    · exact .inl ⟨d, c, answer, by simpa using there, rfl⟩
    · simp only [sent, deletePost, bounded, transaction, bind_apply, failed]
  · have failed : acquire db.recorded (some limit.toNat) ⟨(state, []), 0⟩ =
        (.error .late, ⟨((db.acquire state).2, []), 0⟩) := await_late late
    refine .inr ⟨.timedOut "delete_post" limit, ?_, ?_, ?_⟩
    · simp only [deletePost, bounded, transaction, bind_apply, failed]
    · exact .inr ⟨late, rfl⟩
    · simp only [sent, deletePost, bounded, transaction, bind_apply, failed]

theorem steps_nodup : (steps post).Nodup := by simp [steps]

theorem mem_take_steps {i n : Nat} {q : Statement} (step : (steps post)[i]? = some q) :
    q ∈ (steps post).take n ↔ i < n := by
  obtain ⟨inside, rfl⟩ := List.getElem?_eq_some_iff.mp step
  rw [List.mem_take_iff_getElem]
  constructor
  · rintro ⟨j, below, same⟩
    have : j = i := (steps_nodup post).getElem_inj_iff.mp same
    omega
  · intro before
    exact ⟨i, by omega, rfl⟩

theorem step_not_givenUp {i : Nat} {q : Statement} (step : (steps post)[i]? = some q)
    (out : Except Stop (List Result)) : q ∉ givenUp out := by
  have other : Statement.rollback ∉ steps post := by simp [steps, Statement.rollback]
  cases out with
  | ok results => exact List.not_mem_nil
  | error stop =>
    rintro (_ | ⟨_, ⟨⟩⟩)
    exact other (List.mem_of_getElem? step)

theorem length_replies : (replies db post state).length = 4 := length_answers db (steps post) _

theorem acked_four {limit t : Nat} {answers : List Answer} {results : List Result}
    (four : answers.length = 4) : (∃ stop, Acked limit t answers results stop) ↔
      ∃ d₁ r₁ d₂ r₂ d₃ r₃ d₄ r₄,
        answers = [.after d₁ (.ok r₁), .after d₂ (.ok r₂), .after d₃ (.ok r₃), .after d₄ (.ok r₄)] ∧
        t + d₁ + d₂ + d₃ + d₄ < limit ∧ results = [r₁, r₂, r₃, r₄] := by
  constructor
  · rintro ⟨stop, first⟩
    obtain _ | ⟨_, second⟩ := first
    · cases four
    obtain _ | ⟨_, third⟩ := second
    · cases four
    obtain _ | ⟨_, fourth⟩ := third
    · cases four
    obtain _ | ⟨there, rest⟩ := fourth
    · cases four
    cases rest with
    | nil => exact ⟨_, _, _, _, _, _, _, _, rfl, by omega, rfl⟩
    | cons => simp at four
  · rintro ⟨d₁, r₁, d₂, r₂, d₃, r₃, d₄, r₄, rfl, there, rfl⟩
    exact ⟨_, .cons (by omega) (.cons (by omega) (.cons (by omega) (.cons (by omega) .nil)))⟩

theorem outcome_ok {out : Except Stop (List Result)} {d : Post.Deletion} :
    outcome limit out = .ok d ↔ ∃ results, out = .ok results ∧ report results = d := by
  rcases out with (c | _) | results <;> simp [outcome]

variable {db limit post state}

theorem Connected.unique {t t' : Nat} (here : Connected db limit state t)
    (there : Connected db limit state t') : t = t' := by
  have same := here.1.symm.trans there.1
  injection same

theorem Unconnected.not_connected {e : Error} (none : Unconnected db limit post state e) {t : Nat} :
    ¬ Connected db limit state t := by
  rintro ⟨answer, there⟩
  rcases none.reason with ⟨d, c, failed, -, -⟩ | ⟨late, -⟩
  · cases answer.symm.trans failed
  · have passed := late t _ answer
    omega

/-! ### What follows from the course -/

namespace Ran

variable {t n : Nat} {out : Except Stop (List Result)}

theorem stopped (ran : Ran db limit post state t n out) {e : Error}
    (failed : result db limit post state = .error e) :
    ¬ InTime limit.toNat t (replies db post state) ∧ Stopped db limit post state t e := by
  obtain ⟨-, course, result_eq, sent_eq⟩ := ran
  rw [result_eq] at failed
  cases out with
  | ok results => cases failed
  | error stop =>
    constructor
    · rintro ⟨results, now, acked⟩
      cases course.ok_iff.mpr ⟨now, acked⟩
    obtain ⟨before, answer, later, results, now, split, rfl, acked, reason⟩ := course.error rfl
    refine ⟨before, answer, later, results, now, split, acked, ?_, sent_eq⟩
    rcases reason with ⟨d, r, refusal, there, rfl⟩ | ⟨late, rfl⟩
    · cases failed
      exact .inl ⟨d, r, refusal, there, rfl⟩
    · cases failed
      exact .inr ⟨late, rfl⟩

theorem turn (ran : Ran db limit post state t n out) {i : Nat} {q : Statement}
    (step : (steps post)[i]? = some q) :
    q ∈ sent db limit post state ↔ InTime limit.toNat t ((replies db post state).take i) := by
  have inside : i < (replies db post state).length := by
    rw [length_replies]
    exact (List.getElem?_eq_some_iff.mp step).1
  rw [ran.sent_eq, List.mem_append, mem_take_steps post step, ← ran.course.turn inside,
    or_iff_left (step_not_givenUp post step out)]

theorem ok (ran : Ran db limit post state t n out) {d : Post.Deletion} :
    result db limit post state = .ok d ↔ Done db limit post state d := by
  rw [ran.result_eq, outcome_ok]
  simp only [ran.course.ok_iff, acked_four (length_replies db post state)]
  constructor
  · rintro ⟨_, ⟨d₁, r₁, d₂, upvotes, d₃, posts, d₄, r₄, same, there, rfl⟩, rfl⟩
    exact ⟨t, d₁, r₁, d₂, upvotes, d₃, posts, d₄, r₄, ran.connected, same, there, rfl⟩
  · rintro ⟨t', d₁, r₁, d₂, upvotes, d₃, posts, d₄, r₄, connected, same, there, rfl⟩
    obtain rfl := ran.connected.unique connected
    exact ⟨_, ⟨d₁, r₁, d₂, upvotes, d₃, posts, d₄, r₄, same, there, rfl⟩, rfl⟩

theorem kept (ran : Ran db limit post state t n out) {d : Post.Deletion}
    (done : result db limit post state = .ok d) : sent db limit post state = steps post := by
  rw [ran.result_eq, outcome_ok] at done
  obtain ⟨results, rfl, -⟩ := done
  rw [ran.sent_eq, ran.course.length_of_ok, length_replies]
  rfl

end Ran

theorem Stopped.order {t : Nat} {e : Error} (stopped : Stopped db limit post state t e) :
    ∃ n, 1 ≤ n ∧ n ≤ 4 ∧ sent db limit post state = (steps post).take n ++ [.rollback] := by
  obtain ⟨before, answer, later, results, now, split, -, -, log⟩ := stopped
  have four := congrArg List.length split
  rw [length_replies, List.length_append, List.length_cons] at four
  exact ⟨before.length + 1, by omega, by omega, log⟩

theorem message_of {e : Error} (shape : (∃ c, e = .failed "delete_post failed" c) ∨
    e = .timedOut "delete_post" limit) : e.message = "delete_post failed" ∨
      e.message = "delete_post timed out after " ++ Text.Decimal.ofNat limit.toNat ++ "ms" := by
  rcases shape with ⟨c, rfl⟩ | rfl
  · exact .inl rfl
  · exact .inr rfl

variable (db limit post state)

structure Deleting : Prop where
  -- To record what the database receives changes nothing.
  unseen : deletePost db limit post state =
    ((deletePost db.recorded limit post (state, [])).1,
      (deletePost db.recorded limit post (state, [])).2.1)
  -- The statements go in their order: none of them, all, or some with a rollback behind them.
  order : sent db limit post state = [] ∨ sent db limit post state = steps post ∨
    ∃ n, 1 ≤ n ∧ n ≤ 4 ∧ sent db limit post state = (steps post).take n ++ [.rollback]
  -- Each is sent when there is a connection and all before it were acknowledged, in time, and only
  -- then.
  turn : ∀ i q, (steps post)[i]? = some q →
    (q ∈ sent db limit post state ↔ ∃ t, Connected db limit state t ∧
      InTime limit.toNat t ((replies db post state).take i))
  ok : ∀ d, result db limit post state = .ok d ↔ Done db limit post state d
  -- A transaction that is kept is not given up as well.
  kept : ∀ d, result db limit post state = .ok d → sent db limit post state = steps post
  error : ∀ e, result db limit post state = .error e → Unconnected db limit post state e ∨
    ∃ t, Connected db limit state t ∧ ¬ InTime limit.toNat t (replies db post state) ∧
      Stopped db limit post state t e
  message : ∀ e, result db limit post state = .error e → e.message = "delete_post failed" ∨
    e.message = "delete_post timed out after " ++ Text.Decimal.ofNat limit.toNat ++ "ms"

variable {db limit post state}

theorem Ran.account {t n : Nat} {out : Except Stop (List Result)}
    (ran : Ran db limit post state t n out) : Deleting db limit post state where
  unseen := deletePost_recorded db limit post state
  order := by
    cases made : result db limit post state with
    | ok d => exact .inr (.inl (ran.kept made))
    | error e => exact .inr (.inr (ran.stopped made).2.order)
  turn i q step := by
    rw [ran.turn step]
    constructor
    · exact fun acked => ⟨t, ran.connected, acked⟩
    · rintro ⟨t', connected, acked⟩
      exact ran.connected.unique connected ▸ acked
  ok _ := ran.ok
  kept _ := ran.kept
  error e failed := .inr ⟨t, ran.connected, ran.stopped failed⟩
  message e failed := by
    obtain ⟨_, _, _, _, _, -, -, reason, -⟩ := (ran.stopped failed).2
    rcases reason with ⟨_, _, -, -, shape⟩ | ⟨-, shape⟩
    · exact message_of (.inl ⟨_, shape⟩)
    · exact message_of (.inr shape)

theorem Unconnected.account {e : Error} (failed : result db limit post state = .error e)
    (none : Unconnected db limit post state e) : Deleting db limit post state where
  unseen := deletePost_recorded db limit post state
  order := .inl none.silent
  turn i q step := by
    rw [none.silent]
    refine iff_of_false List.not_mem_nil ?_
    rintro ⟨t, connected, -⟩
    exact none.not_connected connected
  ok d := by
    refine iff_of_false (by simp [failed]) ?_
    rintro ⟨t, _, _, _, _, _, _, _, _, connected, -⟩
    exact none.not_connected connected
  kept d done := by simp [failed] at done
  error e' failed' := by
    obtain rfl : e = e' := Except.error.inj (failed.symm.trans failed')
    exact .inl none
  message e' failed' := by
    obtain rfl : e = e' := Except.error.inj (failed.symm.trans failed')
    rcases none.reason with ⟨_, c, -, -, shape⟩ | ⟨-, shape⟩
    · exact message_of (.inl ⟨c, shape⟩)
    · exact message_of (.inr shape)

theorem deleting (db : Server σ) (limit : UInt64) (post : Int32) (state : σ) :
    Deleting db limit post state := by
  rcases ran_or_unconnected db limit post state with ⟨t, n, out, ran⟩ | ⟨e, failed, none⟩
  · exact ran.account
  · exact none.account failed

/-- The second of the deletions is not answered. -/
example : (deletePost Script.server.recorded 50 7 (⟨[.after 1 (.ok ⟨[], 0⟩),
    .after 1 (.ok ⟨[], 3⟩), .never], []⟩, [])).2.2 =
      [.begin, .deleteUpvotes 7, .deletePost 7, .rollback] := by rfl

end Postboard.Database.Deletion
