import Postboard.Database.Session

/-! What passes between an operation and its database.

Statements are sent one after the other until one of them is not acknowledged in time. `Course`
tells how far they get against the answers of a database; `mapM_course` ties it to the operations.
-/

set_option autoImplicit false

namespace Postboard.Database

open Network Operation

variable {σ α β : Type}

abbrev Answer := Arrival (Except Refusal Result)

/-- The same database with a record of what it has received, the oldest first. -/
def Server.recorded (db : Server σ) : Server (σ × List Statement) where
  acquire s := ((db.acquire s.1).1, (db.acquire s.1).2, s.2)
  run statement s := ((db.run statement s.1).1, (db.run statement s.1).2, s.2 ++ [statement])
  rollback stop s := (db.rollback stop s.1, s.2 ++ [.rollback])

/-- The answers to statements when each is sent after the one before it. -/
def Server.answers (db : Server σ) : List Statement → σ → List Answer
  | [], _ => []
  | q :: qs, s => (db.run q s).1 :: db.answers qs (db.run q s).2

/-- From one time to another, each answer is an acknowledgement that is there before the limit. -/
inductive Acked (limit : Nat) : Nat → List Answer → List Result → Nat → Prop where
  | nil {t : Nat} : Acked limit t [] [] t
  | cons {t d stop : Nat} {r : Result} {answers : List Answer} {results : List Result} :
      t + d < limit → Acked limit (t + d) answers results stop →
      Acked limit t (.after d (.ok r) :: answers) (r :: results) stop

def Late (limit t : Nat) (answer : Arrival α) : Prop :=
  ∀ d outcome, answer = .after d outcome → limit ≤ t + d

def InTime (limit t : Nat) (answers : List Answer) : Prop :=
  ∃ results stop, Acked limit t answers results stop

/-- How many statements are sent for these answers, and what comes of it. -/
inductive Course (limit : Nat) : Nat → List Answer → Nat → Except Stop (List Result) → Prop where
  | done {t : Nat} : Course limit t [] 0 (.ok [])
  | acked {t d n : Nat} {r : Result} {answers : List Answer} {out : Except Stop (List Result)} :
      t + d < limit → Course limit (t + d) answers n out →
      Course limit t (.after d (.ok r) :: answers) (n + 1) (out.map (r :: ·))
  | refused {t d : Nat} {r : Refusal} {answers : List Answer} :
      t + d < limit →
      Course limit t (.after d (.error r) :: answers) 1 (.error (.cause (.refused r.message)))
  | late {t : Nat} {answer : Answer} {answers : List Answer} :
      Late limit t answer → Course limit t (answer :: answers) 1 (.error .late)

/-! ### Answers -/

theorem answer_cases {ε : Type} (limit t : Nat) (answer : Arrival (Except ε α)) :
    (∃ d a, answer = .after d (.ok a) ∧ t + d < limit) ∨
      (∃ d e, answer = .after d (.error e) ∧ t + d < limit) ∨ Late limit t answer := by
  cases answer with
  | never => exact .inr (.inr (by simp [Late]))
  | after d outcome =>
    by_cases there : t + d < limit
    · cases outcome with
      | ok a => exact .inl ⟨d, a, rfl, there⟩
      | error e => exact .inr (.inl ⟨d, e, rfl, there⟩)
    · refine .inr (.inr ?_)
      rintro _ _ ⟨⟩
      exact Nat.le_of_not_lt there

theorem Late.within {limit t : Nat} {answer : Arrival α} (late : Late limit t answer) :
    answer.within (some limit) t = none := by
  cases answer with
  | never => rfl
  | after d outcome =>
    have passed := late d outcome rfl
    simp [Arrival.within, passed]

theorem inTime_nil {limit t : Nat} : InTime limit t [] := ⟨[], t, .nil⟩

theorem inTime_cons {limit t d : Nat} {r : Result} {answers : List Answer} (there : t + d < limit) :
    InTime limit t (.after d (.ok r) :: answers) ↔ InTime limit (t + d) answers := by
  constructor
  · rintro ⟨_, stop, acked⟩
    cases acked with
    | cons _ acked => exact ⟨_, stop, acked⟩
  · rintro ⟨results, stop, acked⟩
    exact ⟨r :: results, stop, .cons there acked⟩

theorem not_inTime_refused {limit t d : Nat} {r : Refusal} {answers : List Answer} :
    ¬ InTime limit t (.after d (.error r) :: answers) := by
  rintro ⟨_, _, acked⟩
  cases acked

theorem Late.not_inTime {limit t : Nat} {answer : Answer} {answers : List Answer}
    (late : Late limit t answer) : ¬ InTime limit t (answer :: answers) := by
  rintro ⟨_, _, acked⟩
  cases acked with
  | cons there =>
    have passed := late _ _ rfl
    omega

theorem length_answers (db : Server σ) (qs : List Statement) (s : σ) :
    (db.answers qs s).length = qs.length := by
  induction qs generalizing s with
  | nil => rfl
  | cons q qs ih => simp [Server.answers, ih]

/-! ### Courses -/

namespace Course

variable {limit t n : Nat} {answers : List Answer} {out : Except Stop (List Result)}

/-- A statement is sent when all before it are acknowledged in time. -/
theorem turn (course : Course limit t answers n out) {i : Nat} (inside : i < answers.length) :
    i < n ↔ InTime limit t (answers.take i) := by
  induction course generalizing i with
  | done => cases inside
  | acked there _ ih =>
    cases i with
    | zero => simp [inTime_nil]
    | succ i =>
      rw [List.take_succ_cons, inTime_cons there, ← ih (by simpa using inside)]
      omega
  | refused =>
    cases i with
    | zero => simp [inTime_nil]
    | succ i => simp [not_inTime_refused]
  | late late =>
    cases i with
    | zero => simp [inTime_nil]
    | succ i => simp [late.not_inTime]

theorem ok_iff (course : Course limit t answers n out) {results : List Result} :
    out = .ok results ↔ ∃ stop, Acked limit t answers results stop := by
  induction course generalizing results with
  | done =>
    constructor
    · rintro ⟨⟩
      exact ⟨_, .nil⟩
    · rintro ⟨_, ⟨⟩⟩
      rfl
  | @acked _ _ _ r _ out there _ ih =>
    constructor
    · intro ok
      cases out with
      | error e => cases ok
      | ok rest =>
        cases ok
        obtain ⟨stop, acked⟩ := ih.mp rfl
        exact ⟨stop, .cons there acked⟩
    · rintro ⟨stop, acked⟩
      cases acked with
      | cons _ acked => rw [ih.mpr ⟨stop, acked⟩]; rfl
  | refused =>
    exact iff_of_false nofun fun ⟨stop, run⟩ => not_inTime_refused ⟨_, stop, run⟩
  | late late =>
    exact iff_of_false nofun fun ⟨stop, run⟩ => late.not_inTime ⟨_, stop, run⟩

/-- What stops a course is the last answer that it has asked for. -/
theorem error (course : Course limit t answers n out) {stop : Stop} (stopped : out = .error stop) :
    ∃ before answer later results now,
      answers = before ++ answer :: later ∧ n = before.length + 1 ∧
      Acked limit t before results now ∧
      ((∃ d r, answer = .after d (.error r) ∧ now + d < limit ∧
          stop = .cause (.refused r.message)) ∨
        (Late limit now answer ∧ stop = .late)) := by
  induction course with
  | done => cases stopped
  | @acked _ d _ r _ out there _ ih =>
    cases out with
    | ok results => cases stopped
    | error e =>
      obtain ⟨before, answer, later, results, now, rfl, rfl, acked, reason⟩ := ih stopped
      exact ⟨.after d (.ok r) :: before, answer, later, r :: results, now, rfl, rfl,
        .cons there acked, reason⟩
  | refused there =>
    cases stopped
    exact ⟨[], _, _, [], _, rfl, rfl, .nil, .inl ⟨_, _, rfl, there, rfl⟩⟩
  | late late =>
    cases stopped
    exact ⟨[], _, _, [], _, rfl, rfl, .nil, .inr ⟨late, rfl⟩⟩

/-- All statements are sent when all of them are acknowledged. -/
theorem length_of_ok {results : List Result} (course : Course limit t answers n (.ok results)) :
    n = answers.length := by
  generalize made : Except.ok results = out at course
  induction course generalizing results with
  | done => rfl
  | @acked _ _ _ _ _ out _ _ ih =>
    cases out with
    | error stop => cases made
    | ok rest => rw [ih rfl, List.length_cons]
  | refused => cases made
  | late => cases made

end Course

/-! ### Operations -/

namespace Operation

theorem bind_apply (x : Operation σ α) (f : α → Operation σ β) (s : Session σ) :
    (x >>= f) s = match x s with
      | (.ok a, s) => f a s
      | (.error stop, s) => (.error stop, s) := by
  simp only [bind, ExceptT.bind, ExceptT.mk, StateT.bind, ExceptT.bindCont]
  cases x s with
  | mk outcome next => cases outcome <;> rfl

section Awaiting

variable {ε : Type} {act : σ → Arrival (Except ε α) × σ} {cause : ε → Cause} {s : σ}
  {limit t d : Nat}

theorem await_ok {a : α} (answer : (act s).1 = .after d (.ok a)) (there : t + d < limit) :
    await (some limit) cause act ⟨s, t⟩ = (.ok a, ⟨(act s).2, t + d⟩) := by
  simp [await, answer, Arrival.within, there]

theorem await_error {e : ε} (answer : (act s).1 = .after d (.error e)) (there : t + d < limit) :
    await (some limit) cause act ⟨s, t⟩ = (.error (.cause (cause e)), ⟨(act s).2, t + d⟩) := by
  simp [await, answer, Arrival.within, there]

theorem await_late (late : Late limit t (act s).1) :
    await (some limit) cause act ⟨s, t⟩ = (.error .late, ⟨(act s).2, t⟩) := by
  simp [await, late.within]

end Awaiting

/-- Statements that are asked in turn take the course that their answers give. -/
theorem mapM_course (db : Server σ) (limit : Nat) (qs : List Statement) (s : σ)
    (log : List Statement) (t : Nat) :
    ∃ n out final, qs.mapM (ask db.recorded (some limit)) ⟨(s, log), t⟩ = (out, final) ∧
      Course limit t (db.answers qs s) n out ∧ final.state.2 = log ++ qs.take n := by
  induction qs generalizing s log t with
  | nil => exact ⟨0, .ok [], ⟨(s, log), t⟩, rfl, .done, by simp⟩
  | cons q qs ih =>
    rw [List.mapM_cons, bind_apply, Server.answers]
    -- Only an acknowledgement leaves the other statements to be asked, over the longer record.
    rcases answer_cases limit t (db.run q s).1 with
      ⟨d, r, answer, there⟩ | ⟨d, r, answer, there⟩ | late
    · obtain ⟨n, out, final, run, course, log'⟩ := ih (db.run q s).2 (log ++ [q]) (t + d)
      have asked : ask db.recorded (some limit) q ⟨(s, log), t⟩ =
          (.ok r, ⟨((db.run q s).2, log ++ [q]), t + d⟩) := await_ok answer there
      rw [asked, answer]
      refine ⟨n + 1, out.map (r :: ·), final, ?_, .acked there course, by simp [log']⟩
      simp only [bind_apply, run]
      cases out <;> rfl
    · have asked : ask db.recorded (some limit) q ⟨(s, log), t⟩ =
          (.error (.cause (.refused r.message)), ⟨((db.run q s).2, log ++ [q]), t + d⟩) :=
        await_error answer there
      rw [asked, answer]
      exact ⟨1, _, _, rfl, .refused there, by simp⟩
    · have asked : ask db.recorded (some limit) q ⟨(s, log), t⟩ =
          (.error .late, ⟨((db.run q s).2, log ++ [q]), t⟩) := await_late late
      rw [asked]
      exact ⟨1, _, _, rfl, .late late, by simp⟩

/-! ### Recording -/

/-- An operation does the same over the database with a record as over the one without. -/
def Unseen (x : Operation σ α) (y : Operation (σ × List Statement) α) : Prop :=
  ∀ s, x ⟨s.state.1, s.elapsed⟩ = ((y s).1, ⟨(y s).2.state.1, (y s).2.elapsed⟩)

theorem unseen_pure (a : α) : Unseen (σ := σ) (pure a) (pure a) := fun _ => rfl

theorem Unseen.bind {x : Operation σ α} {y : Operation (σ × List Statement) α}
    {f : α → Operation σ β} {g : α → Operation (σ × List Statement) β} (here : Unseen x y)
    (rest : ∀ a, Unseen (f a) (g a)) : Unseen (x >>= f) (y >>= g) := by
  intro s
  rw [bind_apply, bind_apply, here s]
  cases y s with
  | mk outcome next =>
    cases outcome with
    | error stop => rfl
    | ok a => exact rest a next

theorem unseen_await {ε : Type} {act : σ → Arrival (Except ε α) × σ}
    {act' : σ × List Statement → Arrival (Except ε α) × σ × List Statement}
    (same : ∀ s, act s.1 = ((act' s).1, (act' s).2.1)) (limit : Option Nat) (cause : ε → Cause) :
    Unseen (await limit cause act) (await limit cause act') := by
  intro s
  simp only [await, same s.state]
  cases act' s.state with
  | mk arrival next =>
    cases arrival.within limit s.elapsed with
    | none => rfl
    | some reply => obtain ⟨_ | _, _⟩ := reply <;> rfl

theorem unseen_ask (db : Server σ) (limit : Option Nat) (q : Statement) :
    Unseen (ask db limit q) (ask db.recorded limit q) :=
  unseen_await (fun _ => rfl) limit _

theorem Unseen.transaction {db : Server σ} {limit : Option Nat} {x : Operation σ α}
    {y : Operation (σ × List Statement) α} (body : Unseen x y) :
    Unseen (transaction db limit x) (transaction db.recorded limit y) := by
  have work : Unseen (enclosed db limit x) (enclosed db.recorded limit y) :=
    (unseen_ask db limit .begin).bind fun _ => body.bind fun a =>
      (unseen_ask db limit .commit).bind fun _ => unseen_pure a
  have connection : Unseen (acquire db limit) (acquire db.recorded limit) :=
    unseen_await (fun _ => rfl) limit _
  refine connection.bind fun _ s => ?_
  unfold guarded
  rw [work s]
  cases enclosed db.recorded limit y s with
  | mk outcome next => cases outcome <;> rfl

theorem Unseen.bounded {x : Operation σ α} {y : Operation (σ × List Statement) α}
    (body : Unseen x y) (name : String) (limit : UInt64) (s : σ × List Statement) :
    bounded name limit x s.1 = ((bounded name limit y s).1, (bounded name limit y s).2.1) := by
  unfold Operation.bounded
  rw [body ⟨s, 0⟩]
  cases y ⟨s, 0⟩ with
  | mk outcome next => rcases outcome with (_ | _) | _ <;> rfl

end Operation

end Postboard.Database
