import Postboard.Proofs.Reactive.Flat
import Postboard.Proofs.Service.Limits
import Postboard.Proofs.Service.Location
import Postboard.Proofs.Service.Serving

/-! Reads of a service whose backend answers from a script.

The log of the script holds one call for each read whose limit is valid, in the order of the reads,
and no other. The one reply that a read gets decides its answer.
-/

set_option autoImplicit false

namespace Postboard.Service

open Http Text Reactive

variable {σ ε : Type}

/-! ### The one call and the one reply -/

/-- The calls that a sequence of requests makes: one for each read whose limit is valid. -/
inductive CallsOf (c : Config) : List Http.Request → List Call → Prop where
  | nil : CallsOf c [] []
  | read {r : Http.Request} {n : UInt32} {rest : List Http.Request} {calls : List Call} :
      IsRead r → AsksFor c r n → CallsOf c rest calls → CallsOf c (r :: rest) (callOf r n :: calls)
  | other {r : Http.Request} {rest : List Http.Request} {calls : List Call} :
      ¬ (IsRead r ∧ ∃ n, AsksFor c r n) → CallsOf c rest calls → CallsOf c (r :: rest) calls

structure Replies (script : Script) (mode : Mode) (reply : Except Error Reply) : Prop where
  snapshot : mode = .snapshot → ∀ given, script.snapshot = some given →
    reply = given.map Reply.snapshot
  stream : mode = .stream → ∀ given, script.stream = some given → reply = given.map Reply.handle
  missing : mode = .snapshot ∧ script.snapshot = none ∨ mode = .stream ∧ script.stream = none →
    ∃ why, reply = .error (.unavailable why)

theorem replies_reply (script : Script) (mode : Mode) :
    Replies script mode (script.reply mode) where
  snapshot := by
    rintro rfl given found
    simp only [Script.reply, found]
  stream := by
    rintro rfl given found
    simp only [Script.reply, found]
  missing := by
    rintro (⟨rfl, none⟩ | ⟨rfl, none⟩)
    · exact ⟨_, by simp only [Script.reply, none]; rfl⟩
    · exact ⟨_, by simp only [Script.reply, none]; rfl⟩

def ListedAs (row : Row) (v : Json) : Prop :=
  ∃ key shown, v = .obj shown ∧ Keyed key row.value shown ∧
    match row.key with
    | .num n => key = .num n
    | .str s => key = .str s

theorem listed_flat (s : Snapshot) :
    ∃ values, s.flat = .arr values ∧ List.Forall₂ ListedAs s.rows values := by
  refine ⟨_, rfl, ?_⟩
  rw [List.forall₂_map_right_iff, List.forall₂_same]
  intro row _
  exact ⟨_, _, row.flat_eq, row.keyed, by cases row.key <;> rfl⟩

/-- The status, the kind and the further members that a failure of the backend is told with. -/
inductive ToldWith : Error → Nat → String → Json.Members → Prop where
  | unavailable (why : String) : ToldWith (.unavailable why) 503 "backend_unavailable" []
  | backend (status : UInt16) (body : String) : ToldWith (.backend status body) 502 "backend_error"
      [("backend_status", .nat status.toNat)]
  | decode (why : String) : ToldWith (.decode why) 500 "decode_error" []

/-- The response that a reply in a mode becomes. -/
structure Tells (c : Config) (mode : Mode) (reply : Except Error Reply) (response : Response) :
    Prop where
  redirect : response.status = 307 ↔ mode = .stream ∧ ∃ h, reply = .ok (.handle h)
  -- The location is the configured path without the slashes at its end, a slash and the handle.
  location : ∀ h, mode = .stream → reply = .ok (.handle h) →
    ∃ front slashes : List Char, c.streams.redirectBase.toList = front ++ slashes ∧
      (∀ x ∈ slashes, x = '/') ∧ front.getLast? ≠ some '/' ∧
      response = ⟨307, none, some (String.ofList front ++ "/" ++ h.text), none, ""⟩
  list : response.status = 200 ↔ mode = .snapshot ∧ ∃ s, reply = .ok (.snapshot s)
  rows : ∀ s, mode = .snapshot → reply = .ok (.snapshot s) →
    ∃ values, List.Forall₂ ListedAs s.rows values ∧
      response = ⟨200, some "application/json", none, none, (Json.arr values).text⟩
  unavailable : response.status = 503 ↔ ∃ why, reply = .error (.unavailable why)
  backend : response.status = 502 ↔ ∃ status body, reply = .error (.backend status body)
  decode : response.status = 500 ↔ ∃ why, reply = .error (.decode why)
  failure : ∀ e, reply = .error e → ∃ status kind given, ToldWith e status kind given ∧
    response = ⟨status, some "application/json", none, none,
      (Json.obj (("error", .str e.message) :: ("kind", .str kind) :: given)).text⟩

theorem toldWith_response (e : Error) : ∃ status kind given, ToldWith e status kind given ∧
    (Failure.reactive e).response = ⟨status, some "application/json", none, none,
      (Json.obj (("error", .str e.message) :: ("kind", .str kind) :: given)).text⟩ := by
  cases e with
  | unavailable why => exact ⟨_, _, _, .unavailable why, rfl⟩
  | backend status body => exact ⟨_, _, _, .backend status body, rfl⟩
  | decode why => exact ⟨_, _, _, .decode why, rfl⟩

theorem tells_error (c : Config) (mode : Mode) (e : Error) :
    Tells c mode (.error e) (Failure.reactive e).response := by
  obtain ⟨status, kind, given, told, response⟩ := toldWith_response e
  rw [response]
  exact {
    redirect := by cases told <;> simp
    location := by simp
    list := by cases told <;> simp
    rows := by simp
    unavailable := by cases told <;> simp
    backend := by cases told <;> simp
    decode := by cases told <;> simp
    failure := by
      rintro _ ⟨⟩
      exact ⟨status, kind, given, told, rfl⟩ }

theorem tells_handle (c : Config) (h : Handle) :
    Tells c .stream (.ok (.handle h))
      (.redirect (withoutSlashes c.streams.redirectBase ++ "/" ++ h.text)) where
  redirect := by simp [Response.redirect]
  location := by
    rintro _ - ⟨⟩
    obtain ⟨front, slashes, whole, all, last, same⟩ := withoutSlashes_split c.streams.redirectBase
    exact ⟨front, slashes, whole, all, last, by rw [same]; rfl⟩
  list := by simp [Response.redirect]
  rows := by simp
  unavailable := by simp [Response.redirect]
  backend := by simp [Response.redirect]
  decode := by simp [Response.redirect]
  failure := by simp

theorem tells_rows (c : Config) (s : Snapshot) :
    Tells c .snapshot (.ok (.snapshot s)) (.json 200 s.flat.text) where
  redirect := by simp [Response.json]
  location := by simp
  list := by simp [Response.json]
  rows := by
    rintro _ - ⟨⟩
    obtain ⟨values, shown, listed⟩ := listed_flat s
    exact ⟨values, listed, by rw [shown]; rfl⟩
  unavailable := by simp [Response.json]
  backend := by simp [Response.json]
  decode := by simp [Response.json]
  failure := by simp

section Scripted

variable (script : Script) (g : Post.Gateway σ ε) (user : Int32) (c : Config)

/-- The service over a script, with a gateway that keeps to its own part of the state. -/
def scripted : Service (σ × List Call) ε := ofConfig script.client.onSecond g.onFirst user c

structure ReadAnswer (r : Http.Request) (answer : Option Response) : Prop where
  refused : IsRead r → (∀ n, ¬ AsksFor c r n) → ∃ reason, answer = some (shownTo r
    ⟨400, some "application/json", none, none,
      (Json.obj [("error", .str reason), ("kind", .str "invalid_parameter")]).text⟩)
  told : (∀ x ∈ c.streams.redirectBase.toList, IsSendable x) → IsRead r → (∃ n, AsksFor c r n) →
    ∃ reply response, Replies script (Accept.mode (r.values "accept")) reply ∧
      answer = some (shownTo r response) ∧
      Tells c (Accept.mode (r.values "accept")) reply response

theorem readPosts_called {r : Http.Request} {n : UInt32} (asked : AsksFor c r n) (state : σ)
    (log : List Call) :
    ((scripted script g user c).readPosts r (state, log)).2 = (state, log ++ [callOf r n]) ∧
      (isHeaderValue (Utf8.bytes c.streams.redirectBase) = true →
        ∃ response, ((scripted script g user c).readPosts r (state, log)).1 = some response ∧
          Tells c (Accept.mode (r.values "accept")) (script.reply (Accept.mode (r.values "accept")))
            response) := by
  rw [scripted, readPosts_asked script.client.onSecond g.onFirst user c (state, log) asked]
  cases mode : Accept.mode (r.values "accept") with
  | snapshot =>
    simp only [callOf, mode]
    refine ⟨rfl, fun _ => ⟨_, rfl, ?_⟩⟩
    simp only [Client.fetchSnapshot, Client.onSecond, Script.client, Script.reply]
    cases script.snapshot with
    | none => exact tells_error c _ _
    | some reply =>
      cases reply with
      | error e => exact tells_error c _ e
      | ok s => exact tells_rows c s
  | stream =>
    simp only [callOf, mode]
    refine ⟨rfl, fun legal => ?_⟩
    simp only [Client.openStream, Client.onSecond, Script.client, Script.reply]
    cases script.stream with
    | none => exact ⟨_, rfl, tells_error c _ _⟩
    | some reply =>
      cases reply with
      | error e => exact ⟨_, rfl, tells_error c _ e⟩
      | ok h =>
        have answered := streamResponse_legal script.client.onSecond g.onFirst user legal h
        exact ⟨_, answered, tells_handle c h⟩

theorem run_onFirst (m : Mutation) (state : σ) (log : List Call) :
    m.run g.onFirst user (state, log) =
      ((m.run g user state).1, ((m.run g user state).2, log)) := by
  cases m <;> rfl

/-- A read with a valid limit adds its call to the log. -/
theorem respond_log_read {r : Http.Request} {n : UInt32} (read : IsRead r) (asked : AsksFor c r n)
    (state : σ) (log : List Call) :
    ((scripted script g user c).respond r (state, log)).2 = (state, log ++ [callOf r n]) := by
  rw [respond_read _ r _ read]
  exact (readPosts_called script g user c asked state log).1

/-- No other request adds a call. -/
theorem respond_log_other {r : Http.Request} (other : ¬ (IsRead r ∧ ∃ n, AsksFor c r n))
    (state : σ) (log : List Call) :
    ((scripted script g user c).respond r (state, log)).2.2 = log := by
  rcases respond_cases (scripted script g user c) r (state, log) with
    ⟨read, same⟩ | ⟨m, -, same⟩ | ⟨-, -, response, same, -⟩ | ⟨-, -, response, same⟩
  · have invalid : ∀ n, ¬ AsksFor c r n := fun n asked => other ⟨read, n, asked⟩
    obtain ⟨reason, answered⟩ :=
      readPosts_refused script.client.onSecond g.onFirst user c (state, log) invalid
    rw [same]
    exact congrArg (fun result => result.2.2) answered
  · rw [same]
    exact congrArg (fun result => result.2.2) (run_onFirst g user m state log)
  · rw [same]
  · rw [same]

/-- Each answer follows from the one reply. -/
theorem respond_readAnswer (r : Http.Request) (state : σ) (log : List Call) :
    ReadAnswer script c r ((scripted script g user c).respond r (state, log)).1 where
  refused read invalid := by
    obtain ⟨reason, answered⟩ :=
      readPosts_refused script.client.onSecond g.onFirst user c (state, log) invalid
    refine ⟨(Failure.query (.invalidParameter .posts reason)).message, ?_⟩
    rw [respond_read _ r _ read]
    exact congrArg (fun result => result.1.map (shownTo r)) answered
  told legal read := by
    rintro ⟨n, asked⟩
    obtain ⟨response, answered, tells⟩ :=
      (readPosts_called script g user c asked state log).2 (isHeaderValue_encode.mpr legal)
    refine ⟨_, response, replies_reply script _, ?_, tells⟩
    rw [respond_read _ r _ read, answered]
    rfl

theorem serve_log (requests : List Http.Request) (state : σ) (log : List Call) :
    ∃ calls, CallsOf c requests calls ∧
      ((scripted script g user c).serve requests (state, log)).2.2 = log ++ calls := by
  -- Calls are logged at the end, so the log so far has to stay general.
  induction requests generalizing state log with
  | nil => exact ⟨[], .nil, (List.append_nil log).symm⟩
  | cons r rest ih =>
    by_cases called : IsRead r ∧ ∃ n, AsksFor c r n
    · obtain ⟨read, n, asked⟩ := called
      obtain ⟨calls, later, logged⟩ := ih state (log ++ [callOf r n])
      refine ⟨callOf r n :: calls, .read read asked later, ?_⟩
      simp only [serve_cons, respond_log_read script g user c read asked state log, logged]
      simp
    · obtain ⟨calls, later, logged⟩ :=
        ih ((scripted script g user c).respond r (state, log)).2.1 log
      refine ⟨calls, .other called later, ?_⟩
      have kept : ((scripted script g user c).respond r (state, log)).2 =
          (((scripted script g user c).respond r (state, log)).2.1, log) :=
        Prod.ext rfl (respond_log_other script g user c called state log)
      rw [serve_cons, kept]
      exact logged

/-- Over any requests the log grows by one call for each read whose limit is valid, in order, and by
no other; each read is answered by what its own limit and its one reply say. Under a checked
configuration a read that names no limit has a valid one. -/
theorem scripted_reads_logged (requests : List Http.Request) (state : σ) (log : List Call) :
    (∃ calls, CallsOf c requests calls ∧
      ((scripted script g user c).serve requests (state, log)).2.2 = log ++ calls) ∧
    List.Forall₂ (ReadAnswer script c) requests
      ((scripted script g user c).serve requests (state, log)).1 ∧
    (c.check = .ok () → ∀ r, NamesLimits (queryOf r) [] → AsksFor c r c.posts.defaultLimit) := by
  have step : ∀ r (before : σ × List Call), True →
      True ∧ ReadAnswer script c r ((scripted script g user c).respond r before).1 := by
    rintro r ⟨state, log⟩ -
    exact ⟨trivial, respond_readAnswer script g user c r state log⟩
  refine ⟨serve_log script g user c requests state log, ?_, ?_⟩
  · exact ((scripted script g user c).serve_forall step requests (state, log) trivial).2
  · exact fun checked r none => asksFor_default c checked none

end Scripted

end Postboard.Service
