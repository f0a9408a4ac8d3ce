import Postboard.Proofs.Store.Slot

/-! Clients that take turns on one store.

Clients whose edits are about different posts do not notice each other: each gets the results that
it would get alone, up to the numbers of upvotes, and in whatever order they take their turns the
view in the end is the same.
-/

set_option autoImplicit false

namespace Postboard.Store

variable {κ : Type} {h : List Event} {s : Store}

/-- Carry out edits in order; every event belongs to the client whose turn it was. -/
def session : List (κ × Edit) → Store → List (κ × Event) × Store
  | [], s => ([], s)
  | (c, e) :: rest, s =>
    let (event, s) := s.step e.op
    let (history, s) := session rest s
    ((c, event) :: history, s)

def share {α : Type} [DecidableEq κ] (c : κ) (xs : List (κ × α)) : List (κ × α) :=
  xs.filter fun x => x.1 = c

/-- The results in a session, without the numbers of upvotes. -/
def results (history : List (κ × Event)) : List (κ × Event) :=
  history.map fun x => (x.1, x.2.unnumbered)

def given (history : List (κ × Event)) : Nat := history.countP fun x => x.2.upvotes

theorem given_cons (c : κ) (e : Event) (history : List (κ × Event)) :
    given ((c, e) :: history) = given history + e.upvotes.toNat := by
  cases counted : e.upvotes <;> simp [given, counted]

theorem given_results (history : List (κ × Event)) : given (results history) = given history := by
  simp only [given, results, List.countP_map, Function.comp_def, Event.upvotes_unnumbered]

theorem share_results [DecidableEq κ] (c : κ) (history : List (κ × Event)) :
    share c (results history) = results (share c history) := by
  simp only [share, results, List.filter_map, Function.comp_def]

/-! ### Turns on slots -/

/-- The session of the same turns on slots. -/
def play (known : Int32 → Bool) :
    List (κ × Edit) → (Int32 → Slot) → List (κ × Event) × (Int32 → Slot)
  | [], m => ([], m)
  | (c, e) :: rest, m =>
    let (event, r) := e.act known (m e.post)
    let (history, m) := play known rest (Function.update m e.post r)
    ((c, event) :: history, m)

theorem session_cons (c : κ) (e : Edit) (rest : List (κ × Edit)) (s : Store) :
    session ((c, e) :: rest) s =
      ((c, (s.step e.op).1) :: (session rest (s.step e.op).2).1, (session rest (s.step e.op).2).2) :=
  rfl

theorem play_cons (known : Int32 → Bool) (c : κ) (e : Edit) (rest : List (κ × Edit))
    (m : Int32 → Slot) :
    play known ((c, e) :: rest) m =
      ((c, (e.act known (m e.post)).1) ::
          (play known rest (Function.update m e.post (e.act known (m e.post)).2)).1,
        (play known rest (Function.update m e.post (e.act known (m e.post)).2)).2) := rfl

/-- What a session comes to is what its turns come to on slots. -/
structure Played (turns : List (κ × Edit)) (s : Store) : Prop where
  events : results (session turns s).1 = (play s.hasUser turns s.slot).1
  slots : (session turns s).2.slot = (play s.hasUser turns s.slot).2
  users : (session turns s).2.users = s.users
  posts : Assoc.Sorted (session turns s).2.posts

/-- There are numbers for all upvotes, whether these are counted in the session or on slots. -/
theorem Tidy.played (tidy : Tidy s) (unbroken : s.broken = none) (turns : List (κ × Edit))
    (room : s.lastUpvote.toInt + given (session turns s).1 < 2147483647 ∨
      s.lastUpvote.toInt + given (play s.hasUser turns s.slot).1 < 2147483647) :
    Played turns s := by
  -- Every upvote takes one of the numbers that are left, so the rest of the turns has room too.
  induction turns generalizing s with
  | nil => exact ⟨rfl, rfl, rfl, tidy.posts⟩
  | cons turn rest ih =>
    obtain ⟨c, e⟩ := turn
    have event := step_event unbroken e
    have effect := step_effect s e.op
    obtain ⟨users, broken⟩ := step_edit_kept s e
    have known : (s.step e.op).2.hasUser = s.hasUser := by
      funext user
      simp only [hasUser, users]
    -- The event counts as an upvote or not, the same for both ways of counting.
    have flag : (e.act s.hasUser (s.slot e.post)).1.upvotes = (s.step e.op).1.upvotes := by
      rw [← event, Event.upvotes_unnumbered]
    rw [session_cons, play_cons, given_cons, given_cons, flag] at room
    have here : (s.step e.op).1.upvotes = true → s.lastUpvote.toInt < 2147483647 := by
      intro counted
      rw [counted] at room
      simp only [Bool.toNat_true] at room
      omega
    have slot := tidy.step_slot unbroken e here
    have last := effect.lastUpvote here
    have later := ih (effect.tidy tidy here) (broken.trans unbroken)
    rw [known, slot] at later
    obtain ⟨events, slots, users', posts⟩ := later (by omega)
    rw [known, slot] at events slots
    exact {
      events := by
        rw [session_cons, play_cons, ← events, ← event]
        rfl
      slots := by rw [session_cons, play_cons, ← slots]
      users := by rw [session_cons, users', users]
      posts := posts }

/-! ### Clients apart -/

theorem play_untouched {known : Int32 → Bool} {turns : List (κ × Edit)} {id : Int32}
    (untouched : ∀ t ∈ turns, t.2.post ≠ id) (m : Int32 → Slot) :
    (play known turns m).2 id = m id := by
  induction turns generalizing m with
  | nil => rfl
  | cons turn rest ih =>
    obtain ⟨c, e⟩ := turn
    have other : id ≠ e.post := Ne.symm (untouched (c, e) List.mem_cons_self)
    have later := ih (fun t member => untouched t (List.mem_cons_of_mem _ member))
      (Function.update m e.post (e.act known (m e.post)).2)
    rw [play_cons, later, Function.update_of_ne other]

def Apart (turns : List (κ × Edit)) : Prop :=
  ∀ t ∈ turns, ∀ t' ∈ turns, t.1 ≠ t'.1 → t.2.post ≠ t'.2.post

variable [DecidableEq κ]

theorem share_cons_self {α : Type} (c : κ) (a : α) (xs : List (κ × α)) :
    share c ((c, a) :: xs) = (c, a) :: share c xs := by simp [share]

theorem share_cons_other {α : Type} {c c' : κ} (other : c' ≠ c) (a : α) (xs : List (κ × α)) :
    share c ((c', a) :: xs) = share c xs := by simp [share, other]

/-- Lists in which every client has the same share are made up of the same elements. -/
theorem perm_of_share {α : Type} {xs ys : List (κ × α)} (same : ∀ c, share c xs = share c ys) :
    xs.Perm ys := by
  classical
  refine List.perm_iff_count.mpr fun x => ?_
  have count : ∀ zs : List (κ × α), (share x.1 zs).count x = zs.count x := fun zs =>
    List.count_filter (by simp)
  rw [← count xs, ← count ys, same]

/-- A client gets on slots what it gets alone, and its posts end up the same; `own` may be any set
of posts with all that the client edits and none that others do. -/
theorem play_share {known : Int32 → Bool} {c : κ} {own : Int32 → Prop} {turns : List (κ × Edit)}
    (mine : ∀ t ∈ turns, t.1 = c → own t.2.post) (others : ∀ t ∈ turns, t.1 ≠ c → ¬ own t.2.post)
    {m m' : Int32 → Slot} (agree : ∀ id, own id → m id = m' id) :
    share c (play known turns m).1 = (play known (share c turns) m').1 ∧
      ∀ id, own id → (play known turns m).2 id = (play known (share c turns) m').2 id := by
  -- The slots on both sides need to agree on `own` only, which every turn keeps up.
  induction turns generalizing m m' with
  | nil => exact ⟨rfl, agree⟩
  | cons turn rest ih =>
    obtain ⟨c', e⟩ := turn
    have later := @ih (fun t member => mine t (List.mem_cons_of_mem _ member))
      (fun t member => others t (List.mem_cons_of_mem _ member))
    by_cases same : c' = c
    · subst same
      have slot : m e.post = m' e.post := agree e.post (mine (c', e) List.mem_cons_self rfl)
      have after : ∀ id, own id →
          Function.update m e.post (e.act known (m' e.post)).2 id =
            Function.update m' e.post (e.act known (m' e.post)).2 id := by
        intro id owned
        by_cases here : id = e.post
        · rw [here, Function.update_self, Function.update_self]
        · rw [Function.update_of_ne here, Function.update_of_ne here, agree id owned]
      obtain ⟨events, slots⟩ := later after
      simp only [share_cons_self, play_cons, slot, events, true_and]
      exact slots
    · -- A turn of another client changes a slot that is not owned.
      have after : ∀ id, own id →
          Function.update m e.post (e.act known (m e.post)).2 id = m' id := by
        intro id owned
        have other : id ≠ e.post := by
          rintro rfl
          exact others (c', e) List.mem_cons_self same owned
        rw [Function.update_of_ne other, agree id owned]
      simp only [share_cons_other same, play_cons]
      exact later after

def Own (c : κ) (turns : List (κ × Edit)) (id : Int32) : Prop :=
  ∀ t ∈ turns, t.1 ≠ c → t.2.post ≠ id

theorem Apart.play_share {turns : List (κ × Edit)} (apart : Apart turns) (known : Int32 → Bool)
    (m : Int32 → Slot) (c : κ) :
    share c (play known turns m).1 = (play known (share c turns) m).1 ∧
      ∀ id, Own c turns id → (play known turns m).2 id = (play known (share c turns) m).2 id := by
  refine Store.play_share ?_ ?_ fun _ _ => rfl
  · rintro t member rfl t' member' other
    exact (apart t member t' member' (Ne.symm other)).symm
  · intro t member other owned
    exact owned t member other rfl

theorem Apart.of_share {turns turns' : List (κ × Edit)} (apart : Apart turns)
    (same : ∀ c, share c turns = share c turns') : Apart turns' := by
  have turned := perm_of_share same
  intro t here t' there
  exact apart t (turned.mem_iff.mpr here) t' (turned.mem_iff.mpr there)

theorem Apart.slots_eq {turns turns' : List (κ × Edit)} (apart : Apart turns)
    (same : ∀ c, share c turns = share c turns') (known : Int32 → Bool) (m : Int32 → Slot) :
    (play known turns m).2 = (play known turns' m).2 := by
  have apart' := apart.of_share same
  have turned := perm_of_share same
  funext id
  by_cases touched : ∃ t ∈ turns, t.2.post = id
  · obtain ⟨t, member, rfl⟩ := touched
    have own : Own t.1 turns t.2.post := fun t' member' other => apart t' member' t member other
    have own' : Own t.1 turns' t.2.post := fun t' member' => own t' (turned.mem_iff.mpr member')
    rw [(apart.play_share known m t.1).2 _ own, (apart'.play_share known m t.1).2 _ own', same]
  · have untouched : ∀ t ∈ turns, t.2.post ≠ id := fun t member here => touched ⟨t, member, here⟩
    rw [play_untouched untouched,
      play_untouched fun t member => untouched t (turned.mem_iff.mpr member)]

theorem Apart.share_eq {turns turns' : List (κ × Edit)} (apart : Apart turns)
    (same : ∀ c, share c turns = share c turns') (known : Int32 → Bool) (m : Int32 → Slot)
    (c : κ) : share c (play known turns m).1 = share c (play known turns' m).1 := by
  rw [(apart.play_share known m c).1, ((apart.of_share same).play_share known m c).1, same]

theorem Played.share_results {turns : List (κ × Edit)} (played : Played turns s) (c : κ) :
    results (share c (session turns s).1) = share c (play s.hasUser turns s.slot).1 := by
  rw [← played.events, Store.share_results]

/-- Clients that edit different posts get the same results and leave the same snapshots, in whatever
order they take their turns; each gets what it would get alone. -/
theorem interleavings_agree (reached : Reached h s) (unbroken : s.broken = none)
    {turns turns' : List (κ × Edit)} (same : ∀ c, share c turns = share c turns')
    (apart : Apart turns)
    (fit : h.countP Event.upvotes + given (session turns s).1 < 2147483647) :
    (∀ c, results (share c (session turns s).1) = results (share c (session turns' s).1)) ∧
    (∀ c, results (share c (session turns s).1) = results (session (share c turns) s).1) ∧
    ∀ n : UInt32, (client.request ⟨.posts, .limit n⟩ .snapshot (session turns s).2).1 =
      (client.request ⟨.posts, .limit n⟩ .snapshot (session turns' s).2).1 := by
  have tidy := reached.tidy (by omega)
  have last := (reached.upvotesMade_ascending (by omega)).count
  rw [length_upvotesMade] at last
  have played := tidy.played unbroken turns (.inl (by omega))
  have count : given (play s.hasUser turns s.slot).1 = given (session turns s).1 := by
    rw [← played.events, given_results]
  -- The other order gives as many upvotes, so there are numbers for it as well.
  have count' : given (play s.hasUser turns' s.slot).1 = given (session turns s).1 := by
    rw [← count]
    exact ((perm_of_share (apart.share_eq same _ _)).countP_eq _).symm
  have played' := tidy.played unbroken turns' (.inr (by omega))
  refine ⟨fun c => ?_, fun c => ?_, fun n => ?_⟩
  · rw [played.share_results, played'.share_results, apart.share_eq same]
  · have alone := (apart.play_share s.hasUser s.slot c).1
    have fewer : given (play s.hasUser (share c turns) s.slot).1 ≤ given (session turns s).1 := by
      rw [← alone, ← count]
      exact List.filter_sublist.countP_le
    rw [played.share_results, alone, (tidy.played unbroken _ (.inr (by omega))).events]
  · have slots := played.slots.trans (apart.slots_eq same _ _)
    have view := view_congr played.posts played'.posts (played.users.trans played'.users.symm)
      (slots.trans played'.slots.symm) n.toNat
    simp only [client, view]

def opening : List Op := [.create 1 ⟨"a", "", "x"⟩, .create 2 ⟨"b", "", "y"⟩, .upvote 1 2]

/-- Two users with a post each, of which the second has an upvote. -/
def board : List Event × Store := run opening ((empty.withUser 1 "ann").withUser 2 "bo")

/-- One client upvotes the first post and changes it, the other one upvotes the second post, once
for nobody, deletes it and upvotes it again; it also deletes a post that never was. -/
def alternating : List (Bool × Edit) :=
  [(true, .upvote 2 1), (false, .upvote 1 2), (false, .upvote 9 2), (true, .update 1 ⟨"c", "", "z"⟩),
    (false, .delete 2), (true, .upvote 1 1), (false, .upvote 1 2), (false, .delete 7)]

def consecutive : List (Bool × Edit) := share false alternating ++ share true alternating

theorem alternating_agrees :
    board.2.broken = none ∧ (∀ c, share c alternating = share c consecutive) ∧
      Apart alternating ∧
      board.1.countP Event.upvotes + given (session alternating board.2).1 < 2147483647 ∧
      (∀ c, results (share c (session alternating board.2).1) =
        results (share c (session consecutive board.2).1)) ∧
      (session alternating board.2).2.upvotes ≠ (session consecutive board.2).2.upvotes ∧
      (session alternating board.2).2.view 5 = (session consecutive board.2).2.view 5 := by
  have reached : Reached board.1 board.2 := ((Reached.start.enter 1 "ann").enter 2 "bo").run opening
  have unbroken : board.2.broken = none := rfl
  have same : ∀ c, share c alternating = share c consecutive := by decide
  have apart : Apart alternating := by
    unfold Apart
    decide
  have fit : board.1.countP Event.upvotes + given (session alternating board.2).1 < 2147483647 := by
    decide
  obtain ⟨agree, -, shown⟩ := interleavings_agree reached unbroken same apart fit
  have view := shown 5
  simp only [client, Except.ok.injEq, Reactive.Reply.snapshot.injEq] at view
  exact ⟨unbroken, same, apart, fit, agree, by decide, view⟩

end Postboard.Store
