import Postboard.Proofs.Http.Form
import Postboard.Proofs.Post.Draft
import Postboard.Proofs.Service.OverStore
import Postboard.Proofs.Store.Integrity
import Postboard.Proofs.Store.Printed
import Postboard.Proofs.Text.Numeral

/-! A post from the request that makes it to the listing that shows it.

Whatever characters its texts hold, a post that was sent as JSON stands in the next listing with the
same texts, as one more object behind those that were listed before.
-/

set_option autoImplicit false

namespace Postboard.Service

open Http Text

/-! ### A limit that is written in the query -/

structure Lists (r : Http.Request) (limit : Nat) : Prop where
  path : r.target.path = postsPath
  query : r.target.query = some (Utf8.bytes ("limit=" ++ Decimal.ofNat limit))
  method : r.method = .get
  accept : r.values "accept" = []

theorem clear_digits (n : Nat) : ∀ c ∈ Decimal.digits n, Clear c := by
  intro c member
  have bounds := (Decimal.isDigits_digits n).bounds member
  refine ⟨by omega, ?_⟩
  simp only [List.mem_cons, List.not_mem_nil, or_false]
  rintro (rfl | rfl | rfl | rfl)
  all_goals exact absurd bounds (by decide)

theorem namesLimits_written (limit : Nat) :
    NamesLimits (Utf8.bytes ("limit=" ++ Decimal.ofNat limit)) [Decimal.ofNat limit] := by
  have name : ∀ c ∈ ['l', 'i', 'm', 'i', 't'], Clear c := by
    simp [Clear]
  have chars : ("limit=" ++ Decimal.ofNat limit).toList =
      ['l', 'i', 'm', 'i', 't'] ++ '=' :: Decimal.digits limit := by
    simp [Decimal.ofNat]
  have pairs := writesPairs_clear name (clear_digits limit)
  rw [← chars] at pairs
  exact ⟨_, pairs, rfl⟩

theorem Lists.asksFor {r : Http.Request} {limit : Nat} (lists : Lists r limit) {c : Config}
    (positive : 1 ≤ limit) (within : limit ≤ c.posts.maxLimit.toNat) :
    ∃ n : UInt32, n.toNat = limit ∧ AsksFor c r n := by
  have most := c.posts.maxLimit.toNat_lt
  have size : (UInt32.ofNat limit).toNat = limit :=
    UInt32.toNat_ofNat_of_lt' (Nat.lt_of_le_of_lt within most)
  refine ⟨_, size, ?_⟩
  exact {
    named := by
      refine .inr ⟨Decimal.ofNat limit, ?_, ?_⟩
      · rw [queryOf, lists.query]
        exact namesLimits_written limit
      · rw [Decimal.ofNat, String.toList_ofList, size]
        exact Decimal.padded_digits limit
    positive := by omega
    within := by omega }

/-! ### A post as JSON -/

structure Sends (r : Http.Request) (draft : Post.Draft) : Prop where
  path : r.target.path = postsPath
  method : r.method = .post
  type : r.values "content-type" = [Utf8.bytes "application/json"]
  body : Post.Writes draft r.body
  size : r.body.length ≤ maxBody

theorem Sends.accepted {r : Http.Request} {draft : Post.Draft} (sends : Sends r draft) :
    Accepted r (.create draft) := by
  refine .create sends.path sends.method ?_
  have json : hasJson r = true := by
    rw [hasJson, sends.type]
    decide
  have small : ¬ maxBody < r.body.length := Nat.not_lt.mpr sends.size
  simp only [draftOf, json, small, Post.read_writes sends.body]
  rfl

/-! ### From the one to the other -/

variable {h : List Store.Event} {s : Store} {c : Config}

theorem respond_lists {r : Http.Request} {limit : Nat} (lists : Lists r limit)
    (sound : Store.Sound s) (positive : 1 ≤ limit) (within : limit ≤ c.posts.maxLimit.toNat)
    (room : s.posts.length ≤ limit) (user : Int32) :
    ∃ text, (overStore user c).respond r s = (some (.json 200 text), s) ∧
      Json.parse (Utf8.bytes text) = .ok (.arr (s.ranking.map s.shown)) := by
  obtain ⟨n, size, asked⟩ := lists.asksFor positive within
  have snapshot : Accept.mode (r.values "accept") = .snapshot := by
    rw [lists.accept]
    rfl
  have shown : shownTo r = id := by
    funext response
    simp [shownTo, lists.method]
  refine ⟨(s.view n.toNat).flat.text, ?_, sound.parse_view (by omega)⟩
  rw [respond_read _ r s ⟨lists.path, .inl lists.method⟩,
    readPosts_snapshot user c r s asked snapshot, shown]
  rfl

theorem respond_sends {r : Http.Request} {draft : Post.Draft} (sends : Sends r draft)
    (unbroken : s.broken = none) {user : Int32} (known : s.hasUser user = true) :
    (overStore user c).respond r s = (some done,
      { s with
        posts := Assoc.insert (s.lastPost + 1) ⟨draft, user⟩ s.posts
        lastPost := s.lastPost + 1 }) := by
  rw [(overStore user c).respond_accepted r s sends.accepted]
  rcases Store.create_cases user draft s with ⟨-, -, made⟩ | ⟨broken | unknown, -⟩
  · simp only [Mutation.run, overStore, ofConfig, Store.gateway, made]
    rfl
  · simp [unbroken] at broken
  · simp [known] at unknown

/-- What an exchange of a new post between two listings shows: the answers, and the listing before
and after. The new post is the last one, under a number that no post had before. -/
structure Shows (service : Service Store Store.Error) (h : List Store.Event) (s : Store)
    (send list : Http.Request) (draft : Post.Draft) (name : String) : Prop where
  done : (service.respond send s).1 = some (.text 200 "ok")
  listed : ∃ before after rows id,
    service.respond list s = (some (.json 200 before), s) ∧
    service.respond list (service.respond send s).2 =
      (some (.json 200 after), (service.respond send s).2) ∧
    Json.parse (Utf8.bytes before) = .ok (.arr rows) ∧
    Json.parse (Utf8.bytes after) = .ok (.arr (rows ++ [.obj
      [("author", .str name), ("body", .str draft.body), ("id", .int id.toInt),
        ("title", .str draft.title), ("upvotes", .nat 0), ("url", .str draft.url)]])) ∧
    id ∉ Store.postsMade h

/-- A post that a user sends is done, and the next listing shows it with the texts that were sent,
whatever characters they hold. -/
theorem sent_post_shows (reached : Store.Reached h s)
    (fit : h.countP Store.Event.creates < 2147483647) (unbroken : s.broken = none) {user : Int32}
    {name : String} (known : Assoc.find? user s.users = some name) {send list : Http.Request}
    {draft : Post.Draft} (sends : Sends send draft) {limit : Nat} (lists : Lists list limit)
    (room : s.posts.length + 1 ≤ limit) (within : limit ≤ c.posts.maxLimit.toNat) :
    Shows (overStore user c) h s send list draft name := by
  have sound := reached.sound fit
  have ascending := reached.postsMade_ascending fit
  have size : (Store.postsMade h).length < 2147483647 := by rwa [Store.length_postsMade]
  have next : s.lastPost.toInt < 2147483647 := by
    rw [ascending.count]
    omega
  have acting : s.hasUser user = true := by
    rw [Store.hasUser, Assoc.contains, known]
    rfl
  have sent := respond_sends (c := c) sends unbroken acting
  have sound' := sound.created next user draft
  have ranking := sound.ranking_created next user draft
  have longer : (Assoc.insert (s.lastPost + 1) (⟨draft, user⟩ : Store.Stored) s.posts).length ≤
      limit := by
    rw [Assoc.insert_above (sound.post_above next)]
    simpa using room
  obtain ⟨before, answer, rows⟩ := respond_lists lists sound (by omega) within (by omega) user
  obtain ⟨after, answer', rows'⟩ := respond_lists lists sound' (by omega) within longer user
  refine ⟨by rw [sent]; rfl, before, after, s.ranking.map s.shown, s.lastPost + 1, answer, ?_, rows, ?_,
    ascending.notMem_next size⟩
  · rw [sent]
    exact answer'
  · -- The other rows are shown as before: users and upvotes have not changed.
    rw [rows', ranking, List.map_append, List.map_singleton]
    simp only [Store.shown, known]
    rfl

/-- Texts with what JSON escapes and with characters beyond the first plane. -/
def awkward : Post.Draft := ⟨"\"a\\b\"\n", "", "\x01\t😀é"⟩

def awkwardSent : Http.Request where
  method := .post
  target := ⟨postsPath, none⟩
  headers := [("content-type", Utf8.bytes "application/json")]
  body := (Json.obj (Post.texts [("body", awkward.body), ("title", awkward.title)])).bytes

def firstTen : Http.Request where
  method := .get
  target := ⟨postsPath, some (Utf8.bytes ("limit=" ++ Decimal.ofNat 10))⟩
  headers := []
  body := []

theorem awkward_post_shows :
    Sends awkwardSent awkward ∧ Lists firstTen 10 ∧
      Shows (overStore 1 .standard) (Store.run Store.turnover (Store.empty.withUser 1 "ann")).1
        (Store.run Store.turnover (Store.empty.withUser 1 "ann")).2 awkwardSent firstTen awkward
        "ann" := by
  have sends : Sends awkwardSent awkward := {
    path := rfl
    method := rfl
    type := rfl
    body := .short rfl (List.Perm.swap ..) rfl
    size := by decide +kernel }
  have lists : Lists firstTen 10 := ⟨rfl, rfl, rfl, rfl⟩
  have reached := (Store.Reached.start.enter 1 "ann").run Store.turnover
  exact ⟨sends, lists, sent_post_shows reached (by decide) rfl rfl sends lists (by decide)
    (by decide)⟩

end Postboard.Service
