import Postboard.Proofs.Query.Forms
import Postboard.Proofs.Text.Split
import Postboard.Reactive.Remote

/-! What the requests to a remote backend tell about the read that they are made for.

The address tells the mode and the body tells the limit, so two reads send one request just when they
ask for the same rows in the same mode.
-/

set_option autoImplicit false

namespace Postboard.Reactive.Remote

open Text

/-! ### Addresses -/

theorem dropWhileEnd_all {p : Char → Bool} {back : List Char} (all : ∀ c ∈ back, p c = true)
    (cs : List Char) : dropWhileEnd p (cs ++ back) = dropWhileEnd p cs := by
  rw [dropWhileEnd, dropWhileEnd, List.reverse_append, List.dropWhile_append_of_pos]
  exact fun c member => all c (List.mem_reverse.mp member)

/-- Slashes at the end of the base do not count. -/
theorem endpoint_slashes (r : Remote) (n : Nat) (d : Query.Descriptor) (mode : Mode) :
    endpoint { r with base := r.base ++ String.ofList (List.replicate n '/') } d mode =
      r.endpoint d mode := by
  have slashes : ∀ c ∈ List.replicate n '/', decide (c = '/') = true :=
    fun c member => decide_eq_true (List.eq_of_mem_replicate member)
  simp only [endpoint, String.toList_append, String.toList_ofList, dropWhileEnd_all slashes]

theorem segments_endpoint (r : Remote) (d : Query.Descriptor) (mode : Mode) :
    (r.endpoint d mode).toList.splitOn '/' =
      (dropWhileEnd (· = '/') r.base.toList).splitOn '/' ++
        [mode.endpoint.toList, d.view.name.toList] := by
  obtain ⟨⟨⟩, p⟩ := d
  have chars : (r.endpoint ⟨.posts, p⟩ mode).toList = dropWhileEnd (· = '/') r.base.toList ++
      '/' :: (mode.endpoint.toList ++ '/' :: "posts".toList) := by
    simp [endpoint, Query.View.name]
  have tail : (mode.endpoint.toList ++ '/' :: "posts".toList).splitOn '/' =
      [mode.endpoint.toList, "posts".toList] := by
    cases mode <;> decide
  rw [chars, List.splitOn_append_cons_self, tail]
  rfl

theorem endpoint_inj {r : Remote} {d d' : Query.Descriptor} {mode mode' : Mode} :
    r.endpoint d mode = r.endpoint d' mode' ↔ mode = mode' := by
  constructor
  · intro same
    have segments := congrArg (fun s => s.toList.splitOn '/') same
    simp only [segments_endpoint, List.append_cancel_left_eq, List.cons.injEq] at segments
    have segment := segments.1
    cases mode <;> cases mode'
    · rfl
    · exact absurd segment (by decide)
    · exact absurd segment (by decide)
    · rfl
  · rintro rfl
    obtain ⟨⟨⟩, p⟩ := d
    obtain ⟨⟨⟩, p'⟩ := d'
    rfl

/-! ### Requests -/

/-- What the requests for a view with a limit look like, and who reads their body back. -/
structure Bears (limit : Int) (d : Query.Descriptor) : Prop where
  -- The two modes differ in one segment of the address, and in nothing else.
  segments : ∀ r : Remote, ∃ front : List (List Char),
    (r.requestFor d .snapshot).url.toList.splitOn '/' =
      front ++ ["snapshot".toList, "posts".toList] ∧
    (r.requestFor d .stream).url.toList.splitOn '/' = front ++ ["streams".toList, "posts".toList]
  oneBody : ∀ r : Remote, (r.requestFor d .snapshot).body = (r.requestFor d .stream).body
  slashes : ∀ (r : Remote) (n : Nat) (mode : Mode),
    requestFor { r with base := r.base ++ String.ofList (List.replicate n '/') } d mode =
      r.requestFor d mode
  body : ∀ (r : Remote) (mode : Mode), (r.requestFor d mode).body = d.param.json.text
  decimal : ∃ n : Nat, limit = n ∧ Decimal.Spells d.param.json.text.toList n
  serialized : d.json.text = "\x7b\"name\":\"posts\",\"param\":" ++ d.param.json.text ++ "\x7d"
  param : Query.Param.parse (Utf8.bytes d.param.json.text) = .ok d.param
  raw : ∀ ceiling : UInt32, limit ≤ ceiling.toNat →
    Query.Descriptor.postsFromRaw d.param.json.text ceiling = .ok d

/-- What two requests to one backend tell about the limits and modes that they are made for. -/
structure Told (limit limit' : Int) (d d' : Query.Descriptor) : Prop where
  url : ∀ (r : Remote) (mode mode' : Mode),
    (r.requestFor d mode).url = (r.requestFor d' mode').url ↔ mode = mode'
  body : ∀ (r : Remote) (mode mode' : Mode),
    (r.requestFor d mode).body = (r.requestFor d' mode').body ↔ limit = limit'
  request : ∀ (r : Remote) (mode mode' : Mode),
    r.requestFor d mode = r.requestFor d' mode' ↔ limit = limit' ∧ mode = mode'

variable {limit limit' : Int} {max max' : UInt32} {d d' : Query.Descriptor}

theorem bears (made : Query.Descriptor.postsBounded limit max = .ok d) : Bears limit d := by
  obtain ⟨n, rfl, positive, -, rfl⟩ := Query.Descriptor.postsBounded_eq_ok.mp made
  exact {
    segments := fun r => ⟨_, segments_endpoint r _ _, segments_endpoint r _ _⟩
    oneBody := fun r => rfl
    slashes := by
      intro r n mode
      simp only [requestFor, endpoint_slashes]
    body := fun r mode => rfl
    decimal := by
      refine ⟨_, rfl, ?_⟩
      rw [Query.Param.text_limit, String.toList_ofList]
      exact Decimal.spells_digits _
    serialized := Query.Descriptor.text_json _
    param := Query.Param.parse_text _
    raw := fun ceiling within =>
      Query.Descriptor.postsFromRaw_text positive (Int.ofNat_le.mp within) }

theorem body_inj (made : Query.Descriptor.postsBounded limit max = .ok d)
    (made' : Query.Descriptor.postsBounded limit' max' = .ok d') :
    d.param.json.text = d'.param.json.text ↔ limit = limit' := by
  obtain ⟨n, rfl, -, -, rfl⟩ := Query.Descriptor.postsBounded_eq_ok.mp made
  obtain ⟨n', rfl, -, -, rfl⟩ := Query.Descriptor.postsBounded_eq_ok.mp made'
  rw [Query.Param.text_limit, Query.Param.text_limit]
  constructor
  · intro same
    rw [Decimal.digits_inj (String.ofList_injective same)]
  · intro same
    rw [Int.ofNat.inj same]

theorem told (made : Query.Descriptor.postsBounded limit max = .ok d)
    (made' : Query.Descriptor.postsBounded limit' max' = .ok d') : Told limit limit' d d' where
  url r mode mode' := endpoint_inj
  body r mode mode' := body_inj made made'
  request := by
    intro r mode mode'
    simp only [requestFor, Request.mk.injEq, true_and, endpoint_inj, body_inj made made', and_comm]

/-- Two reads of the posts send one request when they have the same limit and mode, and only then. The
body that they send is the limit as every other form shows it, and no two descriptors are displayed or
written as JSON in the same way. -/
theorem requests_tell_reads (made : Query.Descriptor.postsBounded limit max = .ok d)
    (made' : Query.Descriptor.postsBounded limit' max' = .ok d') :
    Told limit limit' d d' ∧ Bears limit d ∧ Function.Injective Query.Descriptor.display ∧
      Function.Injective fun d : Query.Descriptor => d.json.text :=
  ⟨told made made', bears made, Query.Descriptor.display_injective,
    Query.Descriptor.text_json_injective⟩

/-- The greatest limit that there is, and one that is made under another ceiling. -/
theorem greatest_request_told :
    Query.Descriptor.postsBounded 4294967295 4294967295 = .ok ⟨.posts, .limit 4294967295⟩ ∧
      Query.Descriptor.postsBounded 429496729 429496730 = .ok ⟨.posts, .limit 429496729⟩ ∧
      Told 4294967295 429496729 ⟨.posts, .limit 4294967295⟩ ⟨.posts, .limit 429496729⟩ ∧
      Bears 4294967295 ⟨.posts, .limit 4294967295⟩ := by
  have made : Query.Descriptor.postsBounded 4294967295 4294967295 =
      .ok ⟨.posts, .limit 4294967295⟩ := by decide
  have made' : Query.Descriptor.postsBounded 429496729 429496730 =
      .ok ⟨.posts, .limit 429496729⟩ := by decide
  obtain ⟨told, bears, -, -⟩ := requests_tell_reads made made'
  exact ⟨made, made', told, bears⟩

end Postboard.Reactive.Remote
