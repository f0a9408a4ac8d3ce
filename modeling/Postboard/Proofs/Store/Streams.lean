import Mathlib.Data.List.Nodup
import Postboard.Proofs.Reactive.Token
import Postboard.Proofs.Store.Reached
import Postboard.Proofs.Text.Decimal

/-! The streams of a store: every request for one succeeds, and no handle is given twice.

The number in a handle counts the requests for streams. Nothing else takes a number, whether the
store is broken or not, so as long as numbers are left no two handles are the same.
-/

set_option autoImplicit false

namespace Postboard.Store

open Text Reactive

variable {h : List Event} {s : Store}

/-! ### Tokens -/

theorem isToken_streamToken (view : Query.View) (n : UInt64) : IsToken (streamToken view n) := by
  have digits : (Decimal.digits n.toNat).all isUnreserved = true := by
    refine List.all_eq_true.mpr fun c member => ?_
    have digit := List.all_eq_true.mp (Decimal.isDigit_digits n.toNat) c member
    simp [isUnreserved, digit]
  cases view with
  | posts =>
    have front : "mem-posts-".toList.all isUnreserved = true := by decide
    have chars : (streamToken .posts n).toList = "mem-posts-".toList ++ Decimal.digits n.toNat := by
      simp [streamToken, Query.View.name, Decimal.ofNat]
    refine ⟨by simp [chars], fun c member => isUnreserved_iff.mp ?_⟩
    rw [chars] at member
    rcases List.mem_append.mp member with first | last
    · exact List.all_eq_true.mp front c first
    · exact List.all_eq_true.mp digits c last

theorem streamToken_inj {view : Query.View} {m n : UInt64}
    (same : streamToken view m = streamToken view n) : m = n := by
  have digits := congrArg String.toList same
  simp only [streamToken, String.toList_append, List.append_cancel_left_eq, Decimal.ofNat,
    String.toList_ofList] at digits
  exact UInt64.toNat_inj.mp (Decimal.digits_inj digits)

/-! ### One operation -/

def Event.opens : Event → Bool
  | .read _ .stream _ => true
  | _ => false

def Event.handle? : Event → Option Handle
  | .read _ .stream (.ok (.handle x)) => some x
  | _ => none

theorem Event.handle?_of_not_opens {e : Event} (other : e.opens = false) : e.handle? = none := by
  unfold handle?
  split
  · cases other
  · rfl

/-- What an operation does about streams: it is a request for one and gets the next number, or it
leaves the number as it is. -/
inductive Opening (s : Store) (e : Event) (t : Store) : Prop where
  | stream (d : Query.Descriptor) (x : Handle) :
      e = .read d .stream (.ok (.handle x)) → x.text = streamToken d.view (s.lastStream + 1) →
      t.lastStream = s.lastStream + 1 → Opening s e t
  | other : e.opens = false → t.lastStream = s.lastStream → Opening s e t

theorem step_stream (d : Query.Descriptor) (s : Store) :
    ∃ x : Handle, x.text = streamToken d.view (s.lastStream + 1) ∧
      s.step (.read d .stream) =
        (.read d .stream (.ok (.handle x)), { s with lastStream := s.lastStream + 1 }) := by
  obtain ⟨x, text⟩ := exists_handle (isToken_streamToken d.view (s.lastStream + 1))
  have read : Handle.read (streamToken d.view (s.lastStream + 1)) = .ok x := by
    rw [Handle.read, Handle.ofString_eq_ok.mpr text]
  refine ⟨x, text, ?_⟩
  simp only [step, client, read]
  rfl

/-- Nothing but a request for a stream uses up a number. -/
theorem step_other {op : Op} (other : ∀ d, op ≠ .read d .stream) (s : Store) :
    (s.step op).1.opens = false ∧ (s.step op).2.lastStream = s.lastStream := by
  cases op with
  | create author draft =>
    rcases create_cases author draft s with ⟨-, -, made⟩ | ⟨-, e, made⟩
    all_goals exact ⟨rfl, by simp only [step, made]⟩
  | update id draft =>
    rcases update_cases id draft s with ⟨-, p, -, made⟩ | ⟨-, -, made⟩ | ⟨-, e, made⟩
    all_goals exact ⟨rfl, by simp only [step, made]⟩
  | delete id =>
    rcases delete_cases id s with ⟨-, made⟩ | ⟨-, e, made⟩
    all_goals exact ⟨rfl, by simp only [step, made]⟩
  | upvote user post =>
    rcases upvote_cases user post s with ⟨-, -, -, made⟩ | ⟨-, e, made⟩
    all_goals exact ⟨rfl, by simp only [step, made]⟩
  | breakWith message => exact ⟨rfl, rfl⟩
  | read d mode =>
    cases mode with
    | snapshot => exact ⟨rfl, rfl⟩
    | stream => exact absurd rfl (other d)

theorem step_opening (s : Store) (op : Op) : Opening s (s.step op).1 (s.step op).2 := by
  by_cases stream : ∃ d, op = .read d .stream
  · obtain ⟨d, rfl⟩ := stream
    obtain ⟨x, text, made⟩ := step_stream d s
    rw [made]
    exact .stream d x rfl text rfl
  · obtain ⟨quiet, same⟩ := step_other (fun d here => stream ⟨d, here⟩) s
    exact .other quiet same

/-! ### Runs -/

def opened (h : List Event) : List Handle := h.filterMap Event.handle?

/-- What the streams of a history are when `last` is the number of the last one. -/
structure Numbered (h : List Event) (last : UInt64) : Prop where
  counted : last = UInt64.ofNat (h.countP Event.opens)
  succeeded : ∀ d reply, .read d .stream reply ∈ h → ∃ x, reply = .ok (.handle x)
  tokens : (opened h).map Handle.text =
    (List.range (h.countP Event.opens)).map fun n => streamToken .posts (UInt64.ofNat (n + 1))

theorem Numbered.opening {e : Event} {t : Store} (numbered : Numbered h s.lastStream)
    (opening : Opening s e t) : Numbered (h ++ [e]) t.lastStream := by
  have earlier := numbered.succeeded
  cases opening with
  | stream d x made text next =>
    have counted : (h ++ [e]).countP Event.opens = h.countP Event.opens + 1 := by
      simp [made, Event.opens]
    have next' : t.lastStream = UInt64.ofNat (h.countP Event.opens + 1) := by
      rw [next, numbered.counted, UInt64.ofNat_add]
      rfl
    refine ⟨by rw [counted, next'], ?_, ?_⟩
    · intro d' reply member
      rcases List.mem_append.mp member with old | new
      · exact earlier d' reply old
      · have same := (List.mem_singleton.mp new).trans made
        injection same with _ _ reply'
        exact ⟨x, reply'⟩
    · have view : d.view = .posts := by cases d.view; rfl
      rw [counted, List.range_succ, List.map_append, ← numbered.tokens, opened,
        List.filterMap_append, List.map_append]
      simp [opened, made, Event.handle?, text, view, ← next, next']
  | other quiet same =>
    have counted : (h ++ [e]).countP Event.opens = h.countP Event.opens := by
      simp [quiet]
    have none := Event.handle?_of_not_opens quiet
    refine ⟨by rw [same, counted, numbered.counted], ?_, ?_⟩
    · intro d reply member
      rcases List.mem_append.mp member with old | new
      · exact earlier d reply old
      · rw [← List.mem_singleton.mp new] at quiet
        cases quiet
    · rw [counted, ← numbered.tokens]
      simp [opened, none]

theorem Reached.numbered (reached : Reached h s) : Numbered h s.lastStream := by
  induction reached with
  | start => exact ⟨rfl, by simp, rfl⟩
  | enter id name _ ih => exact ih
  | @step h s op _ ih => exact ih.opening (step_opening s op)

theorem Numbered.length_opened {last : UInt64} (numbered : Numbered h last) :
    (opened h).length = h.countP Event.opens := by
  have length := congrArg List.length numbered.tokens
  rwa [List.length_map, List.length_map, List.length_range] at length

/-- As long as there are numbers, no two of the tokens are the same. -/
theorem Numbered.nodup_opened {last : UInt64} (numbered : Numbered h last)
    (fit : h.countP Event.opens < 2 ^ 64) : (opened h).Nodup := by
  refine .of_map Handle.text ?_
  rw [numbered.tokens]
  refine List.nodup_range.map_on ?_
  intro m below n below' same
  rw [List.mem_range] at below below'
  have size : UInt64.size = 2 ^ 64 := rfl
  have numbers := congrArg UInt64.toNat (streamToken_inj same)
  rw [UInt64.toNat_ofNat_of_lt' (by omega), UInt64.toNat_ofNat_of_lt' (by omega)] at numbers
  exact Nat.succ.inj numbers

end Postboard.Store
