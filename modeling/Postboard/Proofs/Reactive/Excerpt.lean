import Postboard.Proofs.Reactive.Remote
import Postboard.Proofs.Text.Boundary
import Postboard.Reactive.Remote.Script

/-! The part of a failed response that an error carries.

The search for a place to cut starts inside the text, goes down by three bytes at most and ends
between two characters. So what is carried is the longest beginning of whole characters that fits.
-/

set_option autoImplicit false

namespace Postboard.Reactive.Remote

open Text

variable {σ : Type}

/-- The beginning of a text that an error carries. -/
structure Excerpted (text part : List Char) : Prop where
  front : part <+: text
  fits : (Utf8.encode part).length ≤ 512
  longest : ∀ other, other <+: text → (Utf8.encode other).length ≤ 512 → other <+: part
  whole : (Utf8.encode text).length ≤ 512 → part = text
  nearly : 512 < (Utf8.encode text).length → 509 ≤ (Utf8.encode part).length
  -- A text that does not fit is cut where the search ends, which is before zero is passed and not
  -- inside a character.
  cut : 512 < (Utf8.encode text).length → ∃ pos, Utf8.boundaryFrom (Utf8.encode text) 512 = some pos ∧
    509 ≤ pos ∧ pos ≤ 512 ∧ Utf8.isBoundary (Utf8.encode text) pos = true ∧
    Utf8.truncate text pos = some part

/-- The beginning before the last boundary within some room has no longer one that fits. -/
theorem longest_before {text front back : List Char} {room : Nat} (split : text = front ++ back)
    (last : ∀ later, (Utf8.encode front).length < later → later ≤ room →
      Utf8.isBoundary (Utf8.encode text) later = false) {other : List Char}
    (begins : other <+: text) (fits : (Utf8.encode other).length ≤ room) : other <+: front := by
  obtain ⟨rest, whole⟩ := begins
  have boundary : Utf8.isBoundary (Utf8.encode text) (Utf8.encode other).length = true :=
    Utf8.isBoundary_encode.mpr ⟨other, rest, whole.symm, rfl⟩
  have within : (Utf8.encode other).length ≤ (Utf8.encode front).length := by
    by_contra beyond
    rw [last _ (Nat.lt_of_not_le beyond) fits] at boundary
    cases boundary
  -- Of two beginnings of one text the one with fewer bytes begins the other.
  rcases List.prefix_or_prefix_of_prefix ⟨rest, whole⟩ ⟨back, split.symm⟩ with begins | ⟨more, rfl⟩
  · exact begins
  · rw [Utf8.encode_append, List.length_append] at within
    have none := Utf8.length_le_encode more
    obtain rfl : more = [] := List.length_eq_zero_iff.mp (by omega)
    exact ⟨[], by simp⟩

theorem exists_excerpt (text : List Char) :
    ∃ part, excerpt text = some part ∧ Excerpted text part := by
  by_cases size : (Utf8.encode text).length ≤ 512
  · refine ⟨text, if_neg (Nat.not_lt.mpr size), ?_⟩
    exact {
      front := List.prefix_refl text
      fits := size
      longest := fun other begins _ => begins
      whole := fun _ => rfl
      nearly := fun more => absurd size (Nat.not_le.mpr more)
      cut := fun more => absurd size (Nat.not_le.mpr more) }
  · have more : 512 < (Utf8.encode text).length := Nat.lt_of_not_le size
    obtain ⟨pos, found, within, boundary, last⟩ := Utf8.exists_boundaryFrom (Utf8.encode text) 512
    obtain ⟨front, back, rfl, rfl⟩ := Utf8.isBoundary_encode.mp boundary
    have truncated := Utf8.truncate_append front back
    have nearly : 509 ≤ (Utf8.encode front).length := by
      cases back with
      | nil =>
        rw [List.append_nil] at more
        omega
      | cons c back =>
        -- The next boundary is behind the next character and does not fit.
        have next : Utf8.isBoundary (Utf8.encode (front ++ c :: back))
            (Utf8.encode (front ++ [c])).length = true :=
          Utf8.isBoundary_encode.mpr ⟨front ++ [c], back, by simp, rfl⟩
        have width : (Utf8.encode (front ++ [c])).length =
            (Utf8.encode front).length + c.utf8Size := by
          rw [Utf8.encode_append, List.length_append, Utf8.encode_cons, Utf8.encode_nil,
            List.append_nil, String.length_utf8EncodeChar]
        have positive := c.utf8Size_pos
        have most := c.utf8Size_le_four
        by_contra short
        rw [last _ (by omega) (by omega)] at next
        cases next
    refine ⟨front, ?_, ?_⟩
    · simp only [excerpt, maxErrorBody, if_pos more, found, Option.bind_some, truncated]
    · exact {
        front := List.prefix_append front back
        fits := within
        longest := fun other begins fits => longest_before rfl last begins fits
        whole := fun fits => absurd fits size
        nearly := fun _ => nearly
        cut := fun _ => ⟨_, found, nearly, within, boundary, truncated⟩ }

/-- A complete response that is no success is reported with its status and an excerpt of its text,
which is what the body encodes if it is well-formed. -/
theorem failed_response_excerpted (t : Transport σ) (r : Remote) (d : Query.Descriptor) (mode : Mode)
    (s : σ) {response : Response} (arrived : Arrives r (t.send (r.requestFor d mode) s).1 response)
    (failure : ¬ Succeeds response.status) :
    ∃ part, ((client t r).request d mode s).1 =
        .error (.backend response.status (String.ofList part)) ∧
      excerpt (Utf8.repair response.body) = some part ∧
      Excerpted (Utf8.repair response.body) part ∧
      ∀ text, response.body = Utf8.encode text → Utf8.repair response.body = text := by
  obtain ⟨part, taken, excerpted⟩ := exists_excerpt (Utf8.repair response.body)
  refine ⟨part, ?_, taken, excerpted, fun text same => same ▸ Utf8.repair_encode text⟩
  have reply : ((client t r).request d mode s).1 = interpret response mode :=
    outcome_arrived arrived _ mode
  rw [reply, interpret, if_neg (mt isSuccess_iff.mp failure), taken]
  rfl

def garbled : Script := ⟨.reply 500 (List.replicate 171 0xFF), []⟩

def near : Remote := ⟨"http://near", 1⟩

/-- The replacements are three times as long as the bytes, and the last one does not fit. -/
theorem garbled_response_excerpted :
    Arrives near (((Script.transport "near").send (near.requestFor ⟨.posts, .limit 1⟩ .snapshot)
        garbled).1) ⟨500, List.replicate 171 0xFF⟩ ∧
      ¬ Succeeds 500 ∧
      ∃ part, ((client (Script.transport "near") near).request ⟨.posts, .limit 1⟩ .snapshot
          garbled).1 = .error (.backend 500 (String.ofList part)) ∧
        Excerpted (Utf8.repair (List.replicate 171 0xFF)) part ∧
        part = List.replicate 170 (Char.ofNat 0xFFFD) := by
  have arrived : Arrives near (((Script.transport "near").send
      (near.requestFor ⟨.posts, .limit 1⟩ .snapshot) garbled).1)
      ⟨500, List.replicate 171 0xFF⟩ := ⟨0, by decide +kernel, by decide⟩
  have failure : ¬ Succeeds 500 := fun yes => absurd yes.2 (by decide)
  obtain ⟨part, reply, taken, excerpted, -⟩ := failed_response_excerpted _ near _ _ _ arrived failure
  have cut : excerpt (Utf8.repair (List.replicate 171 0xFF)) =
      some (List.replicate 170 (Char.ofNat 0xFFFD)) := by decide +kernel
  exact ⟨arrived, failure, part, reply, excerpted, Option.some.inj (taken.symm.trans cut)⟩

end Postboard.Reactive.Remote
