import Postboard.Proofs.Text.Split
import Postboard.Service.Router

/-! Which paths lead where, said by the paths. -/

set_option autoImplicit false

namespace Postboard.Service

open Text

def postsPath : List UInt8 := Utf8.bytes "/posts"

def postPath (number : List UInt8) : List UInt8 := Utf8.bytes "/posts/" ++ number

def upvotesPath (number : List UInt8) : List UInt8 := postPath number ++ Utf8.bytes "/upvotes"

namespace Route

/-- A path with one slash before each of its pieces. -/
theorem pieces_iff {path : List UInt8} {pieces : List (List UInt8)} (some_piece : pieces ≠ []) :
    Http.splitBytes 0x2F path = [] :: pieces ↔
      (∀ p ∈ pieces, 0x2F ∉ p) ∧ path = 0x2F :: [0x2F].intercalate pieces := by
  rw [splitBytes_eq_splitOn, splitOn_eq_iff (by simp), List.intercalate_cons_of_ne_nil some_piece]
  simp

theorem slash_free :
    (0x2F : UInt8) ∉ Utf8.bytes "posts" ∧ (0x2F : UInt8) ∉ Utf8.bytes "upvotes" := by
  decide

theorem postPath_pieces (number : List UInt8) :
    postPath number = 0x2F :: [0x2F].intercalate [Utf8.bytes "posts", number] := by
  simp [postPath, List.intercalate_cons_cons]
  rfl

theorem upvotesPath_pieces (number : List UInt8) :
    upvotesPath number =
      0x2F :: [0x2F].intercalate [Utf8.bytes "posts", number, Utf8.bytes "upvotes"] := by
  simp [upvotesPath, postPath, List.intercalate_cons_cons]
  rfl

theorem ofPath_posts_iff {path : List UInt8} : ofPath path = .posts ↔ path = postsPath := by
  constructor
  · intro leads
    unfold ofPath at leads
    split at leads
    next first pieces =>
      split at leads
      next same =>
        obtain ⟨-, joined⟩ := (pieces_iff (by simp)).mp pieces
        rw [joined, same]
        rfl
      next => split at leads <;> cases leads
    all_goals (try split at leads) <;> cases leads
  · rintro rfl
    decide

theorem ofPath_post_iff {path number : List UInt8} :
    ofPath path = .post number ↔ number ≠ [] ∧ 0x2F ∉ number ∧ path = postPath number := by
  constructor
  · intro leads
    unfold ofPath at leads
    split at leads
    next => split at leads <;> (try split at leads) <;> cases leads
    next first last pieces =>
      split at leads
      next same =>
        cases leads
        obtain ⟨free, joined⟩ := (pieces_iff (by simp)).mp pieces
        simp only [Bool.and_eq_true, decide_eq_true_eq] at same
        refine ⟨same.2, free number (by simp), ?_⟩
        rw [joined, same.1, postPath_pieces]
      next => cases leads
    all_goals (try split at leads) <;> cases leads
  · rintro ⟨present, free, rfl⟩
    have pieces : Http.splitBytes 0x2F (postPath number) = [[], Utf8.bytes "posts", number] :=
      (pieces_iff (by simp)).mpr ⟨by simp [slash_free.1, free], postPath_pieces number⟩
    simp [ofPath, pieces, present]

theorem ofPath_upvotes_iff {path number : List UInt8} :
    ofPath path = .upvotes number ↔ 0x2F ∉ number ∧ path = upvotesPath number := by
  constructor
  · intro leads
    unfold ofPath at leads
    split at leads
    next => split at leads <;> (try split at leads) <;> cases leads
    next => split at leads <;> cases leads
    next first middle last pieces =>
      split at leads
      next same =>
        cases leads
        obtain ⟨free, joined⟩ := (pieces_iff (by simp)).mp pieces
        simp only [Bool.and_eq_true, decide_eq_true_eq] at same
        refine ⟨free number (by simp), ?_⟩
        rw [joined, same.1, same.2, upvotesPath_pieces]
      next => cases leads
    next => cases leads
  · rintro ⟨free, rfl⟩
    have pieces : Http.splitBytes 0x2F (upvotesPath number) =
        [[], Utf8.bytes "posts", number, Utf8.bytes "upvotes"] :=
      (pieces_iff (by simp)).mpr
        ⟨by simp [slash_free.1, slash_free.2, free], upvotesPath_pieces number⟩
    simp [ofPath, pieces]

end Route

end Postboard.Service
