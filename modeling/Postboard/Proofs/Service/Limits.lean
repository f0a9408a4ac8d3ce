import Postboard.Proofs.Config.Check
import Postboard.Proofs.Http.Form
import Postboard.Proofs.Query.RawLimit
import Postboard.Proofs.Service.Exchange

/-! The limit that a read of the posts asks for, and what a service does with it. -/

set_option autoImplicit false

namespace Postboard.Service

open Http Text Reactive

variable {σ ε : Type}

def queryOf (r : Http.Request) : List UInt8 := r.target.query.getD []

def limitsNamed (query : List UInt8) : List String :=
  ((formPairs query).filter fun p => p.1 = "limit").map Prod.snd

/-- A query writes these values for `limit`, in order. -/
def NamesLimits (query : List UInt8) (values : List String) : Prop :=
  ∃ pairs, WritesPairs query pairs ∧ values = (pairs.filter fun p => p.1 = "limit").map Prod.snd

theorem namesLimits_iff {query : List UInt8} {values : List String} :
    NamesLimits query values ↔ limitsNamed query = values := by
  constructor
  · rintro ⟨pairs, written, rfl⟩
    rw [limitsNamed, writesPairs_iff.mp written]
  · rintro rfl
    exact ⟨_, writesPairs_iff.mpr rfl, rfl⟩

/-- The limit of a request: the only one that its query names, a decimal number with blanks around
it, or the default when it names none. It lies between one and the ceiling. -/
structure AsksFor (c : Config) (r : Http.Request) (n : UInt32) : Prop where
  named : NamesLimits (queryOf r) [] ∧ n = c.posts.defaultLimit ∨
    ∃ raw, NamesLimits (queryOf r) [raw] ∧ Decimal.Padded raw.toList n.toNat
  positive : 1 ≤ n.toNat
  within : n.toNat ≤ c.posts.maxLimit.toNat

theorem limitOf_eq (query : List UInt8) :
    limitOf query = match limitsNamed query with
      | [] => .ok none
      | [raw] => .ok (some raw)
      | _ => .error (.invalidParameter .posts
          ("Failed to deserialize query string: " ++ (Json.Misfit.duplicate "limit").message)) := by
  unfold limitOf limitsNamed
  cases (formPairs query).filter fun p => p.1 = "limit" with
  | nil => rfl
  | cons first rest => cases rest <;> rfl

structure ReadsPosts (c : Config) (r : Http.Request) (m : Mode) (n : UInt32) : Prop where
  read : IsRead r
  asked : AsksFor c r n
  mode : Accept.mode (r.values "accept") = m

section Configured

variable (client : Client σ) (g : Post.Gateway σ ε) (user : Int32) (c : Config)

theorem descriptorOf_eq_ok {r : Http.Request} {d : Query.Descriptor} :
    (ofConfig client g user c).descriptorOf (queryOf r) = .ok d ↔
      ∃ n, AsksFor c r n ∧ d = ⟨.posts, .limit n⟩ := by
  unfold descriptorOf
  rw [limitOf_eq]
  -- The cases are those of the query: no name, one, or too many.
  cases names : limitsNamed (queryOf r) with
  | nil =>
    simp only [ofConfig, Query.Descriptor.postsBounded_eq_ok]
    constructor
    · rintro ⟨n, same, positive, within, made⟩
      have default : n = c.posts.defaultLimit := UInt32.toNat_inj.mp (by omega)
      exact ⟨n, ⟨.inl ⟨namesLimits_iff.mpr names, default⟩, positive, within⟩, made⟩
    · rintro ⟨n, ⟨named, positive, within⟩, made⟩
      rcases named with ⟨-, same⟩ | ⟨raw, other, -⟩
      · exact ⟨n, by rw [same], positive, within, made⟩
      · simp [namesLimits_iff.mp other] at names
  | cons raw rest =>
    cases rest with
    | nil =>
      simp only [ofConfig, Query.Descriptor.postsFromRaw_limits]
      constructor
      · rintro ⟨n, ⟨padded, positive, within⟩, made⟩
        exact ⟨n, ⟨.inr ⟨raw, namesLimits_iff.mpr names, padded⟩, positive, within⟩, made⟩
      · rintro ⟨n, ⟨named, positive, within⟩, made⟩
        rcases named with ⟨none, -⟩ | ⟨raw', one, padded⟩
        · simp [namesLimits_iff.mp none] at names
        · obtain rfl : raw' = raw := by simpa [namesLimits_iff.mp one] using names
          exact ⟨n, ⟨padded, positive, within⟩, made⟩
    | cons second rest =>
      simp only [reduceCtorEq, false_iff, not_exists]
      rintro n ⟨⟨⟨none, -⟩ | ⟨raw', one, -⟩, -, -⟩, -⟩
      · simp [namesLimits_iff.mp none] at names
      · simp [namesLimits_iff.mp one] at names

theorem descriptorOf_eq_error {query : List UInt8} {e : Query.Error}
    (failed : (ofConfig client g user c).descriptorOf query = .error e) :
    ∃ reason, e = .invalidParameter .posts reason := by
  unfold descriptorOf at failed
  rw [limitOf_eq] at failed
  split at failed
  next duplicate =>
    split at duplicate
    · cases duplicate
    · cases duplicate
    · cases duplicate
      exact ⟨_, (Except.error.inj failed).symm⟩
  · exact Query.Descriptor.postsFromRaw_eq_error failed
  · exact Query.Descriptor.postsBounded_eq_error failed

/-- The default limit of a checked configuration is one that a read may have. -/
theorem asksFor_default {r : Http.Request} (checked : c.check = .ok ())
    (none : NamesLimits (queryOf r) []) : AsksFor c r c.posts.defaultLimit := by
  have limits := Config.check_eq_ok.mp checked
  have nonzero : c.posts.defaultLimit.toNat ≠ 0 := fun zero =>
    limits.defaultLimit (UInt32.toNat_inj.mp zero)
  exact ⟨.inl ⟨none, rfl⟩, by omega, UInt32.le_iff_toNat_le.mp limits.withinMax⟩

/-- A read whose limit is not valid is refused with its reason and does not reach the backend. -/
theorem readPosts_refused {r : Http.Request} (state : σ) (invalid : ∀ n, ¬ AsksFor c r n) :
    ∃ reason, (ofConfig client g user c).readPosts r state =
      (some (Failure.query (.invalidParameter .posts reason)).response, state) := by
  cases made : (ofConfig client g user c).descriptorOf (queryOf r) with
  | ok d =>
    obtain ⟨n, asked, -⟩ := (descriptorOf_eq_ok client g user c).mp made
    exact absurd asked (invalid n)
  | error e =>
    obtain ⟨reason, rfl⟩ := descriptorOf_eq_error client g user c made
    refine ⟨reason, ?_⟩
    unfold queryOf at made
    simp only [readPosts, made]

def callOf (r : Http.Request) (n : UInt32) : Call :=
  ⟨Accept.mode (r.values "accept"), ⟨.posts, .limit n⟩⟩

/-- A read with a valid limit makes its call, whose reply decides. -/
theorem readPosts_asked {r : Http.Request} {n : UInt32} (state : σ) (asked : AsksFor c r n) :
    (ofConfig client g user c).readPosts r state =
      match (callOf r n).mode with
      | .stream =>
        ((ofConfig client g user c).streamResponse
            (client.openStream (callOf r n).descriptor state).1,
          (client.openStream (callOf r n).descriptor state).2)
      | .snapshot =>
        (some (snapshotResponse (client.fetchSnapshot (callOf r n).descriptor state).1),
          (client.fetchSnapshot (callOf r n).descriptor state).2) := by
  have made := (descriptorOf_eq_ok client g user c).mpr ⟨n, asked, rfl⟩
  unfold queryOf at made
  unfold callOf
  simp only [readPosts, made]
  cases Accept.mode (r.values "accept") <;> rfl

theorem respond_snapshot {r : Http.Request} {n : UInt32} (reads : ReadsPosts c r .snapshot n)
    (state : σ) :
    (ofConfig client g user c).respond r state =
      (some (shownTo r (snapshotResponse (client.fetchSnapshot ⟨.posts, .limit n⟩ state).1)),
        (client.fetchSnapshot ⟨.posts, .limit n⟩ state).2) := by
  rw [respond_read _ r state reads.read, readPosts_asked client g user c state reads.asked]
  simp only [callOf, reads.mode, Option.map_some]

theorem respond_stream {r : Http.Request} {n : UInt32} (reads : ReadsPosts c r .stream n)
    (state : σ) :
    (ofConfig client g user c).respond r state =
      (((ofConfig client g user c).streamResponse
          (client.openStream ⟨.posts, .limit n⟩ state).1).map (shownTo r),
        (client.openStream ⟨.posts, .limit n⟩ state).2) := by
  rw [respond_read _ r state reads.read, readPosts_asked client g user c state reads.asked]
  simp only [callOf, reads.mode]

end Configured

end Postboard.Service
