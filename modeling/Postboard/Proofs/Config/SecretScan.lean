import Postboard.Proofs.Config.Load
import Postboard.Proofs.Json.Pointer

/-! The scan for secrets finds every text below the root that looks like one.

What it reports is the place of the first such text in depth-first order and nothing about the text
itself, so values whose secrets stand at the same places are refused in the same words.
-/

set_option autoImplicit false

namespace Postboard.Config

open Json

def SecretAt (v : Json) (p : Path) : Prop := ∃ s, v.at? p = some (.str s) ∧ looksSecret s = true

/-- A value with a secret below its root is a list or an object. -/
theorem SecretAt.notLeaf {v : Json} {p : Path} (secret : SecretAt v p) (below : p ≠ []) :
    v.isLeaf = false := by
  obtain ⟨s, reached, -⟩ := secret
  cases root : v.isLeaf with
  | false => rfl
  | true =>
    cases p with
    | nil => exact absurd rfl below
    | cons step rest => simp [at?, down?_leaf root] at reached

structure FirstSecret (v : Json) (p : Path) : Prop where
  secret : SecretAt v p
  first : ∀ q, SecretAt v q → q = p ∨ Before p q

theorem FirstSecret.unique {v : Json} {p q : Path} (here : FirstSecret v p)
    (there : FirstSecret v q) : p = q := by
  rcases here.first q there.secret with same | before
  · exact same.symm
  · rcases there.first p here.secret with same | after
    · exact same
    · exact absurd after before.asymm

/-! ### The scan over paths -/

theorem isSecretAt_pointer {v w : Json} {p : Path} (reached : v.at? p = some w) :
    isSecretAt v (pointer p) = true ↔ SecretAt v p := by
  rw [isSecretAt, resolve_pointer reached]
  cases w with
  | str s => simp [SecretAt, reached]
  | _ => simp [SecretAt, reached]

theorem SecretAt.mem {v : Json} (ordered : v.Ordered) {p : Path} (secret : SecretAt v p) :
    p ∈ leafPaths v := by
  obtain ⟨s, reached, -⟩ := secret
  exact (mem_leafPaths ordered).mpr ⟨_, reached, rfl⟩

def scan (v : Json) : Option Path := (leafPaths v).find? fun p => isSecretAt v (pointer p)

theorem secretPointer?_eq {v : Json} (root : v.isLeaf = false) :
    secretPointer? v = (scan v).map pointer := by
  rw [secretPointer?, leaves_eq root, List.find?_map]
  rfl

theorem isSecretAt_leaf {v : Json} (ordered : v.Ordered) {p : Path} (member : p ∈ leafPaths v) :
    isSecretAt v (pointer p) = true ↔ SecretAt v p := by
  obtain ⟨w, reached, -⟩ := (mem_leafPaths ordered).mp member
  exact isSecretAt_pointer reached

theorem scan_eq_none {v : Json} (ordered : v.Ordered) :
    scan v = none ↔ ∀ p, ¬ SecretAt v p := by
  rw [scan, List.find?_eq_none]
  constructor
  · intro clear p secret
    have member := secret.mem ordered
    exact clear p member ((isSecretAt_leaf ordered member).mpr secret)
  · intro clear p member found
    exact clear p ((isSecretAt_leaf ordered member).mp found)

theorem scan_first {v : Json} (ordered : v.Ordered) {p : Path} (found : scan v = some p) :
    FirstSecret v p := by
  obtain ⟨here, earlier, later, paths, clear⟩ := List.find?_eq_some_iff_append.mp found
  have walk := leafPaths_before ordered
  have member : p ∈ leafPaths v := by
    rw [paths]
    exact List.mem_append_right _ List.mem_cons_self
  refine ⟨(isSecretAt_leaf ordered member).mp here, fun q secret => ?_⟩
  have there := secret.mem ordered
  -- The scan has seen everything that the walk comes to before `p`, and found no secret there.
  have seen := (isSecretAt_leaf ordered there).mpr secret
  rw [paths] at walk there
  rcases List.mem_append.mp there with before | after
  · have unseen := clear q before
    rw [seen] at unseen
    cases unseen
  · rcases List.mem_cons.mp after with same | after
    · exact .inl same
    · exact .inr ((List.pairwise_cons.mp (List.pairwise_append.mp walk).2.1).1 q after)

theorem scan_eq_some {v : Json} (ordered : v.Ordered) {p : Path} :
    scan v = some p ↔ FirstSecret v p := by
  constructor
  · exact scan_first ordered
  · intro first
    cases found : scan v with
    | none => exact absurd first.secret ((scan_eq_none ordered).mp found p)
    | some q => rw [(scan_first ordered found).unique first]

/-- Values whose secrets stand at the same places are scanned alike. -/
theorem scan_congr {v w : Json} (ordered : v.Ordered) (ordered' : w.Ordered)
    (same : ∀ p, SecretAt v p ↔ SecretAt w p) : scan v = scan w := by
  cases found : scan v with
  | none =>
    have clear := (scan_eq_none ordered).mp found
    exact ((scan_eq_none ordered').mpr fun p secret => clear p ((same p).mpr secret)).symm
  | some p =>
    obtain ⟨secret, first⟩ := scan_first ordered found
    have first' : FirstSecret w p :=
      ⟨(same p).mp secret, fun q there => first q ((same q).mpr there)⟩
    exact ((scan_eq_some ordered').mpr first').symm

/-! ### Refusals -/

theorem refuseSecrets_eq {v : Json} (root : v.isLeaf = false) :
    refuseSecrets v = match scan v with
      | some p => .error (.secret (String.ofList (pointer p)))
      | none => .ok () := by
  rw [refuseSecrets, secretPointer?_eq root]
  cases scan v <;> rfl

theorem refuseSecrets_eq_ok {v : Json} (ordered : v.Ordered) (root : v.isLeaf = false) :
    refuseSecrets v = .ok () ↔ ∀ p, ¬ SecretAt v p := by
  rw [refuseSecrets_eq root, ← scan_eq_none ordered]
  cases scan v <;> simp

/-- What the scan of a list or an object does. -/
structure Scanned (v : Json) : Prop where
  refused : (∃ e, refuseSecrets v = .error e) ↔ ∃ p, SecretAt v p
  -- The failure names the first place of such a text by a pointer that resolves to the text.
  named : ∀ e, refuseSecrets v = .error e → ∃ p s, FirstSecret v p ∧ v.at? p = some (.str s) ∧
    looksSecret s = true ∧ Pointer.resolve v (pointer p) = some (.str s) ∧
    e.message = "CONFIG_SECRET_DETECTED leaf=" ++ String.ofList (pointer p) ++ " value=REDACTED"
  collected : ∀ ptr, ptr ∈ Pointer.leaves v ↔
    ∃ p w, v.at? p = some w ∧ w.isLeaf = true ∧ pointer p = ptr
  resolved : ∀ p w, v.at? p = some w → w.isLeaf = true → Pointer.resolve v (pointer p) = some w
  apart : ∀ p q w w', v.at? p = some w → v.at? q = some w' → pointer p = pointer q → p = q
  once : (Pointer.leaves v).Nodup

theorem scanned {v : Json} (ordered : v.Ordered) (root : v.isLeaf = false) : Scanned v where
  refused := by
    rw [refuseSecrets_eq root]
    cases found : scan v with
    | none =>
      have clear := (scan_eq_none ordered).mp found
      constructor
      · rintro ⟨e, failed⟩
        cases failed
      · rintro ⟨p, secret⟩
        exact absurd secret (clear p)
    | some p =>
      exact ⟨fun _ => ⟨p, (scan_first ordered found).secret⟩, fun _ => ⟨_, rfl⟩⟩
  named := by
    intro e failed
    rw [refuseSecrets_eq root] at failed
    cases found : scan v with
    | none =>
      rw [found] at failed
      cases failed
    | some p =>
      rw [found] at failed
      have first := scan_first ordered found
      obtain ⟨s, reached, looks⟩ := first.secret
      obtain rfl := Except.error.inj failed
      exact ⟨p, s, first, reached, looks, resolve_pointer reached, rfl⟩
  collected := by
    intro ptr
    rw [leaves_eq root, List.mem_map]
    constructor
    · rintro ⟨p, member, rfl⟩
      obtain ⟨w, reached, leaf⟩ := (mem_leafPaths ordered).mp member
      exact ⟨p, w, reached, leaf, rfl⟩
    · rintro ⟨p, w, reached, leaf, rfl⟩
      exact ⟨p, (mem_leafPaths ordered).mpr ⟨w, reached, leaf⟩, rfl⟩
  resolved := fun p w reached _ => resolve_pointer reached
  apart := fun p q w w' reached reached' same => pointer_inj reached reached' same
  once := by
    rw [leaves_eq root]
    refine List.pairwise_map.mpr ((leafPaths_before ordered).imp_of_mem ?_)
    intro p q here there before same
    obtain ⟨w, reached, -⟩ := (mem_leafPaths ordered).mp here
    obtain ⟨w', reached', -⟩ := (mem_leafPaths ordered).mp there
    obtain rfl := pointer_inj reached reached' same
    exact before.asymm before

/-! ### Settings that load -/

/-- What is not refused has no secret below the root. -/
theorem not_secretAt {v : Json} (ordered : v.Ordered) (clear : refuseSecrets v = .ok ()) {p : Path}
    (below : p ≠ []) : ¬ SecretAt v p := by
  intro secret
  exact (refuseSecrets_eq_ok ordered (secret.notLeaf below)).mp clear p secret

/-- A list or an object is scanned as `Scanned` says, and in words that depend only on where its
secrets stand. Settings that load, from texts or by the environment, have no secret below the
root. -/
theorem secrets_refused :
    (∀ v : Json, v.Ordered → v.isLeaf = false → Scanned v) ∧
    (∀ v w : Json, v.Ordered → w.Ordered → v.isLeaf = false → w.isLeaf = false →
      (∀ p, SecretAt v p ↔ SecretAt w p) → refuseSecrets v = refuseSecrets w) ∧
    (∀ texts loaded, loadTexts texts = .ok loaded →
      ∀ p s, p ≠ [] → loaded.source.at? p = some (.str s) → looksSecret s = false) ∧
    ∀ files lookup loaded, loadFromEnvironment files lookup = .ok loaded →
      ∀ p s, p ≠ [] → loaded.source.at? p = some (.str s) → looksSecret s = false := by
  have loads : ∀ texts loaded, loadTexts texts = .ok loaded →
      ∀ p s, p ≠ [] → loaded.source.at? p = some (.str s) → looksSecret s = false := by
    intro texts loaded made p s below reached
    obtain ⟨ordered, clear⟩ := loadTexts_eq_ok made
    exact eq_false_of_ne_true fun looks => not_secretAt ordered clear below ⟨s, reached, looks⟩
  refine ⟨fun v ordered root => scanned ordered root, ?_, loads, ?_⟩
  · intro v w ordered ordered' root root' same
    rw [refuseSecrets_eq root, refuseSecrets_eq root', scan_congr ordered ordered' same]
  · intro files lookup loaded made
    obtain ⟨texts, loaded', here, source⟩ := loadFromEnvironment_eq_ok made
    rw [source]
    exact loads texts loaded' here

/-- A secret below an empty key, a key with a slash and one that is itself an escape. -/
def awkward : Json :=
  .obj [("", .obj [("a/b", .obj [("~1", .arr [.str "plain", .str " sk-12345678 "])])])]

theorem awkward_refused :
    awkward.Ordered ∧ awkward.isLeaf = false ∧ Scanned awkward ∧
      ∃ e, refuseSecrets awkward = .error e ∧
        e.message = "CONFIG_SECRET_DETECTED leaf=//a~1b/~01/1 value=REDACTED" := by
  have ordered : awkward.Ordered := by
    simp [awkward, Ordered, OrderedMembers, OrderedItems, Assoc.Sorted]
  exact ⟨ordered, rfl, secrets_refused.1 awkward ordered rfl, _, rfl, by decide⟩

end Postboard.Config
