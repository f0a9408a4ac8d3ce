import Postboard.Proofs.Config.Check
import Postboard.Proofs.Config.Hash
import Postboard.Proofs.Text.Blank

/-! What the digest tells about settings that the environment overrides.

The digest is that of the documents. The environment is laid over them afterwards, so two processes
with one digest have the same settings but for the two addresses that an environment can give.
-/

set_option autoImplicit false

namespace Postboard.Config

open Json Text

/-! ### Overrides -/

/-- A value without the blanks at its ends, unless it is nothing else. -/
def unpadded (value : Option String) : Option String :=
  (value.filter fun s => !isBlankText s).map trimmed

/-- What a variable gives: the text between the blanks at the ends of its value, and nothing when it
is missing or all blank. -/
inductive Gives : Option String → Option String → Prop where
  | missing : Gives none none
  | blank {s : String} : (∀ c ∈ s.toList, isBlank c = true) → Gives (some s) none
  | text {s text : String} {before after : List Char} : s.toList = before ++ text.toList ++ after →
      (∀ c ∈ before, isBlank c = true) → (∀ c ∈ after, isBlank c = true) → Trimmed text.toList →
      text ≠ "" → Gives (some s) (some text)

theorem gives_unpadded (value : Option String) : Gives value (unpadded value) := by
  cases value with
  | none => exact .missing
  | some s =>
    cases blank : isBlankText s with
    | true =>
      have none : unpadded (some s) = none := by simp [unpadded, Option.filter, blank]
      rw [none]
      exact .blank (List.all_eq_true.mp blank)
    | false =>
      have kept : unpadded (some s) = some (trimmed s) := by simp [unpadded, Option.filter, blank]
      have inside : (trimmed s).toList = trim s.toList := String.toList_ofList
      obtain ⟨before, after, whole, front, back⟩ := exists_padding s.toList
      have ends := trimmed_trim s.toList
      rw [← inside] at whole ends
      rw [kept]
      refine .text whole front back ends fun empty => ?_
      -- With nothing in between, the value would be all blank.
      rw [empty, String.toList_empty, List.append_nil] at whole
      have all : isBlankText s = true := by
        rw [isBlankText, whole, List.all_append, List.all_eq_true.mpr front,
          List.all_eq_true.mpr back, Bool.and_self]
      rw [blank] at all
      cases all

theorem text?_eq (lookup : Lookup) (name : String) :
    lookup.text? name = unpadded (lookup name) := by
  unfold Lookup.text? unpadded
  cases lookup name with
  | none => rfl
  | some s => cases blank : isBlankText s <;> simp [blank, Option.filter]

theorem unpadded_eq_some {value : Option String} {text : String} :
    unpadded value = some text ↔ ∃ s, value = some s ∧ isBlankText s = false ∧ trimmed s = text := by
  simp [unpadded, Option.filter_eq_some_iff, and_assoc]

theorem override_eq (c : Config) (lookup : Lookup) :
    c.override lookup = { c with
      daemon := ⟨(unpadded (lookup addrName)).getD c.daemon.addr⟩
      reactive := { c.reactive with
        baseUrl := (unpadded (lookup reactiveUrlName)).getD c.reactive.baseUrl } } := by
  unfold override
  rw [text?_eq, text?_eq]
  cases unpadded (lookup addrName) <;> cases unpadded (lookup reactiveUrlName) <;> rfl

/-- The check looks at no setting that the environment gives. -/
theorem checked_override {c : Config} {lookup : Lookup} :
    Checked (c.override lookup) ↔ Checked c := by
  rw [override_eq]
  constructor <;>
  · rintro ⟨limit, within, reactive, statement, acquire, named, rooted⟩
    exact ⟨limit, within, reactive, statement, acquire, named, rooted⟩

/-- Settings with the overrides of two environments are the same when both addresses are. -/
theorem override_eq_override {c : Config} {lookup lookup' : Lookup} :
    c.override lookup = c.override lookup' ↔
      (unpadded (lookup addrName)).getD c.daemon.addr =
          (unpadded (lookup' addrName)).getD c.daemon.addr ∧
        (unpadded (lookup reactiveUrlName)).getD c.reactive.baseUrl =
          (unpadded (lookup' reactiveUrlName)).getD c.reactive.baseUrl := by
  simp [override_eq]

/-! ### Loading by the environment -/

theorem ofJson_source {texts : List (List Char)} {loaded : Loaded}
    (made : loadTexts texts = .ok loaded) :
    ofJson loaded.source = .ok loaded.config ∧ loaded.hash = hash loaded.source := by
  obtain ⟨vs, -, merging⟩ := loadTexts_merged made
  obtain ⟨source, -, fits, digest⟩ := ofMerged_eq_ok merging
  rw [source]
  exact ⟨fits, digest⟩

/-- The environment overrides settings that load, and the second check never fails. -/
theorem loadFromEnvironment_iff {files : Files} {lookup : Lookup} {loaded : Loaded} :
    loadFromEnvironment files lookup = .ok loaded ↔
      ∃ below, loadFiles files (lookup.text? fileName).toList = .ok below ∧
        loaded = { below with config := below.config.override lookup } := by
  unfold loadFromEnvironment
  cases read : loadFiles files (lookup.text? fileName).toList with
  | error e => simp [Except.bind]
  | ok below =>
    obtain ⟨texts, made⟩ := loadFiles_eq_ok read
    have checked := (ofJson_eq_ok.mp (ofJson_source made).1).2
    have again : (below.config.override lookup).check = .ok () :=
      check_eq_ok.mpr (checked_override.mpr checked)
    simp only [Except.bind, again, Except.ok.injEq, exists_eq_left']
    exact eq_comm

/-! ### The digest -/

theorem hash_eq_iff {v w : Json}
    (separate : Digest.Sha256.digest v.bytes = Digest.Sha256.digest w.bytes → v.bytes = w.bytes) :
    hash v = hash w ↔ v = w := by
  rw [hash, hash, Digest.Sha256.hex_eq_iff]
  exact ⟨fun same => bytes_injective (separate same), fun same => by rw [same]⟩

/-- What two processes can tell from their digests. -/
structure DigestTells (lookup lookup' : Lookup) (loaded loaded' : Loaded) : Prop where
  source : loaded.hash = loaded'.hash ↔ loaded.source = loaded'.source
  -- Both processes then run with the settings of these documents, each with its own overrides, and
  -- these settings are the same when the addresses are.
  settings : loaded.hash = loaded'.hash → ∃ c, ofJson loaded.source = .ok c ∧
    loaded.config = c.override lookup ∧ loaded'.config = c.override lookup' ∧
    (loaded.config = loaded'.config ↔
      (unpadded (lookup addrName)).getD c.daemon.addr =
        (unpadded (lookup' addrName)).getD c.daemon.addr ∧
      (unpadded (lookup reactiveUrlName)).getD c.reactive.baseUrl =
        (unpadded (lookup' reactiveUrlName)).getD c.reactive.baseUrl)
  sameAddresses : unpadded (lookup addrName) = unpadded (lookup' addrName) →
    unpadded (lookup reactiveUrlName) = unpadded (lookup' reactiveUrlName) →
    loaded.hash = loaded'.hash → loaded.config = loaded'.config

theorem digest_tells {files files' : Files} {lookup lookup' : Lookup} {loaded loaded' : Loaded}
    (made : loadFromEnvironment files lookup = .ok loaded)
    (made' : loadFromEnvironment files' lookup' = .ok loaded')
    (separate : Digest.Sha256.digest loaded.source.bytes = Digest.Sha256.digest loaded'.source.bytes →
      loaded.source.bytes = loaded'.source.bytes) :
    DigestTells lookup lookup' loaded loaded' := by
  obtain ⟨below, read, rfl⟩ := loadFromEnvironment_iff.mp made
  obtain ⟨below', read', rfl⟩ := loadFromEnvironment_iff.mp made'
  obtain ⟨texts, here⟩ := loadFiles_eq_ok read
  obtain ⟨texts', here'⟩ := loadFiles_eq_ok read'
  obtain ⟨fits, digest⟩ := ofJson_source here
  obtain ⟨fits', digest'⟩ := ofJson_source here'
  have source : below.hash = below'.hash ↔ below.source = below'.source := by
    rw [digest, digest']
    exact hash_eq_iff separate
  have shared : below.hash = below'.hash → below'.config = below.config := by
    intro same
    rw [source.mp same, fits'] at fits
    exact Except.ok.inj fits
  refine ⟨source, fun same => ?_, fun addr url same => ?_⟩
  · refine ⟨below.config, fits, rfl, ?_, ?_⟩
    · rw [shared same]
    · rw [shared same]
      exact override_eq_override
  · change below.config.override lookup = below'.config.override lookup'
    rw [shared same]
    exact override_eq_override.mpr ⟨by rw [addr], by rw [url]⟩

def addressed (addr : String) : Lookup := fun name => if name = addrName then some addr else none

def noFiles : Files := fun _ => none

theorem loads_addressed (addr : String) :
    loadFromEnvironment noFiles (addressed addr) =
      .ok ⟨standard.override (addressed addr), .obj [], hash (.obj [])⟩ :=
  loadFromEnvironment_iff.mpr ⟨⟨standard, .obj [], hash (.obj [])⟩, rfl, rfl⟩

/-- Blanks around an address make no difference. -/
theorem digest_tells_padded :
    loadFromEnvironment noFiles (addressed " [::1]:80\t") =
        .ok ⟨standard.override (addressed " [::1]:80\t"), .obj [], hash (.obj [])⟩ ∧
      loadFromEnvironment noFiles (addressed "[::1]:80") =
        .ok ⟨standard.override (addressed "[::1]:80"), .obj [], hash (.obj [])⟩ ∧
      DigestTells (addressed " [::1]:80\t") (addressed "[::1]:80")
        ⟨standard.override (addressed " [::1]:80\t"), .obj [], hash (.obj [])⟩
        ⟨standard.override (addressed "[::1]:80"), .obj [], hash (.obj [])⟩ ∧
      standard.override (addressed " [::1]:80\t") = standard.override (addressed "[::1]:80") := by
  have padded := loads_addressed " [::1]:80\t"
  have bare := loads_addressed "[::1]:80"
  have tells := digest_tells padded bare fun _ => rfl
  exact ⟨padded, bare, tells, tells.sameAddresses rfl rfl rfl⟩

/-- Two processes with one digest that listen on different addresses. -/
theorem digest_blind :
    ∃ loaded loaded', loadFromEnvironment noFiles (addressed "0.0.0.0:9000") = .ok loaded ∧
      loadFromEnvironment noFiles (addressed "  ") = .ok loaded' ∧ loaded.hash = loaded'.hash ∧
      loaded.config.daemon.addr = "0.0.0.0:9000" ∧ loaded'.config.daemon.addr = "127.0.0.1:8080" ∧
      loaded.config ≠ loaded'.config :=
  ⟨_, _, loads_addressed _, loads_addressed _, rfl, rfl, rfl, by decide⟩

end Postboard.Config
