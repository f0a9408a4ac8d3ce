import Postboard.Proofs.Config.Environment
import Postboard.Proofs.Config.Redaction
import Postboard.Proofs.Config.Relaid

/-! The overrides of an environment as one more document.

The environment changes settings that have been read. A document with the same addresses, laid over
the others, is scanned, read and checked with them, and comes to the same settings.
-/

set_option autoImplicit false

namespace Postboard.Config

open Json Text

/-! ### The document -/

def entry (part key : String) : Option String → Members
  | some text => [(part, .obj [(key, .str text)])]
  | none => []

/-- The addresses that an environment gives, where settings have them. Nothing stands for a variable
that is missing or blank. -/
def environmentLayer (lookup : Lookup) : Json :=
  .obj (entry "daemon" "addr" (unpadded (lookup addrName)) ++
    entry "reactive" "base_url" (unpadded (lookup reactiveUrlName)))

theorem mem_entry {part key : String} {found : Option String} {e : String × Json} :
    e ∈ entry part key found ↔ ∃ text, found = some text ∧ e = (part, .obj [(key, .str text)]) := by
  cases found <;> simp [entry]

theorem ordered_environmentLayer (lookup : Lookup) : (environmentLayer lookup).Ordered := by
  refine ordered_obj.mpr ⟨?_, fun e member => ?_⟩
  · rw [Assoc.sorted_keys]
    cases unpadded (lookup addrName) <;> cases unpadded (lookup reactiveUrlName) <;>
    · simp only [entry, List.map_append, List.map_cons, List.map_nil]
      decide
  · have inside {key text : String} : (Json.obj [(key, .str text)]).Ordered :=
      ordered_obj.mpr ⟨by simp [Assoc.Sorted], by simp [Ordered]⟩
    rcases List.mem_append.mp member with addr | url
    · obtain ⟨text, -, rfl⟩ := mem_entry.mp addr
      exact inside
    · obtain ⟨text, -, rfl⟩ := mem_entry.mp url
      exact inside

theorem laid_override (c : Config) (lookup : Lookup) :
    Laid c (environmentLayer lookup) (c.override lookup) := by
  unfold environmentLayer
  rw [override_eq]
  cases unpadded (lookup addrName) <;> cases unpadded (lookup reactiveUrlName) <;>
    simp [Laid, settings, entry, Setting.keys, under?_object, under?_nil, Assoc.find?]

/-! ### Secrets -/

theorem secretAt_merge {lower upper : Json} (ordered : upper.Ordered) {q : Path}
    (secret : SecretAt (merge lower upper) q) : SecretAt upper q ∨ SecretAt lower q := by
  obtain ⟨keys, p, w, rfl, plain, inside⟩ := secret.plainAt
  rcases (plainAt_merge ordered lower).mp plain with above | ⟨below, -⟩
  · exact .inl ((secretAt_below above p).mpr inside)
  · exact .inr ((secretAt_below below p).mpr inside)

theorem looksSecret_trimmed (s : String) : looksSecret (trimmed s) = looksSecret s := by
  simp only [looksSecret, trimmed, String.toList_ofList, (trimmed_trim s.toList).trim_eq]

theorem SecretAt.inside {members : Members} {q : Path} (secret : SecretAt (.obj members) q) :
    ∃ e ∈ members, ∃ p, SecretAt e.2 p := by
  obtain ⟨s, reached, looks⟩ := secret
  cases q with
  | nil => cases reached
  | cons step p =>
    obtain ⟨v, down, below⟩ := Option.bind_eq_some_iff.mp reached
    cases step with
    | index i => cases down
    | key k => exact ⟨(k, v), Assoc.mem_of_find? down, p, s, below, looks⟩

theorem secretAt_text {text : String} {p : Path} (secret : SecretAt (.str text) p) :
    looksSecret text = true := by
  obtain ⟨s, reached, looks⟩ := secret
  cases p with
  | nil =>
    obtain rfl : text = s := by simpa [at?] using reached
    exact looks
  | cons step p => cases reached

theorem secretAt_entry {part key : String} {found : Option String} {e : String × Json}
    (member : e ∈ entry part key found) {p : Path} (secret : SecretAt e.2 p) :
    ∃ text, found = some text ∧ looksSecret text = true := by
  obtain ⟨text, given, rfl⟩ := mem_entry.mp member
  obtain ⟨e, inside, p, secret⟩ := secret.inside
  obtain rfl := List.mem_singleton.mp inside
  exact ⟨text, given, secretAt_text secret⟩

/-- The values of the variables that an environment layer is made of look like no secrets. -/
def Harmless (lookup : Lookup) : Prop :=
  ∀ name ∈ [addrName, reactiveUrlName], ∀ s, lookup name = some s → looksSecret s = false

theorem Harmless.not_secretAt {lookup : Lookup} (harmless : Harmless lookup) (q : Path) :
    ¬ SecretAt (environmentLayer lookup) q := by
  intro secret
  obtain ⟨e, member, p, secret⟩ := secret.inside
  have clear {name : String} (watched : name ∈ [addrName, reactiveUrlName])
      (found : ∃ text, unpadded (lookup name) = some text ∧ looksSecret text = true) : False := by
    obtain ⟨text, given, looks⟩ := found
    obtain ⟨s, value, -, rfl⟩ := unpadded_eq_some.mp given
    rw [looksSecret_trimmed, harmless name watched s value] at looks
    cases looks
  rcases List.mem_append.mp member with addr | url
  · exact clear (by simp) (secretAt_entry addr secret)
  · exact clear (by simp) (secretAt_entry url secret)

/-! ### Loading with the document -/

theorem documents_snoc {texts : List (List Char)} {cs : List Char} {vs : List (Option Json)}
    {d : Option Json} (read : documents texts = .ok vs) (last : document cs = .ok d) :
    documents (texts ++ [cs]) = .ok (vs ++ [d]) := by
  unfold documents at *
  rw [List.mapM_append, read, List.mapM_cons, last]
  rfl

theorem meets_environmentLayer (lookup : Lookup) {members : Members}
    (daemon : ∀ v, Assoc.find? "daemon" members = some v → v.isObject = true)
    (reactive : ∀ v, Assoc.find? "reactive" members = some v → v.isObject = true) :
    Meets (entry "daemon" "addr" (unpadded (lookup addrName)) ++
      entry "reactive" "base_url" (unpadded (lookup reactiveUrlName))) members where
  above := by
    intro p _ v found
    rcases List.mem_append.mp (Assoc.mem_of_find? found) with addr | url
    · obtain ⟨text, -, same⟩ := mem_entry.mp addr
      rw [(Prod.mk.inj same).2, isObject_obj]
    · obtain ⟨text, -, same⟩ := mem_entry.mp url
      rw [(Prod.mk.inj same).2, isObject_obj]
  below := by
    intro p _ v found w there
    rcases List.mem_append.mp (Assoc.mem_of_find? found) with addr | url
    · obtain ⟨text, -, same⟩ := mem_entry.mp addr
      exact daemon w ((Prod.mk.inj same).1 ▸ there)
    · obtain ⟨text, -, same⟩ := mem_entry.mp url
      exact reactive w ((Prod.mk.inj same).1 ▸ there)

theorem refuseSecrets_environmentLayer {members : Members} {lookup : Lookup}
    (ordered : (Json.obj members).Ordered) (clear : refuseSecrets (.obj members) = .ok ())
    (harmless : Harmless lookup) :
    refuseSecrets (merge (.obj members) (environmentLayer lookup)) = .ok () := by
  have upper := ordered_environmentLayer lookup
  have root : (merge (.obj members) (environmentLayer lookup)).isLeaf = false := by
    rw [environmentLayer, merge]
    rfl
  refine (refuseSecrets_eq_ok (ordered_merge upper ordered) root).mpr fun q secret => ?_
  rcases secretAt_merge upper secret with above | below
  · exact harmless.not_secretAt q above
  · exact (refuseSecrets_eq_ok ordered rfl).mp clear q below

/-- Settings that load do so with the environment as one more document, and have its addresses. -/
theorem load_environmentLayer {vs : List (Option Json)} {members : Members} {c : Config} {lookup : Lookup}
    (ordered : ∀ v, some v ∈ vs → v.Ordered) (source : merged vs = .obj members)
    (clear : refuseSecrets (.obj members) = .ok ()) (fits : ofJson (.obj members) = .ok c)
    (daemon : ∀ v, Assoc.find? "daemon" members = some v → v.isObject = true)
    (reactive : ∀ v, Assoc.find? "reactive" members = some v → v.isObject = true)
    (harmless : Harmless lookup) :
    ∃ loaded, load (vs ++ [some (environmentLayer lookup)]) = .ok loaded ∧
      loaded.config = c.override lookup := by
  have upper := ordered_environmentLayer lookup
  have lower : (Json.obj members).Ordered := source ▸ ordered_merged ordered
  have whole : merged (vs ++ [some (environmentLayer lookup)]) =
      merge (.obj members) (environmentLayer lookup) := by
    rw [merged_snoc, overlay, source]
  obtain ⟨reads, checked⟩ := ofJson_eq_ok.mp fits
  have fits' : ofJson (merge (.obj members) (environmentLayer lookup)) = .ok (c.override lookup) := by
    have meets := meets_environmentLayer lookup daemon reactive
    refine ofJson_eq_ok.mpr ⟨?_, checked_override.mpr checked⟩
    exact (read_merge_eq_ok meets lower upper reads).mpr (laid_override c lookup)
  have clear' := refuseSecrets_environmentLayer lower clear harmless
  refine ⟨⟨c.override lookup, merged (vs ++ [some (environmentLayer lookup)]),
    hash (merged (vs ++ [some (environmentLayer lookup)]))⟩, ?_, rfl⟩
  simp only [load, ofMerged, whole, clear', fits']

/-- What the overrides of an environment come to, for documents that load. -/
structure Layered (texts : List (List Char)) (lookup : Lookup) (loaded : Loaded) : Prop where
  given : ∀ name ∈ [addrName, reactiveUrlName], Gives (lookup name) (unpadded (lookup name))
  documents : ∃ vs, documents texts = .ok vs ∧
    ∃ loaded', load (vs ++ [some (environmentLayer lookup)]) = .ok loaded' ∧
      loaded'.config = loaded.config.override lookup
  texts : ∀ cs, document cs = .ok (some (environmentLayer lookup)) →
    ∃ loaded', loadTexts (texts ++ [cs]) = .ok loaded' ∧
      loaded'.config = loaded.config.override lookup
  valid : (loaded.config.override lookup).check = .ok ()
  again : (loaded.config.override lookup).override lookup = loaded.config.override lookup
  addr : (loaded.config.override lookup).daemon.addr =
    (unpadded (lookup addrName)).getD loaded.config.daemon.addr
  baseUrl : (loaded.config.override lookup).reactive.baseUrl =
    (unpadded (lookup reactiveUrlName)).getD loaded.config.reactive.baseUrl
  others : ∀ s ∈ settings, s.keys ≠ ["daemon", "addr"] → s.keys ≠ ["reactive", "base_url"] →
    s.value (loaded.config.override lookup) = s.value loaded.config

theorem override_override (c : Config) (lookup : Lookup) :
    (c.override lookup).override lookup = c.override lookup := by
  simp only [override_eq]
  cases unpadded (lookup addrName) <;> cases unpadded (lookup reactiveUrlName) <;> rfl

theorem others_override (c : Config) (lookup : Lookup) :
    ∀ s ∈ settings, s.keys ≠ ["daemon", "addr"] → s.keys ≠ ["reactive", "base_url"] →
      s.value (c.override lookup) = s.value c := by
  simp [settings, Setting.keys, override_eq]

/-- Overriding settings that have been read is reading the environment as one more document. -/
theorem environment_layered {texts : List (List Char)} {lookup : Lookup} {loaded : Loaded}
    (made : loadTexts texts = .ok loaded) (object : loaded.source.isObject = true)
    (daemon : ∀ v, loaded.source.under? ["daemon"] = some v → v.isObject = true)
    (reactive : ∀ v, loaded.source.under? ["reactive"] = some v → v.isObject = true)
    (harmless : Harmless lookup) : Layered texts lookup loaded := by
  obtain ⟨vs, read, merging⟩ := loadTexts_merged made
  obtain ⟨source, clear, fits, -⟩ := ofMerged_eq_ok merging
  obtain ⟨members, shape⟩ := exists_members object
  rw [shape] at source daemon reactive
  simp only [under?_single] at daemon reactive
  rw [← source] at clear fits
  have layered := load_environmentLayer (ordered_documents read) source.symm clear fits daemon
    reactive harmless
  exact {
    given := fun name _ => gives_unpadded (lookup name)
    documents := ⟨vs, read, layered⟩
    texts := by
      intro cs last
      rw [loadTexts, documents_snoc read last]
      exact layered
    valid := check_eq_ok.mpr (checked_override.mpr (ofJson_eq_ok.mp fits).2)
    again := override_override _ _
    addr := by rw [override_eq]
    baseUrl := by rw [override_eq]
    others := others_override _ _ }

/-- A section that is a list, and one that is an object without the address. -/
def listedTexts : List (List Char) :=
  ["db: [MY_DB, 3]\nreactive: \x7btimeout_ms: 7\x7d".toList]

def listedSource : Json :=
  .obj [("db", .arr [.str "MY_DB", .int 3]), ("reactive", .obj [("timeout_ms", .int 7)])]

def listed : Loaded where
  config := { standard with
    reactive := { standard.reactive with timeoutMs := 7 }
    db := { standard.db with urlEnv := "MY_DB", maxConnections := 3 } }
  source := listedSource
  hash := hash listedSource

def padded : Lookup := fun name =>
  if name = addrName then some " [::1]:80\t"
  else if name = reactiveUrlName then some " \n"
  else none

theorem listed_layered :
    loadTexts listedTexts = .ok listed ∧ Harmless padded ∧ Layered listedTexts padded listed ∧
      ∃ loaded,
        loadTexts (listedTexts ++ ["daemon: \x7baddr: \"[::1]:80\"\x7d".toList]) = .ok loaded ∧
          loaded.config = { listed.config with daemon := ⟨"[::1]:80"⟩ } := by
  have read : documents listedTexts = .ok [some listedSource] := rfl
  have made : loadTexts listedTexts = .ok listed := loadTexts_of read rfl rfl
  have harmless : Harmless padded := by
    simp only [Harmless, List.forall_mem_cons]
    exact ⟨by rintro s ⟨⟩; decide, by rintro s ⟨⟩; decide, List.forall_mem_nil _⟩
  have layered := environment_layered made rfl (by rintro v ⟨⟩) (by rintro v ⟨⟩; rfl) harmless
  exact ⟨made, harmless, layered, layered.texts _ rfl⟩

end Postboard.Config
