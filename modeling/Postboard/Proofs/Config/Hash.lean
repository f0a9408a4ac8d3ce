import Postboard.Proofs.Config.Layering
import Postboard.Proofs.Digest.Sha256
import Postboard.Proofs.Json.Canonical
import Postboard.Proofs.Yaml.Reordered

/-! What the digest of loaded settings tells about the documents.

As long as the digests of two texts do not collide, equal digests mean equal merged values. Which
order the entries of the documents are in does not matter for the merged value, nor which documents
say what, but only what has been said last.
-/

set_option autoImplicit false

namespace Postboard.Config

open Json

/-! ### The order of entries -/

def SameEntries (cs cs' : List Char) : Prop :=
  ∃ v v', Yaml.Document.parse cs = some v ∧ Yaml.Document.parse cs' = some v' ∧
    Yaml.Value.Reordered v v'

theorem document_reordered {cs cs' : List Char} (same : SameEntries cs cs') :
    document cs = document cs' := by
  obtain ⟨v, v', parsed, parsed', reordered⟩ := same
  simp only [document, parsed, parsed', reordered.isNull_eq, reordered.json?_eq]

theorem documents_reordered {texts texts' : List (List Char)}
    (same : List.Forall₂ SameEntries texts texts') : documents texts = documents texts' := by
  unfold documents
  induction same with
  | nil => rfl
  | cons here _ ih => rw [List.mapM_cons, List.mapM_cons, document_reordered here, ih]

/-! ### What has been said last -/

def SaysObject (keys : List String) (d : Option Json) : Prop :=
  ∃ v, d = some v ∧ v.ObjectAt keys

/-- Two lists of documents have the same last words, about every place. -/
structure SameWords (documents documents' : List (Option Json)) : Prop where
  plain : ∀ keys w, LastWord (Speaks keys) (Says keys w) documents ↔
    LastWord (Speaks keys) (Says keys w) documents'
  -- Not at the root: without a word about it, there is an object.
  objects : ∀ k ks, LastWord (Speaks (k :: ks)) (SaysObject (k :: ks)) documents ↔
    LastWord (Speaks (k :: ks)) (SaysObject (k :: ks)) documents'

theorem objectAt_merged {documents : List (Option Json)}
    (ordered : ∀ v, some v ∈ documents → v.Ordered)
    (k : String) (ks : List String) :
    (merged documents).ObjectAt (k :: ks) ↔
      LastWord (Speaks (k :: ks)) (SaysObject (k :: ks)) documents :=
  holdsAt_merged isObject_merge_iff ordered (by simp [holdsAt_object, Assoc.find?])

/-- The last words make the merged value. -/
theorem merged_eq_iff {documents documents' : List (Option Json)}
    (ordered : ∀ v, some v ∈ documents → v.Ordered)
    (ordered' : ∀ v, some v ∈ documents' → v.Ordered) :
    merged documents = merged documents' ↔ SameWords documents documents' := by
  constructor
  · intro same
    refine ⟨fun keys w => ?_, fun k ks => ?_⟩
    · rw [← plainAt_merged ordered, ← plainAt_merged ordered', same]
    · rw [← objectAt_merged ordered, ← objectAt_merged ordered', same]
  · intro words
    have plain (keys : List String) (w : Json) :
        (merged documents).PlainAt keys w ↔ (merged documents').PlainAt keys w := by
      rw [plainAt_merged ordered, plainAt_merged ordered', words.plain]
    refine eq_of_places (ordered_merged ordered) (ordered_merged ordered') plain fun keys => ?_
    cases keys with
    | nil => rw [objectAt_nil, objectAt_nil, exists_congr fun w => plain [] w]
    | cons k ks => rw [objectAt_merged ordered, objectAt_merged ordered', words.objects]

/-! ### The digest -/

/-- What two loaded sources, from documents in texts, have to do with their digests. -/
structure HashTells (texts texts' : List (List Char)) (loaded loaded' : Loaded) : Prop where
  value : loaded.hash = loaded'.hash ↔ loaded.source = loaded'.source
  text : loaded.source.text = loaded'.source.text ↔ loaded.source = loaded'.source
  config : loaded.hash = loaded'.hash → loaded.config = loaded'.config
  order : List.Forall₂ SameEntries texts texts' → loaded = loaded'
  -- How the values are spread over the documents makes no difference.
  layers : ∀ vs vs', documents texts = .ok vs → documents texts' = .ok vs' →
    (loaded.source = loaded'.source ↔ SameWords vs vs')

theorem hash_tells {texts texts' : List (List Char)} {loaded loaded' : Loaded}
    (made : loadTexts texts = .ok loaded) (made' : loadTexts texts' = .ok loaded')
    (separate : Digest.Sha256.digest loaded.source.bytes = Digest.Sha256.digest loaded'.source.bytes →
      loaded.source.bytes = loaded'.source.bytes) :
    HashTells texts texts' loaded loaded' := by
  obtain ⟨vs, read, merging⟩ := loadTexts_merged made
  obtain ⟨vs', read', merging'⟩ := loadTexts_merged made'
  obtain ⟨source, -, fits, digest⟩ := ofMerged_eq_ok merging
  obtain ⟨source', -, fits', digest'⟩ := ofMerged_eq_ok merging'
  have value : loaded.hash = loaded'.hash ↔ loaded.source = loaded'.source := by
    rw [digest, digest', hash, hash, ← source, ← source', Digest.Sha256.hex_eq_iff]
    exact ⟨fun same => bytes_injective (separate same), fun same => by rw [same]⟩
  refine ⟨value, ⟨fun same => ?_, fun same => by rw [same]⟩, fun same => ?_, fun same => ?_, ?_⟩
  · exact chars_injective (String.ofList_injective same)
  · have merged : merged vs = merged vs' := by rw [← source, ← source', value.mp same]
    rw [merged, fits'] at fits
    exact (Except.ok.inj fits).symm
  · rw [loadTexts, documents_reordered same] at made
    exact Except.ok.inj (made.symm.trans made')
  · intro ws ws' here here'
    obtain rfl : vs = ws := Except.ok.inj (read.symm.trans here)
    obtain rfl : vs' = ws' := Except.ok.inj (read'.symm.trans here')
    rw [source, source']
    exact merged_eq_iff (ordered_documents read) (ordered_documents read')

def wholeTexts : List (List Char) := ["a: [1, 2]\nc: \x7bd: x, e: true\x7d".toList]

def turnedTexts : List (List Char) := ["c: \x7be: true, d: x\x7d\na: [1, 2]".toList]

/-- The values of `wholeTexts` from several documents, with others that do not last. Nothing lasts of
what comes before the document that is no number. -/
def spreadTexts : List (List Char) :=
  ["daemon: \x7baddr: x\x7d".toList, ".nan".toList, "a: [3]\nc: \x7bd: y\x7d".toList,
    "c: \x7be: true\x7d\na: [1, 2]".toList, [], "c: \x7bd: x\x7d".toList]

def quotedTexts : List (List Char) := ["a: ['1', '2']\nc: \x7bd: x, e: true\x7d".toList]

def wholeSource : Json :=
  .obj [("a", .arr [.int 1, .int 2]), ("c", .obj [("d", .str "x"), ("e", .bool true)])]

def quotedSource : Json :=
  .obj [("a", .arr [.str "1", .str "2"]), ("c", .obj [("d", .str "x"), ("e", .bool true)])]

def spreadSources : List (Option Json) :=
  [some (.obj [("daemon", .obj [("addr", .str "x")])]), some .null,
    some (.obj [("a", .arr [.int 3]), ("c", .obj [("d", .str "y")])]),
    some (.obj [("a", .arr [.int 1, .int 2]), ("c", .obj [("e", .bool true)])]), none,
    some (.obj [("c", .obj [("d", .str "x")])])]

def wholeValue : Yaml.Value :=
  .map [(.str "a", .seq [.int 1, .int 2]),
    (.str "c", .map [(.str "d", .str "x"), (.str "e", .bool true)])]

def turnedValue : Yaml.Value :=
  .map [(.str "c", .map [(.str "e", .bool true), (.str "d", .str "x")]),
    (.str "a", .seq [.int 1, .int 2])]

theorem value_turned : Yaml.Value.Reordered wholeValue turnedValue := by
  have differ (k k' : String) (other : k ≠ k') : Yaml.Value.KeysDiffer (.str k) (.str k') := by
    intro key named named'
    exact other (Option.some.inj (named.trans named'.symm))
  exact .trans (.swap [] [] _ _ (differ "a" "c" (by decide)))
    (.entry [] _ _ (.swap [] [] _ _ (differ "d" "e" (by decide))))

theorem hash_tells_whole :
    (List.Forall₂ SameEntries wholeTexts turnedTexts ∧
      HashTells wholeTexts turnedTexts ⟨standard, wholeSource, hash wholeSource⟩
        ⟨standard, wholeSource, hash wholeSource⟩) ∧
    HashTells wholeTexts spreadTexts ⟨standard, wholeSource, hash wholeSource⟩
      ⟨standard, wholeSource, hash wholeSource⟩ ∧
    HashTells wholeTexts quotedTexts ⟨standard, wholeSource, hash wholeSource⟩
      ⟨standard, quotedSource, hash quotedSource⟩ ∧
    hash wholeSource ≠ hash quotedSource := by
  have read : documents wholeTexts = .ok [some wholeSource] := rfl
  have readTurned : documents turnedTexts = .ok [some wholeSource] := rfl
  have readSpread : documents spreadTexts = .ok spreadSources := rfl
  have readQuoted : documents quotedTexts = .ok [some quotedSource] := rfl
  have whole : loadTexts wholeTexts = .ok ⟨standard, wholeSource, hash wholeSource⟩ :=
    loadTexts_of read rfl rfl
  have turned : loadTexts turnedTexts = .ok ⟨standard, wholeSource, hash wholeSource⟩ :=
    loadTexts_of readTurned rfl rfl
  have spread : loadTexts spreadTexts = .ok ⟨standard, wholeSource, hash wholeSource⟩ :=
    loadTexts_of readSpread rfl rfl
  have quoted : loadTexts quotedTexts = .ok ⟨standard, quotedSource, hash quotedSource⟩ :=
    loadTexts_of readQuoted rfl rfl
  have digests : Digest.Sha256.digest wholeSource.bytes ≠ Digest.Sha256.digest quotedSource.bytes := by
    decide +kernel
  have other := hash_tells whole quoted fun same => absurd same digests
  refine ⟨⟨.cons ⟨wholeValue, turnedValue, rfl, rfl, value_turned⟩ .nil,
    hash_tells whole turned fun _ => rfl⟩, hash_tells whole spread fun _ => rfl, other, ?_⟩
  exact fun same => digests (Digest.Sha256.hex_eq_iff.mp same)

end Postboard.Config
