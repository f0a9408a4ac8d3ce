import Postboard.Config.Layer
import Postboard.Proofs.Json.Record

/-! Defaults of the fields against a document with all defaults at the bottom.

Settings read from a value over the standard ones are the settings read from the value laid over the
document that names every standard setting, and if reading or checking fails, it fails the same way.
-/

set_option autoImplicit false

namespace Postboard.Config

open Json Record

/-! ### Fields that do not interfere -/

theorem independent_daemon : daemonRecord.Independent := by
  simp [Independent, daemonRecord]

theorem independent_reactive : reactiveRecord.Independent := by
  simp [Independent, reactiveRecord, Field.commute_of]

theorem independent_database : databaseRecord.Independent := by
  simp [Independent, databaseRecord, Field.commute_of]

theorem independent_posts : postsRecord.Independent := by
  simp [Independent, postsRecord, Field.commute_of]

theorem independent_principal : principalRecord.Independent := by
  simp [Independent, principalRecord]

theorem independent_streams : streamsRecord.Independent := by
  simp [Independent, streamsRecord]

theorem independent : record.Independent := by
  simp [Independent, record, Field.commute_of]

/-! ### The standard settings as a document -/

theorem ordered_json (c : Config) : c.json.Ordered := by
  have leaves (members : Members) (sorted : Assoc.Sorted members)
      (leaf : ∀ e ∈ members, e.2.isLeaf = true) : (Json.obj members).Ordered :=
    ordered_obj.mpr ⟨sorted, fun e member => ordered_leaf (leaf e member)⟩
  refine ordered_obj.mpr ⟨Assoc.sorted_keys.mpr ?_, ?_⟩
  · simp only [List.map_cons, List.map_nil]
    decide
  · simp only [List.forall_mem_cons]
    refine ⟨leaves _ ?_ ?_, leaves _ ?_ ?_, leaves _ ?_ ?_, leaves _ ?_ ?_, leaves _ ?_ ?_,
      leaves _ ?_ ?_, List.forall_mem_nil _⟩
    all_goals simp only [Assoc.sorted_keys, List.map_cons, List.map_nil, List.forall_mem_cons]
    all_goals first
      | decide
      | simp [isLeaf, nat, int]

def standardMembers : Members :=
  match standard.json with
  | .obj members => members
  | _ => []

/-- A section of the document says what its fields are anyway. -/
theorem yields_section {τ : Type} {q : Record τ} {d : τ} (separate : q.Independent) {k : String}
    {set : τ → Config → Config}
    (field : record.fields.find? (fun f => f.name = k) = some (.of k (q.read d) set))
    {under : Members} (sorted : Assoc.Sorted under) (leaves : ∀ e ∈ under, e.2.isLeaf = true)
    (has : ∀ e ∈ under, q.Has d e.1 e.2) : record.Yields k (.obj under) :=
  (idle_of_leaves sorted leaves has).yields_field separate field

theorem idle_standard : record.Idle standard standardMembers where
  ordered := ordered_json standard
  has := by
    simp only [standardMembers, json, List.forall_mem_cons]
    exact ⟨rfl, rfl, rfl, rfl, rfl, rfl, List.forall_mem_nil _⟩
  yields := by
    simp only [standardMembers, json, List.forall_mem_cons]
    refine ⟨yields_section independent_daemon rfl ?_ ?_ ?daemon,
      yields_section independent_database rfl ?_ ?_ ?database,
      yields_section independent_posts rfl ?_ ?_ ?posts,
      yields_section independent_principal rfl ?_ ?_ ?principal,
      yields_section independent_reactive rfl ?_ ?_ ?reactive,
      yields_section independent_streams rfl ?_ ?_ ?streams, List.forall_mem_nil _⟩
    case daemon => exact List.forall_mem_singleton.mpr rfl
    case principal => exact List.forall_mem_singleton.mpr rfl
    case streams => exact List.forall_mem_singleton.mpr rfl
    case posts => exact List.forall_mem_cons.mpr ⟨rfl, List.forall_mem_singleton.mpr rfl⟩
    case reactive => exact List.forall_mem_cons.mpr ⟨rfl, List.forall_mem_singleton.mpr rfl⟩
    case database =>
      simp only [List.forall_mem_cons]
      exact ⟨rfl, rfl, rfl, rfl, List.forall_mem_nil _⟩
    all_goals simp only [Assoc.sorted_keys, List.map_cons, List.map_nil, List.forall_mem_cons]
    all_goals decide

/-- The defaults of the fields and a document of defaults underneath come to the same settings, or
to the same error. -/
theorem defaults_agree {m : Json} (ordered : m.Ordered) :
    ofJson (merge standard.json m) = ofJson m := by
  have same : read (merge standard.json m) = read m := idle_standard.read_merge independent ordered
  rw [ofJson, ofJson, same]

/-- A section that is a list and one that is partial, with a key that no field has. -/
def sparse : Json :=
  .obj [("daemon", .arr [.str "[::1]:80"]),
    ("db", .obj [("max_connections", .nat 3), ("pool", .null)])]

/-- Two misfits, of which the first counts, and a limit that would not pass either. -/
def misfitting : Json :=
  .obj [("db", .obj [("max_connections", .int (-1))]), ("posts", .arr [.nat 0]),
    ("streams", .null)]

theorem defaults_agree_sparse :
    (sparse.Ordered ∧ ofJson (merge standard.json sparse) = ofJson sparse ∧
      ofJson sparse =
        .ok { standard with
          daemon := ⟨"[::1]:80"⟩, db := { standard.db with maxConnections := 3 } }) ∧
    (misfitting.Ordered ∧ ofJson (merge standard.json misfitting) = ofJson misfitting ∧
      ofJson misfitting = .error (.schema (.range (-1) "u32"))) := by
  have ordered : sparse.Ordered := by
    simp only [sparse, Ordered, OrderedMembers, OrderedItems, Assoc.sorted_keys, nat]
    decide
  have ordered' : misfitting.Ordered := by
    simp only [misfitting, Ordered, OrderedMembers, OrderedItems, Assoc.sorted_keys, nat, int]
    decide
  exact ⟨⟨ordered, defaults_agree ordered, rfl⟩, ordered', defaults_agree ordered', rfl⟩

end Postboard.Config
