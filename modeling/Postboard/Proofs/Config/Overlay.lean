import Postboard.Proofs.Config.Check
import Postboard.Proofs.Config.Defaults
import Postboard.Proofs.Json.Settled
import Postboard.Proofs.Json.Written

/-! Settings from a document laid over settings that have been written.

A document overlays the written settings when it and its sections are objects. Then it replaces the
settings that it names and no others, provided that each of them is of the right type and range and
that all of them together pass the check.
-/

set_option autoImplicit false

namespace Postboard.Config

open Json Record

inductive Kind where
  | text
  | integer (low high : Int)

/-- A string, or an integer between two bounds. -/
def Kind.Fits : Kind → Json → Prop
  | .text, v => ∃ s, v = .str s
  | .integer low high, v => ∃ n, v = .int n ∧ low ≤ n ∧ n ≤ high

def Kind.word32 : Kind := .integer 0 0xFFFFFFFF

def Kind.word64 : Kind := .integer 0 0xFFFFFFFFFFFFFFFF

def Kind.signed32 : Kind := .integer (-0x80000000) 0x7FFFFFFF

/-- One of the settings: where it stands in a document, what it can be, and how it is written. -/
structure Setting where
  part : String
  key : String
  kind : Kind
  value : Config → Json

def Setting.keys (s : Setting) : List String := [s.part, s.key]

def settings : List Setting :=
  [⟨"daemon", "addr", .text, fun c => .str c.daemon.addr⟩,
   ⟨"reactive", "base_url", .text, fun c => .str c.reactive.baseUrl⟩,
   ⟨"reactive", "timeout_ms", .word64, fun c => .nat c.reactive.timeoutMs.toNat⟩,
   ⟨"db", "acquire_timeout_ms", .word64, fun c => .nat c.db.acquireTimeoutMs.toNat⟩,
   ⟨"db", "max_connections", .word32, fun c => .nat c.db.maxConnections.toNat⟩,
   ⟨"db", "statement_timeout_ms", .word64, fun c => .nat c.db.statementTimeoutMs.toNat⟩,
   ⟨"db", "url_env", .text, fun c => .str c.db.urlEnv⟩,
   ⟨"posts", "default_limit", .word32, fun c => .nat c.posts.defaultLimit.toNat⟩,
   ⟨"posts", "max_limit", .word32, fun c => .nat c.posts.maxLimit.toNat⟩,
   ⟨"principal", "user_id", .signed32, fun c => .int c.principal.userId.toInt⟩,
   ⟨"streams", "redirect_prefix", .text, fun c => .str c.streams.redirectBase⟩]

structure Sectioned (m : Json) : Prop where
  object : m.isObject = true
  parts : ∀ s ∈ settings, ∀ v, m.under? [s.part] = some v → v.isObject = true

theorem sectioned_iff {m : Json} : Sectioned m ↔
    m.isObject = true ∧ ∀ s ∈ settings, (m.under? [s.part]).all isObject = true := by
  have part (found : Option Json) : (∀ v, found = some v → v.isObject = true) ↔
      found.all isObject = true := by cases found <;> simp
  simp only [← part]
  exact ⟨fun ⟨object, parts⟩ => ⟨object, parts⟩, fun ⟨object, parts⟩ => ⟨object, parts⟩⟩

instance (m : Json) : Decidable (Sectioned m) := decidable_of_iff _ sectioned_iff.symm

/-- Settings with what a document names, and otherwise with those of other settings. -/
def Laid (c : Config) (m : Json) (c' : Config) : Prop :=
  ∀ s ∈ settings, s.value c' = (m.under? s.keys).getD (s.value c)

/-! ### Sections -/

def Daemon.members (d : Daemon) : Members := [("addr", .str d.addr)]

def Reactive.members (r : Reactive) : Members :=
  [("base_url", .str r.baseUrl), ("timeout_ms", .nat r.timeoutMs.toNat)]

def Database.members (d : Database) : Members :=
  [("acquire_timeout_ms", .nat d.acquireTimeoutMs.toNat),
   ("max_connections", .nat d.maxConnections.toNat),
   ("statement_timeout_ms", .nat d.statementTimeoutMs.toNat), ("url_env", .str d.urlEnv)]

def Posts.members (p : Posts) : Members :=
  [("default_limit", .nat p.defaultLimit.toNat), ("max_limit", .nat p.maxLimit.toNat)]

def Principal.members (p : Principal) : Members := [("user_id", .int p.userId.toInt)]

def Streams.members (s : Streams) : Members := [("redirect_prefix", .str s.redirectBase)]

theorem written_daemon : daemonRecord.Written Daemon.members where
  independent := independent_daemon
  steady := by simp [daemonRecord, Field.steady_of]
  sorted _ := by simp [Daemon.members, Assoc.sorted_keys]
  names _ := by simp [daemonRecord, Daemon.members, Field.of]
  injective := by rintro ⟨⟩ ⟨⟩ same; simpa [Daemon.members] using same
  tells _ := by
    simp only [Daemon.members, List.forall_mem_singleton]
    exact fun v => (has_iff Daemon.addr rfl (by rintro a ⟨⟩; simp)).trans readString_eq_ok

theorem written_reactive : reactiveRecord.Written Reactive.members where
  independent := independent_reactive
  steady := by simp [reactiveRecord, Field.steady_of]
  sorted _ := by simp only [Reactive.members, Assoc.sorted_keys, List.map]; decide
  names _ := by simp only [reactiveRecord, Reactive.members, Field.of, List.map]; decide
  injective := by
    rintro ⟨⟩ ⟨⟩ same
    simpa [Reactive.members, nat_inj, UInt64.toNat_inj] using same
  tells _ := by
    simp only [Reactive.members, List.forall_mem_cons]
    refine ⟨fun v => ?_, fun v => ?_, List.forall_mem_nil _⟩
    · exact (has_iff Reactive.baseUrl rfl (by rintro a ⟨⟩; simp)).trans readString_eq_ok
    · exact (has_iff Reactive.timeoutMs rfl (by rintro a ⟨⟩; simp)).trans readUInt64_eq_ok

theorem written_database : databaseRecord.Written Database.members where
  independent := independent_database
  steady := by simp [databaseRecord, Field.steady_of]
  sorted _ := by simp only [Database.members, Assoc.sorted_keys, List.map]; decide
  names _ := by simp only [databaseRecord, Database.members, Field.of, List.map]; decide
  injective := by
    rintro ⟨⟩ ⟨⟩ same
    simp only [Database.members, nat_inj, UInt32.toNat_inj, UInt64.toNat_inj, List.cons.injEq,
      Prod.mk.injEq, Json.str.injEq] at same
    simp [same]
  tells _ := by
    simp only [Database.members, List.forall_mem_cons]
    refine ⟨fun v => ?_, fun v => ?_, fun v => ?_, fun v => ?_, List.forall_mem_nil _⟩
    · exact (has_iff Database.acquireTimeoutMs rfl (by rintro a ⟨⟩; simp)).trans readUInt64_eq_ok
    · exact (has_iff Database.maxConnections rfl (by rintro a ⟨⟩; simp)).trans readUInt32_eq_ok
    · exact (has_iff Database.statementTimeoutMs rfl (by rintro a ⟨⟩; simp)).trans readUInt64_eq_ok
    · exact (has_iff Database.urlEnv rfl (by rintro a ⟨⟩; simp)).trans readString_eq_ok

theorem written_posts : postsRecord.Written Posts.members where
  independent := independent_posts
  steady := by simp [postsRecord, Field.steady_of]
  sorted _ := by simp only [Posts.members, Assoc.sorted_keys, List.map]; decide
  names _ := by simp only [postsRecord, Posts.members, Field.of, List.map]; decide
  injective := by
    rintro ⟨⟩ ⟨⟩ same
    simpa [Posts.members, nat_inj, UInt32.toNat_inj] using same
  tells _ := by
    simp only [Posts.members, List.forall_mem_cons]
    refine ⟨fun v => ?_, fun v => ?_, List.forall_mem_nil _⟩
    · exact (has_iff Posts.defaultLimit rfl (by rintro a ⟨⟩; simp)).trans readUInt32_eq_ok
    · exact (has_iff Posts.maxLimit rfl (by rintro a ⟨⟩; simp)).trans readUInt32_eq_ok

theorem written_principal : principalRecord.Written Principal.members where
  independent := independent_principal
  steady := by simp [principalRecord, Field.steady_of]
  sorted _ := by simp [Principal.members, Assoc.sorted_keys]
  names _ := by simp [principalRecord, Principal.members, Field.of]
  injective := by
    rintro ⟨⟩ ⟨⟩ same
    simpa [Principal.members, int, Int32.toInt_inj] using same
  tells _ := by
    simp only [Principal.members, List.forall_mem_singleton]
    exact fun v => (has_iff Principal.userId rfl (by rintro a ⟨⟩; simp)).trans readInt32_eq_ok

theorem written_streams : streamsRecord.Written Streams.members where
  independent := independent_streams
  steady := by simp [streamsRecord, Field.steady_of]
  sorted _ := by simp [Streams.members, Assoc.sorted_keys]
  names _ := by simp [streamsRecord, Streams.members, Field.of]
  injective := by rintro ⟨⟩ ⟨⟩ same; simpa [Streams.members] using same
  tells _ := by
    simp only [Streams.members, List.forall_mem_singleton]
    exact fun v => (has_iff Streams.redirectBase rfl (by rintro a ⟨⟩; simp)).trans readString_eq_ok

/-! ### All sections -/

structure Part where
  τ : Type
  name : String
  own : Record τ
  default : τ
  set : τ → Config → Config
  get : Config → τ
  write : τ → Members

def Part.members (p : Part) (c : Config) : Members := p.write (p.get c)

def parts : List Part :=
  [⟨Daemon, "daemon", daemonRecord, standard.daemon, fun v c => { c with daemon := v },
      Config.daemon, Daemon.members⟩,
   ⟨Reactive, "reactive", reactiveRecord, standard.reactive, fun v c => { c with reactive := v },
      Config.reactive, Reactive.members⟩,
   ⟨Database, "db", databaseRecord, standard.db, fun v c => { c with db := v },
      Config.db, Database.members⟩,
   ⟨Posts, "posts", postsRecord, standard.posts, fun v c => { c with posts := v },
      Config.posts, Posts.members⟩,
   ⟨Principal, "principal", principalRecord, standard.principal,
      fun v c => { c with principal := v }, Config.principal, Principal.members⟩,
   ⟨Streams, "streams", streamsRecord, standard.streams, fun v c => { c with streams := v },
      Config.streams, Streams.members⟩]

structure Part.Lawful (p : Part) : Prop where
  written : p.own.Written p.write
  field : record.fields.find? (fun f => f.name = p.name) =
    some (.of p.name (p.own.read p.default) p.set)
  kept : ∀ a c, p.set a c = c ↔ a = p.get c
  plain : ∀ a, ∀ e ∈ p.write a, e.2.isObject = false

theorem lawful (p : Part) (member : p ∈ parts) : p.Lawful := by
  have written : ∀ p ∈ parts, p.own.Written p.write := by
    simp only [parts, List.forall_mem_cons]
    exact ⟨written_daemon, written_reactive, written_database, written_posts, written_principal,
      written_streams, List.forall_mem_nil _⟩
  have field : ∀ p ∈ parts, record.fields.find? (fun f => f.name = p.name) =
      some (.of p.name (p.own.read p.default) p.set) := by
    simp only [parts, List.forall_mem_cons]
    exact ⟨rfl, rfl, rfl, rfl, rfl, rfl, List.forall_mem_nil _⟩
  have kept : ∀ p ∈ parts, ∀ a c, p.set a c = c ↔ a = p.get c := by
    simp only [parts, List.forall_mem_cons]
    refine ⟨?_, ?_, ?_, ?_, ?_, ?_, List.forall_mem_nil _⟩
    all_goals exact fun a c => by cases c; simp
  have plain : ∀ p ∈ parts, ∀ a, ∀ e ∈ p.write a, e.2.isObject = false := by
    simp only [parts, List.forall_mem_cons, Daemon.members, Reactive.members, Database.members,
      Posts.members, Principal.members, Streams.members]
    simp [isObject, nat, int]
  exact ⟨written p member, field p member, kept p member, plain p member⟩

theorem Part.Lawful.has_iff {p : Part} (lawful : p.Lawful) {c : Config} {v : Json} :
    record.Has c p.name v ↔ p.own.read p.default v = .ok (p.get c) :=
  Record.has_iff p.get lawful.field lawful.kept

theorem forall_fields {P : String → Prop} :
    (∀ f ∈ record.fields, P f.name) ↔ ∀ p ∈ parts, P p.name := by
  simp only [record, parts, Field.of, List.forall_mem_cons]
  simp

theorem exact_record : record.Exact where
  independent := independent
  steady := by simp [record, Field.steady_of]
  told := by
    intro s t both
    have same : ∀ p ∈ parts, p.get s = p.get t := by
      intro p member
      obtain ⟨v, here, there⟩ :=
        (forall_fields (P := fun k => ∃ v, record.Has s k v ∧ record.Has t k v)).mp both p member
      rw [(lawful p member).has_iff] at here there
      exact Except.ok.inj (here.symm.trans there)
    cases s
    cases t
    simpa [parts] using same

/-- The settings are the members of the sections. -/
theorem forall_settings {P : List String → Json → Prop} {c : Config} :
    (∀ s ∈ settings, P s.keys (s.value c)) ↔
      ∀ p ∈ parts, ∀ e ∈ p.members c, P [p.name, e.1] e.2 := by
  simp only [settings, parts, List.forall_mem_cons, Part.members, Daemon.members, Reactive.members,
    Database.members, Posts.members, Principal.members, Streams.members, Setting.keys,
    List.not_mem_nil, false_implies, implies_true, and_true, and_assoc]

/-! ### Documents with all settings -/

def Whole (members : Members) : Prop :=
  ∀ p ∈ parts, ∃ inside, Assoc.find? p.name members = some (.obj inside) ∧
    ∀ f ∈ p.own.fields, ∃ v, Assoc.find? f.name inside = some v

theorem Part.Lawful.has_iff_under {p : Part} (lawful : p.Lawful) {members inside : Members}
    (ordered : (Json.obj members).Ordered)
    (found : Assoc.find? p.name members = some (.obj inside))
    (full : ∀ f ∈ p.own.fields, ∃ v, Assoc.find? f.name inside = some v) {c : Config} :
    (∀ v, Assoc.find? p.name members = some v → record.Has c p.name v) ↔
      ∀ e ∈ p.members c, (Json.obj members).under? [p.name, e.1] = some e.2 := by
  have sorted := (ordered_obj.mp ((ordered_obj.mp ordered).2 _ (Assoc.mem_of_find? found))).1
  have only : (∀ v, Assoc.find? p.name members = some v → record.Has c p.name v) ↔
      record.Has c p.name (.obj inside) := by simp [found]
  rw [only, lawful.has_iff, lawful.written.read_eq_ok sorted full]
  refine forall₂_congr fun e _ => ?_
  rw [under?_object, found, Option.bind_some, under?_single]

/-- A whole object reads as the settings that are written with the same values. -/
theorem read_eq_ok {members : Members} (ordered : (Json.obj members).Ordered)
    (whole : Whole members) {c : Config} :
    read (.obj members) = .ok c ↔
      ∀ s ∈ settings, (Json.obj members).under? s.keys = some (s.value c) := by
  have full := (forall_fields (P := fun k => ∃ v, Assoc.find? k members = some v)).mpr
    fun p member => (whole p member).imp' _ fun inside both => both.1
  rw [read, exact_record.read_eq_ok (ordered_obj.mp ordered).1 full,
    forall_fields (P := fun k => ∀ v, Assoc.find? k members = some v → record.Has c k v),
    forall_settings (P := fun keys v => (Json.obj members).under? keys = some v)]
  refine forall₂_congr fun p member => ?_
  obtain ⟨inside, found, full⟩ := whole p member
  exact (lawful p member).has_iff_under ordered found full

theorem Part.Lawful.putMember_congr {p : Part} (lawful : p.Lawful) {inside inside' : Members}
    (sorted : Assoc.Sorted inside) (sorted' : Assoc.Sorted inside')
    (same : ∀ f ∈ p.own.fields, Assoc.find? f.name inside = Assoc.find? f.name inside')
    (c : Config) :
    record.putMember p.name (.obj inside) c = record.putMember p.name (.obj inside') c := by
  have put := (alike_of_same same).putMembers_eq sorted sorted' p.default
  simp only [putMember, lawful.field, Field.of, Record.read, put]

/-- Whole objects with the same values of all settings read the same, or fail in the same way. -/
theorem read_congr {members members' : Members} (ordered : (Json.obj members).Ordered)
    (ordered' : (Json.obj members').Ordered) (whole : Whole members) (whole' : Whole members')
    (same : ∀ s ∈ settings,
      (Json.obj members).under? s.keys = (Json.obj members').under? s.keys) :
    read (.obj members) = read (.obj members') := by
  obtain ⟨sorted, values⟩ := ordered_obj.mp ordered
  obtain ⟨sorted', values'⟩ := ordered_obj.mp ordered'
  have sections : ∀ p ∈ parts, ∀ c, record.putFound p.name (Assoc.find? p.name members) c =
      record.putFound p.name (Assoc.find? p.name members') c := by
    intro p member c
    obtain ⟨inside, found, -⟩ := whole p member
    obtain ⟨inside', found', -⟩ := whole' p member
    rw [found, found']
    have here := (ordered_obj.mp (values _ (Assoc.mem_of_find? found))).1
    have there := (ordered_obj.mp (values' _ (Assoc.mem_of_find? found'))).1
    refine (lawful p member).putMember_congr here there (fun f field => ?_) c
    obtain ⟨v, written⟩ := (lawful p member).written.mem_of_field (p.get standard) field
    have equal := (forall_settings (c := standard) (P := fun keys _ =>
      (Json.obj members).under? keys = (Json.obj members').under? keys)).mp same p member _ written
    rwa [under?_object, under?_object, found, found', Option.bind_some, Option.bind_some,
      under?_single, under?_single] at equal
  have alike : record.Alike members members' := by
    intro k c
    by_cases known : ∃ f ∈ record.fields, f.name = k
    · obtain ⟨f, field, rfl⟩ := known
      exact (forall_fields (P := fun k => ∀ c, record.putFound k (Assoc.find? k members) c =
        record.putFound k (Assoc.find? k members') c)).mpr sections f field c
    · have unknown : ∀ f ∈ record.fields, f.name ≠ k := by simpa using known
      rw [putFound_unknown unknown, putFound_unknown unknown]
  exact alike.putMembers_eq sorted sorted' standard

/-! ### Documents over written settings -/

theorem json_members (c : Config) : ∃ under, c.json = .obj under ∧
    ∀ p ∈ parts, Assoc.find? p.name under = some (.obj (p.members c)) := by
  refine ⟨_, rfl, ?_⟩
  simp only [parts, List.forall_mem_cons, Part.members]
  exact ⟨rfl, rfl, rfl, rfl, rfl, rfl, List.forall_mem_nil _⟩

theorem part_of_settings : ∀ p ∈ parts, ∃ s ∈ settings, s.part = p.name := by
  simp [parts, settings]

/-- A section of a document over written settings: each setting is the one of the document, if there
is one, or the one that has been written. -/
theorem Part.Lawful.find?_merged {p : Part} (lawful : p.Lawful) {c : Config}
    {under members : Members}
    (written : Assoc.find? p.name under = some (.obj (p.members c)))
    (ordered : (Json.obj members).Ordered)
    (object : ∀ v, Assoc.find? p.name members = some v → v.isObject = true) :
    ∃ inside, Assoc.find? p.name (mergeMembers under members) = some (.obj inside) ∧
      ∀ e ∈ p.members c, Assoc.find? e.1 inside =
        some (((Json.obj members).under? [p.name, e.1]).getD e.2) := by
  obtain ⟨sorted, values⟩ := ordered_obj.mp ordered
  have own (e : String × Json) (member : e ∈ p.members c) :
      Assoc.find? e.1 (p.members c) = some e.2 :=
    (lawful.written.sorted (p.get c)).find?_of_mem member
  rw [find?_mergeMembers sorted, written]
  cases above : Assoc.find? p.name members with
  | none =>
    refine ⟨p.members c, rfl, fun e member => ?_⟩
    rw [own e member, under?_object, above]
    rfl
  | some v =>
    obtain ⟨inside, rfl⟩ := exists_members (object v above)
    have sorted' := (ordered_obj.mp (values _ (Assoc.mem_of_find? above))).1
    have plain : ∀ e ∈ p.members c, e.2.isObject = false := lawful.plain (p.get c)
    refine ⟨mergeMembers (p.members c) inside, by simp only [Option.getD_some, merge], ?_⟩
    intro e member
    rw [find?_over_plain plain sorted', own e member, under?_object, above,
      Option.bind_some, under?_single]
    cases Assoc.find? e.1 inside <;> rfl

structure Merged (c : Config) (m : Json) (members : Members) : Prop where
  merged : merge c.json m = .obj members
  ordered : (Json.obj members).Ordered
  whole : Whole members
  values : ∀ s ∈ settings,
    (Json.obj members).under? s.keys = some ((m.under? s.keys).getD (s.value c))

theorem exists_merged {c : Config} {m : Json} (ordered : m.Ordered) (sectioned : Sectioned m) :
    ∃ members, Merged c m members := by
  obtain ⟨under, written, sections⟩ := json_members c
  obtain ⟨members, rfl⟩ := exists_members sectioned.object
  have merged : merge c.json (.obj members) = .obj (mergeMembers under members) := by
    rw [written, merge]
  have inside : ∀ p ∈ parts, ∃ inside,
      Assoc.find? p.name (mergeMembers under members) = some (.obj inside) ∧
      ∀ e ∈ p.members c, Assoc.find? e.1 inside =
        some (((Json.obj members).under? [p.name, e.1]).getD e.2) := by
    intro p member
    refine (lawful p member).find?_merged (sections p member) ordered fun v found => ?_
    obtain ⟨s, setting, named⟩ := part_of_settings p member
    exact sectioned.parts s setting v (by rw [under?_single, named, found])
  refine ⟨_, merged, merged ▸ ordered_merge ordered (ordered_json c), ?_, ?_⟩
  · intro p member
    obtain ⟨inside, found, values⟩ := inside p member
    refine ⟨inside, found, fun f field => ?_⟩
    obtain ⟨v, written⟩ := (lawful p member).written.mem_of_field (p.get c) field
    exact ⟨_, values _ written⟩
  · refine (forall_settings (P := fun keys v =>
      (Json.obj (mergeMembers under members)).under? keys =
        some (((Json.obj members).under? keys).getD v))).mpr fun p member e written => ?_
    obtain ⟨inside, found, values⟩ := inside p member
    rw [under?_object, found, Option.bind_some, under?_single, values e written]

theorem Merged.read_eq_ok {c c' : Config} {m : Json} {members : Members}
    (merged : Merged c m members) : read (merge c.json m) = .ok c' ↔ Laid c m c' := by
  rw [merged.merged, Config.read_eq_ok merged.ordered merged.whole]
  refine forall₂_congr fun s setting => ?_
  rw [merged.values s setting, Option.some.injEq, eq_comm]

/-! ### Types and ranges -/

theorem fits_text {v : Json} : Kind.text.Fits v ↔ ∃ t, v = .str t := Iff.rfl

theorem fits_integer {α : Type} {low high : Int} (wanted : String) (f : Int → α) {v : Json} :
    (Kind.integer low high).Fits v ↔ ∃ a, (readInteger low high wanted v).map f = .ok a := by
  simp only [Kind.Fits, map_eq_ok, readInteger_eq_ok]
  constructor
  · rintro ⟨n, fits⟩
    exact ⟨f n, n, fits, rfl⟩
  · rintro ⟨-, n, fits, -⟩
    exact ⟨n, fits⟩

theorem fits_word32 {v : Json} : Kind.word32.Fits v ↔ ∃ n : UInt32, v = .nat n.toNat := by
  simp only [← readUInt32_eq_ok]
  exact fits_integer ..

theorem fits_word64 {v : Json} : Kind.word64.Fits v ↔ ∃ n : UInt64, v = .nat n.toNat := by
  simp only [← readUInt64_eq_ok]
  exact fits_integer ..

theorem fits_signed32 {v : Json} : Kind.signed32.Fits v ↔ ∃ n : Int32, v = .int n.toInt := by
  simp only [← readInt32_eq_ok]
  exact fits_integer ..

/-- Values of the right type and range are those of some settings. -/
theorem fits_iff (value : Setting → Json) :
    (∀ s ∈ settings, s.kind.Fits (value s)) ↔ ∃ c, ∀ s ∈ settings, s.value c = value s := by
  simp only [settings, List.forall_mem_cons, fits_text, fits_word32, fits_word64, fits_signed32]
  constructor
  · rintro ⟨⟨addr, isAddr⟩, ⟨baseUrl, isBaseUrl⟩, ⟨timeout, isTimeout⟩, ⟨acquire, isAcquire⟩,
      ⟨connections, isConnections⟩, ⟨statement, isStatement⟩, ⟨urlEnv, isUrlEnv⟩, ⟨limit, isLimit⟩,
      ⟨ceiling, isCeiling⟩, ⟨user, isUser⟩, ⟨base, isBase⟩, -⟩
    refine ⟨⟨⟨addr⟩, ⟨baseUrl, timeout⟩, ⟨urlEnv, connections, acquire, statement⟩,
      ⟨limit, ceiling⟩, ⟨user⟩, ⟨base⟩⟩, ?_⟩
    exact ⟨isAddr.symm, isBaseUrl.symm, isTimeout.symm, isAcquire.symm, isConnections.symm,
      isStatement.symm, isUrlEnv.symm, isLimit.symm, isCeiling.symm, isUser.symm, isBase.symm,
      List.forall_mem_nil _⟩
  · rintro ⟨c, isAddr, isBaseUrl, isTimeout, isAcquire, isConnections, isStatement, isUrlEnv,
      isLimit, isCeiling, isUser, isBase, -⟩
    exact ⟨⟨_, isAddr.symm⟩, ⟨_, isBaseUrl.symm⟩, ⟨_, isTimeout.symm⟩, ⟨_, isAcquire.symm⟩,
      ⟨_, isConnections.symm⟩, ⟨_, isStatement.symm⟩, ⟨_, isUrlEnv.symm⟩, ⟨_, isLimit.symm⟩,
      ⟨_, isCeiling.symm⟩, ⟨_, isUser.symm⟩, ⟨_, isBase.symm⟩, List.forall_mem_nil _⟩

theorem fits_value (c : Config) : ∀ s ∈ settings, s.kind.Fits (s.value c) :=
  (fits_iff fun s => s.value c).mpr ⟨c, fun _ _ => rfl⟩

theorem exists_laid {c : Config} {m : Json} : (∃ c', Laid c m c') ↔
    ∀ s ∈ settings, ∀ v, m.under? s.keys = some v → s.kind.Fits v := by
  unfold Laid
  rw [← fits_iff]
  refine forall₂_congr fun s setting => ?_
  cases m.under? s.keys with
  | none => simpa using fits_value c s setting
  | some v => simp

/-! ### What an overlay comes to -/

theorem sectioned_empty : Sectioned (.obj []) := ⟨rfl, fun _ _ v found => by cases found⟩

theorem sectioned_json (c : Config) : Sectioned c.json where
  object := rfl
  parts := by
    simp only [settings, List.forall_mem_cons]
    refine ⟨?_, ?_, ?_, ?_, ?_, ?_, ?_, ?_, ?_, ?_, ?_, List.forall_mem_nil _⟩
    all_goals rintro v ⟨⟩; rfl

theorem under?_json (c : Config) : ∀ s ∈ settings, c.json.under? s.keys = some (s.value c) := by
  refine (forall_settings (P := fun keys v => c.json.under? keys = some v)).mpr ?_
  intro p member e written
  obtain ⟨under, json, sections⟩ := json_members c
  rw [json, under?_object, sections p member, Option.bind_some, under?_single]
  exact ((lawful p member).written.sorted (p.get c)).find?_of_mem written

/-- What becomes of a document over written settings. -/
structure Overlaid (c : Config) (m : Json) : Prop where
  result : ∀ c', ofJson (merge c.json m) = .ok c' ↔ Laid c m c' ∧ c'.check = .ok ()
  unique : ∀ c₁ c₂, Laid c m c₁ → Laid c m c₂ → c₁ = c₂
  fits : (∃ c', Laid c m c') ↔ ∀ s ∈ settings, ∀ v, m.under? s.keys = some v → s.kind.Fits v
  succeeds : (∃ c', ofJson (merge c.json m) = .ok c') ↔
    (∀ s ∈ settings, ∀ v, m.under? s.keys = some v → s.kind.Fits v) ∧
      ∀ c', Laid c m c' → c'.check = .ok ()
  -- Nothing else in the document matters, for an error either.
  unknown : ∀ m', m'.Ordered → Sectioned m' →
    (∀ s ∈ settings, m'.under? s.keys = m.under? s.keys) →
    ofJson (merge c.json m') = ofJson (merge c.json m)
  nothing : ofJson (merge c.json (.obj [])) = .ok c
  everything : ∀ c', c'.check = .ok () → ofJson (merge c.json c'.json) = .ok c'

theorem ofJson_merge_eq_ok {c c' : Config} {m : Json} (ordered : m.Ordered)
    (sectioned : Sectioned m) :
    ofJson (merge c.json m) = .ok c' ↔ Laid c m c' ∧ c'.check = .ok () := by
  obtain ⟨members, merged⟩ := exists_merged (c := c) ordered sectioned
  rw [ofJson_eq_ok, merged.read_eq_ok, check_eq_ok]

theorem overlaid {c : Config} {m : Json} (valid : c.check = .ok ()) (ordered : m.Ordered)
    (sectioned : Sectioned m) : Overlaid c m := by
  obtain ⟨members, merged⟩ := exists_merged (c := c) ordered sectioned
  have unique : ∀ c₁ c₂, Laid c m c₁ → Laid c m c₂ → c₁ = c₂ := fun c₁ c₂ first second =>
    Except.ok.inj ((merged.read_eq_ok.mpr first).symm.trans (merged.read_eq_ok.mpr second))
  exact {
    result := fun c' => ofJson_merge_eq_ok ordered sectioned
    unique := unique
    fits := exists_laid
    succeeds := by
      rw [← exists_laid]
      simp only [ofJson_merge_eq_ok ordered sectioned]
      constructor
      · rintro ⟨c', laid, passed⟩
        exact ⟨⟨c', laid⟩, fun c'' other => unique c' c'' laid other ▸ passed⟩
      · rintro ⟨⟨c', laid⟩, passed⟩
        exact ⟨c', laid, passed c' laid⟩
    unknown := by
      intro m' ordered' sectioned' same
      obtain ⟨members', merged'⟩ := exists_merged (c := c) ordered' sectioned'
      have read : read (merge c.json m') = read (merge c.json m) := by
        rw [merged.merged, merged'.merged]
        refine read_congr merged'.ordered merged.ordered merged'.whole merged.whole ?_
        intro s setting
        rw [merged.values s setting, merged'.values s setting, same s setting]
      rw [ofJson, ofJson, read]
    nothing := by
      have empty : (Json.obj []).Ordered := ordered_obj.mpr ⟨Assoc.sorted_nil, by simp⟩
      exact (ofJson_merge_eq_ok empty sectioned_empty).mpr ⟨fun s _ => rfl, valid⟩
    everything := by
      intro c' valid'
      refine (ofJson_merge_eq_ok (ordered_json c') (sectioned_json c')).mpr ⟨?_, valid'⟩
      intro s setting
      rw [under?_json c' s setting, Option.getD_some] }

def chosen : Config := { standard with posts := ⟨20, 50⟩, principal := ⟨-7⟩ }

/-- The greatest number of connections, the least maximum that the default limit allows, and keys
that no setting has. -/
def narrow : Json :=
  .obj [("db", .obj [("max_connections", .nat 4294967295), ("pool", .null)]),
    ("posts", .obj [("max_limit", .nat 20)]), ("zone", .arr [.nat 1])]

/-- A maximum below the default limit, which is not in the document. -/
def tooNarrow : Json := .obj [("posts", .obj [("max_limit", .nat 19)])]

def tooMany : Json := .obj [("db", .obj [("max_connections", .nat 4294967296)])]

theorem overlaid_chosen :
    (Overlaid chosen narrow ∧ ofJson (merge chosen.json narrow) =
      .ok { chosen with
        db := { chosen.db with maxConnections := 4294967295 }, posts := ⟨20, 20⟩ }) ∧
    (Overlaid chosen tooNarrow ∧
      ofJson (merge chosen.json tooNarrow) = .error (.invalid (.defaultLimit 20 19))) ∧
    Overlaid chosen tooMany ∧ ∀ c, ofJson (merge chosen.json tooMany) ≠ .ok c := by
  have ordered : narrow.Ordered ∧ tooNarrow.Ordered ∧ tooMany.Ordered := by
    simp only [narrow, tooNarrow, tooMany, Ordered, OrderedMembers, OrderedItems,
      Assoc.sorted_keys, nat]
    decide
  refine ⟨⟨overlaid rfl ordered.1 (by decide), rfl⟩,
    ⟨overlaid rfl ordered.2.1 (by decide), rfl⟩, overlaid rfl ordered.2.2 (by decide), ?_⟩
  rintro c ⟨⟩

end Postboard.Config
