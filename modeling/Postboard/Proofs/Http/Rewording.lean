import Mathlib.Logic.Relation
import Postboard.Proofs.Http.Negotiation
import Postboard.Proofs.Text.Blank
import Postboard.Proofs.Text.Utf8

/-! `Accept` values that are written in another way ask for the same.

The grammar has four levels, and each has its own ways to say the same: values that follow one
another, entries between commas, pieces between semicolons, and the text of a piece. What counts in
the end is which media ranges of the classes are named, not where they stand and how often.
-/

set_option autoImplicit false

namespace Postboard.Http.Accept

open Text Number

def Spaces (cs : List Char) : Prop := ∀ c ∈ cs, c = ' ' ∨ c = '\t'

/-- The type at the front of an entry, in letters of another case or with more around it. -/
inductive TypeReworded : List Char → List Char → Prop where
  | case {type type' : List Char} : lowered type = lowered type' → TypeReworded type type'
  | padded {before after : List Char} (type : List Char) : Spaces before → Spaces after →
      TypeReworded type (before ++ type ++ after)

/-- A parameter of an entry, with its name in letters of another case, or with more around it or
around one of its equals signs. -/
inductive ParamReworded : List Char → List Char → Prop where
  | named {name name' : List Char} (text : List Char) : '=' ∉ name → lowered name = lowered name' →
      ParamReworded (name ++ '=' :: text) (name' ++ '=' :: text)
  | bare {name name' : List Char} : '=' ∉ name → lowered name = lowered name' →
      ParamReworded name name'
  | padded {before after : List Char} (param : List Char) : Spaces before → Spaces after →
      ParamReworded param (before ++ param ++ after)
  | equals {before after : List Char} (front back : List Char) : Spaces before → Spaces after →
      ParamReworded (front ++ '=' :: back) (front ++ before ++ '=' :: (after ++ back))

/-- The pieces of an entry, one of them written in another way. What stands around the entry or
around a semicolon is at the ends of the pieces. -/
inductive PiecesReworded : List (List Char) → List (List Char) → Prop where
  | type {type type' : List Char} (params : List (List Char)) : TypeReworded type type' →
      PiecesReworded (type :: params) (type' :: params)
  | param {param param' : List Char} (type : List Char) (front back : List (List Char)) :
      ParamReworded param param' →
      PiecesReworded (type :: (front ++ param :: back)) (type :: (front ++ param' :: back))

/-- The type of an entry is none of the classes that a stream belongs to. -/
def Unrelated (entry : List Char) : Prop :=
  String.ofList (lowered (trim (entry.takeWhile fun c => c != ';'))) ∉ classes

instance (entry : List Char) : Decidable (Unrelated entry) :=
  inferInstanceAs (Decidable (_ ∉ classes))

/-- The entries of a value: in another order, with one written in another way, or with one more that
is of no concern. -/
inductive EntriesReworded : List (List Char) → List (List Char) → Prop where
  | order {entries entries' : List (List Char)} : entries.Perm entries' →
      EntriesReworded entries entries'
  | entry {entry entry' : List Char} {pieces pieces' : List (List Char)}
      (front back : List (List Char)) : entry.splitOn ';' = pieces →
      entry'.splitOn ';' = pieces' → PiecesReworded pieces pieces' →
      EntriesReworded (front ++ entry :: back) (front ++ entry' :: back)
  | more {entry : List Char} (front back : List (List Char)) : Unrelated entry →
      EntriesReworded (front ++ back) (front ++ entry :: back)

/-- Values: in another order, with two of them joined by a comma, with one written in another way,
or with one more that is a single entry of no concern. -/
inductive Reworded : List (List Char) → List (List Char) → Prop where
  | order {values values' : List (List Char)} : values.Perm values' → Reworded values values'
  | joined (a b : List Char) (values : List (List Char)) :
      Reworded (a :: b :: values) ((a ++ ',' :: b) :: values)
  | value {value value' : List Char} {entries entries' : List (List Char)}
      (values : List (List Char)) : value.splitOn ',' = entries →
      value'.splitOn ',' = entries' → EntriesReworded entries entries' →
      Reworded (value :: values) (value' :: values)
  | more {entry : List Char} (values : List (List Char)) : ',' ∉ entry → Unrelated entry →
      Reworded values (entry :: values)

/-! ### Texts -/

theorem Spaces.blank {cs : List Char} (spaces : Spaces cs) : ∀ c ∈ cs, isBlank c = true := by
  intro c member
  rcases spaces c member with rfl | rfl <;> rfl

theorem Spaces.free {cs : List Char} (spaces : Spaces cs) : '=' ∉ cs := by
  intro member
  rcases spaces _ member with same | same <;> cases same

theorem spaces_nil : Spaces [] := fun _ member => nomatch member

theorem trim_spaces {before after : List Char} (front : Spaces before) (back : Spaces after)
    (cs : List Char) : trim (before ++ cs ++ after) = trim cs :=
  trim_blanks front.blank back.blank cs

theorem lower_cases (c : Char) : lower c = c ∨
    65 ≤ c.toNat ∧ c.toNat ≤ 90 ∧ (lower c).toNat = c.toNat + 32 := by
  unfold lower
  split
  next upper =>
    simp only [Bool.and_eq_true, decide_eq_true_eq] at upper
    exact .inr ⟨upper.1, upper.2, Utf8.toNat_ofNat (by omega)⟩
  next => exact .inl rfl

theorem isBlank_lower (c : Char) : isBlank (lower c) = isBlank c := by
  rcases lower_cases c with same | ⟨low, high, code⟩
  · rw [same]
  · rw [isBlank_visible (by omega) (by omega), isBlank_visible (by omega) (by omega)]

theorem lowered_trim (cs : List Char) : lowered (trim cs) = trim (lowered cs) := by
  have same : isBlank ∘ lower = isBlank := funext isBlank_lower
  simp only [trim, dropWhileEnd, lowered, List.dropWhile_map, same, ← List.map_reverse]

theorem lower_equals {c : Char} (equals : lower c = '=') : c = '=' := by
  rcases lower_cases c with same | ⟨low, high, code⟩
  · rw [← same, equals]
  · have sign : '='.toNat = 61 := rfl
    rw [equals] at code
    omega

theorem equals_mem_lowered {cs : List Char} : '=' ∈ lowered cs ↔ '=' ∈ cs := by
  simp only [lowered, List.mem_map]
  constructor
  · rintro ⟨c, member, same⟩
    exact lower_equals same ▸ member
  · exact fun member => ⟨'=', member, rfl⟩

theorem equals_mem_trim {cs : List Char} (member : '=' ∈ cs) : '=' ∈ trim cs := by
  obtain ⟨before, after, split, front, back⟩ := exists_padding cs
  rw [split] at member
  have visible : isBlank '=' ≠ true := by decide
  simp only [List.mem_append] at member
  rcases member with (first | inside) | last
  · exact absurd (front _ first) visible
  · exact inside
  · exact absurd (back _ last) visible

/-! ### Numbers hold no equals sign -/

theorem free_natOf? {cs : List Char} {n : Nat} (read : Decimal.natOf? cs = some n) : '=' ∉ cs := by
  unfold Decimal.natOf? at read
  split at read
  next digits =>
    simp only [Bool.and_eq_true, List.all_eq_true] at digits
    exact fun member => absurd (digits.2 '=' member) (by decide)
  next => cases read

theorem free_intOf? {cs : List Char} {n : Int} (read : Decimal.intOf? cs = some n) : '=' ∉ cs := by
  unfold Decimal.intOf? at read
  split at read
  all_goals
    obtain ⟨_, number, -⟩ := Option.map_eq_some_iff.mp read
    obtain ⟨_, digits, -⟩ := Option.bind_eq_some_iff.mp number
    simpa using free_natOf? digits

theorem free_exponentOf? {cs : List Char} {e : Int} (read : Scientific.exponentOf? cs = some e) :
    '=' ∉ cs := by
  unfold Scientific.exponentOf? at read
  split at read
  · simp
  next c rest =>
    split at read
    next mark =>
      refine List.not_mem_cons_of_ne_of_not_mem ?_ (free_intOf? read)
      rintro rfl
      exact absurd mark (by decide)
    next => cases read

theorem free_digits {cs : List Char} (rest : '=' ∉ cs.dropWhile isDigit) : '=' ∉ cs := by
  intro member
  rw [← List.takeWhile_append_dropWhile (p := isDigit) (l := cs)] at member
  rcases List.mem_append.mp member with digit | other
  · exact absurd (List.mem_takeWhile_imp digit) (by decide)
  · exact rest other

theorem free_unsignedOf? {negative : Bool} {cs : List Char} {s : Scientific}
    (read : Scientific.unsignedOf? negative cs = some s) : '=' ∉ cs := by
  apply free_digits
  unfold Scientific.unsignedOf? at read
  dsimp only at read
  split at read
  next r point =>
    split at read
    · cases read
    obtain ⟨e, exponent, -⟩ := Option.map_eq_some_iff.mp read
    rw [point]
    exact List.not_mem_cons_of_ne_of_not_mem (by decide) (free_digits (free_exponentOf? exponent))
  next =>
    split at read
    · cases read
    obtain ⟨e, exponent, -⟩ := Option.map_eq_some_iff.mp read
    exact free_exponentOf? exponent

theorem free_read? {cs : List Char} {s : Scientific} (read : Scientific.read? cs = some s) :
    '=' ∉ cs := by
  unfold Scientific.read? at read
  split at read
  all_goals simpa using free_unsignedOf? read

theorem read?_equals {cs : List Char} (member : '=' ∈ cs) : Weight.read? (trim cs) = none := by
  cases read : Weight.read? (trim cs) with
  | none => rfl
  | some w =>
    obtain ⟨s, parsed, -⟩ := (Weight.read?_eq_some.mp read).nearest
    exact absurd (equals_mem_trim member) (free_read? parsed)

/-! ### Pieces -/

theorem TypeReworded.lowered_trim_eq {type type' : List Char} (reworded : TypeReworded type type') :
    lowered (trim type) = lowered (trim type') := by
  cases reworded with
  | case same => rw [lowered_trim, lowered_trim, same]
  | padded _ front back => rw [trim_spaces front back]

theorem weightParam?_bare {param : List Char} (free : '=' ∉ param) : weightParam? param = none :=
  weightParam?_other fun text ⟨name, _, split, _⟩ => free (by simp [split])

/-- What a parameter with an equals sign says depends on its trimmed name and value. -/
theorem weightParam?_named {name : List Char} (free : '=' ∉ name) (text : List Char) :
    weightParam? (name ++ '=' :: text) =
      if lowered (trim name) = ['q'] then some (Weight.read? (trim text)) else none := by
  have cut := cutFirst_eq_some.mpr ⟨free, (rfl : name ++ '=' :: text = name ++ '=' :: text)⟩
  rw [weightParam?, cut]

theorem weightParam?_congr {name name' text text' : List Char} (free : '=' ∉ name)
    (free' : '=' ∉ name') (same : lowered (trim name) = lowered (trim name'))
    (read : Weight.read? (trim text) = Weight.read? (trim text')) :
    weightParam? (name ++ '=' :: text) = weightParam? (name' ++ '=' :: text') := by
  rw [weightParam?_named free, weightParam?_named free', same, read]

theorem ParamReworded.weightParam?_eq {param param' : List Char}
    (reworded : ParamReworded param param') : weightParam? param = weightParam? param' := by
  cases reworded with
  | @named name name' text free same =>
    have free' : '=' ∉ name' := by rwa [← equals_mem_lowered, ← same, equals_mem_lowered]
    exact weightParam?_congr free free' (by rw [lowered_trim, lowered_trim, same]) rfl
  | bare free same =>
    have free' : '=' ∉ param' := by rwa [← equals_mem_lowered, ← same, equals_mem_lowered]
    rw [weightParam?_bare free, weightParam?_bare free']
  | @padded before after _ front back =>
    cases cut : cutFirst '=' param with
    | none =>
      have free := cutFirst_eq_none.mp cut
      have free' : '=' ∉ before ++ param ++ after := by simp [front.free, free, back.free]
      rw [weightParam?_bare free, weightParam?_bare free']
    | some parts =>
      obtain ⟨free, split⟩ := cutFirst_eq_some.mp cut
      have whole : before ++ param ++ after =
          (before ++ parts.1) ++ '=' :: (parts.2 ++ after) := by simp [split]
      have name : trim (before ++ parts.1) = trim parts.1 := by
        simpa using trim_spaces front spaces_nil parts.1
      have text : trim (parts.2 ++ after) = trim parts.2 := trim_spaces spaces_nil back parts.2
      rw [whole, split]
      exact weightParam?_congr free (by simp [front.free, free]) (by rw [name]) (by rw [text])
  | @equals before after front back left right =>
    cases cut : cutFirst '=' front with
    | none =>
      -- It is the first equals sign, so the spaces are at ends of the name and of the value.
      have free := cutFirst_eq_none.mp cut
      have name : trim (front ++ before) = trim front := trim_spaces spaces_nil left front
      have text : trim (after ++ back) = trim back := by
        simpa using trim_spaces right spaces_nil back
      exact weightParam?_congr free (by simp [free, left.free]) (by rw [name]) (by rw [text])
    | some parts =>
      -- It is a later one, and no number has an equals sign.
      obtain ⟨free, split⟩ := cutFirst_eq_some.mp cut
      rw [split, List.append_assoc, List.append_assoc, List.append_assoc, List.cons_append,
        List.cons_append]
      refine weightParam?_congr free free rfl ?_
      rw [read?_equals (by simp), read?_equals (by simp)]

theorem entryWeight?_congr {param param' : List Char}
    (same : weightParam? param = weightParam? param') (front back : List (List Char)) :
    entryWeight? (front ++ param :: back) = entryWeight? (front ++ param' :: back) := by
  simp only [entryWeight?, List.foldl_append, List.foldl_cons, same]

theorem entry?_of_pieces {entry type : List Char} {params : List (List Char)}
    (pieces : entry.splitOn ';' = type :: params) :
    entry? entry = if (lowered (trim type)).contains '/' then
      (entryWeight? params).map fun w => ⟨String.ofList (lowered (trim type)), w⟩ else none := by
  simp only [splitAt_eq_splitOn, pieces, entry?]

theorem PiecesReworded.entry_eq {entry entry' : List Char} {pieces pieces' : List (List Char)}
    (reworded : PiecesReworded pieces pieces') (here : entry.splitOn ';' = pieces)
    (there : entry'.splitOn ';' = pieces') : entry? entry = entry? entry' := by
  cases reworded with
  | type params type =>
    rw [entry?_of_pieces here, entry?_of_pieces there, type.lowered_trim_eq]
  | param type front back param =>
    rw [entry?_of_pieces here, entry?_of_pieces there,
      entryWeight?_congr param.weightParam?_eq front back]

/-! ### Entries and values -/

theorem Unrelated.not_mem_classes {entry : List Char} (unrelated : Unrelated entry) {r : MediaRange}
    (kept : entry? entry = some r) : r.essence ∉ classes := by
  have named := (entry?_eq_some.mp kept).named
  rwa [Unrelated, ← named, String.ofList_toList] at unrelated

theorem EntriesReworded.mem_iff {entries entries' : List (List Char)}
    (reworded : EntriesReworded entries entries') {r : MediaRange} (kind : r.essence ∈ classes) :
    r ∈ entries.filterMap entry? ↔ r ∈ entries'.filterMap entry? := by
  cases reworded with
  | order same => exact (same.filterMap entry?).mem_iff
  | entry front back here there pieces =>
    simp only [List.filterMap_append, List.filterMap_cons, pieces.entry_eq here there]
  | @more entry front back unrelated =>
    cases kept : entry? entry with
    | none => simp [kept]
    | some s =>
      have other : r ≠ s := fun same => unrelated.not_mem_classes kept (same ▸ kind)
      simp [kept, other]

theorem ranges_eq (value : List Char) : ranges value = (value.splitOn ',').filterMap entry? := by
  rw [ranges, splitAt_eq_splitOn]

theorem splitOn_of_free {sep : Char} {cs : List Char} (free : sep ∉ cs) : cs.splitOn sep = [cs] :=
  (splitOn_eq_iff (List.cons_ne_nil _ _)).mpr ⟨by simpa using free, by simp⟩

theorem ranges_joined (a b : List Char) : ranges (a ++ ',' :: b) = ranges a ++ ranges b := by
  simp only [ranges_eq, List.splitOn_append_cons_self, List.filterMap_append]

theorem ranges_single {entry : List Char} (free : ',' ∉ entry) :
    ranges entry = [entry].filterMap entry? := by
  rw [ranges_eq, splitOn_of_free free]

theorem Reworded.mem_iff {values values' : List (List Char)} (reworded : Reworded values values')
    {r : MediaRange} (kind : r.essence ∈ classes) :
    r ∈ values.flatMap ranges ↔ r ∈ values'.flatMap ranges := by
  cases reworded with
  | order same => exact (same.flatMap_right ranges).mem_iff
  | joined a b values =>
    simp only [List.flatMap_cons, ranges_joined, List.append_assoc]
  | value values here there entries =>
    simp only [List.flatMap_cons, List.mem_append, ranges_eq, here, there, entries.mem_iff kind]
  | @more entry values whole unrelated =>
    have absent : r ∉ ranges entry := by
      rw [ranges_single whole]
      exact fun member =>
        List.not_mem_nil (((EntriesReworded.more [] [] unrelated).mem_iff kind).mpr member)
    simp [absent]

theorem mem_iff_of_reworded {values values' : List (List Char)}
    (reworded : Relation.EqvGen Reworded values values') {r : MediaRange}
    (kind : r.essence ∈ classes) : r ∈ values.flatMap ranges ↔ r ∈ values'.flatMap ranges := by
  induction reworded with
  | rel _ _ step => exact step.mem_iff kind
  | refl => rfl
  | symm _ _ _ same => exact same.symm
  | trans _ _ _ _ _ first second => exact first.trans second

/-! ### The mode -/

theorem allRanges_eq {values : List (List UInt8)} (readable : ∀ v ∈ values, Readable v) :
    allRanges values = (values.map text).flatMap ranges := by
  have all : values.filter isReadable = values :=
    List.filter_eq_self.mpr fun v member => isReadable_iff.mpr (readable v member)
  rw [allRanges, all, List.flatMap_map]
  exact List.flatMap_congr fun v member => by rw [(readable v member).repair]

theorem stream_of_offered {values values' : List (List UInt8)}
    (same : ∀ c ∈ classes, ∀ w, Offered values c w ↔ Offered values' c w)
    (stream : mode values = .stream) : mode values' = .stream := by
  rw [stream_iff] at stream ⊢
  obtain ⟨before, essence, after, split, none, ⟨w, offered⟩, positive⟩ := stream
  have here : essence ∈ classes := by simp [split]
  refine ⟨before, essence, after, split, ?_, ⟨w, (same essence here w).mp offered⟩, ?_⟩
  · intro b member v offered
    exact none b member v ((same b (by simp [split, member]) v).mpr offered)
  · exact fun v offered => positive v ((same essence here v).mpr offered)

theorem mode_congr {values values' : List (List UInt8)}
    (same : ∀ c ∈ classes, ∀ w, Offered values c w ↔ Offered values' c w) :
    mode values = mode values' := by
  have stream : mode values = .stream ↔ mode values' = .stream :=
    ⟨stream_of_offered same, stream_of_offered fun c kind w => (same c kind w).symm⟩
  cases here : mode values <;> cases there : mode values' <;> simp_all

/-- Values that are reworded, in any number of steps and in both directions, ask for the same; and
a value names the media ranges of its entries, one after another. -/
theorem mode_reworded {values values' : List (List UInt8)} (readable : ∀ v ∈ values, Readable v)
    (readable' : ∀ v ∈ values', Readable v)
    (reworded : Relation.EqvGen Reworded (values.map text) (values'.map text)) :
    mode values = mode values' ∧ (∀ a b, ranges (a ++ ',' :: b) = ranges a ++ ranges b) ∧
      ∀ entry, ',' ∉ entry → ranges entry = [entry].filterMap entry? := by
  refine ⟨mode_congr fun c kind w => ?_, ranges_joined, fun entry free => ranges_single free⟩
  have same := mem_iff_of_reworded reworded (r := ⟨c, w⟩) kind
  rwa [← allRanges_eq readable, ← allRanges_eq readable', mem_allRanges, mem_allRanges] at same

instance (value : List UInt8) : Decidable (Readable value) :=
  decidable_of_iff _ isReadable_iff

def plainValues : List (List UInt8) := ["text/*;q=1", "*/*;q=0"].map Utf8.bytes

def motleyValues : List (List UInt8) :=
  ["c/d", "*/*;q=0,a/b,TEXT/*; Q\t= 1"].map Utf8.bytes

theorem Reworded.alone {entry entry' : List Char} {pieces pieces' : List (List Char)}
    (values : List (List Char)) (free : ',' ∉ entry) (free' : ',' ∉ entry')
    (here : entry.splitOn ';' = pieces) (there : entry'.splitOn ';' = pieces')
    (reworded : PiecesReworded pieces pieces') : Reworded (entry :: values) (entry' :: values) :=
  .value values (splitOn_of_free free) (splitOn_of_free free') (.entry [] [] here there reworded)

theorem reworded_plain :
    Relation.EqvGen Reworded (plainValues.map text) (motleyValues.map text) := by
  have cased : Reworded (["text/*;q=1", "*/*;q=0"].map String.toList)
      (["TEXT/*;q=1", "*/*;q=0"].map String.toList) :=
    .alone _ (by decide) (by decide)
      (by decide : _ = ["text/*", "q=1"].map String.toList)
      (by decide : _ = ["TEXT/*", "q=1"].map String.toList)
      (.type _ (.case (by decide)))
  have named : Reworded (["TEXT/*;q=1", "*/*;q=0"].map String.toList)
      (["TEXT/*;Q=1", "*/*;q=0"].map String.toList) :=
    .alone _ (by decide) (by decide)
      (by decide : _ = ["TEXT/*", "q=1"].map String.toList)
      (by decide : _ = ["TEXT/*", "Q=1"].map String.toList)
      (.param _ [] [] (.named "1".toList (by decide : '=' ∉ ['q'])
        (by decide : _ = lowered ['Q'])))
  have spaced : Reworded (["TEXT/*;Q=1", "*/*;q=0"].map String.toList)
      (["TEXT/*;Q\t= 1", "*/*;q=0"].map String.toList) :=
    .alone _ (by decide) (by decide)
      (by decide : _ = ["TEXT/*", "Q=1"].map String.toList)
      (by decide : _ = ["TEXT/*", "Q\t= 1"].map String.toList)
      (.param _ [] [] (.equals ['Q'] "1".toList (by simp [Spaces] : Spaces ['\t'])
        (by simp [Spaces] : Spaces [' '])))
  have padded : Reworded (["TEXT/*;Q\t= 1", "*/*;q=0"].map String.toList)
      (["TEXT/*; Q\t= 1", "*/*;q=0"].map String.toList) :=
    .alone _ (by decide) (by decide)
      (by decide : _ = ["TEXT/*", "Q\t= 1"].map String.toList)
      (by decide : _ = ["TEXT/*", " Q\t= 1"].map String.toList)
      (.param _ [] [] (.padded "Q\t= 1".toList (by simp [Spaces] : Spaces [' ']) spaces_nil))
  have turned : Reworded (["TEXT/*; Q\t= 1", "*/*;q=0"].map String.toList)
      (["*/*;q=0", "TEXT/*; Q\t= 1"].map String.toList) := .order (.swap _ _ _)
  have joined : Reworded (["*/*;q=0", "TEXT/*; Q\t= 1"].map String.toList)
      (["*/*;q=0,TEXT/*; Q\t= 1"].map String.toList) := .joined _ _ _
  have entry : Reworded (["*/*;q=0,TEXT/*; Q\t= 1"].map String.toList)
      (["*/*;q=0,a/b,TEXT/*; Q\t= 1"].map String.toList) :=
    .value [] (by decide : _ = ["*/*;q=0".toList] ++ ["TEXT/*; Q\t= 1".toList])
      (by decide : _ = ["*/*;q=0".toList] ++
        "a/b".toList :: ["TEXT/*; Q\t= 1".toList])
      (.more _ _ (by decide))
  have value : Reworded (["*/*;q=0,a/b,TEXT/*; Q\t= 1"].map String.toList)
      (["c/d", "*/*;q=0,a/b,TEXT/*; Q\t= 1"].map String.toList) :=
    .more _ (by decide) (by decide)
  have front := ((Relation.EqvGen.rel _ _ cased).trans _ _ _ (.rel _ _ named)).trans _ _ _
    ((Relation.EqvGen.rel _ _ spaced).trans _ _ _ (.rel _ _ padded))
  have back := ((Relation.EqvGen.rel _ _ turned).trans _ _ _ (.rel _ _ joined)).trans _ _ _
    ((Relation.EqvGen.rel _ _ entry).trans _ _ _ (.rel _ _ value))
  exact front.trans _ _ _ back

theorem mode_reworded_plain :
    Relation.EqvGen Reworded (plainValues.map text) (motleyValues.map text) ∧
    mode plainValues = mode motleyValues ∧ mode motleyValues = .stream ∧
    ranges "a/b,c".toList = ranges "a/b".toList ++ ranges "c".toList := by
  obtain ⟨same, joined, -⟩ := mode_reworded (by decide) (by decide) reworded_plain
  exact ⟨reworded_plain, same, by rfl, joined "a/b".toList "c".toList⟩

end Postboard.Http.Accept
