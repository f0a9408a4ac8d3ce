import Postboard.Proofs.Config.Layering
import Postboard.Proofs.Config.SecretScan
import Postboard.Proofs.Text.Blank
import Postboard.Proofs.Text.Infix

/-! Which documents are refused for a secret, and what the failure gives away.

Only the merged value is scanned, so a secret counts when no later document replaces it. The failure
names the place of the first one; what it repeats from the documents are keys.
-/

set_option autoImplicit false

namespace Postboard.Config

open Json Text

/-! ### Secrets that last -/

theorem secretAt_below {v w : Json} {keys : List String} (plain : v.PlainAt keys w) (p : Path) :
    SecretAt v (keys.map Step.key ++ p) ↔ SecretAt w p := by
  have reached : v.at? (keys.map Step.key) = some w := plain.1
  simp only [SecretAt, at?_append, reached, Option.bind_some]

/-- The way to a secret leads through objects to a value that is none. -/
theorem SecretAt.plainAt {v : Json} {q : Path} (secret : SecretAt v q) :
    ∃ keys p w, q = keys.map Step.key ++ p ∧ v.PlainAt keys w ∧ SecretAt w p := by
  induction q generalizing v with
  | nil =>
    obtain ⟨s, reached, looks⟩ := secret
    obtain rfl : v = .str s := Option.some.inj reached
    exact ⟨[], [], _, rfl, plainAt_nil.mpr ⟨rfl, rfl⟩, s, rfl, looks⟩
  | cons step rest ih =>
    rcases object_or_plain v with ⟨members, rfl⟩ | plain
    · obtain ⟨s, reached, looks⟩ := secret
      obtain ⟨w, down, below⟩ := Option.bind_eq_some_iff.mp reached
      cases step with
      | index i => cases down
      | key k =>
        obtain ⟨keys, p, x, rfl, stands, secret⟩ := ih ⟨s, below, looks⟩
        exact ⟨k :: keys, p, x, rfl, plainAt_object.mpr ⟨w, down, stands⟩, secret⟩
    · exact ⟨[], step :: rest, v, rfl, plainAt_nil.mpr ⟨rfl, plain⟩, secret⟩

/-- Some document has a value with a secret inside under some keys, and no later one speaks about
the place. -/
def LastingSecret (documents : List (Option Json)) (keys : List String) (p : Path) : Prop :=
  ∃ w, LastWord (Speaks keys) (Says keys w) documents ∧ SecretAt w p

theorem secretAt_merged {documents : List (Option Json)}
    (ordered : ∀ v, some v ∈ documents → v.Ordered) {q : Path} :
    SecretAt (merged documents) q ↔
      ∃ keys p, q = keys.map Step.key ++ p ∧ LastingSecret documents keys p := by
  constructor
  · intro secret
    obtain ⟨keys, p, w, rfl, plain, inside⟩ := secret.plainAt
    exact ⟨keys, p, rfl, w, (plainAt_merged ordered).mp plain, inside⟩
  · rintro ⟨keys, p, rfl, w, word, inside⟩
    exact (secretAt_below ((plainAt_merged ordered).mpr word) p).mpr inside

/-! ### Keys in pointers -/

theorem prefix_escape {x k : List Char} (plain : '~' ∉ x) (front : x <+: Pointer.escape k) :
    x <+: k := by
  induction k generalizing x with
  | nil => exact front
  | cons c k ih =>
    cases x with
    | nil => exact List.nil_prefix
    | cons d x =>
      rw [List.mem_cons, not_or] at plain
      rw [Pointer.escape, List.flatMap_cons, ← Pointer.escape] at front
      split at front
      next => exact absurd (List.cons_prefix_cons.mp front).1.symm plain.1
      next =>
        split at front
        next => exact absurd (List.cons_prefix_cons.mp front).1.symm plain.1
        next =>
          obtain ⟨rfl, rest⟩ := List.cons_prefix_cons.mp front
          exact List.cons_prefix_cons.mpr ⟨rfl, ih plain.2 rest⟩

/-- A text without parts of an escape stands in the key itself. -/
theorem infix_escape {d : Char} {x k : List Char} (plain : '~' ∉ d :: x) (notZero : d ≠ '0')
    (notOne : d ≠ '1') (inside : d :: x <:+: Pointer.escape k) : d :: x <:+: k := by
  induction k with
  | nil => exact inside
  | cons c k ih =>
    rw [List.mem_cons, not_or] at plain
    rw [Pointer.escape, List.flatMap_cons, ← Pointer.escape] at inside
    -- An escape has two characters, and the text begins with neither.
    have pair {e : Char} (other : d ≠ e) (inside : d :: x <:+: ['~', e] ++ Pointer.escape k) :
        d :: x <:+: c :: k := by
      rcases List.infix_cons_iff.mp inside with front | later
      · exact absurd (List.cons_prefix_cons.mp front).1.symm plain.1
      · rcases List.infix_cons_iff.mp later with front | later
        · exact absurd (List.cons_prefix_cons.mp front).1 other
        · exact List.infix_cons (ih later)
    split at inside
    next => exact pair notZero inside
    next =>
      split at inside
      next => exact pair notOne inside
      next =>
        rcases List.infix_cons_iff.mp inside with front | later
        · obtain ⟨rfl, rest⟩ := List.cons_prefix_cons.mp front
          exact (List.cons_prefix_cons.mpr ⟨rfl, prefix_escape plain.2 rest⟩).isInfix
        · exact List.infix_cons (ih later)

/-- What stands in a pointer without a slash stands in one of its tokens. -/
theorem infix_pointer {x : List Char} (some : x ≠ []) (noSlash : '/' ∉ x) {q : Path}
    (inside : x <:+: pointer q) : ∃ step ∈ q, x <:+: step.token := by
  induction q with
  | nil => exact absurd (List.infix_nil.mp inside) some
  | cons step q ih =>
    have later (inside : x <:+: pointer q) : ∃ step' ∈ step :: q, x <:+: step'.token := by
      obtain ⟨step', member, here⟩ := ih inside
      exact ⟨step', List.mem_cons_of_mem _ member, here⟩
    rcases infix_split (u := []) (w := step.token ++ pointer q) noSlash inside with none | inside
    · exact absurd (List.infix_nil.mp none) some
    · cases q with
      | nil => exact ⟨step, List.mem_cons_self, by simpa [pointer] using inside⟩
      | cons step' q =>
        rw [pointer_cons] at inside
        rcases infix_split noSlash inside with here | after
        · exact ⟨step, List.mem_cons_self, here⟩
        · exact later (pointer_cons step' q ▸ List.infix_cons after)

/-! ### What gives secrets away -/

def Error.texts (e : Error) : List String := e.message :: e.cause?.toList

/-- A key has a part of what makes a text look like a secret. -/
def Marked (k : String) : Prop :=
  '@' ∈ k.toList ∨ ∃ start ∈ secretStarts, start.toList <:+: k.toList

theorem afterFirst_suffix {pattern cs rest : List Char}
    (after : afterFirst pattern cs = some rest) : rest <:+ cs := by
  induction cs with
  | nil => cases after
  | cons c cs ih =>
    rw [afterFirst] at after
    split at after
    next => exact Option.some.inj after ▸ List.drop_suffix _ _
    next => exact (ih after).trans (List.suffix_cons c cs)

theorem mem_of_hasPassword {cs : List Char} (password : hasPassword cs = true) : '@' ∈ cs := by
  unfold hasPassword at password
  split at password
  next => cases password
  next rest after =>
    simp only at password
    split at password
    next => cases password
    next front user cut =>
      have authority : '@' ∈ (rest.takeWhile fun c => c != '/').reverse := by
        rw [(cutFirst_eq_some.mp cut).2]
        simp
      have inRest := (List.takeWhile_sublist _).subset (List.mem_reverse.mp authority)
      exact (afterFirst_suffix after).subset inRest

/-- What looks like a secret has one of the beginnings or an at sign in it. -/
theorem marked_of_looksSecret {s : String} (looks : looksSecret s = true) : Marked s := by
  obtain ⟨before, after, whole, -⟩ := exists_padding s.toList
  have inside : trim s.toList <:+: s.toList := ⟨before, after, whole.symm⟩
  rcases Bool.or_eq_true_iff.mp looks with key | password
  · obtain ⟨start, member, front⟩ := List.any_eq_true.mp (Bool.and_eq_true_iff.mp key).1
    exact .inr ⟨start, member, (List.isPrefixOf_iff_prefix.mp front).isInfix.trans inside⟩
  · exact .inl (inside.subset (mem_of_hasPassword password))

/-- The beginnings of secrets have nothing of what pointers and messages add to keys. -/
theorem start_plain : ∀ start ∈ secretStarts, ∃ d x, start.toList = d :: x ∧
    '~' ∉ d :: x ∧ '/' ∉ d :: x ∧ '=' ∉ d :: x ∧ ' ' ∉ d :: x ∧ isDigit d = false ∧
    d ∉ "CONFIG_SECRET_DETECTED leaf".toList ∧ d ∉ "value=REDACTED".toList := by
  simp only [secretStarts, List.forall_mem_cons]
  refine ⟨⟨_, _, rfl, ?_⟩, ⟨_, _, rfl, ?_⟩, ⟨_, _, rfl, ?_⟩, ⟨_, _, rfl, ?_⟩, List.forall_mem_nil _⟩
  all_goals decide

theorem at_of_token {step : Step} (mark : '@' ∈ step.token) : ∃ k, step = .key k ∧ '@' ∈ k.toList := by
  cases step with
  | index i => exact absurd (List.all_eq_true.mp (Decimal.isDigit_digits i) _ mark) (by decide)
  | key k =>
    obtain ⟨c, member, here⟩ := List.mem_flatMap.mp mark
    have same : c = '@' := by grind
    exact ⟨k, rfl, same ▸ member⟩

theorem start_of_token {step : Step} {d : Char} {x : List Char} (noEscape : '~' ∉ d :: x)
    (noDigit : isDigit d = false) (inside : d :: x <:+: step.token) :
    ∃ k, step = .key k ∧ d :: x <:+: k.toList := by
  cases step with
  | index i =>
    have digit := List.all_eq_true.mp (Decimal.isDigit_digits i) d (inside.subset (by simp))
    rw [noDigit] at digit
    cases digit
  | key k =>
    refine ⟨k, rfl, infix_escape noEscape ?_ ?_ inside⟩
    · rintro rfl
      cases noDigit
    · rintro rfl
      cases noDigit

theorem message_secret (ptr : List Char) : (Error.secret (String.ofList ptr)).message.toList =
    "CONFIG_SECRET_DETECTED leaf".toList ++ '=' :: (ptr ++ ' ' :: "value=REDACTED".toList) := by
  have front : "CONFIG_SECRET_DETECTED leaf=".toList =
      "CONFIG_SECRET_DETECTED leaf".toList ++ ['='] := by decide
  have back : " value=REDACTED".toList = ' ' :: "value=REDACTED".toList := by decide
  have wording : (Error.secret (String.ofList ptr)).message =
      "CONFIG_SECRET_DETECTED leaf=" ++ String.ofList ptr ++ " value=REDACTED" := rfl
  have named : (String.ofList ptr).toList = ptr := String.toList_ofList
  rw [wording, String.toList_append, String.toList_append, front, back, named, List.append_assoc,
    List.append_assoc, List.singleton_append]

/-- Where a message repeats what marks a secret, a key on the way has it. -/
theorem marked_key {q : Path} {s : String} (marked : Marked s)
    (inside : s.toList <:+: (Error.secret (String.ofList (pointer q))).message.toList) :
    ∃ k, Step.key k ∈ q ∧ Marked k := by
  rw [message_secret] at inside
  -- The wording around the pointer has neither the sign nor the first character of a beginning.
  rcases marked with sign | ⟨start, known, here⟩
  · have mark : '@' ∈ pointer q := by
      have member := inside.subset sign
      simp only [List.mem_append, List.mem_cons] at member
      rcases member with front | same | here | same | back
      · exact absurd front (by decide)
      · exact absurd same (by decide)
      · exact here
      · exact absurd same (by decide)
      · exact absurd back (by decide)
    obtain ⟨step, member, token⟩ := List.mem_flatMap.mp mark
    have token : '@' ∈ step.token := by simpa using token
    obtain ⟨k, rfl, inKey⟩ := at_of_token token
    exact ⟨k, member, .inl inKey⟩
  · obtain ⟨d, x, shape, noEscape, noSlash, noEquals, noBlank, noDigit, notFront, notBack⟩ :=
      start_plain start known
    rw [shape] at here
    -- The beginning stands in the pointer, and there in one token.
    have mark : d :: x <:+: pointer q := by
      rcases infix_split noEquals (here.trans inside) with front | rest
      · exact absurd (front.subset (by simp)) notFront
      · rcases infix_split noBlank rest with here | back
        · exact here
        · exact absurd (back.subset (by simp)) notBack
    obtain ⟨step, member, token⟩ := infix_pointer (by simp) noSlash mark
    obtain ⟨k, rfl, inKey⟩ := start_of_token noEscape noDigit token
    exact ⟨k, member, .inr ⟨start, known, shape ▸ inKey⟩⟩

/-! ### Refusals -/

/-- What a failure tells about secrets: where the first of them is, and no more. -/
structure Redacted (q : Path) (e : Error) : Prop where
  texts : e.texts =
    ["CONFIG_SECRET_DETECTED leaf=" ++ String.ofList (pointer q) ++ " value=REDACTED"]
  -- Nothing that looks like a secret stands in a text, unless the keys on the way have to do with
  -- it.
  hidden : (∀ k, Step.key k ∈ q → ¬ Marked k) →
    ∀ s, looksSecret s = true → ∀ text ∈ e.texts, ¬ s.toList <:+: text.toList

theorem redacted (q : Path) : Redacted q (.secret (String.ofList (pointer q))) where
  texts := rfl
  hidden := by
    intro plain s looks text member inside
    obtain rfl := List.mem_singleton.mp member
    obtain ⟨k, onWay, marked⟩ := marked_key (marked_of_looksSecret looks) inside
    exact plain k onWay marked

/-- A value with a secret below its root is refused for the first one. -/
theorem refused_first {v : Json} (ordered : v.Ordered) {q : Path} (secret : SecretAt v q)
    (below : q ≠ []) : ∃ first, FirstSecret v first ∧
      refuseSecrets v = .error (.secret (String.ofList (pointer first))) := by
  have root := secret.notLeaf below
  cases found : scan v with
  | none => exact absurd secret ((scan_eq_none ordered).mp found q)
  | some first =>
    exact ⟨first, scan_first ordered found, by rw [refuseSecrets_eq root, found]⟩

/-- Documents with a secret that no later one replaces are refused. The failure says where the first
secret is, and documents with other secrets in the same places fail in the same way. -/
theorem lasting_secret_refused {texts : List (List Char)} {vs : List (Option Json)}
    (read : documents texts = .ok vs) {keys : List String} {p : Path}
    (lasting : LastingSecret vs keys p) (below : keys ≠ [] ∨ p ≠ []) :
    ∃ q e, loadTexts texts = .error e ∧ FirstSecret (merged vs) q ∧ Redacted q e ∧
      ∀ texts' vs', documents texts' = .ok vs' →
        (∀ q, SecretAt (merged vs') q ↔ SecretAt (merged vs) q) → loadTexts texts' = .error e := by
  have secret := (secretAt_merged (ordered_documents read)).mpr ⟨keys, p, rfl, lasting⟩
  have notRoot : keys.map Step.key ++ p ≠ [] := by
    rcases below with some | some
    · simp [some]
    · simp [some]
  obtain ⟨q, first, failed⟩ := refused_first (ordered_merged (ordered_documents read)) secret notRoot
  refine ⟨q, _, loadTexts_refused read failed, first, redacted q, ?_⟩
  intro texts' vs' read' same
  obtain ⟨q', first', failed'⟩ := refused_first (ordered_merged (ordered_documents read'))
    ((same _).mpr secret) notRoot
  have moved : FirstSecret (merged vs) q' :=
    ⟨(same q').mp first'.secret, fun r there => first'.first r ((same r).mpr there)⟩
  obtain rfl := moved.unique first
  exact loadTexts_refused read' failed'

/-- One secret that is replaced later, and one in a list that lasts. -/
def mixedTexts : List (List Char) :=
  ["db: \x7burl_env: 'postgres://a:b@h/d'\x7d\nlist: [\x7bk: ' sk-12345678 '\x7d]".toList,
    "db: \x7burl_env: HN\x7d".toList, []]

def mixed : List (Option Json) :=
  [some (.obj [("db", .obj [("url_env", .str "postgres://a:b@h/d")]),
      ("list", .arr [.obj [("k", .str " sk-12345678 ")]])]),
    some (.obj [("db", .obj [("url_env", .str "HN")])]), none]

theorem mixed_refused :
    documents mixedTexts = .ok mixed ∧ LastingSecret mixed ["list"] [.index 0, .key "k"] ∧
      ∃ q e, loadTexts mixedTexts = .error e ∧ FirstSecret (merged mixed) q ∧ Redacted q e ∧
        ∀ texts' vs', documents texts' = .ok vs' →
          (∀ q, SecretAt (merged vs') q ↔ SecretAt (merged mixed) q) → loadTexts texts' = .error e := by
  have read : documents mixedTexts = .ok mixed := rfl
  have silent : ∀ d ∈ mixed.drop 1, ¬ Speaks ["list"] d := by
    simp [mixed, Speaks, settles_object, Assoc.find?]
  have lasting : LastingSecret mixed ["list"] [.index 0, .key "k"] :=
    ⟨_, ⟨[], _, _, rfl, says_some.mpr ⟨rfl, rfl⟩, silent⟩, _, rfl, by decide⟩
  exact ⟨read, lasting, lasting_secret_refused read lasting (.inl (by simp))⟩

/-! ### Secrets that are not refused, or not hidden -/

def replacedTexts : List (List Char) :=
  ["daemon: \x7baddr: sk-12345678\x7d".toList, "daemon: \x7baddr: x\x7d".toList]

def repeatedTexts : List (List Char) := ["sk-12345678: sk-12345678".toList]

/-- A secret beside a key that JSON does not have. -/
def keylessTexts : List (List Char) := ["a: sk-12345678\n~: b".toList]

def bareTexts : List (List Char) := ["sk-12345678".toList]

theorem secrets_escape :
    (documents replacedTexts = .ok [some (.obj [("daemon", .obj [("addr", .str "sk-12345678")])]),
        some (.obj [("daemon", .obj [("addr", .str "x")])])] ∧
      looksSecret "sk-12345678" = true ∧ ∃ loaded, loadTexts replacedTexts = .ok loaded) ∧
    (documents repeatedTexts = .ok [some (.obj [("sk-12345678", .str "sk-12345678")])] ∧
      ∃ e, loadTexts repeatedTexts = .error e ∧ "sk-12345678".toList <:+: e.message.toList) ∧
    (keylessTexts.map Yaml.Document.parse =
        [some (.map [(.str "a", .str "sk-12345678"), (.null, .str "b")])] ∧
      loadTexts keylessTexts = .error .noJson) ∧
    documents bareTexts = .ok [some (.str "sk-12345678")] ∧
      ∃ e cause, loadTexts bareTexts = .error e ∧ e.message = "config does not match schema" ∧
        e.cause? = some cause ∧ "sk-12345678".toList <:+: cause.toList := by
  have replaced : documents replacedTexts = .ok
      [some (.obj [("daemon", .obj [("addr", .str "sk-12345678")])]),
        some (.obj [("daemon", .obj [("addr", .str "x")])])] := rfl
  have repeated :
      documents repeatedTexts = .ok [some (.obj [("sk-12345678", .str "sk-12345678")])] := rfl
  have bare : documents bareTexts = .ok [some (.str "sk-12345678")] := rfl
  refine ⟨⟨replaced, by decide, _, loadTexts_of replaced rfl rfl⟩,
    ⟨repeated, _, loadTexts_refused repeated rfl, ?_⟩, ⟨rfl, rfl⟩,
    bare, _, _, loadTexts_unfit bare rfl rfl, rfl, rfl, ?_⟩
  · exact ⟨"CONFIG_SECRET_DETECTED leaf=/".toList, " value=REDACTED".toList, by decide⟩
  · exact ⟨"invalid type: string \"".toList, "\", expected struct FacadeConfig".toList, by decide⟩

end Postboard.Config
