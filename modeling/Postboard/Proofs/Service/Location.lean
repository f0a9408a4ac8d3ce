import Postboard.Proofs.Config.Check
import Postboard.Proofs.Reactive.Token
import Postboard.Proofs.Text.Bytes
import Postboard.Proofs.Text.Split
import Postboard.Service.Router
import Postboard.Store.View

/-! Where a stream is: the configured path without the slashes at its end, a slash and the handle.

The location is a legal header value when the configured path is one, and it stays within the origin
of the request when that path has one slash in front and no query or fragment. The check of the
settings sees to the first slash only.
-/

set_option autoImplicit false

namespace Postboard.Service

open Http Text Reactive

/-! ### Header values -/

theorem isHeaderValue_append (a b : List UInt8) :
    isHeaderValue (a ++ b) = (isHeaderValue a && isHeaderValue b) := List.all_append

theorem isHeaderValue_flatMap {α : Type} {xs : List α} {f : α → List UInt8} :
    isHeaderValue (xs.flatMap f) = true ↔ ∀ x ∈ xs, isHeaderValue (f x) = true := by
  induction xs with
  | nil => simp [isHeaderValue]
  | cons x rest ih =>
    rw [List.flatMap_cons, isHeaderValue_append, Bool.and_eq_true, ih, List.forall_mem_cons]

/-- A character that may stand in a header value: no control but the tab. -/
def IsSendable (c : Char) : Prop := c = '\t' ∨ 32 ≤ c.toNat ∧ c.toNat ≠ 127

instance (c : Char) : Decidable (IsSendable c) := by
  unfold IsSendable
  infer_instance

theorem isHeaderValue_encodeChar (c : Char) :
    isHeaderValue (String.utf8EncodeChar c) = true ↔ IsSendable c := by
  by_cases high : 0x80 ≤ c.toNat
  · have legal : isHeaderValue (String.utf8EncodeChar c) = true := by
      refine List.all_eq_true.mpr fun b member => ?_
      have above := Utf8.encodeChar_high high b member
      have last : b ≠ 0x7F := by
        rintro rfl
        exact absurd above (by decide)
      have low : (0x20 : UInt8) ≤ b := UInt8.le_iff_toNat_le.mpr (Nat.le_trans (by decide) above)
      simp [low, last]
    exact iff_of_true legal (.inr ⟨by omega, by omega⟩)
  · have size : (UInt8.ofNat c.toNat).toNat = c.toNat := Utf8.toNat_byte (by omega)
    have byte (n : UInt8) : UInt8.ofNat c.toNat = n ↔ c.toNat = n.toNat := by
      rw [← UInt8.toNat_inj, size]
    have tab : c.toNat = 9 ↔ c = '\t' := ⟨fun same => Char.toNat_inj.mp same, fun same => by simp [same]⟩
    simp [isHeaderValue, Utf8.encodeChar_ascii (by omega : c.toNat < 128), byte,
      UInt8.le_iff_toNat_le, size, IsSendable, tab]

theorem isHeaderValue_encode {cs : List Char} :
    isHeaderValue (Utf8.encode cs) = true ↔ ∀ c ∈ cs, IsSendable c := by
  simp only [Utf8.encode, isHeaderValue_flatMap, isHeaderValue_encodeChar]

theorem isHeaderValue_handle (h : Handle) : isHeaderValue (Utf8.bytes h.text) = true := by
  refine isHeaderValue_encode.mpr fun c member => ?_
  have bounds := (h.isToken.plain c member).bounds
  exact .inr ⟨by omega, by omega⟩

/-- The slashes at the end of a path do not matter for a character that is none. -/
theorem mem_withoutSlashes {path : String} {x : Char} (other : x ≠ '/') :
    x ∈ (withoutSlashes path).toList ↔ x ∈ path.toList := by
  obtain ⟨dropped, whole, slashes, -⟩ := dropWhileEnd_split '/' path.toList
  have absent : x ∉ dropped := fun member => other (slashes x member)
  rw [withoutSlashes, String.toList_ofList]
  constructor
  · intro member
    rw [whole]
    exact List.mem_append_left _ member
  · intro member
    rw [whole] at member
    exact (List.mem_append.mp member).resolve_right absent

theorem isHeaderValue_withoutSlashes (path : String) :
    isHeaderValue (Utf8.bytes (withoutSlashes path)) = isHeaderValue (Utf8.bytes path) := by
  rw [Bool.eq_iff_iff, Utf8.bytes, Utf8.bytes, isHeaderValue_encode, isHeaderValue_encode]
  have slash : IsSendable '/' := by decide
  constructor
  · intro legal c member
    by_cases here : c = '/'
    · exact here ▸ slash
    · exact legal c ((mem_withoutSlashes here).mpr member)
  · intro legal c member
    by_cases here : c = '/'
    · exact here ▸ slash
    · exact legal c ((mem_withoutSlashes here).mp member)

variable {σ ε : Type}

theorem isHeaderValue_streamLocation (s : Service σ ε) (h : Handle) :
    isHeaderValue (Utf8.bytes (s.streamLocation h.text)) =
      isHeaderValue (Utf8.bytes s.redirectBase) := by
  have slash : isHeaderValue (Utf8.bytes "/") = true := by decide
  rw [streamLocation, Utf8.bytes_append, Utf8.bytes_append, isHeaderValue_append,
    isHeaderValue_append, slash, isHeaderValue_handle, Bool.and_true, Bool.and_true]

/-- A path that is no header value breaks the handling of the request off. -/
theorem streamResponse_handle (s : Service σ ε) (h : Handle) :
    s.streamResponse (.ok h) =
      if isHeaderValue (Utf8.bytes s.redirectBase) then some (.redirect (s.streamLocation h.text))
      else none := by
  simp only [streamResponse, isHeaderValue_streamLocation]

/-- A path splits into what it is without the slashes at its end, and these. -/
theorem withoutSlashes_split (path : String) :
    ∃ front slashes : List Char, path.toList = front ++ slashes ∧ (∀ x ∈ slashes, x = '/') ∧
      front.getLast? ≠ some '/' ∧ withoutSlashes path = String.ofList front := by
  obtain ⟨slashes, whole, all, last⟩ := dropWhileEnd_split '/' path.toList
  exact ⟨_, slashes, whole, all, last, rfl⟩

theorem streamResponse_legal (client : Client σ) (g : Post.Gateway σ ε) (user : Int32) {c : Config}
    (legal : isHeaderValue (Utf8.bytes c.streams.redirectBase) = true) (h : Handle) :
    (ofConfig client g user c).streamResponse (.ok h) =
      some (.redirect (withoutSlashes c.streams.redirectBase ++ "/" ++ h.text)) := by
  have base : isHeaderValue (Utf8.bytes (ofConfig client g user c).redirectBase) = true :=
    (isHeaderValue_withoutSlashes _).trans legal
  rw [streamResponse_handle, if_pos base]
  rfl

/-! ### The origin of the request -/

/-- A location within the origin of the request that leads to a handle: a path with exactly one slash
in front, without query and fragment, whose last segment is the handle. -/
structure WithinOrigin (location : String) (h : Handle) : Prop where
  rooted : ∃ rest, location.toList = '/' :: rest ∧ rest.head? ≠ some '/'
  noQuery : '?' ∉ location.toList
  noFragment : '#' ∉ location.toList
  last : (location.toList.splitOn '/').getLast? = some h.text.toList

/-- A configured path that keeps redirects within the origin: it has one slash in front, unless it
has nothing but slashes, and no query and fragment. -/
structure Inward (path : String) : Prop where
  rooted : (∀ c ∈ path.toList, c = '/') ∨ path.toList[1]? ≠ some '/'
  noQuery : '?' ∉ path.toList
  noFragment : '#' ∉ path.toList

def locationUnder (path : String) (h : Handle) : String := withoutSlashes path ++ "/" ++ h.text

theorem toList_locationUnder (path : String) (h : Handle) :
    (locationUnder path h).toList = (withoutSlashes path).toList ++ '/' :: h.text.toList := by
  simp [locationUnder]

theorem slash_notMem_handle (h : Handle) : '/' ∉ h.text.toList := fun member =>
  absurd (h.isToken.plain _ member) (by decide)

/-- The handle is what stands behind the last slash. -/
theorem last_locationUnder (path : String) (h : Handle) :
    ((locationUnder path h).toList.splitOn '/').getLast? = some h.text.toList := by
  rw [toList_locationUnder, List.splitOn_append_cons_self,
    List.splitOn_eq_singleton (slash_notMem_handle h), List.getLast?_concat]

/-- A character that no handle has comes from the configured path. -/
theorem mem_locationUnder {path : String} {h : Handle} {x : Char} (other : x ≠ '/')
    (special : ¬ IsPlain x) : x ∈ (locationUnder path h).toList ↔ x ∈ path.toList := by
  have absent : x ∉ h.text.toList := fun member => special (h.isToken.plain x member)
  rw [toList_locationUnder, List.mem_append, List.mem_cons, mem_withoutSlashes other]
  simp [other, absent]

/-- What is left of a path without the slashes at its end is nothing, when there were slashes only,
or begins as the path does and has more to it than its first slash. -/
theorem withoutSlashes_cases {path : String} (front : path.toList.head? = some '/') :
    (withoutSlashes path).toList = [] ∧ (∀ c ∈ path.toList, c = '/') ∨
      ∃ c rest, (withoutSlashes path).toList = '/' :: c :: rest ∧ path.toList[1]? = some c ∧
        ¬ ∀ c ∈ path.toList, c = '/' := by
  obtain ⟨dropped, whole, onlySlashes, ends⟩ := dropWhileEnd_split '/' path.toList
  rw [withoutSlashes, String.toList_ofList]
  cases base : dropWhileEnd (· = '/') path.toList with
  | nil =>
    rw [base, List.nil_append] at whole
    exact .inl ⟨rfl, whole ▸ onlySlashes⟩
  | cons b more =>
    rw [base] at whole ends
    obtain rfl : b = '/' := by simpa [whole] using front
    cases more with
    | nil => exact absurd rfl ends
    | cons c rest =>
      refine .inr ⟨c, rest, rfl, by simp [whole], fun all => ?_⟩
      -- The last character that is left is no slash.
      have last := List.getLast?_eq_some_getLast (List.cons_ne_nil '/' (c :: rest))
      have member : ('/' :: c :: rest).getLast (List.cons_ne_nil _ _) ∈ path.toList := by
        rw [whole]
        exact List.mem_append_left _ (List.getLast_mem _)
      exact ends (last.trans (congrArg some (all _ member)))

theorem rooted_locationUnder {path : String} (front : path.toList.head? = some '/') (h : Handle) :
    (∃ rest, (locationUnder path h).toList = '/' :: rest ∧ rest.head? ≠ some '/') ↔
      (∀ c ∈ path.toList, c = '/') ∨ path.toList[1]? ≠ some '/' := by
  rw [toList_locationUnder]
  rcases withoutSlashes_cases front with ⟨nothing, all⟩ | ⟨c, rest, some, second, notAll⟩
  · rw [nothing]
    refine iff_of_true ⟨_, rfl, fun slash => ?_⟩ (.inl all)
    exact slash_notMem_handle h (List.mem_of_head? slash)
  · rw [some, second]
    simp [notAll]

theorem withinOrigin_iff {path : String} (front : path.toList.head? = some '/') (h : Handle) :
    WithinOrigin (locationUnder path h) h ↔ Inward path := by
  have query : '?' ∈ (locationUnder path h).toList ↔ '?' ∈ path.toList :=
    mem_locationUnder (by decide) (by decide)
  have fragment : '#' ∈ (locationUnder path h).toList ↔ '#' ∈ path.toList :=
    mem_locationUnder (by decide) (by decide)
  have rooted := rooted_locationUnder front h
  constructor
  · rintro ⟨slash, noQuery, noFragment, -⟩
    exact ⟨rooted.mp slash, mt query.mpr noQuery, mt fragment.mpr noFragment⟩
  · rintro ⟨slash, noQuery, noFragment⟩
    exact ⟨rooted.mpr slash, mt query.mp noQuery, mt fragment.mp noFragment,
      last_locationUnder path h⟩

/-! ### Redirects under checked settings -/

structure Redirected (path : String) (h : Handle) (location : String) (answer : Option Response) :
    Prop where
  front : location.toList.head? = some '/'
  last : (location.toList.splitOn '/').getLast? = some h.text.toList
  -- The location is a header value, and is answered, when the path is one.
  legal : isHeaderValue (Utf8.bytes location) = true ↔ ∀ c ∈ path.toList, IsSendable c
  sent : (∀ c ∈ path.toList, IsSendable c) → answer = some (.redirect location)
  brokenOff : (¬ ∀ c ∈ path.toList, IsSendable c) → answer = none
  within : WithinOrigin location h ↔ Inward path

theorem redirected_checked (client : Client σ) (g : Post.Gateway σ ε) (user : Int32) {c : Config}
    (checked : c.check = .ok ()) (h : Handle) :
    Redirected c.streams.redirectBase h ((ofConfig client g user c).streamLocation h.text)
      ((ofConfig client g user c).streamResponse (.ok h)) := by
  have front := (Config.check_eq_ok.mp checked).redirectBase
  have located : (ofConfig client g user c).streamLocation h.text =
      locationUnder c.streams.redirectBase h := rfl
  have base : isHeaderValue (Utf8.bytes (ofConfig client g user c).redirectBase) = true ↔
      ∀ x ∈ c.streams.redirectBase.toList, IsSendable x := by
    rw [ofConfig, isHeaderValue_withoutSlashes, Utf8.bytes, isHeaderValue_encode]
  refine ⟨?_, last_locationUnder .., ?_, fun legal => ?_, fun illegal => ?_,
    withinOrigin_iff front h⟩
  · rw [located, toList_locationUnder]
    rcases withoutSlashes_cases front with ⟨nothing, -⟩ | ⟨_, _, some, -⟩
    · rw [nothing]
      rfl
    · rw [some]
      rfl
  · rw [isHeaderValue_streamLocation, base]
  · rw [streamResponse_handle, if_pos (base.mpr legal)]
  · rw [streamResponse_handle, if_neg (mt base.mp illegal)]

def redirector (path : String) : Service Store Store.Error :=
  ofConfig Store.client Store.gateway 1 { Config.standard with streams := ⟨path⟩ }

def shortHandle : Handle := ⟨"a", by decide, by decide⟩

/-- Slashes at the end of a path are left out, those inside it stay. -/
theorem redirected_nested :
    ({ Config.standard with streams := ⟨"/a//é\t/"⟩ } : Config).check = .ok () ∧
      Redirected "/a//é\t/" shortHandle "/a//é\t/a" (some (.redirect "/a//é\t/a")) ∧
      WithinOrigin "/a//é\t/a" shortHandle := by
  have checked : ({ Config.standard with streams := ⟨"/a//é\t/"⟩ } : Config).check = .ok () := rfl
  have redirected := redirected_checked Store.client Store.gateway 1 checked shortHandle
  refine ⟨checked, redirected, redirected.within.mpr ⟨.inr ?_, ?_, ?_⟩⟩
  all_goals decide

/-- Paths that pass the check and lead elsewhere, end up in a query, or break the handling off. -/
theorem redirected_astray :
    (({ Config.standard with streams := ⟨"//elsewhere"⟩ } : Config).check = .ok () ∧
      (redirector "//elsewhere").streamResponse (.ok shortHandle) =
        some (.redirect "//elsewhere/a") ∧
      ¬ WithinOrigin "//elsewhere/a" shortHandle) ∧
    (({ Config.standard with streams := ⟨"/a?b#c"⟩ } : Config).check = .ok () ∧
      (redirector "/a?b#c").streamResponse (.ok shortHandle) = some (.redirect "/a?b#c/a") ∧
      ¬ WithinOrigin "/a?b#c/a" shortHandle) ∧
    (({ Config.standard with streams := ⟨"/a\n"⟩ } : Config).check = .ok () ∧
      (redirector "/a\n").streamLocation shortHandle.text = "/a\n/a" ∧
      isHeaderValue (Utf8.bytes "/a\n/a") = false ∧
      (redirector "/a\n").streamResponse (.ok shortHandle) = none) := by
  refine ⟨⟨rfl, rfl, ?_⟩, ⟨rfl, rfl, ?_⟩, rfl, rfl, by decide, rfl⟩
  · rintro ⟨⟨rest, whole, one⟩, -⟩
    obtain ⟨-, rfl⟩ := List.cons.inj whole
    exact one rfl
  · exact fun within => within.noQuery (by decide)

end Postboard.Service
