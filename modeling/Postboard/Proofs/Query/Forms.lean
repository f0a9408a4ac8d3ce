import Postboard.Proofs.Json.Canonical
import Postboard.Proofs.Query.RawLimit
import Postboard.Query.Reading

/-! The forms in which a descriptor is written: its parameter alone, the JSON object and the text that
is displayed. Each of them tells the limit, and both readers take the parameter back.
-/

set_option autoImplicit false

namespace Postboard.Query

open Text

theorem Param.whole_json (p : Param) (depth : Nat) : Json.Whole depth p.json := by
  obtain ⟨n⟩ := p
  have small := n.toNat_lt
  exact .int (by omega) (by omega)

theorem Param.text_limit (n : UInt32) :
    (Param.limit n).json.text = String.ofList (Decimal.digits n.toNat) := by
  have unsigned : ¬ (n.toNat : Int) < 0 := by omega
  exact congrArg String.ofList (Json.Parser.chars_nonneg unsigned)

theorem Param.ofJson?_json (p : Param) : Param.ofJson? p.json = some p := by
  obtain ⟨n⟩ := p
  have low : 0 ≤ (n.toNat : Int) := by omega
  have high : (n.toNat : Int) < 0x100000000 := by
    have small := n.toNat_lt
    omega
  simp [json, Json.nat, ofJson?, low, high]

theorem Param.parse_of_value {p : Param} {v : Json} {input : List UInt8}
    (read : Json.Parser.value input.length Json.Parser.maxDepth input = .ok (v, []))
    (fits : Param.ofJson? v = some p) : Param.parse input = .ok p := by
  simp only [parse, read, fits]
  rfl

theorem Param.parse_text (p : Param) : Param.parse (Utf8.bytes p.json.text) = .ok p := by
  have chars : p.json.text.toList = p.json.chars := String.toList_ofList
  have read := Json.Parser.reads_whole (p.whole_json Json.Parser.maxDepth)
    (Utf8.length_le_encode p.json.chars) [] trivial
  rw [List.append_nil] at read
  rw [Utf8.bytes, chars]
  exact parse_of_value read p.ofJson?_json

namespace Descriptor

theorem text_json (d : Descriptor) :
    d.json.text = "\x7b\"name\":\"posts\",\"param\":" ++ d.param.json.text ++ "\x7d" := by
  obtain ⟨⟨⟩, p⟩ := d
  apply String.toList_inj.mp
  simp [json, Json.text, Json.chars, Json.memberChars, Json.quote, Json.escape, View.name]

theorem json_injective : Function.Injective json := by
  rintro ⟨⟨⟩, ⟨m⟩⟩ ⟨⟨⟩, ⟨n⟩⟩ same
  simpa [json, Param.json, Json.nat, UInt32.toNat_inj] using same

theorem text_json_injective : Function.Injective fun d : Descriptor => d.json.text := by
  intro d d' same
  exact json_injective (Json.chars_injective (String.ofList_injective same))

theorem display_injective : Function.Injective display := by
  rintro ⟨⟨⟩, ⟨m⟩⟩ ⟨⟨⟩, ⟨n⟩⟩ same
  have digits : Decimal.digits m.toNat = Decimal.digits n.toNat := by
    simpa [display, Decimal.ofNat] using congrArg String.toList same
  rw [UInt32.toNat_inj.mp (Decimal.digits_inj digits)]

/-- The limit itself is a raw limit, under every ceiling that it does not exceed. -/
theorem postsFromRaw_text {n max : UInt32} (positive : 1 ≤ n.toNat) (within : n.toNat ≤ max.toNat) :
    postsFromRaw (Param.limit n).json.text max = .ok ⟨.posts, .limit n⟩ := by
  refine postsFromRaw_limits.mpr ⟨n, ⟨?_, positive, within⟩, rfl⟩
  rw [Param.text_limit, String.toList_ofList]
  exact Decimal.padded_digits _

end Descriptor

end Postboard.Query
