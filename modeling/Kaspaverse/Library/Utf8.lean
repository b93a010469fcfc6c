import Mathlib.Data.String.Basic
import Kaspaverse.Library.Bytes

namespace Kaspaverse

/-- A text's UTF-8 bytes. -/
def utf8 (text : String) : Bytes := text.toByteArray.data.toList

/-- The text these bytes spell, where they are UTF-8. -/
def ofUtf8 (bytes : Bytes) : Option String := String.fromUTF8? ⟨bytes.toArray⟩

theorem ofUtf8_utf8 (text : String) : ofUtf8 (utf8 text) = some text := by
  have same : (⟨(utf8 text).toArray⟩ : ByteArray) = text.toByteArray := by
    unfold utf8
    rw [Array.toArray_toList]
  unfold ofUtf8 String.fromUTF8?
  simp only [same]
  rw [dif_pos text.isValidUTF8]
  rfl

theorem utf8_eq (text : String) : utf8 text = text.toList.flatMap String.utf8EncodeChar := by
  have encoded : text.toList.utf8Encode = text.toByteArray := String.utf8Encode_toList
  unfold utf8
  rw [← encoded, List.utf8Encode]
  simp

/-- What may follow a byte that opens a character: how many bytes, and the range of the first. -/
def followers (lead : UInt8) : Option (Nat × UInt8 × UInt8) :=
  if 0xC2 ≤ lead ∧ lead ≤ 0xDF then some (1, 0x80, 0xBF)
  else if lead = 0xE0 then some (2, 0xA0, 0xBF)
  else if lead = 0xED then some (2, 0x80, 0x9F)
  else if 0xE1 ≤ lead ∧ lead ≤ 0xEF then some (2, 0x80, 0xBF)
  else if lead = 0xF0 then some (3, 0x90, 0xBF)
  else if 0xF1 ≤ lead ∧ lead ≤ 0xF3 then some (3, 0x80, 0xBF)
  else if lead = 0xF4 then some (3, 0x80, 0x8F)
  else none

/-- The bytes that go on with a character: at most so many, the first of them in its range. -/
def following : Nat → UInt8 → UInt8 → Bytes → Bytes
  | 0, _, _, _ => []
  | _ + 1, _, _, [] => []
  | count + 1, low, high, byte :: rest =>
    if low ≤ byte ∧ byte ≤ high then byte :: following count 0x80 0xBF rest else []

/-- A character's number: what its first byte adds, and six bits of each byte behind. -/
def scalar (lead : UInt8) (rest : Bytes) : Nat :=
  rest.foldl (fun acc byte => acc * 64 + byte.toNat % 64) (lead.toNat % 2 ^ (6 - rest.length))

/-- Each longest run of bytes that starts a character and ends none becomes U+FFFD. -/
def lossyChars : Nat → Bytes → List Char
  | 0, _ => []
  | _ + 1, [] => []
  | fuel + 1, lead :: rest =>
    if lead < 0x80 then Char.ofNat lead.toNat :: lossyChars fuel rest
    else
      match followers lead with
      | none => '\uFFFD' :: lossyChars fuel rest
      | some (count, low, high) =>
        let run := following count low high rest
        (if run.length = count then Char.ofNat (scalar lead run) else '\uFFFD') ::
          lossyChars fuel (rest.drop run.length)

/-- `String::from_utf8_lossy`. -/
def fromUtf8Lossy (bytes : Bytes) : String := String.ofList (lossyChars bytes.length bytes)

example : fromUtf8Lossy (utf8 "ab£€😀") = "ab£€😀" := by decide +kernel

example : fromUtf8Lossy [0x61, 0xE2, 0x82, 0x62, 0xFF] = "a\uFFFDb\uFFFD" := by decide +kernel

end Kaspaverse
