import Mathlib
import Kaspaverse.Library.Bytes
import Kaspaverse.Library.Framed

namespace Kaspaverse.Kvlog

open Framed

def MAGIC : Bytes := [75, 86, 76, 71]
def VERSION : Nat := 2
def FILE_HEADER_LEN : Nat := 8
def FRAME_HEADER_LEN : Nat := 8
def V1_FRAME_HEADER_LEN : Nat := 4
def CHECK_VALUE : UInt32 := 0xCBF43926
def LONG_PATTERN_CRC : UInt32 := 0x5D1C4EE3
def FRAME_ABC_CRC : UInt32 := 0x66E15D33
def FRAME_LONG_CRC : UInt32 := 0x6F23BA11
def FRAME_UNALIGNED_CRC : UInt32 := 0x3EE05566

inductive ChainError
  | message (text : String)
  | io
deriving DecidableEq

/-- `u32::to_le_bytes`. -/
def toLeBytes (n : Nat) : Bytes := leBytes 4 n

def fromLeBytes (bytes : Bytes) : Nat := leValue bytes

@[simp] theorem length_toLeBytes (n : Nat) : (toLeBytes n).length = 4 := length_leBytes 4 n

theorem fromLeBytes_toLeBytes {n : Nat} (bound : n < 2 ^ 32) : fromLeBytes (toLeBytes n) = n :=
  leValue_leBytes bound

theorem toLeBytes_fromLeBytes {bytes : Bytes} (four : bytes.length = 4) :
    toLeBytes (fromLeBytes bytes) = bytes := by
  have whole := leBytes_leValue bytes
  rwa [four] at whole

section Checksum

-- `crc32fast`'s hash: its hasher's updates hash what they were given in a row
variable (hash : Bytes → UInt32)

def longPattern : Bytes := (List.range 4096).map fun i => UInt8.ofNat (i * 31 + 7)

def frameCrc (len body : Bytes) : UInt32 := hash (len ++ body)

/-- The known answers the checksum is held to before it judges anything. -/
def checksumHolds : Bool :=
  hash [49, 50, 51, 52, 53, 54, 55, 56, 57] == CHECK_VALUE &&
    hash longPattern == LONG_PATTERN_CRC &&
    frameCrc hash (toLeBytes 3) [97, 98, 99] == FRAME_ABC_CRC &&
    frameCrc hash (toLeBytes 4096) longPattern == FRAME_LONG_CRC &&
    frameCrc hash (toLeBytes 4093) ((longPattern.take 4094).drop 1) == FRAME_UNALIGNED_CRC

end Checksum

/-- One record type's borsh code. Decoding takes the whole input, as `try_from_slice` does, and
    gives back what was encoded. -/
structure Codec (T : Type) where
  encode : T → Except String Bytes
  decode : Bytes → Option T
  inverts : ∀ record bytes, encode record = .ok bytes → decode bytes = some record

inductive Frame (T : Type)
  | upsert (record : T)
  | remove (key : String)
  | tombstone (key : String)
  | untombstone (key : String)
deriving DecidableEq

def encodeString (text : String) : Except String Bytes :=
  let utf8 := text.toByteArray.data.toList
  if utf8.length < 2 ^ 32 then .ok (toLeBytes utf8.length ++ utf8)
  else .error "invalid input parameter"

def decodeString (bytes : Bytes) : Option String :=
  if bytes.length < 4 then none
  else if bytes.length = 4 + fromLeBytes (bytes.take 4) then
    String.fromUTF8? ⟨(bytes.drop 4).toArray⟩
  else none

theorem decodeString_encodeString {text : String} {bytes : Bytes}
    (encoded : encodeString text = .ok bytes) : decodeString bytes = some text := by
  unfold encodeString at encoded
  simp only at encoded
  split at encoded
  case isFalse => cases encoded
  case isTrue short =>
    cases encoded
    have head : (toLeBytes text.toByteArray.data.toList.length ++ text.toByteArray.data.toList).take 4 =
        toLeBytes text.toByteArray.data.toList.length := List.take_left' rfl
    have tail : (toLeBytes text.toByteArray.data.toList.length ++ text.toByteArray.data.toList).drop 4 =
        text.toByteArray.data.toList := List.drop_left' rfl
    unfold decodeString
    rw [head, tail, fromLeBytes_toLeBytes short, List.length_append, length_toLeBytes]
    rw [if_neg (by omega), if_pos rfl]
    unfold String.fromUTF8?
    have valid : text.toByteArray.IsValidUTF8 := text.isValidUTF8
    have same : (⟨text.toByteArray.data.toList.toArray⟩ : ByteArray) = text.toByteArray := by
      rw [Array.toArray_toList]
    simp only [same]
    rw [dif_pos valid]
    rfl

variable {T : Type}

def encodeError (reason : String) : ChainError := .message ("kvlog encode: " ++ reason)

namespace Frame

/-- The frame's borsh bytes: its variant's index, then its field. -/
def body (codec : Codec T) : Frame T → Except ChainError Bytes
  | upsert record => ((codec.encode record).map (0 :: ·)).mapError encodeError
  | remove key => ((encodeString key).map (1 :: ·)).mapError encodeError
  | tombstone key => ((encodeString key).map (2 :: ·)).mapError encodeError
  | untombstone key => ((encodeString key).map (3 :: ·)).mapError encodeError

def tryFromSlice (codec : Codec T) : Bytes → Option (Frame T)
  | [] => none
  | variant :: field =>
    match variant with
    | 0 => (codec.decode field).map upsert
    | 1 => (decodeString field).map remove
    | 2 => (decodeString field).map tombstone
    | 3 => (decodeString field).map untombstone
    | _ => none

theorem tagged_ok {encoded : Except String Bytes} {variant : UInt8} {bytes : Bytes}
    (h : (encoded.map (variant :: ·)).mapError encodeError = .ok bytes) :
    ∃ field, encoded = .ok field ∧ bytes = variant :: field := by
  cases encoded with
  | error reason => cases h
  | ok field =>
    cases h
    exact ⟨field, rfl, rfl⟩

/-- Every frame reads back as what was encoded. -/
theorem tryFromSlice_body {codec : Codec T} {frame : Frame T} {bytes : Bytes}
    (encoded : frame.body codec = .ok bytes) : tryFromSlice codec bytes = some frame := by
  cases frame with
  | upsert record =>
    obtain ⟨field, made, rfl⟩ := tagged_ok encoded
    show (codec.decode field).map upsert = some (upsert record)
    rw [codec.inverts record field made]
    rfl
  | remove key =>
    obtain ⟨field, made, rfl⟩ := tagged_ok encoded
    show (decodeString field).map remove = some (remove key)
    rw [decodeString_encodeString made]
    rfl
  | tombstone key =>
    obtain ⟨field, made, rfl⟩ := tagged_ok encoded
    show (decodeString field).map tombstone = some (tombstone key)
    rw [decodeString_encodeString made]
    rfl
  | untombstone key =>
    obtain ⟨field, made, rfl⟩ := tagged_ok encoded
    show (decodeString field).map untombstone = some (untombstone key)
    rw [decodeString_encodeString made]
    rfl

end Frame

/-- `Frame::Upsert(record)`'s own bytes. -/
def upsertBody (codec : Codec T) (record : T) : Except ChainError Bytes :=
  (Frame.upsert record).body codec

theorem upsertBody_injective {codec : Codec T} {first second : T} {bytes : Bytes}
    (one : upsertBody codec first = .ok bytes) (other : upsertBody codec second = .ok bytes) :
    first = second := by
  have same := (Frame.tryFromSlice_body one).symm.trans (Frame.tryFromSlice_body other)
  exact Frame.upsert.inj (Option.some.inj same)

end Kaspaverse.Kvlog
