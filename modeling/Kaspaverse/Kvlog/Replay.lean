import Mathlib
import Kaspaverse.Library.KeyedMap
import Kaspaverse.Kvlog.Frame

namespace Kaspaverse.Kvlog

open Framed

variable {T : Type}

def fileHeader : Bytes := MAGIC ++ toLeBytes VERSION

def pushFrame (hash : Bytes → UInt32) (out body : Bytes) : Except ChainError Bytes :=
  if body.length < 2 ^ 32 then
    let len := toLeBytes body.length
    .ok (out ++ (len ++ (toLeBytes (frameCrc hash len body).toNat ++ body)))
  else .error (.message "kvlog: frame over 4 GiB")

/-- One v2 frame at the start of the bytes: its body, and the length of the whole frame. -/
def v2FrameChecked (hash : Bytes → UInt32) (verify : Bool) (bytes : Bytes) : Option (Bytes × Nat) :=
  if bytes.length < FRAME_HEADER_LEN then none
  else
    let lenBytes := bytes.take 4
    let crc := fromLeBytes ((bytes.drop 4).take 4)
    let stop := FRAME_HEADER_LEN + fromLeBytes lenBytes
    if bytes.length < stop then none
    else
      let body := (bytes.take stop).drop FRAME_HEADER_LEN
      if !verify || (frameCrc hash lenBytes body).toNat == crc then some (body, stop) else none

def v2FrameAt (hash : Bytes → UInt32) (bytes : Bytes) : Option (Bytes × Nat) :=
  v2FrameChecked hash true bytes

theorem v2FrameChecked_some {hash : Bytes → UInt32} {verify : Bool} {bytes body : Bytes} {stop : Nat}
    (found : v2FrameChecked hash verify bytes = some (body, stop)) :
    stop = FRAME_HEADER_LEN + fromLeBytes (bytes.take 4) ∧ stop ≤ bytes.length ∧
      body = (bytes.take stop).drop FRAME_HEADER_LEN := by
  unfold v2FrameChecked at found
  split at found
  · cases found
  · simp only at found
    split at found
    · cases found
    case isFalse fits =>
      split at found
      · cases found
        exact ⟨rfl, Nat.le_of_not_lt fits, rfl⟩
      · cases found

theorem v2FrameChecked_settled {hash : Bytes → UInt32} {verify : Bool} {bytes body : Bytes}
    {stop : Nat} (found : v2FrameChecked hash verify bytes = some (body, stop)) (behind : Bytes) :
    v2FrameChecked hash verify (bytes.take stop ++ behind) = some (body, stop) := by
  obtain ⟨extent, fits, _⟩ := v2FrameChecked_some found
  have header : FRAME_HEADER_LEN ≤ stop := by omega
  have eight : FRAME_HEADER_LEN = 8 := rfl
  have len : (bytes.take stop ++ behind).take 4 = bytes.take 4 := by
    rw [List.take_append_of_le_length (by rw [List.length_take]; omega), List.take_take,
      Nat.min_eq_left (by omega)]
  have crc : ((bytes.take stop ++ behind).drop 4).take 4 = (bytes.drop 4).take 4 := by
    rw [List.take_drop, List.take_drop,
      List.take_append_of_le_length (by rw [List.length_take]; omega), List.take_take,
      Nat.min_eq_left (by omega)]
  have whole : (bytes.take stop ++ behind).take stop = bytes.take stop :=
    List.take_left' (by rw [List.length_take, Nat.min_eq_left fits])
  have long : (bytes.take stop ++ behind).length = stop + behind.length := by
    rw [List.length_append, List.length_take, Nat.min_eq_left fits]
  unfold v2FrameChecked at found ⊢
  simp only [len, crc, long, ← extent, whole] at found ⊢
  rw [if_neg (by omega), if_neg (by omega)] at found
  rw [if_neg (by omega), if_neg (by omega)]
  exact found

/-- A pushed frame is read back with its body, whether or not the checksum is compared. -/
theorem pushFrame_reads {hash : Bytes → UInt32} {out body pushed : Bytes}
    (sealed : pushFrame hash out body = .ok pushed) (verify : Bool) :
    ∃ piece, pushed = out ++ piece ∧ piece.length = FRAME_HEADER_LEN + body.length ∧
      v2FrameChecked hash verify piece = some (body, piece.length) := by
  unfold pushFrame at sealed
  split at sealed
  case isFalse => cases sealed
  case isTrue short =>
    cases sealed
    refine ⟨_, rfl, ?_, ?_⟩
    · simp only [List.length_append, length_toLeBytes, FRAME_HEADER_LEN]
      omega
    · have long : (toLeBytes body.length ++ (toLeBytes
          (frameCrc hash (toLeBytes body.length) body).toNat ++ body)).length =
          FRAME_HEADER_LEN + body.length := by
        simp only [List.length_append, length_toLeBytes, FRAME_HEADER_LEN]
        omega
      have len : (toLeBytes body.length ++ (toLeBytes
          (frameCrc hash (toLeBytes body.length) body).toNat ++ body)).take 4 =
          toLeBytes body.length := List.take_left' rfl
      have behind : (toLeBytes body.length ++ (toLeBytes
          (frameCrc hash (toLeBytes body.length) body).toNat ++ body)).drop 4 =
          toLeBytes (frameCrc hash (toLeBytes body.length) body).toNat ++ body :=
        List.drop_left' rfl
      have crc : (toLeBytes (frameCrc hash (toLeBytes body.length) body).toNat ++ body).take 4 =
          toLeBytes (frameCrc hash (toLeBytes body.length) body).toNat := List.take_left' rfl
      have rest : (toLeBytes body.length ++ (toLeBytes
          (frameCrc hash (toLeBytes body.length) body).toNat ++ body)).drop FRAME_HEADER_LEN = body := by
        rw [← List.append_assoc]
        exact List.drop_left' rfl
      unfold v2FrameChecked
      simp only [len, behind, crc, fromLeBytes_toLeBytes short,
        fromLeBytes_toLeBytes (UInt32.toNat_lt _)]
      rw [if_neg (by omega), if_neg (by omega), ← long, List.take_length, rest]
      simp

/-- A frame as replay reads it: decoded, with its body's length and the bytes it takes. -/
def v2Next (codec : Codec T) (hash : Bytes → UInt32) (verify : Bool) (rest : Bytes) :
    Option ((Frame T × Nat) × Nat) :=
  match v2FrameChecked hash verify rest with
  | none => none
  | some (body, step) => (Frame.tryFromSlice codec body).map fun frame => ((frame, body.length), step)

theorem v2Next_some {codec : Codec T} {hash : Bytes → UInt32} {verify : Bool} {rest : Bytes}
    {read : Frame T × Nat} {step : Nat} (found : v2Next codec hash verify rest = some (read, step)) :
    ∃ body, v2FrameChecked hash verify rest = some (body, step) ∧
      Frame.tryFromSlice codec body = some read.1 ∧ read.2 = body.length := by
  unfold v2Next at found
  split at found
  · cases found
  case h_2 body size framed =>
    obtain ⟨frame, decoded, same⟩ := Option.map_eq_some_iff.mp found
    cases same
    exact ⟨body, framed, decoded, rfl⟩

theorem v2Next_of {codec : Codec T} {hash : Bytes → UInt32} {verify : Bool} {rest body : Bytes}
    {frame : Frame T} {step : Nat} (framed : v2FrameChecked hash verify rest = some (body, step))
    (decoded : Frame.tryFromSlice codec body = some frame) :
    v2Next codec hash verify rest = some ((frame, body.length), step) := by
  unfold v2Next
  rw [framed]
  simp only [decoded, Option.map_some]

def v2Reader (codec : Codec T) (hash : Bytes → UInt32) (verify : Bool) :
    Reader UInt8 (Frame T × Nat) where
  next := v2Next codec hash verify
  positive := by
    intro rest read step found
    obtain ⟨body, framed, _⟩ := v2Next_some found
    have extent := (v2FrameChecked_some framed).1
    have eight : FRAME_HEADER_LEN = 8 := rfl
    omega
  fits := by
    intro rest read step found
    obtain ⟨body, framed, _⟩ := v2Next_some found
    exact (v2FrameChecked_some framed).2.1
  settled := by
    intro rest read step found behind
    obtain ⟨body, framed, decoded, sized⟩ := v2Next_some found
    rw [v2Next_of (v2FrameChecked_settled framed behind) decoded, ← sized]

/-- One v1 frame: its length, then the body the caller's decoder reads. -/
def v1Next (v1 : Bytes → Option (Frame T)) (rest : Bytes) : Option ((Frame T × Nat) × Nat) :=
  if rest.length < V1_FRAME_HEADER_LEN then none
  else
    let step := V1_FRAME_HEADER_LEN + fromLeBytes (rest.take 4)
    if rest.length < step then none
    else
      let body := (rest.take step).drop V1_FRAME_HEADER_LEN
      (v1 body).map fun frame => ((frame, body.length), step)

inductive Format
  | empty
  | v1
  | v2
deriving DecidableEq

/-- What a load found after the last good frame, in bytes. -/
inductive Tail
  | clean
  | torn (n : Nat)
  | unreadable (n : Nat)
deriving DecidableEq

def classify (hash : Bytes → UInt32) (format : Format) (rest : Bytes) : Tail :=
  let n := rest.length
  if n = 0 then .clean
  else if rest.all (· == 0) then .torn n
  else match format with
    | .empty => .clean
    | .v1 => if n < V1_FRAME_HEADER_LEN then .torn n else .unreadable n
    | .v2 =>
      if (List.range n).any fun i => (v2FrameAt hash (rest.drop i)).isSome then .unreadable n
      else if n < FRAME_HEADER_LEN then .torn n
      else if n ≤ FRAME_HEADER_LEN + fromLeBytes (rest.take 4) then .torn n
      else .unreadable n

/-- The maps a replay fills, with each live record's frame size. -/
structure Replaying (T : Type) where
  records : KeyMap String T
  tombstoned : Finset String
  sizes : KeyMap String Nat
  frames : Nat
  removed : Bool

def Replaying.start : Replaying T := ⟨∅, ∅, ∅, 0, false⟩

def Replaying.apply (keyOf : T → String) (maps : Replaying T) : Frame T × Nat → Replaying T
  | (.upsert record, bodyLen) =>
    { maps with
      records := maps.records.insert (keyOf record) record
      sizes := maps.sizes.insert (keyOf record) (FRAME_HEADER_LEN + bodyLen)
      frames := maps.frames + 1 }
  | (.remove key, _) =>
    { records := maps.records.erase key
      tombstoned := maps.tombstoned.erase key
      sizes := maps.sizes.erase key
      frames := maps.frames + 1
      removed := true }
  | (.tombstone key, _) =>
    { maps with tombstoned := insert key maps.tombstoned, frames := maps.frames + 1 }
  | (.untombstone key, _) =>
    { maps with tombstoned := maps.tombstoned.erase key, frames := maps.frames + 1 }

structure Replayed (T : Type) where
  format : Format
  records : KeyMap String T
  tombstoned : Finset String
  frames : Nat
  removed : Bool
  goodEnd : Nat
  tail : Tail
  liveLen : Nat

def tombstoneFrameLen (key : String) : Nat := FRAME_HEADER_LEN + 1 + 4 + key.utf8ByteSize

/-- How a file starts: its format and where its frames do, or the version that is refused. -/
def formatOf (bytes : Bytes) : Except ChainError (Format × Nat) :=
  if bytes.isEmpty then .ok (.empty, 0)
  else if FILE_HEADER_LEN ≤ bytes.length ∧ bytes.take 4 = MAGIC then
    let version := fromLeBytes ((bytes.drop 4).take 4)
    if version ≠ VERSION then
      .error (.message ("kvlog: format version " ++ toString version ++
        " is newer than this build reads (" ++ toString VERSION ++ ")"))
    else .ok (.v2, FILE_HEADER_LEN)
  -- the first append's header, torn: nothing was ever written behind it
  else if bytes.length < FILE_HEADER_LEN ∧ bytes.take (min bytes.length 4) <+: MAGIC then .ok (.v2, 0)
  else .ok (.v1, 0)

/-- Fold the frames behind the file's start until one fails. -/
def readFrames (codec : Codec T) (hash : Bytes → UInt32) (keyOf : T → String)
    (v1 : Bytes → Option (Frame T)) (verify : Bool) (format : Format) (start : Nat) (bytes : Bytes) :
    Replaying T × Bytes :=
  match format with
  | .empty => (Replaying.start, bytes)
  | .v2 =>
    if start = 0 then (Replaying.start, bytes)
    else scan (v2Next codec hash verify) (Replaying.apply keyOf) bytes.length (bytes.drop start)
      Replaying.start
  | .v1 =>
    scan (v1Next v1) (Replaying.apply keyOf) bytes.length (bytes.drop start) Replaying.start

/-- Last write wins for a key, removes delete, tombstones flag; the replay stops at the first
    frame that fails and says what follows it. -/
def replay (codec : Codec T) (hash : Bytes → UInt32) (keyOf : T → String)
    (v1 : Bytes → Option (Frame T)) (verify : Bool) (bytes : Bytes) :
    Except ChainError (Replayed T) := do
  let (format, start) ← formatOf bytes
  let (maps, rest) := readFrames codec hash keyOf v1 verify format start bytes
  return {
    format := format
    records := maps.records
    tombstoned := maps.tombstoned
    frames := maps.frames
    removed := maps.removed
    goodEnd := bytes.length - rest.length
    tail := classify hash format rest
    liveLen := FILE_HEADER_LEN + maps.sizes.values.sum + maps.tombstoned.sum tombstoneFrameLen }

end Kaspaverse.Kvlog
