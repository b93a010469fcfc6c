import Mathlib.Data.Finset.Sort
import Mathlib.Data.String.Basic
import Kaspaverse.Kvlog.Replay

namespace Kaspaverse.Kvlog

instance stringLe_trans : IsTrans String (· ≤ ·) := inferInstance
instance stringLe_antisymm : Std.Antisymm (· ≤ · : String → String → Prop) := inferInstance
instance stringLe_total : Std.Total (· ≤ · : String → String → Prop) := inferInstance

def COMPACT_RATIO : Nat := 2
def COMPACT_FLOOR : Nat := 64 * 1024

/-- The growth rule. The product saturates at `u64::MAX`. -/
def grown (fileLen liveLen : Nat) : Bool :=
  decide (COMPACT_FLOOR < fileLen) && decide (min ( COMPACT_RATIO * liveLen) (2 ^ 64 - 1) < fileLen)

/-- What names a tail kept aside: where it started, its length and its checksum. -/
structure AsideName where
  offset : Nat
  length : Nat
  checksum : UInt32
deriving DecidableEq

/-- The log's file, absent read as empty, and the copies kept beside it. -/
structure Disk where
  file : Bytes
  asides : KeyMap AsideName Bytes

structure Log (T : Type) where
  name : String
  records : KeyMap String T
  tombstoned : Finset String
  endAt : Nat
  cutOwed : Bool
  held : Option String
  removed : Bool

/-- How far one append's file operations get. -/
inductive Write
  /-- the directory, the open or its metadata failed -/
  | unopened
  /-- the cut of the log's own garbage failed -/
  | uncut
  /-- the cut was made and the seek failed -/
  | unsought
  /-- these many bytes were written before the write or its sync failed -/
  | stops (n : Nat)
  | lands
deriving DecidableEq

variable {T : Type} (codec : Codec T) (hash : Bytes → UInt32) (keyOf : T → String)
  (v1 : Bytes → Option (Frame T))

namespace Log

def readOnly (log : Log T) (why : String) : ChainError :=
  .message ("kvlog: " ++ log.name ++ " is read-only (" ++ why ++ ")")

/-- Write one frame at the end the log knows, cutting first only bytes it owns. -/
def append (write : Write) (body : Bytes) (log : Log T) (disk : Disk) :
    Except ChainError Unit × Log T × Disk :=
  match log.held with
  | some why => (.error (log.readOnly why), log, disk)
  | none =>
    match pushFrame hash (if log.endAt = 0 then fileHeader else []) body with
    | .error e => (.error e, log, disk)
    | .ok buf =>
      let onDisk := disk.file.length
      if write = .unopened then (.error .io, log, disk)
      else if onDisk < log.endAt then
        (.error (.message ("kvlog: " ++ log.name ++ " is " ++ toString onDisk ++
          " bytes, shorter than the " ++ toString log.endAt ++
          " this log wrote — refusing to write behind a gap")), log, disk)
      else if log.endAt < onDisk ∧ log.cutOwed = false then
        (.error (.message ("kvlog: " ++ log.name ++
          " grew behind this log — refusing to write over another writer")), log, disk)
      else
        let kept := disk.file.take log.endAt
        match write with
        | .unopened | .uncut => (.error .io, log, disk)
        | .unsought => (.error .io, log, { disk with file := kept })
        | .stops n =>
          (.error .io, { log with cutOwed := true }, { disk with file := kept ++ buf.take n })
        | .lands =>
          (.ok (), { log with endAt := log.endAt + buf.length, cutOwed := false },
            { disk with file := kept ++ buf })

/-- Append the body; the maps change only once it has landed. -/
def put (write : Write) (body : Bytes) (change : Log T → Log T) (log : Log T) (disk : Disk) :
    Except ChainError Bool × Log T × Disk :=
  match log.append hash write body disk with
  | (.error e, log, disk) => (.error e, log, disk)
  | (.ok _, log, disk) => (.ok true, change log, disk)

def upsert (write : Write) (key : String) (record : T) (log : Log T) (disk : Disk) :
    Except ChainError Bool × Log T × Disk :=
  let insert (log : Log T) := { log with records := log.records.insert key record }
  match upsertBody codec record with
  | .error e => (.error e, log, disk)
  | .ok body =>
    match log.records.lookup key with
    | none => log.put hash write body insert disk
    | some held =>
      match upsertBody codec held with
      | .error e => (.error e, log, disk)
      | .ok same =>
        if same = body then (.ok false, log, disk) else log.put hash write body insert disk

/-- `true` says that a frame was written. -/
def remove (write : Write) (key : String) (log : Log T) (disk : Disk) :
    Except ChainError Bool × Log T × Disk :=
  if key ∉ log.records then (.ok false, log, disk)
  else
    match (Frame.remove key : Frame T).body codec with
    | .error e => (.error e, log, disk)
    | .ok body =>
      log.put hash write body
        (fun log => { log with
          records := log.records.erase key
          tombstoned := log.tombstoned.erase key
          removed := true }) disk

def tombstone (write : Write) (key : String) (log : Log T) (disk : Disk) :
    Except ChainError Bool × Log T × Disk :=
  if key ∉ log.records ∨ key ∈ log.tombstoned then (.ok false, log, disk)
  else
    match (Frame.tombstone key : Frame T).body codec with
    | .error e => (.error e, log, disk)
    | .ok body =>
      log.put hash write body
        (fun log => { log with tombstoned := insert key log.tombstoned }) disk

def untombstone (write : Write) (key : String) (log : Log T) (disk : Disk) :
    Except ChainError Bool × Log T × Disk :=
  if key ∉ log.tombstoned then (.ok false, log, disk)
  else
    match (Frame.untombstone key : Frame T).body codec with
    | .error e => (.error e, log, disk)
    | .ok body =>
      log.put hash write body
        (fun log => { log with tombstoned := log.tombstoned.erase key }) disk

/-- Empty the file, then the maps. `replaces` says whether the atomic replace is made. -/
def wipe (replaces : Bool) (log : Log T) (disk : Disk) : Except ChainError Bool × Log T × Disk :=
  match log.held with
  | some why => (.error (log.readOnly why), log, disk)
  | none =>
    if replaces then
      (.ok true, { log with
        records := ∅, tombstoned := ∅, endAt := 0, cutOwed := false, removed := false },
        { disk with file := [] })
    else (.error .io, log, disk)

def pushRecord (log : Log T) (out : Bytes) (key : String) : Except ChainError Bytes :=
  match log.records.lookup key with
  | none => .ok out
  | some record => (upsertBody codec record).bind fun body => pushFrame hash out body

def pushFlag (out : Bytes) (key : String) : Except ChainError Bytes :=
  ((Frame.tombstone key : Frame T).body codec).bind fun body => pushFrame hash out body

/-- The file this state rewrites to, in key order. -/
def image (log : Log T) : Except ChainError Bytes := do
  let out ← (log.records.keys.toFinset.sort (· ≤ ·)).foldlM (log.pushRecord codec hash) fileHeader
  (log.tombstoned.sort (· ≤ ·)).foldlM (pushFlag codec hash) out

/-- The record is held under its key with the same bytes. -/
def holdsSame (log : Log T) (key : String) (record : T) : Bool :=
  match log.records.lookup key, upsertBody codec record with
  | some mine, .ok theirs => match upsertBody codec mine with
    | .ok bytes => bytes == theirs
    | .error _ => false
  | _, _ => false

/-- The image replays to the state it was built from. -/
def same (log : Log T) (check : Replayed T) : Bool :=
  decide (check.format = .v2) && decide (check.tail = .clean) &&
    decide (check.tombstoned = log.tombstoned) &&
    decide (check.records.entries.length = log.records.entries.length) &&
    check.records.entries.all fun entry => log.holdsSame codec entry.1 entry.2

/-- Rewrite the file as its live state. -/
def compact (replaces : Bool) (log : Log T) (disk : Disk) :
    Except ChainError Bool × Log T × Disk :=
  match log.held with
  | some why => (.error (log.readOnly why), log, disk)
  | none =>
    if log.endAt < disk.file.length ∧ log.cutOwed = false then
      (.error (.message ("kvlog: " ++ log.name ++
        " grew behind this log — refusing to rewrite over another writer")), log, disk)
    else
      match log.image codec hash with
      | .error e => (.error e, log, disk)
      | .ok image =>
        match replay codec hash keyOf (Frame.tryFromSlice codec) true image with
        | .error e => (.error e, log, disk)
        | .ok check =>
          if log.same codec check then
            if replaces then
              (.ok true, { log with endAt := image.length, cutOwed := false, removed := false },
                { disk with file := image })
            else (.error .io, log, disk)
          else
            (.error (.message ("kvlog: " ++ log.name ++ ": the compacted image does not replay " ++
              "to the state it was built from — nothing replaced")), log, disk)

end Log

/-- What a load's file operations come to: the read, the copy aside and the rewrite. -/
structure LoadIo where
  reads : Bool
  copies : Bool
  replaces : Bool

/-- The log as its replay leaves it, before its tail is judged. -/
def Replayed.log (name : String) (found : Replayed T) : Log T where
  name := name
  records := found.records
  tombstoned := found.tombstoned
  endAt := found.goodEnd
  cutOwed := false
  held := none
  removed := found.removed

/-- Cut the tail a load found, migrate a v1 file, or let growth go. -/
def Log.settle (io : LoadIo) (found : Replayed T) (log : Log T) (disk : Disk) : Log T × Disk :=
  let log := { log with cutOwed := decide (found.tail ≠ .clean) }
  if found.format = .v1 ∨ found.tail ≠ .clean ∨ grown disk.file.length found.liveLen = true then
    match log.compact codec hash keyOf io.replaces disk with
    | (.ok _, log, disk) => (log, disk)
    | (.error _, log, disk) =>
      if found.format = .v1 then
        ({ log with held := some "the v1 file could not be migrated" }, disk)
      else ({ log with cutOwed := decide (found.tail ≠ .clean) }, disk)
  else (log, disk)

def load (name : String) (io : LoadIo) (disk : Disk) : Except ChainError (Log T × Disk) :=
  if io.reads = false then .error .io
  else
    let verify := checksumHolds hash
    (replay codec hash keyOf v1 verify disk.file).bind fun found =>
      let log := found.log name
      if verify = false then
        .ok ({ log with held := some "the checksum fails its known answers on this device" }, disk)
      else if found.format = .empty then .ok (log, disk)
      else match found.tail with
        | .unreadable _ =>
          let tail := disk.file.drop found.goodEnd
          if io.copies then
            .ok (log.settle codec hash keyOf io found
              { disk with asides := disk.asides.insert ⟨found.goodEnd, tail.length, hash tail⟩ tail })
          else .ok ({ log with held := some "unreadable bytes could not be copied aside" }, disk)
        | _ => .ok (log.settle codec hash keyOf io found disk)

end Kaspaverse.Kvlog
