import Kaspaverse.Kvlog.Log

namespace Kaspaverse.Kvlog

open Framed

variable {T : Type}

/-- What a log is for: a record under each key, and the keys flagged. -/
@[ext] structure Contents (T : Type) where
  record : String → Option T
  tombstoned : Finset String

namespace Contents

def empty : Contents T := ⟨fun _ => none, ∅⟩

/-- What one frame changes. -/
def apply (keyOf : T → String) (contents : Contents T) : Frame T → Contents T
  | .upsert record =>
    { contents with record := Function.update contents.record (keyOf record) (some record) }
  | .remove key => ⟨Function.update contents.record key none, contents.tombstoned.erase key⟩
  | .tombstone key => { contents with tombstoned := insert key contents.tombstoned }
  | .untombstone key => { contents with tombstoned := contents.tombstoned.erase key }

def applyRead (keyOf : T → String) (contents : Contents T) (read : Frame T × Nat) : Contents T :=
  contents.apply keyOf read.1

end Contents

/-- The operations that append a frame. -/
inductive Put (T : Type)
  | upsert (record : T)
  | remove (key : String)
  | tombstone (key : String)
  | untombstone (key : String)

inductive Op (T : Type)
  | put (put : Put T)
  | wipe
  | compact

/-- What an operation's file operations come to: its append, or its atomic replace. -/
structure Io where
  write : Write
  replaces : Bool

/-- The frame an operation that changes something appends. -/
def Put.frame : Put T → Frame T
  | .upsert record => .upsert record
  | .remove key => .remove key
  | .tombstone key => .tombstone key
  | .untombstone key => .untombstone key

/-- What an operation that returned `Ok` means: a flag needs its record, and a removal of nothing
    is nothing. -/
def Op.effect (keyOf : T → String) : Op T → Contents T → Contents T
  | .put (.upsert record), contents => contents.apply keyOf (.upsert record)
  | .put (.remove key), contents =>
    if (contents.record key).isSome then contents.apply keyOf (.remove key) else contents
  | .put (.tombstone key), contents =>
    if (contents.record key).isSome then contents.apply keyOf (.tombstone key) else contents
  | .put (.untombstone key), contents => contents.apply keyOf (.untombstone key)
  | .wipe, _ => .empty
  | .compact, contents => contents

/-- A log beside its disk, and how an operation leaves them. A record is filed under its own
    key, as `upsert` asserts. -/
def Op.perform (codec : Codec T) (hash : Bytes → UInt32) (keyOf : T → String) (io : Io) (op : Op T)
    (at_ : Log T × Disk) : Except ChainError Bool × Log T × Disk :=
  match op with
  | .put (.upsert record) => at_.1.upsert codec hash io.write (keyOf record) record at_.2
  | .put (.remove key) => at_.1.remove codec hash io.write key at_.2
  | .put (.tombstone key) => at_.1.tombstone codec hash io.write key at_.2
  | .put (.untombstone key) => at_.1.untombstone codec hash io.write key at_.2
  | .wipe => at_.1.wipe io.replaces at_.2
  | .compact => at_.1.compact codec hash keyOf io.replaces at_.2

/-- The state after a list of operations, each with what its file operations come to. -/
def runOps (codec : Codec T) (hash : Bytes → UInt32) (keyOf : T → String) (start : Log T × Disk)
    (steps : List (Op T × Io)) : Log T × Disk :=
  steps.foldl (fun at_ step => (step.1.perform codec hash keyOf step.2 at_).2) start

/-- The operations of a run that returned `Ok`. -/
def acknowledged (codec : Codec T) (hash : Bytes → UInt32) (keyOf : T → String) :
    Log T × Disk → List (Op T × Io) → List (Op T)
  | _, [] => []
  | at_, (op, io) :: steps =>
    let after := op.perform codec hash keyOf io at_
    match after.1 with
    | .ok _ => op :: acknowledged codec hash keyOf after.2 steps
    | .error _ => acknowledged codec hash keyOf after.2 steps

def Replaying.contents (maps : Replaying T) : Contents T := ⟨maps.records.lookup, maps.tombstoned⟩

def Replayed.contents (found : Replayed T) : Contents T := ⟨found.records.lookup, found.tombstoned⟩

def Log.contents (log : Log T) : Contents T := ⟨log.records.lookup, log.tombstoned⟩

@[simp] theorem Log.contents_set_end (log : Log T) (endAt : Nat) (cutOwed : Bool) :
    ({ log with endAt := endAt, cutOwed := cutOwed } : Log T).contents = log.contents := rfl

@[simp] theorem Log.contents_set_owed (log : Log T) (cutOwed : Bool) :
    ({ log with cutOwed := cutOwed } : Log T).contents = log.contents := rfl

@[simp] theorem Log.contents_set_held (log : Log T) (held : Option String) :
    ({ log with held := held } : Log T).contents = log.contents := rfl

theorem Replaying.contents_start : (Replaying.start : Replaying T).contents = .empty := rfl

theorem Replaying.contents_apply (keyOf : T → String) (maps : Replaying T) (read : Frame T × Nat) :
    (maps.apply keyOf read).contents = maps.contents.applyRead keyOf read := by
  obtain ⟨frame, bodyLen⟩ := read
  cases frame with
  | upsert record => exact Contents.ext (KeyMap.lookup_insert_eq_update _ _ _) rfl
  | remove key => exact Contents.ext (KeyMap.lookup_erase_eq_update _ _) rfl
  | tombstone key => rfl
  | untombstone key => rfl

theorem Replaying.contents_foldl (keyOf : T → String) (frames : List (Frame T × Nat))
    (maps : Replaying T) :
    (frames.foldl (Replaying.apply keyOf) maps).contents =
      frames.foldl (Contents.applyRead keyOf) maps.contents := by
  induction frames generalizing maps with
  | nil => rfl
  | cons read frames ih =>
    rw [List.foldl_cons, List.foldl_cons, ih, Replaying.contents_apply]

end Kaspaverse.Kvlog
