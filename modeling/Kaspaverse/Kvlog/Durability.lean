import Kaspaverse.Kvlog.Recovery

namespace Kaspaverse.Kvlog

open Framed

variable {T : Type} {codec : Codec T} {hash : Bytes → UInt32} {keyOf : T → String}
  {v1 : Bytes → Option (Frame T)}

section Compact

theorem Log.holdsSame_lookup {log : Log T} {key : String} {record : T}
    (same : log.holdsSame codec key record = true) : log.records.lookup key = some record := by
  unfold holdsSame at same
  split at same
  case h_1 mine theirs found encoded =>
    split at same
    case h_1 bytes held =>
      have equal : bytes = theirs := by simpa using same
      subst equal
      rw [found, upsertBody_injective held encoded]
    case h_2 => cases same
  case h_2 => cases same

theorem Log.same_contents {log : Log T} {check : Replayed T} (same : log.same codec check = true) :
    check.format = .v2 ∧ check.tail = .clean ∧ check.contents = log.contents := by
  simp only [Log.same, Bool.and_eq_true, decide_eq_true_eq, List.all_eq_true] at same
  obtain ⟨⟨⟨⟨format, clean⟩, flags⟩, size⟩, each⟩ := same
  refine ⟨format, clean, ?_⟩
  have inside : ∀ k v, check.records.lookup k = some v → log.records.lookup k = some v := by
    intro k v found
    exact holdsSame_lookup (each ⟨k, v⟩ (KeyMap.mem_entries_iff.mpr found))
  exact Contents.ext (KeyMap.lookup_eq_of_subset inside size) flags

/-- A compaction fails and changes nothing, or leaves a file that is exactly the log's state. -/
theorem Log.compact_cases (codec : Codec T) (hash : Bytes → UInt32) (keyOf : T → String)
    (replaces : Bool) (log : Log T) (disk : Disk) :
    (∃ e, log.compact codec hash keyOf replaces disk = (.error e, log, disk)) ∨
      ∃ image, log.held = none ∧ Holds codec hash keyOf image log.contents ∧
        log.compact codec hash keyOf replaces disk =
          (.ok true, { log with endAt := image.length, cutOwed := false, removed := false },
            { disk with file := image }) := by
  unfold compact
  split
  · exact .inl ⟨_, rfl⟩
  case h_2 free =>
    split
    · exact .inl ⟨_, rfl⟩
    · split
      · exact .inl ⟨_, rfl⟩
      case h_2 image made =>
        split
        · exact .inl ⟨_, rfl⟩
        case h_2 check replayed =>
          split
          case isFalse => exact .inl ⟨_, rfl⟩
          case isTrue same =>
            split
            case isFalse => exact .inl ⟨_, rfl⟩
            case isTrue =>
              obtain ⟨format, clean, contents⟩ := same_contents same
              obtain ⟨_, holds, ends⟩ := replay_splits _ replayed (by rw [format]; simp)
              rw [ends clean, List.take_length, contents] at holds
              exact .inr ⟨image, free, holds, rfl⟩

end Compact

section Perform

/-- A change of the maps that is one frame's, and nothing else's. -/
structure Changes (keyOf : T → String) (frame : Frame T) (change : Log T → Log T) : Prop where
  contents : ∀ log, (change log).contents = log.contents.apply keyOf frame
  endAt : ∀ log, (change log).endAt = log.endAt
  cutOwed : ∀ log, (change log).cutOwed = log.cutOwed
  held : ∀ log, (change log).held = log.held

/-- An operation that appends is refused, changes nothing, or appends its own frame, whatever its
    file operations come to. -/
theorem Put.perform_cases (put : Put T) (before : Log T × Disk) :
    (∃ e, ∀ io, (Op.put put).perform codec hash keyOf io before = (.error e, before)) ∨
      ((∀ io, (Op.put put).perform codec hash keyOf io before = (.ok false, before)) ∧
        (Op.put put).effect keyOf before.1.contents = before.1.contents) ∨
      ∃ body change, put.frame.body codec = .ok body ∧ Changes keyOf put.frame change ∧
        (Op.put put).effect keyOf before.1.contents = before.1.contents.apply keyOf put.frame ∧
        ∀ io, (Op.put put).perform codec hash keyOf io before =
          before.1.put hash io.write body change before.2 := by
  obtain ⟨log, disk⟩ := before
  cases put with
  | upsert record =>
    have changes : Changes keyOf (.upsert record) fun log : Log T =>
        { log with records := log.records.insert (keyOf record) record } :=
      ⟨fun log => Contents.ext (KeyMap.lookup_insert_eq_update _ _ _) rfl, fun _ => rfl, fun _ => rfl,
        fun _ => rfl⟩
    simp only [Op.perform, Log.upsert]
    cases encoded : upsertBody codec record with
    | error e => exact .inl ⟨e, fun _ => rfl⟩
    | ok body =>
      cases found : log.records.lookup (keyOf record) with
      | none => exact .inr (.inr ⟨body, _, encoded, changes, rfl, fun _ => rfl⟩)
      | some held =>
        simp only
        cases former : upsertBody codec held with
        | error e => exact .inl ⟨e, fun _ => rfl⟩
        | ok same =>
          simp only
          by_cases equal : same = body
          · subst equal
            have unchanged : held = record := upsertBody_injective former encoded
            subst unchanged
            refine .inr (.inl ⟨fun _ => if_pos rfl, Contents.ext ?_ rfl⟩)
            show Function.update log.records.lookup (keyOf held) (some held) = log.records.lookup
            rw [← found, Function.update_eq_self]
          · refine .inr (.inr ⟨body, _, encoded, changes, rfl, fun _ => if_neg equal⟩)
  | remove key =>
    have changes : Changes keyOf (.remove key) fun log : Log T =>
        { log with
          records := log.records.erase key
          tombstoned := log.tombstoned.erase key
          removed := true } :=
      ⟨fun log => Contents.ext (KeyMap.lookup_erase_eq_update _ _) rfl, fun _ => rfl, fun _ => rfl,
        fun _ => rfl⟩
    simp only [Op.perform, Log.remove, Op.effect]
    by_cases absent : key ∉ log.records
    · have missing : (log.contents.record key).isSome = false := by
        rw [← Bool.not_eq_true]
        exact fun found => absent (AList.lookup_isSome.mp found)
      refine .inr (.inl ⟨fun _ => if_pos absent, ?_⟩)
      rw [if_neg (by rw [missing]; simp)]
    · have present : (log.contents.record key).isSome = true :=
        AList.lookup_isSome.mpr (not_not.mp absent)
      simp only [if_neg absent, if_pos present]
      cases encoded : (Frame.remove key : Frame T).body codec with
      | error e => exact .inl ⟨e, fun _ => rfl⟩
      | ok body => exact .inr (.inr ⟨body, _, encoded, changes, rfl, fun _ => rfl⟩)
  | tombstone key =>
    have changes : Changes keyOf (.tombstone key) fun log : Log T =>
        { log with tombstoned := insert key log.tombstoned } :=
      ⟨fun _ => rfl, fun _ => rfl, fun _ => rfl, fun _ => rfl⟩
    simp only [Op.perform, Log.tombstone, Op.effect]
    by_cases skips : key ∉ log.records ∨ key ∈ log.tombstoned
    · refine .inr (.inl ⟨fun _ => if_pos skips, ?_⟩)
      split
      case isTrue present =>
        rcases skips with absent | flagged
        · exact absurd (AList.lookup_isSome.mp present) absent
        · exact Contents.ext rfl (Finset.insert_eq_of_mem flagged)
      case isFalse => rfl
    · have present : (log.contents.record key).isSome = true :=
        AList.lookup_isSome.mpr (not_not.mp (not_or.mp skips).1)
      simp only [if_neg skips, if_pos present]
      cases encoded : (Frame.tombstone key : Frame T).body codec with
      | error e => exact .inl ⟨e, fun _ => rfl⟩
      | ok body => exact .inr (.inr ⟨body, _, encoded, changes, rfl, fun _ => rfl⟩)
  | untombstone key =>
    have changes : Changes keyOf (.untombstone key) fun log : Log T =>
        { log with tombstoned := log.tombstoned.erase key } :=
      ⟨fun _ => rfl, fun _ => rfl, fun _ => rfl, fun _ => rfl⟩
    simp only [Op.perform, Log.untombstone, Op.effect]
    by_cases unflagged : key ∉ log.tombstoned
    · refine .inr (.inl ⟨fun _ => if_pos unflagged, Contents.ext rfl ?_⟩)
      exact Finset.erase_eq_of_notMem unflagged
    · simp only [if_neg unflagged]
      cases encoded : (Frame.untombstone key : Frame T).body codec with
      | error e => exact .inl ⟨e, fun _ => rfl⟩
      | ok body => exact .inr (.inr ⟨body, _, encoded, changes, rfl, fun _ => rfl⟩)

/-- An append either fails with the maps as they were, or lands with its frame's change. -/
theorem Log.put_cases (hash : Bytes → UInt32) (write : Write) (body : Bytes) (change : Log T → Log T) (log : Log T)
    (disk : Disk) :
    (∃ e after left, log.append hash write body disk = (.error e, after, left) ∧
        log.put hash write body change disk = (.error e, after, left)) ∨
      ∃ after left, log.append hash write body disk = (.ok (), after, left) ∧
        log.put hash write body change disk = (.ok true, change after, left) := by
  unfold put
  cases did : log.append hash write body disk with
  | mk result rest =>
    obtain ⟨after, left⟩ := rest
    cases result with
    | error e => exact .inl ⟨e, after, left, rfl, rfl⟩
    | ok _ => exact .inr ⟨after, left, rfl, rfl⟩

theorem Log.append_error_contents {log after : Log T} {disk left : Disk} {write : Write}
    {body : Bytes} {e : ChainError}
    (did : log.append hash write body disk = (.error e, after, left)) :
    after.contents = log.contents ∧ after.endAt = log.endAt ∧ after.held = log.held := by
  rcases append_error did with ⟨rfl, _⟩ | ⟨_, _, _, _, _, _, ⟨rfl, _⟩ | rfl, _⟩ <;> exact ⟨rfl, rfl, rfl⟩

theorem Log.append_held {log after : Log T} {disk left : Disk} {write : Write} {body : Bytes}
    {result : Except ChainError Unit} (held : log.held ≠ none)
    (did : log.append hash write body disk = (result, after, left)) :
    after = log ∧ left = disk ∧ ∃ e, result = .error e := by
  unfold append at did
  split at did
  · cases did
    exact ⟨rfl, rfl, _, rfl⟩
  case h_2 free => exact absurd free held

theorem Sound.append_error {log after : Log T} {disk left : Disk} {write : Write} {body : Bytes}
    {e : ChainError} (sound : Sound codec hash keyOf log disk)
    (did : log.append hash write body disk = (.error e, after, left)) :
    Sound codec hash keyOf after left := by
  rcases Log.append_error did with ⟨rfl, rfl⟩ | ⟨buf, n, _, _, reaches, rfl, same, _⟩
  · exact sound
  · generalize part : buf.take n = written
    have kept : (disk.file.take log.endAt ++ written).take log.endAt = disk.file.take log.endAt :=
      List.take_left' (by rw [List.length_take, Nat.min_eq_left reaches])
    have long : (disk.file.take log.endAt ++ written).length = log.endAt + written.length := by
      rw [List.length_append, List.length_take, Nat.min_eq_left reaches]
    rcases same with ⟨rfl, rfl⟩ | rfl
    · subst part
      refine ⟨?_, by rw [long]; omega, fun _ _ => by rw [long]; rfl⟩
      rw [kept]
      exact sound.holds
    · refine ⟨?_, ?_, fun _ paid => nomatch paid⟩
      · show Holds codec hash keyOf ((disk.file.take log.endAt ++ written).take log.endAt) log.contents
        rw [kept]
        exact sound.holds
      · show log.endAt ≤ (disk.file.take log.endAt ++ written).length
        omega

theorem Sound.append_ok {log after : Log T} {disk left : Disk} {write : Write} {frame : Frame T}
    {body : Bytes} (sound : Sound codec hash keyOf log disk) (encoded : frame.body codec = .ok body)
    (did : log.append hash write body disk = (.ok (), after, left)) :
    Holds codec hash keyOf left.file (log.contents.apply keyOf frame) ∧
      after.contents = log.contents ∧ after.endAt = left.file.length := by
  obtain ⟨buf, _, _, pushed, reaches, rfl, rfl⟩ := Log.append_ok did
  have length : (disk.file.take log.endAt).length = log.endAt := by
    rw [List.length_take, Nat.min_eq_left reaches]
  refine ⟨sound.holds.push encoded (by rwa [length]), rfl, ?_⟩
  show log.endAt + buf.length = (disk.file.take log.endAt ++ buf).length
  rw [List.length_append, length]

/-- What any operation does to the maps: nothing when it fails, its effect when it returns `Ok`. -/
theorem Op.perform_contents (codec : Codec T) (hash : Bytes → UInt32) (keyOf : T → String) (op : Op T)
    (io : Io) (before : Log T × Disk) :
    (∀ e, (op.perform codec hash keyOf io before).1 = .error e →
      (op.perform codec hash keyOf io before).2.1.contents = before.1.contents) ∧
      ∀ wrote, (op.perform codec hash keyOf io before).1 = .ok wrote →
        (op.perform codec hash keyOf io before).2.1.contents = op.effect keyOf before.1.contents := by
  obtain ⟨log, disk⟩ := before
  cases op with
  | put put =>
    rcases put.perform_cases (log, disk) with
      ⟨e, fails⟩ | ⟨skips, same⟩ | ⟨body, change, _, changes, effect, appends⟩
    · rw [fails]
      exact ⟨fun _ _ => rfl, fun _ ok => nomatch ok⟩
    · rw [skips]
      exact ⟨fun _ _ => rfl, fun _ _ => same.symm⟩
    · rw [appends, effect]
      rcases log.put_cases hash io.write body change disk with
        ⟨e, after, left, did, result⟩ | ⟨after, left, did, result⟩
      · rw [result]
        exact ⟨fun _ _ => (Log.append_error_contents did).1, fun _ ok => nomatch ok⟩
      · rw [result]
        refine ⟨(fun _ fails => nomatch fails), fun _ _ => ?_⟩
        obtain ⟨buf, _, _, _, _, rfl, _⟩ := Log.append_ok did
        rw [changes.contents]
        rfl
  | wipe =>
    simp only [perform, Log.wipe, effect]
    cases log.held with
    | some why => exact ⟨fun _ _ => rfl, fun _ ok => nomatch ok⟩
    | none =>
      cases io.replaces with
      | true => exact ⟨(fun _ fails => nomatch fails), fun _ _ => rfl⟩
      | false => exact ⟨fun _ _ => rfl, fun _ ok => nomatch ok⟩
  | compact =>
    simp only [perform, effect]
    rcases log.compact_cases codec hash keyOf io.replaces disk with
      ⟨e, did⟩ | ⟨image, _, _, did⟩
    · rw [did]
      exact ⟨fun _ _ => rfl, fun _ ok => nomatch ok⟩
    · rw [did]
      exact ⟨(fun _ fails => nomatch fails), fun _ _ => rfl⟩

/-- What any operation does to the file: it stays sound, and one that wrote leaves a file that is
    exactly the log's state. -/
theorem Op.perform_sound (op : Op T) (io : Io) {before : Log T × Disk}
    (sound : Sound codec hash keyOf before.1 before.2) :
    Sound codec hash keyOf (op.perform codec hash keyOf io before).2.1
        (op.perform codec hash keyOf io before).2.2 ∧
      ((op.perform codec hash keyOf io before).1 = .ok true →
        Holds codec hash keyOf (op.perform codec hash keyOf io before).2.2.file
          (op.perform codec hash keyOf io before).2.1.contents) := by
  obtain ⟨log, disk⟩ := before
  cases op with
  | put put =>
    rcases put.perform_cases (log, disk) with
      ⟨e, fails⟩ | ⟨skips, _⟩ | ⟨body, change, encoded, changes, _, appends⟩
    · rw [fails]
      exact ⟨sound, fun ok => nomatch ok⟩
    · rw [skips]
      exact ⟨sound, fun ok => nomatch ok⟩
    · rw [appends]
      rcases log.put_cases hash io.write body change disk with
        ⟨e, after, left, did, result⟩ | ⟨after, left, did, result⟩
      · rw [result]
        exact ⟨sound.append_error did, fun ok => nomatch ok⟩
      · rw [result]
        obtain ⟨holds, same, ends⟩ := sound.append_ok encoded did
        rw [← same, ← changes.contents] at holds
        exact ⟨holds.sound (by rw [changes.endAt, ends]), fun _ => holds⟩
  | wipe =>
    simp only [perform, Log.wipe]
    cases log.held with
    | some why => exact ⟨sound, fun ok => nomatch ok⟩
    | none =>
      cases io.replaces with
      | true =>
        have nothing : Holds codec hash keyOf [] (.empty : Contents T) := .empty
        exact ⟨Holds.sound nothing rfl, fun _ => nothing⟩
      | false => exact ⟨sound, fun ok => nomatch ok⟩
  | compact =>
    simp only [perform]
    rcases log.compact_cases codec hash keyOf io.replaces disk with
      ⟨e, did⟩ | ⟨image, _, holds, did⟩
    · rw [did]
      exact ⟨sound, fun ok => nomatch ok⟩
    · rw [did]
      exact ⟨Holds.sound holds rfl, fun _ => holds⟩

/-- A held log and its file stay as they are, and nothing is written. -/
theorem Op.perform_held (op : Op T) (io : Io) {before : Log T × Disk} (held : before.1.held ≠ none) :
    (op.perform codec hash keyOf io before).2 = before ∧
      (op.perform codec hash keyOf io before).1 ≠ .ok true := by
  obtain ⟨log, disk⟩ := before
  cases op with
  | put put =>
    rcases put.perform_cases (log, disk) with
      ⟨e, fails⟩ | ⟨skips, _⟩ | ⟨body, change, _, _, _, appends⟩
    · rw [fails]
      exact ⟨rfl, fun ok => nomatch ok⟩
    · rw [skips]
      exact ⟨rfl, fun ok => nomatch ok⟩
    · rw [appends]
      rcases log.put_cases hash io.write body change disk with
        ⟨e, after, left, did, result⟩ | ⟨after, left, did, _⟩
      · obtain ⟨rfl, rfl, _⟩ := Log.append_held held did
        rw [result]
        exact ⟨rfl, fun ok => nomatch ok⟩
      · obtain ⟨_, _, e, fails⟩ := Log.append_held held did
        cases fails
  | wipe =>
    simp only [perform, Log.wipe]
    cases reason : log.held with
    | some why => exact ⟨rfl, fun ok => nomatch ok⟩
    | none => exact absurd reason held
  | compact =>
    simp only [perform]
    rcases log.compact_cases codec hash keyOf io.replaces disk with
      ⟨e, did⟩ | ⟨image, free, _⟩
    · rw [did]
      exact ⟨rfl, fun ok => nomatch ok⟩
    · exact absurd free held

end Perform

section Load

/-- The rewrite a load makes keeps the maps, and either leaves the file or makes it the state. -/
theorem Log.settle_cases (codec : Codec T) (hash : Bytes → UInt32) (keyOf : T → String) (io : LoadIo)
    (found : Replayed T) (log : Log T) (disk : Disk) :
    ∃ after left, log.settle codec hash keyOf io found disk = (after, left) ∧
      after.contents = log.contents ∧ (found.format ≠ .v1 → after.held = log.held) ∧
      ((Holds codec hash keyOf left.file after.contents ∧ after.endAt = left.file.length) ∨
        (found.format = .v1 ∧ after.held ≠ none) ∨
        (found.format ≠ .v1 ∧ left = disk ∧
          after = { log with cutOwed := decide (found.tail ≠ .clean) })) := by
  unfold settle
  simp only
  split
  case isTrue =>
    rcases Log.compact_cases codec hash keyOf io.replaces
        { log with cutOwed := decide (found.tail ≠ .clean) } disk with ⟨e, did⟩ | ⟨image, _, holds, did⟩
    · rw [did]
      by_cases old : found.format = .v1
      · simp only [if_pos old]
        exact ⟨_, _, rfl, rfl, fun new => absurd old new, .inr (.inl ⟨old, by simp⟩)⟩
      · simp only [if_neg old]
        exact ⟨_, _, rfl, rfl, fun _ => rfl, .inr (.inr ⟨old, rfl, rfl⟩)⟩
    · rw [did]
      exact ⟨_, _, rfl, rfl, fun _ => rfl, .inl ⟨holds, rfl⟩⟩
  case isFalse kept =>
    have new : found.format ≠ .v1 := fun old => kept (.inl old)
    exact ⟨_, _, rfl, rfl, fun _ => rfl, .inr (.inr ⟨new, rfl, rfl⟩)⟩

/-- A log over a file that reads is sound, whether or not its load could write. -/
theorem Log.settle_sound {io : LoadIo} {found : Replayed T} {name : String} {disk : Disk}
    (replayed : replay codec hash keyOf v1 true disk.file = .ok found) (new : found.format ≠ .v1)
    {aside left : Disk} {after : Log T}
    (settled : (found.log name).settle codec hash keyOf io found aside = (after, left))
    (file : aside.file = disk.file) :
    Sound codec hash keyOf after left ∧ Reads codec hash keyOf v1 left.file after.contents ∧
      after.contents = found.contents ∧ after.held = none := by
  obtain ⟨log, rest, did, contents, free, shape⟩ :=
    Log.settle_cases codec hash keyOf io found (found.log name) aside
  rw [did] at settled
  cases settled
  refine ⟨?_, ?_, contents, free new⟩
  · rcases shape with ⟨holds, ends⟩ | ⟨old, _⟩ | ⟨_, rfl, rfl⟩
    · exact holds.sound ends
    · exact absurd old new
    · obtain ⟨reaches, holds, clean⟩ := replay_splits _ replayed new
      refine ⟨?_, ?_, ?_⟩
      · rw [file]
        exact holds
      · rw [file]
        exact reaches
      · intro _ paid
        rw [file]
        exact (clean (by simpa using paid)).symm
  · rcases shape with ⟨holds, _⟩ | ⟨old, _⟩ | ⟨_, rfl, rfl⟩
    · exact holds.reads v1
    · exact absurd old new
    · rw [file]
      exact ⟨found, replayed, new, rfl⟩

/-- A file that reads loads, with the contents it reads as, and free unless it has an unreadable
    tail whose copy failed. -/
theorem load_reads (name : String) {io : LoadIo} {disk : Disk} {contents : Contents T}
    (reads : Reads codec hash keyOf v1 disk.file contents) (known : checksumHolds hash = true)
    (readable : io.reads = true) :
    ∃ log left, load codec hash keyOf v1 name io disk = .ok (log, left) ∧
      log.contents = contents ∧ Sound codec hash keyOf log left ∧
      Reads codec hash keyOf v1 left.file contents ∧
      (log.held = none ∨ io.copies = false ∧ ∃ found n,
        replay codec hash keyOf v1 true disk.file = .ok found ∧ found.tail = .unreadable n) := by
  obtain ⟨found, replayed, new, rfl⟩ := reads
  obtain ⟨reaches, holds, clean⟩ := replay_splits _ replayed new
  have given : Reads codec hash keyOf v1 disk.file found.contents := ⟨found, replayed, new, rfl⟩
  unfold load
  rw [if_neg (by rw [readable]; simp), known]
  simp only [replayed, Except.bind, Bool.true_eq_false, if_false]
  split
  case isTrue empty =>
    refine ⟨_, _, rfl, rfl, ⟨holds, reaches, ?_⟩, given, .inl rfl⟩
    intro _ _
    have nothing := replay_empty replayed empty
    rw [nothing] at reaches ⊢
    exact (Nat.le_zero.mp reaches).symm
  case isFalse =>
    split
    case h_1 n unreadable =>
      split
      case isTrue =>
        generalize settled : (found.log name).settle codec hash keyOf io found _ = pair
        obtain ⟨after, left⟩ := pair
        obtain ⟨sound, reads, same, free⟩ := Log.settle_sound replayed new settled rfl
        exact ⟨after, left, rfl, same, sound, same ▸ reads, .inl free⟩
      case isFalse failed =>
        refine ⟨_, _, rfl, rfl, ⟨holds, reaches, ?_⟩, given,
          .inr ⟨by simpa using failed, found, n, rfl, unreadable⟩⟩
        intro free
        cases free
    case h_2 =>
      generalize settled : (found.log name).settle codec hash keyOf io found _ = pair
      obtain ⟨after, left⟩ := pair
      obtain ⟨sound, reads, same, free⟩ := Log.settle_sound replayed new settled rfl
      exact ⟨after, left, rfl, same, sound, same ▸ reads, .inl free⟩

/-- A file good to its end loads free, whatever else its load could do. -/
theorem load_holds (name : String) {io : LoadIo} {disk : Disk} {contents : Contents T}
    (holds : Holds codec hash keyOf disk.file contents) (known : checksumHolds hash = true)
    (readable : io.reads = true) :
    ∃ log left, load codec hash keyOf v1 name io disk = .ok (log, left) ∧ log.held = none ∧
      log.contents = contents := by
  obtain ⟨log, left, loaded, same, _, _, free | ⟨_, found, n, replayed, unreadable⟩⟩ :=
    load_reads name (holds.reads v1) known readable
  · exact ⟨log, left, loaded, free, same⟩
  · obtain ⟨other, reread, _, _, _, tail⟩ :=
      holds.replay_append v1 (fun _ => rfl) (v2Reader codec hash true).next_nil
    rw [List.append_nil, replayed] at reread
    cases reread
    rw [unreadable] at tail
    cases tail

/-- Whatever a load found, its log is held or its file is sound. -/
theorem load_held_or_sound {name : String} {io : LoadIo} {disk : Disk} {start : Log T × Disk}
    (loaded : load codec hash keyOf v1 name io disk = .ok start) :
    start.1.held ≠ none ∨ checksumHolds hash = true ∧ Sound codec hash keyOf start.1 start.2 := by
  cases readable : io.reads with
  | false =>
    unfold load at loaded
    rw [if_pos readable] at loaded
    cases loaded
  | true =>
    cases replayed : replay codec hash keyOf v1 (checksumHolds hash) disk.file with
    | error e =>
      unfold load at loaded
      rw [if_neg (by rw [readable]; simp)] at loaded
      simp only [replayed] at loaded
      cases loaded
    | ok found =>
      cases known : checksumHolds hash with
      | false =>
        unfold load at loaded
        rw [known] at replayed
        rw [if_neg (by rw [readable]; simp), known] at loaded
        simp only [replayed] at loaded
        cases loaded
        exact .inl (by simp)
      | true =>
        rw [known] at replayed
        by_cases new : found.format ≠ .v1
        · obtain ⟨log, left, did, _, sound, _⟩ :=
            load_reads name ⟨found, replayed, new, rfl⟩ known readable
          rw [did] at loaded
          cases loaded
          exact .inr ⟨rfl, sound⟩
        · have old : found.format = .v1 := not_not.mp new
          unfold load at loaded
          rw [if_neg (by rw [readable]; simp), known] at loaded
          simp only [replayed, Except.bind, Bool.true_eq_false, if_false, old, reduceCtorEq] at loaded
          have settled : ∀ aside, .ok ((found.log name).settle codec hash keyOf io found aside) =
              (Except.ok start : Except ChainError _) →
              start.1.held ≠ none ∨ true = true ∧ Sound codec hash keyOf start.1 start.2 := by
            intro aside made
            obtain ⟨after, left, did, _, _, shape⟩ :=
              Log.settle_cases codec hash keyOf io found (found.log name) aside
            rw [did] at made
            cases made
            rcases shape with ⟨holds, ends⟩ | ⟨_, held⟩ | ⟨wrong, _⟩
            · exact .inr ⟨rfl, holds.sound ends⟩
            · exact .inl held
            · exact absurd old wrong
          split at loaded
          · split at loaded
            · exact settled _ loaded
            · cases loaded
              exact .inl (by simp)
          · exact settled _ loaded

end Load

end Kaspaverse.Kvlog
