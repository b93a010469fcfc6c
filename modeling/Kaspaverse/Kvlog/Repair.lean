import Kaspaverse.Kvlog.CrashConsistency

namespace Kaspaverse.Kvlog

open Framed

variable {T : Type} {codec : Codec T} {hash : Bytes → UInt32} {keyOf : T → String}
  {v1 : Bytes → Option (Frame T)}

section Frames

theorem v1Next_some {rest : Bytes} {read : Frame T × Nat} {step : Nat}
    (found : v1Next v1 rest = some (read, step)) :
    V1_FRAME_HEADER_LEN ≤ rest.length ∧ step = V1_FRAME_HEADER_LEN + fromLeBytes (rest.take 4) ∧
      step ≤ rest.length ∧ (v1 ((rest.take step).drop V1_FRAME_HEADER_LEN)).map
        (fun frame => (frame, ((rest.take step).drop V1_FRAME_HEADER_LEN).length)) = some read := by
  unfold v1Next at found
  split at found
  · cases found
  case isFalse header =>
    simp only at found
    split at found
    · cases found
    case isFalse fits =>
      obtain ⟨frame, decoded, same⟩ := Option.map_eq_some_iff.mp found
      cases same
      exact ⟨Nat.le_of_not_lt header, rfl, Nat.le_of_not_lt fits, by rw [decoded]; rfl⟩

def v1Reader (v1 : Bytes → Option (Frame T)) : Reader UInt8 (Frame T × Nat) where
  next := v1Next v1
  positive := by
    intro rest read step found
    obtain ⟨_, extent, _⟩ := v1Next_some found
    have four : V1_FRAME_HEADER_LEN = 4 := rfl
    omega
  fits := fun _ _ _ found => (v1Next_some found).2.2.1
  settled := by
    intro rest read step found behind
    obtain ⟨header, extent, fits, decoded⟩ := v1Next_some found
    have four : V1_FRAME_HEADER_LEN = 4 := rfl
    have len : (rest.take step ++ behind).take 4 = rest.take 4 := by
      rw [List.take_append_of_le_length (by rw [List.length_take]; omega), List.take_take,
        Nat.min_eq_left (by omega)]
    have whole : (rest.take step ++ behind).take step = rest.take step :=
      List.take_left' (by rw [List.length_take, Nat.min_eq_left fits])
    have long : (rest.take step ++ behind).length = step + behind.length := by
      rw [List.length_append, List.length_take, Nat.min_eq_left fits]
    unfold v1Next
    simp only [len, long, ← extent, whole]
    rw [if_neg (by omega), if_neg (by omega)]
    obtain ⟨frame, known, same⟩ := Option.map_eq_some_iff.mp decoded
    rw [known, ← same]
    rfl

/-- How a file of a format is read, frame by frame. -/
def frameReader (codec : Codec T) (hash : Bytes → UInt32) (v1 : Bytes → Option (Frame T)) :
    Format → Reader UInt8 (Frame T × Nat)
  | .v1 => v1Reader v1
  | .v2 | .empty => v2Reader codec hash true

/-- A file behind its header is the longest run of frames that can be read, then its tail. -/
structure Kept (codec : Codec T) (hash : Bytes → UInt32) (v1 : Bytes → Option (Frame T)) (file : Bytes)
    (format : Format) (good : Bytes) (frames : List (Frame T × Nat)) (tail : Bytes) : Prop where
  formed : ∃ start, formatOf file = .ok (format, start) ∧ file = file.take start ++ (good ++ tail)
  framed : Frames (frameReader codec hash v1 format) good frames
  longest : ∀ other others behind, good ++ tail = other ++ behind →
    Frames (frameReader codec hash v1 format) other others → other <+: good ∧ others <+: frames

theorem formatOf_bounds {bytes : Bytes} {format : Format} {start : Nat}
    (formed : formatOf bytes = .ok (format, start)) :
    start ≤ bytes.length ∧ (format = .empty → bytes = []) ∧
      (format = .v2 → start = 0 → bytes.length < FRAME_HEADER_LEN) := by
  unfold formatOf at formed
  split at formed
  case isTrue empty =>
    cases formed
    exact ⟨Nat.zero_le _, fun _ => List.isEmpty_iff.mp empty, fun v2 => nomatch v2⟩
  case isFalse =>
    split at formed
    case isTrue headed =>
      simp only at formed
      split at formed
      · cases formed
      · cases formed
        exact ⟨headed.1, fun empty => (nomatch empty), fun _ zero => nomatch zero⟩
    case isFalse =>
      split at formed
      case isTrue torn =>
        cases formed
        exact ⟨Nat.zero_le _, fun empty => (nomatch empty), fun _ _ => torn.1⟩
      case isFalse =>
        cases formed
        exact ⟨Nat.zero_le _, fun empty => (nomatch empty), fun v2 => nomatch v2⟩

/-- A replay that verifies folds the longest run of frames, and judges all that follows it. -/
theorem replay_kept {bytes : Bytes} {found : Replayed T}
    (replayed : replay codec hash keyOf v1 true bytes = .ok found) :
    ∃ good frames tail, Kept codec hash v1 bytes found.format good frames tail ∧
      found.contents = frames.foldl (Contents.applyRead keyOf) .empty ∧
      found.tail = classify hash found.format tail ∧ bytes.drop found.goodEnd = tail := by
  unfold replay at replayed
  cases formed : formatOf bytes with
  | error e =>
    rw [formed] at replayed
    cases replayed
  | ok shape =>
    obtain ⟨format, start⟩ := shape
    rw [formed] at replayed
    obtain ⟨inside, nothing, torn⟩ := formatOf_bounds formed
    -- the scan of what stands behind the header, whichever reader it is made with
    suffices scanned : ∃ good frames rest, bytes.drop start = good ++ rest ∧
        Frames (frameReader codec hash v1 format) good frames ∧
        (frameReader codec hash v1 format).next rest = none ∧
        readFrames codec hash keyOf v1 true format start bytes =
          (frames.foldl (Replaying.apply keyOf) Replaying.start, rest) by
      obtain ⟨good, frames, rest, split, framed, stops, read⟩ := scanned
      simp only [bind, Except.bind, read] at replayed
      cases replayed
      have whole : bytes = bytes.take start ++ (good ++ rest) := by
        rw [← split, List.take_append_drop]
      refine ⟨good, frames, rest, ⟨⟨start, formed, whole⟩, framed, ?_⟩, ?_, rfl, ?_⟩
      · intro other others behind same also
        exact framed.longest stops also same
      · have folds := Replaying.contents_foldl keyOf frames Replaying.start
        exact folds
      · have sizes : bytes.length - rest.length = (bytes.take start ++ good).length := by
          have total := congrArg List.length whole
          simp only [List.length_append] at total ⊢
          omega
        change bytes.drop (bytes.length - rest.length) = rest
        rw [sizes]
        nth_rewrite 2 [whole]
        rw [← List.append_assoc]
        exact List.drop_left' rfl
    have enough : (bytes.drop start).length ≤ bytes.length := by
      rw [List.length_drop]
      omega
    cases format with
    | empty =>
      have none := nothing rfl
      subst none
      refine ⟨[], [], [], ?_, .nil, (v2Reader codec hash true).next_nil, rfl⟩
      exact List.drop_nil
    | v1 =>
      obtain ⟨good, frames, rest, split, framed, stops, scanned⟩ :=
        scan_splits (v1Reader v1) (Replaying.apply keyOf) bytes.length (bytes.drop start)
          Replaying.start enough
      exact ⟨good, frames, rest, split, framed, stops, scanned⟩
    | v2 =>
      by_cases zero : start = 0
      · subst zero
        have short := torn rfl rfl
        have stops : v2Next codec hash true bytes = none := by
          unfold v2Next v2FrameChecked
          rw [if_pos short]
        exact ⟨[], [], bytes, rfl, .nil, stops, rfl⟩
      · obtain ⟨good, frames, rest, split, framed, stops, scanned⟩ :=
          scan_splits (v2Reader codec hash true) (Replaying.apply keyOf) bytes.length
            (bytes.drop start) Replaying.start enough
        refine ⟨good, frames, rest, split, framed, stops, ?_⟩
        unfold readFrames
        rw [if_neg zero]
        exact scanned

end Frames

section Tail

/-- Bytes a cut must not destroy: a v2 tail with a whole frame in it, or longer than the one frame it
    declares and not all zeros, and a v1 tail with room for a header that is not all zeros. -/
def Precious (hash : Bytes → UInt32) (format : Format) (tail : Bytes) : Prop :=
  match format with
  | .empty => False
  | .v1 => V1_FRAME_HEADER_LEN ≤ tail.length ∧ ∃ byte ∈ tail, byte ≠ 0
  | .v2 => (∃ i < tail.length, (v2FrameAt hash (tail.drop i)).isSome = true) ∨
      (FRAME_HEADER_LEN + fromLeBytes (tail.take 4) < tail.length ∧ ∃ byte ∈ tail, byte ≠ 0)

/-- Zeros hold no frame. -/
theorem v2FrameAt_zeros (zeros : hash [0, 0, 0, 0] ≠ 0) {bytes : Bytes} (all : ∀ byte ∈ bytes, byte = 0) :
    v2FrameAt hash bytes = none := by
  unfold v2FrameAt v2FrameChecked
  by_cases short : bytes.length < FRAME_HEADER_LEN
  · exact if_pos short
  · have eight : FRAME_HEADER_LEN = 8 := rfl
    have blank : bytes = List.replicate bytes.length 0 := List.eq_replicate_iff.mpr ⟨rfl, all⟩
    have first : bytes.take 4 = [0, 0, 0, 0] := by
      rw [blank, List.take_replicate, Nat.min_eq_left (by omega)]
      rfl
    have second : (bytes.drop 4).take 4 = [0, 0, 0, 0] := by
      rw [blank, List.drop_replicate, List.take_replicate, Nat.min_eq_left (by omega)]
      rfl
    have none : (bytes.take 8).drop FRAME_HEADER_LEN = [] := by
      apply List.drop_eq_nil_of_le
      rw [List.length_take]
      omega
    have value : fromLeBytes [0, 0, 0, 0] = 0 := rfl
    have differs : ((hash [0, 0, 0, 0]).toNat == 0) = false := by
      rw [beq_eq_false_iff_ne]
      exact fun same => zeros (UInt32.toNat_inj.mp same)
    rw [if_neg short]
    simp only [first, second, value, eight, Nat.add_zero] at none ⊢
    rw [if_neg (by omega), none, frameCrc, List.append_nil, differs]
    rfl

theorem classify_precious (zeros : hash [0, 0, 0, 0] ≠ 0) {format : Format} {tail : Bytes}
    (precious : Precious hash format tail) : classify hash format tail = .unreadable tail.length := by
  have notZeros : ∃ byte ∈ tail, byte ≠ 0 := by
    cases format with
    | empty => cases precious
    | v1 => exact precious.2
    | v2 =>
      rcases precious with ⟨i, inside, framed⟩ | ⟨_, live⟩
      · by_contra blank
        push Not at blank
        rw [v2FrameAt_zeros zeros fun byte member => blank byte (List.mem_of_mem_drop member)] at framed
        cases framed
      · exact live
  obtain ⟨byte, member, live⟩ := notZeros
  have filled : tail.length ≠ 0 := by
    have some := List.length_pos_of_mem member
    omega
  have mixed : ¬ tail.all (· == 0) = true := by
    intro blank
    exact live (beq_iff_eq.mp (List.all_eq_true.mp blank byte member))
  unfold classify
  simp only [if_neg filled, if_neg mixed]
  cases format with
  | empty => cases precious
  | v1 => exact if_neg (Nat.not_lt.mpr precious.1)
  | v2 =>
    simp only
    by_cases framed : ((List.range tail.length).any fun i => (v2FrameAt hash (tail.drop i)).isSome) = true
    · exact if_pos framed
    · rcases precious with ⟨i, inside, found⟩ | ⟨long, _⟩
      · exact absurd (List.any_eq_true.mpr ⟨i, List.mem_range.mpr inside, found⟩) framed
      · rw [if_neg framed, if_neg (by omega), if_neg (by omega)]

end Tail

section Load

/-- No operation on the log does anything. -/
def Refuses (codec : Codec T) (hash : Bytes → UInt32) (keyOf : T → String) (log : Log T) : Prop :=
  ∀ disk, (∀ write body, ∃ e, log.append hash write body disk = (.error e, log, disk)) ∧
    (∀ replaces, ∃ e, log.wipe replaces disk = (.error e, log, disk)) ∧
    ∀ replaces, ∃ e, log.compact codec hash keyOf replaces disk = (.error e, log, disk)

theorem Log.refuses {log : Log T} (held : log.held ≠ none) : Refuses codec hash keyOf log := by
  obtain ⟨why, isHeld⟩ := Option.ne_none_iff_exists'.mp held
  intro disk
  refine ⟨fun write body => ?_, fun replaces => ?_, fun replaces => ?_⟩
  · unfold append
    rw [isHeld]
    exact ⟨_, rfl⟩
  · unfold wipe
    rw [isHeld]
    exact ⟨_, rfl⟩
  · unfold compact
    rw [isHeld]
    exact ⟨_, rfl⟩

theorem runOps_held {start : Log T × Disk} (held : start.1.held ≠ none) (steps : List (Op T × Io)) :
    runOps codec hash keyOf start steps = start := by
  apply runOps_induction (p := fun at_ => at_ = start)
  · intro step _ before same
    subst same
    exact (step.1.perform_held step.2 held).1
  · rfl

theorem Log.compact_unwritten (codec : Codec T) (hash : Bytes → UInt32) (keyOf : T → String) (log : Log T)
    (disk : Disk) :
    ∃ e, log.compact codec hash keyOf false disk = (.error e, log, disk) := by
  unfold compact
  split
  · exact ⟨_, rfl⟩
  · split
    · exact ⟨_, rfl⟩
    · split
      · exact ⟨_, rfl⟩
      · split
        · exact ⟨_, rfl⟩
        · split
          · exact ⟨_, rfl⟩
          · exact ⟨_, rfl⟩

/-- A rewrite keeps the copies, and holds the log only over a v1 file it left as it was. -/
theorem Log.settle_file {io : LoadIo} {found : Replayed T} {log after : Log T} {disk left : Disk}
    (free : log.held = none) (settled : log.settle codec hash keyOf io found disk = (after, left)) :
    after.contents = log.contents ∧ left.asides = disk.asides ∧
      (after.held ≠ none → left = disk) ∧
      (found.format = .v1 → io.replaces = false → after.held ≠ none) := by
  unfold settle at settled
  simp only at settled
  split at settled
  case isTrue =>
    rcases Log.compact_cases codec hash keyOf io.replaces
        { log with cutOwed := decide (found.tail ≠ .clean) } disk with ⟨e, did⟩ | ⟨image, _, _, did⟩
    · rw [did] at settled
      simp only at settled
      split at settled
      case isTrue =>
        cases settled
        exact ⟨rfl, rfl, fun _ => rfl, fun _ _ => by simp⟩
      case isFalse new =>
        cases settled
        exact ⟨rfl, rfl, fun _ => rfl, fun old => absurd old new⟩
    · have written : io.replaces ≠ false := by
        intro unwritten
        obtain ⟨e, failed⟩ := Log.compact_unwritten codec hash keyOf
          { log with cutOwed := decide (found.tail ≠ .clean) } disk
        rw [unwritten, failed] at did
        cases did
      rw [did] at settled
      cases settled
      exact ⟨rfl, rfl, fun held => absurd free held, fun _ unwritten => absurd unwritten written⟩
  case isFalse kept =>
    cases settled
    exact ⟨rfl, rfl, fun _ => rfl, fun old => absurd (.inl old) kept⟩

/-- A load serves its log read-only over the file as it is, or has copied an unreadable tail aside. -/
theorem load_file {name : String} {io : LoadIo} {disk left : Disk} {log : Log T}
    (loaded : load codec hash keyOf v1 name io disk = .ok (log, left)) :
    (log.held ≠ none → left.file = disk.file) ∧ (checksumHolds hash = false → log.held ≠ none) ∧
      (checksumHolds hash = true → ∃ found, replay codec hash keyOf v1 true disk.file = .ok found ∧
        log.contents = found.contents ∧
        (∀ n, found.tail = .unreadable n → log.held = none →
          ∃ aside, left.asides.lookup aside = some (disk.file.drop found.goodEnd)) ∧
        (∀ n, found.tail = .unreadable n → io.copies = false → log.held ≠ none) ∧
        (found.format = .v1 → io.replaces = false → log.held ≠ none)) := by
  unfold load at loaded
  split at loaded
  · cases loaded
  · cases known : checksumHolds hash with
    | false =>
      rw [known] at loaded
      cases replayed : replay codec hash keyOf v1 false disk.file with
      | error e =>
        simp only [replayed] at loaded
        cases loaded
      | ok found =>
        simp only [replayed] at loaded
        cases loaded
        exact ⟨fun _ => rfl, fun _ => by simp, fun wrong => nomatch wrong⟩
    | true =>
      rw [known] at loaded
      cases replayed : replay codec hash keyOf v1 true disk.file with
      | error e =>
        simp only [replayed] at loaded
        cases loaded
      | ok found =>
        simp only [replayed, Except.bind, Bool.true_eq_false, if_false] at loaded
        suffices shape : (log.held ≠ none → left.file = disk.file) ∧ log.contents = found.contents ∧
            (∀ n, found.tail = .unreadable n → log.held = none →
              ∃ aside, left.asides.lookup aside = some (disk.file.drop found.goodEnd)) ∧
            (∀ n, found.tail = .unreadable n → io.copies = false → log.held ≠ none) ∧
            (found.format = .v1 → io.replaces = false → log.held ≠ none) from
          ⟨shape.1, fun wrong => (nomatch wrong), fun _ => ⟨found, rfl, shape.2⟩⟩
        split at loaded
        case isTrue empty =>
          cases loaded
          have nothing := replay_empty replayed empty
          obtain ⟨_, _, tail, _, _, judged, dropped⟩ := replay_kept replayed
          rw [nothing, List.drop_nil] at dropped
          rw [← dropped, classify_nil] at judged
          refine ⟨fun _ => rfl, rfl, ?_, ?_, ?_⟩
          · intro n unreadable
            rw [judged] at unreadable
            cases unreadable
          · intro n unreadable
            rw [judged] at unreadable
            cases unreadable
          · intro old
            rw [empty] at old
            cases old
        case isFalse =>
          split at loaded
          case h_1 n unreadable =>
            split at loaded
            case isTrue copied =>
              obtain ⟨contents, asides, held, unmigrated⟩ := Log.settle_file rfl (Except.ok.inj loaded)
              refine ⟨?_, contents, ?_, ?_, unmigrated⟩
              · intro isHeld
                rw [held isHeld]
              · intro _ _ _
                rw [asides]
                exact ⟨_, AList.lookup_insert _⟩
              · intro _ _ failed
                rw [copied] at failed
                cases failed
            case isFalse =>
              cases loaded
              exact ⟨fun _ => rfl, rfl, fun _ _ free => (nomatch free), fun _ _ _ => by simp,
                fun _ _ => by simp⟩
          case h_2 readable =>
            obtain ⟨contents, _, held, unmigrated⟩ := Log.settle_file rfl (Except.ok.inj loaded)
            refine ⟨?_, contents, ?_, ?_, unmigrated⟩
            · intro isHeld
              rw [held isHeld]
            · intro n unreadable
              exact absurd unreadable (readable n)
            · intro n unreadable
              exact absurd unreadable (readable n)

/-- A load copies nothing but an unreadable tail. -/
theorem load_uncopied {name : String} {io : LoadIo} {disk left : Disk} {log : Log T}
    (loaded : load codec hash keyOf v1 name io disk = .ok (log, left)) {found : Replayed T}
    (replayed : replay codec hash keyOf v1 true disk.file = .ok found)
    (readable : ∀ n, found.tail ≠ .unreadable n) (known : checksumHolds hash = true) :
    left.asides = disk.asides := by
  unfold load at loaded
  split at loaded
  · cases loaded
  · rw [known] at loaded
    simp only [replayed, Except.bind, Bool.true_eq_false, if_false] at loaded
    split at loaded
    · cases loaded
      rfl
    · exact (Log.settle_file rfl (Except.ok.inj loaded)).2.1

theorem load_newer {name : String} {io : LoadIo} {disk : Disk}
    (headed : FILE_HEADER_LEN ≤ disk.file.length ∧ disk.file.take 4 = MAGIC)
    (newer : VERSION < fromLeBytes ((disk.file.drop 4).take 4)) :
    ∃ e, load codec hash keyOf v1 name io disk = .error e := by
  have refused : ∃ e, formatOf disk.file = .error e := by
    have filled : disk.file.isEmpty = false := by
      cases empty : disk.file with
      | nil =>
        rw [empty] at headed
        cases headed.1
      | cons byte bytes => rfl
    unfold formatOf
    rw [filled, if_neg (by decide), if_pos headed]
    simp only [if_pos (Nat.ne_of_gt newer)]
    exact ⟨_, rfl⟩
  obtain ⟨e, refused⟩ := refused
  unfold load
  split
  · exact ⟨_, rfl⟩
  · unfold replay
    rw [refused]
    exact ⟨e, rfl⟩

/-- A load keeps the longest run of frames it can read and cuts no bytes that may be frames before they
    are copied; where it cannot do so, the file stays as it is and the log takes no write. -/
theorem no_repair_destroys (zeros : hash [0, 0, 0, 0] ≠ 0) (name : String) (io : LoadIo) (disk : Disk) :
    (FILE_HEADER_LEN ≤ disk.file.length ∧ disk.file.take 4 = MAGIC →
      VERSION < fromLeBytes ((disk.file.drop 4).take 4) →
        ∃ e, load codec hash keyOf v1 name io disk = .error e) ∧
    ∀ log left, load codec hash keyOf v1 name io disk = .ok (log, left) →
      (log.held ≠ none → left.file = disk.file ∧ Refuses codec hash keyOf log ∧
        ∀ steps, runOps codec hash keyOf (log, left) steps = (log, left)) ∧
      (checksumHolds hash = false → log.held ≠ none) ∧
      (checksumHolds hash = true → ∃ format good frames tail,
        Kept codec hash v1 disk.file format good frames tail ∧
        (log.held = none → log.contents = frames.foldl (Contents.applyRead keyOf) .empty ∧
          (Precious hash format tail → ∃ aside, left.asides.lookup aside = some tail)) ∧
        (Precious hash format tail → io.copies = false → log.held ≠ none) ∧
        (format = .v1 → io.replaces = false → log.held ≠ none)) := by
  refine ⟨fun headed newer => load_newer headed newer, ?_⟩
  intro log left loaded
  obtain ⟨kept, broken, holds⟩ := load_file loaded
  refine ⟨fun held => ⟨kept held, Log.refuses held, runOps_held held⟩, broken, ?_⟩
  intro known
  obtain ⟨found, replayed, contents, copied, uncopied, unmigrated⟩ := holds known
  obtain ⟨good, frames, tail, splits, folded, judged, dropped⟩ := replay_kept replayed
  rw [dropped] at copied
  refine ⟨found.format, good, frames, tail, splits, ?_, ?_, unmigrated⟩
  · intro free
    refine ⟨contents.trans folded, ?_⟩
    intro precious
    exact copied _ (judged.trans (classify_precious zeros precious)) free
  · intro precious
    exact uncopied _ (judged.trans (classify_precious zeros precious))

end Load

section Sample

theorem load_headed {tail : Bytes} (stops : v2Next textCodec crc32 true tail = none) :
    ∃ log left, load textCodec crc32 id textV1 "log" working ⟨fileHeader ++ tail, ∅⟩ = .ok (log, left) ∧
      log.held = none := by
  have headed : Holds textCodec crc32 id fileHeader .empty :=
    .inr ⟨[], [], (List.append_nil _).symm, .nil, rfl⟩
  have reads : Reads textCodec crc32 id textV1 (fileHeader ++ tail) .empty :=
    headed.reads_append textV1 (fun empty => nomatch empty) stops
  obtain ⟨log, left, loaded, _, _, _, free | ⟨wrong, _⟩⟩ :=
    @load_reads _ textCodec crc32 id textV1 "log" working ⟨fileHeader ++ tail, ∅⟩ _ reads
      checksumHolds_crc32 rfl
  · exact ⟨log, left, loaded, free⟩
  · cases wrong

/-- Such bytes are the tail of the file. -/
theorem Kept.headed {tail good rest : Bytes} {format : Format} {frames : List (Frame String × Nat)}
    (kept : Kept textCodec crc32 textV1 (fileHeader ++ tail) format good frames rest)
    (stops : v2Next textCodec crc32 true tail = none) : format = .v2 ∧ rest = tail := by
  obtain ⟨start, formed, whole⟩ := kept.formed
  rw [formatOf_fileHeader] at formed
  cases formed
  have header : (fileHeader ++ tail).take FILE_HEADER_LEN = fileHeader := List.take_left' rfl
  rw [header] at whole
  have same : tail = good ++ rest := List.append_cancel_left whole
  have framed := kept.framed
  cases framed with
  | nil => exact ⟨rfl, same.symm⟩
  | @cons piece after frame frames head _ =>
    have read := (v2Reader textCodec crc32 true).next_append head (after ++ rest)
    rw [← List.append_assoc, ← same] at read
    rw [show (v2Reader textCodec crc32 true).next tail = none from stops] at read
    cases read

/-- A frame that fails its checksum, with a byte behind it. -/
def spoiled : Bytes := [0, 0, 0, 0, 1, 0, 0, 0, 7]

theorem no_repair_destroys_spoiled : ∃ log left aside,
    load textCodec crc32 id textV1 "log" working ⟨fileHeader ++ spoiled, ∅⟩ = .ok (log, left) ∧
      left.asides.lookup aside = some spoiled := by
  have stops : v2Next textCodec crc32 true spoiled = none := by decide +kernel
  obtain ⟨log, left, loaded, free⟩ := load_headed stops
  have zeros : crc32 [0, 0, 0, 0] ≠ 0 := by decide +kernel
  obtain ⟨_, _, holds⟩ := (no_repair_destroys zeros "log" working ⟨fileHeader ++ spoiled, ∅⟩).2 log left loaded
  obtain ⟨format, good, frames, tail, kept, whenFree, _⟩ := holds checksumHolds_crc32
  obtain ⟨rfl, rfl⟩ := kept.headed stops
  have precious : Precious crc32 .v2 spoiled := by
    right
    exact ⟨by decide, 7, by decide, by decide⟩
  obtain ⟨aside, copied⟩ := (whenFree free).2 precious
  exact ⟨log, left, aside, loaded, copied⟩

/-- Zeros are cut without a copy, though they are longer than the frame they declare. -/
theorem zeros_cut_uncopied : ¬ ∀ (disk left : Disk) (log : Log String),
    load textCodec crc32 id textV1 "log" working disk = .ok (log, left) → log.held = none →
    ∀ good frames tail, Kept textCodec crc32 textV1 disk.file .v2 good frames tail →
      (∃ i < tail.length, (v2FrameAt crc32 (tail.drop i)).isSome = true) ∨
        FRAME_HEADER_LEN + fromLeBytes (tail.take 4) < tail.length →
      ∃ aside, left.asides.lookup aside = some tail := by
  intro stated
  let blank : Bytes := List.replicate 9 0
  have stops : v2Next textCodec crc32 true blank = none := by decide +kernel
  obtain ⟨log, left, loaded, free⟩ := load_headed stops
  obtain ⟨_, _, holds⟩ := load_file loaded
  obtain ⟨found, replayed, _⟩ := holds checksumHolds_crc32
  obtain ⟨good, frames, tail, kept, _, judged, _⟩ := replay_kept replayed
  obtain ⟨isV2, rfl⟩ := kept.headed stops
  rw [isV2] at kept judged
  have torn : classify crc32 .v2 blank = .torn 9 := by decide
  have asides : left.asides = ∅ := by
    apply load_uncopied loaded replayed ?_ checksumHolds_crc32
    intro n unreadable
    rw [judged, torn] at unreadable
    cases unreadable
  obtain ⟨aside, copied⟩ := stated _ left log loaded free good frames blank kept (.inr (by decide))
  rw [asides] at copied
  cases copied

end Sample

end Kaspaverse.Kvlog
