import Kaspaverse.Kvlog.Contents

namespace Kaspaverse.Kvlog

open Framed

variable {T : Type} (codec : Codec T) (hash : Bytes → UInt32) (keyOf : T → String)
  (v1 : Bytes → Option (Frame T))

/-- The bytes are nothing yet, or a header and whole frames, and fold to the contents. -/
def Holds (bytes : Bytes) (contents : Contents T) : Prop :=
  (bytes = [] ∧ contents = .empty) ∨
    ∃ body frames, bytes = fileHeader ++ body ∧ Frames (v2Reader codec hash true) body frames ∧
      frames.foldl (Contents.applyRead keyOf) .empty = contents

/-- A replay of the bytes gives the contents, and they are no v1 file. -/
def Reads (bytes : Bytes) (contents : Contents T) : Prop :=
  ∃ found, replay codec hash keyOf v1 true bytes = .ok found ∧ found.format ≠ .v1 ∧
    found.contents = contents

section Format

theorem length_fileHeader : fileHeader.length = FILE_HEADER_LEN := rfl

theorem formatOf_fileHeader (body : Bytes) :
    formatOf (fileHeader ++ body) = .ok (.v2, FILE_HEADER_LEN) := by
  have magic : (fileHeader ++ body).take 4 = MAGIC := rfl
  have version : fromLeBytes (((fileHeader ++ body).drop 4).take 4) = VERSION := rfl
  have long : FILE_HEADER_LEN ≤ (fileHeader ++ body).length := by
    rw [List.length_append, length_fileHeader]
    omega
  have filled : (fileHeader ++ body).isEmpty = false := rfl
  unfold formatOf
  rw [filled, if_neg (by decide), if_pos ⟨long, magic⟩]
  simp only [version]
  rfl

theorem formatOf_tornHeader : ∀ n < FILE_HEADER_LEN,
    formatOf (fileHeader.take n) = .ok (.empty, 0) ∨ formatOf (fileHeader.take n) = .ok (.v2, 0) := by
  have each : ∀ n < 8, formatOf (fileHeader.take n) = .ok (.empty, 0) ∨
      formatOf (fileHeader.take n) = .ok (.v2, 0) := by
    intro n short
    match n, short with
    | 0, _ => exact .inl rfl
    | 1, _ | 2, _ | 3, _ | 4, _ | 5, _ | 6, _ | 7, _ => exact .inr rfl
  exact each

/-- Frames start at the beginning of a file or right behind a v2 header. -/
theorem formatOf_start {bytes : Bytes} {format : Format} {start : Nat}
    (formed : formatOf bytes = .ok (format, start)) :
    (format = .empty ∧ bytes = []) ∨ (format = .v2 ∧ start = 0) ∨ format = .v1 ∨
      (format = .v2 ∧ start = FILE_HEADER_LEN ∧ ∃ body, bytes = fileHeader ++ body) := by
  unfold formatOf at formed
  split at formed
  case isTrue empty =>
    cases formed
    exact .inl ⟨rfl, List.isEmpty_iff.mp empty⟩
  case isFalse =>
    split at formed
    case isTrue headed =>
      simp only at formed
      split at formed
      · cases formed
      case isFalse version =>
        cases formed
        refine .inr (.inr (.inr ⟨rfl, rfl, bytes.drop 8, ?_⟩))
        obtain ⟨long, magic⟩ := headed
        have eight : FILE_HEADER_LEN = 8 := rfl
        have known : fromLeBytes ((bytes.drop 4).take 4) = VERSION := not_not.mp version
        have four : ((bytes.drop 4).take 4).length = 4 := by
          rw [List.length_take, List.length_drop]
          omega
        calc bytes = bytes.take 4 ++ ((bytes.drop 4).take 4 ++ (bytes.drop 4).drop 4) := by
              rw [List.take_append_drop, List.take_append_drop]
          _ = MAGIC ++ (toLeBytes VERSION ++ bytes.drop 8) := by
              rw [magic, ← known, toLeBytes_fromLeBytes four, List.drop_drop]
          _ = fileHeader ++ bytes.drop 8 := (List.append_assoc _ _ _).symm
    case isFalse =>
      split at formed
      · cases formed
        exact .inr (.inl ⟨rfl, rfl⟩)
      · cases formed
        exact .inr (.inr (.inl rfl))

end Format

section Replay

variable {codec hash keyOf}

theorem Holds.empty : Holds codec hash keyOf [] .empty := .inl ⟨rfl, rfl⟩

variable (keyOf) in
theorem readFrames_frames {body rest : Bytes} {frames : List (Frame T × Nat)}
    (framed : Frames (v2Reader codec hash true) body frames) (stops : v2Next codec hash true rest = none) :
    readFrames codec hash keyOf v1 true .v2 FILE_HEADER_LEN (fileHeader ++ (body ++ rest)) =
      (frames.foldl (Replaying.apply keyOf) Replaying.start, rest) := by
  have behind : (fileHeader ++ (body ++ rest)).drop FILE_HEADER_LEN = body ++ rest := List.drop_left' rfl
  have enough : (body ++ rest).length ≤ (fileHeader ++ (body ++ rest)).length := by
    simp only [List.length_append]
    omega
  unfold readFrames
  simp only [behind]
  exact scan_frames framed stops enough

theorem classify_nil (format : Format) : classify hash format [] = .clean := rfl

theorem classify_clean {rest : Bytes} (clean : classify hash .v2 rest = .clean) : rest = [] := by
  unfold classify at clean
  simp only at clean
  split at clean
  case isTrue nothing => exact List.length_eq_zero_iff.mp nothing
  case isFalse =>
    repeat' split at clean
    all_goals cases clean

/-- Good bytes with a rest that starts no frame replay to their contents, and stop at the rest. -/
theorem Holds.replay_append {good rest : Bytes} {contents : Contents T}
    (holds : Holds codec hash keyOf good contents) (begun : good = [] → rest = [])
    (stops : v2Next codec hash true rest = none) :
    ∃ found, replay codec hash keyOf v1 true (good ++ rest) = .ok found ∧ found.format ≠ .v1 ∧
      found.contents = contents ∧ found.goodEnd = good.length ∧
      found.tail = classify hash found.format rest := by
  rcases holds with ⟨rfl, rfl⟩ | ⟨body, frames, rfl, framed, folded⟩
  · rw [begun rfl]
    exact ⟨_, rfl, by simp, rfl, rfl, rfl⟩
  · have read := readFrames_frames keyOf v1 framed stops
    rw [List.append_assoc]
    unfold replay
    rw [formatOf_fileHeader]
    simp only [bind, Except.bind, read]
    refine ⟨_, rfl, by simp, ?_, ?_, rfl⟩
    · have folds := Replaying.contents_foldl keyOf frames Replaying.start
      rw [Replaying.contents_start, folded] at folds
      exact folds
    · simp only [List.length_append]
      omega

theorem Holds.reads_append {good rest : Bytes} {contents : Contents T}
    (holds : Holds codec hash keyOf good contents) (begun : good = [] → rest = [])
    (stops : v2Next codec hash true rest = none) :
    Reads codec hash keyOf v1 (good ++ rest) contents := by
  obtain ⟨found, replayed, notOld, same, _⟩ := holds.replay_append v1 begun stops
  exact ⟨found, replayed, notOld, same⟩

theorem Holds.reads {good : Bytes} {contents : Contents T}
    (holds : Holds codec hash keyOf good contents) : Reads codec hash keyOf v1 good contents := by
  have whole := holds.reads_append v1 (fun _ => rfl) (v2Reader codec hash true).next_nil
  rwa [List.append_nil] at whole

theorem reads_tornHeader {n : Nat} (short : n < FILE_HEADER_LEN) :
    Reads codec hash keyOf v1 (fileHeader.take n) .empty := by
  unfold Reads replay
  rcases formatOf_tornHeader n short with formed | formed <;> rw [formed]
  · exact ⟨_, rfl, by simp, rfl⟩
  · exact ⟨_, rfl, by simp, rfl⟩

theorem replay_format {verify : Bool} {bytes : Bytes} {found : Replayed T}
    (replayed : replay codec hash keyOf v1 verify bytes = .ok found) :
    ∃ start, formatOf bytes = .ok (found.format, start) := by
  unfold replay at replayed
  cases formed : formatOf bytes with
  | error e =>
    rw [formed] at replayed
    cases replayed
  | ok shape =>
    rw [formed] at replayed
    cases replayed
    exact ⟨shape.2, rfl⟩

variable {v1} in
theorem replay_empty {bytes : Bytes} {found : Replayed T}
    (replayed : replay codec hash keyOf v1 true bytes = .ok found) (empty : found.format = .empty) :
    bytes = [] := by
  obtain ⟨start, formed⟩ := replay_format v1 replayed
  rw [empty] at formed
  rcases formatOf_start formed with ⟨_, nothing⟩ | ⟨other, _⟩ | other | ⟨other, _⟩
  · exact nothing
  all_goals cases other

/-- A file's replay splits it: what it kept is good, and its tail is all that follows. -/
theorem replay_splits {bytes : Bytes} {found : Replayed T}
    (replayed : replay codec hash keyOf v1 true bytes = .ok found) (notOld : found.format ≠ .v1) :
    found.goodEnd ≤ bytes.length ∧
      Holds codec hash keyOf (bytes.take found.goodEnd) found.contents ∧
      (found.tail = .clean → found.goodEnd = bytes.length) := by
  unfold replay at replayed
  cases formed : formatOf bytes with
  | error e =>
    rw [formed] at replayed
    cases replayed
  | ok shape =>
    obtain ⟨format, start⟩ := shape
    rw [formed] at replayed
    rcases formatOf_start formed with ⟨rfl, rfl⟩ | ⟨rfl, rfl⟩ | rfl | ⟨rfl, rfl, body, rfl⟩
    · cases replayed
      exact ⟨le_refl _, .empty, fun _ => rfl⟩
    · cases replayed
      have zero : bytes.length - bytes.length = 0 := Nat.sub_self _
      refine ⟨by simp, ?_, ?_⟩
      · show Holds codec hash keyOf (bytes.take (bytes.length - bytes.length)) .empty
        rw [zero]
        exact .empty
      · intro clean
        rw [classify_clean clean]
        rfl
    · cases replayed
      exact absurd rfl notOld
    · obtain ⟨good, frames, rest, split, framed, stops, _⟩ :=
        scan_splits (v2Reader codec hash true) (Replaying.apply keyOf) body.length body Replaying.start le_rfl
      subst split
      simp only [bind, Except.bind, readFrames_frames keyOf v1 framed stops] at replayed
      cases replayed
      have kept : (fileHeader ++ (good ++ rest)).length - rest.length = (fileHeader ++ good).length := by
        simp only [List.length_append]
        omega
      refine ⟨?_, ?_, ?_⟩
      · show (fileHeader ++ (good ++ rest)).length - rest.length ≤ (fileHeader ++ (good ++ rest)).length
        omega
      · show Holds codec hash keyOf ((fileHeader ++ (good ++ rest)).take
          ((fileHeader ++ (good ++ rest)).length - rest.length)) _
        rw [kept, ← List.append_assoc, List.take_left' rfl]
        refine .inr ⟨good, frames, rfl, framed, ?_⟩
        have folds := Replaying.contents_foldl keyOf frames Replaying.start
        exact folds.symm
      · intro clean
        have nothing : rest = [] := classify_clean clean
        subst nothing
        simp

end Replay

section Append

variable {hash}

theorem Log.append_ok {log after : Log T} {disk left : Disk} {write : Write} {body : Bytes}
    (did : log.append hash write body disk = (.ok (), after, left)) :
    ∃ buf, write = .lands ∧ log.held = none ∧
      pushFrame hash (if log.endAt = 0 then fileHeader else []) body = .ok buf ∧
      log.endAt ≤ disk.file.length ∧
      after = { log with endAt := log.endAt + buf.length, cutOwed := false } ∧
      left = { disk with file := disk.file.take log.endAt ++ buf } := by
  unfold append at did
  split at did
  · cases did
  case h_2 free =>
    split at did
    · cases did
    case h_2 buf pushed =>
      simp only at did
      split at did
      · cases did
      · split at did
        · cases did
        case isFalse long =>
          split at did
          · cases did
          · cases write <;> simp only at did <;> cases did
            exact ⟨buf, rfl, free, pushed, Nat.le_of_not_lt long, rfl, rfl⟩

/-- An append that fails leaves the log and its file, or a part of its bytes, which it owes a cut
    of when there are any; had it landed, all of them would stand there. -/
theorem Log.append_error {log after : Log T} {disk left : Disk} {write : Write} {body : Bytes}
    {e : ChainError} (did : log.append hash write body disk = (.error e, after, left)) :
    (after = log ∧ left = disk) ∨
      ∃ buf n, write ≠ .lands ∧
        pushFrame hash (if log.endAt = 0 then fileHeader else []) body = .ok buf ∧
        log.endAt ≤ disk.file.length ∧
        left = { disk with file := disk.file.take log.endAt ++ buf.take n } ∧
        (after = log ∧ n = 0 ∨ after = { log with cutOwed := true }) ∧
        log.append hash .lands body disk =
          (.ok (), { log with endAt := log.endAt + buf.length, cutOwed := false },
            { disk with file := disk.file.take log.endAt ++ buf }) := by
  unfold append at did ⊢
  split at did
  · cases did
    exact .inl ⟨rfl, rfl⟩
  · split at did
    · cases did
      exact .inl ⟨rfl, rfl⟩
    case h_2 buf pushed =>
      simp only at did
      split at did
      · cases did
        exact .inl ⟨rfl, rfl⟩
      · split at did
        · cases did
          exact .inl ⟨rfl, rfl⟩
        case isFalse long =>
          have reaches := Nat.le_of_not_lt long
          split at did
          · cases did
            exact .inl ⟨rfl, rfl⟩
          case isFalse ours =>
            cases write with
            | unopened | uncut =>
              cases did
              exact .inl ⟨rfl, rfl⟩
            | unsought =>
              cases did
              refine .inr ⟨buf, 0, by simp, pushed, reaches, by simp, .inl ⟨rfl, rfl⟩, ?_⟩
              simp only [reduceCtorEq, if_false, if_neg long, if_neg ours]
            | stops n =>
              cases did
              refine .inr ⟨buf, n, by simp, pushed, reaches, rfl, .inr rfl, ?_⟩
              simp only [reduceCtorEq, if_false, if_neg long, if_neg ours]
            | lands => cases did

end Append

/-- What a log's file owes it: its good bytes fold to its maps, and bytes past them are its own. -/
structure Sound (log : Log T) (disk : Disk) : Prop where
  holds : Holds codec hash keyOf (disk.file.take log.endAt) log.contents
  reaches : log.endAt ≤ disk.file.length
  owed : log.held = none → log.cutOwed = false → disk.file.length = log.endAt

variable {codec hash keyOf}

theorem Holds.sound {log : Log T} {disk : Disk} (holds : Holds codec hash keyOf disk.file log.contents)
    (ends : log.endAt = disk.file.length) : Sound codec hash keyOf log disk where
  holds := by rwa [ends, List.take_length]
  reaches := le_of_eq ends
  owed := fun _ _ => ends.symm

/-- A pushed frame behind good bytes makes good bytes. -/
theorem Holds.push {good : Bytes} {contents : Contents T} {frame : Frame T} {body buf : Bytes}
    (holds : Holds codec hash keyOf good contents) (encoded : frame.body codec = .ok body)
    (pushed : pushFrame hash (if good.length = 0 then fileHeader else []) body = .ok buf) :
    Holds codec hash keyOf (good ++ buf) (contents.apply keyOf frame) := by
  obtain ⟨piece, rfl, _, read⟩ := pushFrame_reads pushed true
  have next : (v2Reader codec hash true).next piece = some ((frame, body.length), piece.length) :=
    v2Next_of read (Frame.tryFromSlice_body encoded)
  rcases holds with ⟨rfl, rfl⟩ | ⟨bytes, frames, rfl, framed, folded⟩
  · exact .inr ⟨piece, [(frame, body.length)], rfl, Frames.single next, rfl⟩
  · rw [if_neg (by rw [List.length_append, length_fileHeader]; simp [FILE_HEADER_LEN])]
    refine .inr ⟨bytes ++ piece, frames ++ [(frame, body.length)], ?_, framed.snoc next, ?_⟩
    · rw [List.nil_append, List.append_assoc]
    · rw [List.foldl_append, folded]
      rfl

/-- A pushed frame cut short behind good bytes changes nothing that replays. -/
theorem Holds.push_torn {good : Bytes} {contents : Contents T} {frame : Frame T} {body buf : Bytes}
    {n : Nat} (holds : Holds codec hash keyOf good contents) (encoded : frame.body codec = .ok body)
    (pushed : pushFrame hash (if good.length = 0 then fileHeader else []) body = .ok buf)
    (short : n < buf.length) : Reads codec hash keyOf v1 (good ++ buf.take n) contents := by
  obtain ⟨piece, rfl, _, read⟩ := pushFrame_reads pushed true
  have next : (v2Reader codec hash true).next piece = some ((frame, body.length), piece.length) :=
    v2Next_of read (Frame.tryFromSlice_body encoded)
  rcases holds with ⟨rfl, rfl⟩ | ⟨bytes, frames, rfl, framed, folded⟩
  · simp only [List.length_nil, if_pos, List.nil_append, List.length_append] at short ⊢
    by_cases header : n < FILE_HEADER_LEN
    · rw [List.take_append_of_le_length (by rw [length_fileHeader]; omega)]
      exact reads_tornHeader v1 header
    · have past : fileHeader.length ≤ n := Nat.le_of_not_lt header
      rw [List.take_append, List.take_of_length_le past]
      have headed : Holds codec hash keyOf fileHeader .empty :=
        .inr ⟨[], [], (List.append_nil _).symm, .nil, rfl⟩
      apply headed.reads_append v1 (fun empty => nomatch empty)
      exact Reader.next_torn next (by omega)
  · rw [if_neg (by rw [List.length_append, length_fileHeader]; simp [FILE_HEADER_LEN]),
      List.nil_append] at short ⊢
    have whole : Holds codec hash keyOf (fileHeader ++ bytes) contents :=
      .inr ⟨bytes, frames, rfl, framed, folded⟩
    apply whole.reads_append v1 (fun empty => nomatch empty)
    exact Reader.next_torn next short

end Kaspaverse.Kvlog
