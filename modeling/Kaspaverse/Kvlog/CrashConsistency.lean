import Kaspaverse.Kvlog.Durability

namespace Kaspaverse.Kvlog

open Framed

variable {T : Type} {codec : Codec T} {hash : Bytes → UInt32} {keyOf : T → String}
  {v1 : Bytes → Option (Frame T)}

section Sample

def crcBit (crc : Nat) : Nat := (crc / 2) ^^^ (0xEDB88320 * (crc % 2))

def crcByte (crc : Nat) (byte : UInt8) : Nat :=
  crcBit (crcBit (crcBit (crcBit (crcBit (crcBit (crcBit (crcBit (crc ^^^ byte.toNat))))))))

-- the match on the register makes an evaluation compute it byte by byte
def crcFrom : Nat → Bytes → Nat
  | crc, [] => crc ^^^ 0xFFFFFFFF
  | 0, byte :: bytes => crcFrom (crcByte 0 byte) bytes
  | crc + 1, byte :: bytes => crcFrom (crcByte (crc + 1) byte) bytes

/-- CRC-32 as `crc32fast` computes it. -/
def crc32 (bytes : Bytes) : UInt32 := UInt32.ofNat (crcFrom 0xFFFFFFFF bytes)

theorem checksumHolds_crc32 : checksumHolds crc32 = true := by decide +kernel

def textCodec : Codec String := ⟨encodeString, decodeString, fun _ _ => decodeString_encodeString⟩

def textV1 : Bytes → Option (Frame String) := Frame.tryFromSlice textCodec

def working : LoadIo := ⟨true, true, true⟩

/-- A store's first start: no file, and an empty log over it. -/
def blank : Log String × Disk := (⟨"log", ∅, ∅, 0, false, none, false⟩, ⟨[], ∅⟩)

theorem load_blank : load textCodec crc32 id textV1 "log" working blank.2 = .ok blank := by
  unfold load
  rw [checksumHolds_crc32]
  rfl

def upsertText (text : String) (write : Write) : Op String × Io := (.put (.upsert text), ⟨write, true⟩)

end Sample

section Acknowledged

theorem runOps_cons (start : Log T × Disk) (step : Op T × Io) (steps : List (Op T × Io)) :
    runOps codec hash keyOf start (step :: steps) =
      runOps codec hash keyOf (step.1.perform codec hash keyOf step.2 start).2 steps := rfl

theorem runOps_induction {p : Log T × Disk → Prop} {start : Log T × Disk}
    {steps : List (Op T × Io)}
    (keeps : ∀ step ∈ steps, ∀ before, p before → p (step.1.perform codec hash keyOf step.2 before).2)
    (first : p start) : p (runOps codec hash keyOf start steps) := by
  induction steps generalizing start with
  | nil => exact first
  | cons step steps ih =>
    rw [runOps_cons]
    apply ih
    · exact fun later member => keeps later (List.mem_cons_of_mem _ member)
    · exact keeps step List.mem_cons_self start first

theorem acknowledged_ok {op : Op T} {io : Io} {start : Log T × Disk} {wrote : Bool}
    (result : (op.perform codec hash keyOf io start).1 = .ok wrote) (steps : List (Op T × Io)) :
    acknowledged codec hash keyOf start ((op, io) :: steps) =
      op :: acknowledged codec hash keyOf (op.perform codec hash keyOf io start).2 steps := by
  conv_lhs => unfold acknowledged
  simp only [result]

theorem acknowledged_error {op : Op T} {io : Io} {start : Log T × Disk} {e : ChainError}
    (result : (op.perform codec hash keyOf io start).1 = .error e) (steps : List (Op T × Io)) :
    acknowledged codec hash keyOf start ((op, io) :: steps) =
      acknowledged codec hash keyOf (op.perform codec hash keyOf io start).2 steps := by
  conv_lhs => unfold acknowledged
  simp only [result]

/-- The maps are the effect of exactly the operations that returned `Ok`. -/
theorem runOps_contents (start : Log T × Disk) (steps : List (Op T × Io)) :
    (runOps codec hash keyOf start steps).1.contents =
      (acknowledged codec hash keyOf start steps).foldl (fun contents op => op.effect keyOf contents)
        start.1.contents := by
  induction steps generalizing start with
  | nil => rfl
  | cons step steps ih =>
    obtain ⟨op, io⟩ := step
    obtain ⟨fails, lands⟩ := op.perform_contents codec hash keyOf io start
    rw [runOps_cons, ih]
    cases result : (op.perform codec hash keyOf io start).1 with
    | ok wrote => rw [acknowledged_ok result, List.foldl_cons, lands wrote result]
    | error e => rw [acknowledged_error result, fails e result]

theorem runOps_held_or_sound {name : String} {io : LoadIo} {disk : Disk} {start : Log T × Disk}
    (loaded : load codec hash keyOf v1 name io disk = .ok start) (steps : List (Op T × Io)) :
    (runOps codec hash keyOf start steps).1.held ≠ none ∨ checksumHolds hash = true ∧
      Sound codec hash keyOf (runOps codec hash keyOf start steps).1
        (runOps codec hash keyOf start steps).2 := by
  apply runOps_induction (p := fun at_ => at_.1.held ≠ none ∨ checksumHolds hash = true ∧
    Sound codec hash keyOf at_.1 at_.2) ?_ (load_held_or_sound loaded)
  rintro ⟨op, io⟩ _ before (held | ⟨known, sound⟩)
  · rw [(op.perform_held io held).1]
    exact .inl held
  · exact .inr ⟨known, (op.perform_sound io sound).1⟩

/-- An operation that fails leaves the maps, and what a log's operations wrote since its load is
    the effect of exactly those that returned `Ok`: so reads a reload behind any of them that
    wrote, whatever failed before it. -/
theorem Log.acknowledged_survive {name : String} {io : LoadIo} {disk : Disk} {start : Log T × Disk}
    (loaded : load codec hash keyOf v1 name io disk = .ok start) (steps : List (Op T × Io))
    (op : Op T) (last : Io) :
    let before := runOps codec hash keyOf start steps
    let after := op.perform codec hash keyOf last before
    (∀ e, after.1 = .error e → after.2.1.contents = before.1.contents) ∧
      after.2.1.contents = (acknowledged codec hash keyOf start (steps ++ [(op, last)])).foldl
        (fun contents op => op.effect keyOf contents) start.1.contents ∧
      (after.1 = .ok true → ∀ reload : LoadIo, reload.reads = true →
        ∃ again left, load codec hash keyOf v1 name reload after.2.2 = .ok (again, left) ∧
          again.held = none ∧ again.contents = after.2.1.contents) := by
  intro before after
  refine ⟨fun e fails => (op.perform_contents codec hash keyOf last before).1 e fails, ?_, ?_⟩
  · have whole : (runOps codec hash keyOf start (steps ++ [(op, last)])).1.contents =
        (acknowledged codec hash keyOf start (steps ++ [(op, last)])).foldl
          (fun contents op => op.effect keyOf contents) start.1.contents :=
      runOps_contents start (steps ++ [(op, last)])
    rw [← whole]
    unfold runOps
    rw [List.foldl_append]
    rfl
  · intro wrote reload readable
    rcases runOps_held_or_sound loaded steps with held | ⟨known, sound⟩
    · exact absurd wrote (op.perform_held last held).2
    · exact load_holds name ((op.perform_sound last sound).2 wrote) known readable

/-- The write of `b` stops half-way, and the write of `c` behind it survives a reload. -/
theorem Log.acknowledged_survive_halfWritten :
    let before := runOps textCodec crc32 id blank [upsertText "a" .lands, upsertText "b" (.stops 6)]
    let after := (upsertText "c" .lands).1.perform textCodec crc32 id ⟨.lands, true⟩ before
    ∃ again left, load textCodec crc32 id textV1 "log" working after.2.2 = .ok (again, left) ∧
      again.held = none ∧ again.contents.record "a" = some "a" ∧
      again.contents.record "b" = none ∧ again.contents.record "c" = some "c" := by
  intro before after
  obtain ⟨_, _, reloads⟩ := Log.acknowledged_survive load_blank
    [upsertText "a" .lands, upsertText "b" (.stops 6)] (upsertText "c" .lands).1 ⟨.lands, true⟩
  have wrote : after.1 = .ok true := by decide +kernel
  obtain ⟨again, left, loaded, free, same⟩ := reloads wrote working rfl
  refine ⟨again, left, loaded, free, ?_⟩
  rw [same]
  exact ⟨by decide +kernel, by decide +kernel, by decide +kernel⟩

end Acknowledged

section Crash

theorem load_fresh (known : checksumHolds hash = true) {name : String} {io : LoadIo} {disk : Disk}
    {start : Log T × Disk} {format : Format} {frames : Nat}
    (formed : formatOf disk.file = .ok (format, frames)) (new : format ≠ .v1)
    (loaded : load codec hash keyOf v1 name io disk = .ok start) :
    Sound codec hash keyOf start.1 start.2 ∧
      Reads codec hash keyOf v1 start.2.file start.1.contents := by
  cases readable : io.reads with
  | false =>
    unfold load at loaded
    rw [if_pos readable] at loaded
    cases loaded
  | true =>
    cases replayed : replay codec hash keyOf v1 true disk.file with
    | error e =>
      unfold load at loaded
      rw [if_neg (by rw [readable]; simp), known] at loaded
      simp only [replayed] at loaded
      cases loaded
    | ok found =>
      obtain ⟨at_, shape⟩ := replay_format v1 replayed
      rw [formed] at shape
      cases shape
      obtain ⟨log, left, did, same, sound, reads, _⟩ :=
        load_reads name ⟨found, replayed, new, rfl⟩ known readable
      rw [did] at loaded
      cases loaded
      exact ⟨sound, same ▸ reads⟩

/-- An operation whose append meets no fault wrote, or left the log and its file as they were. -/
theorem Op.perform_lands (op : Op T) {io : Io} (lands : io.write = .lands) (before : Log T × Disk) :
    (op.perform codec hash keyOf io before).1 = .ok true ∨
      (op.perform codec hash keyOf io before).2 = before := by
  obtain ⟨log, disk⟩ := before
  cases op with
  | put put =>
    rcases put.perform_cases (log, disk) with
      ⟨e, fails⟩ | ⟨skips, _⟩ | ⟨body, change, _, _, _, appends⟩
    · rw [fails]
      exact .inr rfl
    · rw [skips]
      exact .inr rfl
    · rw [appends, lands]
      rcases log.put_cases hash .lands body change disk with
        ⟨e, after, left, did, result⟩ | ⟨after, left, did, result⟩
      · rw [result]
        rcases Log.append_error did with ⟨rfl, rfl⟩ | ⟨_, _, wrong, _⟩
        · exact .inr rfl
        · exact absurd rfl wrong
      · rw [result]
        exact .inl rfl
  | wipe =>
    simp only [perform, Log.wipe]
    cases log.held with
    | some why => exact .inr rfl
    | none =>
      cases io.replaces with
      | true => exact .inl rfl
      | false => exact .inr rfl
  | compact =>
    simp only [perform]
    rcases log.compact_cases codec hash keyOf io.replaces disk with ⟨e, did⟩ | ⟨image, _, _, did⟩
    · rw [did]
      exact .inr rfl
    · rw [did]
      exact .inl rfl

theorem Op.perform_reads (op : Op T) {io : Io} (lands : io.write = .lands) {before : Log T × Disk}
    (sound : Sound codec hash keyOf before.1 before.2)
    (reads : Reads codec hash keyOf v1 before.2.file before.1.contents) :
    Reads codec hash keyOf v1 (op.perform codec hash keyOf io before).2.2.file
      (op.perform codec hash keyOf io before).2.1.contents := by
  have landed : (op.perform codec hash keyOf io before).1 = .ok true ∨
      (op.perform codec hash keyOf io before).2 = before :=
    op.perform_lands lands before
  rcases landed with wrote | same
  · exact ((op.perform_sound io sound).2 wrote).reads v1
  · rw [same]
    exact reads

/-- Wherever an append stops, the file it leaves reads as the state before it, or as the state
    after it when every byte was written. -/
theorem Put.perform_stopped (put : Put T) (death : Io) {before : Log T × Disk}
    (sound : Sound codec hash keyOf before.1 before.2)
    (reads : Reads codec hash keyOf v1 before.2.file before.1.contents) :
    Reads codec hash keyOf v1 ((Op.put put).perform codec hash keyOf death before).2.2.file
      (if ((Op.put put).perform codec hash keyOf death before).2.2.file =
          ((Op.put put).perform codec hash keyOf ⟨.lands, true⟩ before).2.2.file
        then ((Op.put put).perform codec hash keyOf ⟨.lands, true⟩ before).2.1.contents
        else before.1.contents) := by
  have full := (Op.put put).perform_reads (rfl : (⟨.lands, true⟩ : Io).write = .lands) sound reads
  by_cases reached : ((Op.put put).perform codec hash keyOf death before).2.2.file =
      ((Op.put put).perform codec hash keyOf ⟨.lands, true⟩ before).2.2.file
  · rw [if_pos reached, reached]
    exact full
  · rw [if_neg reached]
    rcases put.perform_cases before with
      ⟨e, fails⟩ | ⟨skips, _⟩ | ⟨body, change, encoded, _, _, appends⟩
    · rw [fails]
      exact reads
    · rw [skips]
      exact reads
    · obtain ⟨log, disk⟩ := before
      rw [appends, appends] at reached
      rw [appends]
      simp only at reached ⊢
      rcases log.put_cases hash death.write body change disk with
        ⟨e, after, left, did, result⟩ | ⟨after, left, did, _⟩
      · rw [result] at reached ⊢
        rcases Log.append_error did with ⟨rfl, rfl⟩ | ⟨buf, n, _, pushed, reaches, rfl, _, landed⟩
        · exact reads
        · have length : (disk.file.take log.endAt).length = log.endAt := by
            rw [List.length_take, Nat.min_eq_left reaches]
          have short : n < buf.length := by
            by_contra long
            apply reached
            show disk.file.take log.endAt ++ buf.take n = _
            rw [List.take_of_length_le (Nat.le_of_not_lt long)]
            unfold Log.put
            rw [landed]
          exact sound.holds.push_torn v1 encoded (by rwa [length]) short
      · obtain ⟨_, lands, _⟩ := Log.append_ok did
        rw [lands] at reached
        exact absurd rfl reached

/-- A process that dies inside an append leaves the file a write that stopped there leaves. The
    next load of it gives the state before the operation, or the state after it when every byte
    of the append was there, and a third one never; and the log it gives takes writes again, an
    unreadable tail having been copied aside. -/
theorem Log.crash_is_before_or_after (known : checksumHolds hash = true) {name : String} {io : LoadIo}
    {disk : Disk} {start : Log T × Disk} {format : Format} {frames : Nat}
    (formed : formatOf disk.file = .ok (format, frames)) (new : format ≠ .v1)
    (loaded : load codec hash keyOf v1 name io disk = .ok start)
    (steps : List (Op T × Io)) (faultless : ∀ step ∈ steps, step.2.write = .lands)
    (put : Put T) (death : Io) (next : LoadIo) (readable : next.reads = true) :
    let before := runOps codec hash keyOf start steps
    let dead := (Op.put put).perform codec hash keyOf death before
    let whole := (Op.put put).perform codec hash keyOf ⟨.lands, true⟩ before
    ∃ again left, load codec hash keyOf v1 name next dead.2.2 = .ok (again, left) ∧
      (next.copies = true → again.held = none) ∧
      again.contents =
        if dead.2.2.file = whole.2.2.file then whole.2.1.contents else before.1.contents := by
  intro before dead whole
  obtain ⟨sound, reads⟩ : Sound codec hash keyOf before.1 before.2 ∧
      Reads codec hash keyOf v1 before.2.file before.1.contents := by
    apply runOps_induction (p := fun at_ => Sound codec hash keyOf at_.1 at_.2 ∧
      Reads codec hash keyOf v1 at_.2.file at_.1.contents)
    · rintro ⟨op, io⟩ member at_ ⟨sound, reads⟩
      exact ⟨(op.perform_sound io sound).1, op.perform_reads (faultless _ member) sound reads⟩
    · exact load_fresh known formed new loaded
  obtain ⟨again, left, did, same, _, _, free | ⟨failed, _⟩⟩ :=
    load_reads name (put.perform_stopped death sound reads) known readable
  · exact ⟨again, left, did, fun _ => free, same⟩
  · exact ⟨again, left, did, (fun copies => nomatch copies.symm.trans failed), same⟩

/-- A process that dies six bytes into the write of `b` restarts with `a` alone. -/
theorem Log.crash_is_before_or_after_torn :
    let before := runOps textCodec crc32 id blank [upsertText "a" .lands]
    let dead := (upsertText "b" (.stops 6)).1.perform textCodec crc32 id ⟨.stops 6, true⟩ before
    ∃ again left, load textCodec crc32 id textV1 "log" working dead.2.2 = .ok (again, left) ∧
      again.held = none ∧ again.contents.record "a" = some "a" ∧
      again.contents.record "b" = none := by
  intro before dead
  obtain ⟨again, left, loaded, free, same⟩ := Log.crash_is_before_or_after checksumHolds_crc32
    (rfl : formatOf blank.2.file = .ok (.empty, 0)) (by decide) load_blank
    [upsertText "a" .lands] (by simp [upsertText]) (.upsert "b") ⟨.stops 6, true⟩ working rfl
  refine ⟨again, left, loaded, free rfl, ?_⟩
  rw [same]
  exact ⟨by decide +kernel, by decide +kernel⟩

end Crash

end Kaspaverse.Kvlog
