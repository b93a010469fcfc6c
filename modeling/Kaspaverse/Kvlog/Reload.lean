import Kaspaverse.Kvlog.Durability

namespace Kaspaverse.Kvlog

open Framed

variable {T : Type} {codec : Codec T} {hash : Bytes → UInt32} {keyOf : T → String}
  {v1 : Bytes → Option (Frame T)}

variable (codec hash keyOf v1) in
/-- A log whose file reads back as what the log holds, and that writes only a sound file. -/
structure Rereads (at_ : Log T × Disk) : Prop where
  reads : ∃ found, replay codec hash keyOf v1 (checksumHolds hash) at_.2.file = .ok found ∧
    found.contents = at_.1.contents
  sound : at_.1.held ≠ none ∨ checksumHolds hash = true ∧ Sound codec hash keyOf at_.1 at_.2

/-- A settled load keeps the maps and leaves a file that replays to them. -/
theorem Log.settle_reads {io : LoadIo} {found : Replayed T} {name : String} {disk aside left : Disk}
    {after : Log T}
    (replayed : replay codec hash keyOf v1 true disk.file = .ok found) (file : aside.file = disk.file)
    (settled : (found.log name).settle codec hash keyOf io found aside = (after, left)) :
    after.contents = found.contents ∧
      ∃ again, replay codec hash keyOf v1 true left.file = .ok again ∧
        again.contents = after.contents := by
  unfold settle at settled
  simp only at settled
  split at settled
  case isTrue =>
    rcases Log.compact_cases codec hash keyOf io.replaces
        { found.log name with cutOwed := decide (found.tail ≠ .clean) } aside with
      ⟨e, did⟩ | ⟨image, _, holds, did⟩
    · rw [did] at settled
      simp only at settled
      split at settled
      all_goals
        cases settled
        exact ⟨rfl, found, by rw [file]; exact replayed, rfl⟩
    · rw [did] at settled
      cases settled
      obtain ⟨again, reread, _, same⟩ := holds.reads v1
      exact ⟨rfl, again, reread, same⟩
  case isFalse =>
    cases settled
    exact ⟨rfl, found, by rw [file]; exact replayed, rfl⟩

/-- A load holds what its file replays to, and leaves a file that replays to it. -/
theorem load_replays {name : String} {io : LoadIo} {disk : Disk} {start : Log T × Disk}
    (loaded : load codec hash keyOf v1 name io disk = .ok start) :
    ∃ found, replay codec hash keyOf v1 (checksumHolds hash) disk.file = .ok found ∧
      start.1.contents = found.contents ∧
      ∃ again, replay codec hash keyOf v1 (checksumHolds hash) start.2.file = .ok again ∧
        again.contents = start.1.contents := by
  unfold load at loaded
  split at loaded
  · cases loaded
  · cases replayed : replay codec hash keyOf v1 (checksumHolds hash) disk.file with
    | error e =>
      simp only [replayed] at loaded
      cases loaded
    | ok found =>
      simp only [replayed, Except.bind] at loaded
      refine ⟨found, rfl, ?_⟩
      split at loaded
      case isTrue unknown =>
        cases loaded
        exact ⟨rfl, found, replayed, rfl⟩
      case isFalse checked =>
        have known : checksumHolds hash = true := by simpa using checked
        rw [known] at replayed ⊢
        have settled : ∀ aside : Disk, aside.file = disk.file →
            (found.log name).settle codec hash keyOf io found aside = start →
            start.1.contents = found.contents ∧
              ∃ again, replay codec hash keyOf v1 true start.2.file = .ok again ∧
                again.contents = start.1.contents := by
          intro aside file did
          exact Log.settle_reads replayed file did
        split at loaded
        · cases loaded
          exact ⟨rfl, found, replayed, rfl⟩
        · split at loaded
          · split at loaded
            · have did := Except.ok.inj loaded
              exact settled _ (by rfl) did
            · cases loaded
              exact ⟨rfl, found, replayed, rfl⟩
          · have did := Except.ok.inj loaded
            exact settled _ (by rfl) did

theorem load_rereads {name : String} {io : LoadIo} {disk : Disk} {start : Log T × Disk}
    (loaded : load codec hash keyOf v1 name io disk = .ok start) :
    Rereads codec hash keyOf v1 start := by
  obtain ⟨_, _, _, again⟩ := load_replays loaded
  exact ⟨again, load_held_or_sound loaded⟩

theorem Rereads.reload {before after : Log T × Disk} (reads : Rereads codec hash keyOf v1 before)
    {name : String} {io : LoadIo} (loaded : load codec hash keyOf v1 name io before.2 = .ok after) :
    Rereads codec hash keyOf v1 after ∧ after.1.contents = before.1.contents := by
  refine ⟨load_rereads loaded, ?_⟩
  obtain ⟨found, replayed, same⟩ := reads.reads
  obtain ⟨again, reread, contents, _⟩ := load_replays loaded
  rw [replayed] at reread
  cases reread
  rw [contents, same]

/-- An append that returned `Ok` wrote its frame or changed nothing. -/
theorem Rereads.put {before after : Log T × Disk} (reads : Rereads codec hash keyOf v1 before)
    {put : Put T} {io : Io} {wrote : Bool}
    (did : (Op.put put).perform codec hash keyOf io before = (.ok wrote, after)) :
    Rereads codec hash keyOf v1 after ∧
      after.1.contents = (Op.put put).effect keyOf before.1.contents := by
  have contents := ((Op.put put).perform_contents codec hash keyOf io before).2 wrote (by rw [did])
  rw [did] at contents
  refine ⟨?_, contents⟩
  cases wrote with
  | true =>
    rcases reads.sound with held | ⟨known, sound⟩
    · have refused : ((Op.put put).perform codec hash keyOf io before).1 ≠ .ok true :=
        ((Op.put put).perform_held io held).2
      rw [did] at refused
      exact absurd rfl refused
    · obtain ⟨kept, holds⟩ := (Op.put put).perform_sound io sound
      rw [did] at kept holds
      obtain ⟨again, reread, _, same⟩ := (holds rfl).reads v1
      exact ⟨⟨again, by rw [known]; exact reread, same⟩, .inr ⟨known, kept⟩⟩
  | false =>
    rcases put.perform_cases before with
      ⟨e, fails⟩ | ⟨skips, _⟩ | ⟨body, change, _, _, _, appends⟩
    · rw [fails io] at did
      cases did
    · rw [skips io] at did
      cases did
      exact reads
    · rw [appends io] at did
      rcases before.1.put_cases hash io.write body change before.2 with
        ⟨e, _, _, _, result⟩ | ⟨_, _, _, result⟩
      · rw [result] at did
        cases did
      · rw [result] at did
        cases did

end Kaspaverse.Kvlog
