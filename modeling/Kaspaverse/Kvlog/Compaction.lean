import Mathlib
import Kaspaverse.Kvlog.CrashConsistency
import Kaspaverse.Kvlog.Reload
import Kaspaverse.Kvlog.Repair

namespace Kaspaverse.Kvlog

open Framed

variable {T : Type} {codec : Codec T} {hash : Bytes → UInt32} {keyOf : T → String}
  {v1 : Bytes → Option (Frame T)} {contents : Contents T}

section Image

def frameBytes (hash : Bytes → UInt32) (body : Bytes) : Bytes :=
  let len := toLeBytes body.length
  len ++ (toLeBytes (frameCrc hash len body).toNat ++ body)

theorem length_frameBytes (hash : Bytes → UInt32) (body : Bytes) :
    (frameBytes hash body).length = FRAME_HEADER_LEN + body.length := by
  unfold frameBytes
  simp only [List.length_append, length_toLeBytes, FRAME_HEADER_LEN]
  omega

theorem pushFrame_ok {out body pushed : Bytes} (sealed : pushFrame hash out body = .ok pushed) :
    body.length < 2 ^ 32 ∧ pushed = out ++ frameBytes hash body := by
  unfold pushFrame at sealed
  split at sealed
  case isTrue short =>
    cases sealed
    exact ⟨short, rfl⟩
  case isFalse => cases sealed

theorem next_frameBytes {frame : Frame T} {body : Bytes} (short : body.length < 2 ^ 32)
    (encoded : frame.body codec = .ok body) (verify : Bool) :
    (v2Reader codec hash verify).next (frameBytes hash body) =
      some ((frame, body.length), (frameBytes hash body).length) := by
  have pushed : pushFrame hash [] body = .ok (frameBytes hash body) := by
    unfold pushFrame
    rw [if_pos short]
    rfl
  obtain ⟨piece, same, _, read⟩ := pushFrame_reads pushed verify
  rw [List.nil_append] at same
  subst same
  exact v2Next_of read (Frame.tryFromSlice_body encoded)

/-- What one key's record, or one flag, becomes in the image. -/
def RecordBody (codec : Codec T) (contents : Contents T) (key : String) (body : Bytes) : Prop :=
  body.length < 2 ^ 32 ∧ ∃ record, contents.record key = some record ∧ upsertBody codec record = .ok body

def FlagBody (codec : Codec T) (key : String) (body : Bytes) : Prop :=
  body.length < 2 ^ 32 ∧ (Frame.tombstone key : Frame T).body codec = .ok body

/-- The file is the header, one frame for each live record and one for each flag, in key order, and
    nothing else. -/
def Image (codec : Codec T) (hash : Bytes → UInt32) (contents : Contents T) (file : Bytes) : Prop :=
  ∃ keys bodies flagBodies, keys.Pairwise (fun a b : String => a ≤ b) ∧ keys.Nodup ∧
    (∀ key, key ∈ keys ↔ (contents.record key).isSome = true) ∧
    List.Forall₂ (RecordBody codec contents) keys bodies ∧
    List.Forall₂ (FlagBody codec) (contents.tombstoned.sort (· ≤ ·)) flagBodies ∧
    file = fileHeader ++ ((bodies ++ flagBodies).map (frameBytes hash)).flatten

/-- A fold whose every step writes one frame behind what is there writes them in a row. -/
theorem foldlM_frames {α ε : Type} {step : Bytes → α → Except ε Bytes} {Body : α → Bytes → Prop} {list : List α}
    {out pushed : Bytes} (each : ∀ a ∈ list, ∀ out pushed, step out a = .ok pushed →
      ∃ body, Body a body ∧ pushed = out ++ frameBytes hash body)
    (folded : list.foldlM step out = .ok pushed) :
    ∃ bodies, List.Forall₂ Body list bodies ∧ pushed = out ++ (bodies.map (frameBytes hash)).flatten := by
  induction list generalizing out with
  | nil =>
    cases folded
    exact ⟨[], .nil, (List.append_nil _).symm⟩
  | cons a rest ih =>
    rw [List.foldlM_cons] at folded
    cases first : step out a with
    | error e =>
      rw [first] at folded
      cases folded
    | ok mid =>
      rw [first] at folded
      obtain ⟨body, isBody, same⟩ := each a List.mem_cons_self out mid first
      obtain ⟨bodies, all, whole⟩ := ih (fun b member => each b (List.mem_cons_of_mem _ member)) folded
      refine ⟨body :: bodies, .cons isBody all, ?_⟩
      rw [whole, same, List.map_cons, List.flatten_cons, List.append_assoc]

theorem Log.pushRecord_ok {log : Log T} {key : String} (present : (log.contents.record key).isSome = true)
    {out pushed : Bytes} (wrote : log.pushRecord codec hash out key = .ok pushed) :
    ∃ body, RecordBody codec log.contents key body ∧ pushed = out ++ frameBytes hash body := by
  obtain ⟨record, found⟩ := Option.isSome_iff_exists.mp present
  have held : log.records.lookup key = some record := found
  unfold pushRecord at wrote
  rw [held] at wrote
  cases encoded : upsertBody codec record with
  | error e =>
    simp only [encoded] at wrote
    cases wrote
  | ok body =>
    simp only [encoded] at wrote
    have laid := pushFrame_ok wrote
    exact ⟨body, ⟨laid.1, record, found, encoded⟩, laid.2⟩

theorem Log.pushFlag_ok {key : String} {out pushed : Bytes}
    (wrote : pushFlag codec hash out key = .ok pushed) :
    ∃ body, FlagBody codec key body ∧ pushed = out ++ frameBytes hash body := by
  unfold pushFlag at wrote
  cases encoded : (Frame.tombstone key : Frame T).body codec with
  | error e =>
    simp only [encoded] at wrote
    cases wrote
  | ok body =>
    simp only [encoded] at wrote
    have laid := pushFrame_ok wrote
    exact ⟨body, ⟨laid.1, encoded⟩, laid.2⟩

/-- What a log rewrites to is the image of what it holds. -/
theorem Log.image_ok {log : Log T} {file : Bytes} (made : log.image codec hash = .ok file) :
    Image codec hash log.contents file := by
  unfold Log.image at made
  cases written : (log.records.keys.toFinset.sort (· ≤ ·)).foldlM (log.pushRecord codec hash) fileHeader with
  | error e =>
    rw [written] at made
    cases made
  | ok out =>
    rw [written] at made
    have flagged : (log.tombstoned.sort (· ≤ ·)).foldlM (pushFlag codec hash) out = .ok file := made
    have keyed : ∀ key, key ∈ log.records.keys.toFinset.sort (· ≤ ·) ↔
        (log.contents.record key).isSome = true := by
      intro key
      rw [Finset.mem_sort, List.mem_toFinset]
      exact AList.lookup_isSome.symm
    have eachRecord : ∀ key ∈ log.records.keys.toFinset.sort (· ≤ ·), ∀ out pushed,
        log.pushRecord codec hash out key = .ok pushed →
        ∃ body, RecordBody codec log.contents key body ∧ pushed = out ++ frameBytes hash body := by
      intro key member out pushed wrote
      exact Log.pushRecord_ok ((keyed key).mp member) wrote
    have eachFlag : ∀ key ∈ log.tombstoned.sort (· ≤ ·), ∀ out pushed,
        pushFlag codec hash out key = .ok pushed →
        ∃ body, FlagBody codec key body ∧ pushed = out ++ frameBytes hash body := by
      intro key _ out pushed wrote
      exact Log.pushFlag_ok wrote
    obtain ⟨bodies, records, wrote⟩ := foldlM_frames eachRecord written
    obtain ⟨flagBodies, flags, wroteFlags⟩ := foldlM_frames eachFlag flagged
    refine ⟨_, bodies, flagBodies, Finset.pairwise_sort _ _, Finset.sort_nodup _ _, keyed, records, flags, ?_⟩
    rw [wroteFlags, wrote, List.map_append, List.flatten_append, List.append_assoc]

theorem forall₂_unique {α β : Type} {Rel : α → β → Prop} (unique : ∀ a b b', Rel a b → Rel a b' → b = b')
    {list : List α} {bs bs' : List β} (one : List.Forall₂ Rel list bs) (other : List.Forall₂ Rel list bs') :
    bs = bs' := by
  induction one generalizing bs' with
  | nil =>
    cases other
    rfl
  | cons head _ ih =>
    cases other with
    | cons head' tail' =>
      rw [unique _ _ _ head head', ih tail']

/-- The contents alone decide the image. -/
theorem Image.unique {file file' : Bytes} (one : Image codec hash contents file)
    (other : Image codec hash contents file') : file = file' := by
  obtain ⟨keys, bodies, flagBodies, sorted, nodup, keyed, records, flags, rfl⟩ := one
  obtain ⟨keys', bodies', flagBodies', sorted', nodup', keyed', records', flags', rfl⟩ := other
  have perm : keys.Perm keys' := by
    apply (List.perm_ext_iff_of_nodup nodup nodup').mpr
    intro key
    rw [keyed, keyed']
  have sameKeys : keys = keys' :=
    perm.eq_of_pairwise (fun _ _ _ _ below above => le_antisymm below above) sorted sorted'
  subst sameKeys
  have sameBodies : bodies = bodies' := by
    refine forall₂_unique ?_ records records'
    rintro key body body' ⟨_, record, found, encoded⟩ ⟨_, record', found', encoded'⟩
    rw [found] at found'
    cases found'
    exact Except.ok.inj (encoded.symm.trans encoded')
  have sameFlags : flagBodies = flagBodies' := by
    refine forall₂_unique ?_ flags flags'
    intro key body body' one other
    exact Except.ok.inj (one.2.symm.trans other.2)
  rw [sameBodies, sameFlags]

end Image

section FramesRead

/-- The frames a replay of a v2 file folds. -/
def framesRead (codec : Codec T) (hash : Bytes → UInt32) (bytes : Bytes) : List (Frame T × Nat) :=
  match formatOf bytes with
  | .ok (.v2, start) =>
    if start = 0 then []
    else (scan (v2Next codec hash true) (fun list read => list ++ [read]) bytes.length
      (bytes.drop start) []).1
  | _ => []

theorem foldl_snoc {α : Type} (list acc : List α) :
    list.foldl (fun list read => list ++ [read]) acc = acc ++ list := by
  induction list generalizing acc with
  | nil => exact (List.append_nil acc).symm
  | cons read rest ih => rw [List.foldl_cons, ih, List.append_assoc, List.singleton_append]

/-- Whole frames behind a header are what a replay folds, up to a rest that starts none. -/
theorem framesRead_frames {body rest : Bytes} {frames : List (Frame T × Nat)}
    (framed : Frames (v2Reader codec hash true) body frames) (stops : v2Next codec hash true rest = none) :
    framesRead codec hash (fileHeader ++ (body ++ rest)) = frames := by
  have behind : (fileHeader ++ (body ++ rest)).drop FILE_HEADER_LEN = body ++ rest := List.drop_left' rfl
  have enough : (body ++ rest).length ≤ (fileHeader ++ (body ++ rest)).length := by
    simp only [List.length_append]
    omega
  have scanned : scan (v2Reader codec hash true).next (fun list read => list ++ [read])
      (fileHeader ++ (body ++ rest)).length (body ++ rest) [] = (frames.foldl (fun list read => list ++ [read]) [], rest) :=
    scan_frames framed stops enough
  unfold framesRead
  rw [formatOf_fileHeader]
  simp only [behind]
  rw [if_neg (by decide)]
  change (scan (v2Reader codec hash true).next _ _ _ _).1 = frames
  rw [scanned, foldl_snoc, List.nil_append]

/-- A v2 replay is the fold of the frames it read. -/
theorem replay_v2 {bytes : Bytes} {found : Replayed T}
    (replayed : replay codec hash keyOf v1 true bytes = .ok found) (new : found.format = .v2) :
    ∃ maps, maps = (framesRead codec hash bytes).foldl (Replaying.apply keyOf) Replaying.start ∧
      found.contents = maps.contents ∧ found.removed = maps.removed ∧
      found.liveLen = FILE_HEADER_LEN + maps.sizes.values.sum + maps.tombstoned.sum tombstoneFrameLen := by
  unfold replay at replayed
  cases formed : formatOf bytes with
  | error e =>
    rw [formed] at replayed
    cases replayed
  | ok shape =>
    obtain ⟨format, start⟩ := shape
    rw [formed] at replayed
    rcases formatOf_start formed with ⟨rfl, _⟩ | ⟨rfl, rfl⟩ | rfl | ⟨rfl, rfl, body, rfl⟩
    · cases replayed
      cases new
    · have none : framesRead codec hash bytes = [] := by
        unfold framesRead
        rw [formed]
        rfl
      cases replayed
      rw [none]
      exact ⟨_, rfl, rfl, rfl, rfl⟩
    · cases replayed
      cases new
    · obtain ⟨good, frames, rest, same, framed, stops, _⟩ :=
        scan_splits (v2Reader codec hash true) (Replaying.apply keyOf) body.length body Replaying.start le_rfl
      subst same
      simp only [bind, Except.bind, readFrames_frames keyOf v1 framed stops] at replayed
      cases replayed
      rw [framesRead_frames framed stops]
      exact ⟨_, rfl, rfl, rfl, rfl⟩

end FramesRead

section Live

/-- The frame writes over the key's record or takes it away. -/
def Touches (keyOf : T → String) (key : String) : Frame T → Prop
  | .upsert record => keyOf record = key
  | .remove other => other = key
  | _ => False

/-- The key's record is what this frame wrote: no later frame touches it. -/
def LiveFrame (keyOf : T → String) (frames : List (Frame T × Nat)) (key : String) (record : T)
    (bodyLen : Nat) : Prop :=
  ∃ early late, frames = early ++ (.upsert record, bodyLen) :: late ∧ keyOf record = key ∧
    ∀ read ∈ late, ¬ Touches keyOf key read.1

/-- Every live frame is still the one its record encodes to. -/
def Retained (codec : Codec T) (keyOf : T → String) (frames : List (Frame T × Nat)) : Prop :=
  ∀ key record bodyLen, LiveFrame keyOf frames key record bodyLen →
    ∃ body, upsertBody codec record = .ok body ∧ body.length = bodyLen

theorem LiveFrame.snoc {frames : List (Frame T × Nat)} {key : String} {record : T} {bodyLen : Nat}
    (live : LiveFrame keyOf frames key record bodyLen) {read : Frame T × Nat}
    (apart : ¬ Touches keyOf key read.1) : LiveFrame keyOf (frames ++ [read]) key record bodyLen := by
  obtain ⟨early, late, rfl, keyed, after⟩ := live
  refine ⟨early, late ++ [read], by simp, keyed, ?_⟩
  intro other member
  rcases List.mem_append.mp member with inside | last
  · exact after other inside
  · rw [List.mem_singleton.mp last]
    exact apart

/-- A frame that does not touch a key leaves its record and its size. -/
theorem Replaying.apply_apart (maps : Replaying T) {key : String} {read : Frame T × Nat}
    (apart : ¬ Touches keyOf key read.1) :
    (maps.apply keyOf read).records.lookup key = maps.records.lookup key ∧
      (maps.apply keyOf read).sizes.lookup key = maps.sizes.lookup key := by
  obtain ⟨frame, bodyLen⟩ := read
  cases frame with
  | upsert record =>
    have other : key ≠ keyOf record := fun same => apart same.symm
    exact ⟨AList.lookup_insert_ne other, AList.lookup_insert_ne other⟩
  | remove gone =>
    have other : key ≠ gone := fun same => apart same.symm
    exact ⟨AList.lookup_erase_ne other, AList.lookup_erase_ne other⟩
  | tombstone _ => exact ⟨rfl, rfl⟩
  | untombstone _ => exact ⟨rfl, rfl⟩

/-- A replay holds a key's record and its frame's size exactly when the frame is live. -/
theorem Replaying.live (keyOf : T → String) (frames : List (Frame T × Nat)) (key : String) :
    (∃ record bodyLen, LiveFrame keyOf frames key record bodyLen ∧
      (frames.foldl (Replaying.apply keyOf) Replaying.start).records.lookup key = some record ∧
      (frames.foldl (Replaying.apply keyOf) Replaying.start).sizes.lookup key =
        some (FRAME_HEADER_LEN + bodyLen)) ∨
    (frames.foldl (Replaying.apply keyOf) Replaying.start).records.lookup key = none ∧
      (frames.foldl (Replaying.apply keyOf) Replaying.start).sizes.lookup key = none := by
  induction frames using List.reverseRecOn with
  | nil => exact .inr ⟨rfl, rfl⟩
  | append_singleton frames read ih =>
    rw [List.foldl_append, List.foldl_cons, List.foldl_nil]
    by_cases touched : Touches keyOf key read.1
    · obtain ⟨frame, bodyLen⟩ := read
      cases frame with
      | upsert record =>
        have keyed : keyOf record = key := touched
        subst keyed
        have live : LiveFrame keyOf (frames ++ [(.upsert record, bodyLen)]) (keyOf record) record bodyLen :=
          ⟨frames, [], rfl, rfl, fun _ member => (nomatch member)⟩
        exact .inl ⟨record, bodyLen, live, AList.lookup_insert _, AList.lookup_insert _⟩
      | remove gone =>
        have same : gone = key := touched
        subst same
        exact .inr ⟨AList.lookup_erase _ _, AList.lookup_erase _ _⟩
      | tombstone _ => exact touched.elim
      | untombstone _ => exact touched.elim
    · obtain ⟨sameRecord, sameSize⟩ :=
        Replaying.apply_apart (frames.foldl (Replaying.apply keyOf) Replaying.start) touched
      rw [sameRecord, sameSize]
      rcases ih with ⟨record, bodyLen, live, held, sized⟩ | gone
      · exact .inl ⟨record, bodyLen, live.snoc touched, held, sized⟩
      · exact .inr gone

theorem length_encodeString {text : String} {bytes : Bytes} (encoded : encodeString text = .ok bytes) :
    bytes.length = 4 + text.utf8ByteSize := by
  unfold encodeString at encoded
  simp only at encoded
  split at encoded
  · cases encoded
    rw [List.length_append, length_toLeBytes]
    rfl
  · cases encoded

theorem FlagBody.frameLen {key : String} {body : Bytes} (flag : FlagBody codec key body) :
    tombstoneFrameLen key = FRAME_HEADER_LEN + body.length := by
  obtain ⟨field, encoded, rfl⟩ := Frame.tagged_ok flag.2
  have sized := length_encodeString encoded
  unfold tombstoneFrameLen
  rw [List.length_cons, sized]
  omega

theorem forall₂_map_eq {α β γ : Type} {Rel : α → β → Prop} {f : α → γ} {g : β → γ}
    (each : ∀ a b, Rel a b → f a = g b) {as : List α} {bs : List β} (all : List.Forall₂ Rel as bs) :
    as.map f = bs.map g := by
  induction all with
  | nil => rfl
  | cons head _ ih => rw [List.map_cons, List.map_cons, each _ _ head, ih]

theorem length_frames (bodies : List Bytes) :
    ((bodies.map (frameBytes hash)).flatten).length =
      (bodies.map fun body => FRAME_HEADER_LEN + body.length).sum := by
  rw [List.length_flatten, List.map_map]
  congr 1
  apply List.map_congr_left
  intro body _
  exact length_frameBytes hash body

/-- Whatever history left these contents with its live frames retained, its live size is the
    image's length. -/
theorem Image.live_len {file : Bytes} (image : Image codec hash contents file)
    {frames : List (Frame T × Nat)} (retained : Retained codec keyOf frames) {maps : Replaying T}
    (folded : maps = frames.foldl (Replaying.apply keyOf) Replaying.start) (same : maps.contents = contents) :
    FILE_HEADER_LEN + maps.sizes.values.sum + maps.tombstoned.sum tombstoneFrameLen = file.length := by
  obtain ⟨keys, bodies, flagBodies, _, nodup, keyed, records, flags, rfl⟩ := image
  have live := fun key => Replaying.live keyOf frames key
  simp only [← folded] at live
  have lookups : ∀ key, maps.records.lookup key = contents.record key := fun key => by rw [← same]; rfl
  have members : ∀ key, key ∈ keys ↔ key ∈ maps.sizes := by
    intro key
    rw [keyed, ← lookups, ← AList.lookup_isSome]
    rcases live key with ⟨record, bodyLen, _, held, sized⟩ | ⟨none, unsized⟩
    · simp [held, sized]
    · simp [none, unsized]
  have sizes : (keys.map fun key => (maps.sizes.lookup key).getD 0) =
      bodies.map fun body => FRAME_HEADER_LEN + body.length := by
    refine forall₂_map_eq ?_ records
    intro key body kept
    obtain ⟨_, record, found, encoded⟩ := kept
    rw [← lookups] at found
    rcases live key with ⟨other, bodyLen, isLive, held, sized⟩ | ⟨none, _⟩
    · rw [held] at found
      cases found
      obtain ⟨own, made, long⟩ := retained key record bodyLen isLive
      rw [encoded] at made
      cases made
      rw [sized, ← long]
      rfl
    · rw [none] at found
      cases found
  have values : maps.sizes.values.sum = (bodies.map fun body => FRAME_HEADER_LEN + body.length).sum := by
    rw [(KeyMap.values_perm nodup members 0).sum_eq, sizes]
  have flagged : maps.tombstoned.sum tombstoneFrameLen =
      (flagBodies.map fun body => FRAME_HEADER_LEN + body.length).sum := by
    have tombs : maps.tombstoned = contents.tombstoned := by rw [← same]; rfl
    rw [tombs, ← forall₂_map_eq (fun _ _ flag => FlagBody.frameLen flag) flags, Finset.sum,
      ← Finset.sort_eq contents.tombstoned (· ≤ ·), Multiset.map_coe, Multiset.sum_coe]
  rw [values, flagged, List.length_append, length_fileHeader, length_frames, List.map_append, List.sum_append,
    Nat.add_assoc]

theorem LiveFrame.mem {frames : List (Frame T × Nat)} {key : String} {record : T} {bodyLen : Nat}
    (live : LiveFrame keyOf frames key record bodyLen) : (.upsert record, bodyLen) ∈ frames := by
  obtain ⟨early, late, rfl, _⟩ := live
  simp

end Live

section Rewritten

/-- The frames an image keeps: a live record's own, and a flag's. -/
def Standing (codec : Codec T) (contents : Contents T) : Frame T × Nat → Prop
  | (.upsert record, bodyLen) => (∃ key, contents.record key = some record) ∧
      ∃ body, upsertBody codec record = .ok body ∧ body.length = bodyLen
  | (.tombstone key, _) => key ∈ contents.tombstoned
  | _ => False

theorem forall₂_frames {α : Type} {Body : α → Bytes → Prop} {good : Frame T × Nat → Prop} {list : List α}
    {bodies : List Bytes}
    (each : ∀ a ∈ list, ∀ body, Body a body → ∃ read, good read ∧
      (v2Reader codec hash true).next (frameBytes hash body) = some (read, (frameBytes hash body).length))
    (all : List.Forall₂ Body list bodies) :
    ∃ frames, Frames (v2Reader codec hash true) ((bodies.map (frameBytes hash)).flatten) frames ∧
      ∀ read ∈ frames, good read := by
  induction all with
  | nil => exact ⟨[], .nil, fun _ member => (nomatch member)⟩
  | cons head _ ih =>
    obtain ⟨read, isGood, next⟩ := each _ List.mem_cons_self _ head
    obtain ⟨frames, framed, rest⟩ := ih (fun a member => each a (List.mem_cons_of_mem _ member))
    refine ⟨read :: frames, ?_, ?_⟩
    · rw [List.map_cons, List.flatten_cons]
      exact .cons next framed
    · intro other member
      rcases List.mem_cons.mp member with rfl | inside
      · exact isGood
      · exact rest other inside

/-- An image reads back as the frames it keeps and no others. -/
theorem Image.frames {file : Bytes} (image : Image codec hash contents file) :
    (∃ body, file = fileHeader ++ body) ∧ ∀ read ∈ framesRead codec hash file, Standing codec contents read := by
  obtain ⟨keys, bodies, flagBodies, _, _, _, records, flags, rfl⟩ := image
  have recordReads : ∀ key ∈ keys, ∀ body, RecordBody codec contents key body → ∃ read,
      Standing codec contents read ∧
        (v2Reader codec hash true).next (frameBytes hash body) = some (read, (frameBytes hash body).length) := by
    intro key _ body isBody
    obtain ⟨short, record, found, encoded⟩ := isBody
    exact ⟨(.upsert record, body.length), ⟨⟨key, found⟩, body, encoded, rfl⟩, next_frameBytes short encoded true⟩
  have flagReads : ∀ key ∈ contents.tombstoned.sort (· ≤ ·), ∀ body, FlagBody codec key body → ∃ read,
      Standing codec contents read ∧
        (v2Reader codec hash true).next (frameBytes hash body) = some (read, (frameBytes hash body).length) := by
    intro key member body isBody
    have flagged : key ∈ contents.tombstoned := (Finset.mem_sort _).mp member
    exact ⟨(.tombstone key, body.length), flagged, next_frameBytes isBody.1 isBody.2 true⟩
  obtain ⟨upserts, framed, kept⟩ := forall₂_frames recordReads records
  obtain ⟨tombstones, framedFlags, keptFlags⟩ := forall₂_frames flagReads flags
  have stops : v2Next codec hash true [] = none := (v2Reader codec hash true).next_nil
  have whole := framesRead_frames (framed.append framedFlags) stops
  rw [List.append_nil] at whole
  refine ⟨⟨_, rfl⟩, ?_⟩
  rw [List.map_append, List.flatten_append, whole]
  intro read member
  rcases List.mem_append.mp member with upsert | flag
  · exact kept read upsert
  · exact keptFlags read flag

theorem Replaying.removed_foldl {frames : List (Frame T × Nat)} {maps : Replaying T}
    (kept : ∀ read ∈ frames, Standing codec contents read) :
    (frames.foldl (Replaying.apply keyOf) maps).removed = maps.removed := by
  induction frames generalizing maps with
  | nil => rfl
  | cons read rest ih =>
    rw [List.foldl_cons, ih (fun other member => kept other (List.mem_cons_of_mem _ member))]
    have head := kept read List.mem_cons_self
    obtain ⟨frame, bodyLen⟩ := read
    cases frame with
    | upsert _ => rfl
    | remove _ => exact head.elim
    | tombstone _ => rfl
    | untombstone _ => exact head.elim

theorem retained_of_standing {frames : List (Frame T × Nat)} (kept : ∀ read ∈ frames, Standing codec contents read) :
    Retained codec keyOf frames := by
  intro key record bodyLen live
  exact (kept _ live.mem).2

variable (codec hash keyOf v1) in
/-- The file holds these contents and nothing else. -/
structure Compacted (contents : Contents T) (file : Bytes) : Prop where
  replays : ∃ found, replay codec hash keyOf v1 true file = .ok found ∧ found.contents = contents ∧
    found.format = .v2 ∧ found.tail = .clean ∧ found.goodEnd = file.length ∧ found.removed = false ∧
    found.liveLen = file.length
  image : Image codec hash contents file
  kept : ∀ read ∈ framesRead codec hash file, Standing codec contents read
  yardstick : ∀ other found, replay codec hash keyOf v1 true other = .ok found → found.format = .v2 →
    found.contents = contents → Retained codec keyOf (framesRead codec hash other) →
    found.liveLen = file.length

theorem replay_headed (body : Bytes) (other : Bytes → Option (Frame T)) :
    replay codec hash keyOf v1 true (fileHeader ++ body) = replay codec hash keyOf other true (fileHeader ++ body) := by
  unfold replay
  rw [formatOf_fileHeader]
  rfl

theorem Image.yardstick {file : Bytes} (image : Image codec hash contents file) {other : Bytes}
    {found : Replayed T} (replayed : replay codec hash keyOf v1 true other = .ok found)
    (new : found.format = .v2) (same : found.contents = contents)
    (retained : Retained codec keyOf (framesRead codec hash other)) : found.liveLen = file.length := by
  obtain ⟨maps, folded, sameMaps, _, sized⟩ := replay_v2 replayed new
  rw [sized]
  exact image.live_len retained folded (sameMaps.symm.trans same)

theorem Image.compacted {file : Bytes} (image : Image codec hash contents file) {check : Replayed T}
    {other : Bytes → Option (Frame T)} (replayed : replay codec hash keyOf other true file = .ok check)
    (new : check.format = .v2) (clean : check.tail = .clean) (same : check.contents = contents) :
    Compacted codec hash keyOf v1 contents file := by
  obtain ⟨⟨body, headed⟩, kept⟩ := image.frames
  have reread : replay codec hash keyOf v1 true file = .ok check := by
    rw [headed] at replayed ⊢
    rw [replay_headed body other, replayed]
  have ends : check.goodEnd = file.length :=
    (replay_splits v1 reread (by rw [new]; simp)).2.2 clean
  have unremoved : check.removed = false := by
    obtain ⟨maps, folded, _, removed, _⟩ := replay_v2 reread new
    rw [removed, folded, Replaying.removed_foldl kept]
    rfl
  have sized : check.liveLen = file.length := image.yardstick reread new same (retained_of_standing kept)
  exact ⟨⟨check, reread, same, new, clean, ends, unremoved, sized⟩, image, kept,
    fun _ _ read isNew isSame retained => image.yardstick read isNew isSame retained⟩

theorem Log.compact_ok {replaces wrote : Bool} {log after : Log T} {disk left : Disk}
    (did : log.compact codec hash keyOf replaces disk = (.ok wrote, after, left)) :
    ∃ image check, log.held = none ∧ log.image codec hash = .ok image ∧
      replay codec hash keyOf (Frame.tryFromSlice codec) true image = .ok check ∧
      log.same codec check = true ∧ replaces = true ∧ wrote = true ∧
      after = { log with endAt := image.length, cutOwed := false, removed := false } ∧
      left = { disk with file := image } := by
  unfold compact at did
  split at did
  · cases did
  case h_2 free =>
    split at did
    · cases did
    · split at did
      · cases did
      case h_2 image made =>
        split at did
        · cases did
        case h_2 check replayed =>
          split at did
          case isFalse => cases did
          case isTrue same =>
            split at did
            case isFalse => cases did
            case isTrue written =>
              cases did
              exact ⟨image, check, free, made, replayed, same, written, rfl, rfl, rfl⟩

theorem Log.compact_compacted {replaces wrote : Bool} {log after : Log T} {disk left : Disk}
    (did : log.compact codec hash keyOf replaces disk = (.ok wrote, after, left)) :
    Compacted codec hash keyOf v1 log.contents left.file := by
  obtain ⟨image, check, _, made, replayed, same, _, _, _, rfl⟩ := Log.compact_ok did
  obtain ⟨new, clean, contents⟩ := Log.same_contents same
  exact (Log.image_ok made).compacted replayed new clean contents

theorem Log.compact_of {log : Log T} {disk : Disk} {image : Bytes} {check : Replayed T} (free : log.held = none)
    (ours : ¬ (log.endAt < disk.file.length ∧ log.cutOwed = false)) (made : log.image codec hash = .ok image)
    (replayed : replay codec hash keyOf (Frame.tryFromSlice codec) true image = .ok check)
    (same : log.same codec check = true) :
    log.compact codec hash keyOf true disk =
      (.ok true, { log with endAt := image.length, cutOwed := false, removed := false },
        { disk with file := image }) := by
  unfold compact
  simp only [free, if_neg ours, made, replayed, same, if_true]

theorem Log.compact_again {replaces wrote : Bool} {log after : Log T} {disk left : Disk}
    (did : log.compact codec hash keyOf replaces disk = (.ok wrote, after, left)) :
    after.compact codec hash keyOf true left = (.ok true, after, left) := by
  obtain ⟨image, check, free, made, replayed, same, _, _, rfl, rfl⟩ := Log.compact_ok did
  exact Log.compact_of free (fun grew => absurd grew.1 (Nat.lt_irrefl _)) made replayed same

end Rewritten

section Meaning

variable (codec hash keyOf v1) in
/-- What a compaction of this log comes to. -/
structure Preserves (at_ : Log T × Disk) (replaces : Bool) : Prop where
  refused : ∀ e after, at_.1.compact codec hash keyOf replaces at_.2 = (.error e, after) → after = at_
  meaning : ∀ wrote after left, at_.1.compact codec hash keyOf replaces at_.2 = (.ok wrote, after, left) →
    after.contents = at_.1.contents ∧ Compacted codec hash keyOf v1 at_.1.contents left.file
  again : ∀ wrote after left, at_.1.compact codec hash keyOf replaces at_.2 = (.ok wrote, after, left) →
    after.compact codec hash keyOf true left = (.ok true, after, left)
  reloaded : ∀ wrote after left, at_.1.compact codec hash keyOf replaces at_.2 = (.ok wrote, after, left) →
    ∀ name io start, load codec hash keyOf v1 name io left = .ok start →
      ∀ rewrites wroteAgain final, start.1.compact codec hash keyOf rewrites start.2 = (.ok wroteAgain, final) →
        final.2.file = left.file
  unlike : ∀ image, at_.1.image codec hash = .ok image →
    (∀ check, replay codec hash keyOf (Frame.tryFromSlice codec) true image = .ok check →
      ¬ (check.format = .v2 ∧ check.tail = .clean ∧ check.contents = at_.1.contents)) →
    (at_.1.compact codec hash keyOf replaces at_.2).2 = at_

variable (codec hash keyOf v1) in
/-- What a load that compacts or migrates comes to, and a compaction any operations later. -/
structure LoadPreserves (disk : Disk) (start : Log T × Disk) (found : Replayed T) :
    Prop where
  contents : start.1.contents = found.contents
  rewritten : start.2.file = disk.file ∨ Compacted codec hash keyOf v1 found.contents start.2.file
  migrated : found.format = .v1 → start.1.held = none → Compacted codec hash keyOf v1 found.contents start.2.file
  cut : found.tail ≠ .clean → start.1.held = none → start.1.cutOwed = false →
    Compacted codec hash keyOf v1 found.contents start.2.file
  later : ∀ steps replaces wrote after left,
    (runOps codec hash keyOf start steps).1.compact codec hash keyOf replaces
      (runOps codec hash keyOf start steps).2 = (.ok wrote, after, left) →
    Compacted codec hash keyOf v1 ((acknowledged codec hash keyOf start steps).foldl
      (fun contents op => op.effect keyOf contents) found.contents) left.file

theorem Log.compact_refused {replaces : Bool} {log : Log T} {disk : Disk} {e : ChainError} {after : Log T × Disk}
    (did : log.compact codec hash keyOf replaces disk = (.error e, after)) : after = (log, disk) := by
  rcases Log.compact_cases codec hash keyOf replaces log disk with ⟨_, fails⟩ | ⟨_, _, _, lands⟩
  · rw [fails] at did
    cases did
    rfl
  · rw [lands] at did
    cases did

theorem Compacted.reload {file : Bytes} {disk : Disk} (compacted : Compacted codec hash keyOf v1 contents file)
    (same : disk.file = file) {name : String} {io : LoadIo} {start : Log T × Disk}
    (loaded : load codec hash keyOf v1 name io disk = .ok start) (free : start.1.held = none) :
    start.1.contents = contents := by
  have known : checksumHolds hash = true := by
    cases known : checksumHolds hash with
    | true => rfl
    | false => exact absurd free ((load_file loaded).2.1 known)
  obtain ⟨found, replayed, held, _⟩ := load_replays loaded
  obtain ⟨again, reread, kept, _⟩ := compacted.replays
  rw [known, same, reread] at replayed
  cases replayed
  exact held.trans kept

theorem Log.preserves (at_ : Log T × Disk) (replaces : Bool) : Preserves codec hash keyOf v1 at_ replaces where
  refused := fun _ _ did => Log.compact_refused did
  meaning := by
    intro wrote after left did
    obtain ⟨_, _, _, _, _, _, _, _, same, _⟩ := Log.compact_ok did
    rw [same]
    exact ⟨rfl, Log.compact_compacted did⟩
  again := fun _ _ _ did => Log.compact_again did
  reloaded := by
    intro wrote after left did name io start loaded rewrites wroteAgain final redid
    obtain ⟨_, _, free, _⟩ := Log.compact_ok redid
    have first : Compacted codec hash keyOf v1 at_.1.contents left.file := Log.compact_compacted did
    have second : Compacted codec hash keyOf v1 start.1.contents final.2.file := Log.compact_compacted redid
    rw [first.reload rfl loaded free] at second
    exact second.image.unique first.image
  unlike := by
    intro image made differs
    cases did : at_.1.compact codec hash keyOf replaces at_.2 with
    | mk result after =>
      cases result with
      | error e => exact Log.compact_refused did
      | ok wrote =>
        obtain ⟨other, check, _, remade, replayed, same, _⟩ := Log.compact_ok did
        rw [made] at remade
        cases remade
        exact absurd (Log.same_contents same) (differs check replayed)

/-- The rewrite a load makes leaves the file, or leaves what the file replayed to. -/
theorem Log.settle_compacts {io : LoadIo} {found : Replayed T} {log after : Log T} {disk left : Disk}
    (same : log.contents = found.contents) (settled : log.settle codec hash keyOf io found disk = (after, left)) :
    (left.file = disk.file ∨ Compacted codec hash keyOf v1 found.contents left.file) ∧
      (found.format = .v1 → after.held = none → Compacted codec hash keyOf v1 found.contents left.file) ∧
      (found.tail ≠ .clean → after.cutOwed = false → Compacted codec hash keyOf v1 found.contents left.file) := by
  unfold settle at settled
  simp only at settled
  split at settled
  case isTrue =>
    cases did : ({ log with cutOwed := decide (found.tail ≠ .clean) } : Log T).compact codec hash keyOf io.replaces disk with
    | mk result rest =>
      obtain ⟨rewritten, kept⟩ := rest
      rw [did] at settled
      cases result with
      | ok wrote =>
        cases settled
        have compacted : Compacted codec hash keyOf v1
            ({ log with cutOwed := decide (found.tail ≠ .clean) } : Log T).contents left.file :=
          Log.compact_compacted did
        change Compacted codec hash keyOf v1 log.contents left.file at compacted
        rw [same] at compacted
        exact ⟨.inr compacted, fun _ _ => compacted, fun _ _ => compacted⟩
      | error e =>
        have unchanged := Log.compact_refused did
        cases unchanged
        simp only at settled
        split at settled
        case isTrue =>
          cases settled
          exact ⟨.inl rfl, fun _ free => (nomatch free), fun dirty paid => absurd paid (by simp [dirty])⟩
        case isFalse new =>
          cases settled
          exact ⟨.inl rfl, fun old => absurd old new, fun dirty paid => absurd paid (by simp [dirty])⟩
  case isFalse idle =>
    cases settled
    exact ⟨.inl rfl, fun old => absurd (.inl old) idle, fun dirty => absurd (.inr (.inl dirty)) idle⟩

theorem load_compacts {name : String} {io : LoadIo} {disk : Disk} {start : Log T × Disk} {found : Replayed T}
    (loaded : load codec hash keyOf v1 name io disk = .ok start)
    (replayed : replay codec hash keyOf v1 (checksumHolds hash) disk.file = .ok found) :
    (start.2.file = disk.file ∨ Compacted codec hash keyOf v1 found.contents start.2.file) ∧
      (found.format = .v1 → start.1.held = none → Compacted codec hash keyOf v1 found.contents start.2.file) ∧
      (found.tail ≠ .clean → start.1.held = none → start.1.cutOwed = false →
        Compacted codec hash keyOf v1 found.contents start.2.file) := by
  unfold load at loaded
  split at loaded
  · cases loaded
  · simp only [replayed, Except.bind] at loaded
    have settles : ∀ aside : Disk, aside.file = disk.file →
        (found.log name).settle codec hash keyOf io found aside = start →
        (start.2.file = disk.file ∨ Compacted codec hash keyOf v1 found.contents start.2.file) ∧
          (found.format = .v1 → start.1.held = none → Compacted codec hash keyOf v1 found.contents start.2.file) ∧
          (found.tail ≠ .clean → start.1.held = none → start.1.cutOwed = false →
            Compacted codec hash keyOf v1 found.contents start.2.file) := by
      intro aside file did
      have compacts : (start.2.file = aside.file ∨ Compacted codec hash keyOf v1 found.contents start.2.file) ∧
          (found.format = .v1 → start.1.held = none → Compacted codec hash keyOf v1 found.contents start.2.file) ∧
          (found.tail ≠ .clean → start.1.cutOwed = false →
            Compacted codec hash keyOf v1 found.contents start.2.file) := Log.settle_compacts rfl did
      rw [file] at compacts
      exact ⟨compacts.1, compacts.2.1, fun dirty _ paid => compacts.2.2 dirty paid⟩
    split at loaded
    case isTrue =>
      cases loaded
      exact ⟨.inl rfl, fun _ free => (nomatch free), fun _ free => (nomatch free)⟩
    case isFalse checked =>
      have known : checksumHolds hash = true := by simpa using checked
      rw [known] at replayed
      split at loaded
      case isTrue empty =>
        cases loaded
        have nothing := replay_empty replayed empty
        rw [nothing] at replayed
        cases replayed
        exact ⟨.inl rfl, fun old => (nomatch old), fun dirty => absurd rfl dirty⟩
      case isFalse =>
        split at loaded
        case h_1 =>
          split at loaded
          case isTrue => exact settles _ (by rfl) (Except.ok.inj loaded)
          case isFalse =>
            cases loaded
            exact ⟨.inl rfl, fun _ free => (nomatch free), fun _ free => (nomatch free)⟩
        case h_2 => exact settles _ (by rfl) (Except.ok.inj loaded)

theorem load_preserves {name : String} {io : LoadIo} {disk : Disk} {start : Log T × Disk} {found : Replayed T}
    (loaded : load codec hash keyOf v1 name io disk = .ok start)
    (replayed : replay codec hash keyOf v1 (checksumHolds hash) disk.file = .ok found) :
    LoadPreserves codec hash keyOf v1 disk start found := by
  have contents : start.1.contents = found.contents := by
    obtain ⟨again, reread, same, _⟩ := load_replays loaded
    rw [replayed] at reread
    cases reread
    exact same
  obtain ⟨rewritten, migrated, cut⟩ := load_compacts loaded replayed
  refine ⟨contents, rewritten, migrated, cut, ?_⟩
  intro steps replaces wrote after left did
  have compacted : Compacted codec hash keyOf v1 (runOps codec hash keyOf start steps).1.contents left.file :=
    Log.compact_compacted did
  rw [runOps_contents, contents] at compacted
  exact compacted

/-- Whatever the history behind a log, a compaction that returns `Ok` leaves a file that replays to
    exactly its records and flags and holds nothing else, and one that cannot leaves everything. -/
theorem compaction_preserves_meaning (codec : Codec T) (hash : Bytes → UInt32) (keyOf : T → String)
    (v1 : Bytes → Option (Frame T)) :
    (∀ at_ replaces, Preserves codec hash keyOf v1 at_ replaces) ∧
      ∀ name io disk start found, load codec hash keyOf v1 name io disk = .ok start →
        replay codec hash keyOf v1 (checksumHolds hash) disk.file = .ok found →
        LoadPreserves codec hash keyOf v1 disk start found :=
  ⟨Log.preserves, fun _ _ _ _ _ loaded replayed => load_preserves loaded replayed⟩

/-- The v1 log of `a`, then `b`, then the removal of `a`. -/
def oldLog : Bytes :=
  [6, 0, 0, 0, 0, 1, 0, 0, 0, 97] ++ [6, 0, 0, 0, 0, 1, 0, 0, 0, 98] ++ [6, 0, 0, 0, 1, 1, 0, 0, 0, 97]

/-- It migrates to the record that is left. -/
theorem compaction_preserves_meaning_oldLog : ∃ found start,
    replay textCodec crc32 id textV1 true oldLog = .ok found ∧ found.format = .v1 ∧
      load textCodec crc32 id textV1 "log" working ⟨oldLog, ∅⟩ = .ok start ∧ start.1.held = none ∧
      start.1.contents.record "a" = none ∧ start.1.contents.record "b" = some "b" ∧
      Compacted textCodec crc32 id textV1 found.contents start.2.file := by
  have reads : ((replay textCodec crc32 id textV1 true oldLog).map fun found =>
      (found.format, found.contents.record "a", found.contents.record "b")) =
      .ok (.v1, none, some "b") := by decide +kernel
  have loads : ((load textCodec crc32 id textV1 "log" working ⟨oldLog, ∅⟩).map fun start => start.1.held) =
      .ok none := by
    unfold load
    rw [checksumHolds_crc32]
    decide +kernel
  cases replayed : replay textCodec crc32 id textV1 true oldLog with
  | error e =>
    rw [replayed] at reads
    cases reads
  | ok found =>
    cases loaded : load textCodec crc32 id textV1 "log" working ⟨oldLog, ∅⟩ with
    | error e =>
      rw [loaded] at loads
      cases loads
    | ok start =>
      rw [replayed] at reads
      rw [loaded] at loads
      obtain ⟨old, gone, left⟩ : found.format = .v1 ∧ found.contents.record "a" = none ∧
          found.contents.record "b" = some "b" := by simpa [Except.map] using reads
      have free : start.1.held = none := Except.ok.inj loads
      have verified : replay textCodec crc32 id textV1 (checksumHolds crc32) oldLog = .ok found := by
        rw [checksumHolds_crc32, replayed]
      have preserves := (compaction_preserves_meaning textCodec crc32 id textV1).2
        "log" working ⟨oldLog, ∅⟩ start found loaded verified
      refine ⟨found, start, rfl, old, rfl, free, ?_, ?_, preserves.migrated old free⟩
      · rw [preserves.contents, gone]
      · rw [preserves.contents, left]

end Meaning

end Kaspaverse.Kvlog
