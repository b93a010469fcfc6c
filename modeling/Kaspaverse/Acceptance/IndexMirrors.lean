import Kaspaverse.Library.Machine
import Kaspaverse.Acceptance.Tracker

namespace Kaspaverse.Acceptance.TrackerState

theorem upsert_cases (s : TrackerState) (txid : Txid) (record : WatchRecord) :
    (∃ disk, s.upsert txid record = (false, { s with log := { s.log with disk := disk } })) ∨
    ∃ log, s.upsert txid record = (true, { s with log := log }) ∧
      ∀ other, log.records.lookup other = if other = txid then some record else s.record other := by
  unfold upsert WatchLog.upsert
  split
  · rename_i held
    apply Or.inr
    refine ⟨s.log, rfl, ?_⟩
    intro other
    by_cases same : other = txid
    · rw [if_pos same, same, held]
    · rw [if_neg same]
      rfl
  · split
    · apply Or.inr
      refine ⟨_, rfl, ?_⟩
      intro other
      by_cases same : other = txid
      · rw [if_pos same, same]
        exact AList.lookup_insert _
      · rw [if_neg same]
        exact AList.lookup_insert_ne same
    · exact Or.inl ⟨_, rfl⟩

/-- Each record stands under its own txid, and the index lists each txid under the block its record
    is accepted by. -/
structure Mirrored (s : TrackerState) : Prop where
  keyed : ∀ txid record, s.record txid = some record → record.txid = txid
  index : Index.Mirrors s.byAcceptingBlock s.acceptedAt

theorem Mirrored.of_same {s t : TrackerState} (mirrored : s.Mirrored)
    (records : t.log.records = s.log.records) (index : t.byAcceptingBlock = s.byAcceptingBlock) :
    t.Mirrored := by
  have record : t.record = s.record := by
    funext txid
    rw [TrackerState.record, records]
    rfl
  refine ⟨?_, ?_⟩
  · rw [record]
    exact mirrored.keyed
  · rw [index]
    apply mirrored.index.congr
    intro txid
    rw [acceptedAt, record]
    rfl

/-- A record that is written takes its txid to the place its status says. -/
theorem Mirrored.written {s t : TrackerState} (mirrored : s.Mirrored) {txid : Txid}
    {record : WatchRecord} (named : record.txid = txid)
    (records : ∀ other, t.record other = if other = txid then some record else s.record other)
    (index : Index.Mirrors t.byAcceptingBlock
      (Function.update s.acceptedAt txid record.status.acceptingBlock)) : t.Mirrored := by
  refine ⟨?_, ?_⟩
  · intro other found has
    rw [records] at has
    by_cases same : other = txid
    · rw [if_pos same] at has
      cases has
      rw [named, same]
    · rw [if_neg same] at has
      exact mirrored.keyed other found has
  · apply index.congr
    intro other
    rw [acceptedAt, records]
    by_cases same : other = txid
    · rw [if_pos same, same, Function.update_self]
      rfl
    · rw [if_neg same, Function.update_of_ne same]
      rfl

theorem Mirrored.upsert {s : TrackerState} (mirrored : s.Mirrored) {txid : Txid}
    {record : WatchRecord} (named : record.txid = txid)
    (same : record.status.acceptingBlock = s.acceptedAt txid) : (s.upsert txid record).2.Mirrored := by
  rcases s.upsert_cases txid record with ⟨disk, fails⟩ | ⟨log, lands, lookup⟩
  · rw [fails]
    exact mirrored.of_same rfl rfl
  · rw [lands]
    have index := mirrored.index
    rw [← Function.update_eq_self txid s.acceptedAt, ← same] at index
    exact mirrored.written named lookup index

theorem acceptedAt_of_record {s : TrackerState} {txid : Txid} {record : WatchRecord}
    (found : s.record txid = some record) : s.acceptedAt txid = record.status.acceptingBlock := by
  rw [acceptedAt, found]
  rfl

theorem mirrored_acceptOne (block : Block) (blueScore unixMs : Nat) (folding : Fold × TrackerState)
    (txid : Txid) (mirrored : folding.2.Mirrored) :
    (acceptOne block blueScore unixMs folding txid).2.Mirrored := by
  obtain ⟨fold, s⟩ := folding
  unfold acceptOne
  cases found : s.record txid with
  | none =>
    simp only [found]
    exact mirrored
  | some record =>
    have place := acceptedAt_of_record found
    let accepted := { record with status := .accepted block blueScore unixMs }
    have named : accepted.txid = txid := mirrored.keyed txid record found
    simp only [found]
    split
    · exact mirrored
    · rcases s.upsert_cases txid accepted with ⟨disk, fails⟩ | ⟨log, lands, lookup⟩
      · simp only [accepted] at fails
        simp only [fails, Bool.false_eq_true, if_false]
        exact mirrored.of_same rfl rfl
      · simp only [accepted] at lands
        simp only [lands, if_true]
        refine mirrored.written named lookup ?_
        cases old : record.status.acceptingBlock with
        | none =>
          rw [old] at place
          exact mirrored.index.enlist block place
        | some prior =>
          rw [old] at place
          have taken := (mirrored.index.unlist place).enlist block (Function.update_self ..)
          rw [Function.update_idem] at taken
          exact taken

theorem mirrored_onAccepted {s : TrackerState} (mirrored : s.Mirrored) (block : Block)
    (blueScore : Nat) (txids : List Txid) (unixMs : Nat) :
    (s.onAccepted block blueScore txids unixMs).2.Mirrored := by
  have all : ∀ (folding : Fold × TrackerState), folding.2.Mirrored →
      (txids.foldl (acceptOne block blueScore unixMs) folding).2.Mirrored := by
    induction txids with
    | nil => exact fun _ h => h
    | cons txid rest ih =>
      intro folding h
      exact ih _ (mirrored_acceptOne block blueScore unixMs folding txid h)
  exact all _ mirrored

/-- What a removal of a block does to the txids listed under it. -/
theorem displaceAll (block : Block) (now : Nat) (txids : List Txid) (once : txids.Nodup)
    (fold : Fold) (kept : List Txid) (s : TrackerState)
    (there : ∀ txid ∈ txids, s.acceptedAt txid = some block) :
    let after := txids.foldl (displaceOne block now) (fold, kept, s)
    after.2.2.byAcceptingBlock = s.byAcceptingBlock ∧
    (∀ txid ∉ txids, after.2.2.record txid = s.record txid) ∧
    ∃ left, after.2.1 = kept ++ left ∧ left.Sublist txids ∧
      (∀ txid ∈ txids, ∀ record, s.record txid = some record → after.2.2.record txid =
        if txid ∈ left then some record else some { record with status := .displaced now block }) ∧
      (after.1.failed = false → fold.failed = false ∧ left = []) := by
  induction txids generalizing fold kept s with
  | nil => exact ⟨rfl, fun _ _ => rfl, [], by simp, List.Sublist.slnil, by simp, fun h => ⟨h, rfl⟩⟩
  | cons first rest ih =>
    obtain ⟨fresh, onceRest⟩ := List.nodup_cons.mp once
    obtain ⟨record, found⟩ : ∃ record, s.record first = some record := by
      have accepted := there first List.mem_cons_self
      rw [acceptedAt, Option.bind_eq_some_iff] at accepted
      obtain ⟨record, found, _⟩ := accepted
      exact ⟨record, found⟩
    rw [List.foldl_cons]
    rcases s.upsert_cases first { record with status := .displaced now block } with
      ⟨disk, fails⟩ | ⟨log, lands, lookup⟩
    · have stepped : displaceOne block now (fold, kept, s) first =
          ({ fold with failed := true }, kept ++ [first], { s with log := { s.log with disk := disk } }) := by
        simp only [displaceOne, found, fails, Bool.false_eq_true, if_false]
      rw [stepped]
      obtain ⟨index, others, left, isKept, fewer, records, clean⟩ := ih onceRest
        { fold with failed := true } (kept ++ [first]) { s with log := { s.log with disk := disk } }
        (fun txid member => there txid (List.mem_cons_of_mem _ member))
      have firstLeft : first ∉ left := fun member => fresh (fewer.subset member)
      refine ⟨index, ?_, first :: left, ?_, fewer.cons_cons first, ?_, ?_⟩
      · intro txid absent
        exact others txid fun member => absent (List.mem_cons_of_mem _ member)
      · rw [isKept, List.append_assoc]
        rfl
      · intro txid member entry has
        rcases List.mem_cons.mp member with rfl | later
        · rw [others txid fresh, if_pos List.mem_cons_self]
          exact has
        · have notFirst : txid ≠ first := fun same => fresh (same ▸ later)
          rw [records txid later entry has]
          simp only [List.mem_cons, notFirst, false_or]
      · intro failed
        exact absurd (clean failed).1 Bool.noConfusion
    · have stepped : displaceOne block now (fold, kept, s) first =
          ({ fold with events := fold.events ++ [.displaced first] }, kept,
            { s with log := log, confirmedEmitted := s.confirmedEmitted.erase first }) := by
        simp only [displaceOne, found, lands, if_true]
      rw [stepped]
      have lookup' : ∀ other, ({ s with
          log := log, confirmedEmitted := s.confirmedEmitted.erase first } : TrackerState).record other =
          if other = first then some { record with status := .displaced now block }
          else s.record other := lookup
      obtain ⟨index, others, left, isKept, fewer, records, clean⟩ := ih onceRest
        { fold with events := fold.events ++ [.displaced first] } kept
        { s with log := log, confirmedEmitted := s.confirmedEmitted.erase first } (by
          intro txid member
          have notFirst : txid ≠ first := fun same => fresh (same ▸ member)
          rw [acceptedAt, lookup', if_neg notFirst]
          exact there txid (List.mem_cons_of_mem _ member))
      have firstLeft : first ∉ left := fun member => fresh (fewer.subset member)
      refine ⟨index, ?_, left, isKept, fewer.cons first, ?_, clean⟩
      · intro txid absent
        rw [others txid fun member => absent (List.mem_cons_of_mem _ member), lookup', if_neg]
        rintro rfl
        exact absent List.mem_cons_self
      · intro txid member entry has
        rcases List.mem_cons.mp member with rfl | later
        · rw [others txid fresh, lookup', if_pos rfl, if_neg firstLeft]
          rw [found] at has
          rw [Option.some.inj has]
        · have notFirst : txid ≠ first := fun same => fresh (same ▸ later)
          apply records txid later entry
          rw [lookup', if_neg notFirst]
          exact has

/-- What the removal of one block leaves of the records and of the index. -/
theorem removeBlock_spec {s : TrackerState} (mirrored : s.Mirrored) (now : Nat) (fold : Fold)
    (block : Block) :
    (removeBlock now (fold, s) block).2.Mirrored ∧
    (∀ txid, s.acceptedAt txid ≠ some block →
      (removeBlock now (fold, s) block).2.record txid = s.record txid) ∧
    ((removeBlock now (fold, s) block).1.failed = false → fold.failed = false ∧
      ∀ txid record, s.record txid = some record → s.acceptedAt txid = some block →
        (removeBlock now (fold, s) block).2.record txid =
          some { record with status := .displaced now block }) := by
  have listed := mirrored.index.mem block
  unfold removeBlock
  cases found : s.byAcceptingBlock.lookup block with
  | none =>
    simp only [found]
    refine ⟨mirrored.of_same rfl rfl, fun _ _ => rfl, fun clean => ⟨clean, ?_⟩⟩
    intro txid record _ accepted
    have member := (listed txid).mpr accepted
    rw [Index.listed, found] at member
    cases member
  | some txids =>
    have isListed : Index.listed s.byAcceptingBlock block = txids := by
      rw [Index.listed, found]
      rfl
    rw [isListed] at listed
    have once : txids.Nodup := isListed ▸ mirrored.index.once block
    obtain ⟨index, others, left, isKept, fewer, records, clean⟩ := displaceAll block now txids once
      fold [] { s with offChain := s.offChain.removed block } (fun txid member => (listed txid).mp member)
    simp only [found]
    rw [List.nil_append] at isKept
    simp only [isKept, index]
    have recordOf : ∀ txid, s.acceptedAt txid = some block → ∃ record, s.record txid = some record := by
      intro txid accepted
      rw [acceptedAt, Option.bind_eq_some_iff] at accepted
      obtain ⟨record, has, _⟩ := accepted
      exact ⟨record, has⟩
    refine ⟨⟨?_, ?_⟩, ?_, ?_⟩
    · intro txid record has
      by_cases member : txid ∈ txids
      · obtain ⟨before, had⟩ := recordOf txid ((listed txid).mp member)
        have now_ := records txid member before had
        have named := mirrored.keyed txid before had
        change _ = some record at has
        rw [TrackerState.record] at has now_
        rw [has] at now_
        split at now_
        · rw [Option.some.inj now_, named]
        · rw [Option.some.inj now_]
          exact named
      · have same := others txid member
        rw [TrackerState.record] at has same
        rw [has] at same
        exact mirrored.keyed txid record same.symm
    · apply mirrored.index.keep block (isListed ▸ fewer)
      · intro txid member
        rw [isListed] at member
        obtain ⟨before, had⟩ := recordOf txid ((listed txid).mp member)
        have now_ := records txid member before had
        have accepted := acceptedAt_of_record had
        rw [(listed txid).mp member] at accepted
        rw [TrackerState.record] at now_
        rw [acceptedAt, TrackerState.record, now_]
        split
        · exact accepted.symm
        · rfl
      · intro txid absent
        rw [isListed] at absent
        have same := others txid absent
        rw [TrackerState.record] at same
        rw [acceptedAt, TrackerState.record, same]
        rfl
    · intro txid elsewhere
      exact others txid fun member => elsewhere ((listed txid).mp member)
    · intro noFailure
      obtain ⟨wasClean, nothingLeft⟩ := clean noFailure
      refine ⟨wasClean, ?_⟩
      intro txid record has accepted
      have now_ := records txid ((listed txid).mpr accepted) record has
      rw [nothingLeft, if_neg List.not_mem_nil] at now_
      exact now_

theorem onRemoved_spec {s : TrackerState} (mirrored : s.Mirrored) (blocks : List Block) (now : Nat) :
    (s.onRemoved blocks now).2.Mirrored ∧
    (∀ txid, (∀ block ∈ blocks, s.acceptedAt txid ≠ some block) →
      (s.onRemoved blocks now).2.record txid = s.record txid) ∧
    ((s.onRemoved blocks now).1.failed = false →
      ∀ block ∈ blocks, ∀ txid record, s.record txid = some record → s.acceptedAt txid = some block →
        (s.onRemoved blocks now).2.record txid =
          some { record with status := .displaced now block }) := by
  have all : ∀ (folding : Fold × TrackerState), folding.2.Mirrored →
      (blocks.foldl (removeBlock now) folding).2.Mirrored ∧
      (∀ txid, (∀ block ∈ blocks, folding.2.acceptedAt txid ≠ some block) →
        (blocks.foldl (removeBlock now) folding).2.record txid = folding.2.record txid) ∧
      ((blocks.foldl (removeBlock now) folding).1.failed = false → folding.1.failed = false ∧
        ∀ block ∈ blocks, ∀ txid record, folding.2.record txid = some record →
          folding.2.acceptedAt txid = some block →
          (blocks.foldl (removeBlock now) folding).2.record txid =
            some { record with status := .displaced now block }) := by
    induction blocks with
    | nil => exact fun _ h => ⟨h, fun _ _ => rfl, fun clean => ⟨clean, fun _ none => by cases none⟩⟩
    | cons first rest ih =>
      intro folding mirrored
      obtain ⟨kept, others, displaced⟩ := removeBlock_spec mirrored now folding.1 first
      obtain ⟨keptAll, othersAll, displacedAll⟩ := ih _ kept
      refine ⟨keptAll, ?_, ?_⟩
      · intro txid elsewhere
        have same := others txid (elsewhere first List.mem_cons_self)
        rw [List.foldl_cons, othersAll txid, same]
        intro block member
        rw [acceptedAt, same]
        exact elsewhere block (List.mem_cons_of_mem _ member)
      · intro clean
        obtain ⟨cleanFirst, later⟩ := displacedAll clean
        obtain ⟨wasClean, here⟩ := displaced cleanFirst
        refine ⟨wasClean, ?_⟩
        intro block member txid record has accepted
        rw [List.foldl_cons]
        by_cases isFirst : block = first
        · subst isFirst
          have gone := here txid record has accepted
          rw [othersAll txid, gone]
          intro other _
          rw [acceptedAt, gone]
          exact Option.some_ne_none _ |>.symm
        · have same := others txid (by
            rw [accepted]
            exact fun equal => isFirst (Option.some.inj equal))
          have inRest := (List.mem_cons.mp member).resolve_left isFirst
          apply later block inRest txid record (same.trans has)
          rw [acceptedAt, same]
          exact accepted
  obtain ⟨kept, others, displaced⟩ := all (.default, s) mirrored
  exact ⟨kept, others, fun clean => (displaced clean).2⟩

/-- A removal of the record of a txid the index lists is written. -/
def DropLands (s : TrackerState) (txid : Txid) : Prop :=
  s.acceptedAt txid ≠ none → s.log.lands = true

theorem mirrored_dropWatch {s : TrackerState} (mirrored : s.Mirrored) {txid : Txid}
    (lands : s.DropLands txid) : (s.dropWatch txid).2.Mirrored := by
  have gone : ∀ records : KeyMap Txid WatchRecord, records = s.log.records.erase txid →
      ∀ other, records.lookup other = if other = txid then none else s.record other := by
    rintro _ rfl other
    by_cases same : other = txid
    · rw [if_pos same, same, AList.lookup_erase]
    · rw [if_neg same, AList.lookup_erase_ne same]
      rfl
  cases place : s.acceptedAt txid with
  | none =>
    have index : (s.dropWatch txid).2.byAcceptingBlock = s.byAcceptingBlock := by
      simp only [dropWatch, place]
    have record : ∀ other, (s.dropWatch txid).2.record other = s.record other ∨
        (s.dropWatch txid).2.record other = none ∧ s.acceptedAt other = none := by
      intro other
      simp only [dropWatch, WatchLog.remove]
      split
      · split
        · by_cases same : other = txid
          · exact Or.inr ⟨(gone _ rfl other).trans (if_pos same), same ▸ place⟩
          · exact Or.inl ((gone _ rfl other).trans (if_neg same))
        · exact Or.inl rfl
      · exact Or.inl rfl
    refine ⟨?_, ?_⟩
    · intro other found has
      rcases record other with same | ⟨none, _⟩
      · rw [same] at has
        exact mirrored.keyed other found has
      · rw [none] at has
        cases has
    · rw [index]
      apply mirrored.index.congr
      intro other
      rcases record other with same | ⟨none, before⟩
      · rw [acceptedAt, same]
        rfl
      · rw [acceptedAt, none, before]
        rfl
  | some block =>
    have member : txid ∈ s.log.records := by
      rw [acceptedAt, Option.bind_eq_some_iff] at place
      obtain ⟨record, found, _⟩ := place
      exact KeyMap.mem_of_lookup found
    have landed : s.log.lands = true := lands (by rw [place]; exact Option.some_ne_none _)
    have dropped : (s.dropWatch txid).2.log = ⟨s.log.records.erase txid, s.log.disk.tail⟩ ∧
        (s.dropWatch txid).2.byAcceptingBlock = Index.unlist s.byAcceptingBlock block txid := by
      simp only [dropWatch, place, WatchLog.remove, if_pos member, landed, if_true, and_self]
    have record : ∀ other, (s.dropWatch txid).2.record other =
        if other = txid then none else s.record other := by
      intro other
      rw [TrackerState.record, dropped.1]
      exact gone _ rfl other
    refine ⟨?_, ?_⟩
    · intro other found has
      rw [record] at has
      split at has
      · cases has
      · exact mirrored.keyed other found has
    · rw [dropped.2]
      apply (mirrored.index.unlist place).congr
      intro other
      rw [acceptedAt, record]
      by_cases same : other = txid
      · rw [if_pos same, same, Function.update_self]
        rfl
      · rw [if_neg same, Function.update_of_ne same]
        rfl

/-- No removal of an accepted record fails on the way. -/
def DropsLand : TrackerState → List Txid → Prop
  | _, [] => True
  | s, txid :: rest =>
    s.DropLands txid ∧ ((s.dropWatch txid).1 = true → DropsLand (s.dropWatch txid).2 rest)

theorem mirrored_dropAll {s : TrackerState} (mirrored : s.Mirrored) {txids : List Txid}
    (land : s.DropsLand txids) : (s.dropAll txids).2.Mirrored := by
  induction txids generalizing s with
  | nil => exact mirrored
  | cons first rest ih =>
    have kept := mirrored_dropWatch mirrored land.1
    rw [dropAll]
    cases dropped : (s.dropWatch first).1 with
    | false =>
      simp only [dropped, Bool.false_eq_true, if_false]
      exact kept
    | true =>
      simp only [dropped, if_true]
      exact ih kept (land.2 dropped)

/-- Where the cap makes the oldest watch go, its removal is written. -/
def RoomLands (s : TrackerState) (order : List Txid) (txid : Txid) : Prop :=
  s.isWatched txid = false → WATCH_CAP ≤ s.log.records.keys.length →
    ∀ oldest ∈ s.oldest order, s.DropLands oldest

theorem mirrored_makeRoom {s : TrackerState} (mirrored : s.Mirrored) {order : List Txid}
    (lands : WATCH_CAP ≤ s.log.records.keys.length → ∀ oldest ∈ s.oldest order, s.DropLands oldest) :
    (s.makeRoom order).2.Mirrored := by
  unfold makeRoom
  split
  · rename_i full
    cases found : s.oldest order with
    | none => exact mirrored
    | some oldest => exact mirrored_dropWatch mirrored (lands full oldest found)
  · exact mirrored

theorem record_dropWatch {s : TrackerState} {txid other : Txid} {record : WatchRecord}
    (found : (s.dropWatch txid).2.record other = some record) : s.record other = some record := by
  simp only [dropWatch, TrackerState.record, WatchLog.remove] at found
  split at found
  · split at found
    · exact (KeyMap.lookup_erase_some.mp found).2
    · exact found
  · exact found

theorem record_makeRoom {s : TrackerState} {order : List Txid} {other : Txid} {record : WatchRecord}
    (found : (s.makeRoom order).2.record other = some record) : s.record other = some record := by
  unfold makeRoom at found
  split at found
  · cases oldest : s.oldest order with
    | none =>
      rw [oldest] at found
      exact found
    | some txid =>
      rw [oldest] at found
      exact record_dropWatch found
  · exact found

theorem unwatched_iff {s : TrackerState} {txid : Txid} :
    s.isWatched txid = false ↔ s.record txid = none := by
  rw [isWatched, decide_eq_false_iff_not, ← AList.lookup_eq_none]
  rfl

theorem mirrored_watch {s : TrackerState} (mirrored : s.Mirrored) {order : List Txid} {txid : Txid}
    (lands : s.RoomLands order txid) (source : WatchSource) (now : Nat) :
    (s.watch order txid source now).2.Mirrored := by
  unfold watch
  cases watched : s.isWatched txid with
  | true => exact mirrored
  | false =>
    have room := mirrored_makeRoom mirrored (lands watched)
    have absent : (s.makeRoom order).2.record txid = none := by
      cases found : (s.makeRoom order).2.record txid with
      | none => rfl
      | some record =>
        have before := record_makeRoom found
        rw [unwatched_iff.mp watched] at before
        cases before
    simp only [Bool.false_eq_true, if_false]
    split
    · have free : (s.makeRoom order).2.acceptedAt txid = none := by
        rw [acceptedAt, absent]
        rfl
      let submitted : WatchRecord := ⟨txid, source, now, .submitted now⟩
      have named : submitted.txid = txid := rfl
      exact room.upsert named free.symm
    · exact room

theorem mirrored_walkAccepted {s : TrackerState} (mirrored : s.Mirrored) (txid : Txid) (block : Block)
    (blueScore unixMs : Nat) : (s.walkAccepted txid block blueScore unixMs).2.Mirrored := by
  unfold walkAccepted
  cases found : s.record txid with
  | none => exact mirrored
  | some record =>
    have place := acceptedAt_of_record found
    have named : record.txid = txid := mirrored.keyed txid record found
    cases status : record.status with
    | accepted held heldScore heldUnixMs =>
      simp only [status]
      split
      · rename_i corrects
        let corrected := { record with status := .accepted block blueScore unixMs }
        have same : corrected.status.acceptingBlock = s.acceptedAt txid := by
          rw [place, status, PersistedStatus.acceptingBlock, corrects.2.1]
          rfl
        exact mirrored.upsert named same
      · exact mirrored
    | submitted submitOk =>
      simp only [status]
      split
      · exact mirrored_onAccepted mirrored block blueScore [txid] unixMs
      · exact mirrored
    | displaced since prior =>
      simp only [status]
      split
      · exact mirrored_onAccepted mirrored block blueScore [txid] unixMs
      · exact mirrored
    | finalized held heldScore heldUnixMs =>
      simp only [status]
      exact mirrored

/-- A txid no one watched is watched as the walk remembered it. -/
theorem mirrored_watchRemembered {s : TrackerState} (mirrored : s.Mirrored) {order : List Txid}
    {txid : Txid} (unwatched : s.isWatched txid = false) (lands : s.RoomLands order txid)
    (source : WatchSource) (now : Nat) (remembered : Remembered) :
    (s.watchRemembered order txid source now remembered).2.Mirrored := by
  have watched := mirrored_watch mirrored lands source now
  have fresh : ∀ record, (s.watch order txid source now).2.record txid = some record →
      record.status.acceptingBlock = none := by
    intro record found
    unfold watch at found
    simp only [unwatched, Bool.false_eq_true, if_false] at found
    have absent : ∀ record, (s.makeRoom order).2.record txid ≠ some record := by
      intro record has
      have before := record_makeRoom has
      rw [unwatched_iff.mp unwatched] at before
      cases before
    split at found
    · rcases (s.makeRoom order).2.upsert_cases txid ⟨txid, source, now, .submitted now⟩ with
        ⟨disk, fails⟩ | ⟨log, lands, lookup⟩
      · rw [fails] at found
        exact absurd found (absent record)
      · rw [lands] at found
        have written := lookup txid
        rw [if_pos rfl] at written
        rw [TrackerState.record, written] at found
        rw [← Option.some.inj found]
        rfl
    · exact absurd found (absent record)
  simp only [watchRemembered]
  split
  · cases (s.watch order txid source now).2.recalled now remembered with
    | accepted block blueScore daaScore unixMs =>
      exact mirrored_onAccepted watched block blueScore [txid] unixMs
    | displaced since prior =>
      cases found : (s.watch order txid source now).2.record txid with
      | none =>
        simp only [register, found]
        exact watched
      | some record =>
        let displaced := { record with status := .displaced since prior }
        have named : displaced.txid = txid := watched.keyed txid record found
        have free : displaced.status.acceptingBlock =
            (s.watch order txid source now).2.acceptedAt txid := by
          rw [acceptedAt_of_record found, fresh record found]
          rfl
        simp only [register, found]
        exact watched.upsert named free
  · exact watched

theorem mirrored_finalizeWatch {s : TrackerState} (mirrored : s.Mirrored) (txid : Txid) :
    (s.finalizeWatch txid).2.Mirrored := by
  unfold finalizeWatch
  cases found : s.record txid with
  | none => exact mirrored
  | some record =>
    have place := acceptedAt_of_record found
    cases status : record.status with
    | accepted block blueScore unixMs =>
      let finalized := { record with status := .finalized block blueScore unixMs }
      have named : finalized.txid = txid := mirrored.keyed txid record found
      simp only [status]
      rcases s.upsert_cases txid finalized with ⟨disk, fails⟩ | ⟨log, lands, lookup⟩
      · simp only [finalized] at fails
        simp only [fails, Bool.false_eq_true, if_false]
        exact mirrored.of_same rfl rfl
      · simp only [finalized] at lands
        simp only [lands, if_true]
        refine mirrored.written named lookup ?_
        rw [status] at place
        exact mirrored.index.unlist place
    | submitted submitOk =>
      simp only [status]
      exact mirrored
    | displaced since prior =>
      simp only [status]
      exact mirrored
    | finalized block blueScore unixMs =>
      simp only [status]
      exact mirrored

theorem mirrored_finalizeTerminal {s : TrackerState} (mirrored : s.Mirrored) (order : List Txid) :
    (s.finalizeTerminal order).Mirrored := by
  have all : ∀ (txids : List Txid) (t : TrackerState), t.Mirrored →
      (txids.foldl (fun s txid => (s.finalizeWatch txid).2) t).Mirrored := by
    intro txids
    induction txids with
    | nil => exact fun _ h => h
    | cons first rest ih => exact fun t h => ih _ (mirrored_finalizeWatch h first)
  exact all _ _ (mirrored.of_same rfl rfl)

/-- The state whose watches past the horizon a sink score drops. -/
def atSinkBlue (s : TrackerState) (order : List Txid) (sinkBlue : Nat) : TrackerState :=
  let s := { s with sinkBlue := sinkBlue }
  if s.claimsDepth then s.finalizeTerminal order else s

theorem mirrored_onSinkBlue {s : TrackerState} (mirrored : s.Mirrored) {order : List Txid}
    {sinkBlue now : Nat} (land : (s.atSinkBlue order sinkBlue).DropsLand
      ((s.atSinkBlue order sinkBlue).expired order now)) :
    (s.onSinkBlue order sinkBlue now).2.Mirrored := by
  have scored : ({ s with sinkBlue := sinkBlue } : TrackerState).Mirrored := mirrored.of_same rfl rfl
  unfold onSinkBlue
  unfold atSinkBlue at land
  cases claims : ({ s with sinkBlue := sinkBlue } : TrackerState).claimsDepth with
  | true =>
    simp only [claims, if_true] at land ⊢
    exact mirrored_dropAll (mirrored_finalizeTerminal scored order) land
  | false =>
    simp only [claims, Bool.false_eq_true, if_false] at land ⊢
    exact mirrored_dropAll scored land

theorem same_tick (s : TrackerState) (order : List Txid) (now : Nat) :
    (s.tick order now).2.log = s.log ∧
      (s.tick order now).2.byAcceptingBlock = s.byAcceptingBlock := by
  have all : ∀ (events : List AcceptanceEvent) (t : TrackerState),
      (events.foldl noteElapsed t).log = t.log ∧
      (events.foldl noteElapsed t).byAcceptingBlock = t.byAcceptingBlock := by
    intro events
    induction events with
    | nil => exact fun _ => ⟨rfl, rfl⟩
    | cons first rest ih =>
      intro t
      rw [List.foldl_cons, (ih _).1, (ih _).2]
      cases first <;> exact ⟨rfl, rfl⟩
  unfold tick
  split
  · exact ⟨rfl, rfl⟩
  · exact all _ s

inductive TrackerEvent
  /-- What the writes to come are answered. -/
  | disk (answers : List Bool)
  /-- The run loop's marks: the cursor is held, a walk is running. -/
  | claims (depthHeld walking : Bool)
  | watch (order : List Txid) (txid : Txid) (source : WatchSource) (now : Nat)
  | watchRemembered (order : List Txid) (txid : Txid) (source : WatchSource) (now : Nat)
      (remembered : Remembered)
  | noteAdded (blocks : List Block)
  | walkAccepted (txid : Txid) (block : Block) (blueScore unixMs : Nat)
  | accepted (block : Block) (blueScore : Nat) (txids : List Txid) (unixMs : Nat)
  | removed (blocks : List Block) (now : Nat)
  | sinkBlue (order : List Txid) (score now : Nat)
  | tick (order : List Txid) (now : Nat)
  | dropWatch (txid : Txid)

def step (s : TrackerState) : TrackerEvent → Option TrackerState
  | .disk answers => some { s with log := { s.log with disk := answers } }
  | .claims depthHeld walking => some { s with depthHeld := depthHeld, walking := walking }
  | .watch order txid source now =>
    if order.Perm s.log.records.keys then some (s.watch order txid source now).2 else none
  | .watchRemembered order txid source now remembered =>
    if order.Perm s.log.records.keys ∧ s.isWatched txid = false then
      some (s.watchRemembered order txid source now remembered).2
    else none
  | .noteAdded blocks => some (s.noteAdded blocks)
  | .walkAccepted txid block blueScore unixMs => some (s.walkAccepted txid block blueScore unixMs).2
  | .accepted block blueScore txids unixMs => some (s.onAccepted block blueScore txids unixMs).2
  | .removed blocks now => some (s.onRemoved blocks now).2
  | .sinkBlue order score now =>
    if order.Perm s.log.records.keys then some (s.onSinkBlue order score now).2 else none
  | .tick order now =>
    if order.Perm s.log.records.keys then some (s.tick order now).2 else none
  | .dropWatch txid => some (s.dropWatch txid).2

/-- No watch the index lists is dropped by a removal that is not written. -/
def Drops (s : TrackerState) : TrackerEvent → Prop
  | .watch order txid _ _ => s.RoomLands order txid
  | .watchRemembered order txid _ _ _ => s.RoomLands order txid
  | .sinkBlue order score now =>
    (s.atSinkBlue order score).DropsLand ((s.atSinkBlue order score).expired order now)
  | .dropWatch txid => s.DropLands txid
  | _ => True

theorem mirrored_step (s : TrackerState) (event : TrackerEvent) (next : TrackerState)
    (mirrored : s.Mirrored) (drops : s.Drops event) (happens : s.step event = some next) :
    next.Mirrored := by
  cases event with
  | disk answers =>
    cases happens
    exact mirrored.of_same rfl rfl
  | claims depthHeld walking =>
    cases happens
    exact mirrored.of_same rfl rfl
  | watch order txid source now =>
    simp only [step, Option.ite_none_right_eq_some, Option.some.injEq] at happens
    rw [← happens.2]
    exact mirrored_watch mirrored drops source now
  | watchRemembered order txid source now remembered =>
    simp only [step, Option.ite_none_right_eq_some, Option.some.injEq] at happens
    rw [← happens.2]
    exact mirrored_watchRemembered mirrored happens.1.2 drops source now remembered
  | noteAdded blocks =>
    cases happens
    exact mirrored.of_same rfl rfl
  | walkAccepted txid block blueScore unixMs =>
    cases happens
    exact mirrored_walkAccepted mirrored txid block blueScore unixMs
  | accepted block blueScore txids unixMs =>
    cases happens
    exact mirrored_onAccepted mirrored block blueScore txids unixMs
  | removed blocks now =>
    cases happens
    exact (onRemoved_spec mirrored blocks now).1
  | sinkBlue order score now =>
    simp only [step, Option.ite_none_right_eq_some, Option.some.injEq] at happens
    rw [← happens.2]
    exact mirrored_onSinkBlue mirrored drops
  | tick order now =>
    simp only [step, Option.ite_none_right_eq_some, Option.some.injEq] at happens
    rw [← happens.2]
    have same := s.same_tick order now
    exact mirrored.of_same (congrArg WatchLog.records same.1) same.2
  | dropWatch txid =>
    cases happens
    exact mirrored_dropWatch mirrored drops

theorem keyed_foldl (stored : List WatchRecord) (start : KeyMap Txid WatchRecord)
    (keyed : ∀ txid record, start.lookup txid = some record → record.txid = txid) :
    ∀ txid record, (stored.foldl (fun records record => records.insert record.txid record)
      start).lookup txid = some record → record.txid = txid := by
  induction stored generalizing start with
  | nil => exact keyed
  | cons first rest ih =>
    apply ih
    intro txid record found
    rcases KeyMap.lookup_insert_some.mp found with ⟨named, same⟩ | ⟨_, old⟩
    · rw [named, same]
    · exact keyed txid record old

theorem mirrored_load (stored : List WatchRecord) : (load stored).Mirrored := by
  have keyed := keyed_foldl stored ∅ (by simp)
  have names : ∀ records : KeyMap Txid WatchRecord,
      (∀ txid record, records.lookup txid = some record → record.txid = txid) →
      records.values.map (·.txid) = records.keys := by
    intro records keyed
    rw [KeyMap.values, AList.keys, List.keys, List.map_map]
    apply List.map_congr_left
    intro entry member
    exact keyed entry.1 entry.2 (KeyMap.mem_entries_iff.mp member)
  refine ⟨keyed, Index.mirrors_build ?_ ?_ ?_⟩
  · rw [names _ keyed]
    exact AList.nodupKeys _
  · intro record member
    obtain ⟨txid, found⟩ := KeyMap.mem_values_iff.mp member
    have named := keyed txid record found
    subst named
    exact acceptedAt_of_record found
  · intro txid absent
    rw [names _ keyed] at absent
    have unknown : (load stored).record txid = none := AList.lookup_eq_none.mpr absent
    rw [acceptedAt, unknown]
    rfl

/-- Each txid is listed under a block once where its record says the block accepts it, and nowhere
    else; no empty list is kept. -/
def ListsAccepted (s : TrackerState) : Prop :=
  (∀ block txid, (Index.listed s.byAcceptingBlock block).count txid =
    if s.acceptedAt txid = some block then 1 else 0) ∧
  ∀ block, s.byAcceptingBlock.lookup block ≠ some []

theorem Mirrored.listsAccepted {s : TrackerState} (mirrored : s.Mirrored) : s.ListsAccepted :=
  ⟨mirrored.index.count, mirrored.index.nonempty⟩

/-- A drop whose removal is not written strands the record it was to drop. -/
theorem strands_of_not_lands {s : TrackerState} {txid : Txid} (lists : s.ListsAccepted)
    (fails : ¬ s.DropLands txid) : ¬ (s.dropWatch txid).2.ListsAccepted := by
  intro after
  obtain ⟨accepted, unwritten⟩ := Classical.not_imp.mp fails
  obtain ⟨block, place⟩ := Option.ne_none_iff_exists'.mp accepted
  have member : txid ∈ s.log.records := by
    rw [acceptedAt, Option.bind_eq_some_iff] at place
    obtain ⟨record, found, _⟩ := place
    exact KeyMap.mem_of_lookup found
  have still : (s.dropWatch txid).2.acceptedAt txid = some block := by
    have log : (s.dropWatch txid).2.log.records = s.log.records := by
      simp only [dropWatch, WatchLog.remove, if_pos member, unwritten, Bool.false_eq_true, if_false]
    rw [acceptedAt, TrackerState.record, log]
    exact place
  have counted := after.1 block txid
  have gone : (s.dropWatch txid).2.byAcceptingBlock = Index.unlist s.byAcceptingBlock block txid := by
    simp only [dropWatch, place]
  rw [if_pos still, gone, Index.listed_unlist, if_pos rfl] at counted
  have absent : txid ∉ (Index.listed s.byAcceptingBlock block).filter (· != txid) := by
    simp
  rw [List.count_eq_zero_of_not_mem absent] at counted
  cases counted

/-- **The index mirrors the log while every drop of a watch it lists is written**, so a later
    removal of a block whose writes land displaces each record it accepts. A drop that is not written
    strands its record. -/
theorem index_mirrors_log (stored : List WatchRecord) (events : List TrackerEvent) :
    (∀ s : TrackerState,
      Machine.run step (load stored) events = some s → Machine.Meets step Drops (load stored) events →
      s.ListsAccepted ∧ ∀ (blocks : List Block) (now : Nat), (s.onRemoved blocks now).1.failed = false →
        ∀ block ∈ blocks, ∀ txid record, s.record txid = some record →
          record.status.acceptingBlock = some block → (s.onRemoved blocks now).2.record txid =
            some { record with status := .displaced now block }) ∧
    ∀ (s : TrackerState) (txid : Txid), s.ListsAccepted → ¬ s.DropLands txid →
      ¬ (s.dropWatch txid).2.ListsAccepted := by
  constructor
  · intro s reached drops
    have mirrored : s.Mirrored :=
      Machine.run_invariant_meeting mirrored_step (mirrored_load stored) drops reached
    refine ⟨mirrored.listsAccepted, ?_⟩
    intro blocks now clean block member txid record found accepted
    apply (onRemoved_spec mirrored blocks now).2.2 clean block member txid record found
    rw [acceptedAt_of_record found, accepted]
  · intro s txid lists fails
    exact strands_of_not_lands lists fails

/-- A send watched and accepted, whose removal the disk refuses. -/
def refusedRemoval : List TrackerEvent :=
  [.watch [] "t" .send 0, .accepted "b" 10 ["t"] 5, .disk [false], .removed ["b"] 7]

theorem index_mirrors_log_refusedRemoval :
    ∃ s, Machine.run step (load []) refusedRemoval = some s ∧ s.acceptedAt "t" = some "b" ∧
      s.ListsAccepted := by
  have ends : (Machine.run step (load []) refusedRemoval).map (·.acceptedAt "t") =
      some (some "b") := by
    decide +kernel
  obtain ⟨s, reached, accepted⟩ := Option.map_eq_some_iff.mp ends
  have drops : Machine.Meets step Drops (load []) refusedRemoval := by
    refine ⟨fun _ full => absurd full (by decide), fun next _ => Machine.meets_of_forall ?_ next⟩
    intro event member s
    simp only [List.mem_cons, List.not_mem_nil, or_false] at member
    rcases member with rfl | rfl | rfl <;> exact True.intro
  exact ⟨s, reached, accepted, ((index_mirrors_log [] refusedRemoval).1 s reached drops).1⟩

/-- A horizon prune that is not written leaves an accepted record no removal displaces. -/
theorem prune_strands_record : ¬ ∀ (stored : List WatchRecord) (events : List TrackerEvent)
    (s : TrackerState), Machine.run step (load stored) events = some s → s.ListsAccepted := by
  have ends : (Machine.run step (load []) [.watch [] "t" .send 0, .accepted "b" 10 ["t"] 5,
      .disk [false], .sinkBlue ["t"] 20 (pruningHorizonMs + 1)]).map (fun s =>
        (s.acceptedAt "t", (Index.listed s.byAcceptingBlock "b").count "t")) = some (some "b", 0) := by
    decide +kernel
  intro all
  obtain ⟨s, reached, holds⟩ := Option.map_eq_some_iff.mp ends
  obtain ⟨accepted, unlisted⟩ := Prod.mk.inj holds
  have counted := (all [] _ s reached).1 "b" "t"
  rw [accepted, unlisted, if_pos rfl] at counted
  cases counted

end Kaspaverse.Acceptance.TrackerState
