import Mathlib
import Kaspaverse.Acceptance.IndexMirrors
import Kaspaverse.Acceptance.TrackerTask

namespace Kaspaverse.Acceptance

/-- The block is on the selected chain of the cursor's block. -/
def OnChain (chain : Block → List Block) (cursor : Option Block) (block : Block) : Prop :=
  ∃ tip, cursor = some tip ∧ block ∈ chain tip

/-- A walk from the cursor does not tell the fact again: its block is on the cursor's own chain
    already, or, for a removal, is not on it. -/
def Past (chain : Block → List Block) (cursor : Option Block) : Fact → Prop
  | .accepted _ block => OnChain chain cursor block
  | .removed _ block => ¬ OnChain chain cursor block

/-- What the node says a block accepts is what it accepts. -/
def Told (accepts : Block → List Txid) (batch : VccBatch) : Prop :=
  ∀ entry ∈ batch.accepted, ∀ txid ∈ entry.2, txid ∈ accepts entry.1

/-- A page from `start`: it ends on a block whose chain is that of `start`, less the blocks removed,
    with the blocks added, and it carries what each block added accepts. -/
structure Serves (chain : Block → List Block) (accepts : Block → List Txid) (start : Block)
    (page : VccBatch) : Prop where
  told : Told accepts page
  whole : ∀ block ∈ page.added, ∀ txid ∈ accepts block, ∃ entry ∈ page.accepted,
    entry.1 = block ∧ txid ∈ entry.2
  forward : ∀ last, page.added.getLast? = some last → ∀ block,
    block ∈ chain last ↔ block ∈ chain start ∧ block ∉ page.removed ∨ block ∈ page.added

namespace TrackerState

theorem displaceOne_rest (block : Block) (now : Nat) (one other : Fold) (kept : List Txid)
    (s : TrackerState) (txid : Txid) :
    (displaceOne block now (one, kept, s) txid).2 = (displaceOne block now (other, kept, s) txid).2 := by
  cases found : s.record txid with
  | none => simp only [displaceOne, found]
  | some record =>
    simp only [displaceOne, found]
    split <;> rfl

theorem displaceAll_rest (block : Block) (now : Nat) (txids : List Txid) (one other : Fold)
    (kept : List Txid) (s : TrackerState) :
    (txids.foldl (displaceOne block now) (one, kept, s)).2 =
      (txids.foldl (displaceOne block now) (other, kept, s)).2 := by
  induction txids generalizing one other kept s with
  | nil => rfl
  | cons first rest ih =>
    have same := displaceOne_rest block now one other kept s first
    rw [List.foldl_cons, List.foldl_cons]
    rcases left : displaceOne block now (one, kept, s) first with ⟨a, b, c⟩
    rcases right : displaceOne block now (other, kept, s) first with ⟨a', b', c'⟩
    rw [left, right] at same
    cases same
    exact ih a a' b c

/-- What a removal leaves does not depend on what was folded before. -/
theorem removeBlock_rest (now : Nat) (one other : Fold) (s : TrackerState) (block : Block) :
    (removeBlock now (one, s) block).2 = (removeBlock now (other, s) block).2 := by
  cases found : s.byAcceptingBlock.lookup block with
  | none => simp only [removeBlock, found]
  | some txids =>
    have same := displaceAll_rest block now txids one other []
      { s with offChain := s.offChain.removed block }
    simp only [removeBlock, found]
    generalize txids.foldl (displaceOne block now) (one, [], _) = left at same ⊢
    generalize txids.foldl (displaceOne block now) (other, [], _) = right at same ⊢
    obtain ⟨a, b, c⟩ := left
    obtain ⟨a', b', c'⟩ := right
    cases same
    rfl

theorem acceptedAt_congr {s t : TrackerState} {txid : Txid} (same : t.record txid = s.record txid) :
    t.acceptedAt txid = s.acceptedAt txid := by
  rw [acceptedAt, acceptedAt, same]

theorem record_of_acceptedAt {s : TrackerState} {txid : Txid} {block : Block}
    (place : s.acceptedAt txid = some block) : ∃ record, s.record txid = some record := by
  rw [acceptedAt, Option.bind_eq_some_iff] at place
  obtain ⟨record, found, _⟩ := place
  exact ⟨record, found⟩

theorem acceptedAt_upsert {s : TrackerState} {key txid : Txid} {record : WatchRecord} {place : Block}
    (left : (s.upsert key record).2.acceptedAt txid = some place) :
    s.acceptedAt txid = some place ∨ txid = key ∧ record.status.acceptingBlock = some place := by
  rcases s.upsert_cases key record with ⟨disk, fails⟩ | ⟨log, lands, lookup⟩
  · rw [fails] at left
    exact .inl left
  · rw [lands, acceptedAt, show ({ s with log := log } : TrackerState).record txid = _ from lookup txid] at left
    by_cases same : txid = key
    · rw [if_pos same] at left
      exact .inr ⟨same, left⟩
    · rw [if_neg same] at left
      exact .inl left

theorem acceptedAt_displaceOne {block : Block} {now : Nat} {folding : Fold × List Txid × TrackerState}
    {key txid : Txid} {place : Block}
    (left : (displaceOne block now folding key).2.2.acceptedAt txid = some place) :
    folding.2.2.acceptedAt txid = some place := by
  obtain ⟨fold, kept, s⟩ := folding
  cases found : s.record key with
  | none =>
    simp only [displaceOne, found] at left
    exact left
  | some record =>
    have written : (s.upsert key { record with status := .displaced now block }).2.acceptedAt txid =
        some place := by
      simp only [displaceOne, found] at left
      split at left <;> exact left
    rcases acceptedAt_upsert written with before | ⟨_, accepted⟩
    · exact before
    · cases accepted

/-- A removal makes no record accepted. -/
theorem acceptedAt_removeBlock {now : Nat} {folding : Fold × TrackerState} {block : Block} {txid : Txid}
    {place : Block} (left : (removeBlock now folding block).2.acceptedAt txid = some place) :
    folding.2.acceptedAt txid = some place := by
  have all (txids : List Txid) (folding : Fold × List Txid × TrackerState)
      (left : (txids.foldl (displaceOne block now) folding).2.2.acceptedAt txid = some place) :
      folding.2.2.acceptedAt txid = some place := by
    induction txids generalizing folding with
    | nil => exact left
    | cons first rest ih => exact acceptedAt_displaceOne (ih _ left)
  obtain ⟨fold, s⟩ := folding
  cases found : s.byAcceptingBlock.lookup block with
  | none =>
    simp only [removeBlock, found] at left
    exact left
  | some txids =>
    simp only [removeBlock, found] at left
    exact all txids (fold, [], { s with offChain := s.offChain.removed block }) left

theorem acceptedAt_removals {now : Nat} {blocks : List Block} {folding : Fold × TrackerState} {txid : Txid}
    {place : Block} (left : (blocks.foldl (removeBlock now) folding).2.acceptedAt txid = some place) :
    folding.2.acceptedAt txid = some place := by
  induction blocks generalizing folding with
  | nil => exact left
  | cons first rest ih => exact acceptedAt_removeBlock (ih left)

theorem onRemoved_clears {s : TrackerState} (mirrored : s.Mirrored) {blocks : List Block} {now : Nat}
    (clean : (s.onRemoved blocks now).1.failed = false) {txid : Txid} {place : Block}
    (left : (s.onRemoved blocks now).2.acceptedAt txid = some place) : place ∉ blocks := by
  intro removed
  have before : s.acceptedAt txid = some place := acceptedAt_removals left
  obtain ⟨record, found⟩ := record_of_acceptedAt before
  rw [acceptedAt, (onRemoved_spec mirrored blocks now).2.2 clean place removed txid record found before] at left
  cases left

/-- The removals `passed` picks are written. -/
def RemovalsLand (passed : Block → Prop) (now : Nat) : TrackerState → List Block → Prop
  | _, [] => True
  | s, block :: rest =>
    (passed block → (removeBlock now (.default, s) block).1.failed = false) ∧
      RemovalsLand passed now (removeBlock now (.default, s) block).2 rest

/-- A record that removals leave accepted at one of their blocks is one `passed` does not pick. -/
theorem removalsLand_leave {passed : Block → Prop} {now : Nat} {s : TrackerState} (mirrored : s.Mirrored)
    {blocks : List Block} (land : RemovalsLand passed now s blocks) {txid : Txid} {place : Block}
    (removed : place ∈ blocks) (left : (s.onRemoved blocks now).2.acceptedAt txid = some place) :
    ¬ passed place := by
  have all (fold : Fold) (left : (blocks.foldl (removeBlock now) (fold, s)).2.acceptedAt txid = some place) :
      ¬ passed place := by
    clear * - mirrored land removed left
    induction blocks generalizing s fold with
    | nil => cases removed
    | cons first rest ih =>
      obtain ⟨lands, later⟩ := land
      have kept := (removeBlock_spec mirrored now .default first).1
      rw [List.foldl_cons, ← Prod.mk.eta (p := removeBlock now (fold, s) first),
        removeBlock_rest now fold .default s first] at left
      rcases List.mem_cons.mp removed with rfl | inRest
      · intro picked
        have gone := (removeBlock_spec mirrored now .default place).2.2 (lands picked)
        have stood := acceptedAt_removals left
        have before := acceptedAt_removeBlock stood
        obtain ⟨record, found⟩ := record_of_acceptedAt before
        rw [acceptedAt, gone.2 txid record found before] at stood
        cases stood
      · exact ih kept later inRest _ left
  exact all .default left

theorem record_upsert_none {s : TrackerState} {key txid : Txid} {record : WatchRecord}
    (watched : s.record key ≠ none) :
    (s.upsert key record).2.record txid = none ↔ s.record txid = none := by
  rcases s.upsert_cases key record with ⟨disk, fails⟩ | ⟨log, lands, lookup⟩
  · rw [fails]
    exact Iff.rfl
  · rw [lands, show ({ s with log := log } : TrackerState).record txid = _ from lookup txid]
    by_cases same : txid = key
    · rw [if_pos same, same]
      exact iff_of_false (Option.some_ne_none _) watched
    · rw [if_neg same]

/-- What one txid of an accepting block's list does to the records. -/
theorem acceptOne_spec (block : Block) (blueScore unixMs : Nat) (fold : Fold) (s : TrackerState) (key : Txid) :
    let after := acceptOne block blueScore unixMs (fold, s) key
    (∀ txid, after.2.record txid = none ↔ s.record txid = none) ∧
    (∀ txid, after.2.acceptedAt txid = s.acceptedAt txid ∨ txid = key ∧ after.2.acceptedAt txid = some block) ∧
    (after.1.failed = false → fold.failed = false ∧
      (s.record key ≠ none → after.2.acceptedAt key = some block)) := by
  cases found : s.record key with
  | none =>
    simp only [acceptOne, found]
    exact ⟨fun _ => True.intro, fun _ => .inl True.intro, fun clean => ⟨clean, fun watched => absurd rfl watched⟩⟩
  | some record =>
    have watched : s.record key ≠ none := by
      rw [found]
      exact Option.some_ne_none _
    simp only [acceptOne, found]
    split
    next already =>
      refine ⟨fun _ => Iff.rfl, fun _ => .inl rfl, fun clean => ⟨clean, fun _ => ?_⟩⟩
      rw [acceptedAt_of_record found, already]
    next =>
      have unwatched (txid : Txid) :
          (s.upsert key { record with status := .accepted block blueScore unixMs }).2.record txid = none ↔
            s.record txid = none :=
        record_upsert_none watched
      rcases s.upsert_cases key { record with status := .accepted block blueScore unixMs } with
        ⟨disk, fails⟩ | ⟨log, lands, lookup⟩
      · rw [fails] at unwatched
        simp only [fails, Bool.false_eq_true, if_false]
        exact ⟨unwatched, fun _ => .inl rfl, fun clean => by cases clean⟩
      · rw [lands] at unwatched
        simp only [lands, if_true]
        have place : ∀ txid, (log.records.lookup txid).bind (·.status.acceptingBlock) =
            if txid = key then some block else s.acceptedAt txid := by
          intro txid
          rw [lookup]
          by_cases same : txid = key
          · rw [if_pos same, if_pos same]
            rfl
          · rw [if_neg same, if_neg same]
            rfl
        refine ⟨unwatched, ?_, fun clean => ⟨clean, fun _ => ?_⟩⟩
        · intro txid
          by_cases same : txid = key
          · exact .inr ⟨same, (place txid).trans (if_pos same)⟩
          · exact .inl ((place txid).trans (if_neg same))
        · exact (place key).trans (if_pos rfl)

/-- What an accepting block's list does to the records, and what it leaves where no write failed. -/
theorem onAccepted_spec (s : TrackerState) (block : Block) (blueScore : Nat) (txids : List Txid)
    (unixMs : Nat) :
    let after := s.onAccepted block blueScore txids unixMs
    (∀ txid, after.2.record txid = none ↔ s.record txid = none) ∧
    (∀ txid, after.2.acceptedAt txid = s.acceptedAt txid ∨
      txid ∈ txids ∧ after.2.acceptedAt txid = some block) ∧
    (after.1.failed = false → ∀ txid ∈ txids, s.record txid ≠ none →
      after.2.acceptedAt txid = some block) := by
  have all (fold : Fold) :
      let after := txids.foldl (acceptOne block blueScore unixMs) (fold, s)
      (∀ txid, after.2.record txid = none ↔ s.record txid = none) ∧
      (∀ txid, after.2.acceptedAt txid = s.acceptedAt txid ∨
        txid ∈ txids ∧ after.2.acceptedAt txid = some block) ∧
      (after.1.failed = false → fold.failed = false ∧ ∀ txid ∈ txids, s.record txid ≠ none →
        after.2.acceptedAt txid = some block) := by
    induction txids generalizing s fold with
    | nil => exact ⟨fun _ => Iff.rfl, fun _ => .inl rfl, fun clean => ⟨clean, fun _ none => by cases none⟩⟩
    | cons first rest ih =>
      obtain ⟨unwatched, places, accepts⟩ := acceptOne_spec block blueScore unixMs fold s first
      obtain ⟨unwatchedAll, placesAll, acceptsAll⟩ :=
        ih (acceptOne block blueScore unixMs (fold, s) first).2 (acceptOne block blueScore unixMs (fold, s) first).1
      refine ⟨fun txid => (unwatchedAll txid).trans (unwatched txid), ?_, ?_⟩
      · intro txid
        rcases placesAll txid with same | ⟨member, accepted⟩
        · rcases places txid with before | ⟨isFirst, accepted⟩
          · exact .inl (same.trans before)
          · exact .inr ⟨isFirst ▸ List.mem_cons_self, same.trans accepted⟩
        · exact .inr ⟨List.mem_cons_of_mem _ member, accepted⟩
      · intro clean
        obtain ⟨cleanFirst, later⟩ := acceptsAll clean
        obtain ⟨wasClean, here⟩ := accepts cleanFirst
        refine ⟨wasClean, ?_⟩
        intro txid member watched
        rcases placesAll txid with same | ⟨_, accepted⟩
        · rcases List.mem_cons.mp member with rfl | inRest
          · exact same.trans (here watched)
          · exact later txid inRest (mt (unwatched txid).mp watched)
        · exact accepted
  obtain ⟨unwatched, places, accepts⟩ := all .default
  exact ⟨unwatched, places, fun clean => (accepts clean).2⟩

end TrackerState

section Match

theorem readAcceptingBlock_keeps (s : TrackerState) (node : Node) (block : Block) :
    (s.readAcceptingBlock node block).2.log = s.log ∧
      (s.readAcceptingBlock node block).2.byAcceptingBlock = s.byAcceptingBlock := by
  unfold TrackerState.readAcceptingBlock
  split
  · exact ⟨rfl, rfl⟩
  · split
    · split <;> exact ⟨rfl, rfl⟩
    · exact ⟨rfl, rfl⟩

/-- What one match does to the records, and what it leaves where it folds whole. -/
theorem foldMatch_spec (node : Node) (tracker : Tracker) (complete : Bool) (m : Matched) :
    let after := Folding.foldMatch node ⟨tracker, [], complete⟩ m
    (tracker.state.Mirrored → after.tracker.state.Mirrored) ∧
    (∀ txid, after.tracker.state.record txid = none ↔ tracker.state.record txid = none) ∧
    (after.complete = (complete && (Folding.foldMatch node ⟨tracker, [], true⟩ m).complete)) ∧
    (after.complete = true → ∀ txid ∈ m.watched, tracker.state.record txid ≠ none →
      after.tracker.state.acceptedAt txid = some m.block) := by
  have read_same := readAcceptingBlock_keeps tracker.state node m.block
  have same_record : ∀ txid, (tracker.state.readAcceptingBlock node m.block).2.record txid =
      tracker.state.record txid := by
    intro txid
    rw [TrackerState.record, read_same.1]
    rfl
  have mirrored_read (mirrored : tracker.state.Mirrored) :
      (tracker.state.readAcceptingBlock node m.block).2.Mirrored :=
    mirrored.of_same (congrArg WatchLog.records read_same.1) read_same.2
  cases read : (tracker.state.readAcceptingBlock node m.block).1 with
  | none =>
    simp only [Folding.foldMatch, read]
    refine ⟨mirrored_read, ?_, by simp, ?_⟩
    · intro txid
      rw [same_record]
    · intro whole txid member
      simp only [Bool.and_eq_true, List.isEmpty_iff] at whole
      rw [whole.2] at member
      cases member
  | some facts =>
    obtain ⟨unwatched, _, accepts⟩ := (tracker.state.readAcceptingBlock node m.block).2.onAccepted_spec
      m.block facts.blueScore m.watched facts.acceptedUnixMs
    simp only [Folding.foldMatch, read]
    refine ⟨fun mirrored => TrackerState.mirrored_onAccepted (mirrored_read mirrored) _ _ _ _, ?_, ?_, ?_⟩
    · intro txid
      rw [unwatched, same_record]
    · simp
    · intro whole txid member watched
      simp only [Bool.and_eq_true, Bool.not_eq_true'] at whole
      apply accepts whole.2 txid member
      rw [same_record]
      exact watched

theorem mem_matched {s : TrackerState} {interest : List Txid} {batch : VccBatch} {m : Matched}
    (member : m ∈ s.matched interest batch) :
    ∃ entry ∈ batch.accepted, m.block = entry.1 ∧ m.watched = entry.2.filter s.isWatched := by
  obtain ⟨inMap, _⟩ := List.mem_filter.mp member
  obtain ⟨entry, inside, rfl⟩ := List.mem_map.mp inMap
  exact ⟨entry, inside, rfl, rfl⟩

theorem matched_of_watched {s : TrackerState} {interest : List Txid} {batch : VccBatch}
    {entry : Block × List Txid} {txid : Txid} (inside : entry ∈ batch.accepted) (named : txid ∈ entry.2)
    (watched : s.isWatched txid = true) :
    ∃ m ∈ s.matched interest batch, m.block = entry.1 ∧ txid ∈ m.watched := by
  have here : txid ∈ entry.2.filter s.isWatched := List.mem_filter.mpr ⟨named, watched⟩
  refine ⟨⟨entry.1, entry.2.filter s.isWatched, entry.2.filter fun txid => decide (txid ∈ interest)⟩, ?_, rfl, here⟩
  refine List.mem_filter.mpr ⟨List.mem_map.mpr ⟨entry, inside, rfl⟩, ?_⟩
  have some_ : (entry.2.filter s.isWatched).isEmpty = false :=
    List.isEmpty_eq_false_iff.mpr (List.ne_nil_of_mem here)
  simp [some_]

theorem isWatched_iff {s : TrackerState} {txid : Txid} : s.isWatched txid = true ↔ s.record txid ≠ none := by
  rw [← Bool.not_eq_false, ne_eq, TrackerState.unwatched_iff]

end Match

namespace TrackerTask

section Folds

variable {chain : Block → List Block} {accepts : Block → List Txid} {w : TrackerTask}

/-- The first part of a fold: what is owed after it, and the matches it goes on with. -/
structure Begins (w : TrackerTask) (batch : VccBatch) (now : Nat) (after : TrackerTask) (fold : InFold) :
    Prop where
  mirrored : after.tracker.state.Mirrored
  watched : ∀ fact ∈ after.owed, after.tracker.state.stillOwes fact = true
  fewer : fold.complete = true → ∀ fact ∈ after.owed, fact ∈ w.owed
  removes : fold.complete = true → ∀ txid block, .removed txid block ∈ after.owed → block ∉ batch.removed
  fresh : ∀ fact ∈ after.owed, fact ∈ w.owed ∨ ∃ txid block, fact = .removed txid block ∧
    block ∈ batch.removed ∧ (w.tracker.state.onRemoved batch.removed now).2.acceptedAt txid = some block
  pending : fold.pending = after.tracker.state.matched w.tracker.senderInterest batch

theorem beginFold_begins (mirrored : w.tracker.state.Mirrored) (batch : VccBatch) (now : Nat) :
    Begins w batch now (w.beginFold batch now).1 (w.beginFold batch now).2 := by
  let removed := w.tracker.state.onRemoved batch.removed now
  have kept : removed.2.Mirrored := (TrackerState.onRemoved_spec mirrored batch.removed now).1
  have state : (w.beginFold batch now).1.tracker.state = removed.2.noteAdded batch.added := rfl
  have place (txid : Txid) : (removed.2.noteAdded batch.added).acceptedAt txid = removed.2.acceptedAt txid := rfl
  have owed (fact : Fact) (member : fact ∈ (w.beginFold batch now).1.owed) :
      (fact ∈ w.owed ∨ fact ∈ (removed.2.noteAdded batch.added).unremoved batch) ∧
        (removed.2.noteAdded batch.added).stillOwes fact = true := by
    obtain ⟨inside, still⟩ := List.mem_filter.mp member
    exact ⟨List.mem_append.mp inside, (Bool.and_eq_true _ _ ▸ still).1⟩
  have unremoved (fact : Fact) (member : fact ∈ (removed.2.noteAdded batch.added).unremoved batch) :
      ∃ txid block, fact = .removed txid block ∧ block ∈ batch.removed ∧
        removed.2.acceptedAt txid = some block := by
    obtain ⟨block, inside, member⟩ := List.mem_flatMap.mp member
    obtain ⟨txid, listed, rfl⟩ := List.mem_map.mp member
    exact ⟨txid, block, rfl, inside, of_decide_eq_true (List.mem_filter.mp listed).2⟩
  have clears (whole : (w.beginFold batch now).2.complete = true) (txid : Txid) (block : Block)
      (left : removed.2.acceptedAt txid = some block) : block ∉ batch.removed := by
    refine TrackerState.onRemoved_clears mirrored ?_ left
    change (!removed.1.failed) = true at whole
    simpa using whole
  refine ⟨kept.of_same rfl rfl, ?_, ?_, ?_, ?_, rfl⟩
  · intro fact member
    rw [state]
    exact (owed fact member).2
  · intro whole fact member
    rcases (owed fact member).1 with before | fresh
    · exact before
    · obtain ⟨txid, block, _, inside, left⟩ := unremoved fact fresh
      exact absurd inside (clears whole txid block left)
  · intro whole txid block member
    have still := of_decide_eq_true (owed _ member).2
    exact clears whole txid block still
  · intro fact member
    rcases (owed fact member).1 with before | fresh
    · exact .inl before
    · exact .inr (unremoved fact fresh)

/-- One match of a fold: what is owed after it. -/
structure Matches (w : TrackerTask) (node : Node) (complete : Bool) (m : Matched) (after : TrackerTask)
    (whole : Bool) : Prop where
  mirrored : after.tracker.state.Mirrored
  watched : ∀ fact ∈ after.owed, after.tracker.state.stillOwes fact = true
  fresh : ∀ fact ∈ after.owed, fact ∈ w.owed ∨ ∃ txid ∈ m.watched, fact = .accepted txid m.block ∧
    (Folding.foldMatch node ⟨w.tracker, [], true⟩ m).complete = false
  complete : whole = true → complete = true ∧ ∀ txid block, .accepted txid block ∈ after.owed → txid ∉ m.watched

theorem foldMatch_matches (mirrored : w.tracker.state.Mirrored) (node : Node) (complete : Bool) (m : Matched) :
    Matches w node complete m (w.foldMatch node complete m).1 (w.foldMatch node complete m).2 := by
  let s := (Folding.foldMatch node ⟨w.tracker, [], complete⟩ m).tracker.state
  obtain ⟨kept, unwatched, whole, accepts⟩ :=
    foldMatch_spec node w.tracker complete m
  have state : (w.foldMatch node complete m).1.tracker.state = s := rfl
  have same : (Folding.foldMatch node ⟨w.tracker, [], true⟩ m).tracker.state = s := by
    change _ = (Folding.foldMatch node ⟨w.tracker, [], complete⟩ m).tracker.state
    unfold Folding.foldMatch
    simp only
    split <;> rfl
  have settled (folds : (Folding.foldMatch node ⟨w.tracker, [], true⟩ m).complete = true) {txid : Txid}
      (member : txid ∈ m.watched) (watched : s.isWatched txid = true) : s.acceptedAt txid = some m.block := by
    rw [← same] at watched ⊢
    obtain ⟨_, unwatched, _, accepts⟩ := foldMatch_spec node w.tracker true m
    exact accepts folds txid member (mt (unwatched txid).mpr (isWatched_iff.mp watched))
  have owed (fact : Fact) (member : fact ∈ (w.foldMatch node complete m).1.owed) :
      fact ∈ w.owed ∧ s.stillOwes fact = true ∧ m.settles s fact = false ∨
        ∃ txid ∈ m.watched, fact = .accepted txid m.block ∧ s.isWatched txid = true ∧
          s.acceptedAt txid ≠ some m.block := by
    rcases List.mem_append.mp member with before | fresh
    · obtain ⟨inside, still⟩ := List.mem_filter.mp before
      simp only [Bool.and_eq_true, Bool.not_eq_true'] at still
      exact .inl ⟨inside, still.1, still.2⟩
    · obtain ⟨txid, listed, rfl⟩ := List.mem_map.mp fresh
      obtain ⟨inside, watched⟩ := List.mem_filter.mp listed
      simp only [Bool.and_eq_true, decide_eq_true_eq] at watched
      exact .inr ⟨txid, inside, rfl, watched.1, watched.2⟩
  refine ⟨kept mirrored, ?_, ?_, ?_⟩
  · intro fact member
    rw [state]
    rcases owed fact member with ⟨_, still, _⟩ | ⟨txid, _, rfl, watched, _⟩
    · exact still
    · exact watched
  · intro fact member
    rcases owed fact member with ⟨before, _⟩ | ⟨txid, inside, rfl, watched, elsewhere⟩
    · exact .inl before
    · refine .inr ⟨txid, inside, rfl, ?_⟩
      rw [← Bool.not_eq_true]
      exact fun folds => elsewhere (settled folds inside watched)
  · intro ends
    have both : complete = true ∧ (Folding.foldMatch node ⟨w.tracker, [], true⟩ m).complete = true := by
      rw [← Bool.and_eq_true, ← whole]
      exact ends
    refine ⟨both.1, ?_⟩
    intro txid block member inside
    rcases owed _ member with ⟨_, still, unsettled⟩ | ⟨other, inside, same, watched, elsewhere⟩
    · have accepted := settled both.2 inside still
      rw [Matched.settles, decide_eq_false_iff_not] at unsettled
      exact unsettled ⟨inside, accepted⟩
    · exact elsewhere (settled both.2 inside watched)

end Folds

/-- The fold is the one the task or its walk is at. -/
def InHand (w : TrackerTask) (fold : InFold) : Prop :=
  (∃ drains, w.doing = .live fold drains) ∨ ∃ cursor page clean, w.walk = some (.folding cursor page clean fold)

/-- A page that folds whole so far from `start` leaves nothing owed that its end is past: what is owed
    of its blocks is in the matches it has yet to read. -/
structure Resumes (chain : Block → List Block) (accepts : Block → List Txid) (start : Block) (fold : InFold)
    (owed : List Fact) : Prop where
  serves : Serves chain accepts start fold.batch
  behind : ∀ fact ∈ owed, ¬ Past chain (some start) fact
  removes : ∀ txid block, .removed txid block ∈ owed → block ∉ fold.batch.removed
  accepts : ∀ txid block, .accepted txid block ∈ owed → block ∈ fold.batch.added →
    ∃ m ∈ fold.pending, m.block = block ∧ txid ∈ m.watched

/-- A walk that has folded whole so far is past nothing owed. -/
def WalkHolds (chain : Block → List Block) (accepts : Block → List Txid) (owed : List Fact) :
    Option Walk → Prop
  | some (.asking cursor _ true) => ∀ fact ∈ owed, ¬ Past chain (some cursor) fact
  | some (.folding cursor _ true fold) => fold.complete = true → Resumes chain accepts cursor fold owed
  | _ => True

/-- The cursor is past nothing owed, and nothing is owed unless the cursor is held or about to be. -/
structure Holding (chain : Block → List Block) (accepts : Block → List Txid) (w : TrackerTask) : Prop where
  mirrored : w.tracker.state.Mirrored
  watched : ∀ fact ∈ w.owed, w.tracker.state.stillOwes fact = true
  told : ∀ txid block, .accepted txid block ∈ w.owed → txid ∈ accepts block
  behind : ∀ fact ∈ w.owed, ¬ Past chain w.cursor fact
  held : w.owed = [] ∨ w.frozen = true ∨ ∃ fold, w.InHand fold ∧ fold.complete = false
  pending : ∀ fold, w.InHand fold → ∀ m ∈ fold.pending, ∀ txid ∈ m.watched, txid ∈ accepts m.block
  queue : ∀ batch, .vcc batch ∈ w.heldBack ∨ (∃ due, w.doing = .ahead batch due) → Told accepts batch
  live : ∀ fold drains, w.doing = .live fold drains → w.walk = none
  drains : w.doing = .draining → w.walk = none
  walk : WalkHolds chain accepts w.owed w.walk

section Steps

variable {chain : Block → List Block} {accepts : Block → List Txid} {w after : TrackerTask}

theorem Resumes.fewer {start : Block} {fold : InFold} {owed less : List Fact}
    (resumes : Resumes chain accepts start fold owed) (fewer : ∀ fact ∈ less, fact ∈ owed) :
    Resumes chain accepts start fold less where
  serves := resumes.serves
  behind := fun fact member => resumes.behind fact (fewer fact member)
  removes := fun txid block member => resumes.removes txid block (fewer _ member)
  accepts := fun txid block member => resumes.accepts txid block (fewer _ member)

theorem WalkHolds.fewer {owed less : List Fact} {walk : Option Walk} (holds : WalkHolds chain accepts owed walk)
    (fewer : ∀ fact ∈ less, fact ∈ owed) : WalkHolds chain accepts less walk := by
  match walk with
  | none | some .starting | some .seeding | some (.asking _ _ false) | some (.folding _ _ false _) =>
    exact True.intro
  | some (.asking cursor _ true) => exact fun fact member => holds fact (fewer fact member)
  | some (.folding cursor _ true fold) => exact fun whole => (holds whole).fewer fewer

/-- The control of the task: what decides where it goes on. -/
structure SameControl (w after : TrackerTask) : Prop where
  cursor : after.cursor = w.cursor
  frozen : after.frozen = w.frozen
  walk : after.walk = w.walk
  doing : after.doing = w.doing

theorem SameControl.inHand (same : SameControl w after) (fold : InFold) : after.InHand fold ↔ w.InHand fold := by
  unfold InHand
  rw [same.doing, same.walk]

/-- A step beside the folds: nothing more is owed, and the task goes on where it was. -/
theorem Holding.beside (holding : Holding chain accepts w) (same : SameControl w after)
    (mirrored : after.tracker.state.Mirrored)
    (watched : ∀ fact ∈ after.owed, after.tracker.state.stillOwes fact = true)
    (fewer : ∀ fact ∈ after.owed, fact ∈ w.owed)
    (queue : ∀ batch, .vcc batch ∈ after.heldBack → .vcc batch ∈ w.heldBack) :
    Holding chain accepts after where
  mirrored := mirrored
  watched := watched
  told := fun txid block member => holding.told txid block (fewer _ member)
  behind := by
    rw [same.cursor]
    exact fun fact member => holding.behind fact (fewer fact member)
  held := by
    rw [same.frozen]
    rcases holding.held with none | frozen | ⟨fold, inHand, broken⟩
    · refine .inl (List.eq_nil_iff_forall_not_mem.mpr fun fact member => ?_)
      have before := fewer fact member
      rw [none] at before
      cases before
    · exact .inr (.inl frozen)
    · exact .inr (.inr ⟨fold, (same.inHand fold).mpr inHand, broken⟩)
  pending := fun fold inHand => holding.pending fold ((same.inHand fold).mp inHand)
  queue := by
    rw [same.doing]
    rintro batch (waits | ahead)
    · exact holding.queue batch (.inl (queue batch waits))
    · exact holding.queue batch (.inr ahead)
  live := by
    rw [same.doing, same.walk]
    exact holding.live
  drains := by
    rw [same.doing, same.walk]
    exact holding.drains
  walk := by
    rw [same.walk]
    exact holding.walk.fewer fewer

/-- A step that leaves the records, and owes nothing more. -/
structure Quiet (w after : TrackerTask) : Prop where
  records : after.tracker.state.log.records = w.tracker.state.log.records
  index : after.tracker.state.byAcceptingBlock = w.tracker.state.byAcceptingBlock
  owed : ∀ fact ∈ after.owed, fact ∈ w.owed

theorem Quiet.refl (w : TrackerTask) : Quiet w w := ⟨rfl, rfl, fun _ held => held⟩

theorem Quiet.trans {mid : TrackerTask} (first : Quiet w mid) (second : Quiet mid after) : Quiet w after :=
  ⟨second.records.trans first.records, second.index.trans first.index,
    fun fact held => first.owed fact (second.owed fact held)⟩

theorem stillOwes_congr {s t : TrackerState} (same : t.log.records = s.log.records) (fact : Fact) :
    t.stillOwes fact = s.stillOwes fact := by
  have record : t.record = s.record := by
    funext txid
    rw [TrackerState.record, same]
    rfl
  cases fact with
  | accepted txid block =>
    rw [TrackerState.stillOwes, TrackerState.stillOwes, TrackerState.isWatched, same]
    rfl
  | removed txid block =>
    rw [TrackerState.stillOwes, TrackerState.stillOwes,
      TrackerState.acceptedAt_congr (congrFun record txid)]

/-- What the control of the task must keep in a step that leaves the records. -/
structure Controlled (chain : Block → List Block) (accepts : Block → List Txid) (after : TrackerTask) : Prop where
  behind : ∀ fact ∈ after.owed, ¬ Past chain after.cursor fact
  held : after.owed = [] ∨ after.frozen = true ∨ ∃ fold, after.InHand fold ∧ fold.complete = false
  pending : ∀ fold, after.InHand fold → ∀ m ∈ fold.pending, ∀ txid ∈ m.watched, txid ∈ accepts m.block
  queue : ∀ batch, .vcc batch ∈ after.heldBack ∨ (∃ due, after.doing = .ahead batch due) → Told accepts batch
  live : ∀ fold drains, after.doing = .live fold drains → after.walk = none
  drains : after.doing = .draining → after.walk = none
  walk : WalkHolds chain accepts after.owed after.walk

theorem Holding.control (holding : Holding chain accepts w) (quiet : Quiet w after)
    (controlled : Controlled chain accepts after) : Holding chain accepts after where
  mirrored := holding.mirrored.of_same quiet.records quiet.index
  watched := by
    intro fact member
    rw [stillOwes_congr quiet.records]
    exact holding.watched fact (quiet.owed fact member)
  told := fun txid block member => holding.told txid block (quiet.owed _ member)
  behind := controlled.behind
  held := controlled.held
  pending := controlled.pending
  queue := controlled.queue
  live := controlled.live
  drains := controlled.drains
  walk := controlled.walk

theorem owed_nil_of_fewer (fewer : ∀ fact ∈ after.owed, fact ∈ w.owed) (none : w.owed = []) : after.owed = [] := by
  refine List.eq_nil_iff_forall_not_mem.mpr fun fact member => ?_
  have before := fewer fact member
  rw [none] at before
  cases before

theorem writeCursor_quiet (w : TrackerTask) (hash : Block) (force : Bool) (io : TaskIo) :
    Quiet w (w.writeCursor hash force io) := by
  unfold writeCursor
  split
  · exact Quiet.refl w
  · split <;> exact ⟨rfl, rfl, fun _ held => held⟩

theorem writeCursor_spec (w : TrackerTask) (hash : Block) (force : Bool) (io : TaskIo) :
    ((w.writeCursor hash force io).cursor = w.cursor ∨ (w.writeCursor hash force io).cursor = some hash) ∧
      (w.writeCursor hash force io).owed = w.owed ∧ (w.writeCursor hash force io).frozen = w.frozen ∧
      (w.writeCursor hash force io).walk = w.walk ∧ (w.writeCursor hash force io).doing = w.doing ∧
      (w.writeCursor hash force io).heldBack = w.heldBack := by
  unfold writeCursor
  split
  · exact ⟨.inl rfl, rfl, rfl, rfl, rfl, rfl⟩
  · split
    · exact ⟨.inr rfl, rfl, rfl, rfl, rfl, rfl⟩
    · exact ⟨.inl rfl, rfl, rfl, rfl, rfl, rfl⟩

theorem freezeCursor_spec (w : TrackerTask) (io : TaskIo) :
    Quiet w (w.freezeCursor io) ∧ (w.freezeCursor io).cursor = w.cursor ∧
      (w.freezeCursor io).owed = w.owed ∧ (w.freezeCursor io).frozen = true ∧
      (w.freezeCursor io).walk = w.walk ∧ (w.freezeCursor io).doing = w.doing ∧
      (w.freezeCursor io).heldBack = w.heldBack := by
  unfold freezeCursor
  split
  next frozen => exact ⟨Quiet.refl w, rfl, rfl, frozen, rfl, rfl, rfl⟩
  · exact ⟨⟨rfl, rfl, fun _ held => held⟩, rfl, rfl, rfl, rfl, rfl, rfl⟩

theorem releaseCursor_spec (w : TrackerTask) :
    Quiet w w.releaseCursor ∧ w.releaseCursor.cursor = w.cursor ∧
      w.releaseCursor.owed = w.owed ∧ w.releaseCursor.walk = w.walk ∧ w.releaseCursor.doing = w.doing ∧
      w.releaseCursor.heldBack = w.heldBack := by
  unfold releaseCursor
  split
  · exact ⟨⟨rfl, rfl, fun _ held => held⟩, rfl, rfl, rfl, rfl, rfl⟩
  · exact ⟨Quiet.refl w, rfl, rfl, rfl, rfl, rfl⟩

theorem Holding.idle (holding : Holding chain accepts w) (none : ∀ fold, ¬ w.InHand fold) :
    w.owed = [] ∨ w.frozen = true := by
  rcases holding.held with nothing | frozen | ⟨fold, inHand, _⟩
  · exact .inl nothing
  · exact .inr frozen
  · exact absurd inHand (none fold)

/-- The walk goes on to an await that is no fold, or ends. -/
theorem Holding.goto (holding : Holding chain accepts w) (quiet : Quiet w after)
    (behind : ∀ fact ∈ after.owed, ¬ Past chain after.cursor fact)
    (held : after.owed = [] ∨ after.frozen = true)
    (idle : ∀ fold, ¬ after.InHand fold)
    (queue : ∀ batch, .vcc batch ∈ after.heldBack ∨ (∃ due, after.doing = .ahead batch due) → Told accepts batch)
    (drains : after.doing = .draining → after.walk = none)
    (walk : WalkHolds chain accepts after.owed after.walk) : Holding chain accepts after :=
  holding.control quiet
    { behind := behind
      held := held.imp_right .inl
      pending := fun fold inHand => absurd inHand (idle fold)
      queue := queue
      live := fun fold drains at_ => absurd (.inl ⟨drains, at_⟩) (idle fold)
      drains := drains
      walk := walk }

theorem Begins.elsewhere {batch : VccBatch} {now : Nat} {fold : InFold} {mid : TrackerTask}
    (begins : Begins w batch now mid fold) (tracker : after.tracker = mid.tracker) (owed : after.owed = mid.owed) :
    Begins w batch now after fold := by
  obtain ⟨mirrored, watched, fewer, removes, fresh, pending⟩ := begins
  rw [← tracker] at mirrored watched pending
  rw [← owed] at watched fewer removes fresh
  exact ⟨mirrored, watched, fewer, removes, fresh, pending⟩

theorem Matches.elsewhere {node : Node} {complete whole : Bool} {m : Matched} {mid : TrackerTask}
    (matched : Matches w node complete m mid whole) (tracker : after.tracker = mid.tracker)
    (owed : after.owed = mid.owed) : Matches w node complete m after whole := by
  obtain ⟨mirrored, watched, fresh, ends⟩ := matched
  rw [← tracker] at mirrored watched
  rw [← owed] at watched fresh ends
  exact ⟨mirrored, watched, fresh, ends⟩

theorem Begins.behind {batch : VccBatch} {now : Nat} {fold : InFold} (holding : Holding chain accepts w)
    (begins : Begins w batch now after fold)
    (lands : TrackerState.RemovalsLand (fun block => ¬ OnChain chain w.cursor block) now w.tracker.state batch.removed)
    (cursor : after.cursor = w.cursor) : ∀ fact ∈ after.owed, ¬ Past chain after.cursor fact := by
  rw [cursor]
  intro fact member
  rcases begins.fresh fact member with before | ⟨txid, block, rfl, removed, left⟩
  · exact holding.behind fact before
  · exact TrackerState.removalsLand_leave holding.mirrored lands removed left

theorem Begins.told {batch : VccBatch} {now : Nat} {fold : InFold} (holding : Holding chain accepts w)
    (begins : Begins w batch now after fold) (txid : Txid) (block : Block)
    (member : .accepted txid block ∈ after.owed) : txid ∈ accepts block := by
  rcases begins.fresh _ member with before | ⟨_, _, same, _⟩
  · exact holding.told txid block before
  · cases same

theorem Begins.pendingTold {batch : VccBatch} {now : Nat} {fold : InFold} (begins : Begins w batch now after fold)
    (told : Told accepts batch) : ∀ m ∈ fold.pending, ∀ txid ∈ m.watched, txid ∈ accepts m.block := by
  intro m member txid watched
  rw [begins.pending] at member
  obtain ⟨entry, inside, block, listed⟩ := mem_matched member
  rw [listed] at watched
  rw [block]
  exact told entry inside txid (List.mem_filter.mp watched).1

theorem Begins.held {batch : VccBatch} {now : Nat} {fold : InFold} (holding : Holding chain accepts w)
    (begins : Begins w batch now after fold) (idle : ∀ fold, ¬ w.InHand fold) (frozen : after.frozen = w.frozen)
    (inHand : after.InHand fold) :
    after.owed = [] ∨ after.frozen = true ∨ ∃ fold, after.InHand fold ∧ fold.complete = false := by
  cases whole : fold.complete with
  | false => exact .inr (.inr ⟨fold, inHand, whole⟩)
  | true =>
    rcases holding.idle idle with none | held
    · exact .inl (owed_nil_of_fewer (begins.fewer whole) none)
    · exact .inr (.inl (frozen.trans held))

/-- A page that begins to fold leaves nothing owed that its end will be past. -/
theorem Begins.resumes {batch : VccBatch} {now : Nat} {fold : InFold} {start : Block}
    (holding : Holding chain accepts w) (begins : Begins w batch now after fold) (same : fold.batch = batch)
    (serves : Serves chain accepts start batch) (behind : ∀ fact ∈ w.owed, ¬ Past chain (some start) fact)
    (whole : fold.complete = true) : Resumes chain accepts start fold after.owed where
  serves := by
    rw [same]
    exact serves
  behind := fun fact member => behind fact (begins.fewer whole fact member)
  removes := by
    rw [same]
    exact begins.removes whole
  accepts := by
    rw [same]
    intro txid block member added
    obtain ⟨entry, inside, rfl, named⟩ := serves.whole block added txid (begins.told holding txid block member)
    rw [begins.pending]
    exact matched_of_watched inside named (begins.watched _ member)

theorem Matches.fewer {node : Node} {complete whole : Bool} {m : Matched}
    (matched : Matches w node complete m after whole) (ends : whole = true) : ∀ fact ∈ after.owed, fact ∈ w.owed := by
  intro fact member
  rcases matched.fresh fact member with before | ⟨txid, watched, rfl, _⟩
  · exact before
  · exact absurd watched ((matched.complete ends).2 txid m.block member)

theorem Matches.behind {node : Node} {complete whole : Bool} {m : Matched} (holding : Holding chain accepts w)
    (matched : Matches w node complete m after whole) (cursor : after.cursor = w.cursor)
    (folds : OnChain chain w.cursor m.block → (Folding.foldMatch node ⟨w.tracker, [], true⟩ m).complete = true) :
    ∀ fact ∈ after.owed, ¬ Past chain after.cursor fact := by
  rw [cursor]
  intro fact member
  rcases matched.fresh fact member with before | ⟨txid, _, rfl, broken⟩
  · exact holding.behind fact before
  · intro onChain
    rw [folds onChain] at broken
    cases broken

theorem Matches.told {node : Node} {complete whole : Bool} {m : Matched} (holding : Holding chain accepts w)
    (matched : Matches w node complete m after whole) (told : ∀ txid ∈ m.watched, txid ∈ accepts m.block)
    (txid : Txid) (block : Block) (member : .accepted txid block ∈ after.owed) : txid ∈ accepts block := by
  rcases matched.fresh _ member with before | ⟨_, watched, same, _⟩
  · exact holding.told txid block before
  · cases same
    exact told txid watched

theorem Matches.held {node : Node} {m : Matched} {fold : InFold} (next : InFold) (holding : Holding chain accepts w)
    (matched : Matches w node fold.complete m after next.complete) (one : ∀ other, w.InHand other → other = fold)
    (frozen : after.frozen = w.frozen) (inHand : after.InHand next) :
    after.owed = [] ∨ after.frozen = true ∨ ∃ fold, after.InHand fold ∧ fold.complete = false := by
  cases whole : next.complete with
  | false => exact .inr (.inr ⟨next, inHand, whole⟩)
  | true =>
    rcases holding.held with none | held | ⟨other, before, broken⟩
    · exact .inl (owed_nil_of_fewer (matched.fewer whole) none)
    · exact .inr (.inl (frozen.trans held))
    · rw [one other before, (matched.complete whole).1] at broken
      cases broken

theorem Matches.resumes {node : Node} {m : Matched} {rest : List Matched} {fold : InFold} {whole : Bool}
    {start : Block} (matched : Matches w node fold.complete m after whole) (pending : fold.pending = m :: rest)
    (resumes : fold.complete = true → Resumes chain accepts start fold w.owed) (ends : whole = true) :
    Resumes chain accepts start ⟨fold.batch, rest, whole⟩ after.owed := by
  have before := resumes (matched.complete ends).1
  have fewer := matched.fewer ends
  refine ⟨before.serves, fun fact member => before.behind fact (fewer fact member),
    fun txid block member => before.removes txid block (fewer _ member), ?_⟩
  intro txid block member added
  obtain ⟨other, inside, named, watched⟩ := before.accepts txid block (fewer _ member) added
  rw [pending] at inside
  rcases List.mem_cons.mp inside with rfl | later
  · exact absurd watched ((matched.complete ends).2 txid block member)
  · exact ⟨other, later, named, watched⟩

/-- A page that folded whole ends past nothing owed. -/
theorem Resumes.ends {start : Block} {fold : InFold} {owed : List Fact} {last : Block}
    (resumes : Resumes chain accepts start fold owed) (done : fold.pending = [])
    (added : fold.batch.added.getLast? = some last) : ∀ fact ∈ owed, ¬ Past chain (some last) fact := by
  intro fact member
  have behind := resumes.behind fact member
  have forward := resumes.serves.forward last added
  cases fact with
  | accepted txid block =>
    rintro ⟨tip, same, onChain⟩
    cases same
    rcases (forward block).mp onChain with ⟨before, _⟩ | new
    · exact behind ⟨start, rfl, before⟩
    · obtain ⟨m, inside, _⟩ := resumes.accepts txid block member new
      rw [done] at inside
      cases inside
  | removed txid block =>
    intro offChain
    apply behind
    rintro ⟨tip, same, onChain⟩
    cases same
    exact offChain ⟨last, rfl, (forward block).mpr (.inl ⟨onChain, resumes.removes txid block member⟩)⟩

/-- The batch a step begins to fold, and the clock it folds at. -/
def begins (w : TrackerTask) : TaskEvent → Option (VccBatch × Nat)
  | .poll io =>
    match w.walk with
    | some (.asking _ _ _) => io.page.map fun batch => (batch, io.now)
    | _ => none
  | .feed (.vcc batch) now => if w.walk.isSome then none else some (batch, now)
  | .work io =>
    match w.doing, w.heldBack with
    | .draining, .vcc batch :: _ => some (batch, io.now)
    | _, _ => none
  | _ => none

/-- The match a step reads the block of. -/
def reads (w : TrackerTask) : TaskEvent → Option (Node × Matched)
  | .poll io =>
    match w.walk with
    | some (.folding _ _ _ fold) => fold.pending.head?.map fun m => (io.node, m)
    | _ => none
  | .work io =>
    match w.doing with
    | .live fold _ => fold.pending.head?.map fun m => (io.node, m)
    | _ => none
  | _ => none

/-- The block a walk that folded whole ends at. -/
def ends (w : TrackerTask) : TaskEvent → Option Block
  | .poll _ =>
    match w.walk with
    | some (.folding start _ true ⟨batch, [], true⟩) =>
      if batch.added.length < VCC_TIP_PAGE_THRESHOLD then some (batch.added.getLast?.getD start) else none
    | _ => none
  | _ => none

/-- No watch the index lists is dropped by a removal that is not written. -/
def Drops (w : TrackerTask) : TaskEvent → Prop
  | .sinkBlue order blue now =>
    (w.tracker.state.atSinkBlue order blue).DropsLand
      ((w.tracker.state.atSinkBlue order blue).expired order now)
  | .watch order txid _ _ _ => w.tracker.state.RoomLands order txid
  | _ => True

/-- The node's answers are about one tree of blocks. -/
def Honest (chain : Block → List Block) (accepts : Block → List Txid) (w : TrackerTask) : TaskEvent → Prop
  | .poll io => ∀ start page clean batch, w.walk = some (.asking start page clean) → io.page = some batch →
      Serves chain accepts start batch
  | .feed (.vcc batch) _ => Told accepts batch
  | _ => True

/-- What a step cannot write is a fact the cursor is not past, a walk that folded whole ends on a chain
    that still has every fact owed, and a dropped watch leaves the log. -/
structure Steady (chain : Block → List Block) (w : TrackerTask) (e : TaskEvent) : Prop where
  removes : ∀ batch now, w.begins e = some (batch, now) →
    TrackerState.RemovalsLand (fun block => ¬ OnChain chain w.cursor block) now w.tracker.state batch.removed
  accepts : ∀ node m, w.reads e = some (node, m) → OnChain chain w.cursor m.block →
    (Folding.foldMatch node ⟨w.tracker, [], true⟩ m).complete = true
  ends : ∀ tip, w.ends e = some tip → ∀ fact ∈ w.owed, Past chain (some tip) fact
  drops : w.Drops e

theorem not_inHand_of_walk (walk : ∀ cursor page clean fold, w.walk ≠ some (.folding cursor page clean fold))
    (doing : ∀ fold drains, w.doing ≠ .live fold drains) (fold : InFold) : ¬ w.InHand fold := by
  rintro (⟨drains, live⟩ | ⟨cursor, page, clean, walks⟩)
  · exact doing fold drains live
  · exact walk cursor page clean fold walks

/-- The page of a walk comes back, and begins to fold. -/
theorem Holding.pageBegins {io : TaskIo} {cursor : Block} {page : Nat} {clean : Bool} {batch : VccBatch}
    (holding : Holding chain accepts w) (select : w.doing = .select) (walk : w.walk = some (.asking cursor page clean))
    (serves : Serves chain accepts cursor batch)
    (lands : TrackerState.RemovalsLand (fun block => ¬ OnChain chain w.cursor block) io.now w.tracker.state
      batch.removed) :
    Holding chain accepts
      ((w.beginFold batch io.now).1.goto (.folding cursor page clean (w.beginFold batch io.now).2)) := by
  have begins : Begins w batch io.now
      ((w.beginFold batch io.now).1.goto (.folding cursor page clean (w.beginFold batch io.now).2))
      (w.beginFold batch io.now).2 :=
    (beginFold_begins holding.mirrored batch io.now).elsewhere rfl rfl
  have idle : ∀ fold, ¬ w.InHand fold := by
    apply not_inHand_of_walk
    · rw [walk]
      exact fun _ _ _ _ same => by cases same
    · rw [select]
      exact fun _ _ same => by cases same
  have only : ∀ fold, ((w.beginFold batch io.now).1.goto
      (.folding cursor page clean (w.beginFold batch io.now).2)).InHand fold →
        fold = (w.beginFold batch io.now).2 := by
    rintro fold (⟨drains, live⟩ | ⟨_, _, _, walks⟩)
    · cases select.symm.trans live
    · cases walks
      rfl
  refine ⟨begins.mirrored, begins.watched, begins.told holding, begins.behind holding lands rfl, ?_, ?_, ?_, ?_, ?_, ?_⟩
  · exact begins.held holding idle rfl (.inr ⟨_, _, _, rfl⟩)
  · intro fold inHand
    rw [only fold inHand]
    exact begins.pendingTold serves.told
  · exact holding.queue
  · intro fold drains live
    cases select.symm.trans live
  · intro drains
    cases select.symm.trans drains
  · cases clean with
    | false => exact True.intro
    | true =>
      have behind := holding.walk
      rw [walk] at behind
      exact fun whole => begins.resumes holding rfl serves behind whole

/-- A live batch begins to fold where no walk runs. -/
theorem Holding.liveBegins {batch : VccBatch} {now : Nat} {drains : Bool} (holding : Holding chain accepts w)
    (walk : w.walk = none) (free : ∀ fold drains, w.doing ≠ .live fold drains) (told : Told accepts batch)
    (lands : TrackerState.RemovalsLand (fun block => ¬ OnChain chain w.cursor block) now w.tracker.state
      batch.removed) : Holding chain accepts (w.startLive batch now drains) := by
  have begins : Begins w batch now (w.startLive batch now drains) (w.beginFold batch now).2 :=
    (beginFold_begins holding.mirrored batch now).elsewhere rfl rfl
  have idle : ∀ fold, ¬ w.InHand fold := by
    refine not_inHand_of_walk ?_ free
    rw [walk]
    exact fun _ _ _ _ same => by cases same
  have walk' : (w.startLive batch now drains).walk = none := walk
  refine ⟨begins.mirrored, begins.watched, begins.told holding, begins.behind holding lands rfl, ?_, ?_, ?_, ?_, ?_, ?_⟩
  · exact begins.held holding idle rfl (.inl ⟨drains, rfl⟩)
  · rintro fold (⟨_, live⟩ | ⟨_, _, _, walks⟩)
    · cases live
      exact begins.pendingTold told
    · rw [walk'] at walks
      cases walks
  · rintro other (waits | ⟨due, ahead⟩)
    · exact holding.queue other (.inl waits)
    · cases ahead
  · exact fun _ _ _ => walk'
  · exact fun _ => walk'
  · rw [walk']
    exact True.intro

/-- A match of a page folds. -/
theorem Holding.pageMatches {io : TaskIo} {cursor : Block} {page : Nat} {clean : Bool} {fold : InFold} {m : Matched}
    {rest : List Matched} (holding : Holding chain accepts w) (select : w.doing = .select)
    (walk : w.walk = some (.folding cursor page clean fold)) (pending : fold.pending = m :: rest)
    (folds : OnChain chain w.cursor m.block → (Folding.foldMatch io.node ⟨w.tracker, [], true⟩ m).complete = true) :
    Holding chain accepts ((w.foldMatch io.node fold.complete m).1.goto
      (.folding cursor page clean ⟨fold.batch, rest, (w.foldMatch io.node fold.complete m).2⟩)) := by
  have matched : Matches w io.node fold.complete m ((w.foldMatch io.node fold.complete m).1.goto
      (.folding cursor page clean ⟨fold.batch, rest, (w.foldMatch io.node fold.complete m).2⟩))
      (w.foldMatch io.node fold.complete m).2 :=
    (foldMatch_matches holding.mirrored io.node fold.complete m).elsewhere rfl rfl
  have one : ∀ other, w.InHand other → other = fold := by
    rintro other (⟨drains, live⟩ | ⟨_, _, _, walks⟩)
    · cases select.symm.trans live
    · rw [walk] at walks
      cases walks
      rfl
  have told := holding.pending fold (.inr ⟨cursor, page, clean, walk⟩)
  rw [pending] at told
  refine ⟨matched.mirrored, matched.watched, matched.told holding (told m List.mem_cons_self),
    matched.behind holding rfl folds, ?_, ?_, holding.queue, ?_, ?_, ?_⟩
  · exact matched.held ⟨fold.batch, rest, _⟩ holding one rfl (.inr ⟨_, _, _, rfl⟩)
  · rintro other (⟨drains, live⟩ | ⟨_, _, _, walks⟩)
    · cases select.symm.trans live
    · cases walks
      exact fun other inside => told other (List.mem_cons_of_mem _ inside)
  · intro fold drains live
    cases select.symm.trans live
  · intro drains
    cases select.symm.trans drains
  · cases clean with
    | false => exact True.intro
    | true =>
      have resumes := holding.walk
      rw [walk] at resumes
      exact fun whole => matched.resumes pending resumes whole

/-- A match of a live batch folds. -/
theorem Holding.liveMatches {io : TaskIo} {fold : InFold} {drains : Bool} {m : Matched} {rest : List Matched}
    (holding : Holding chain accepts w) (live : w.doing = .live fold drains) (pending : fold.pending = m :: rest)
    (folds : OnChain chain w.cursor m.block → (Folding.foldMatch io.node ⟨w.tracker, [], true⟩ m).complete = true) :
    Holding chain accepts { (w.foldMatch io.node fold.complete m).1 with
      doing := .live ⟨fold.batch, rest, (w.foldMatch io.node fold.complete m).2⟩ drains } := by
  have walk := holding.live fold drains live
  have walk' : (w.foldMatch io.node fold.complete m).1.walk = none := walk
  have matched : Matches w io.node fold.complete m { (w.foldMatch io.node fold.complete m).1 with
      doing := .live ⟨fold.batch, rest, (w.foldMatch io.node fold.complete m).2⟩ drains }
      (w.foldMatch io.node fold.complete m).2 :=
    (foldMatch_matches holding.mirrored io.node fold.complete m).elsewhere rfl rfl
  have one : ∀ other, w.InHand other → other = fold := by
    rintro other (⟨_, at_⟩ | ⟨_, _, _, walks⟩)
    · rw [live] at at_
      cases at_
      rfl
    · rw [walk] at walks
      cases walks
  have told := holding.pending fold (.inl ⟨drains, live⟩)
  rw [pending] at told
  refine ⟨matched.mirrored, matched.watched, matched.told holding (told m List.mem_cons_self),
    matched.behind holding rfl folds, ?_, ?_, ?_, fun _ _ _ => walk', fun _ => walk', ?_⟩
  · exact matched.held ⟨fold.batch, rest, _⟩ holding one rfl (.inl ⟨drains, rfl⟩)
  · rintro other (⟨_, at_⟩ | ⟨_, _, _, walks⟩)
    · cases at_
      exact fun other inside => told other (List.mem_cons_of_mem _ inside)
    · rw [walk'] at walks
      cases walks
  · rintro batch (waits | ⟨due, ahead⟩)
    · exact holding.queue batch (.inl waits)
    · cases ahead
  · change WalkHolds chain accepts _ (w.foldMatch io.node fold.complete m).1.walk
    rw [walk']
    exact True.intro

/-- What the end of a live batch leaves: the cursor where it was and held, or nothing owed before. -/
theorem finishLive_spec (w : TrackerTask) (fold : InFold) (io : TaskIo) :
    let after := w.finishLive fold io
    Quiet w after ∧ after.owed = w.owed ∧ after.walk = w.walk ∧ after.heldBack = w.heldBack ∧
      (after.cursor = w.cursor ∧ after.frozen = true ∨
        fold.complete = true ∧ w.frozen = false ∧
          (after.cursor = w.cursor ∨ after.cursor = fold.batch.added.getLast?)) := by
  intro after
  change Quiet w (w.finishLive fold io) ∧ (w.finishLive fold io).owed = _ ∧ (w.finishLive fold io).walk = _ ∧
    (w.finishLive fold io).heldBack = _ ∧ ((w.finishLive fold io).cursor = _ ∧ (w.finishLive fold io).frozen = _ ∨
      _ ∧ _ ∧ ((w.finishLive fold io).cursor = _ ∨ (w.finishLive fold io).cursor = _))
  unfold finishLive
  split
  · obtain ⟨quiet, cursor, owed, frozen, walk, _, heldBack⟩ := freezeCursor_spec w io
    exact ⟨quiet, owed, walk, heldBack, .inl ⟨cursor, frozen⟩⟩
  next whole =>
    have complete : fold.complete = true := Bool.not_eq_false _ ▸ whole
    split
    next frozen => exact ⟨Quiet.refl w, rfl, rfl, rfl, .inl ⟨rfl, frozen⟩⟩
    next free =>
      have frozen : w.frozen = false := Bool.not_eq_true _ ▸ free
      cases added : fold.batch.added.getLast? with
      | none => exact ⟨Quiet.refl w, rfl, rfl, rfl, .inr ⟨complete, frozen, .inl rfl⟩⟩
      | some last =>
        obtain ⟨cursor, owed, _, walk, _, heldBack⟩ := writeCursor_spec { w with forceOwed := false } last
          (w.tracker.state.accepts fold.batch || w.forceOwed) io
        have quiet := writeCursor_quiet { w with forceOwed := false } last
          (w.tracker.state.accepts fold.batch || w.forceOwed) io
        exact ⟨⟨quiet.records, quiet.index, quiet.owed⟩, owed, walk, heldBack, .inr ⟨complete, frozen, cursor⟩⟩

/-- Where the cursor is not held, a live batch that folded whole leaves nothing owed. -/
theorem Holding.nothingOwed {fold : InFold} {drains : Bool} (holding : Holding chain accepts w)
    (live : w.doing = .live fold drains) (complete : fold.complete = true) (free : w.frozen = false) :
    w.owed = [] := by
  rcases holding.held with none | frozen | ⟨other, inHand, broken⟩
  · exact none
  · rw [free] at frozen
    cases frozen
  · rcases inHand with ⟨_, at_⟩ | ⟨_, _, _, walks⟩
    · rw [live] at at_
      cases at_
      rw [complete] at broken
      cases broken
    · rw [holding.live fold drains live] at walks
      cases walks

/-- A live batch has folded. -/
theorem Holding.liveEnds {fold : InFold} {drains : Bool} {io : TaskIo} (holding : Holding chain accepts w)
    (live : w.doing = .live fold drains) :
    Holding chain accepts { w.finishLive fold io with doing := if drains then .draining else .select } := by
  obtain ⟨quiet, owed, walk, heldBack, moves⟩ := finishLive_spec w fold io
  have walk' : (w.finishLive fold io).walk = none := walk.trans (holding.live fold drains live)
  refine holding.goto ⟨quiet.records, quiet.index, quiet.owed⟩ ?_ ?_ ?_ ?_ ?_ ?_
  · change ∀ fact ∈ (w.finishLive fold io).owed, ¬ Past chain (w.finishLive fold io).cursor fact
    rcases moves with ⟨cursor, _⟩ | ⟨complete, free, _⟩
    · rw [owed, cursor]
      exact holding.behind
    · rw [owed, holding.nothingOwed live complete free]
      exact fun _ member => by cases member
  · change (w.finishLive fold io).owed = [] ∨ (w.finishLive fold io).frozen = true
    rcases moves with ⟨_, frozen⟩ | ⟨complete, free, _⟩
    · exact .inr frozen
    · exact .inl (owed.trans (holding.nothingOwed live complete free))
  · apply not_inHand_of_walk
    · change ∀ _ _ _ _, (w.finishLive fold io).walk ≠ _
      rw [walk']
      exact fun _ _ _ _ same => by cases same
    · intro other drains' at_
      change (if drains then Doing.draining else .select) = _ at at_
      split at at_ <;> cases at_
  · rintro batch (waits | ⟨due, ahead⟩)
    · change TrackerFeed.vcc batch ∈ (w.finishLive fold io).heldBack at waits
      rw [heldBack] at waits
      exact holding.queue batch (.inl waits)
    · change (if drains then Doing.draining else .select) = _ at ahead
      split at ahead <;> cases ahead
  · exact fun _ => walk'
  · change WalkHolds chain accepts _ (w.finishLive fold io).walk
    rw [walk']
    exact True.intro

/-- A step of the loop's control that leaves the records, and what is owed. -/
structure Carries (w mid : TrackerTask) : Prop where
  quiet : Quiet w mid
  owed : mid.owed = w.owed
  doing : mid.doing = w.doing
  heldBack : mid.heldBack = w.heldBack

/-- How a page ends: the cursor where it was, or past a page that folded whole; and the next await. -/
theorem endPage_cases (w : TrackerTask) (start : Block) (page : Nat) (clean : Bool) (fold : InFold) (io : TaskIo) :
    ∃ mid : TrackerTask, Carries w mid ∧
      (mid.cursor = w.cursor ∨ (clean && fold.complete) = true ∧
        ∃ last, fold.batch.added.getLast? = some last ∧ mid.cursor = some last) ∧
      (mid.frozen = true ∨ fold.complete = true ∧ mid.frozen = w.frozen) ∧
      (fold.batch.added.length < VCC_TIP_PAGE_THRESHOLD ∧ w.endPage start page clean fold io =
          (if clean && fold.complete then mid.releaseCursor else mid.freezeCursor io).walked ∨
        w.endPage start page clean fold io =
          mid.goto (.asking (fold.batch.added.getLast?.getD start) (page + 1) (clean && fold.complete)) ∨
        w.endPage start page clean fold io = mid.walked ∨
        w.endPage start page clean fold io = mid.goto .seeding) := by
  let first := if fold.complete then w else w.freezeCursor io
  have carries : Carries w first ∧ first.cursor = w.cursor ∧
      (first.frozen = true ∨ fold.complete = true ∧ first.frozen = w.frozen) := by
    cases complete : fold.complete with
    | true =>
      simp only [first, complete, if_true]
      exact ⟨⟨Quiet.refl w, rfl, rfl, rfl⟩, True.intro, .inr ⟨True.intro, True.intro⟩⟩
    | false =>
      obtain ⟨quiet, cursor, owed, frozen, _, doing, heldBack⟩ := freezeCursor_spec w io
      simp only [first, complete, Bool.false_eq_true, if_false]
      exact ⟨⟨quiet, owed, doing, heldBack⟩, cursor, .inl frozen⟩
  obtain ⟨firstCarries, firstCursor, firstFrozen⟩ := carries
  let mid := fold.batch.added.getLast?.elim first
    (fun last => if clean && fold.complete then first.writeCursor last true io else first)
  refine ⟨mid, ?_, ?_, ?_, ?_⟩
  · cases added : fold.batch.added.getLast? with
    | none =>
      simp only [mid, added, Option.elim_none]
      exact firstCarries
    | some last =>
      simp only [mid, added, Option.elim_some]
      split
      · obtain ⟨_, owed, _, _, doing, heldBack⟩ := writeCursor_spec first last true io
        exact ⟨firstCarries.quiet.trans (writeCursor_quiet first last true io), owed.trans firstCarries.owed,
          doing.trans firstCarries.doing, heldBack.trans firstCarries.heldBack⟩
      · exact firstCarries
  · cases added : fold.batch.added.getLast? with
    | none =>
      simp only [mid, added, Option.elim_none]
      exact .inl firstCursor
    | some last =>
      simp only [mid, added, Option.elim_some]
      split
      next whole =>
        rcases (writeCursor_spec first last true io).1 with same | moved
        · exact .inl (same.trans firstCursor)
        · exact .inr ⟨whole, last, rfl, moved⟩
      · exact .inl firstCursor
  · cases added : fold.batch.added.getLast? with
    | none =>
      simp only [mid, added, Option.elim_none]
      exact firstFrozen
    | some last =>
      simp only [mid, added, Option.elim_some]
      split
      · rw [(writeCursor_spec first last true io).2.2.1]
        exact firstFrozen
      · exact firstFrozen
  · have shape : w.endPage start page clean fold io =
        if fold.batch.added.length < VCC_TIP_PAGE_THRESHOLD then
          (if clean && fold.complete then mid.releaseCursor else mid.freezeCursor io).walked
        else if page + 1 < MAX_VCC_CATCHUP_PAGES then
          mid.goto (.asking (fold.batch.added.getLast?.getD start) (page + 1) (clean && fold.complete))
        else if !(clean && fold.complete) && mid.keepsHold io then mid.walked
        else mid.goto .seeding := by
      simp only [endPage, mid, first]
      cases fold.batch.added.getLast? <;> rfl
    clear_value mid
    rw [shape]
    split
    next short => exact .inl ⟨short, rfl⟩
    · right
      split
      · exact .inl rfl
      · split
        · exact .inr (.inl rfl)
        · exact .inr (.inr rfl)

theorem Holding.pagePast {start : Block} {page : Nat} {clean : Bool} {fold : InFold}
    (holding : Holding chain accepts w) (walk : w.walk = some (.folding start page clean fold))
    (done : fold.pending = []) (whole : (clean && fold.complete) = true) :
    ∀ fact ∈ w.owed, ¬ Past chain (some (fold.batch.added.getLast?.getD start)) fact := by
  obtain ⟨rfl, complete⟩ := Bool.and_eq_true _ _ ▸ whole
  have holds := holding.walk
  rw [walk] at holds
  have resumes : Resumes chain accepts start fold w.owed := holds complete
  cases added : fold.batch.added.getLast? with
  | none => exact resumes.behind
  | some last => exact resumes.ends done added

/-- A page has folded: the walk goes on, gives up its page budget, or ends. -/
theorem Holding.pageEnds {io : TaskIo} {start : Block} {page : Nat} {clean : Bool} {fold : InFold}
    (holding : Holding chain accepts w) (select : w.doing = .select)
    (walk : w.walk = some (.folding start page clean fold)) (done : fold.pending = [])
    (ends : (clean && fold.complete) = true → fold.batch.added.length < VCC_TIP_PAGE_THRESHOLD →
      ∀ fact ∈ w.owed, Past chain (some (fold.batch.added.getLast?.getD start)) fact) :
    Holding chain accepts (w.endPage start page clean fold io) := by
  obtain ⟨mid, carries, cursor, frozen, shape⟩ := endPage_cases w start page clean fold io
  have past := holding.pagePast walk done
  have behind : ∀ fact ∈ mid.owed, ¬ Past chain mid.cursor fact := by
    rw [carries.owed]
    rcases cursor with same | ⟨whole, last, added, moved⟩
    · rw [same]
      exact holding.behind
    · have ended := past whole
      rw [added] at ended
      rw [moved]
      exact ended
  have held : mid.owed = [] ∨ mid.frozen = true := by
    rw [carries.owed]
    rcases frozen with held | ⟨complete, same⟩
    · exact .inr held
    · rcases holding.held with none | frozen | ⟨other, inHand, broken⟩
      · exact .inl none
      · exact .inr (same.trans frozen)
      · rcases inHand with ⟨drains, live⟩ | ⟨_, _, _, walks⟩
        · cases select.symm.trans live
        · rw [walk] at walks
          cases walks
          rw [complete] at broken
          cases broken
  have select' : mid.doing = .select := carries.doing.trans select
  have queue : ∀ batch, TrackerFeed.vcc batch ∈ mid.heldBack → Told accepts batch := by
    rw [carries.heldBack]
    exact fun batch waits => holding.queue batch (.inl waits)
  have goesOn (next : Walk) (idle : ∀ cursor page clean fold, next ≠ .folding cursor page clean fold)
      (walkHolds : WalkHolds chain accepts mid.owed (some next)) : Holding chain accepts (mid.goto next) := by
    refine holding.goto ⟨carries.quiet.records, carries.quiet.index, carries.quiet.owed⟩ behind held ?_ ?_ ?_ walkHolds
    · rintro other (⟨drains, live⟩ | ⟨_, _, _, walks⟩)
      · cases select'.symm.trans live
      · exact idle _ _ _ _ (Option.some.inj walks)
    · rintro batch (waits | ⟨due, ahead⟩)
      · exact queue batch waits
      · cases select'.symm.trans ahead
    · exact fun drains => by cases select'.symm.trans drains
  have stops (final : TrackerTask) (quiet : Quiet w final) (owed : final.owed = mid.owed)
      (cursor : final.cursor = mid.cursor) (heldBack : final.heldBack = mid.heldBack)
      (held : final.owed = [] ∨ final.frozen = true) : Holding chain accepts final.walked := by
    refine holding.goto ⟨quiet.records, quiet.index, quiet.owed⟩ ?_ held ?_ ?_ (fun _ => rfl) True.intro
    · change ∀ fact ∈ final.owed, ¬ Past chain final.cursor fact
      rw [owed, cursor]
      exact behind
    · rintro other (⟨drains, live⟩ | ⟨_, _, _, walks⟩)
      · cases live
      · cases walks
    · rintro batch (waits | ⟨due, ahead⟩)
      · change TrackerFeed.vcc batch ∈ final.heldBack at waits
        rw [heldBack] at waits
        exact queue batch waits
      · cases ahead
  rcases shape with ⟨short, same⟩ | same | same | same
  · rw [same]
    cases whole : clean && fold.complete with
    | true =>
      -- the walk folded whole to a chain that still has every fact owed: nothing is
      have none : mid.owed = [] := by
        rw [carries.owed]
        exact List.eq_nil_iff_forall_not_mem.mpr fun fact member => past whole fact member (ends whole short fact member)
      obtain ⟨quiet, cursor, owed, _, _, heldBack⟩ := releaseCursor_spec mid
      exact stops _ (carries.quiet.trans quiet) owed cursor heldBack (.inl (owed.trans none))
    | false =>
      obtain ⟨quiet, cursor, owed, frozen, _, _, heldBack⟩ := freezeCursor_spec mid io
      exact stops _ (carries.quiet.trans quiet) owed cursor heldBack (.inr frozen)
  · rw [same]
    refine goesOn _ (fun _ _ _ _ same => by cases same) ?_
    cases whole : clean && fold.complete with
    | true =>
      rw [carries.owed]
      exact past whole
    | false => exact True.intro
  · rw [same]
    exact stops mid carries.quiet rfl rfl rfl held
  · rw [same]
    exact goesOn .seeding (fun _ _ _ _ same => by cases same) True.intro

theorem Holding.walkOn (holding : Holding chain accepts w) (select : w.doing = .select)
    (idle : ∀ fold, ¬ w.InHand fold) {next : Walk}
    (unfolded : ∀ cursor page clean fold, next ≠ .folding cursor page clean fold)
    (walk : WalkHolds chain accepts w.owed (some next)) : Holding chain accepts (w.goto next) := by
  refine holding.goto ⟨rfl, rfl, fun _ held => held⟩ holding.behind (holding.idle idle) ?_ holding.queue ?_ walk
  · rintro fold (⟨drains, live⟩ | ⟨_, _, _, walks⟩)
    · cases select.symm.trans live
    · exact unfolded _ _ _ _ (Option.some.inj walks)
  · exact fun drains => by cases select.symm.trans drains

theorem Holding.walkEnds (holding : Holding chain accepts w) (idle : ∀ fold, ¬ w.InHand fold) :
    Holding chain accepts w.walked := by
  refine holding.goto ⟨rfl, rfl, fun _ held => held⟩ holding.behind (holding.idle idle) ?_ ?_ (fun _ => rfl) True.intro
  · rintro fold (⟨drains, live⟩ | ⟨_, _, _, walks⟩)
    · cases live
    · cases walks
  · rintro batch (waits | ⟨due, ahead⟩)
    · exact holding.queue batch (.inl waits)
    · cases ahead

/-- A re-seed gives up what was owed. -/
theorem Holding.reseeds {sink : Block} {io : TaskIo} (holding : Holding chain accepts w) :
    Holding chain accepts (w.reseed sink io).walked := by
  obtain ⟨quiet, _, _, _, _, heldBack⟩ := releaseCursor_spec (w.writeCursor sink true io)
  have wrote := writeCursor_spec w sink true io
  have both := (writeCursor_quiet w sink true io).trans quiet
  refine holding.goto ⟨both.records, both.index, fun _ none => (by cases none)⟩ (fun _ none => (by cases none)) (.inl rfl)
    ?_ ?_ (fun _ => rfl) True.intro
  · rintro fold (⟨drains, live⟩ | ⟨_, _, _, walks⟩)
    · cases live
    · cases walks
  · rintro batch (waits | ⟨due, ahead⟩)
    · change TrackerFeed.vcc batch ∈ (w.writeCursor sink true io).releaseCursor.heldBack at waits
      rw [heldBack, wrote.2.2.2.2.2] at waits
      exact holding.queue batch (.inl waits)
    · cases ahead

theorem Holding.poll {io : TaskIo} {walk : Walk} (holding : Holding chain accepts w) (select : w.doing = .select)
    (running : w.walk = some walk) (honest : w.Honest chain accepts (.poll io)) (steady : w.Steady chain (.poll io)) :
    Holding chain accepts (w.poll io walk) := by
  have idle (unfolded : ∀ cursor page clean fold, walk ≠ .folding cursor page clean fold) :
      ∀ fold, ¬ w.InHand fold := by
    apply not_inHand_of_walk
    · rw [running]
      exact fun cursor page clean fold same => unfolded cursor page clean fold (Option.some.inj same)
    · rw [select]
      exact fun _ _ same => by cases same
  cases walk with
  | starting =>
    have idle := idle fun _ _ _ _ same => by cases same
    simp only [TrackerTask.poll]
    split
    · exact holding.walkOn select idle (fun _ _ _ _ same => by cases same) True.intro
    next cursor read =>
      have stands : w.cursor = some cursor := by
        split at read
        · exact read
        · cases read
      have behind := holding.behind
      rw [stands] at behind
      exact holding.walkOn select idle (fun _ _ _ _ same => by cases same) behind
  | asking cursor page clean =>
    have idle := idle fun _ _ _ _ same => by cases same
    simp only [TrackerTask.poll]
    split
    · split
      · exact holding.walkEnds idle
      · exact holding.walkOn select idle (fun _ _ _ _ same => by cases same) True.intro
    next batch answered =>
      apply holding.pageBegins select running (honest cursor page clean batch running answered)
      apply steady.removes batch io.now
      simp only [begins, running, answered, Option.map_some]
  | folding cursor page clean fold =>
    simp only [TrackerTask.poll]
    split
    next done =>
      apply holding.pageEnds select running done
      intro whole short
      obtain ⟨rfl, complete⟩ := Bool.and_eq_true _ _ ▸ whole
      apply steady.ends
      obtain ⟨batch, pending, complete'⟩ := fold
      change pending = [] at done
      change complete' = true at complete
      subst done complete
      simp only [TrackerTask.ends, running]
      exact if_pos short
    next m rest pending =>
      apply holding.pageMatches select running pending
      apply steady.accepts
      simp only [reads, running, pending, List.head?_cons, Option.map_some]
  | seeding =>
    have idle := idle fun _ _ _ _ same => by cases same
    simp only [TrackerTask.poll]
    split
    · exact holding.walkEnds idle
    · exact holding.reseeds

theorem Holding.setState {s : TrackerState} (holding : Holding chain accepts w) (mirrored : s.Mirrored) :
    Holding chain accepts (w.setState s) :=
  holding.beside ⟨rfl, rfl, rfl, rfl⟩ mirrored (fun _ member => (List.mem_filter.mp member).2)
    (fun _ member => (List.mem_filter.mp member).1) (fun _ waits => waits)

theorem Holding.aside (holding : Holding chain accepts w) (same : SameControl w after)
    (records : after.tracker.state.log.records = w.tracker.state.log.records)
    (index : after.tracker.state.byAcceptingBlock = w.tracker.state.byAcceptingBlock) (owed : after.owed = w.owed)
    (queue : ∀ batch, .vcc batch ∈ after.heldBack → .vcc batch ∈ w.heldBack) : Holding chain accepts after := by
  refine holding.beside same (holding.mirrored.of_same records index) ?_ ?_ queue
  · rw [owed]
    intro fact member
    rw [stillOwes_congr records]
    exact holding.watched fact member
  · rw [owed]
    exact fun _ member => member

theorem Holding.broadcast (holding : Holding chain accepts w) (events : List AcceptanceEvent) :
    Holding chain accepts (w.broadcast events) :=
  holding.aside ⟨rfl, rfl, rfl, rfl⟩ rfl rfl rfl (fun _ waits => waits)

theorem Holding.foldWalk (holding : Holding chain accepts w) (batch : WalkBatch) :
    Holding chain accepts (w.foldWalk batch) := by
  have txids (acceptance : WalkAcceptance) (txids : List Txid) (w : TrackerTask)
      (holding : Holding chain accepts w) : Holding chain accepts (txids.foldl (foldWalkTxid acceptance) w) := by
    induction txids generalizing w with
    | nil => exact holding
    | cons txid rest ih =>
      exact ih _ ((holding.setState (TrackerState.mirrored_walkAccepted holding.mirrored txid _ _ _)).broadcast _)
  have facts (acceptances : List WalkAcceptance) (w : TrackerTask) (holding : Holding chain accepts w) :
      Holding chain accepts (acceptances.foldl (fun w acceptance =>
        acceptance.txids.foldl (foldWalkTxid acceptance) w) w) := by
    induction acceptances generalizing w with
    | nil => exact holding
    | cons acceptance rest ih => exact ih _ (txids acceptance acceptance.txids w holding)
  have senders (acceptances : List WalkAcceptance) (w : TrackerTask) (holding : Holding chain accepts w) :
      Holding chain accepts (acceptances.foldl (fun w acceptance =>
        if w.tracker.state.offChain.contains acceptance.acceptingBlock then w
        else
          let resolved := takeResolvable w.tracker.senderInterest acceptance.txids acceptance.daaScore
          { w.broadcast resolved.1 with tracker := { w.tracker with senderInterest := resolved.2 } }) w) := by
    induction acceptances generalizing w with
    | nil => exact holding
    | cons acceptance rest ih =>
      apply ih
      beta_reduce
      split
      · exact holding
      · exact holding.aside ⟨rfl, rfl, rfl, rfl⟩ rfl rfl rfl (fun _ waits => waits)
  exact senders _ _ (facts _ _ holding)

theorem Holding.watch {order : List Txid} {txid : Txid} {source : WatchSource} {now : Nat}
    {remembered : Option Remembered} (holding : Holding chain accepts w)
    (lands : w.tracker.state.RoomLands order txid) :
    Holding chain accepts (w.watch order txid source now remembered) := by
  unfold TrackerTask.watch
  split
  · exact holding
  next unwatched =>
    split
    · exact (holding.setState (TrackerState.mirrored_watchRemembered holding.mirrored
        (Bool.not_eq_true _ ▸ unwatched) lands source now _)).broadcast _
    · exact holding.setState (TrackerState.mirrored_watch holding.mirrored lands source now)

/-- The loop turns from one await to another, with no live batch in hand. -/
theorem Holding.turn (holding : Holding chain accepts w) (quiet : Quiet w after) (cursor : after.cursor = w.cursor)
    (frozen : after.frozen = w.frozen) (walk : after.walk = w.walk)
    (free : ∀ fold drains, w.doing ≠ .live fold drains)
    (free' : ∀ fold drains, after.doing ≠ .live fold drains) (drains : after.doing ≠ .draining)
    (queue : ∀ batch, .vcc batch ∈ after.heldBack ∨ (∃ due, after.doing = .ahead batch due) → Told accepts batch) :
    Holding chain accepts after := by
  have inHand (fold : InFold) : after.InHand fold ↔ w.InHand fold := by
    unfold InHand
    rw [walk]
    constructor
    · rintro (⟨drains, live⟩ | walks)
      · exact absurd live (free' fold drains)
      · exact .inr walks
    · rintro (⟨drains, live⟩ | walks)
      · exact absurd live (free fold drains)
      · exact .inr walks
  refine holding.control quiet ⟨?_, ?_, ?_, queue, ?_, ?_, ?_⟩
  · rw [cursor]
    exact fun fact member => holding.behind fact (quiet.owed fact member)
  · rw [frozen]
    rcases holding.held with none | held | ⟨fold, before, broken⟩
    · exact .inl (owed_nil_of_fewer quiet.owed none)
    · exact .inr (.inl held)
    · exact .inr (.inr ⟨fold, (inHand fold).mpr before, broken⟩)
  · exact fun fold now => holding.pending fold ((inHand fold).mp now)
  · exact fun fold drains live => absurd live (free' fold drains)
  · exact fun draining => absurd draining drains
  · rw [walk]
    exact holding.walk.fewer quiet.owed

/-- A walk begins where none runs. -/
theorem Holding.beginWalk (holding : Holding chain accepts w) (select : w.doing = .select) (walk : w.walk = none) :
    Holding chain accepts w.beginWalk := by
  have idle : ∀ fold, ¬ w.InHand fold := by
    apply not_inHand_of_walk
    · rw [walk]
      exact fun _ _ _ _ same => by cases same
    · rw [select]
      exact fun _ _ same => by cases same
  refine holding.goto ⟨rfl, rfl, fun _ held => held⟩ holding.behind (holding.idle idle) ?_ holding.queue ?_ True.intro
  · rintro fold (⟨drains, live⟩ | ⟨_, _, _, walks⟩)
    · cases select.symm.trans live
    · cases walks
  · exact fun drains => by cases select.symm.trans drains

theorem Holding.endWalk {io : TaskIo} (holding : Holding chain accepts w) (drains : w.doing = .draining) :
    Holding chain accepts (w.endWalk io) := by
  have walk := holding.drains drains
  have idle : ∀ fold, ¬ w.InHand fold := by
    apply not_inHand_of_walk
    · rw [walk]
      exact fun _ _ _ _ same => by cases same
    · rw [drains]
      exact fun _ _ same => by cases same
  let closed := { w with
    doing := .select
    tracker := { w.tracker with state := { w.tracker.state with walking := false, ahead := ∅ } }
    readAhead := []
    unread := [] }
  have ended : Holding chain accepts closed := by
    refine holding.goto ⟨rfl, rfl, fun _ held => held⟩ holding.behind (holding.idle idle) ?_ ?_ (fun _ => walk) ?_
    · rintro fold (⟨_, live⟩ | ⟨_, _, _, walks⟩)
      · cases live
      · cases walk.symm.trans walks
    · rintro batch (waits | ⟨due, ahead⟩)
      · exact holding.queue batch (.inl waits)
      · cases ahead
    · change WalkHolds chain accepts w.owed w.walk
      rw [walk]
      exact True.intro
  let backed := if closed.holdWalk && closed.frozen then
      { closed with
        holdBackoff := min (closed.holdBackoff * 2) HOLD_WALK_BACKOFF_MAX
        holdWalkAt := io.instant + min (closed.holdBackoff * 2) HOLD_WALK_BACKOFF_MAX }
    else closed
  have backedOff : Holding chain accepts backed ∧ backed.doing = .select ∧ backed.walk = none := by
    simp only [backed]
    split
    · exact ⟨ended.aside ⟨rfl, rfl, rfl, rfl⟩ rfl rfl rfl (fun _ waits => waits), rfl, walk⟩
    · exact ⟨ended, rfl, walk⟩
  obtain ⟨backedOff, select, none⟩ := backedOff
  have shape : w.endWalk io = if backed.walkAgain then { backed with holdWalk := false, walkAgain := false }.beginWalk
      else { backed with holdWalk := false } := rfl
  clear_value backed
  rw [shape]
  split
  · apply Holding.beginWalk
    · exact backedOff.aside ⟨rfl, rfl, rfl, rfl⟩ rfl rfl rfl (fun _ waits => waits)
    · exact select
    · exact none
  · exact backedOff.aside ⟨rfl, rfl, rfl, rfl⟩ rfl rfl rfl (fun _ waits => waits)

theorem Holding.feed {told : TrackerFeed} {now : Nat} (holding : Holding chain accepts w) (select : w.doing = .select)
    (honest : w.Honest chain accepts (.feed told now)) (steady : w.Steady chain (.feed told now)) :
    Holding chain accepts (w.feed now told) := by
  have free : ∀ fold drains, w.doing ≠ .live fold drains := by
    rw [select]
    exact fun _ _ same => by cases same
  cases told with
  | vcc batch =>
    simp only [TrackerTask.feed]
    split
    · refine holding.turn ⟨rfl, rfl, fun _ held => held⟩ rfl rfl rfl free (fun _ _ same => by cases same)
        (fun same => by cases same) ?_
      rintro other (waits | ⟨due, ahead⟩)
      · exact holding.queue other (.inl waits)
      · cases ahead
        exact honest
    next idle =>
      apply holding.liveBegins (Option.not_isSome_iff_eq_none.mp idle) free honest
      apply steady.removes batch now
      simp only [begins, idle, Bool.false_eq_true, if_false]
  | walk batch =>
    simp only [TrackerTask.feed]
    split
    · refine holding.turn ⟨rfl, rfl, fun _ held => held⟩ rfl rfl rfl free free ?_ ?_
      · exact fun draining => by cases select.symm.trans draining
      · rintro other (waits | ahead)
        · rcases List.mem_append.mp waits with before | new
          · exact holding.queue other (.inl before)
          · simp at new
        · exact holding.queue other (.inr ahead)
    · exact holding.foldWalk batch

theorem Holding.work {io : TaskIo} (holding : Holding chain accepts w) (steady : w.Steady chain (.work io))
    (happens : w.work io = some after) : Holding chain accepts after := by
  cases at_ : w.doing with
  | select =>
    simp only [TrackerTask.work, at_] at happens
    cases happens
  | priming =>
    have free : ∀ fold drains, w.doing ≠ .live fold drains := by
      rw [at_]
      exact fun _ _ same => by cases same
    have primed : Holding chain accepts { w with doing := .select } := by
      refine holding.turn ⟨rfl, rfl, fun _ held => held⟩ rfl rfl rfl free (fun _ _ same => by cases same)
        (fun same => by cases same) ?_
      rintro batch (waits | ⟨due, ahead⟩)
      · exact holding.queue batch (.inl waits)
      · cases ahead
    simp only [TrackerTask.work, at_] at happens
    split at happens
    · cases happens
      exact primed
    · cases happens
      exact primed.setState (holding.mirrored.of_same rfl rfl)
  | ahead batch due =>
    have free : ∀ fold drains, w.doing ≠ .live fold drains := by
      rw [at_]
      exact fun _ _ same => by cases same
    have told := holding.queue batch (.inr ⟨due, at_⟩)
    cases due with
    | nil =>
      simp only [TrackerTask.work, at_, Option.some.injEq] at happens
      subst happens
      refine holding.turn ⟨rfl, rfl, fun _ held => held⟩ rfl rfl rfl free (fun _ _ same => by cases same)
        (fun same => by cases same) ?_
      rintro other (waits | ⟨due, ahead⟩)
      · rcases List.mem_append.mp waits with before | new
        · exact holding.queue other (.inl before)
        · cases List.mem_singleton.mp new
          exact told
      · cases ahead
    | cons entry rest =>
      obtain ⟨block, txids⟩ := entry
      simp only [TrackerTask.work, at_, Option.some.injEq] at happens
      have same := readAcceptingBlock_keeps w.tracker.state io.node block
      have read : Holding chain accepts (w.foldAhead io.node block txids) ∧
          SameControl w (w.foldAhead io.node block txids) ∧ (w.foldAhead io.node block txids).heldBack = w.heldBack := by
        unfold foldAhead
        simp only
        split
        · exact ⟨holding.setState (holding.mirrored.of_same (congrArg WatchLog.records same.1) same.2),
            ⟨rfl, rfl, rfl, rfl⟩, rfl⟩
        · refine ⟨Holding.aside (holding.setState
            (s := { (w.tracker.state.readAcceptingBlock io.node block).2 with ahead := _ }) ?_)
              ⟨rfl, rfl, rfl, rfl⟩ rfl rfl rfl (fun _ waits => waits), ⟨rfl, rfl, rfl, rfl⟩, rfl⟩
          exact holding.mirrored.of_same (congrArg WatchLog.records same.1) same.2
      obtain ⟨ahead, control, heldBack⟩ := read
      subst happens
      refine ahead.turn ⟨rfl, rfl, fun _ held => held⟩ rfl rfl rfl ?_ (fun _ _ same => by cases same)
        (fun same => by cases same) ?_
      · rw [control.doing]
        exact free
      · rintro other (waits | ⟨due, at_⟩)
        · exact ahead.queue other (.inl waits)
        · cases at_
          exact told
  | live fold drains =>
    cases pending : fold.pending with
    | nil =>
      simp only [TrackerTask.work, at_, pending, Option.some.injEq] at happens
      subst happens
      exact holding.liveEnds at_
    | cons m rest =>
      simp only [TrackerTask.work, at_, pending, Option.some.injEq] at happens
      subst happens
      apply holding.liveMatches at_ pending
      apply steady.accepts
      simp only [reads, at_, pending, List.head?_cons, Option.map_some]
  | draining =>
    have walk := holding.drains at_
    cases queued : w.heldBack with
    | nil =>
      simp only [TrackerTask.work, at_, queued, Option.some.injEq] at happens
      subst happens
      exact holding.endWalk at_
    | cons first rest =>
      have popped : Holding chain accepts { w with heldBack := rest } := by
        refine holding.aside ⟨rfl, rfl, rfl, rfl⟩ rfl rfl rfl ?_
        rw [queued]
        exact fun _ waits => List.mem_cons_of_mem _ waits
      cases first with
      | vcc batch =>
        simp only [TrackerTask.work, at_, queued, Option.some.injEq] at happens
        subst happens
        refine popped.liveBegins walk ?_ (holding.queue batch (.inl (queued ▸ List.mem_cons_self))) ?_
        · change ∀ fold drains, w.doing ≠ .live fold drains
          rw [at_]
          exact fun _ _ same => by cases same
        · apply steady.removes batch io.now
          simp only [begins, at_, queued]
      | walk batch =>
        simp only [TrackerTask.work, at_, queued, Option.some.injEq] at happens
        subst happens
        have folded := popped.foldWalk batch
        simp only [at_] at folded
        exact folded

theorem Holding.tickHold {instant : Nat} (holding : Holding chain accepts w) (select : w.doing = .select) :
    Holding chain accepts (w.tickHold instant) := by
  unfold TrackerTask.tickHold
  split
  · exact holding
  · let seen := if w.holds = w.holdSeen then w
      else { w with holdSeen := w.holds, holdBackoff := TICK, holdWalkAt := instant }
    have same : Holding chain accepts seen ∧ seen.doing = .select := by
      simp only [seen]
      split
      · exact ⟨holding, select⟩
      · exact ⟨holding.aside ⟨rfl, rfl, rfl, rfl⟩ rfl rfl rfl (fun _ waits => waits), select⟩
    obtain ⟨holding, select⟩ := same
    change Holding chain accepts (if seen.walk.isNone ∧ seen.holdWalkAt ≤ instant then
      { seen.beginWalk with holdWalk := true } else seen)
    clear_value seen
    split
    next due =>
      have begun := holding.beginWalk select (Option.isNone_iff_eq_none.mp due.1)
      exact begun.aside ⟨rfl, rfl, rfl, rfl⟩ rfl rfl rfl (fun _ waits => waits)
    · exact holding

/-- One step keeps the cursor behind everything owed. -/
theorem Holding.step {e : TaskEvent} (holding : Holding chain accepts w) (honest : w.Honest chain accepts e)
    (steady : w.Steady chain e) (happens : w.step e = some after) : Holding chain accepts after := by
  cases e with
  | disk answers =>
    cases happens
    exact holding.aside ⟨rfl, rfl, rfl, rfl⟩ rfl rfl rfl (fun _ waits => waits)
  | poll io =>
    simp only [TrackerTask.step] at happens
    split at happens
    next walk select running =>
      cases happens
      exact holding.poll select running honest steady
    · cases happens
  | work io => exact holding.work steady happens
  | feed told now =>
    simp only [TrackerTask.step] at happens
    split at happens
    next select =>
      cases happens
      exact holding.feed select honest steady
    · cases happens
  | connected =>
    simp only [TrackerTask.step] at happens
    split at happens
    next select =>
      split at happens
      · cases happens
        exact holding.aside ⟨rfl, rfl, rfl, rfl⟩ rfl rfl rfl (fun _ waits => waits)
      next idle =>
        cases happens
        exact holding.beginWalk select (Option.not_isSome_iff_eq_none.mp idle)
    · cases happens
  | sinkBlue order blue now =>
    simp only [TrackerTask.step] at happens
    split at happens
    · split at happens
      · cases happens
        exact (holding.setState (TrackerState.mirrored_onSinkBlue holding.mirrored steady.drops)).broadcast _
      · cases happens
    · cases happens
  | tick order now instant =>
    simp only [TrackerTask.step] at happens
    split at happens
    next select =>
      split at happens
      · cases happens
        have ticked : Holding chain accepts (w.tickHold instant) := holding.tickHold select
        have same := (w.tickHold instant).tracker.state.same_tick order now
        exact (ticked.setState (ticked.mirrored.of_same (congrArg WatchLog.records same.1) same.2)).broadcast _
      · cases happens
    · cases happens
  | watch order txid source now remembered =>
    simp only [TrackerTask.step] at happens
    split at happens
    · cases happens
      exact holding.watch steady.drops
    · cases happens
  | senderInterest interest =>
    cases happens
    exact holding.aside ⟨rfl, rfl, rfl, rfl⟩ rfl rfl rfl (fun _ waits => waits)

theorem holding_launch (stored : List WatchRecord) (cursor : Option Block) :
    Holding chain accepts (launch stored cursor) where
  mirrored := (TrackerState.mirrored_load stored).of_same rfl rfl
  watched := fun _ member => by cases member
  told := fun _ _ member => by cases member
  behind := fun _ member => by cases member
  held := .inl rfl
  pending := by
    rintro fold (⟨drains, live⟩ | ⟨_, _, _, walks⟩)
    · cases live
    · cases walks
  queue := by
    rintro batch (waits | ⟨due, ahead⟩)
    · cases waits
    · cases ahead
  live := fun _ _ live => by cases live
  drains := fun drains => by cases drains
  walk := True.intro

end Steps

section Advances

variable {chain : Block → List Block} {accepts : Block → List Txid} {w after : TrackerTask}

/-- How the cursor moves: past a live batch, where it is not held and nothing is owed; past a page of a
    walk that folded whole so far, to where it is past nothing owed; or to the sink, which gives up what
    is owed. -/
def Advances (chain : Block → List Block) (w after : TrackerTask) : Prop :=
  (∃ fold drains, w.doing = .live fold drains ∧ fold.pending = [] ∧ fold.complete = true ∧
    w.frozen = false ∧ w.owed = [] ∧ after.cursor = fold.batch.added.getLast?) ∨
  (∃ start page fold, w.walk = some (.folding start page true fold) ∧ fold.pending = [] ∧
    fold.complete = true ∧ after.cursor = fold.batch.added.getLast? ∧
      ∀ fact ∈ w.owed, ¬ Past chain after.cursor fact) ∨
  w.walk = some .seeding ∧ after.owed = []

theorem foldWalk_cursor (w : TrackerTask) (batch : WalkBatch) : (w.foldWalk batch).cursor = w.cursor := by
  have txids (acceptance : WalkAcceptance) (txids : List Txid) (w : TrackerTask) :
      (txids.foldl (foldWalkTxid acceptance) w).cursor = w.cursor := by
    induction txids generalizing w with
    | nil => rfl
    | cons txid rest ih => exact ih _
  have facts (acceptances : List WalkAcceptance) (w : TrackerTask) :
      (acceptances.foldl (fun w acceptance =>
        acceptance.txids.foldl (foldWalkTxid acceptance) w) w).cursor = w.cursor := by
    induction acceptances generalizing w with
    | nil => rfl
    | cons acceptance rest ih => exact (ih _).trans (txids acceptance acceptance.txids w)
  have senders (acceptances : List WalkAcceptance) (w : TrackerTask) :
      (acceptances.foldl (fun w acceptance =>
        if w.tracker.state.offChain.contains acceptance.acceptingBlock then w
        else
          let resolved := takeResolvable w.tracker.senderInterest acceptance.txids acceptance.daaScore
          { w.broadcast resolved.1 with tracker := { w.tracker with senderInterest := resolved.2 } }) w).cursor =
        w.cursor := by
    induction acceptances generalizing w with
    | nil => rfl
    | cons acceptance rest ih =>
      refine (ih _).trans ?_
      beta_reduce
      split <;> rfl
  exact (senders _ _).trans (facts _ _)

theorem watch_cursor (w : TrackerTask) (order : List Txid) (txid : Txid) (source : WatchSource) (now : Nat)
    (remembered : Option Remembered) : (w.watch order txid source now remembered).cursor = w.cursor := by
  unfold TrackerTask.watch
  split
  · rfl
  · split <;> rfl

theorem endWalk_cursor (w : TrackerTask) (io : TaskIo) : (w.endWalk io).cursor = w.cursor := by
  simp only [TrackerTask.endWalk]
  split
  · split <;> rfl
  · split <;> rfl

theorem tickHold_cursor (w : TrackerTask) (instant : Nat) : (w.tickHold instant).cursor = w.cursor := by
  simp only [TrackerTask.tickHold]
  split
  · rfl
  · split
    · split <;> rfl
    · split <;> rfl

theorem foldAhead_cursor (w : TrackerTask) (node : Node) (block : Block) (txids : List Txid) :
    (w.foldAhead node block txids).cursor = w.cursor := by
  simp only [TrackerTask.foldAhead]
  split <;> rfl

theorem Holding.pollAdvances {io : TaskIo} {walk : Walk} (holding : Holding chain accepts w)
    (running : w.walk = some walk) (moves : (w.poll io walk).cursor ≠ w.cursor) :
    Advances chain w (w.poll io walk) := by
  cases walk with
  | starting =>
    refine absurd ?_ moves
    simp only [TrackerTask.poll]
    split <;> rfl
  | asking cursor page clean =>
    refine absurd ?_ moves
    simp only [TrackerTask.poll]
    split
    · split <;> rfl
    · rfl
  | folding start page clean fold =>
    cases pending : fold.pending with
    | cons m rest =>
      refine absurd ?_ moves
      simp only [TrackerTask.poll, pending]
      rfl
    | nil =>
      simp only [TrackerTask.poll, pending] at moves ⊢
      obtain ⟨mid, _, cursor, _, shape⟩ := endPage_cases w start page clean fold io
      have same : (w.endPage start page clean fold io).cursor = mid.cursor := by
        rcases shape with ⟨_, shape⟩ | shape | shape | shape
        · rw [shape]
          split
          · exact (releaseCursor_spec mid).2.1
          · exact (freezeCursor_spec mid io).2.1
        · rw [shape]
          rfl
        · rw [shape]
          rfl
        · rw [shape]
          rfl
      rcases cursor with stays | ⟨whole, last, added, moved⟩
      · exact absurd (same.trans stays) moves
      · have past := holding.pagePast running pending whole
        obtain ⟨rfl, complete⟩ := Bool.and_eq_true _ _ ▸ whole
        refine .inr (.inl ⟨start, page, fold, running, pending, complete, ?_, ?_⟩)
        · rw [same, moved, added]
        · rw [same, moved]
          rw [added] at past
          exact past
  | seeding =>
    cases answered : io.sink with
    | none =>
      simp only [TrackerTask.poll, answered] at moves
      exact absurd rfl moves
    | some sink =>
      simp only [TrackerTask.poll, answered]
      exact .inr (.inr ⟨running, rfl⟩)

theorem Holding.advances {e : TaskEvent} (holding : Holding chain accepts w) (happens : w.step e = some after)
    (moves : after.cursor ≠ w.cursor) : Advances chain w after := by
  cases e with
  | disk answers =>
    cases happens
    exact absurd rfl moves
  | poll io =>
    simp only [TrackerTask.step] at happens
    split at happens
    next walk _ running =>
      cases happens
      exact holding.pollAdvances running moves
    · cases happens
  | work io =>
    cases at_ : w.doing with
    | select =>
      simp only [TrackerTask.step, TrackerTask.work, at_] at happens
      cases happens
    | priming =>
      simp only [TrackerTask.step, TrackerTask.work, at_] at happens
      split at happens
      · cases happens
        exact absurd rfl moves
      · cases happens
        exact absurd rfl moves
    | ahead batch due =>
      cases due with
      | nil =>
        simp only [TrackerTask.step, TrackerTask.work, at_, Option.some.injEq] at happens
        subst happens
        exact absurd rfl moves
      | cons entry rest =>
        simp only [TrackerTask.step, TrackerTask.work, at_, Option.some.injEq] at happens
        subst happens
        exact absurd (foldAhead_cursor w io.node entry.1 entry.2) moves
    | live fold drains =>
      cases pending : fold.pending with
      | cons m rest =>
        simp only [TrackerTask.step, TrackerTask.work, at_, pending, Option.some.injEq] at happens
        subst happens
        exact absurd rfl moves
      | nil =>
        simp only [TrackerTask.step, TrackerTask.work, at_, pending, Option.some.injEq] at happens
        subst happens
        obtain ⟨_, _, _, _, moved⟩ := finishLive_spec w fold io
        rcases moved with ⟨stays, _⟩ | ⟨complete, free, stays | moved⟩
        · exact absurd stays moves
        · exact absurd stays moves
        · exact .inl ⟨fold, drains, at_, pending, complete, free, holding.nothingOwed at_ complete free, moved⟩
    | draining =>
      cases queued : w.heldBack with
      | nil =>
        simp only [TrackerTask.step, TrackerTask.work, at_, queued, Option.some.injEq] at happens
        subst happens
        exact absurd (endWalk_cursor w io) moves
      | cons first rest =>
        cases first with
        | vcc batch =>
          simp only [TrackerTask.step, TrackerTask.work, at_, queued, Option.some.injEq] at happens
          subst happens
          exact absurd rfl moves
        | walk batch =>
          simp only [TrackerTask.step, TrackerTask.work, at_, queued, Option.some.injEq] at happens
          subst happens
          exact absurd (foldWalk_cursor _ batch) moves
  | feed told now =>
    simp only [TrackerTask.step] at happens
    split at happens
    · cases happens
      refine absurd ?_ moves
      cases told with
      | vcc batch =>
        simp only [TrackerTask.feed]
        split <;> rfl
      | walk batch =>
        simp only [TrackerTask.feed]
        split
        · rfl
        · exact foldWalk_cursor w batch
    · cases happens
  | connected =>
    simp only [TrackerTask.step] at happens
    split at happens
    · split at happens
      · cases happens
        exact absurd rfl moves
      · cases happens
        exact absurd rfl moves
    · cases happens
  | sinkBlue order blue now =>
    simp only [TrackerTask.step] at happens
    split at happens
    · split at happens
      · cases happens
        exact absurd rfl moves
      · cases happens
    · cases happens
  | tick order now instant =>
    simp only [TrackerTask.step] at happens
    split at happens
    · split at happens
      · cases happens
        exact absurd (tickHold_cursor w instant) moves
      · cases happens
    · cases happens
  | watch order txid source now remembered =>
    simp only [TrackerTask.step] at happens
    split at happens
    · cases happens
      exact absurd (watch_cursor w order txid source now remembered) moves
    · cases happens
  | senderInterest interest =>
    cases happens
    exact absurd rfl moves

theorem beginFold_records (w : TrackerTask) (batch : VccBatch) (now : Nat) (txid : Txid) (block : Block)
    (removed : block ∈ batch.removed) (off : block ∉ batch.added)
    (stands : (w.beginFold batch now).1.tracker.state.acceptedAt txid = some block) :
    .removed txid block ∈ (w.beginFold batch now).1.owed := by
  obtain ⟨record, found⟩ := TrackerState.record_of_acceptedAt stands
  refine List.mem_filter.mpr ⟨List.mem_append.mpr (.inr ?_), ?_⟩
  · refine List.mem_flatMap.mpr ⟨block, removed, List.mem_map.mpr ⟨txid, ?_, rfl⟩⟩
    exact List.mem_filter.mpr ⟨AList.mem_keys.mpr (KeyMap.mem_of_lookup found), decide_eq_true stands⟩
  · rw [Bool.and_eq_true]
    refine ⟨decide_eq_true stands, ?_⟩
    simp [VccBatch.takesBack, off]

theorem foldMatch_records (w : TrackerTask) (node : Node) (complete : Bool) (m : Matched) (txid : Txid)
    (member : txid ∈ m.watched)
    (watched : (w.foldMatch node complete m).1.tracker.state.isWatched txid = true) :
    (w.foldMatch node complete m).1.tracker.state.acceptedAt txid = some m.block ∨
      .accepted txid m.block ∈ (w.foldMatch node complete m).1.owed := by
  by_cases written : (w.foldMatch node complete m).1.tracker.state.acceptedAt txid = some m.block
  · exact .inl written
  · refine .inr (List.mem_append.mpr (.inr (List.mem_map.mpr ⟨txid, ?_, rfl⟩)))
    refine List.mem_filter.mpr ⟨member, ?_⟩
    rw [Bool.and_eq_true]
    exact ⟨watched, decide_eq_true written⟩

/-- A removal that a step carries for a watched txid is on disk after it, or is owed. -/
theorem step_records_removals {e : TaskEvent} {batch : VccBatch} {now : Nat} (begins : w.begins e = some (batch, now))
    (happens : w.step e = some after) (txid : Txid) (block : Block) (removed : block ∈ batch.removed)
    (off : block ∉ batch.added) (stands : after.tracker.state.acceptedAt txid = some block) :
    .removed txid block ∈ after.owed := by
  have begun (w : TrackerTask) (tracker : after.tracker = (w.beginFold batch now).1.tracker)
      (owed : after.owed = (w.beginFold batch now).1.owed) : Fact.removed txid block ∈ after.owed := by
    rw [tracker] at stands
    rw [owed]
    exact beginFold_records w batch now txid block removed off stands
  cases e with
  | poll io =>
    simp only [TrackerTask.step] at happens
    split at happens
    next walk _ running =>
      cases happens
      simp only [TrackerTask.begins, running] at begins
      cases walk with
      | asking cursor page clean =>
        obtain ⟨page, answered, same⟩ := Option.map_eq_some_iff.mp begins
        cases same
        apply begun w
        · simp only [TrackerTask.poll, answered]
          rfl
        · simp only [TrackerTask.poll, answered]
          rfl
      | _ => cases begins
    · cases happens
  | feed told clock =>
    cases told with
    | walk batch => cases begins
    | vcc fed =>
      simp only [TrackerTask.begins] at begins
      split at begins
      · cases begins
      next idle =>
        cases begins
        simp only [TrackerTask.step, TrackerTask.feed, idle, Bool.false_eq_true, if_false] at happens
        split at happens
        · cases happens
          exact begun w rfl rfl
        · cases happens
  | work io =>
    simp only [TrackerTask.begins] at begins
    split at begins
    next other rest at_ queued =>
      cases begins
      simp only [TrackerTask.step, TrackerTask.work, at_, queued, Option.some.injEq] at happens
      subst happens
      exact begun { w with heldBack := rest } (by simp only [at_]; rfl) (by simp only [at_]; rfl)
    · cases begins
  | _ => cases begins

/-- An acceptance that a step carries for a watched txid is on disk after it, or is owed. -/
theorem step_records_acceptances {e : TaskEvent} {node : Node} {m : Matched} (reads : w.reads e = some (node, m))
    (happens : w.step e = some after) (txid : Txid) (member : txid ∈ m.watched)
    (watched : after.tracker.state.isWatched txid = true) :
    after.tracker.state.acceptedAt txid = some m.block ∨ .accepted txid m.block ∈ after.owed := by
  have folded (complete : Bool) (tracker : after.tracker = (w.foldMatch node complete m).1.tracker)
      (owed : after.owed = (w.foldMatch node complete m).1.owed) :
      after.tracker.state.acceptedAt txid = some m.block ∨ Fact.accepted txid m.block ∈ after.owed := by
    rw [tracker] at watched ⊢
    rw [owed]
    exact foldMatch_records w node complete m txid member watched
  cases e with
  | poll io =>
    simp only [TrackerTask.step] at happens
    split at happens
    next walk _ running =>
      cases happens
      simp only [TrackerTask.reads, running] at reads
      cases walk with
      | folding cursor page clean fold =>
        obtain ⟨head, first, same⟩ := Option.map_eq_some_iff.mp reads
        cases same
        obtain ⟨rest, pending⟩ := List.head?_eq_some_iff.mp first
        apply folded fold.complete
        · simp only [TrackerTask.poll, pending]
          rfl
        · simp only [TrackerTask.poll, pending]
          rfl
      | _ => cases reads
    · cases happens
  | work io =>
    simp only [TrackerTask.reads] at reads
    split at reads
    next fold drains at_ =>
      obtain ⟨head, first, same⟩ := Option.map_eq_some_iff.mp reads
      cases same
      obtain ⟨rest, pending⟩ := List.head?_eq_some_iff.mp first
      simp only [TrackerTask.step, TrackerTask.work, at_, pending, Option.some.injEq] at happens
      subst happens
      exact folded fold.complete rfl rfl
    · cases reads
  | _ => cases reads

/-- What the cursor file promises in a state a run has reached. A fact a batch carries for a watched txid
    is on disk or owed; the cursor is past nothing owed; nothing is owed unless the cursor is held, or the
    batch in hand will hold it; and the cursor moves past batches only so. -/
structure NeverPasses (chain : Block → List Block) (accepts : Block → List Txid) (w : TrackerTask) : Prop where
  behind : ∀ fact ∈ w.owed, ¬ Past chain w.cursor fact
  held : w.owed = [] ∨ w.frozen = true ∨ ∃ fold, w.InHand fold ∧ fold.complete = false
  removals : ∀ e batch now after, w.begins e = some (batch, now) → w.step e = some after →
    ∀ txid block, block ∈ batch.removed → block ∉ batch.added →
      after.tracker.state.acceptedAt txid = some block → .removed txid block ∈ after.owed
  acceptances : ∀ e node m after, w.reads e = some (node, m) → w.step e = some after →
    ∀ txid ∈ m.watched, after.tracker.state.isWatched txid = true →
      after.tracker.state.acceptedAt txid = some m.block ∨ .accepted txid m.block ∈ after.owed
  advances : ∀ e after, w.step e = some after → after.cursor ≠ w.cursor → Advances chain w after

theorem Holding.neverPasses (holding : Holding chain accepts w) : NeverPasses chain accepts w where
  behind := holding.behind
  held := holding.held
  removals := fun _ _ _ _ => step_records_removals
  acceptances := fun _ _ _ _ => step_records_acceptances
  advances := fun _ _ => holding.advances

end Advances

section Decidable

/-- The block the walk asks for a page from. -/
def asked (w : TrackerTask) : Option Block :=
  match w.walk with
  | some (.asking start _ _) => some start
  | _ => none

variable (chain : Block → List Block) (accepts : Block → List Txid)

instance (cursor : Option Block) (block : Block) : Decidable (OnChain chain cursor block) :=
  match cursor with
  | none => .isFalse fun ⟨_, same, _⟩ => by cases same
  | some tip => decidable_of_iff (block ∈ chain tip)
      ⟨fun inside => ⟨tip, rfl, inside⟩, fun ⟨_, same, inside⟩ => Option.some.inj same ▸ inside⟩

instance (cursor : Option Block) (fact : Fact) : Decidable (Past chain cursor fact) :=
  match fact with
  | .accepted _ block => inferInstanceAs (Decidable (OnChain chain cursor block))
  | .removed _ block => inferInstanceAs (Decidable (¬ OnChain chain cursor block))

instance (batch : VccBatch) : Decidable (Told accepts batch) :=
  inferInstanceAs (Decidable (∀ entry ∈ batch.accepted, ∀ txid ∈ entry.2, txid ∈ accepts entry.1))

instance (start : Block) (page : VccBatch) : Decidable (Serves chain accepts start page) :=
  decidable_of_iff (Told accepts page ∧
      (∀ block ∈ page.added, ∀ txid ∈ accepts block, ∃ entry ∈ page.accepted, entry.1 = block ∧ txid ∈ entry.2) ∧
      ∀ last ∈ page.added.getLast?, ∀ block ∈ chain last ++ chain start ++ page.added,
        (block ∈ chain last ↔ block ∈ chain start ∧ block ∉ page.removed ∨ block ∈ page.added)) <| by
    constructor
    · rintro ⟨told, whole, forward⟩
      refine ⟨told, whole, ?_⟩
      intro last ends block
      by_cases near : block ∈ chain last ++ chain start ++ page.added
      · exact forward last ends block near
      · simp only [List.mem_append, not_or] at near
        simp [near]
    · exact fun serves => ⟨serves.told, serves.whole, fun last ends block _ => serves.forward last ends block⟩

instance decidableRemovalsLand (passed : Block → Prop) [DecidablePred passed] (now : Nat) :
    ∀ (s : TrackerState) (blocks : List Block), Decidable (TrackerState.RemovalsLand passed now s blocks)
  | _, [] => .isTrue True.intro
  | s, block :: rest =>
    have := decidableRemovalsLand passed now (TrackerState.removeBlock now (.default, s) block).2 rest
    inferInstanceAs (Decidable (_ ∧ _))

instance (s : TrackerState) (txid : Txid) : Decidable (s.DropLands txid) :=
  inferInstanceAs (Decidable (s.acceptedAt txid ≠ none → s.log.lands = true))

instance decidableDropsLand : ∀ (s : TrackerState) (txids : List Txid), Decidable (s.DropsLand txids)
  | _, [] => .isTrue True.intro
  | s, txid :: rest =>
    have := decidableDropsLand (s.dropWatch txid).2 rest
    inferInstanceAs (Decidable (_ ∧ _))

instance (s : TrackerState) (order : List Txid) (txid : Txid) : Decidable (s.RoomLands order txid) :=
  inferInstanceAs (Decidable (s.isWatched txid = false → WATCH_CAP ≤ s.log.records.keys.length →
    ∀ oldest ∈ s.oldest order, s.DropLands oldest))

instance (w : TrackerTask) (e : TaskEvent) : Decidable (w.Honest chain accepts e) :=
  match e with
  | .poll io =>
    decidable_of_iff (∀ batch ∈ io.page, ∀ start ∈ w.asked, Serves chain accepts start batch) <| by
      constructor
      · intro all start page clean batch asking answered
        exact all batch answered start (by rw [asked, asking]; rfl)
      · intro honest batch answered start asked
        unfold TrackerTask.asked at asked
        split at asked
        next start page clean asking =>
          cases asked
          exact honest start page clean batch asking answered
        · cases asked
  | .feed (.vcc batch) _ => inferInstanceAs (Decidable (Told accepts batch))
  | .feed (.walk _) _ | .disk _ | .work _ | .connected | .sinkBlue _ _ _ | .tick _ _ _ | .watch _ _ _ _ _
  | .senderInterest _ => .isTrue True.intro

instance (w : TrackerTask) (e : TaskEvent) : Decidable (w.Drops e) :=
  match e with
  | .sinkBlue order blue now =>
    inferInstanceAs (Decidable ((w.tracker.state.atSinkBlue order blue).DropsLand
      ((w.tracker.state.atSinkBlue order blue).expired order now)))
  | .watch order txid _ _ _ => inferInstanceAs (Decidable (w.tracker.state.RoomLands order txid))
  | .feed _ _ | .disk _ | .work _ | .connected | .poll _ | .tick _ _ _ | .senderInterest _ => .isTrue True.intro

instance (w : TrackerTask) (e : TaskEvent) : Decidable (w.Steady chain e) :=
  decidable_of_iff ((∀ begun ∈ w.begins e, TrackerState.RemovalsLand (fun block => ¬ OnChain chain w.cursor block)
      begun.2 w.tracker.state begun.1.removed) ∧
    (∀ read ∈ w.reads e, OnChain chain w.cursor read.2.block →
      (Folding.foldMatch read.1 ⟨w.tracker, [], true⟩ read.2).complete = true) ∧
    (∀ tip ∈ w.ends e, ∀ fact ∈ w.owed, Past chain (some tip) fact) ∧ w.Drops e)
  ⟨fun ⟨removes, accepts, ends, drops⟩ => ⟨fun batch now begun => removes (batch, now) begun,
      fun node m read => accepts (node, m) read, ends, drops⟩,
    fun steady => ⟨fun begun same => steady.removes begun.1 begun.2 same,
      fun read same => steady.accepts read.1 read.2 same, steady.ends, steady.drops⟩⟩

end Decidable

section Example

def chainOf : Block → List Block
  | "b1" => ["c0", "b1"]
  | "b2" => ["c0", "b1", "b2"]
  | "b3" => ["c0", "b1", "b3"]
  | block => [block]

def acceptsOf : Block → List Txid
  | "b1" => ["t1"]
  | "b2" => ["t2"]
  | _ => []

def twoSends : List WatchRecord := [⟨"t1", .send, 0, .submitted 0⟩, ⟨"t2", .send, 0, .submitted 0⟩]

/-- The node that serves every block, or every block but `b1`. -/
def answers (servesB1 : Bool) (page : Option VccBatch) : TaskIo :=
  ⟨⟨fun block => if block = "b1" ∧ servesB1 = false then none else some (10, 100, 5), none⟩, page, none, none, true,
    true, 1000, 0⟩

/-- A start whose first walk finds nothing, and a batch whose accepting block cannot be read. -/
def heldAtStart : List TaskEvent :=
  [.work (answers true none), .poll (answers true none), .poll (answers true (some ⟨[], [], []⟩)),
    .poll (answers true none), .work (answers true none), .feed (.vcc ⟨[], ["b1"], [("b1", ["t1"])]⟩) 1000,
    .work (answers false none), .work (answers false none)]

def walkTo (page : VccBatch) : List TaskEvent :=
  [.tick ["t2", "t1"] 10000 10000, .poll (answers true none), .poll (answers true (some page)),
    .poll (answers true none), .poll (answers true none), .work (answers true none)]

/-- While the cursor is held, a batch accepts `t2` at `b2`, and the next takes `b2` off the chain and
    cannot write it. The walk from the held cursor never tells of `b2`, and passes. -/
def removalLost : List TaskEvent :=
  heldAtStart ++
    [.feed (.vcc ⟨[], ["b2"], [("b2", ["t2"])]⟩) 2000, .work (answers false none), .work (answers false none),
      .disk [false], .feed (.vcc ⟨["b2"], ["b3"], [("b3", [])]⟩) 3000, .work (answers false none)] ++
    walkTo ⟨[], ["b1", "b3"], [("b1", ["t1"]), ("b3", [])]⟩

end Example

end TrackerTask

end Kaspaverse.Acceptance
