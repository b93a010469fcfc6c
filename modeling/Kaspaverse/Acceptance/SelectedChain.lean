import Kaspaverse.Acceptance.Batch
import Kaspaverse.Acceptance.IndexMirrors

namespace Kaspaverse.Acceptance

/-- A status without its clocks and scores. -/
inductive Standing
  | submitted
  | accepted (block : Block)
  | displaced
  | finalized
  deriving DecidableEq

def PersistedStatus.standing : PersistedStatus → Standing
  | .submitted _ => .submitted
  | .accepted block _ _ => .accepted block
  | .displaced _ _ => .displaced
  | .finalized _ _ _ => .finalized

namespace Standing

/-- A removal of `blocks` displaces what one of them accepts. -/
def remove (blocks : List Block) : Standing → Standing
  | .accepted block => if block ∈ blocks then .displaced else .accepted block
  | standing => standing

/-- The last block of `accepted` that names the transaction accepts it. -/
def accept (txid : Txid) (accepted : List (Block × List Txid)) (standing : Standing) : Standing :=
  accepted.foldl (fun standing entry => if txid ∈ entry.2 then .accepted entry.1 else standing) standing

/-- What a batch does to one transaction. -/
def fold (txid : Txid) (standing : Standing) (batch : VccBatch) : Standing :=
  (standing.remove batch.removed).accept txid batch.accepted

def foldAll (txid : Txid) (batches : List VccBatch) (standing : Standing) : Standing :=
  batches.foldl (fold txid) standing

/-- Some block of the list names the transaction. -/
def Names (txid : Txid) (accepted : List (Block × List Txid)) : Prop := ∃ entry ∈ accepted, txid ∈ entry.2

theorem accept_cons (txid : Txid) (entry : Block × List Txid) (rest : List (Block × List Txid))
    (standing : Standing) : standing.accept txid (entry :: rest) =
      (if txid ∈ entry.2 then accepted entry.1 else standing).accept txid rest := rfl

theorem accept_of_not_names {txid : Txid} {accepted : List (Block × List Txid)}
    (unnamed : ¬ Names txid accepted) (standing : Standing) :
    standing.accept txid accepted = standing := by
  induction accepted generalizing standing with
  | nil => rfl
  | cons entry rest ih =>
    have absent : txid ∉ entry.2 := fun member => unnamed ⟨entry, List.mem_cons_self, member⟩
    rw [accept_cons, if_neg absent]
    exact ih (fun ⟨other, member, named⟩ => unnamed ⟨other, List.mem_cons_of_mem _ member, named⟩) standing

/-- Where a block names the transaction, its standing before does not matter. -/
theorem accept_of_names {txid : Txid} {accepted : List (Block × List Txid)}
    (named : Names txid accepted) : ∃ entry ∈ accepted, txid ∈ entry.2 ∧
      ∀ standing : Standing, standing.accept txid accepted = .accepted entry.1 := by
  induction accepted with
  | nil => exact absurd named (by simp [Names])
  | cons entry rest ih =>
    by_cases later : Names txid rest
    · obtain ⟨last, member, names, ends⟩ := ih later
      exact ⟨last, List.mem_cons_of_mem _ member, names, fun standing => ends _⟩
    · obtain ⟨found, member, names⟩ := named
      rcases List.mem_cons.mp member with rfl | inRest
      · refine ⟨found, member, names, ?_⟩
        intro standing
        rw [accept_cons, if_pos names]
        exact accept_of_not_names later _
      · exact absurd ⟨found, inRest, names⟩ later

theorem remove_remove (first second : List Block) (standing : Standing) :
    (standing.remove first).remove second = standing.remove (first ++ second) := by
  cases standing with
  | accepted block =>
    by_cases inFirst : block ∈ first
    · simp [remove, inFirst]
    · simp [remove, inFirst]
  | submitted => rfl
  | displaced => rfl
  | finalized => rfl

/-- A list of batches either fixes where the transaction ends, or only removes blocks. -/
theorem foldAll_cases (txid : Txid) (batches : List VccBatch) :
    (∃ ends, ∀ standing, foldAll txid batches standing = ends) ∨
    (∀ batch ∈ batches, ¬ Names txid batch.accepted) ∧
      ∃ blocks, ∀ standing, foldAll txid batches standing = standing.remove blocks := by
  induction batches with
  | nil =>
    refine Or.inr ⟨by simp, [], ?_⟩
    intro standing
    cases standing <;> rfl
  | cons batch rest ih =>
    rcases ih with ⟨ends, fixed⟩ | ⟨unnamedRest, blocks, removes⟩
    · exact Or.inl ⟨ends, fun standing => fixed _⟩
    · by_cases named : Names txid batch.accepted
      · obtain ⟨entry, _, _, accepts⟩ := accept_of_names named
        apply Or.inl
        refine ⟨(Standing.accepted entry.1).remove blocks, ?_⟩
        intro standing
        change foldAll txid rest (fold txid standing batch) = _
        rw [removes, fold, accepts]
      · apply Or.inr
        refine ⟨List.forall_mem_cons.mpr ⟨named, unnamedRest⟩, batch.removed ++ blocks, ?_⟩
        intro standing
        change foldAll txid rest (fold txid standing batch) = _
        rw [removes, fold, accept_of_not_names named, remove_remove]

theorem foldAll_again (txid : Txid) (batches : List VccBatch) (standing : Standing) :
    foldAll txid batches (foldAll txid batches standing) = foldAll txid batches standing := by
  rcases foldAll_cases txid batches with ⟨ends, fixed⟩ | ⟨_, blocks, removes⟩
  · rw [fixed, fixed]
  · rw [removes, removes, remove_remove]
    cases standing with
    | accepted block => simp [remove]
    | submitted => rfl
    | displaced => rfl
    | finalized => rfl

theorem foldAll_eq_submitted {txid : Txid} {batches : List VccBatch} {standing : Standing}
    (ends : foldAll txid batches standing = .submitted) :
    standing = .submitted ∧ ∀ batch ∈ batches, ¬ Names txid batch.accepted := by
  induction batches generalizing standing with
  | nil => exact ⟨ends, by simp⟩
  | cons batch rest ih =>
    obtain ⟨folded, unnamedRest⟩ := ih ends
    have unnamed : ¬ Names txid batch.accepted := by
      intro named
      obtain ⟨entry, _, _, accepts⟩ := accept_of_names named
      rw [fold, accepts] at folded
      cases folded
    refine ⟨?_, List.forall_mem_cons.mpr ⟨unnamed, unnamedRest⟩⟩
    rw [fold, accept_of_not_names unnamed] at folded
    cases standing with
    | accepted block =>
      simp only [remove] at folded
      split at folded <;> cases folded
    | submitted => rfl
    | displaced => cases folded
    | finalized => cases folded

end Standing

/-- A txid is accepted by at most one block of the chain, and a block is on it once. -/
structure ValidChain (accepts : Block → List Txid) (chain : List Block) : Prop where
  once : chain.Nodup
  unique : ∀ txid, ∀ b ∈ chain, ∀ b' ∈ chain, txid ∈ accepts b → txid ∈ accepts b' → b = b'

/-- The batch takes a suffix of the chain off it and puts its replacement on. -/
structure PathDifference (accepts : Block → List Txid) (chain : List Block) (batch : VccBatch)
    (next : List Block) : Prop where
  replaces : ∃ trunk suffix, chain = trunk ++ suffix ∧ batch.removed.Perm suffix ∧
    next = trunk ++ batch.added
  carries : batch.accepted = batch.added.map fun block => (block, accepts block)

/-- The chains a stream of batches leads through, to the last of them. -/
inductive Follows (accepts : Block → List Txid) : List Block → List VccBatch → List Block → Prop
  | here {chain : List Block} (valid : ValidChain accepts chain) : Follows accepts chain [] chain
  | next {chain between final : List Block} {batch : VccBatch} {rest : List VccBatch}
    (valid : ValidChain accepts chain) (difference : PathDifference accepts chain batch between)
    (rest_ : Follows accepts between rest final) : Follows accepts chain (batch :: rest) final

/-- The standing says what the chain says. -/
structure Standing.Agrees (accepts : Block → List Txid) (chain : List Block) (txid : Txid)
    (standing : Standing) : Prop where
  accepted : ∀ block, standing = .accepted block ↔ block ∈ chain ∧ txid ∈ accepts block
  unfinished : standing ≠ .finalized

theorem Follows.valid {accepts : Block → List Txid} {chain final : List Block}
    {batches : List VccBatch} (follows : Follows accepts chain batches final) :
    ValidChain accepts chain := by
  cases follows with
  | here valid => exact valid
  | next valid _ _ => exact valid

theorem Follows.carries {accepts : Block → List Txid} {chain final : List Block}
    {batches : List VccBatch} (follows : Follows accepts chain batches final) :
    ∀ batch ∈ batches, batch.accepted = batch.added.map fun block => (block, accepts block) := by
  induction follows with
  | here _ => simp
  | next _ difference _ ih => exact List.forall_mem_cons.mpr ⟨difference.carries, ih⟩

theorem names_iff {accepts : Block → List Txid} {blocks : List Block} {txid : Txid} :
    Standing.Names txid (blocks.map fun block => (block, accepts block)) ↔
      ∃ block ∈ blocks, txid ∈ accepts block := by
  simp [Standing.Names]

/-- One batch of the stream keeps the standing true to the chain. -/
theorem Standing.Agrees.fold {accepts : Block → List Txid} {chain next : List Block} {batch : VccBatch}
    {txid : Txid} {standing : Standing} (agrees : standing.Agrees accepts chain txid)
    (valid : ValidChain accepts chain) (validNext : ValidChain accepts next)
    (difference : PathDifference accepts chain batch next) :
    (Standing.fold txid standing batch).Agrees accepts next txid := by
  obtain ⟨trunk, suffix, isChain, removed, isNext⟩ := difference.replaces
  by_cases named : Standing.Names txid batch.accepted
  · obtain ⟨entry, member, names, ends⟩ := Standing.accept_of_names named
    rw [Standing.fold, ends]
    rw [difference.carries, List.mem_map] at member
    obtain ⟨block, isAdded, rfl⟩ := member
    have onNext : block ∈ next := by
      rw [isNext]
      exact List.mem_append_right _ isAdded
    refine ⟨?_, Standing.noConfusion⟩
    intro other
    rw [Standing.accepted.injEq]
    constructor
    · rintro rfl
      exact ⟨onNext, names⟩
    · intro ⟨onToo, namesToo⟩
      exact validNext.unique txid block onNext other onToo names namesToo
  · rw [Standing.fold, Standing.accept_of_not_names named]
    rw [difference.carries, names_iff] at named
    have notAdded : ∀ block, txid ∈ accepts block → block ∉ batch.added :=
      fun block names member => named ⟨block, member, names⟩
    have apart : ∀ block ∈ trunk, block ∉ batch.removed := by
      intro block inTrunk gone
      have once := valid.once
      rw [isChain] at once
      exact (List.nodup_append.mp once).2.2 block inTrunk block (removed.mem_iff.mp gone) rfl
    refine ⟨?_, ?_⟩
    · intro block
      constructor
      · intro ends
        cases standing with
        | accepted held =>
          simp only [Standing.remove] at ends
          split at ends
          · cases ends
          · rename_i stays
            cases ends
            obtain ⟨onChain, names⟩ := (agrees.accepted block).mp rfl
            rw [isChain] at onChain
            refine ⟨?_, names⟩
            rw [isNext]
            rcases List.mem_append.mp onChain with inTrunk | gone
            · exact List.mem_append_left _ inTrunk
            · exact absurd (removed.mem_iff.mpr gone) stays
        | submitted => cases ends
        | displaced => cases ends
        | finalized => cases ends
      · intro ⟨onNext, names⟩
        rw [isNext] at onNext
        have inTrunk := (List.mem_append.mp onNext).resolve_right (notAdded block names)
        have held := (agrees.accepted block).mpr ⟨isChain ▸ List.mem_append_left _ inTrunk, names⟩
        rw [held, Standing.remove, if_neg (apart block inTrunk)]
    · have unfinished := agrees.unfinished
      cases standing with
      | accepted held =>
        simp only [Standing.remove]
        split <;> exact Standing.noConfusion
      | submitted => exact Standing.noConfusion
      | displaced => exact Standing.noConfusion
      | finalized => exact absurd rfl unfinished

theorem Standing.Agrees.foldAll {accepts : Block → List Txid} {chain final : List Block}
    {batches : List VccBatch} {txid : Txid} {standing : Standing}
    (agrees : standing.Agrees accepts chain txid) (follows : Follows accepts chain batches final) :
    (Standing.foldAll txid batches standing).Agrees accepts final txid := by
  induction follows generalizing standing with
  | here valid => exact agrees
  | next valid difference rest ih =>
    exact ih (agrees.fold valid rest.valid difference)

namespace TrackerState

/-- Every write to come lands. -/
def Writable (s : TrackerState) : Prop := s.log.disk = []

theorem upsert_writable {s : TrackerState} (writable : s.Writable) (txid : Txid)
    (record : WatchRecord) : ∃ log, s.upsert txid record = (true, { s with log := log }) ∧
      log.disk = [] ∧
      ∀ other, log.records.lookup other = if other = txid then some record else s.record other := by
  have lands : s.log.lands = true := by
    rw [WatchLog.lands, writable]
    rfl
  have still : (s.upsert txid record).2.log.disk = [] := by
    unfold upsert WatchLog.upsert
    rw [lands]
    split
    · exact writable
    · change s.log.disk.tail = []
      rw [writable]
      rfl
  have ok : (s.upsert txid record).1 = true := by
    unfold upsert WatchLog.upsert
    rw [lands]
    split <;> rfl
  rcases s.upsert_cases txid record with ⟨disk, fails⟩ | ⟨log, written, lookup⟩
  · rw [fails] at ok
    cases ok
  · rw [written] at still
    exact ⟨log, written, still, lookup⟩

theorem displaceAll_writable (block : Block) (now : Nat) (txids : List Txid) (fold : Fold)
    (kept : List Txid) (s : TrackerState) (writable : s.Writable) :
    let after := txids.foldl (displaceOne block now) (fold, kept, s)
    after.1.failed = fold.failed ∧ after.2.2.Writable := by
  induction txids generalizing fold kept s with
  | nil => exact ⟨rfl, writable⟩
  | cons first rest ih =>
    rw [List.foldl_cons]
    cases found : s.record first with
    | none =>
      have stepped : displaceOne block now (fold, kept, s) first = (fold, kept, s) := by
        simp only [displaceOne, found]
      rw [stepped]
      exact ih fold kept s writable
    | some record =>
      obtain ⟨log, lands, disk, _⟩ :=
        upsert_writable writable first { record with status := .displaced now block }
      have stepped : displaceOne block now (fold, kept, s) first =
          ({ fold with events := fold.events ++ [.displaced first] }, kept,
            { s with log := log, confirmedEmitted := s.confirmedEmitted.erase first }) := by
        simp only [displaceOne, found, lands, if_true]
      rw [stepped]
      exact ih _ kept _ disk

theorem onRemoved_writable {s : TrackerState} (writable : s.Writable) (blocks : List Block)
    (now : Nat) : (s.onRemoved blocks now).1.failed = false ∧ (s.onRemoved blocks now).2.Writable := by
  have all : ∀ (folding : Fold × TrackerState), folding.2.Writable →
      (blocks.foldl (removeBlock now) folding).1.failed = folding.1.failed ∧
        (blocks.foldl (removeBlock now) folding).2.Writable := by
    induction blocks with
    | nil => exact fun _ h => ⟨rfl, h⟩
    | cons first rest ih =>
      intro folding writable
      have one : (removeBlock now folding first).1.failed = folding.1.failed ∧
          (removeBlock now folding first).2.Writable := by
        unfold removeBlock
        cases found : folding.2.byAcceptingBlock.lookup first with
        | none =>
          simp only [found]
          exact ⟨True.intro, writable⟩
        | some txids =>
          simp only [found]
          exact displaceAll_writable first now txids folding.1 []
            { folding.2 with offChain := folding.2.offChain.removed first } writable
      obtain ⟨clean, still⟩ := ih _ one.2
      exact ⟨clean.trans one.1, still⟩
  exact all (.default, s) writable

/-- The standing of a txid, where it is watched. -/
def standing (s : TrackerState) (txid : Txid) : Option Standing :=
  (s.record txid).map (·.status.standing)

theorem acceptingBlock_iff {status : PersistedStatus} {block : Block} :
    status.acceptingBlock = some block ↔ status.standing = .accepted block := by
  cases status <;> simp [PersistedStatus.acceptingBlock, PersistedStatus.standing]

theorem standing_onRemoved {s : TrackerState} (mirrored : s.Mirrored) (writable : s.Writable)
    (blocks : List Block) (now : Nat) (txid : Txid) :
    (s.onRemoved blocks now).2.standing txid = (s.standing txid).map (Standing.remove blocks) := by
  obtain ⟨_, others, displaced⟩ := onRemoved_spec mirrored blocks now
  have gone := displaced (onRemoved_writable writable blocks now).1
  by_cases hit : ∃ block ∈ blocks, s.acceptedAt txid = some block
  · obtain ⟨block, member, accepted⟩ := hit
    have found := accepted
    rw [acceptedAt, Option.bind_eq_some_iff] at found
    obtain ⟨record, has, status⟩ := found
    have here := acceptingBlock_iff.mp status
    rw [standing, standing, gone block member txid record has accepted, has]
    change some Standing.displaced = some (Standing.remove blocks record.status.standing)
    rw [here, Standing.remove, if_pos member]
  · have same := others txid fun block member accepted => hit ⟨block, member, accepted⟩
    rw [standing, standing, same]
    cases has : s.record txid with
    | none => rfl
    | some record =>
      change some record.status.standing = some (Standing.remove blocks record.status.standing)
      congr 1
      cases place : record.status.standing with
      | accepted block =>
        rw [Standing.remove, if_neg]
        intro member
        apply hit
        refine ⟨block, member, ?_⟩
        rw [acceptedAt_of_record has]
        exact acceptingBlock_iff.mpr place
      | submitted => rfl
      | displaced => rfl
      | finalized => rfl

theorem standing_acceptOne {s : TrackerState} (writable : s.Writable) (fold : Fold) (block : Block)
    (blueScore unixMs : Nat) (first : Txid) :
    let after := acceptOne block blueScore unixMs (fold, s) first
    after.1.failed = fold.failed ∧ after.2.Writable ∧
      ∀ txid, after.2.standing txid =
        if txid = first then (s.standing txid).map fun _ => .accepted block else s.standing txid := by
  have aside : ∀ txid, (s.standing txid).map (fun _ => Standing.accepted block) = s.standing txid →
      ∀ other, s.standing other =
        if other = txid then (s.standing other).map fun _ => .accepted block else s.standing other := by
    intro txid same other
    split
    · rename_i equal
      rw [equal, same]
    · rfl
  unfold acceptOne
  cases found : s.record first with
  | none =>
    simp only [found]
    refine ⟨True.intro, writable, aside first ?_⟩
    rw [standing, found]
    rfl
  | some record =>
    simp only [found]
    split
    · rename_i held
      refine ⟨rfl, writable, aside first ?_⟩
      rw [standing, found]
      change some (Standing.accepted block) = some record.status.standing
      rw [acceptingBlock_iff.mp held]
    · obtain ⟨log, lands, disk, lookup⟩ := upsert_writable writable first
        { record with status := .accepted block blueScore unixMs }
      simp only [lands, if_true]
      refine ⟨True.intro, disk, ?_⟩
      intro txid
      rw [standing, TrackerState.record, lookup]
      by_cases same : txid = first
      · rw [if_pos same, if_pos same, same, standing, found]
        rfl
      · rw [if_neg same, if_neg same]
        rfl

theorem standing_onAccepted {s : TrackerState} (writable : s.Writable) (block : Block)
    (blueScore : Nat) (txids : List Txid) (unixMs : Nat) :
    (s.onAccepted block blueScore txids unixMs).1.failed = false ∧
    (s.onAccepted block blueScore txids unixMs).2.Writable ∧
    ∀ txid, (s.onAccepted block blueScore txids unixMs).2.standing txid =
      if txid ∈ txids then (s.standing txid).map fun _ => .accepted block else s.standing txid := by
  have all : ∀ (folding : Fold × TrackerState), folding.2.Writable →
      let after := txids.foldl (acceptOne block blueScore unixMs) folding
      after.1.failed = folding.1.failed ∧ after.2.Writable ∧
        ∀ txid, after.2.standing txid = if txid ∈ txids then
          (folding.2.standing txid).map fun _ => .accepted block else folding.2.standing txid := by
    induction txids with
    | nil => exact fun _ h => ⟨rfl, h, fun _ => rfl⟩
    | cons first rest ih =>
      intro folding writable
      obtain ⟨clean, still, standing⟩ :=
        standing_acceptOne writable folding.1 block blueScore unixMs first
      obtain ⟨cleanAll, stillAll, standingAll⟩ := ih _ still
      refine ⟨cleanAll.trans clean, stillAll, ?_⟩
      intro txid
      rw [List.foldl_cons, standingAll, standing]
      by_cases inRest : txid ∈ rest
      · rw [if_pos inRest, if_pos (List.mem_cons_of_mem _ inRest)]
        split
        · rw [Option.map_map]
          rfl
        · rfl
      · rw [if_neg inRest]
        by_cases same : txid = first
        · rw [if_pos same, if_pos (same ▸ List.mem_cons_self)]
        · rw [if_neg same, if_neg]
          rw [List.mem_cons, not_or]
          exact ⟨same, inRest⟩
  exact all (.default, s) writable

end TrackerState

/-- A block none of whose txids is watched or wanted names no watched one. -/
theorem TrackerState.accept_matched (s : TrackerState) (interest : List Txid) (batch : VccBatch)
    {txid : Txid} (watched : s.isWatched txid = true) (standing : Standing) :
    standing.accept txid ((s.matched interest batch).map fun m => (m.block, m.watched)) =
      standing.accept txid batch.accepted := by
  unfold matched
  induction batch.accepted generalizing standing with
  | nil => rfl
  | cons entry rest ih =>
    rw [Standing.accept_cons, List.map_cons, List.filter_cons]
    by_cases named : txid ∈ entry.2
    · have inside : txid ∈ entry.2.filter s.isWatched := List.mem_filter.mpr ⟨named, watched⟩
      have some_ : (entry.2.filter s.isWatched).isEmpty = false := by
        rw [List.isEmpty_eq_false_iff]
        exact List.ne_nil_of_mem inside
      rw [if_pos (by rw [some_]; rfl), List.map_cons, Standing.accept_cons, if_pos inside, if_pos named]
      exact ih _
    · have outside : txid ∉ entry.2.filter s.isWatched :=
        fun member => named (List.mem_filter.mp member).1
      rw [if_neg named]
      split
      · rw [List.map_cons, Standing.accept_cons, if_neg outside]
        exact ih standing
      · exact ih standing

/-- The node that answers for every block. -/
def answering (facts : Block → Nat × Nat × Nat) : Node := ⟨fun block => some (facts block), none⟩

/-- What the matches of a batch do to one watched transaction. -/
theorem standing_foldMatches (facts : Block → Nat × Nat × Nat) (matches_ : List Matched)
    (folding : Folding) (mirrored : folding.tracker.state.Mirrored)
    (writable : folding.tracker.state.Writable) :
    let after := matches_.foldl (Folding.foldMatch (answering facts)) folding
    after.tracker.state.Mirrored ∧ after.tracker.state.Writable ∧
      after.complete = folding.complete ∧
      ∀ txid, after.tracker.state.standing txid = (folding.tracker.state.standing txid).map
        (Standing.accept txid (matches_.map fun m => (m.block, m.watched))) := by
  induction matches_ generalizing folding with
  | nil =>
    refine ⟨mirrored, writable, rfl, ?_⟩
    intro txid
    exact Option.map_id'.symm
  | cons first rest ih =>
    rcases read : facts first.block with ⟨blueScore, daaScore, timestamp⟩
    obtain ⟨clean, still, standing⟩ := TrackerState.standing_onAccepted writable first.block blueScore
      first.watched timestamp
    have kept := TrackerState.mirrored_onAccepted mirrored first.block blueScore first.watched timestamp
    have folded : (Folding.foldMatch (answering facts) folding first).tracker.state =
        (folding.tracker.state.onAccepted first.block blueScore first.watched timestamp).2 ∧
        (Folding.foldMatch (answering facts) folding first).complete = folding.complete := by
      simp only [Folding.foldMatch, TrackerState.readAcceptingBlock, answering, read, clean,
        Bool.not_false, Bool.and_true, and_self]
    obtain ⟨mirroredAll, writableAll, completeAll, standingAll⟩ :=
      ih (Folding.foldMatch (answering facts) folding first) (by rw [folded.1]; exact kept)
        (by rw [folded.1]; exact still)
    refine ⟨mirroredAll, writableAll, completeAll.trans folded.2, ?_⟩
    intro txid
    rw [List.foldl_cons, standingAll, folded.1, standing]
    by_cases named : txid ∈ first.watched
    · rw [if_pos named, Option.map_map]
      congr 1
      funext standing
      rw [List.map_cons, Standing.accept_cons, if_pos named]
      rfl
    · rw [if_neg named]
      congr 1
      funext standing
      rw [List.map_cons, Standing.accept_cons, if_neg named]

/-- **A batch whose writes and reads succeed does to each watched transaction what the chain did.** -/
theorem standing_foldBatch (facts : Block → Nat × Nat × Nat) (now : Nat) {tracker : Tracker}
    (batch : VccBatch) (mirrored : tracker.state.Mirrored) (writable : tracker.state.Writable) :
    let after := foldBatch (answering facts) now tracker batch
    after.2.2.state.Mirrored ∧ after.2.2.state.Writable ∧ after.1.complete = true ∧
      ∀ txid, after.2.2.state.standing txid =
        (tracker.state.standing txid).map (Standing.fold txid · batch) := by
  let removed := tracker.state.onRemoved batch.removed now
  let begun := Folding.begin tracker batch now
  have clean := TrackerState.onRemoved_writable writable batch.removed now
  have kept := (TrackerState.onRemoved_spec mirrored batch.removed now).1
  have begunMirrored : begun.1.tracker.state.Mirrored := kept.of_same rfl rfl
  have begunStanding : ∀ txid, begun.1.tracker.state.standing txid =
      (tracker.state.standing txid).map (Standing.remove batch.removed) :=
    TrackerState.standing_onRemoved mirrored writable batch.removed now
  obtain ⟨mirroredAll, writableAll, completeAll, standingAll⟩ :=
    standing_foldMatches facts begun.2 begun.1 begunMirrored clean.2
  refine ⟨mirroredAll, writableAll, ?_, ?_⟩
  · refine completeAll.trans ?_
    change (!removed.1.failed) = true
    rw [clean.1]
    rfl
  · intro txid
    refine (standingAll txid).trans ?_
    rw [begunStanding, Option.map_map]
    cases watched : tracker.state.standing txid with
    | none => rfl
    | some standing =>
      have isWatched : begun.1.tracker.state.isWatched txid = true := by
        rw [← Bool.not_eq_false, TrackerState.unwatched_iff]
        intro absent
        have none := begunStanding txid
        rw [watched, TrackerState.standing, absent] at none
        cases none
      exact congrArg some (begun.1.tracker.state.accept_matched tracker.senderInterest batch isWatched _)

namespace TrackerState

theorem dropWatch_writable {s : TrackerState} (writable : s.Writable) (txid : Txid) :
    (s.dropWatch txid).2.Writable := by
  change (s.log.remove txid).2.disk = []
  unfold WatchLog.remove
  have tail : s.log.disk.tail = [] := by rw [writable]; rfl
  split
  · split
    · exact tail
    · exact tail
  · exact writable

theorem dropLands_writable {s : TrackerState} (writable : s.Writable) (txid : Txid) :
    s.DropLands txid := by
  intro _
  rw [WatchLog.lands, writable]
  rfl

theorem dropAll_writable {s : TrackerState} (writable : s.Writable) (txids : List Txid) :
    (s.dropAll txids).2.Writable ∧ s.DropsLand txids := by
  induction txids generalizing s with
  | nil => exact ⟨writable, True.intro⟩
  | cons first rest ih =>
    have still := dropWatch_writable writable first
    refine ⟨?_, dropLands_writable writable first, fun _ => (ih still).2⟩
    rw [dropAll]
    split
    · exact (ih still).1
    · exact still

theorem record_dropAll {s : TrackerState} {txids : List Txid} {txid : Txid} {record : WatchRecord}
    (found : (s.dropAll txids).2.record txid = some record) : s.record txid = some record := by
  induction txids generalizing s with
  | nil => exact found
  | cons first rest ih =>
    rw [dropAll] at found
    split at found
    · exact record_dropWatch (ih found)
    · exact record_dropWatch found

theorem watch_writable {s : TrackerState} (writable : s.Writable) (order : List Txid) (txid : Txid)
    (source : WatchSource) (now : Nat) : (s.watch order txid source now).2.Writable := by
  have room : (s.makeRoom order).2.Writable := by
    unfold makeRoom
    split
    · split
      · exact dropWatch_writable writable _
      · exact writable
    · exact writable
  unfold watch
  dsimp only
  split
  · exact writable
  · split
    · obtain ⟨log, lands, disk, _⟩ := upsert_writable room txid ⟨txid, source, now, .submitted now⟩
      rw [lands]
      exact disk
    · exact room

/-- A watch of another txid, or of this one again, leaves its record or evicts it. -/
theorem record_watch {s : TrackerState} {order : List Txid} {key txid : Txid} {source : WatchSource}
    {now : Nat} {record after : WatchRecord} (before : s.record txid = some record)
    (found : (s.watch order key source now).2.record txid = some after) : after = record := by
  have same : ∀ t : TrackerState, (t.record txid = some after → s.record txid = some after) →
      t.record txid = some after → after = record := by
    intro t back has
    have old := back has
    rw [before] at old
    exact (Option.some.inj old).symm
  unfold watch at found
  dsimp only at found
  split at found
  · exact same s id found
  · rename_i unwatched
    split at found
    · rcases (s.makeRoom order).2.upsert_cases key ⟨key, source, now, .submitted now⟩ with
        ⟨disk, fails⟩ | ⟨log, lands, lookup⟩
      · rw [fails] at found
        exact same _ record_makeRoom found
      · have other : txid ≠ key := by
          rintro rfl
          rw [Bool.not_eq_true, unwatched_iff, before] at unwatched
          cases unwatched
        rw [lands] at found
        change log.records.lookup txid = some after at found
        rw [lookup, if_neg other] at found
        exact same _ record_makeRoom found
    · exact same _ record_makeRoom found

/-- A sink score that makes no record final. -/
def FinalizesNone (s : TrackerState) (order : List Txid) (score : Nat) : Prop :=
  ({ s with sinkBlue := score } : TrackerState).claimsDepth = true →
    ({ s with sinkBlue := score } : TrackerState).terminal order = []

theorem onSinkBlue_none {s : TrackerState} (writable : s.Writable) (order : List Txid)
    (score now : Nat) (none : s.FinalizesNone order score) :
    (s.onSinkBlue order score now).2.Writable ∧
      (s.atSinkBlue order score).DropsLand ((s.atSinkBlue order score).expired order now) ∧
      ∀ txid record, (s.onSinkBlue order score now).2.record txid = some record →
        s.record txid = some record := by
  unfold onSinkBlue atSinkBlue pruneBeyondHorizon
  dsimp only
  cases claims : ({ s with sinkBlue := score } : TrackerState).claimsDepth with
  | true =>
    have noted : ({ s with sinkBlue := score } : TrackerState).finalizeTerminal order =
        (({ s with sinkBlue := score } : TrackerState).noteCrossed order).2 := by
      rw [finalizeTerminal, none claims]
      rfl
    have still : (({ s with sinkBlue := score } : TrackerState).finalizeTerminal order).Writable := by
      rw [noted]
      exact writable
    simp only [if_true]
    refine ⟨(dropAll_writable still _).1, (dropAll_writable still _).2, ?_⟩
    intro txid record found
    have before := record_dropAll found
    rw [noted] at before
    exact before
  | false =>
    have still : ({ s with sinkBlue := score } : TrackerState).Writable := writable
    simp only [Bool.false_eq_true, if_false]
    refine ⟨(dropAll_writable still _).1, (dropAll_writable still _).2, ?_⟩
    intro txid record found
    have before := record_dropAll found
    exact before

end TrackerState

/-- What reaches the tracker beside and between the batches, every write and read succeeding. -/
inductive StreamEvent
  | batch (batch : VccBatch) (facts : Block → Nat × Nat × Nat) (now : Nat)
  | watch (order : List Txid) (txid : Txid) (source : WatchSource) (now : Nat)
  | sinkBlue (order : List Txid) (score now : Nat)
  | tick (order : List Txid) (now : Nat)

def StreamEvent.batch? : StreamEvent → Option VccBatch
  | .batch folded .. => some folded
  | _ => none

namespace Tracker

def streamStep (tracker : Tracker) : StreamEvent → Option Tracker
  | .batch batch facts now => some (foldBatch (answering facts) now tracker batch).2.2
  | .watch order txid source now =>
    (tracker.state.step (.watch order txid source now)).map fun s => { tracker with state := s }
  | .sinkBlue order score now =>
    (tracker.state.step (.sinkBlue order score now)).map fun s => { tracker with state := s }
  | .tick order now =>
    (tracker.state.step (.tick order now)).map fun s => { tracker with state := s }

/-- The event neither evicts the watch of `txid` nor makes a record final. -/
def Undisturbed (txid : Txid) (tracker : Tracker) (event : StreamEvent) : Prop :=
  (∀ next, tracker.streamStep event = some next → next.state.isWatched txid = true) ∧
  ∀ order score now, event = .sinkBlue order score now → tracker.state.FinalizesNone order score

/-- What the stream keeps of the tracker, and the standing of one watched transaction. -/
structure Stands (txid : Txid) (standing : Standing) (tracker : Tracker) : Prop where
  mirrored : tracker.state.Mirrored
  writable : tracker.state.Writable
  watched : tracker.state.standing txid = some standing

theorem standing_of_record {s t : TrackerState} {txid : Txid} {standing : Standing}
    (before : s.standing txid = some standing) (watched : t.isWatched txid = true)
    (same : ∀ record after, s.record txid = some record → t.record txid = some after →
      after = record) : t.standing txid = some standing := by
  obtain ⟨record, found, stands⟩ := Option.map_eq_some_iff.mp before
  cases has : t.record txid with
  | none =>
    rw [← Bool.not_eq_false, TrackerState.unwatched_iff] at watched
    exact absurd has watched
  | some after =>
    rw [TrackerState.standing, has, same record after found has]
    exact congrArg some stands

theorem stands_step {txid : Txid} {standing : Standing} {tracker next : Tracker}
    {event : StreamEvent} (stands : Stands txid standing tracker)
    (undisturbed : Undisturbed txid tracker event) (happens : tracker.streamStep event = some next) :
    Stands txid (Standing.foldAll txid event.batch?.toList standing) next := by
  obtain ⟨mirrored, writable, watched⟩ := stands
  have stays := undisturbed.1 next happens
  have aside : event.batch? = none →
      Standing.foldAll txid event.batch?.toList standing = standing := by
    intro none
    rw [none]
    rfl
  cases event with
  | batch batch facts now =>
    cases happens
    obtain ⟨kept, still, _, folds⟩ := standing_foldBatch facts now batch mirrored writable
    refine ⟨kept, still, ?_⟩
    rw [folds, watched, Option.map_some]
    rfl
  | watch order key source now =>
    obtain ⟨s, stepped, rfl⟩ := Option.map_eq_some_iff.mp happens
    have drops : tracker.state.Drops (.watch order key source now) :=
      fun _ _ oldest _ => TrackerState.dropLands_writable writable oldest
    have kept := TrackerState.mirrored_step _ _ _ mirrored drops stepped
    simp only [TrackerState.step, Option.ite_none_right_eq_some, Option.some.injEq] at stepped
    obtain ⟨_, rfl⟩ := stepped
    rw [aside rfl]
    exact ⟨kept, TrackerState.watch_writable writable order key source now,
      standing_of_record watched stays fun _ _ => TrackerState.record_watch⟩
  | sinkBlue order score now =>
    obtain ⟨s, stepped, rfl⟩ := Option.map_eq_some_iff.mp happens
    obtain ⟨still, drops, back⟩ :=
      TrackerState.onSinkBlue_none writable order score now (undisturbed.2 order score now rfl)
    have kept := TrackerState.mirrored_step _ (.sinkBlue order score now) _ mirrored drops stepped
    simp only [TrackerState.step, Option.ite_none_right_eq_some, Option.some.injEq] at stepped
    obtain ⟨_, rfl⟩ := stepped
    rw [aside rfl]
    refine ⟨kept, still, standing_of_record watched stays ?_⟩
    intro record after before found
    have old := back txid after found
    rw [before] at old
    exact (Option.some.inj old).symm
  | tick order now =>
    obtain ⟨s, stepped, rfl⟩ := Option.map_eq_some_iff.mp happens
    have kept := TrackerState.mirrored_step _ (.tick order now) _ mirrored True.intro stepped
    simp only [TrackerState.step, Option.ite_none_right_eq_some, Option.some.injEq] at stepped
    obtain ⟨_, rfl⟩ := stepped
    have same := (tracker.state.same_tick order now).1
    rw [aside rfl]
    refine ⟨kept, ?_, ?_⟩
    · rw [TrackerState.Writable, same]
      exact writable
    · rw [TrackerState.standing, TrackerState.record, same]
      exact watched

theorem stands_run {txid : Txid} {standing : Standing} {tracker final : Tracker}
    {events : List StreamEvent} (stands : Stands txid standing tracker)
    (reached : Machine.run streamStep tracker events = some final)
    (undisturbed : Machine.Meets streamStep (Undisturbed txid) tracker events) :
    Stands txid (Standing.foldAll txid (events.filterMap StreamEvent.batch?) standing) final := by
  induction events generalizing tracker standing with
  | nil =>
    cases reached
    exact stands
  | cons event rest ih =>
    obtain ⟨next, happens, later⟩ := Machine.run_cons_some reached
    have one := stands_step stands undisturbed.1 happens
    have all := ih one later (undisturbed.2 next happens)
    rw [List.filterMap_cons]
    cases folded : event.batch? with
    | none =>
      rw [folded] at all
      exact all
    | some batch =>
      rw [folded] at all
      exact all

/-- **A watched transaction stands where the selected chain has it**, where its record agreed with
    the chain the stream starts from; folding a stretch of the stream again changes nothing. -/
theorem follows_selected_chain (accepts : Block → List Txid) (chain final : List Block)
    (stored : List WatchRecord) (prior : List TrackerState.TrackerEvent) (s : TrackerState) (interest : List Txid)
    (reached : Machine.run TrackerState.step (.load stored) prior = some s)
    (drops : Machine.Meets TrackerState.step TrackerState.Drops (.load stored) prior)
    (writable : s.Writable) (txid : Txid) (standing : Standing)
    (watched : s.standing txid = some standing) (agrees : standing.Agrees accepts chain txid)
    (events : List StreamEvent) (tracker : Tracker)
    (folded : Machine.run streamStep ⟨s, interest⟩ events = some tracker)
    (undisturbed : Machine.Meets streamStep (Undisturbed txid) ⟨s, interest⟩ events)
    (follows : Follows accepts chain (events.filterMap StreamEvent.batch?) final) :
    ∃ after, tracker.state.standing txid = some after ∧
      (∀ block, after = .accepted block ↔ block ∈ final ∧ txid ∈ accepts block) ∧
      after ≠ .finalized ∧
      (after = .submitted → (∀ block ∈ chain, txid ∉ accepts block) ∧
        ∀ batch ∈ events.filterMap StreamEvent.batch?, ∀ block ∈ batch.added,
          txid ∉ accepts block) ∧
      ∀ (again : List StreamEvent) (replayed : Tracker),
        Machine.run streamStep tracker again = some replayed →
        Machine.Meets streamStep (Undisturbed txid) tracker again →
        again.filterMap StreamEvent.batch? <:+ events.filterMap StreamEvent.batch? →
        replayed.state.standing txid = some after := by
  have mirrored : s.Mirrored := Machine.run_invariant_meeting TrackerState.mirrored_step
    (TrackerState.mirrored_load stored) drops reached
  have stands := stands_run ⟨mirrored, writable, watched⟩ folded undisturbed
  have agreesFinal := agrees.foldAll follows
  refine ⟨_, stands.watched, agreesFinal.accepted, agreesFinal.unfinished, ?_, ?_⟩
  · intro submitted
    obtain ⟨wasSubmitted, unnamed⟩ := Standing.foldAll_eq_submitted submitted
    constructor
    · intro block onChain names
      have accepted := (agrees.accepted block).mpr ⟨onChain, names⟩
      rw [wasSubmitted] at accepted
      cases accepted
    · intro batch member block isAdded names
      apply unnamed batch member
      rw [follows.carries batch member, names_iff]
      exact ⟨block, isAdded, names⟩
  · intro again replayed ranAgain undisturbedAgain ⟨earlier, whole⟩
    have standsAgain := (stands_run stands ranAgain undisturbedAgain).watched
    rw [standsAgain, ← whole]
    congr 1
    rw [Standing.foldAll, Standing.foldAll, List.foldl_append]
    exact Standing.foldAll_again txid _ _

/-- The blocks that accept the one send of these runs. -/
def acceptsSend : Block → List Txid
  | "b" => ["t"]
  | "d" => ["t"]
  | _ => []

def sendOnly : List WatchRecord := [⟨"t", .send, 0, .submitted 0⟩]

def adding (removed added : List Block) : VccBatch :=
  ⟨removed, added, added.map fun block => (block, acceptsSend block)⟩

/-- Block `b` accepts the send, and `d` accepts it again where `b` was. -/
def reorg : List VccBatch := [adding [] ["b"], adding ["b"] ["c", "d"]]

def foldStream (batches : List VccBatch) : List StreamEvent :=
  batches.map fun batch => .batch batch (fun _ => (10, 20, 30)) 5

theorem writable_load (stored : List WatchRecord) : (TrackerState.load stored).Writable := rfl

theorem validChain_acceptsSend {chain : List Block} (once : chain.Nodup)
    (apart : ¬ ("b" ∈ chain ∧ "d" ∈ chain)) : ValidChain acceptsSend chain := by
  have named : ∀ txid block, txid ∈ acceptsSend block → block = "b" ∨ block = "d" := by
    intro txid block names
    unfold acceptsSend at names
    split at names
    · exact Or.inl rfl
    · exact Or.inr rfl
    · cases names
  refine ⟨once, ?_⟩
  intro txid block onChain other onToo names namesToo
  rcases named txid block names with rfl | rfl <;> rcases named txid other namesToo with rfl | rfl
  · rfl
  · exact absurd ⟨onChain, onToo⟩ apart
  · exact absurd ⟨onToo, onChain⟩ apart
  · rfl

theorem undisturbed_foldStream {txid : Txid} {tracker final : Tracker} {batches : List VccBatch}
    (mirrored : tracker.state.Mirrored) (writable : tracker.state.Writable) {standing : Standing}
    (watched : tracker.state.standing txid = some standing)
    (reached : Machine.run streamStep tracker (foldStream batches) = some final) :
    Machine.Meets streamStep (Undisturbed txid) tracker (foldStream batches) := by
  induction batches generalizing tracker standing with
  | nil => exact True.intro
  | cons batch rest ih =>
    obtain ⟨next, happens, later⟩ := Machine.run_cons_some reached
    obtain ⟨kept, still, _, folds⟩ := standing_foldBatch (fun _ => (10, 20, 30)) 5 batch mirrored writable
    have stands := folds txid
    rw [watched, Option.map_some] at stands
    cases happens
    refine ⟨⟨?_, fun _ _ _ none => by cases none⟩, ?_⟩
    · intro next happens
      cases happens
      rw [← Bool.not_eq_false, TrackerState.unwatched_iff]
      intro absent
      rw [TrackerState.standing, absent] at stands
      cases stands
    · intro next happens
      cases happens
      exact ih kept still stands later

theorem follows_selected_chain_reorg :
    ∃ tracker replayed, Machine.run streamStep ⟨.load sendOnly, []⟩ (foldStream reorg) = some tracker ∧
      Machine.run streamStep tracker (foldStream reorg) = some replayed ∧
      tracker.state.standing "t" = some (.accepted "d") ∧
      replayed.state.standing "t" = some (.accepted "d") := by
  obtain ⟨tracker, folded⟩ : ∃ tracker,
      Machine.run streamStep ⟨.load sendOnly, []⟩ (foldStream reorg) = some tracker := ⟨_, rfl⟩
  obtain ⟨replayed, ranAgain⟩ : ∃ replayed,
      Machine.run streamStep tracker (foldStream reorg) = some replayed := ⟨_, rfl⟩
  have watched : (TrackerState.load sendOnly).standing "t" = some .submitted := by
    decide
  have agrees : Standing.submitted.Agrees acceptsSend ["a"] "t" := by
    refine ⟨?_, Standing.noConfusion⟩
    intro block
    constructor
    · intro none
      cases none
    · intro ⟨onChain, names⟩
      rw [List.mem_singleton.mp onChain] at names
      cases names
  have follows : Follows acceptsSend ["a"] reorg ["a", "c", "d"] := by
    refine .next (validChain_acceptsSend (by decide) (by decide)) ⟨⟨["a"], [], rfl, .refl _, rfl⟩, rfl⟩ ?_
    refine .next (validChain_acceptsSend (by decide) (by decide))
      ⟨⟨["a"], ["b"], rfl, .refl _, rfl⟩, rfl⟩ ?_
    exact .here (validChain_acceptsSend (by decide) (by decide))
  have batches : (foldStream reorg).filterMap StreamEvent.batch? = reorg := rfl
  have undisturbed := undisturbed_foldStream (TrackerState.mirrored_load sendOnly) (writable_load _) watched folded
  have stands := stands_run ⟨TrackerState.mirrored_load sendOnly, writable_load _, watched⟩ folded undisturbed
  obtain ⟨after, stood, accepted, _, _, replays⟩ := follows_selected_chain acceptsSend ["a"]
    ["a", "c", "d"] sendOnly [] _ [] rfl True.intro (writable_load _) "t" .submitted watched agrees _ tracker folded
    undisturbed (batches ▸ follows)
  have onD : after = .accepted "d" := (accepted "d").mpr ⟨by decide, by decide⟩
  have again := replays _ replayed ranAgain
    (undisturbed_foldStream stands.mirrored stands.writable stands.watched ranAgain) List.suffix_rfl
  rw [onD] at stood again
  exact ⟨tracker, replayed, folded, ranAgain, stood, again⟩

/-- A send watched after its acceptance was folded stays submitted. -/
theorem late_watch_stays_submitted : ¬ ∀ (accepts : Block → List Txid) (chain final : List Block)
    (stored : List WatchRecord) (txid : Txid) (events : List StreamEvent) (tracker : Tracker),
    (TrackerState.load stored).isWatched txid = true →
    Machine.run streamStep ⟨.load stored, []⟩ events = some tracker →
    Machine.Meets streamStep (Undisturbed txid) ⟨.load stored, []⟩ events →
    Follows accepts chain (events.filterMap StreamEvent.batch?) final →
    ∀ block, tracker.state.standing txid = some (.accepted block) ↔
      block ∈ final ∧ txid ∈ accepts block := by
  intro all
  obtain ⟨tracker, folded⟩ : ∃ tracker, Machine.run streamStep ⟨.load sendOnly, []⟩
      (foldStream [adding [] ["c"]]) = some tracker := ⟨_, rfl⟩
  have watched : (TrackerState.load sendOnly).standing "t" = some .submitted := by
    decide
  have undisturbed := undisturbed_foldStream (TrackerState.mirrored_load sendOnly) (writable_load _) watched folded
  have stands := stands_run ⟨TrackerState.mirrored_load sendOnly, writable_load _, watched⟩ folded undisturbed
  have follows : Follows acceptsSend ["b"] [adding [] ["c"]] ["b", "c"] := by
    refine .next (validChain_acceptsSend (by decide) (by decide)) ⟨⟨["b"], [], rfl, .refl _, rfl⟩, rfl⟩ ?_
    exact .here (validChain_acceptsSend (by decide) (by decide))
  have accepted := (all acceptsSend ["b"] ["b", "c"] sendOnly "t" _ tracker (by decide) folded undisturbed
    follows "b").mpr ⟨by decide, by decide⟩
  rw [stands.watched] at accepted
  cases accepted

end Tracker

end Kaspaverse.Acceptance
