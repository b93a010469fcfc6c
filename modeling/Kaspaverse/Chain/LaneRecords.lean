import Kaspaverse.Chain.Commit

namespace Kaspaverse.Chain

namespace Stage

/-- The pin's record of the leg was there when its commit looked. -/
def kept : Stage → Bool
  | .noted kept => kept
  | .seen kept => kept
  | .passed _ kept => kept
  | _ => false

/-- What a move within one leg keeps. -/
structure Moves (stage next : Stage) : Prop where
  isOpen : next.isOpen = stage.isOpen
  mayHaveReached : stage.mayHaveReached = true → next.mayHaveReached = true
  onward : ∀ generation, next ≠ .recording generation

theorem moves_iff {stage next : Stage} : stage.Moves next ↔
    next.isOpen = stage.isOpen ∧ (stage.mayHaveReached = true → next.mayHaveReached = true) ∧
      ∀ generation, next ≠ .recording generation :=
  ⟨fun moves => ⟨moves.isOpen, moves.mayHaveReached, moves.onward⟩,
    fun all => ⟨all.1, all.2.1, all.2.2⟩⟩

end Stage

/-- What one step of a commit does to the records and to the commit. -/
inductive Moved (s : InFlightSends) (commit : Commit) (leg : PendingTransaction)
    (step : CommitStep) : InFlightSends → Commit → Prop
  | began (now daa generation : Nat) (isBegin : step = .begin now daa generation)
    (signing : commit.stage = .signing) :
    Moved s commit leg step
      (((s.rememberLeg leg.id (commit.send.legMeta leg commit.earlier now daa)).submitting leg.id
        (ids leg.utxoEntries)).pruneMeta)
      { commit with stage := .recording generation }
  | forgot (now : Nat) (isForget : step = .notRecorded now ∨ step = .refused now) (isOpen : commit.stage.isOpen = true)
    (unsent : commit.stage.mayHaveReached = false) (unkept : commit.stage.kept = false) :
    Moved s commit leg step (s.forgetLeg leg.id now) { commit with stage := .over }
  | returned (mayHaveLeft : Bool) (now : Nat) (next : Commit) (isOpen : commit.stage.isOpen = true)
    (left : commit.stage.mayHaveReached = true → mayHaveLeft = true)
    (closed : next.stage.isOpen = false) (fewer : next.pending ⊆ commit.pending)
    (same : next.send = commit.send) :
    Moved s commit leg step (s.submitReturned leg.id mayHaveLeft now) next
  | tookNote (record : OutgoingTransaction) (stage : Stage) (named : record.id = leg.id)
    (isOpen : commit.stage.isOpen = true) (moves : commit.stage.Moves stage)
    (recorded : stage.isRecorded = true → commit.stage.isRecorded = true) :
    Moved s commit leg step (s.noteTaken record) { commit with stage := stage }
  | sawOwn (now : Nat) (stage : Stage) (moves : commit.stage.Moves stage)
    (isOpen : commit.stage.isOpen = true) (reached : stage.mayHaveReached = true)
    (recorded : stage.isRecorded = true → commit.stage.isRecorded = true)
    (kept : stage.kept = true → commit.stage.kept = true) :
    Moved s commit leg step (s.ownSendSeen leg.id [] now) { commit with stage := stage }
  | noteCancelled (stage : Stage) (moves : commit.stage.Moves stage)
    (recorded : stage.isRecorded = true → commit.stage.isRecorded = true)
    (kept : stage.kept = true → commit.stage.kept = true) :
    Moved s commit leg step (s.noteCancelled leg.id leg.utxoEntries) { commit with stage := stage }
  | fateUnknown (now : Nat) (stage : Stage) (moves : commit.stage.Moves stage)
    (recorded : stage.isRecorded = true → commit.stage.isRecorded = true)
    (kept : stage.kept = true → commit.stage.kept = true) :
    Moved s commit leg step (s.fateUnknown (commit.send.unknownLeg leg commit.earlier now))
      { commit with stage := stage }
  | still (stage : Stage) (moves : commit.stage.Moves stage)
    (recorded : stage.isRecorded = true →
      commit.stage.isRecorded = true ∨
        step = .recorded ∧ ∃ generation, commit.stage = .recording generation)
    (kept : stage.kept = true → commit.stage.kept = true) :
    Moved s commit leg step s { commit with stage := stage }

/-- Each record of the processor stands under its own txid. -/
def KeyedById (outgoing : KeyMap TransactionId OutgoingTransaction) : Prop :=
  ∀ txid record, outgoing.lookup txid = some record → record.id = txid

namespace Lane

theorem noteTaken_cases (lane : Lane) (leg : PendingTransaction) :
    (lane.noteTaken leg = (false, lane)) ∨
    ∃ record, lane.outgoing.lookup leg.id = some record ∧ lane.noteTaken leg = (true,
      { lane with
        inFlight := lane.inFlight.noteTaken record
        kept := insert leg.id lane.kept }) := by
  unfold noteTaken
  cases lane.outgoing.lookup leg.id with
  | none => exact Or.inl rfl
  | some record => exact Or.inr ⟨record, rfl, rfl⟩

/-- What the watching fields of a commit's step say. -/
structure Watched (lane : Lane) (commit : Commit) (leg : PendingTransaction) (next : Lane)
    (after : Commit) : Prop where
  keyed : KeyedById lane.outgoing → KeyedById next.outgoing
  unsettled : next.unsettled = lane.unsettled ∨
    next.unsettled = insert leg.id lane.unsettled ∧ commit.stage.isRecorded = true ∧
      commit.stage.isOpen = true ∧ after.stage.mayHaveReached = true ∧ after.stage.isOpen = true ∧
      after.pending = commit.pending
  dropped : next.dropped = lane.dropped
  kept : lane.kept ⊆ next.kept
  taken : ∀ txid ∈ next.inFlight.taken, txid ∈ lane.inFlight.taken ∨ txid ∈ next.kept
  found : after.stage.kept = true → commit.stage.kept = true ∨ leg.id ∈ next.inFlight.taken

theorem Watched.still {lane next : Lane} {commit after : Commit} {leg : PendingTransaction}
    (outgoing : KeyedById lane.outgoing → KeyedById next.outgoing)
    (unsettled : next.unsettled = lane.unsettled) (dropped : next.dropped = lane.dropped)
    (kept : next.kept = lane.kept)
    (taken : ∀ txid ∈ next.inFlight.taken, txid ∈ lane.inFlight.taken)
    (found : after.stage.kept = true → commit.stage.kept = true) :
    Watched lane commit leg next after where
  keyed := outgoing
  unsettled := Or.inl unsettled
  dropped := dropped
  kept := kept ▸ Finset.Subset.refl _
  taken := fun txid member => Or.inl (taken txid member)
  found := fun has => Or.inl (found has)

theorem keyedById_erase {outgoing : KeyMap TransactionId OutgoingTransaction} {txid : TransactionId}
    (keyed : KeyedById outgoing) : KeyedById (outgoing.erase txid) := by
  intro other record found
  exact keyed other record (KeyMap.lookup_erase_some.mp found).2

theorem taken_forgetLeg (s : InFlightSends) (txid : TransactionId) (now : Nat) :
    (s.forgetLeg txid now).taken = s.taken :=
  (InFlightSends.submitReturned_frame { s with legMeta := s.legMeta.erase txid } txid false now).2.1

theorem taken_submitReturned (s : InFlightSends) (txid : TransactionId) (mayHaveLeft : Bool)
    (now : Nat) : (s.submitReturned txid mayHaveLeft now).taken = s.taken :=
  (InFlightSends.submitReturned_frame s txid mayHaveLeft now).2.1

theorem moved_advance {lane : Lane} {c : Nat} {commit : Commit} {leg : PendingTransaction}
    {step : CommitStep} {stage : Stage} (moves : commit.stage.Moves stage)
    (recorded : stage.isRecorded = true →
      commit.stage.isRecorded = true ∨
        step = .recorded ∧ ∃ generation, commit.stage = .recording generation)
    (kept : stage.kept = true → commit.stage.kept = true) :
    ∃ after, (lane.advance c commit stage).commits = lane.commits.set c after ∧
      Moved lane.inFlight commit leg step (lane.advance c commit stage).inFlight after ∧
      Watched lane commit leg (lane.advance c commit stage) after :=
  ⟨_, rfl, .still stage moves recorded kept, .still id rfl rfl rfl (fun _ h => h) kept⟩

theorem moved_forgot {lane : Lane} {c : Nat} {commit : Commit} {leg : PendingTransaction}
    {step : CommitStep} (now : Nat) (isForget : step = .notRecorded now ∨ step = .refused now)
    (isOpen : commit.stage.isOpen = true)
    (unsent : commit.stage.mayHaveReached = false) (unkept : commit.stage.kept = false) :
    let next := { lane with inFlight := lane.inFlight.forgetLeg leg.id now }.advance c commit .over
    ∃ after, next.commits = lane.commits.set c after ∧
      Moved lane.inFlight commit leg step next.inFlight after ∧ Watched lane commit leg next after := by
  refine ⟨_, rfl, .forgot now isForget isOpen unsent unkept, .still id rfl rfl rfl ?_ ?_⟩
  · intro txid member
    rw [advance, taken_forgetLeg] at member
    exact member
  · intro has
    cases has

theorem moved_returned {lane : Lane} {c : Nat} {commit after : Commit} {leg : PendingTransaction}
    {step : CommitStep}
    (mayHaveLeft : Bool) (now : Nat) (isOpen : commit.stage.isOpen = true)
    (left : commit.stage.mayHaveReached = true → mayHaveLeft = true)
    (closed : after.stage.isOpen = false) (fewer : after.pending ⊆ commit.pending)
    (same : after.send = commit.send) :
    let next : Lane := { lane with
      inFlight := lane.inFlight.submitReturned leg.id mayHaveLeft now
      commits := lane.commits.set c after }
    ∃ after, next.commits = lane.commits.set c after ∧
      Moved lane.inFlight commit leg step next.inFlight after ∧ Watched lane commit leg next after := by
  refine ⟨after, rfl, .returned mayHaveLeft now after isOpen left closed fewer same,
    .still id rfl rfl rfl ?_ ?_⟩
  · intro txid member
    rw [taken_submitReturned] at member
    exact member
  · intro has
    cases stage : after.stage <;> simp [stage, Stage.kept, Stage.isOpen] at has closed

/-- The commit looks for the pin's record, and its stage keeps what it found. -/
theorem moved_noted {lane : Lane} {c : Nat} {commit : Commit} {leg : PendingTransaction}
    {step : CommitStep}
    (keyed : KeyedById lane.outgoing) (stage : Bool → Stage) (isOpen : commit.stage.isOpen = true)
    (recorded : commit.stage.isRecorded = true) (moves : ∀ kept, commit.stage.Moves (stage kept))
    (keeps : ∀ kept, (stage kept).kept = kept) :
    let noted := lane.noteTaken leg
    let next := noted.2.advance c commit (stage noted.1)
    ∃ after, next.commits = lane.commits.set c after ∧
      Moved lane.inFlight commit leg step next.inFlight after ∧ Watched lane commit leg next after := by
  rcases lane.noteTaken_cases leg with nothing | ⟨record, found, noted⟩
  · simp only [nothing]
    refine ⟨_, rfl, .still _ (moves false) (fun _ => Or.inl recorded) ?_,
      .still id rfl rfl rfl (fun _ h => h) ?_⟩ <;>
    · intro has
      simp [keeps] at has
  · have named : record.id = leg.id := keyed leg.id record found
    simp only [noted]
    refine ⟨_, rfl, .tookNote record _ named isOpen (moves true) (fun _ => recorded), ?_⟩
    refine ⟨id, Or.inl rfl, rfl, Finset.subset_insert _ _, ?_, fun _ => Or.inr ?_⟩
    · intro txid member
      change txid ∈ lane.inFlight.taken.insert record.id record at member
      rw [AList.mem_insert, named] at member
      rcases member with same | old
      · exact Or.inr (same ▸ Finset.mem_insert_self _ _)
      · exact Or.inl old
    · change leg.id ∈ lane.inFlight.taken.insert record.id record
      rw [AList.mem_insert]
      exact Or.inl named.symm

theorem commitStep_moved {lane next : Lane} {c : Nat} {commit : Commit} {leg : PendingTransaction}
    {step : CommitStep} (keyed : KeyedById lane.outgoing)
    (taken : lane.commitStep c commit leg step = some next) :
    ∃ after, next.commits = lane.commits.set c after ∧
      Moved lane.inFlight commit leg step next.inFlight after ∧ Watched lane commit leg next after := by
  cases step with
  | signFailed =>
    simp only [commitStep, Option.ite_none_right_eq_some, Option.some.injEq] at taken
    obtain ⟨stage, rfl⟩ := taken
    apply moved_advance <;> simp [stage, Stage.moves_iff, Stage.isOpen, Stage.mayHaveReached,
      Stage.isRecorded, Stage.kept]
  | begin now daa generation =>
    simp only [commitStep, Option.ite_none_right_eq_some, Option.some.injEq] at taken
    obtain ⟨stage, rfl⟩ := taken
    refine ⟨_, rfl, .began now daa generation rfl stage, .still id rfl rfl rfl (fun _ h => h) ?_⟩
    intro has
    cases has
  | recorded =>
    simp only [commitStep] at taken
    split at taken
    · rename_i generation stage
      cases taken
      apply moved_advance <;> simp [stage, Stage.moves_iff, Stage.isOpen, Stage.mayHaveReached,
        Stage.isRecorded, Stage.kept]
    · cases taken
  | notRecorded now =>
    simp only [commitStep] at taken
    split at taken
    · rename_i generation stage
      cases taken
      apply moved_forgot now <;> simp [stage, Stage.isOpen, Stage.mayHaveReached, Stage.kept]
    · cases taken
  | admitted =>
    simp only [commitStep, Option.ite_none_right_eq_some, Option.some.injEq] at taken
    obtain ⟨stage, rfl⟩ := taken
    apply moved_advance <;> simp [stage, Stage.moves_iff, Stage.isOpen, Stage.mayHaveReached,
      Stage.isRecorded, Stage.kept]
  | refused now =>
    simp only [commitStep, Option.ite_none_right_eq_some, Option.some.injEq] at taken
    obtain ⟨stage, rfl⟩ := taken
    apply moved_forgot now <;> simp [stage, Stage.isOpen, Stage.mayHaveReached, Stage.kept]
  | registered originatingContext =>
    simp only [commitStep, Option.ite_none_right_eq_some, Option.some.injEq] at taken
    obtain ⟨stage, rfl⟩ := taken
    have moves : commit.stage.Moves .registered := by
      simp [stage, Stage.moves_iff, Stage.isOpen, Stage.mayHaveReached]
    have keyedNext : KeyedById (lane.outgoing.insert leg.id
        ⟨leg.id, leg.utxoEntries, none, originatingContext⟩) := by
      intro txid record found
      rcases KeyMap.lookup_insert_some.mp found with ⟨rfl, rfl⟩ | ⟨_, old⟩
      · rfl
      · exact keyed txid record old
    refine ⟨_, rfl, .still .registered moves (fun _ => Or.inl (by rw [stage]; rfl)) ?_,
      .still (fun _ => keyedNext) rfl rfl rfl (fun _ h => h) ?_⟩ <;>
    · intro has
      cases has
  | requested =>
    simp only [commitStep, Option.ite_none_right_eq_some, Option.some.injEq] at taken
    obtain ⟨stage, rfl⟩ := taken
    have moves : commit.stage.Moves .requested := by
      simp [stage, Stage.moves_iff, Stage.isOpen, Stage.mayHaveReached]
    refine ⟨_, rfl, .still .requested moves (fun _ => Or.inl (by rw [stage]; rfl)) ?_, ?_⟩
    · intro has
      cases has
    · refine ⟨id, Or.inr ⟨rfl, by rw [stage]; rfl, by rw [stage]; rfl, rfl, rfl, rfl⟩, rfl,
        Finset.Subset.refl _, fun _ h => Or.inl h, ?_⟩
      intro has
      cases has
  | answered =>
    simp only [commitStep, Option.ite_none_right_eq_some, Option.some.injEq] at taken
    obtain ⟨stage, rfl⟩ := taken
    apply moved_advance <;> simp [stage, Stage.moves_iff, Stage.isOpen, Stage.mayHaveReached,
      Stage.isRecorded, Stage.kept]
  | failed error kept =>
    simp only [commitStep] at taken
    split at taken
    · rename_i stage
      simp only [Option.ite_none_right_eq_some, Option.some.injEq] at taken
      obtain ⟨_, rfl⟩ := taken
      apply moved_advance <;> simp [stage, Stage.moves_iff, Stage.isOpen, Stage.mayHaveReached,
        Stage.isRecorded, Stage.kept]
    · rename_i stage
      cases taken
      have moves : commit.stage.Moves (.failed error) := by
        simp [stage, Stage.moves_iff, Stage.isOpen, Stage.mayHaveReached]
      refine ⟨_, rfl, .still _ moves (fun _ => Or.inl (by rw [stage]; rfl)) ?_,
        .still keyedById_erase rfl rfl rfl (fun _ h => h) ?_⟩ <;>
      · intro has
        cases has
    · rename_i stage
      simp only [Option.ite_none_right_eq_some, Option.some.injEq] at taken
      obtain ⟨reached, rfl⟩ := taken
      have moves : commit.stage.Moves (.failed error) := by
        simp [stage, Stage.moves_iff, Stage.isOpen, Stage.mayHaveReached, reached]
      have keyedNext : KeyedById (if kept then lane.outgoing else lane.outgoing.erase leg.id) := by
        cases kept with
        | true => exact keyed
        | false => exact keyedById_erase keyed
      refine ⟨_, rfl, .still _ moves (fun _ => Or.inl (by rw [stage]; rfl)) ?_,
        .still (fun _ => keyedNext) rfl rfl rfl (fun _ h => h) ?_⟩ <;>
      · intro has
        cases has
    · cases taken
  | noteTaken =>
    simp only [commitStep, Option.ite_none_right_eq_some, Option.some.injEq] at taken
    obtain ⟨stage, rfl⟩ := taken
    apply moved_noted keyed Stage.noted <;> simp [stage, Stage.moves_iff, Stage.isOpen,
      Stage.mayHaveReached, Stage.isRecorded, Stage.kept]
  | ownSendSeen now =>
    simp only [commitStep] at taken
    split at taken
    · rename_i kept stage
      cases taken
      have moves : commit.stage.Moves (.seen kept) := by
        simp [stage, Stage.moves_iff, Stage.isOpen, Stage.mayHaveReached]
      have same : (Stage.seen kept).kept = true → commit.stage.kept = true := by
        rw [stage]
        exact id
      refine ⟨_, rfl, .sawOwn now _ moves (by rw [stage]; rfl) rfl (fun _ => by rw [stage]; rfl) same,
        .still id rfl rfl rfl ?_ same⟩
      intro txid member
      obtain ⟨record, found⟩ := KeyMap.mem_iff_lookup.mp member
      exact KeyMap.mem_of_lookup
        ((InFlightSends.settles_ownSendSeen lane.inFlight leg.id [] now).taken txid record found)
    · cases taken
  | noteFailed =>
    simp only [commitStep] at taken
    split at taken
    · rename_i error stage
      split at taken
      · cases taken
        apply moved_noted keyed (Stage.passed error) <;> simp [stage, Stage.moves_iff, Stage.isOpen,
          Stage.mayHaveReached, Stage.isRecorded, Stage.kept]
      · cases taken
        have moves : commit.stage.Moves (.cancelled error) := by
          simp [stage, Stage.moves_iff, Stage.isOpen, Stage.mayHaveReached]
        refine ⟨_, rfl, .noteCancelled _ moves (fun _ => by rw [stage]; rfl) ?_,
          .still id rfl rfl rfl (fun _ h => h) ?_⟩ <;>
        · intro has
          cases has
    · cases taken
  | fateUnknown now =>
    simp only [commitStep] at taken
    split at taken
    · rename_i error stage
      simp only [Option.ite_none_right_eq_some, Option.some.injEq] at taken
      obtain ⟨reached, rfl⟩ := taken
      have moves : commit.stage.Moves .anchored := by
        simp [stage, Stage.moves_iff, Stage.isOpen, Stage.mayHaveReached]
      refine ⟨_, rfl, .fateUnknown now .anchored moves (fun _ => by rw [stage]; rfl) ?_,
        .still id rfl rfl rfl (fun _ h => h) ?_⟩ <;>
      · intro has
        cases has
    · cases taken
  | returned now =>
    simp only [commitStep] at taken
    split at taken
    · rename_i kept stage
      cases taken
      apply moved_returned true now (by rw [stage]; rfl) (fun _ => rfl)
      · rfl
      · exact List.tail_subset _
      · rfl
    · rename_i stage
      cases taken
      exact moved_returned true now (by rw [stage]; rfl) (fun _ => rfl) rfl (fun _ h => h) rfl
    · rename_i error stage
      split at taken
      · cases taken
      · rename_i unsent
        cases taken
        have left : commit.stage.mayHaveReached = true → false = true := by
          intro reached
          rw [stage] at reached
          exact absurd reached unsent
        exact moved_returned false now (by rw [stage]; rfl) left rfl (fun _ h => h) rfl
    · rename_i error kept stage
      cases taken
      have left : commit.stage.mayHaveReached = true → mayHaveReachedANode error = true := by
        intro reached
        rw [stage] at reached
        exact reached
      exact moved_returned _ now (by rw [stage]; rfl) left rfl (fun _ h => h) rfl
    · cases taken
  | dropped now =>
    simp only [commitStep, Option.ite_none_right_eq_some, Option.some.injEq] at taken
    obtain ⟨awaits, rfl⟩ := taken
    apply moved_returned true now
    · cases stage : commit.stage <;> simp [stage, Stage.awaits, Stage.isOpen] at awaits ⊢
    · exact fun _ => rfl
    · rfl
    · exact fun _ h => h
    · rfl

end Lane

/-- What a txid of ours fixes: its leg's payment key and the coins it spends. -/
structure LegName where
  paidTo : String
  inputs : Finset UtxoEntryId
  deriving DecidableEq

def LegCoins.name (coins : LegCoins) : LegName :=
  ⟨coins.paidTo, (ids (coins.direct ++ coins.earlier)).toFinset⟩

def PreparedSend.legName (send : PreparedSend) (leg : PendingTransaction) : LegName :=
  ⟨send.paidTo leg, (ids leg.utxoEntries).toFinset⟩

namespace InFlightSends

variable (names : TransactionId → LegName)

/-- Every record of a leg has the key and the coins its txid fixes. -/
structure Named (s : InFlightSends) : Prop where
  unknown : ∀ leg ∈ s.unknown, leg.coins.name = names leg.txid
  remembered : ∀ txid leg, s.legMeta.lookup txid = some leg → leg.coins.name = names txid
  carried : ∀ txid leg, s.carried.lookup txid = some leg → leg.coins.name = names txid

/-- What the fold and the reads do: no submit begins or returns, no record comes, and what is
    remembered of a leg taken or in its submit stays. -/
structure Effect (s t : InFlightSends) : Prop where
  openCount : ∀ txid, t.log.openCount txid = s.log.openCount txid
  taken : ∀ txid ∈ t.taken, txid ∈ s.taken
  remembered : ∀ txid ∈ s.legMeta, txid ∈ t.taken ∨ 0 < t.log.openCount txid → txid ∈ t.legMeta
  named : ∀ names, Named names s → Named names t

variable {names}

theorem keepsMeta_iff {s : InFlightSends} {txid : TransactionId} : s.keepsMeta txid = true ↔
    s.isUnknown txid = true ∨ txid ∈ s.taken ∨ 0 < s.log.openCount txid := by
  simp [keepsMeta, SubmitLog.mem_submits, or_assoc]

theorem effect_of_settles {s t : InFlightSends} (h : Settles s t) : Effect s t where
  openCount := fun txid => by rw [h.log]
  taken := by
    intro txid member
    obtain ⟨record, found⟩ := KeyMap.mem_iff_lookup.mp member
    exact KeyMap.mem_of_lookup (h.taken txid record found)
  remembered := fun txid member _ => by rw [h.legMeta]; exact member
  named := by
    intro names named
    refine ⟨?_, ?_, fun txid leg found => named.carried txid leg (h.carried txid leg found)⟩
    · intro leg member
      obtain ⟨old, found, same⟩ := h.unknown_mem member
      have coins : old.timeless.coins = leg.timeless.coins := congrArg UnknownLeg.coins same
      have txid : old.timeless.txid = leg.timeless.txid := congrArg UnknownLeg.txid same
      change old.coins = leg.coins at coins
      change old.txid = leg.txid at txid
      rw [← coins, ← txid]
      exact named.unknown old found
    · intro txid leg found
      rw [h.legMeta] at found
      exact named.remembered txid leg found

theorem Effect.trans {s t u : InFlightSends} (st : Effect s t) (tu : Effect t u) :
    Effect s u where
  openCount := fun txid => (tu.openCount txid).trans (st.openCount txid)
  taken := fun txid member => st.taken txid (tu.taken txid member)
  remembered := by
    intro txid member still
    apply tu.remembered txid _ still
    apply st.remembered txid member
    rcases still with taken | isOpen
    · exact Or.inl (tu.taken txid taken)
    · rw [tu.openCount] at isOpen
      exact Or.inr isOpen
  named := fun names named => tu.named names (st.named names named)

theorem effect_convert (now : Nat) (s : InFlightSends) (acc : List TransactionId)
    (txid : TransactionId) : Effect s (convert now (s, acc) txid).1 := by
  unfold convert
  cases found : s.carried.lookup txid with
  | none => exact ⟨fun _ => rfl, fun _ h => h, fun _ h _ => h, fun _ h => h⟩
  | some leg =>
    refine ⟨fun _ => rfl, fun _ h => h, ?_, ?_⟩
    · intro other member _
      exact AList.mem_insert _ |>.mpr (Or.inr member)
    · intro names named
      refine ⟨?_, ?_, ?_⟩
      · intro known member
        rcases List.mem_append.mp member with old | new
        · exact named.unknown known (List.mem_filter.mp old).1
        · rw [List.mem_singleton.mp new]
          exact named.carried txid leg found
      · intro other known remembered
        rcases KeyMap.lookup_insert_some.mp remembered with ⟨rfl, rfl⟩ | ⟨_, old⟩
        · exact named.carried other leg found
        · exact named.remembered other known old
      · intro other known carried
        exact named.carried other known (KeyMap.lookup_erase_some.mp carried).2

theorem effect_foldl_convert (now : Nat) (stale : List TransactionId) (s : InFlightSends)
    (acc : List TransactionId) : Effect s (stale.foldl (convert now) (s, acc)).1 := by
  induction stale generalizing s acc with
  | nil => exact ⟨fun _ => rfl, fun _ h => h, fun _ h _ => h, fun _ h => h⟩
  | cons first rest ih =>
    rw [List.foldl_cons]
    exact (effect_convert now s acc first).trans (ih _ _)

theorem effect_judgeCarried (s : InFlightSends) (proven : Finset TransactionId) (gone : Gone)
    (score now : Nat) : Effect s (s.judgeCarried proven gone score now).2.2 := by
  have inv := endedInv_judging s proven gone score now
  have judged : Effect s { s with carried := (s.judging proven gone score now).carried } := by
    refine ⟨fun _ => rfl, fun _ h => h, fun _ h _ => h, ?_⟩
    intro names named
    refine ⟨named.unknown, named.remembered, ?_⟩
    intro txid leg found
    have clamped := inv.within txid leg found
    change (s.carried.adjust (clampCarried score now)).lookup txid = some leg at clamped
    rw [KeyMap.lookup_adjust] at clamped
    obtain ⟨old, carried, rfl⟩ := Option.map_eq_some_iff.mp clamped
    exact named.carried txid old carried
  exact judged.trans (effect_foldl_convert now _ _ _)

theorem effect_evidence (s : InFlightSends) (evidence : Evidence) :
    Effect s (evidence.apply s) := by
  cases evidence with
  | leave txid now => exact effect_of_settles (settles_leave s txid now)
  | fateSeen txid now => exact effect_of_settles (settles_provenLanded s (· == txid) now)
  | coinsSpent coins now => exact effect_of_settles (settles_retire s _ now)
  | creatorLost txid now => exact effect_of_settles (settles_retire s _ now)
  | doneWith txid now => exact effect_of_settles (settles_doneWith s txid now)
  | settled txid now => exact effect_of_settles (settles_settled s txid now)
  | outputsListed txids now =>
    exact effect_of_settles (settles_provenLanded s (fun txid => decide (txid ∈ txids)) now)
  | retireUnknown spent before now => exact effect_of_settles (settles_retireUnknown s spent before now)
  | judgeCarried proven gone score now => exact effect_judgeCarried s proven gone score now

/-- What a note leaves as it was: every record of a leg. -/
structure SameLegs (s t : InFlightSends) : Prop where
  unknown : t.unknown = s.unknown
  taken : t.taken = s.taken
  carried : t.carried = s.carried
  openCount : ∀ txid, t.log.openCount txid = s.log.openCount txid
  remembered : ∀ txid leg, t.legMeta.lookup txid = some leg → s.legMeta.lookup txid = some leg
  kept : ∀ txid ∈ s.legMeta, s.isUnknown txid = true ∨ txid ∈ s.taken ∨ 0 < s.log.openCount txid →
    txid ∈ t.legMeta

theorem SameLegs.effect {s t : InFlightSends} (h : SameLegs s t) : Effect s t where
  openCount := h.openCount
  taken := fun txid member => by rw [← h.taken]; exact member
  remembered := by
    intro txid member still
    apply h.kept txid member
    rw [h.taken, h.openCount] at still
    exact Or.inr still
  named := fun _ named => ⟨fun leg member => named.unknown leg (h.unknown ▸ member),
    fun txid leg found => named.remembered txid leg (h.remembered txid leg found),
    fun txid leg found => named.carried txid leg (h.carried ▸ found)⟩

theorem sameLegs_pruneMeta (s : InFlightSends) : SameLegs s s.pruneMeta := by
  refine ⟨rfl, rfl, rfl, fun _ => rfl, fun txid leg found => (KeyMap.lookup_retain_some.mp found).1, ?_⟩
  intro txid member keeps
  obtain ⟨leg, found⟩ := KeyMap.mem_iff_lookup.mp member
  exact KeyMap.mem_of_lookup (KeyMap.lookup_retain_some.mpr ⟨found, keepsMeta_iff.mpr keeps⟩)

theorem sameLegs_note (s : InFlightSends) (note : Note) : SameLegs s (note.apply s) := by
  have same : ∀ t : InFlightSends, t.unknown = s.unknown → t.taken = s.taken →
      t.carried = s.carried → t.legMeta = s.legMeta →
      (∀ txid, t.log.openCount txid = s.log.openCount txid) → SameLegs s t := by
    intro t unknown taken carried legMeta openCount
    refine ⟨unknown, taken, carried, openCount, ?_, ?_⟩
    · intro txid leg found
      rw [← legMeta]
      exact found
    · intro txid member _
      rw [legMeta]
      exact member
  cases note with
  | enter txid send => exact same _ rfl rfl rfl rfl fun _ => rfl
  | accepted txid daa now => exact same _ rfl rfl rfl rfl fun _ => rfl
  | spent coins daa now => exact same _ rfl rfl rfl rfl fun _ => rfl
  | spentWithheld score margin now => exact same _ rfl rfl rfl rfl fun _ => rfl
  | takeLanded key now => exact same _ rfl rfl rfl rfl fun _ => rfl
  | beginRead => exact same _ rfl rfl rfl rfl fun _ => rfl
  | endRead floor => exact same _ rfl rfl rfl rfl fun txid => SubmitLog.openCount_prune _ txid
  | reopen => exact same _ rfl rfl rfl rfl fun _ => rfl
  | snapshot => exact sameLegs_pruneMeta s

end InFlightSends

end Kaspaverse.Chain
