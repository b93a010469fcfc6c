import Mathlib
import Kaspaverse.Chain.LaneRecords

namespace Kaspaverse.Chain

open InFlightSends

theorem countP_set {α : Type*} {list : List α} {c : Nat} {a b : α} (p : α → Bool)
    (atC : list[c]? = some a) :
    (list.set c b).countP p + (if p a then 1 else 0) = list.countP p + if p b then 1 else 0 := by
  obtain ⟨inside, rfl⟩ := List.getElem?_eq_some_iff.mp atC
  have split : list = list.take c ++ list[c] :: list.drop (c + 1) := by
    rw [List.cons_getElem_drop_succ, List.take_append_drop]
  rw [List.set_eq_take_append_cons_drop, if_pos inside]
  conv_rhs => rw [split]
  simp only [List.countP_append, List.countP_cons]
  omega

theorem mem_set_cases {α : Type*} {list : List α} {c : Nat} {a b : α}
    (member : a ∈ list.set c b) : a ∈ list ∨ a = b := List.mem_or_eq_of_mem_set member

theorem partitionInputs_name (coins : List UtxoEntryReference) (earlier : List TransactionId) :
    (ids ((partitionInputs coins earlier).1 ++ (partitionInputs coins earlier).2)).toFinset =
      (ids coins).toFinset := by
  ext id
  simp only [partitionInputs, List.partition_eq_filter_filter, List.mem_toFinset, mem_ids,
    List.mem_append, List.mem_filter]
  constructor
  · rintro ⟨coin, either, same⟩
    rcases either with own | early
    · exact ⟨coin, own.1, same⟩
    · exact ⟨coin, early.1, same⟩
  · rintro ⟨coin, member, same⟩
    refine ⟨coin, ?_, same⟩
    cases own : decide (coin.id.transactionId ∉ earlier) &&
      decide (coin.blockDaaScore ≠ unacceptedDaaScore) with
    | true => exact Or.inl ⟨member, rfl⟩
    | false =>
      have early : coin.id.transactionId ∈ earlier ∨ coin.blockDaaScore = unacceptedDaaScore := by
        simp only [Bool.and_eq_false_iff, decide_eq_false_iff_not, not_not] at own
        exact own
      exact Or.inr ⟨member, by simpa using early⟩

theorem legMeta_name (send : PreparedSend) (leg : PendingTransaction)
    (earlier : List TransactionId) (now daa : Nat) :
    (send.legMeta leg earlier now daa).coins.name = send.legName leg := by
  simp only [LegCoins.name, LegMeta.coins, PreparedSend.legMeta, PreparedSend.legName,
    partitionInputs_name]

theorem unknownLeg_name (send : PreparedSend) (leg : PendingTransaction)
    (earlier : List TransactionId) (now : Nat) :
    (send.unknownLeg leg earlier now).coins.name = send.legName leg := by
  simp only [LegCoins.name, UnknownLeg.coins, PreparedSend.unknownLeg, PreparedSend.legName,
    partitionInputs_name]

theorem mem_unknown_fateUnknown {s : InFlightSends} {leg known : UnknownLeg}
    (member : known ∈ (s.fateUnknown leg).unknown) :
    known ∈ s.unknown ∨ known.coins = leg.coins ∧ known.txid = leg.txid := by
  rcases List.mem_append.mp member with old | new
  · exact Or.inl (List.mem_filter.mp old).1
  · rw [List.mem_singleton.mp new]
    exact Or.inr ⟨rfl, rfl⟩

theorem mem_unknown_submitReturned {s : InFlightSends} {txid : TransactionId} {mayHaveLeft : Bool}
    {now : Nat} {known : UnknownLeg}
    (member : known ∈ (s.submitReturned txid mayHaveLeft now).unknown) :
    known ∈ s.unknown ∨
      ∃ leg, s.legMeta.lookup txid = some leg ∧ known.coins = leg.coins ∧ known.txid = txid := by
  cases mayHaveLeft with
  | false => exact Or.inl member
  | true =>
    simp only [submitReturned, if_true, anchorUnrecorded] at member
    split at member
    · split at member
      · rename_i leg found
        rcases mem_unknown_fateUnknown member with old | ⟨coins, named⟩
        · exact Or.inl old
        · exact Or.inr ⟨leg, found, coins, named⟩
      · exact Or.inl member
    · exact Or.inl member

theorem carried_submitReturned {s : InFlightSends} {txid other : TransactionId} {mayHaveLeft : Bool}
    {now : Nat} {leg : LegMeta}
    (found : (s.submitReturned txid mayHaveLeft now).carried.lookup other = some leg) :
    s.carried.lookup other = some leg := by
  cases mayHaveLeft with
  | false => exact found
  | true =>
    simp only [submitReturned, if_true, anchorUnrecorded] at found
    have erased : (s.carried.erase txid).lookup other = some leg := by
      split at found
      · split at found
        · exact found
        · exact found
      · exact found
    exact (KeyMap.lookup_erase_some.mp erased).2

theorem named_submitReturned {names : TransactionId → LegName} {s : InFlightSends}
    (named : Named names s) (txid : TransactionId) (mayHaveLeft : Bool) (now : Nat) :
    Named names (s.submitReturned txid mayHaveLeft now) := by
  have frame := submitReturned_frame s txid mayHaveLeft now
  refine ⟨?_, ?_, fun other leg found => named.carried other leg (carried_submitReturned found)⟩
  · intro known member
    rcases mem_unknown_submitReturned member with old | ⟨leg, found, coins, same⟩
    · exact named.unknown known old
    · rw [coins, same]
      exact named.remembered txid leg found
  · intro other leg found
    rw [frame.2.2.2] at found
    exact named.remembered other leg found

theorem named_forgetLeg {names : TransactionId → LegName} {s : InFlightSends}
    (named : Named names s) (txid : TransactionId) (now : Nat) :
    Named names (s.forgetLeg txid now) := by
  apply named_submitReturned
  refine ⟨named.unknown, ?_, named.carried⟩
  intro other leg found
  exact named.remembered other leg (KeyMap.lookup_erase_some.mp found).2

theorem openCount_submitReturned (s : InFlightSends) (txid other : TransactionId)
    (mayHaveLeft : Bool) (now : Nat) :
    (s.submitReturned txid mayHaveLeft now).log.openCount other =
      if txid = other then s.log.openCount other - 1 else s.log.openCount other := by
  rw [(submitReturned_frame s txid mayHaveLeft now).1, SubmitLog.openCount_prune,
    SubmitLog.openCount_note]

namespace Lane

/-- The submit log has an open entry for each leg in its submit, and what is written of a leg is
    remembered while its submit or a node's record of it lasts. -/
structure Inv (lane : Lane) : Prop where
  keyed : KeyedById lane.outgoing
  opened : ∀ txid, lane.inFlight.log.openCount txid = lane.commits.countP (Commit.isOpenOn txid)
  remembered : ∀ txid, 0 < lane.inFlight.log.openCount txid → txid ∈ lane.inFlight.legMeta
  takenRemembered : ∀ txid ∈ lane.inFlight.taken, txid ∈ lane.inFlight.legMeta

/-- Every leg on record or still to go has the key and the coins its txid fixes. -/
structure Conforms (names : TransactionId → LegName) (lane : Lane) : Prop where
  named : Named names lane.inFlight
  sends : ∀ commit ∈ lane.commits, ∀ leg ∈ commit.pending, commit.send.legName leg = names leg.id

/-- The txid a step of a commit forgets: its record was not written, or its submit not admitted. -/
def forgotten (lane : Lane) : LaneEvent → Option TransactionId
  | .commit c (.notRecorded _) => lane.commits[c]?.bind fun commit => commit.pending.head?.map (·.id)
  | .commit c (.refused _) => lane.commits[c]?.bind fun commit => commit.pending.head?.map (·.id)
  | _ => none

/-- A leg is forgotten only while no node is known to have taken its txid and no other attempt of
    it is in its submit. -/
def ForgetsAlone (lane : Lane) (event : LaneEvent) : Prop :=
  ∀ txid ∈ lane.forgotten event,
    txid ∉ lane.inFlight.taken ∧ lane.inFlight.log.openCount txid ≤ 1

/-- Whether the event can forget a leg. -/
def forgets : LaneEvent → Bool
  | .commit _ (.notRecorded _) => true
  | .commit _ (.refused _) => true
  | _ => false

theorem forgetsAlone_of_not_forgets {event : LaneEvent} (not : forgets event = false) (lane : Lane) :
    lane.ForgetsAlone event := by
  intro txid gone
  unfold forgotten at gone
  split at gone
  · cases not
  · cases not
  · cases gone

variable {names : TransactionId → LegName}

theorem isOpenOn_iff {txid : TransactionId} {commit : Commit} {leg : PendingTransaction}
    (head : commit.pending.head? = some leg) :
    commit.isOpenOn txid = true ↔ commit.stage.isOpen = true ∧ leg.id = txid := by
  simp [Commit.isOpenOn, head]

/-- Where no submit begins or returns and what is remembered stays, the invariant stays. -/
theorem Inv.during {lane next : Lane} (inv : lane.Inv) {c : Nat} {commit after : Commit}
    (atC : lane.commits[c]? = some commit) (commits : next.commits = lane.commits.set c after)
    (same : ∀ txid, after.isOpenOn txid = commit.isOpenOn txid)
    (keyed : KeyedById next.outgoing)
    (openCount : ∀ txid, next.inFlight.log.openCount txid = lane.inFlight.log.openCount txid)
    (taken : ∀ txid ∈ next.inFlight.taken, txid ∈ lane.inFlight.legMeta)
    (remembered : ∀ txid ∈ lane.inFlight.legMeta,
      txid ∈ next.inFlight.taken ∨ 0 < next.inFlight.log.openCount txid →
        txid ∈ next.inFlight.legMeta) : next.Inv := by
  refine ⟨keyed, ?_, ?_, ?_⟩
  · intro txid
    have counted := countP_set (b := after) (Commit.isOpenOn txid) atC
    rw [same] at counted
    rw [openCount, inv.opened, commits]
    omega
  · intro txid isOpen
    have before := isOpen
    rw [openCount] at before
    exact remembered txid (inv.remembered txid before) (Or.inr isOpen)
  · intro txid member
    exact remembered txid (taken txid member) (Or.inl member)

theorem Inv.effect {lane next : Lane} (inv : lane.Inv) {c : Nat} {commit after : Commit}
    (atC : lane.commits[c]? = some commit) (commits : next.commits = lane.commits.set c after)
    (same : ∀ txid, after.isOpenOn txid = commit.isOpenOn txid)
    (keyed : KeyedById next.outgoing) (effect : Effect lane.inFlight next.inFlight) : next.Inv :=
  inv.during atC commits same keyed effect.openCount
    (fun txid taken => inv.takenRemembered txid (effect.taken txid taken)) effect.remembered

theorem isOpenOn_head {txid : TransactionId} {commit : Commit} {leg : PendingTransaction}
    (head : commit.pending.head? = some leg) {stage : Stage} (same : stage.isOpen = commit.stage.isOpen) :
    ({ commit with stage := stage } : Commit).isOpenOn txid = commit.isOpenOn txid := by
  simp only [Commit.isOpenOn, head, same]

theorem isOpenOn_closed {txid : TransactionId} {commit : Commit} (closed : commit.stage.isOpen = false) :
    commit.isOpenOn txid = false := by
  simp only [Commit.isOpenOn, closed, Bool.false_and]

theorem effect_noteCancelled (s : InFlightSends) (txid : TransactionId)
    (coins : List UtxoEntryReference) : Effect s (s.noteCancelled txid coins) :=
  ⟨fun _ => rfl, fun _ h => h, fun _ h _ => h, fun _ named => ⟨named.unknown, named.remembered, named.carried⟩⟩

theorem named_fateUnknown {s : InFlightSends} {leg : UnknownLeg} (before : Named names s)
    (named : leg.coins.name = names leg.txid) : Named names (s.fateUnknown leg) := by
  refine ⟨?_, before.remembered, before.carried⟩
  intro known member
  rcases mem_unknown_fateUnknown member with old | ⟨coins, txid⟩
  · exact before.unknown known old
  · rw [coins, txid]
    exact named

/-- A submit that begins. -/
theorem Inv.began {lane next : Lane} (inv : lane.Inv) {c : Nat} {commit : Commit}
    {leg : PendingTransaction} (atC : lane.commits[c]? = some commit)
    (head : commit.pending.head? = some leg) (signing : commit.stage = .signing)
    (now daa generation : Nat) (keyed : KeyedById next.outgoing)
    (commits : next.commits = lane.commits.set c { commit with stage := .recording generation })
    (inFlight : next.inFlight = ((lane.inFlight.rememberLeg leg.id
      (commit.send.legMeta leg commit.earlier now daa)).submitting leg.id
        (ids leg.utxoEntries)).pruneMeta) : next.Inv := by
  let remembered := lane.inFlight.rememberLeg leg.id (commit.send.legMeta leg commit.earlier now daa)
  have openCount : ∀ txid, next.inFlight.log.openCount txid =
      lane.inFlight.log.openCount txid + if leg.id = txid then 1 else 0 := by
    intro txid
    rw [inFlight]
    exact SubmitLog.openCount_submitting _ _ _ _
  have pruned := sameLegs_pruneMeta (remembered.submitting leg.id (ids leg.utxoEntries))
  have keeps : ∀ txid, txid = leg.id ∨ txid ∈ lane.inFlight.legMeta →
      txid ∈ next.inFlight.taken ∨ 0 < next.inFlight.log.openCount txid →
      txid ∈ next.inFlight.legMeta := by
    intro txid either still
    rw [inFlight] at still ⊢
    apply pruned.kept txid
    · exact AList.mem_insert _ |>.mpr either
    · exact Or.inr still
  refine ⟨keyed, ?_, ?_, ?_⟩
  · intro txid
    have counted := countP_set (b := { commit with stage := .recording generation })
      (Commit.isOpenOn txid) atC
    have before : commit.isOpenOn txid = false := isOpenOn_closed (by rw [signing]; rfl)
    have after : ({ commit with stage := .recording generation } : Commit).isOpenOn txid =
        decide (leg.id = txid) := by
      simp [Commit.isOpenOn, head, Stage.isOpen, Bool.beq_eq_decide_eq]
    rw [openCount, inv.opened, commits]
    simp only [before, after, decide_eq_true_eq, Bool.false_eq_true, if_false] at counted
    omega
  · intro txid isOpen
    apply keeps txid _ (Or.inr isOpen)
    rw [openCount] at isOpen
    by_cases same : leg.id = txid
    · exact Or.inl same.symm
    · rw [if_neg same] at isOpen
      exact Or.inr (inv.remembered txid isOpen)
  · intro txid taken
    apply keeps txid _ (Or.inl taken)
    rw [inFlight] at taken
    exact Or.inr (inv.takenRemembered txid taken)

/-- A submit that returns, or a leg that is forgotten. -/
theorem Inv.closed {lane next : Lane} (inv : lane.Inv) {c : Nat} {commit after : Commit}
    {leg : PendingTransaction} (atC : lane.commits[c]? = some commit)
    (head : commit.pending.head? = some leg) (isOpen : commit.stage.isOpen = true)
    (closed : after.stage.isOpen = false) (keyed : KeyedById next.outgoing)
    (commits : next.commits = lane.commits.set c after)
    (openCount : ∀ txid, next.inFlight.log.openCount txid =
      if leg.id = txid then lane.inFlight.log.openCount txid - 1 else lane.inFlight.log.openCount txid)
    (taken : next.inFlight.taken = lane.inFlight.taken)
    (remembered : ∀ txid ∈ lane.inFlight.legMeta,
      txid ∈ next.inFlight.taken ∨ 0 < next.inFlight.log.openCount txid →
        txid ∈ next.inFlight.legMeta) : next.Inv := by
  refine ⟨keyed, ?_, ?_, ?_⟩
  · intro txid
    have counted := countP_set (b := after) (Commit.isOpenOn txid) atC
    have before : commit.isOpenOn txid = decide (leg.id = txid) := by
      simp [Commit.isOpenOn, head, isOpen, Bool.beq_eq_decide_eq]
    rw [before, isOpenOn_closed closed] at counted
    rw [openCount, inv.opened, commits]
    by_cases same : leg.id = txid
    · simp only [same, decide_true, if_true, Bool.false_eq_true, if_false] at counted ⊢
      omega
    · simp only [same, decide_false, if_false, Bool.false_eq_true] at counted ⊢
      omega
  · intro txid isOpen
    apply remembered txid _ (Or.inr isOpen)
    apply inv.remembered
    have before := openCount txid
    split at before <;> omega
  · intro txid member
    apply remembered txid _ (Or.inl member)
    rw [taken] at member
    exact inv.takenRemembered txid member

theorem Inv.moved {lane next : Lane} (inv : lane.Inv) {c : Nat} {commit after : Commit}
    {leg : PendingTransaction} {step : CommitStep} (atC : lane.commits[c]? = some commit)
    (head : commit.pending.head? = some leg) (keyed : KeyedById next.outgoing)
    (commits : next.commits = lane.commits.set c after)
    (moved : Moved lane.inFlight commit leg step next.inFlight after)
    (alone : ∀ now, step = .notRecorded now ∨ step = .refused now →
      leg.id ∉ lane.inFlight.taken ∧ lane.inFlight.log.openCount leg.id ≤ 1) : next.Inv := by
  have member : commit ∈ lane.commits := List.mem_of_getElem? atC
  generalize inFlight : next.inFlight = t at moved
  cases moved with
  | began now daa generation _ signing =>
    exact inv.began atC head signing now daa generation keyed commits inFlight
  | forgot now isForget isOpen =>
    obtain ⟨untaken, single⟩ := alone now isForget
    have openCount : ∀ txid, next.inFlight.log.openCount txid = if leg.id = txid then
        lane.inFlight.log.openCount txid - 1 else lane.inFlight.log.openCount txid := by
      intro txid
      rw [inFlight]
      exact openCount_submitReturned _ _ _ _ _
    have closed : ({ commit with stage := .over } : Commit).stage.isOpen = false := rfl
    apply inv.closed atC head isOpen closed keyed commits openCount
    · rw [inFlight, taken_forgetLeg]
    · intro txid remembered still
      have other : txid ≠ leg.id := by
        rintro rfl
        rcases still with taken | isOpen
        · rw [inFlight, taken_forgetLeg] at taken
          exact untaken taken
        · rw [openCount, if_pos rfl] at isOpen
          omega
      rw [inFlight]
      change txid ∈ lane.inFlight.legMeta.erase leg.id
      rw [AList.mem_erase]
      exact ⟨other, remembered⟩
  | returned mayHaveLeft now _ isOpen _ closed =>
    have frame := submitReturned_frame lane.inFlight leg.id mayHaveLeft now
    apply inv.closed atC head isOpen closed keyed commits
    · intro txid
      rw [inFlight]
      exact openCount_submitReturned _ _ _ _ _
    · rw [inFlight]
      exact frame.2.1
    · intro txid remembered _
      rw [inFlight, frame.2.2.2]
      exact remembered
  | tookNote record stage same isOpen moves =>
    have remembered : leg.id ∈ lane.inFlight.legMeta := by
      apply inv.remembered
      rw [inv.opened, List.countP_pos_iff]
      exact ⟨commit, member, (isOpenOn_iff head).mpr ⟨isOpen, rfl⟩⟩
    apply inv.during atC commits (fun txid => isOpenOn_head head moves.isOpen) keyed
    · intro txid
      rw [inFlight]
      rfl
    · intro txid taken
      rw [inFlight] at taken
      change txid ∈ lane.inFlight.taken.insert record.id record at taken
      rw [AList.mem_insert, same] at taken
      rcases taken with rfl | old
      · exact remembered
      · exact inv.takenRemembered txid old
    · intro txid before _
      rw [inFlight]
      exact before
  | sawOwn now stage moves isOpen =>
    apply inv.effect atC commits (fun txid => isOpenOn_head head moves.isOpen) keyed
    rw [inFlight]
    exact effect_of_settles (settles_ownSendSeen _ _ _ _)
  | noteCancelled stage moves =>
    apply inv.effect atC commits (fun txid => isOpenOn_head head moves.isOpen) keyed
    rw [inFlight]
    exact effect_noteCancelled _ _ _
  | fateUnknown now stage moves =>
    apply inv.during atC commits (fun txid => isOpenOn_head head moves.isOpen) keyed
    · intro txid
      rw [inFlight]
      rfl
    · intro txid taken
      rw [inFlight] at taken
      exact inv.takenRemembered txid taken
    · intro txid before _
      rw [inFlight]
      exact before
  | still stage moves =>
    apply inv.effect atC commits (fun txid => isOpenOn_head head moves.isOpen) keyed
    rw [inFlight]
    exact ⟨fun _ => rfl, fun _ h => h, fun _ h _ => h, fun _ h => h⟩

theorem Inv.aside {lane next : Lane} (inv : lane.Inv) (commits : next.commits = lane.commits)
    (keyed : KeyedById next.outgoing) (effect : Effect lane.inFlight next.inFlight) : next.Inv := by
  refine ⟨keyed, ?_, ?_, ?_⟩
  · intro txid
    rw [effect.openCount, inv.opened, commits]
  · intro txid isOpen
    have before := isOpen
    rw [effect.openCount] at before
    exact effect.remembered txid (inv.remembered txid before) (Or.inr isOpen)
  · intro txid taken
    exact effect.remembered txid (inv.takenRemembered txid (effect.taken txid taken)) (Or.inl taken)

theorem step_cases {lane next : Lane} {event : LaneEvent} (taken : lane.step event = some next) :
    (∃ send, event = .prepared send ∧
      next = { lane with commits := lane.commits ++ [.start send] }) ∨
    (∃ c step commit leg, event = .commit c step ∧ lane.commits[c]? = some commit ∧
      commit.pending.head? = some leg ∧ lane.commitStep c commit leg step = some next) ∨
    (∃ evidence, event = .evidence evidence ∧ next = lane.evidence evidence) ∨
    (∃ note, event = .note note ∧ next = { lane with inFlight := note.apply lane.inFlight }) ∨
    (∃ txid now, event = .pendingSeen txid now ∧
      next = { lane with inFlight := lane.inFlight.ownSendSeen txid [] now }) ∨
    (∃ outgoing, event = .processor outgoing ∧ KeyedById outgoing ∧
      next = { lane with outgoing := outgoing }) := by
  cases event with
  | prepared send => exact Or.inl ⟨send, rfl, (Option.some.inj taken).symm⟩
  | commit c step =>
    apply Or.inr
    apply Or.inl
    simp only [Lane.step] at taken
    split at taken
    · cases taken
    · rename_i commit atC
      obtain ⟨leg, head, stepped⟩ := Option.bind_eq_some_iff.mp taken
      exact ⟨c, step, commit, leg, rfl, atC, head, stepped⟩
  | evidence evidence =>
    exact Or.inr (Or.inr (Or.inl ⟨evidence, rfl, (Option.some.inj taken).symm⟩))
  | note note => exact Or.inr (Or.inr (Or.inr (Or.inl ⟨note, rfl, (Option.some.inj taken).symm⟩)))
  | pendingSeen txid now =>
    exact Or.inr (Or.inr (Or.inr (Or.inr (Or.inl ⟨txid, now, rfl, (Option.some.inj taken).symm⟩))))
  | processor outgoing =>
    simp only [Lane.step, Option.ite_none_right_eq_some, Option.some.injEq] at taken
    obtain ⟨keyed, rfl⟩ := taken
    refine Or.inr (Or.inr (Or.inr (Or.inr (Or.inr ⟨outgoing, rfl, ?_, rfl⟩))))
    intro txid record found
    exact keyed ⟨txid, record⟩ (KeyMap.mem_entries_iff.mpr found)

theorem alone_of_forgets {lane : Lane} {c : Nat} {commit : Commit} {leg : PendingTransaction}
    {step : CommitStep} (atC : lane.commits[c]? = some commit)
    (head : commit.pending.head? = some leg) (alone : lane.ForgetsAlone (.commit c step)) (now : Nat)
    (isForget : step = .notRecorded now ∨ step = .refused now) :
    leg.id ∉ lane.inFlight.taken ∧ lane.inFlight.log.openCount leg.id ≤ 1 := by
  apply alone
  rcases isForget with rfl | rfl <;> simp [forgotten, atC, head]

theorem inv_step (lane : Lane) (event : LaneEvent) (next : Lane) (inv : lane.Inv)
    (alone : lane.ForgetsAlone event) (taken : lane.step event = some next) : next.Inv := by
  rcases step_cases taken with ⟨send, rfl, rfl⟩ | ⟨c, step, commit, leg, rfl, atC, head, stepped⟩ |
    ⟨evidence, rfl, rfl⟩ | ⟨note, rfl, rfl⟩ | ⟨txid, now, rfl, rfl⟩ | ⟨outgoing, rfl, keyed, rfl⟩
  · refine ⟨inv.keyed, ?_, inv.remembered, inv.takenRemembered⟩
    intro txid
    have signing : (Commit.start send).isOpenOn txid = false := isOpenOn_closed rfl
    rw [inv.opened, List.countP_append, List.countP_singleton, signing]
    rfl
  · obtain ⟨after, commits, moved, watched⟩ := commitStep_moved inv.keyed stepped
    exact inv.moved atC head (watched.keyed inv.keyed) commits moved (alone_of_forgets atC head alone)
  · exact inv.aside rfl inv.keyed (effect_evidence lane.inFlight evidence)
  · exact inv.aside rfl inv.keyed (sameLegs_note lane.inFlight note).effect
  · exact inv.aside rfl inv.keyed (effect_of_settles (settles_ownSendSeen lane.inFlight txid [] now))
  · exact inv.aside rfl keyed ⟨fun _ => rfl, fun _ h => h, fun _ h _ => h, fun _ h => h⟩

/-- The lane of an engine that starts on the records `s`. -/
def opened (s : InFlightSends) : Lane := ⟨s, ∅, [], ∅, ∅, ∅⟩

end Lane

namespace InFlightSends

theorem loadLegs_log (forms : TextForms) (records : List SendsStore.LegRecord) (s : InFlightSends) :
    (records.foldl (loadLeg forms) s).log = s.log ∧ (records.foldl (loadLeg forms) s).taken = s.taken := by
  induction records generalizing s with
  | nil => exact ⟨rfl, rfl⟩
  | cons record rest ih =>
    rw [List.foldl_cons, (ih _).1, (ih _).2]
    rcases loadLeg_cases forms s record with ⟨_, same⟩ | ⟨txid, leg, _, _, same⟩ |
      ⟨txid, leg, _, _, same⟩
    · rw [same]
      exact ⟨rfl, rfl⟩
    · rw [same]
      exact ⟨rfl, rfl⟩
    · rw [same]
      exact ⟨rfl, rfl⟩

end InFlightSends

namespace Lane

theorem inv_opened (forms : TextForms) (carriedForDaa : Nat) (sends : SendsStore.Sends)
    (spent : List SendsStore.SpentRecord) : (opened (load forms carriedForDaa sends spent)).Inv := by
  obtain ⟨log, taken⟩ := loadLegs_log forms sends.legs (default carriedForDaa)
  refine ⟨?_, ?_, ?_, ?_⟩
  · intro txid record found
    cases found
  · intro txid
    change (sends.legs.foldl (loadLeg forms) (default carriedForDaa)).log.openCount txid = 0
    rw [log]
    rfl
  · intro txid isOpen
    change 0 < (sends.legs.foldl (loadLeg forms) (default carriedForDaa)).log.openCount txid at isOpen
    rw [log] at isOpen
    cases isOpen
  · intro txid member
    change txid ∈ (sends.legs.foldl (loadLeg forms) (default carriedForDaa)).taken at member
    rw [taken] at member
    exact absurd member (AList.notMem_empty txid)

end Lane

end Kaspaverse.Chain
