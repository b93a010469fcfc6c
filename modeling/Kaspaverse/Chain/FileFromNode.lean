import Kaspaverse.Chain.Judgement

namespace Kaspaverse.Chain

open Rounds Sweeping

/-- What one read samples, each part under its own lock. -/
structure Sample where
  /-- The addresses asked. -/
  addresses : List Address
  /-- The copy of the returned submits, the floor and the mark, at the snapshot. -/
  returned : KeyMap TransactionId OutgoingTransaction
  floor : Nat
  unknownBefore : Nat
  /-- The processor's records before the request. -/
  before : List OutgoingTransaction
  scoreBefore : Option Nat
  entries : List UtxoEntryReference
  currentDaaScore : Nat
  newestDaaScore : Nat
  maturityPeriod : Option Nat
  context : Nat
  /-- The sends as the logged legs are read. -/
  logged : InFlightSends
  /-- The processor's records at the decision. -/
  outgoing : KeyMap TransactionId OutgoingTransaction
  /-- The sends as the carried ones are judged, and the clock then. -/
  carrying : InFlightSends
  nowJudged : Nat
  /-- The sends as the legs of unknown fate are judged, and the clock then. -/
  knowing : InFlightSends
  nowRetired : Nat

namespace Sample

def indexedAfter (r : Sample) : Nat := r.maturityPeriod.getD (u64Max / 2)

def scoreRead (r : Sample) : Nat := min (r.scoreBefore.getD r.currentDaaScore) r.currentDaaScore

def tagDaaScore (r : Sample) : Nat := max r.newestDaaScore r.currentDaaScore

def evidence (r : Sample) : ReadEvidence where
  asked := r.addresses.toFinset
  unspent := (ids r.entries).toFinset
  scoreRead := r.scoreRead
  indexedAfter := r.indexedAfter

def listed (r : Sample) : Finset TransactionId :=
  ((ids r.entries).map (·.transactionId)).toFinset

def landedBefore (r : Sample) : Finset TransactionId :=
  ((r.before.filter (·.isAccepted)).map (·.id)).toFinset

/-- The sends of ours that may land, before this answer is read. -/
def mayLandBefore (r : Sample) : Finset TransactionId :=
  ((r.before.map (·.id)).toFinset ∪ (r.returned.values.map (·.id)).toFinset ∪
    r.outgoing.keys.toFinset) \ r.landedBefore

/-- The records the answer may settle: those the processor holds untagged whose submit returned,
    and those another lane took. -/
def judged (r : Sample) : KeyMap TransactionId OutgoingTransaction :=
  (r.outgoing.retain fun txid record => !record.isAccepted && decide (txid ∈ r.returned)) ∪
    r.returned.retain fun txid record =>
      record.originatingContext != r.context && decide (txid ∉ r.landedBefore)

def mayLandCarried (r : Sample) : Finset TransactionId :=
  r.mayLandBefore ∪ r.carrying.carried.keys.toFinset

/-- Whether the answer proves a coin of a carried send spent. -/
def gone (r : Sample) : Gone := fun coin proven => r.evidence.spent coin r.mayLandCarried proven

def carriedJudgement (r : Sample) : CarriedJudgement × Finset TransactionId × InFlightSends :=
  r.carrying.judgeCarried r.listed r.gone r.scoreRead r.nowJudged

def judgement (r : Sample) : CarriedJudgement := r.carriedJudgement.1

def mayLandJudged (r : Sample) : Finset TransactionId :=
  r.mayLandCarried \ (r.judgement.ended ++ r.judgement.converted).toFinset

def withheldSpent (r : Sample) : List UtxoEntryId × InFlightSends :=
  r.carriedJudgement.2.2.spentWithheld r.scoreRead r.indexedAfter r.nowJudged

/-- The sends as the judgement of the carried ones leaves them. -/
def carried (r : Sample) : InFlightSends :=
  (r.withheldSpent.2.noteSpentAt r.judgement.spent r.tagDaaScore r.nowJudged).outputsListed
    r.listed r.nowJudged

def settling (r : Sample) : Settling :=
  settleAll r.evidence r.listed ⟨r.judged, r.mayLandJudged, r.carriedJudgement.2.1, []⟩

/-- What settling one record does to the sends, under a lock of its own. -/
def settleIn (r : Sample) (s : InFlightSends) (settled : TransactionId × List UtxoEntryId)
    (now : Nat) : InFlightSends :=
  (s.settled settled.1 now).noteSpentAt settled.2 r.tagDaaScore now

/-- The sends as the judgement of the legs of unknown fate leaves them. -/
def retired (r : Sample) : InFlightSends :=
  r.knowing.retireUnknown (fun coin => r.evidence.spent coin r.settling.mayLand r.settling.proven)
    r.unknownBefore r.nowRetired

def held (r : Sample) : List UtxoEntryId :=
  r.logged.log.loggedFrom r.floor ++ (r.before.flatMap fun record => ids record.utxoEntries) ++
    (r.returned.values.flatMap fun record => ids record.utxoEntries) ++
    (r.outgoing.values.flatMap fun record => ids record.utxoEntries) ++
    r.carriedJudgement.2.2.carriedInputs ++ r.withheldSpent.1

/-- The coins handed to `extend_from_scan`. -/
def coins (r : Sample) : List UtxoEntryReference :=
  r.entries.filter fun coin =>
    decide (coin.id ∉ r.held) && decide (coin.id.transactionId ∉ r.settling.mayLand)

end Sample

/-- The chain a node answers from: what each transaction spends and creates, where each coin pays
    and at which score it was created. -/
structure NodeChain where
  world : Ledger.World TransactionId UtxoEntryId
  creator : ∀ coin, world.creator coin = coin.transactionId
  addressOf : UtxoEntryId → Option Address
  createdAt : UtxoEntryId → Option Nat

namespace NodeChain

variable (chain : NodeChain)

/-- The answer is the unspent set of `accepted`, restricted to the asked addresses, at a score no
    lower than the one read. -/
structure Answers (accepted : Set TransactionId) (evidence : ReadEvidence) : Prop where
  lists : ∀ id, id ∈ evidence.unspent ↔ id ∈ Ledger.unspent chain.world accepted ∧
    ∃ address ∈ evidence.asked, chain.addressOf id = some address
  score : ∃ score, evidence.scoreRead ≤ score ∧ score < unacceptedDaaScore
  indexed : ∀ id score, chain.createdAt id = some score →
    score + evidence.indexedAfter ≤ evidence.scoreRead → id ∈ Ledger.created chain.world accepted

/-- A copy we hold of a coin `txid` spends. -/
structure Copy (txid : TransactionId) (coin : UtxoEntryReference) : Prop where
  input : coin.id ∈ chain.world.inputs txid
  address : ∀ address, coin.address = some address → chain.addressOf coin.id = some address
  score : coin.blockDaaScore ≠ unacceptedDaaScore → chain.createdAt coin.id = some coin.blockDaaScore

/-- What a read samples of our sends is true of the chain. -/
structure Knows (r : Sample) : Prop where
  carried : ∀ txid leg, r.carrying.carried.lookup txid = some leg →
    ∀ coin ∈ leg.inputs, chain.Copy txid coin
  returned : ∀ txid record, r.returned.lookup txid = some record →
    record.id = txid ∧ ∀ coin ∈ record.utxoEntries, chain.Copy txid coin
  outgoing : ∀ txid record, r.outgoing.lookup txid = some record →
    record.id = txid ∧ ∀ coin ∈ record.utxoEntries, chain.Copy txid coin
  unknown : ∀ leg ∈ r.knowing.unknown, ∀ coin ∈ leg.inputs, chain.Copy leg.txid coin

variable {chain}

/-- **A coin the answer proves spent settles whatever spends it.** -/
theorem settled_of_spent_coin {accepted : Set TransactionId} {evidence : ReadEvidence}
    (answers : chain.Answers accepted evidence) {txid : TransactionId} {coin : UtxoEntryReference}
    (copy : chain.Copy txid coin) {mayLand proven : Finset TransactionId}
    (sound : ∀ t ∈ proven, Ledger.Settled chain.world accepted t)
    (spent : evidence.spent coin mayLand proven = true) :
    Ledger.Settled chain.world accepted txid := by
  simp only [ReadEvidence.spent, Bool.and_eq_true, decide_eq_true_eq] at spent
  obtain ⟨⟨⟨asked, unlisted⟩, _⟩, indexed⟩ := spent
  obtain ⟨address, isAddress, wasAsked⟩ := (Option.any_eq_true ..).mp asked
  have notUnspent : coin.id ∉ Ledger.unspent chain.world accepted := by
    intro unspent
    apply unlisted
    exact (answers.lists coin.id).mpr
      ⟨unspent, address, of_decide_eq_true wasAsked, copy.address address isAddress⟩
  by_cases scoreless : coin.blockDaaScore = unacceptedDaaScore
  · rw [if_pos scoreless] at indexed
    have creator := sound coin.id.transactionId (of_decide_eq_true indexed)
    rw [← chain.creator] at creator
    exact Ledger.settled_of_settled_creator copy.input creator notUnspent
  · rw [if_neg scoreless] at indexed
    have within := of_decide_eq_true indexed
    obtain ⟨score, above, real⟩ := answers.score
    have room : evidence.scoreRead < u64Max := by
      unfold unacceptedDaaScore at real
      omega
    have old := (saturatingAdd_le room).mp within
    have made := answers.indexed coin.id _ (copy.score scoreless) old
    apply Ledger.settled_of_spent copy.input
    by_contra unspentStill
    exact notUnspent ⟨made, unspentStill⟩

theorem settled_of_listed {accepted : Set TransactionId} {r : Sample}
    (answers : chain.Answers accepted r.evidence) :
    ∀ txid ∈ r.listed, Ledger.Settled chain.world accepted txid := by
  intro txid member
  obtain ⟨id, inside, rfl⟩ := List.mem_map.mp (List.mem_toFinset.mp member)
  have unspent := (answers.lists id).mp (List.mem_toFinset.mpr inside)
  have accepted_ := Ledger.creator_mem_of_created unspent.1.1
  rw [chain.creator] at accepted_
  exact Or.inl accepted_

end NodeChain

theorem lookup_union_some {κ υ : Type} [DecidableEq κ] {a b : KeyMap κ υ} {k : κ} {v : υ} :
    (a ∪ b).lookup k = some v ↔ a.lookup k = some v ∨ k ∉ a ∧ b.lookup k = some v :=
  AList.mem_lookup_union

theorem Sample.judged_some {r : Sample} {txid : TransactionId} {record : OutgoingTransaction}
    (found : r.judged.lookup txid = some record) :
    r.outgoing.lookup txid = some record ∨ r.returned.lookup txid = some record := by
  rcases lookup_union_some.mp found with left | ⟨_, right⟩
  · exact Or.inl (KeyMap.lookup_retain_some.mp left).1
  · exact Or.inr (KeyMap.lookup_retain_some.mp right).1

theorem NodeChain.Knows.judged {chain : NodeChain} {r : Sample} (knows : chain.Knows r)
    {txid : TransactionId} {record : OutgoingTransaction}
    (found : r.judged.lookup txid = some record) :
    record.id = txid ∧ ∀ coin ∈ record.utxoEntries, chain.Copy txid coin := by
  rcases Sample.judged_some found with left | right
  · exact knows.outgoing txid record left
  · exact knows.returned txid record right

theorem carriedFires_input {gone : Gone} {proven : Finset TransactionId} {txid : TransactionId}
    {leg : LegMeta} (fired : carriedFires gone proven txid leg = true) :
    txid ∈ proven ∨ ∃ coin ∈ leg.inputs, gone coin proven = true := by
  by_cases known : txid ∈ proven
  · exact Or.inl known
  · apply Or.inr
    simp only [carriedFires, carriedEnd, if_neg known] at fired
    split at fired
    · cases fired
    · rename_i some_
      obtain ⟨id, inside⟩ := List.exists_mem_of_ne_nil _ some_
      obtain ⟨coin, member, _⟩ := mem_ids.mp inside
      have both := List.mem_filter.mp member
      exact ⟨coin, both.1, both.2⟩

/-- Everything the judgement of the carried sends proves is settled. -/
theorem carried_sound {chain : NodeChain} {accepted : Set TransactionId} {r : Sample}
    (answers : chain.Answers accepted r.evidence) (knows : chain.Knows r) :
    ∀ txid ∈ r.carriedJudgement.2.1, Ledger.Settled chain.world accepted txid := by
  have fired : ∀ proven txid leg, (∀ t ∈ proven, Ledger.Settled chain.world accepted t) →
      (r.carrying.carried.adjust (clampCarried r.scoreRead r.nowJudged)).lookup txid = some leg →
      carriedFires r.gone proven txid leg = true → Ledger.Settled chain.world accepted txid := by
    intro proven txid leg sound found fired
    rw [KeyMap.lookup_adjust] at found
    obtain ⟨old, wasCarried, rfl⟩ := Option.map_eq_some_iff.mp found
    rcases carriedFires_input fired with known | ⟨coin, member, gone⟩
    · exact sound txid known
    · exact NodeChain.settled_of_spent_coin answers (knows.carried txid old wasCarried coin member)
        sound gone
  have all := sweepAll_sound (carriedFires r.gone) (Ledger.Settled chain.world accepted)
    ⟨r.carrying.carried.adjust (clampCarried r.scoreRead r.nowJudged), r.listed⟩
    (NodeChain.settled_of_listed answers) fired
  rw [← judging_sweepAll] at all
  exact all

/-- **Everything the read proves is settled.** -/
theorem settling_sound {chain : NodeChain} {accepted : Set TransactionId} {r : Sample}
    (answers : chain.Answers accepted r.evidence) (knows : chain.Knows r) :
    ∀ txid ∈ r.settling.proven, Ledger.Settled chain.world accepted txid := by
  have keyed : Keyed r.judged := fun txid record found => (knows.judged found).1
  have both := @settleAll_inStep r.evidence r.listed
    ⟨r.judged, r.mayLandJudged, r.carriedJudgement.2.1, []⟩ keyed rfl
  have fired : ∀ proven txid record, (∀ t ∈ proven, Ledger.Settled chain.world accepted t) →
      r.judged.lookup txid = some record →
      settleFires r.evidence r.mayLandJudged proven txid record = true →
      Ledger.Settled chain.world accepted txid := by
    intro proven txid record sound found fired
    obtain ⟨named, copies⟩ := knows.judged found
    simp only [settleFires, settles, Bool.or_eq_true, decide_eq_true_eq, List.any_eq_true] at fired
    rcases fired with known | ⟨coin, member, spent⟩
    · rw [named] at known
      exact sound txid known
    · exact NodeChain.settled_of_spent_coin answers (copies coin member) sound spent
  have all := sweepAll_sound (settleFires r.evidence r.mayLandJudged)
    (Ledger.Settled chain.world accepted) ⟨r.judged, r.carriedJudgement.2.1⟩
    (carried_sound answers knows) fired
  rw [Sample.settling, both.proven]
  exact all

theorem timeless_clamp (leg : UnknownLeg) (now : Nat) :
    ({ leg with sinceUnixMs := min leg.sinceUnixMs now } : UnknownLeg).timeless = leg.timeless := rfl

/-- A leg of unknown fate leaves a read for a coin the answer proves spent, or with its window. -/
theorem retired_cases {r : Sample} {leg : UnknownLeg} (known : leg ∈ r.knowing.unknown)
    (gone : leg.timeless ∉ r.retired.unknown.map UnknownLeg.timeless) :
    (∃ coin ∈ leg.inputs, r.evidence.spent coin r.settling.mayLand r.settling.proven = true) ∨
      leg.held = [] ∧ EARLIER_ANCHOR_FOR_MS ≤ r.nowRetired - min leg.sinceUnixMs r.nowRetired := by
  have dropped : ({ leg with sinceUnixMs := min leg.sinceUnixMs r.nowRetired } : UnknownLeg) ∉
      r.retired.unknown := by
    intro kept
    apply gone
    rw [← timeless_clamp leg r.nowRetired]
    exact List.mem_map_of_mem kept
  have clamped : ({ leg with sinceUnixMs := min leg.sinceUnixMs r.nowRetired } : UnknownLeg) ∈
      (r.knowing.clampUnknown r.nowRetired).unknown := List.mem_map.mpr ⟨leg, known, rfl⟩
  have failed := mt (fun keep => List.mem_filter.mpr ⟨clamped, keep⟩) dropped
  simp only [Bool.and_eq_true, Bool.not_eq_true', Bool.and_eq_false_iff, Bool.or_eq_true,
    decide_eq_true_eq, decide_eq_false_iff_not, List.any_eq_false, List.isEmpty_eq_false_iff] at failed
  by_cases spent : ∃ coin ∈ leg.inputs,
      r.evidence.spent coin r.settling.mayLand r.settling.proven = true
  · exact Or.inl spent
  · apply Or.inr
    have none_ : ∀ coin ∈ leg.inputs,
        ¬ r.evidence.spent coin r.settling.mayLand r.settling.proven = true := by
      intro coin member proves
      exact spent ⟨coin, member, proves⟩
    by_contra window
    apply failed
    refine ⟨Or.inr none_, ?_⟩
    by_cases own : leg.held = []
    · apply Or.inr
      have young := mt (And.intro own) window
      omega
    · exact Or.inl own

end Kaspaverse.Chain
