import Mathlib
import Kaspaverse.Chain.FileFromNode

namespace Kaspaverse.Chain

open Rounds Sweeping

/-- One record, its coins met in another order. -/
structure SameRecord (a b : OutgoingTransaction) : Prop where
  id : a.id = b.id
  acceptedAt : a.acceptedAt = b.acceptedAt
  context : a.originatingContext = b.originatingContext
  coins : a.utxoEntries.Perm b.utxoEntries

def SameRecords (a b : KeyMap TransactionId OutgoingTransaction) : Prop :=
  ∀ txid, Option.Rel SameRecord (a.lookup txid) (b.lookup txid)

/-- The same sample, its maps met in another order. -/
structure Reordered (r r' : Sample) : Prop where
  addresses : r.addresses = r'.addresses
  unknownBefore : r.unknownBefore = r'.unknownBefore
  scoreBefore : r.scoreBefore = r'.scoreBefore
  entries : r.entries = r'.entries
  currentDaaScore : r.currentDaaScore = r'.currentDaaScore
  maturityPeriod : r.maturityPeriod = r'.maturityPeriod
  context : r.context = r'.context
  nowJudged : r.nowJudged = r'.nowJudged
  nowRetired : r.nowRetired = r'.nowRetired
  before : (r.before.map fun record => (record.id, record.isAccepted)).Perm
    (r'.before.map fun record => (record.id, record.isAccepted))
  returned : SameRecords r.returned r'.returned
  outgoing : SameRecords r.outgoing r'.outgoing
  carried : ∀ txid, r.carrying.carried.lookup txid = r'.carrying.carried.lookup txid
  carriedForDaa : r.carrying.carriedForDaa = r'.carrying.carriedForDaa
  unknown : r.knowing.unknown = r'.knowing.unknown

/-- Two reads that decide the same. -/
structure SameVerdicts (r r' : Sample) : Prop where
  ended : ∀ txid, txid ∈ r.judgement.ended ↔ txid ∈ r'.judgement.ended
  converted : ∀ txid, txid ∈ r.judgement.converted ↔ txid ∈ r'.judgement.converted
  settled : ∀ txid, txid ∈ r.settling.settled.map Prod.fst ↔ txid ∈ r'.settling.settled.map Prod.fst
  mayLand : r.settling.mayLand = r'.settling.mayLand
  proven : r.settling.proven = r'.settling.proven
  retired : r.retired.unknown = r'.retired.unknown

theorem SameRecords.mem_iff {a b : KeyMap TransactionId OutgoingTransaction}
    (same : SameRecords a b) (txid : TransactionId) : txid ∈ a ↔ txid ∈ b := by
  have related := same txid
  rw [KeyMap.mem_iff_lookup, KeyMap.mem_iff_lookup]
  cases ha : a.lookup txid <;> cases hb : b.lookup txid <;> rw [ha, hb] at related <;> cases related
  all_goals simp

theorem SameRecords.ids_subset {a b : KeyMap TransactionId OutgoingTransaction}
    (same : SameRecords a b) : ∀ txid ∈ a.values.map (·.id), txid ∈ b.values.map (·.id) := by
  intro txid member
  obtain ⟨record, inside, rfl⟩ := List.mem_map.mp member
  obtain ⟨key, found⟩ := KeyMap.mem_values_iff.mp inside
  have related := same key
  rw [found] at related
  cases hb : b.lookup key with
  | none =>
    rw [hb] at related
    cases related
  | some other =>
    rw [hb] at related
    cases related with
    | some pair =>
      rw [pair.id]
      exact List.mem_map_of_mem (KeyMap.mem_values_iff.mpr ⟨key, hb⟩)

theorem SameRecord.symm {a b : OutgoingTransaction} (same : SameRecord a b) : SameRecord b a :=
  ⟨same.id.symm, same.acceptedAt.symm, same.context.symm, same.coins.symm⟩

theorem SameRecords.symm {a b : KeyMap TransactionId OutgoingTransaction}
    (same : SameRecords a b) : SameRecords b a := by
  intro txid
  have related := same txid
  cases ha : a.lookup txid <;> cases hb : b.lookup txid <;> rw [ha, hb] at related <;> cases related
  · exact Option.Rel.none
  · rename_i pair
    exact Option.Rel.some pair.symm

theorem SameRecords.ids {a b : KeyMap TransactionId OutgoingTransaction}
    (same : SameRecords a b) : (a.values.map (·.id)).toFinset = (b.values.map (·.id)).toFinset := by
  ext txid
  rw [List.mem_toFinset, List.mem_toFinset]
  exact ⟨same.ids_subset txid, same.symm.ids_subset txid⟩

theorem SameRecords.keys {a b : KeyMap TransactionId OutgoingTransaction}
    (same : SameRecords a b) : a.keys.toFinset = b.keys.toFinset := by
  ext txid
  rw [List.mem_toFinset, List.mem_toFinset]
  exact same.mem_iff txid

theorem SameRecords.retain {a b : KeyMap TransactionId OutgoingTransaction}
    (same : SameRecords a b) {keep keep' : TransactionId → OutgoingTransaction → Bool}
    (agree : ∀ txid record record', SameRecord record record' → keep txid record = keep' txid record') :
    SameRecords (KeyMap.retain keep a) (KeyMap.retain keep' b) := by
  intro txid
  have related := same txid
  simp only [KeyMap.lookup_retain]
  cases ha : a.lookup txid <;> cases hb : b.lookup txid <;> rw [ha, hb] at related <;> cases related
  · exact Option.Rel.none
  · rename_i left right pair
    simp only [Option.filter, agree txid left right pair]
    split
    · exact Option.Rel.some pair
    · exact Option.Rel.none

theorem SameRecords.union {a b c d : KeyMap TransactionId OutgoingTransaction}
    (ab : SameRecords a b) (cd : SameRecords c d) : SameRecords (a ∪ c) (b ∪ d) := by
  intro txid
  have split : ∀ m n : KeyMap TransactionId OutgoingTransaction,
      (m ∪ n).lookup txid = (m.lookup txid).or (n.lookup txid) := by
    intro m n
    apply Option.ext
    intro record
    rw [lookup_union_some, Option.or_eq_some_iff, ← AList.lookup_eq_none]
  rw [split, split]
  have left := ab txid
  cases ha : a.lookup txid <;> cases hb : b.lookup txid <;> rw [ha, hb] at left <;> cases left
  · exact cd txid
  · rename_i pair
    exact Option.Rel.some pair

theorem eq_of_rel {α : Type} {a b : Option α} (related : Option.Rel (· = ·) a b) : a = b := by
  cases related with
  | none => rfl
  | some same => rw [same]

theorem rel_of_eq {α : Type} {a b : Option α} (same : a = b) : Option.Rel (· = ·) a b := by
  subst same
  cases a with
  | none => exact Option.Rel.none
  | some v => exact Option.Rel.some rfl

namespace Reordered

variable {r r' : Sample}

theorem scoreRead (h : Reordered r r') : r.scoreRead = r'.scoreRead := by
  simp only [Sample.scoreRead, h.scoreBefore, h.currentDaaScore]

theorem evidence (h : Reordered r r') : r.evidence = r'.evidence := by
  simp only [Sample.evidence, h.addresses, h.entries, h.scoreRead, Sample.indexedAfter,
    h.maturityPeriod]

theorem listed (h : Reordered r r') : r.listed = r'.listed := by
  simp only [Sample.listed, h.entries]

theorem mem_landedBefore (r : Sample) (txid : TransactionId) : txid ∈ r.landedBefore ↔
    (txid, true) ∈ r.before.map fun record => (record.id, record.isAccepted) := by
  simp only [Sample.landedBefore, List.mem_toFinset, List.mem_map, List.mem_filter, Prod.mk.injEq]
  constructor
  · rintro ⟨record, ⟨member, accepted⟩, named⟩
    exact ⟨record, member, named, accepted⟩
  · rintro ⟨record, member, named, accepted⟩
    exact ⟨record, ⟨member, accepted⟩, named⟩

theorem landedBefore (h : Reordered r r') : r.landedBefore = r'.landedBefore := by
  ext txid
  rw [mem_landedBefore, mem_landedBefore]
  exact h.before.mem_iff

theorem beforeIds (h : Reordered r r') :
    (r.before.map (·.id)).toFinset = (r'.before.map (·.id)).toFinset := by
  have perm := h.before.map Prod.fst
  rw [List.map_map, List.map_map] at perm
  ext txid
  rw [List.mem_toFinset, List.mem_toFinset]
  exact perm.mem_iff

theorem mayLandBefore (h : Reordered r r') : r.mayLandBefore = r'.mayLandBefore := by
  simp only [Sample.mayLandBefore, h.beforeIds, h.returned.ids, h.outgoing.keys, h.landedBefore]

theorem mayLandCarried (h : Reordered r r') : r.mayLandCarried = r'.mayLandCarried := by
  have keys : r.carrying.carried.keys.toFinset = r'.carrying.carried.keys.toFinset := by
    ext txid
    rw [List.mem_toFinset, List.mem_toFinset]
    change txid ∈ r.carrying.carried ↔ txid ∈ r'.carrying.carried
    rw [KeyMap.mem_iff_lookup, KeyMap.mem_iff_lookup, h.carried]
  simp only [Sample.mayLandCarried, h.mayLandBefore, keys]

theorem gone (h : Reordered r r') : r.gone = r'.gone := by
  funext coin proven
  simp only [Sample.gone, h.evidence, h.mayLandCarried]

theorem judging (h : Reordered r r') :
    Alike (· = ·) (r.carrying.judging r.listed r.gone r.scoreRead r.nowJudged).sweep
      (r'.carrying.judging r'.listed r'.gone r'.scoreRead r'.nowJudged).sweep := by
  rw [judging_sweepAll, judging_sweepAll]
  apply sweepAll_alike
  · intro swept txid leg leg' same
    rw [h.gone, same]
  · refine ⟨h.listed, ?_⟩
    intro txid
    apply rel_of_eq
    change (KeyMap.adjust _ _).lookup txid = (KeyMap.adjust _ _).lookup txid
    rw [KeyMap.lookup_adjust, KeyMap.lookup_adjust, h.carried, h.scoreRead, h.nowJudged]

theorem judging_carried (h : Reordered r r') (txid : TransactionId) :
    (r.carrying.judging r.listed r.gone r.scoreRead r.nowJudged).carried.lookup txid =
      (r'.carrying.judging r'.listed r'.gone r'.scoreRead r'.nowJudged).carried.lookup txid :=
  eq_of_rel (h.judging.standing txid)

theorem ended (h : Reordered r r') (txid : TransactionId) :
    txid ∈ r.judgement.ended ↔ txid ∈ r'.judgement.ended := by
  have inv := endedInv_judging r.carrying r.listed r.gone r.scoreRead r.nowJudged
  have inv' := endedInv_judging r'.carrying r'.listed r'.gone r'.scoreRead r'.nowJudged
  refine (inv.gone txid).trans (Iff.trans ?_ (inv'.gone txid).symm)
  rw [mem_adjust, mem_adjust, KeyMap.mem_iff_lookup, KeyMap.mem_iff_lookup, KeyMap.mem_iff_lookup,
    KeyMap.mem_iff_lookup, h.carried, h.judging_carried]

theorem converted (h : Reordered r r') (txid : TransactionId) :
    txid ∈ r.judgement.converted ↔ txid ∈ r'.judgement.converted := by
  refine mem_converted.trans (Iff.trans ?_ mem_converted.symm)
  rw [h.judging_carried, h.carriedForDaa, h.scoreRead, h.nowJudged]

theorem mayLandJudged (h : Reordered r r') : r.mayLandJudged = r'.mayLandJudged := by
  ext txid
  simp only [Sample.mayLandJudged, Finset.mem_sdiff, List.mem_toFinset, List.mem_append,
    h.mayLandCarried, h.ended txid, h.converted txid]

theorem judged (h : Reordered r r') : SameRecords r.judged r'.judged := by
  apply SameRecords.union
  · apply h.outgoing.retain
    intro txid record record' same
    simp only [OutgoingTransaction.isAccepted, same.acceptedAt, h.returned.mem_iff txid]
  · apply h.returned.retain
    intro txid record record' same
    simp only [same.context, h.context, h.landedBefore]

theorem settling (h : Reordered r r') (keyed : Keyed r.judged) (keyed' : Keyed r'.judged) :
    r.settling.proven = r'.settling.proven ∧
    (∀ txid, txid ∈ r.settling.settled.map Prod.fst ↔ txid ∈ r'.settling.settled.map Prod.fst) ∧
    r.settling.mayLand = r'.settling.mayLand := by
  have both := @settleAll_inStep r.evidence r.listed
    ⟨r.judged, r.mayLandJudged, r.carriedJudgement.2.1, []⟩ keyed rfl
  have both' := @settleAll_inStep r'.evidence r'.listed
    ⟨r'.judged, r'.mayLandJudged, r'.carriedJudgement.2.1, []⟩ keyed' rfl
  have start : Alike SameRecord
      (⟨r.judged, r.carriedJudgement.2.1⟩ : Sweep TransactionId OutgoingTransaction)
      ⟨r'.judged, r'.carriedJudgement.2.1⟩ := ⟨h.judging.swept, h.judged⟩
  have agree : ∀ proven txid record record', SameRecord record record' →
      settleFires r.evidence r.mayLandJudged proven txid record =
        settleFires r'.evidence r'.mayLandJudged proven txid record' := by
    intro proven txid record record' same
    simp only [settleFires, settles, h.evidence, h.mayLandJudged, same.id]
    congr 1
    exact same.coins.any_eq
  have alike := sweepAll_alike agree start
  have members : ∀ txid, txid ∈ r.settling.judged ↔ txid ∈ r'.settling.judged := by
    intro txid
    have left := both.judged txid
    have right := both'.judged txid
    have related := alike.standing txid
    change r.settling.judged.lookup txid = _ at left
    change r'.settling.judged.lookup txid = _ at right
    rw [← left, ← right] at related
    rw [KeyMap.mem_iff_lookup, KeyMap.mem_iff_lookup]
    cases ha : r.settling.judged.lookup txid <;> cases hb : r'.settling.judged.lookup txid <;>
      rw [ha, hb] at related <;> cases related
    all_goals simp
  have settled : ∀ txid, txid ∈ r.settling.settled.map Prod.fst ↔
      txid ∈ r'.settling.settled.map Prod.fst := by
    intro txid
    refine (both.settled.gone txid).trans (Iff.trans ?_ (both'.settled.gone txid).symm)
    exact and_congr (h.judged.mem_iff txid) (not_congr (members txid))
  refine ⟨?_, settled, ?_⟩
  · exact both.proven.trans (alike.swept.trans both'.proven.symm)
  · ext txid
    refine (both.settled.mayLand txid).trans (Iff.trans ?_ (both'.settled.mayLand txid).symm)
    rw [show (⟨r.judged, r.mayLandJudged, r.carriedJudgement.2.1, []⟩ : Settling).mayLand =
      r'.mayLandJudged from h.mayLandJudged]
    exact and_congr Iff.rfl (not_congr (settled txid))

theorem keyed (h : Reordered r r') (keyed : Keyed r.judged) : Keyed r'.judged := by
  intro txid record found
  have related := h.judged txid
  rw [found] at related
  cases before : r.judged.lookup txid with
  | none =>
    rw [before] at related
    cases related
  | some other =>
    rw [before] at related
    cases related with
    | some pair => exact pair.id.symm.trans (keyed txid other before)

theorem verdicts (h : Reordered r r') (keyed : Keyed r.judged) : SameVerdicts r r' := by
  obtain ⟨proven, settled, mayLand⟩ := h.settling keyed (h.keyed keyed)
  refine ⟨h.ended, h.converted, settled, mayLand, proven, ?_⟩
  simp only [Sample.retired, InFlightSends.retireUnknown, InFlightSends.retire,
    InFlightSends.clampUnknown, h.unknown, h.evidence, h.unknownBefore, h.nowRetired, proven, mayLand]

end Reordered

theorem ended_sound {chain : NodeChain} {accepted : Set TransactionId} {r : Sample}
    (answers : chain.Answers accepted r.evidence) (knows : chain.Knows r) :
    ∀ txid ∈ r.judgement.ended, Ledger.Settled chain.world accepted txid := by
  intro txid ended
  have inv := endedInv_judging r.carrying r.listed r.gone r.scoreRead r.nowJudged
  exact carried_sound answers knows txid (inv.proven txid ended)

theorem settled_sound {chain : NodeChain} {accepted : Set TransactionId} {r : Sample}
    (answers : chain.Answers accepted r.evidence) (knows : chain.Knows r) :
    ∀ txid ∈ r.settling.settled.map Prod.fst, Ledger.Settled chain.world accepted txid := by
  intro txid settled
  have keyed : Keyed r.judged := fun txid record found => (knows.judged found).1
  have both := @settleAll_inStep r.evidence r.listed
    ⟨r.judged, r.mayLandJudged, r.carriedJudgement.2.1, []⟩ keyed rfl
  exact settling_sound answers knows txid (both.settled.proven txid settled)

def homeAddress : Address := ⟨0, [7]⟩

def homeCoin (txid : TransactionId) (score : Nat) : UtxoEntryReference where
  id := ⟨txid, 0⟩
  amount := 5
  address := some homeAddress
  scriptVersion := 0
  script := []
  blockDaaScore := score
  isCoinbase := false
  covenantId := none

def carriedLeg (coin : UtxoEntryReference) : LegMeta := ⟨"kaspa:qq", [coin], [], [], 0, 0⟩

/-- A read that finds `entries` while transaction 5, which spends the coin of transaction 1, is
    carried since the epoch. -/
def carriedSample (entries : List UtxoEntryReference) (now : Nat) : Sample where
  addresses := [homeAddress]
  returned := ∅
  floor := 0
  unknownBefore := 0
  before := []
  scoreBefore := some 200
  entries := entries
  currentDaaScore := 201
  newestDaaScore := 201
  maturityPeriod := some 100
  context := 0
  logged := .default 0
  outgoing := ∅
  carrying := { InFlightSends.default 0 with
    carried := AList.insert 5 (carriedLeg (homeCoin 1 10)) ∅ }
  nowJudged := now
  knowing := .default 0
  nowRetired := now

/-- Transactions 5 and 6 both spend the coin transaction 1 creates. -/
def conflict : NodeChain where
  world := {
    inputs := fun txid => {coin | (txid = 5 ∨ txid = 6) ∧ coin = ⟨1, 0⟩}
    outputs := fun txid => {coin | coin = ⟨txid, 0⟩}
    creator := fun coin => coin.transactionId
    creator_of_output := by
      intro txid coin output
      have same : coin = ⟨txid, 0⟩ := output
      rw [same] }
  creator := fun _ => rfl
  addressOf := fun _ => some homeAddress
  createdAt := fun coin => if coin = ⟨1, 0⟩ then some 10 else none

theorem conflict_answers :
    conflict.Answers {1, 6} (carriedSample [homeCoin 6 150] 0).evidence where
  lists := by
    intro id
    have listed : id ∈ (carriedSample [homeCoin 6 150] 0).evidence.unspent ↔ id = ⟨6, 0⟩ := by
      simp [Sample.evidence, carriedSample, ids, homeCoin]
    rw [listed]
    constructor
    · intro same
      subst same
      refine ⟨⟨⟨6, by simp, rfl⟩, ?_⟩, homeAddress, by simp [Sample.evidence, carriedSample], rfl⟩
      rintro ⟨txid, _, _, same⟩
      have differs : (⟨6, 0⟩ : UtxoEntryId) ≠ ⟨1, 0⟩ := by decide
      exact differs same
    · rintro ⟨⟨⟨txid, accepted, output⟩, unspent⟩, _⟩
      rcases accepted with rfl | rfl
      · exact absurd ⟨6, by simp, Or.inr rfl, output⟩ unspent
      · exact output
  score := ⟨200, by decide, by decide⟩
  indexed := by
    intro id score created _
    by_cases same : id = ⟨1, 0⟩
    · exact ⟨1, by simp, same⟩
    · change (if id = ⟨1, 0⟩ then some 10 else none) = some score at created
      rw [if_neg same] at created
      cases created

theorem conflict_knows : conflict.Knows (carriedSample [homeCoin 6 150] 0) where
  carried := by
    intro txid leg found coin member
    rcases KeyMap.lookup_insert_some.mp found with ⟨rfl, rfl⟩ | ⟨_, nothing⟩
    · have same : coin = homeCoin 1 10 := by simpa [carriedLeg, LegMeta.inputs] using member
      subst same
      exact ⟨⟨Or.inl rfl, rfl⟩, fun address h => h, fun _ => rfl⟩
    · cases nothing
  returned := by
    intro txid record found
    cases found
  outgoing := by
    intro txid record found
    cases found
  unknown := by
    intro leg member
    cases member

theorem notMem_held_of_coins {r : Sample} {coin : UtxoEntryReference} (filed : coin ∈ r.coins) :
    coin.id ∉ r.held ∧ coin.id.transactionId ∉ r.settling.mayLand := by
  have kept := (List.mem_filter.mp filed).2
  rw [Bool.and_eq_true] at kept
  exact ⟨of_decide_eq_true kept.1, of_decide_eq_true kept.2⟩

theorem mem_withheldSpent {r : Sample} {kept : SpentByUs} (remembered : kept ∈ r.carrying.spentByUs)
    (ahead : r.scoreRead < saturatingAdd kept.seenAtDaa r.indexedAfter)
    (young : r.nowJudged - min kept.seenAtMs r.nowJudged < SPENT_FOR_MS) :
    kept.coin ∈ r.withheldSpent.1 := by
  have memory : r.carriedJudgement.2.2.spentByUs = r.carrying.spentByUs :=
    judgeCarried_spentByUs r.carrying r.listed r.gone r.scoreRead r.nowJudged
  apply List.mem_map.mpr
  refine ⟨{ kept with seenAtMs := min kept.seenAtMs r.nowJudged }, ?_, rfl⟩
  apply List.mem_filter.mpr
  refine ⟨List.mem_filter.mpr ⟨?_, decide_eq_true young⟩, decide_eq_true ahead⟩
  rw [memory]
  exact List.mem_map.mpr ⟨kept, remembered, rfl⟩

end Kaspaverse.Chain
