import Kaspaverse.Library.Ledger
import Kaspaverse.Library.Sweep
import Kaspaverse.Chain.Settles

namespace Kaspaverse.Chain

open Rounds Sweeping

/-- What one read of the node's unspent set can prove. -/
structure ReadEvidence where
  asked : Finset Address
  unspent : Finset UtxoEntryId
  scoreRead : Nat
  indexedAfter : Nat

/-- Whether the answer proves `coin` spent. -/
def ReadEvidence.spent (evidence : ReadEvidence) (coin : UtxoEntryReference)
    (mayLand proven : Finset TransactionId) : Bool :=
  let indexed :=
    if coin.blockDaaScore = unacceptedDaaScore then decide (coin.id.transactionId ∈ proven)
    else decide (saturatingAdd coin.blockDaaScore evidence.indexedAfter ≤ evidence.scoreRead)
  let settledCreator := decide (coin.id.transactionId ∈ proven) ||
    decide (coin.id.transactionId ∉ mayLand)
  coin.address.any (fun address => decide (address ∈ evidence.asked)) &&
    decide (coin.id ∉ evidence.unspent) && settledCreator && indexed

structure CarriedJudgement where
  spent : List UtxoEntryId
  ended : List TransactionId
  converted : List TransactionId

/-- The judgement of the carried sends on its way. -/
structure Judging where
  carried : KeyMap TransactionId LegMeta
  proven : Finset TransactionId
  spent : List UtxoEntryId
  ended : List TransactionId

abbrev Gone := UtxoEntryReference → Finset TransactionId → Bool

/-- The coins a carried send's end proves spent, or `none` where nothing ends it. -/
def carriedEnd (gone : Gone) (proven : Finset TransactionId) (txid : TransactionId)
    (leg : LegMeta) : Option (List UtxoEntryId) :=
  if txid ∈ proven then some (ids leg.inputs)
  else
    let missing := ids (leg.inputs.filter fun coin => gone coin proven)
    if missing = [] then none else some missing

/-- The sends that end this round, with the coins their end proves spent. -/
def endings (gone : Gone) (st : Judging) : List (TransactionId × List UtxoEntryId) :=
  st.carried.entries.filterMap fun entry =>
    (carriedEnd gone st.proven entry.1 entry.2).map fun spent => (entry.1, spent)

def judgeRound (gone : Gone) (st : Judging) : Option Judging :=
  if endings gone st = [] then none
  else some
    { carried := st.carried.retain fun txid leg => (carriedEnd gone st.proven txid leg).isNone
      proven := st.proven ∪ ((endings gone st).map Prod.fst).toFinset
      spent := st.spent ++ (endings gone st).flatMap Prod.snd
      ended := st.ended ++ (endings gone st).map Prod.fst }

/-- A saved time later than the read's own is taken as the read's. -/
def clampCarried (score now : Nat) (leg : LegMeta) : LegMeta :=
  { leg with sinceDaa := min leg.sinceDaa score, sinceUnixMs := min leg.sinceUnixMs now }

def isStale (carriedForDaa score now : Nat) (leg : LegMeta) : Bool :=
  decide (CARRIED_FOR_MS ≤ now - leg.sinceUnixMs) &&
    decide (saturatingAdd leg.sinceDaa carriedForDaa ≤ score)

/-- A send carried for a day becomes a leg of unknown fate. -/
def convert (now : Nat) (st : InFlightSends × List TransactionId) (txid : TransactionId) :
    InFlightSends × List TransactionId :=
  match st.1.carried.lookup txid with
  | none => st
  | some leg =>
    let uncarried := { st.1 with carried := st.1.carried.erase txid }
    let anchored := uncarried.fateUnknown (leg.unknownLeg txid now)
    ({ anchored with legMeta := anchored.legMeta.insert txid leg }, st.2 ++ [txid])

namespace InFlightSends

/-- The loop of `judgeCarried`, over the clamped sends. -/
def judging (s : InFlightSends) (proven : Finset TransactionId) (gone : Gone) (score now : Nat) :
    Judging :=
  rounds (judgeRound gone) s.carried.entries.length
    ⟨s.carried.adjust (clampCarried score now), proven, [], []⟩

/-- Judge the carried sends against a read's answer, parents first. -/
def judgeCarried (s : InFlightSends) (proven : Finset TransactionId) (gone : Gone)
    (score now : Nat) : CarriedJudgement × Finset TransactionId × InFlightSends :=
  let judged := s.judging proven gone score now
  let stale := (judged.carried.entries.filter fun entry =>
    isStale s.carriedForDaa score now entry.2).map Sigma.fst
  let converted := stale.foldl (convert now) ({ s with carried := judged.carried }, [])
  (⟨judged.spent, judged.ended, converted.2⟩, judged.proven, converted.1)

end InFlightSends

/-- The settle loop on its way: the records to judge, and each settled txid with the coins its
    settling proves spent. -/
structure Settling where
  judged : KeyMap TransactionId OutgoingTransaction
  mayLand : Finset TransactionId
  proven : Finset TransactionId
  settled : List (TransactionId × List UtxoEntryId)

/-- Whether the answer settles `record`. -/
def settles (evidence : ReadEvidence) (mayLand proven : Finset TransactionId)
    (record : OutgoingTransaction) : Bool :=
  decide (record.id ∈ proven) || record.utxoEntries.any fun coin => evidence.spent coin mayLand proven

def settleOne (evidence : ReadEvidence) (listed : Finset TransactionId) (st : Settling)
    (txid : TransactionId) : Settling :=
  match st.judged.lookup txid with
  | none => st
  | some record =>
    let mayLand := st.mayLand.erase txid
    let proven := insert txid st.proven
    let gone := ids (record.utxoEntries.filter fun coin =>
      decide (txid ∈ listed) || evidence.spent coin mayLand proven)
    ⟨st.judged.erase txid, mayLand, proven, st.settled ++ [(txid, gone)]⟩

/-- The records the answer settles this round. -/
def settlements (evidence : ReadEvidence) (st : Settling) : List TransactionId :=
  (st.judged.values.filter (settles evidence st.mayLand st.proven)).map (·.id)

def settleRound (evidence : ReadEvidence) (listed : Finset TransactionId) (st : Settling) :
    Option Settling :=
  if settlements evidence st = [] then none
  else some ((settlements evidence st).foldl (settleOne evidence listed) st)

def settleAll (evidence : ReadEvidence) (listed : Finset TransactionId) (st : Settling) : Settling :=
  rounds (settleRound evidence listed) st.judged.entries.length st

/-- Whether a carried send ends, given what is proven. -/
def carriedFires (gone : Gone) (proven : Finset TransactionId) (txid : TransactionId)
    (leg : LegMeta) : Bool :=
  (carriedEnd gone proven txid leg).isSome

def Judging.sweep (st : Judging) : Sweep TransactionId LegMeta := ⟨st.carried, st.proven⟩

theorem fst_filterMap {α β γ : Type} (end_ : α → β → Option γ) (entries : List ((_ : α) × β)) :
    (entries.filterMap fun e => (end_ e.1 e.2).map fun c => (e.1, c)).map Prod.fst =
      (entries.filter fun e => (end_ e.1 e.2).isSome).map Sigma.fst := by
  induction entries with
  | nil => rfl
  | cons e rest ih =>
    cases h : end_ e.1 e.2 with
    | none => simpa [h] using ih
    | some c => simpa [h] using ih

theorem endings_keys (gone : Gone) (st : Judging) :
    (endings gone st).map Prod.fst = firing (carriedFires gone) st.sweep :=
  fst_filterMap (carriedEnd gone st.proven) st.carried.entries

theorem judgeRound_none (gone : Gone) (st : Judging) :
    judgeRound gone st = none ↔ firing (carriedFires gone) st.sweep = [] := by
  rw [← endings_keys, List.map_eq_nil_iff]
  unfold judgeRound
  split
  · rename_i nothing
    exact ⟨fun _ => nothing, fun _ => rfl⟩
  · rename_i something
    exact ⟨fun h => absurd h (Option.some_ne_none _), fun h => absurd h something⟩

theorem judgeRound_some {gone : Gone} {st next : Judging} (h : judgeRound gone st = some next) :
    sweepRound (carriedFires gone) st.sweep = some next.sweep ∧
      next.ended = st.ended ++ firing (carriedFires gone) st.sweep := by
  have some_ : firing (carriedFires gone) st.sweep ≠ [] := by
    intro none_
    rw [(judgeRound_none gone st).mpr none_] at h
    cases h
  unfold judgeRound at h
  split at h
  · cases h
  · cases Option.some.inj h
    rw [sweepRound, if_neg some_, endings_keys]
    refine ⟨?_, rfl⟩
    have retained : (st.carried.retain fun txid leg => !carriedFires gone st.proven txid leg) =
        st.carried.retain fun txid leg => (carriedEnd gone st.proven txid leg).isNone := by
      apply AList.ext
      simp only [KeyMap.entries_retain, carriedFires, Option.not_isSome]
    simp only [Judging.sweep, retained]

theorem judging_sweep (gone : Gone) (fuel : Nat) (st : Judging) :
    (rounds (judgeRound gone) fuel st).sweep = rounds (sweepRound (carriedFires gone)) fuel st.sweep := by
  have both : ∀ st sw, Judging.sweep st = sw →
      (judgeRound gone st = none ∧ sweepRound (carriedFires gone) sw = none) ∨
      ∃ next follow, judgeRound gone st = some next ∧
        sweepRound (carriedFires gone) sw = some follow ∧ Judging.sweep next = follow := by
    intro st sw same
    subst same
    cases h : judgeRound gone st with
    | none => exact Or.inl ⟨rfl, if_pos ((judgeRound_none gone st).mp h)⟩
    | some next => exact Or.inr ⟨next, next.sweep, rfl, (judgeRound_some h).1, rfl⟩
  exact rounds_related both fuel rfl

/-- Whatever ended is proven, and no longer carried; whatever is no longer carried ended. -/
structure EndedInv (start : KeyMap TransactionId LegMeta) (st : Judging) : Prop where
  proven : ∀ txid ∈ st.ended, txid ∈ st.proven
  gone : ∀ txid, txid ∈ st.ended ↔ txid ∈ start ∧ txid ∉ st.carried
  within : ∀ txid leg, st.carried.lookup txid = some leg → start.lookup txid = some leg

theorem endedInv_round {gone : Gone} {start : KeyMap TransactionId LegMeta} {st next : Judging}
    (inv : EndedInv start st) (h : judgeRound gone st = some next) : EndedInv start next := by
  obtain ⟨sweep, ended⟩ := judgeRound_some h
  obtain ⟨_, same⟩ := sweepRound_some sweep
  have carried : next.carried = st.carried.retain fun txid leg =>
      !carriedFires gone st.proven txid leg := congrArg Sweep.standing same
  have proven : next.proven = st.proven ∪ (firing (carriedFires gone) st.sweep).toFinset :=
    congrArg Sweep.swept same
  refine ⟨?_, ?_, ?_⟩
  · intro txid member
    rw [ended] at member
    rw [proven, Finset.mem_union, List.mem_toFinset]
    rcases List.mem_append.mp member with old | new
    · exact Or.inl (inv.proven txid old)
    · exact Or.inr new
  · intro txid
    rw [ended, List.mem_append, inv.gone txid, carried, mem_firing]
    constructor
    · intro either
      rcases either with ⟨was, notNow⟩ | ⟨leg, found, fired⟩
      · refine ⟨was, fun still => notNow ?_⟩
        obtain ⟨leg, found⟩ := KeyMap.mem_iff_lookup.mp still
        exact KeyMap.mem_of_lookup (KeyMap.lookup_retain_some.mp found).1
      · refine ⟨KeyMap.mem_of_lookup (inv.within txid leg found), fun still => ?_⟩
        obtain ⟨leg', found'⟩ := KeyMap.mem_iff_lookup.mp still
        obtain ⟨kept, notFired⟩ := KeyMap.lookup_retain_some.mp found'
        change st.carried.lookup txid = some leg at found
        rw [found] at kept
        cases kept
        change carriedFires gone st.proven txid leg = true at fired
        rw [fired] at notFired
        cases notFired
    · intro ⟨was, notNow⟩
      by_cases still : txid ∈ st.carried
      · obtain ⟨leg, found⟩ := KeyMap.mem_iff_lookup.mp still
        refine Or.inr ⟨leg, found, ?_⟩
        cases fired : carriedFires gone st.proven txid leg with
        | true => exact fired
        | false =>
          refine absurd (KeyMap.mem_of_lookup (KeyMap.lookup_retain_some.mpr ⟨found, ?_⟩)) notNow
          rw [fired]
          rfl
      · exact Or.inl ⟨was, still⟩
  · intro txid leg found
    rw [carried] at found
    exact inv.within txid leg (KeyMap.lookup_retain_some.mp found).1

theorem judging_sweepAll (s : InFlightSends) (proven : Finset TransactionId) (gone : Gone)
    (score now : Nat) : (s.judging proven gone score now).sweep =
      sweepAll (carriedFires gone) ⟨s.carried.adjust (clampCarried score now), proven⟩ := by
  have size : (s.carried.adjust (clampCarried score now)).entries.length = s.carried.entries.length :=
    List.length_map _
  rw [sweepAll, size]
  exact judging_sweep gone s.carried.entries.length
    ⟨s.carried.adjust (clampCarried score now), proven, [], []⟩

theorem judging_stops (s : InFlightSends) (proven : Finset TransactionId) (gone : Gone)
    (score now : Nat) : judgeRound gone (s.judging proven gone score now) = none := by
  apply (judgeRound_none gone _).mpr
  rw [judging_sweepAll]
  have stops := sweepAll_stops (carriedFires gone) ⟨s.carried.adjust (clampCarried score now), proven⟩
  unfold sweepRound at stops
  split at stops
  · assumption
  · cases stops

theorem endedInv_judging (s : InFlightSends) (proven : Finset TransactionId) (gone : Gone)
    (score now : Nat) :
    EndedInv (s.carried.adjust (clampCarried score now)) (s.judging proven gone score now) := by
  have keeps : ∀ st next, EndedInv (s.carried.adjust (clampCarried score now)) st →
      judgeRound gone st = some next →
      EndedInv (s.carried.adjust (clampCarried score now)) next := fun st next inv h =>
    endedInv_round inv h
  apply rounds_invariant keeps
  refine ⟨by simp, ?_, fun _ _ h => h⟩
  intro txid
  simp

theorem mem_adjust {κ υ : Type} [DecidableEq κ] (f : υ → υ) (m : KeyMap κ υ) (k : κ) :
    k ∈ m.adjust f ↔ k ∈ m := by
  rw [KeyMap.mem_iff_lookup, KeyMap.mem_iff_lookup, KeyMap.lookup_adjust]
  simp

/-- A record under its own txid. -/
def Keyed (records : KeyMap TransactionId OutgoingTransaction) : Prop :=
  ∀ txid record, records.lookup txid = some record → record.id = txid

theorem mem_settlements {evidence : ReadEvidence} {st : Settling} (keyed : Keyed st.judged)
    {txid : TransactionId} : txid ∈ settlements evidence st ↔ ∃ record,
      st.judged.lookup txid = some record ∧ settles evidence st.mayLand st.proven record = true := by
  simp only [settlements, List.mem_map, List.mem_filter, KeyMap.mem_values_iff]
  constructor
  · intro ⟨record, ⟨⟨key, found⟩, settled⟩, named⟩
    have same := keyed key record found
    rw [named] at same
    subst same
    exact ⟨record, found, settled⟩
  · intro ⟨record, found, settled⟩
    exact ⟨record, ⟨⟨txid, found⟩, settled⟩, keyed txid record found⟩

theorem settleOne_of_mem (evidence : ReadEvidence) (listed : Finset TransactionId) {st : Settling}
    {txid : TransactionId} (member : txid ∈ st.judged) :
    (settleOne evidence listed st txid).judged = st.judged.erase txid ∧
    (settleOne evidence listed st txid).mayLand = st.mayLand.erase txid ∧
    (settleOne evidence listed st txid).proven = insert txid st.proven ∧
    (settleOne evidence listed st txid).settled.map Prod.fst = st.settled.map Prod.fst ++ [txid] := by
  obtain ⟨record, found⟩ := KeyMap.mem_iff_lookup.mp member
  simp [settleOne, found]

theorem settleOne_of_notMem (evidence : ReadEvidence) (listed : Finset TransactionId)
    {st : Settling} {txid : TransactionId} (absent : txid ∉ st.judged) :
    settleOne evidence listed st txid = st := by
  have none_ : st.judged.lookup txid = none := AList.lookup_eq_none.mpr absent
  simp [settleOne, none_]

/-- What the settle loop has done since it held `judged` and `mayLand`. -/
structure SettledInv (judged : KeyMap TransactionId OutgoingTransaction)
    (mayLand : Finset TransactionId) (st : Settling) : Prop where
  within : ∀ txid record, st.judged.lookup txid = some record → judged.lookup txid = some record
  gone : ∀ txid, txid ∈ st.settled.map Prod.fst ↔ txid ∈ judged ∧ txid ∉ st.judged
  mayLand : ∀ txid, txid ∈ st.mayLand ↔ txid ∈ mayLand ∧ txid ∉ st.settled.map Prod.fst
  proven : ∀ txid ∈ st.settled.map Prod.fst, txid ∈ st.proven

theorem settledInv_settleOne {evidence : ReadEvidence} {listed : Finset TransactionId}
    {judged : KeyMap TransactionId OutgoingTransaction} {mayLand : Finset TransactionId}
    {st : Settling} (inv : SettledInv judged mayLand st) (txid : TransactionId) :
    SettledInv judged mayLand (settleOne evidence listed st txid) := by
  by_cases member : txid ∈ st.judged
  · obtain ⟨judged', mayLand', proven', settled'⟩ :=
      settleOne_of_mem evidence listed member
    obtain ⟨record, found⟩ := KeyMap.mem_iff_lookup.mp member
    refine ⟨?_, ?_, ?_, ?_⟩
    · intro other record' found'
      rw [judged'] at found'
      exact inv.within other record' (KeyMap.lookup_erase_some.mp found').2
    · intro other
      rw [settled', judged', List.mem_append, List.mem_singleton, inv.gone other, AList.mem_erase]
      constructor
      · intro either
        rcases either with ⟨was, notNow⟩ | same
        · exact ⟨was, fun still => notNow still.2⟩
        · subst same
          exact ⟨KeyMap.mem_of_lookup (inv.within _ record found), fun still => still.1 rfl⟩
      · intro ⟨was, notNow⟩
        by_cases same : other = txid
        · exact Or.inr same
        · exact Or.inl ⟨was, fun still => notNow ⟨same, still⟩⟩
    · intro other
      rw [settled', mayLand', Finset.mem_erase, inv.mayLand other, List.mem_append,
        List.mem_singleton]
      tauto
    · intro other inside
      rw [settled'] at inside
      rw [proven', Finset.mem_insert]
      rcases List.mem_append.mp inside with old | new
      · exact Or.inr (inv.proven other old)
      · exact Or.inl (List.mem_singleton.mp new)
  · rw [settleOne_of_notMem evidence listed member]
    exact inv

theorem settledInv_foldl {evidence : ReadEvidence} {listed : Finset TransactionId}
    {judged : KeyMap TransactionId OutgoingTransaction} {mayLand : Finset TransactionId}
    (done : List TransactionId) {st : Settling} (inv : SettledInv judged mayLand st) :
    SettledInv judged mayLand (done.foldl (settleOne evidence listed) st) := by
  induction done generalizing st with
  | nil => exact inv
  | cons txid rest ih => exact ih (settledInv_settleOne inv txid)

/-- What settling `done` one by one leaves to judge, and what it proves. -/
theorem foldl_settleOne (evidence : ReadEvidence) (listed : Finset TransactionId)
    (done : List TransactionId) (st : Settling) :
    (∀ txid record, (done.foldl (settleOne evidence listed) st).judged.lookup txid = some record ↔
      txid ∉ done ∧ st.judged.lookup txid = some record) ∧
    (∀ txid, txid ∈ (done.foldl (settleOne evidence listed) st).proven ↔
      txid ∈ st.proven ∨ (txid ∈ done ∧ txid ∈ st.judged)) := by
  induction done generalizing st with
  | nil => simp
  | cons first rest ih =>
    obtain ⟨lookups, provens⟩ := ih (settleOne evidence listed st first)
    by_cases member : first ∈ st.judged
    · obtain ⟨judged', _, proven', _⟩ :=
        settleOne_of_mem evidence listed member
      constructor
      · intro txid record
        rw [List.foldl_cons, lookups, judged', KeyMap.lookup_erase_some, List.mem_cons]
        tauto
      · intro txid
        rw [List.foldl_cons, provens, judged', proven', Finset.mem_insert, AList.mem_erase,
          List.mem_cons]
        by_cases same : txid = first
        · subst same
          simp [member]
        · simp [same]
    · have unchanged := settleOne_of_notMem evidence listed member
      rw [unchanged] at lookups provens
      constructor
      · intro txid record
        rw [List.foldl_cons, unchanged, lookups, List.mem_cons]
        constructor
        · intro ⟨notRest, found⟩
          refine ⟨?_, found⟩
          intro either
          rcases either with same | inRest
          · subst same
            exact member (KeyMap.mem_of_lookup found)
          · exact notRest inRest
        · intro ⟨notAny, found⟩
          exact ⟨fun inRest => notAny (Or.inr inRest), found⟩
      · intro txid
        rw [List.foldl_cons, unchanged, provens, List.mem_cons]
        constructor
        · intro either
          rcases either with old | ⟨inRest, judged⟩
          · exact Or.inl old
          · exact Or.inr ⟨Or.inr inRest, judged⟩
        · intro either
          rcases either with old | ⟨same | inRest, judged⟩
          · exact Or.inl old
          · subst same
            exact absurd judged member
          · exact Or.inr ⟨inRest, judged⟩

/-- A proven creator is settled, whether or not it is still said to may land. -/
theorem spent_mayLand {evidence : ReadEvidence} {coin : UtxoEntryReference}
    {mayLand mayLand' proven : Finset TransactionId} {done : List TransactionId}
    (less : ∀ txid, txid ∈ mayLand' ↔ txid ∈ mayLand ∧ txid ∉ done)
    (doneProven : ∀ txid ∈ done, txid ∈ proven) :
    evidence.spent coin mayLand' proven = evidence.spent coin mayLand proven := by
  have creator : (decide (coin.id.transactionId ∈ proven) || decide (coin.id.transactionId ∉ mayLand')) =
      (decide (coin.id.transactionId ∈ proven) || decide (coin.id.transactionId ∉ mayLand)) := by
    rw [Bool.eq_iff_iff]
    simp only [Bool.or_eq_true, decide_eq_true_eq]
    have implies := doneProven coin.id.transactionId
    rw [less]
    tauto
  simp only [ReadEvidence.spent, creator]

/-- Whether the answer settles a record, given what is proven. -/
def settleFires (evidence : ReadEvidence) (mayLand : Finset TransactionId)
    (proven : Finset TransactionId) (_ : TransactionId) (record : OutgoingTransaction) : Bool :=
  settles evidence mayLand proven record

/-- The settle loop and the sweep of what it judges, in step. -/
structure InStep (judged : KeyMap TransactionId OutgoingTransaction)
    (mayLand : Finset TransactionId) (st : Settling)
    (sw : Sweep TransactionId OutgoingTransaction) : Prop where
  settled : SettledInv judged mayLand st
  judged : ∀ txid, st.judged.lookup txid = sw.standing.lookup txid
  proven : st.proven = sw.swept

theorem InStep.settlements_iff (evidence : ReadEvidence)
    {judged : KeyMap TransactionId OutgoingTransaction} {mayLand : Finset TransactionId}
    {st : Settling} {sw : Sweep TransactionId OutgoingTransaction} (keyed : Keyed judged)
    (both : InStep judged mayLand st sw) (txid : TransactionId) :
    txid ∈ settlements evidence st ↔ txid ∈ firing (settleFires evidence mayLand) sw := by
  have nowKeyed : Keyed st.judged := fun other record found =>
    keyed other record (both.settled.within other record found)
  have same : ∀ record, settles evidence st.mayLand st.proven record =
      settleFires evidence mayLand sw.swept txid record := by
    intro record
    have spent : ∀ coin, evidence.spent coin st.mayLand st.proven =
        evidence.spent coin mayLand st.proven := fun coin =>
      spent_mayLand both.settled.mayLand both.settled.proven
    rw [← both.proven]
    simp only [settleFires, settles, spent]
  rw [mem_settlements nowKeyed, mem_firing]
  simp only [both.judged, same]

theorem InStep.round (evidence : ReadEvidence) (listed : Finset TransactionId)
    {judged : KeyMap TransactionId OutgoingTransaction} {mayLand : Finset TransactionId}
    {st : Settling} {sw : Sweep TransactionId OutgoingTransaction} (keyed : Keyed judged)
    (both : InStep judged mayLand st sw) :
    (settleRound evidence listed st = none ∧ sweepRound (settleFires evidence mayLand) sw = none) ∨
    ∃ next follow, settleRound evidence listed st = some next ∧
      sweepRound (settleFires evidence mayLand) sw = some follow ∧ InStep judged mayLand next follow := by
  have members := both.settlements_iff evidence keyed
  by_cases none_ : settlements evidence st = []
  · have none' : firing (settleFires evidence mayLand) sw = [] := by
      apply List.eq_nil_iff_forall_not_mem.mpr
      intro txid member
      have back := (members txid).mpr member
      rw [none_] at back
      cases back
    exact Or.inl ⟨if_pos none_, if_pos none'⟩
  · have some' : firing (settleFires evidence mayLand) sw ≠ [] := by
      obtain ⟨txid, member⟩ := List.exists_mem_of_ne_nil _ none_
      exact List.ne_nil_of_mem ((members txid).mp member)
    obtain ⟨lookups, provens⟩ := foldl_settleOne evidence listed
      (settlements evidence st) st
    refine Or.inr ⟨_, _, if_neg none_, if_neg some', ?_, ?_, ?_⟩
    · exact settledInv_foldl _ both.settled
    · intro txid
      apply KeyMap.lookup_ext
      intro record
      rw [lookups, members txid, mem_firing, KeyMap.lookup_retain_some, both.judged txid]
      constructor
      · intro ⟨quiet, found⟩
        refine ⟨found, ?_⟩
        cases fired : settleFires evidence mayLand sw.swept txid record with
        | true => exact absurd ⟨record, found, fired⟩ quiet
        | false => rfl
      · intro ⟨found, quiet⟩
        refine ⟨?_, found⟩
        intro ⟨other, found', fired⟩
        rw [found] at found'
        cases found'
        rw [fired] at quiet
        cases quiet
    · ext txid
      rw [provens, Finset.mem_union, List.mem_toFinset, members txid, both.proven]
      constructor
      · intro either
        rcases either with old | ⟨new, _⟩
        · exact Or.inl old
        · exact Or.inr new
      · intro either
        rcases either with old | new
        · exact Or.inl old
        · obtain ⟨record, found, _⟩ := mem_firing.mp new
          rw [← both.judged] at found
          exact Or.inr ⟨new, KeyMap.mem_of_lookup found⟩

theorem settleAll_inStep (evidence : ReadEvidence) (listed : Finset TransactionId) {st : Settling}
    (keyed : Keyed st.judged) (fresh : st.settled = []) :
    InStep st.judged st.mayLand (settleAll evidence listed st)
      (sweepAll (settleFires evidence st.mayLand) ⟨st.judged, st.proven⟩) := by
  have start : InStep st.judged st.mayLand st ⟨st.judged, st.proven⟩ := by
    refine ⟨⟨fun _ _ h => h, ?_, ?_, ?_⟩, fun _ => rfl, rfl⟩ <;> simp [fresh]
  exact rounds_related (fun _ _ both => both.round evidence listed keyed) _ start

theorem settleAll_stops (evidence : ReadEvidence) (listed : Finset TransactionId) {st : Settling}
    (keyed : Keyed st.judged) (fresh : st.settled = []) :
    settleRound evidence listed (settleAll evidence listed st) = none := by
  have both := settleAll_inStep evidence listed keyed fresh
  have stops := sweepAll_stops (settleFires evidence st.mayLand) ⟨st.judged, st.proven⟩
  rcases both.round evidence listed keyed with ⟨none_, _⟩ | ⟨_, _, _, some_, _⟩
  · exact none_
  · rw [stops] at some_
    cases some_

theorem convert_none {now : Nat} {s : InFlightSends} {acc : List TransactionId}
    {txid : TransactionId} (absent : txid ∉ s.carried) : convert now (s, acc) txid = (s, acc) := by
  have none_ : s.carried.lookup txid = none := AList.lookup_eq_none.mpr absent
  simp [convert, none_]

theorem convert_some (now : Nat) {s : InFlightSends} (acc : List TransactionId)
    {txid : TransactionId} (member : txid ∈ s.carried) :
    (convert now (s, acc) txid).2 = acc ++ [txid] ∧
    (convert now (s, acc) txid).1.carried = s.carried.erase txid ∧
    (convert now (s, acc) txid).1.spentByUs = s.spentByUs := by
  obtain ⟨leg, found⟩ := KeyMap.mem_iff_lookup.mp member
  simp [convert, found, InFlightSends.fateUnknown]

/-- What converting the stale sends one by one converts, carries on and remembers. -/
theorem foldl_convert (now : Nat) (stale : List TransactionId) (s : InFlightSends)
    (acc : List TransactionId) :
    (∀ txid, txid ∈ (stale.foldl (convert now) (s, acc)).2 ↔
      txid ∈ acc ∨ (txid ∈ stale ∧ txid ∈ s.carried)) ∧
    (∀ txid leg, (stale.foldl (convert now) (s, acc)).1.carried.lookup txid = some leg ↔
      txid ∉ stale ∧ s.carried.lookup txid = some leg) ∧
    (stale.foldl (convert now) (s, acc)).1.spentByUs = s.spentByUs := by
  induction stale generalizing s acc with
  | nil => simp
  | cons first rest ih =>
    by_cases member : first ∈ s.carried
    · obtain ⟨converted', carried', spentByUs'⟩ := convert_some now acc member
      obtain ⟨converted, carried, spentByUs⟩ :=
        ih (convert now (s, acc) first).1 (convert now (s, acc) first).2
      refine ⟨?_, ?_, spentByUs.trans spentByUs'⟩
      · intro txid
        rw [List.foldl_cons, converted, converted', carried', AList.mem_erase, List.mem_append,
          List.mem_singleton, List.mem_cons]
        by_cases same : txid = first
        · subst same
          simp [member]
        · simp [same]
      · intro txid leg
        rw [List.foldl_cons, carried, carried', KeyMap.lookup_erase_some, List.mem_cons]
        tauto
    · obtain ⟨converted, carried, spentByUs⟩ := ih s acc
      rw [List.foldl_cons, convert_none member]
      refine ⟨?_, ?_, spentByUs⟩
      · intro txid
        rw [converted, List.mem_cons]
        by_cases same : txid = first
        · subst same
          simp [member]
        · simp [same]
      · intro txid leg
        rw [carried, List.mem_cons]
        by_cases same : txid = first
        · subst same
          have none_ : s.carried.lookup txid = none := AList.lookup_eq_none.mpr member
          simp [none_]
        · simp [same]

/-- The sends a judgement converts are the stale ones it left carried. -/
theorem mem_converted {s : InFlightSends} {proven : Finset TransactionId} {gone : Gone}
    {score now : Nat} {txid : TransactionId} :
    txid ∈ (s.judgeCarried proven gone score now).1.converted ↔ ∃ leg,
      (s.judging proven gone score now).carried.lookup txid = some leg ∧
        isStale s.carriedForDaa score now leg = true := by
  let judged := (s.judging proven gone score now).carried
  obtain ⟨converted, _, _⟩ := foldl_convert now
    ((judged.entries.filter fun entry => isStale s.carriedForDaa score now entry.2).map Sigma.fst)
    { s with carried := judged } []
  refine (converted txid).trans ?_
  simp only [List.not_mem_nil, false_or, List.mem_map, List.mem_filter]
  constructor
  · intro ⟨⟨⟨key, leg⟩, ⟨member, stale⟩, same⟩, _⟩
    cases same
    exact ⟨leg, KeyMap.mem_entries_iff.mp member, stale⟩
  · intro ⟨leg, found, stale⟩
    exact ⟨⟨⟨txid, leg⟩, ⟨KeyMap.mem_entries_iff.mpr found, stale⟩, rfl⟩, KeyMap.mem_of_lookup found⟩

/-- A send neither ended nor converted is carried on, with the coins it spends. -/
theorem carried_on {s : InFlightSends} {proven : Finset TransactionId} {gone : Gone}
    {score now : Nat} {txid : TransactionId} {leg : LegMeta}
    (carried : s.carried.lookup txid = some leg)
    (notEnded : txid ∉ (s.judgeCarried proven gone score now).1.ended)
    (notConverted : txid ∉ (s.judgeCarried proven gone score now).1.converted) :
    (s.judgeCarried proven gone score now).2.2.carried.lookup txid =
      some (clampCarried score now leg) := by
  have inv := endedInv_judging s proven gone score now
  have start : (s.carried.adjust (clampCarried score now)).lookup txid =
      some (clampCarried score now leg) := by
    rw [KeyMap.lookup_adjust, carried]
    rfl
  have still : txid ∈ (s.judging proven gone score now).carried := by
    by_contra absent
    exact notEnded ((inv.gone txid).mpr ⟨KeyMap.mem_of_lookup start, absent⟩)
  obtain ⟨judged, found⟩ := KeyMap.mem_iff_lookup.mp still
  have same := inv.within txid judged found
  rw [start] at same
  cases same
  obtain ⟨_, after, _⟩ := foldl_convert now
    (((s.judging proven gone score now).carried.entries.filter fun entry =>
      isStale s.carriedForDaa score now entry.2).map Sigma.fst)
    { s with carried := (s.judging proven gone score now).carried } []
  refine (after txid _).mpr ⟨?_, found⟩
  intro stale
  obtain ⟨⟨key, other⟩, isStaleEntry, same⟩ := List.mem_map.mp stale
  cases same
  have both := List.mem_filter.mp isStaleEntry
  exact notConverted (mem_converted.mpr ⟨other, KeyMap.mem_entries_iff.mp both.1, both.2⟩)

theorem judgeCarried_spentByUs (s : InFlightSends) (proven : Finset TransactionId) (gone : Gone)
    (score now : Nat) : (s.judgeCarried proven gone score now).2.2.spentByUs = s.spentByUs :=
  (foldl_convert now _ { s with carried := (s.judging proven gone score now).carried } []).2.2

end Kaspaverse.Chain
