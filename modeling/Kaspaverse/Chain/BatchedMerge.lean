import Mathlib.Algebra.Order.BigOperators.Group.List
import Mathlib.Algebra.Order.Group.Nat
import Mathlib.Data.List.Sort
import Kaspaverse.Library.Bisect
import Kaspaverse.Chain.Drain

namespace Kaspaverse.Chain

def MERGE_BATCH_LIMIT : Nat := 4

/-- One attempt at a batch of a given size. -/
inductive BatchFit
  | built (pending : List BuiltTransaction) (summary : GeneratorSummary)
  | belowFee

/-- How a slice of coins is built. -/
abbrev BuildBatch := List UtxoEntryReference → Except String BatchFit

section LargestBatch

variable (coins : List UtxoEntryReference) (build : BuildBatch)

def probeBatch (size : Nat) : Except String (Probe (List BuiltTransaction × GeneratorSummary)) :=
  match build (coins.take size) with
  | .error refused => .error refused
  | .ok (.built pending summary) => .ok (if pending.length = 1 then .fits (pending, summary) else .tooMany)
  | .ok .belowFee => .ok .tooFew

/-- The largest prefix built in one transaction, with what was built at that size. A batch of one coin
    merges nothing. -/
def largestSingleTxBatch : Except String (Option (Nat × List BuiltTransaction × GeneratorSummary)) :=
  bisect (probeBatch coins build) 2 coins.length (by decide) none

end LargestBatch

/-- What the passes so far built and moved. -/
structure Merged where
  pending : List BuiltTransaction
  sweptTotal : Nat
  feeTotal : Nat
  massTotal : Nat
  absorbedTotal : Nat
  passes : Nat
  sources : Finset Address

def Merged.empty : Merged := ⟨[], 0, 0, 0, 0, 0, ∅⟩

/-- `u32::saturating_add`. -/
def saturatingAdd32 (a b : Nat) : Nat := min (a + b) (2 ^ 32 - 1)

/-- The addresses a slice draws from. -/
def sourcesOf (offered : List UtxoEntryReference) : Finset Address := (offered.filterMap (·.address)).toFinset

def Merged.accept (merged : Merged) (offered : List UtxoEntryReference) (pending : List BuiltTransaction)
    (summary : GeneratorSummary) (facts : DrainFacts) : Merged where
  pending := merged.pending ++ pending
  sweptTotal := saturatingAdd merged.sweptTotal facts.sweptSompi
  feeTotal := saturatingAdd merged.feeTotal facts.feeSompi
  massTotal := saturatingAdd merged.massTotal summary.aggregateMass
  absorbedTotal := saturatingAdd32 merged.absorbedTotal facts.absorbedUtxos
  passes := merged.passes + 1
  sources := merged.sources ∪ sourcesOf offered

/-- At most so many more passes over what is left. -/
def mergePasses (destination : Address) (build : BuildBatch) :
    Nat → List UtxoEntryReference → Merged → Except String Merged
  | 0, _, merged => .ok merged
  | left + 1, rest, merged =>
    if rest.length < 2 then .ok merged
    else
      match largestSingleTxBatch rest build with
      | .error refused => .error refused
      | .ok none => .ok merged
      | .ok (some (taken, pending, summary)) =>
        match verifyDrain pending summary destination (some (rest.take taken)) with
        | .error refused => .error refused
        | .ok facts =>
          mergePasses destination build left (rest.drop taken)
            (merged.accept (rest.take taken) pending summary facts)

/-- The stable sort by amount. -/
def smallestFirst (coins : List UtxoEntryReference) : List UtxoEntryReference :=
  coins.insertionSort fun a b => a.amount ≤ b.amount

def cannotMerge (reservedCount : Nat) : String :=
  if 0 < reservedCount then
    "these coins can't be merged right now — what is left over after " ++
      "your conversations' reserves is worth less than the fee to move it. " ++
      "Nothing was sent — ordinary sends absorb a few fragments each, so " ++
      "this clears as you spend, and Send everything still empties the " ++
      "wallet."
  else
    "these coins can't be merged right now — they are worth less than " ++
      "the network fee to move them. Nothing was sent — ordinary sends " ++
      "absorb a few fragments each, so this clears as you spend."

def batchedMerge (rest : List UtxoEntryReference) (destination : Address) (reservedCount : Nat)
    (build : BuildBatch) : Except String (List BuiltTransaction × SendSummary) :=
  match mergePasses destination build MERGE_BATCH_LIMIT (smallestFirst rest) .empty with
  | .error refused => .error refused
  | .ok merged =>
    if merged.pending = [] then .error (cannotMerge reservedCount)
    else .ok (merged.pending, {
      destination := destination
      amountSompi := merged.sweptTotal
      feeSompi := merged.feeTotal
      totalSompi := saturatingAdd merged.sweptTotal merged.feeTotal
      mass := merged.massTotal
      txCount := merged.passes
      utxoCount := merged.absorbedTotal
      resultingCoins := merged.passes
      sourceAddresses := merged.sources.card
      payloadLen := 0 })

section Oracle

/-- A slice is built in one transaction. -/
def Single (build : BuildBatch) (offered : List UtxoEntryReference) : Prop :=
  ∃ tx summary, build offered = .ok (.built [tx] summary)

/-- What a build spends: coins of its slice, or what its own legs make. -/
structure SpendsSlice (build : BuildBatch) : Prop where
  draws : ∀ offered pending summary, build offered = .ok (.built pending summary) →
    ∀ tx ∈ pending, ∀ coin ∈ tx.inputs, (coin ∈ offered ∧ coin.id.transactionId ∉ chainTxids pending) ∨
      ∃ leg ∈ pending, leg.id ≠ tx.id ∧ coin.id.transactionId = leg.id
  thresholds : ∀ coins : List UtxoEntryReference, ∃ below last, ∀ size, 2 ≤ size → size ≤ coins.length →
    (size ≤ below → build (coins.take size) = .ok .belowFee) ∧
      (below < size → size ≤ last → Single build (coins.take size)) ∧
      (below < size → last < size → ∃ pending summary, build (coins.take size) = .ok (.built pending summary) ∧
        pending.length ≠ 1)

/-- A build whose one-transaction answer merges: it spends two coins or more, each once. -/
structure MergesSlice (build : BuildBatch) : Prop extends SpendsSlice build where
  merges : ∀ offered tx summary, build offered = .ok (.built [tx] summary) →
    2 ≤ tx.inputs.length ∧ (ids tx.inputs).Nodup

variable {build : BuildBatch} {coins : List UtxoEntryReference}

theorem probeBatch_single {size : Nat} {tx : BuiltTransaction} {summary : GeneratorSummary}
    (built : build (coins.take size) = .ok (.built [tx] summary)) :
    probeBatch coins build size = .ok (.fits ([tx], summary)) := by
  unfold probeBatch
  rw [built]
  rfl

theorem probeBatch_fits {size : Nat} {pending : List BuiltTransaction} {summary : GeneratorSummary}
    (fits : probeBatch coins build size = .ok (.fits (pending, summary))) :
    ∃ tx, pending = [tx] ∧ build (coins.take size) = .ok (.built [tx] summary) := by
  unfold probeBatch at fits
  split at fits
  · cases fits
  · next found summary_ built =>
    split at fits
    · next one =>
      cases fits
      obtain ⟨tx, rfl⟩ := List.length_eq_one_iff.mp one
      exact ⟨tx, rfl, built⟩
    · cases fits
  · cases fits

theorem not_single_of_probe {size : Nat} (none_ : ∀ found, probeBatch coins build size ≠ .ok (.fits found)) :
    ¬ Single build (coins.take size) := by
  rintro ⟨tx, summary, built⟩
  exact none_ _ (probeBatch_single built)

/-- What the bisection over a slice's sizes returns. -/
structure LargestBatch (build : BuildBatch) (coins : List UtxoEntryReference) (taken : Nat)
    (tx : BuiltTransaction) (summary : GeneratorSummary) : Prop where
  two : 2 ≤ taken
  fits : taken ≤ coins.length
  built : build (coins.take taken) = .ok (.built [tx] summary)
  largest : ∀ size, taken < size → size ≤ coins.length → ¬ Single build (coins.take size)

theorem SpendsSlice.probe (oracle : SpendsSlice build) (coins : List UtxoEntryReference) :
    ∃ below last, Thresholds (probeBatch coins build) 2 coins.length below last := by
  obtain ⟨below, last, answers⟩ := oracle.thresholds coins
  refine ⟨below, last, ?_, ?_, ?_⟩
  · intro size low high few
    unfold probeBatch
    rw [(answers size low high).1 few]
  · intro size low high enough early
    obtain ⟨tx, summary, built⟩ := (answers size low high).2.1 enough early
    exact ⟨_, probeBatch_single built⟩
  · intro size low high enough late
    obtain ⟨pending, summary, built, chained⟩ := (answers size low high).2.2 enough late
    unfold probeBatch
    rw [built]
    exact congrArg Except.ok (if_neg chained)

/-- The bisection ends with the largest prefix of two coins or more that builds in one transaction, or
    with none where no prefix does. -/
theorem SpendsSlice.largest (oracle : SpendsSlice build) (coins : List UtxoEntryReference) :
    (largestSingleTxBatch coins build = .ok none ∧
      ∀ size, 2 ≤ size → size ≤ coins.length → ¬ Single build (coins.take size)) ∨
      ∃ taken tx summary, largestSingleTxBatch coins build = .ok (some (taken, [tx], summary)) ∧
        LargestBatch build coins taken tx summary := by
  obtain ⟨below, last, thresholds⟩ := oracle.probe coins
  obtain ⟨result, ran, largest⟩ := bisect_largest thresholds (by decide)
  rcases result with _ | ⟨taken, pending, summary⟩
  · refine .inl ⟨ran, ?_⟩
    intro size low high
    exact not_single_of_probe (largest size low high)
  · obtain ⟨low, high, fits, more⟩ := largest
    obtain ⟨tx, rfl, built⟩ := probeBatch_fits fits
    refine .inr ⟨taken, tx, summary, ran, low, high, built, ?_⟩
    intro size past below_
    exact not_single_of_probe (more size past below_)

end Oracle

section Passes

/-- One accepted batch: the slice offered, what was built over it and what its check read back. -/
structure Pass where
  offered : List UtxoEntryReference
  tx : BuiltTransaction
  summary : GeneratorSummary
  facts : DrainFacts

def Merged.add (merged : Merged) (pass : Pass) : Merged :=
  merged.accept pass.offered [pass.tx] pass.summary pass.facts

def txs (passes : List Pass) : List BuiltTransaction := passes.map (·.tx)

/-- Each pass takes the largest batch off the front of what the one before left. -/
inductive Passes (build : BuildBatch) (destination : Address) : List UtxoEntryReference → List Pass → Prop
  | done (rest : List UtxoEntryReference) : Passes build destination rest []
  | next {rest : List UtxoEntryReference} {taken : Nat} {pass : Pass} {later : List Pass}
      (largest : LargestBatch build rest taken pass.tx pass.summary) (offered : pass.offered = rest.take taken)
      (verified : verifyDrain [pass.tx] pass.summary destination (some pass.offered) = .ok pass.facts)
      (after : Passes build destination (rest.drop taken) later) : Passes build destination rest (pass :: later)

variable {build : BuildBatch} {destination : Address} {rest : List UtxoEntryReference}

/-- The loop ends with the passes it accepted, or with the refusal of a batch's check. -/
theorem mergePasses_ends (oracle : SpendsSlice build) (destination : Address) (left : Nat)
    (rest : List UtxoEntryReference) (merged : Merged) :
    (∃ passes, mergePasses destination build left rest merged = .ok (passes.foldl Merged.add merged) ∧
      Passes build destination rest passes ∧ passes.length ≤ left ∧
      (0 < left → passes = [] →
        ∀ size, 2 ≤ size → size ≤ rest.length → ¬ Single build (rest.take size))) ∨
      (∃ size, 2 ≤ size ∧ size ≤ rest.length ∧ Single build (rest.take size)) ∧
        ∃ refused offered tx summary, mergePasses destination build left rest merged = .error refused ∧
          build offered = .ok (.built [tx] summary) ∧
          verifyDrain [tx] summary destination (some offered) = .error refused := by
  induction left generalizing rest merged with
  | zero =>
    refine .inl ⟨[], rfl, .done rest, le_refl 0, ?_⟩
    intro positive
    exact absurd positive (Nat.lt_irrefl 0)
  | succ left ih =>
    unfold mergePasses
    split
    · next few =>
      refine .inl ⟨[], rfl, .done rest, Nat.zero_le _, ?_⟩
      intro _ _ size low high
      omega
    · obtain ⟨ran, none_⟩ | ⟨taken, tx, summary, ran, largest⟩ := oracle.largest rest
      · rw [ran]
        exact .inl ⟨[], rfl, .done rest, Nat.zero_le _, fun _ _ => none_⟩
      · rw [ran]
        dsimp only
        have single : ∃ size, 2 ≤ size ∧ size ≤ rest.length ∧ Single build (rest.take size) :=
          ⟨taken, largest.two, largest.fits, tx, summary, largest.built⟩
        cases verified : verifyDrain [tx] summary destination (some (rest.take taken)) with
        | error refused => exact .inr ⟨single, refused, rest.take taken, tx, summary, rfl, largest.built, verified⟩
        | ok facts =>
          obtain ⟨passes, ends, passed, count, _⟩ | ⟨_, refusal⟩ :=
            ih (rest.drop taken) (merged.accept (rest.take taken) [tx] summary facts)
          · refine .inl ⟨⟨rest.take taken, tx, summary, facts⟩ :: passes, ends, .next largest rfl verified passed, ?_, ?_⟩
            · rw [List.length_cons]
              omega
            · exact fun _ none_ => nomatch none_
          · exact .inr ⟨single, refusal⟩

/-- What one accepted batch moves. -/
structure Moves (offered : List UtxoEntryReference) (destination : Address) (pass : Pass) : Prop where
  draws : ∀ coin ∈ pass.tx.inputs, coin ∈ offered
  once : (ids pass.tx.inputs).Nodup
  merges : 2 ≤ pass.tx.inputs.length
  balances : pass.facts.sweptSompi + pass.facts.feeSompi = worth pass.tx.inputs
  absorbed : pass.facts.absorbedUtxos = pass.tx.inputs.length
  pays : ∃ output, pass.tx.outputs = [output] ∧ output.address = some destination

theorem insert_fresh_values {entries : KeyMap UtxoEntryId UtxoEntryReference} {coin : UtxoEntryReference}
    (fresh : coin.id ∉ entries) : KeyMap.values (entries.insert coin.id coin) = coin :: KeyMap.values entries := by
  unfold KeyMap.values
  rw [AList.entries_insert_of_notMem fresh]
  rfl

/-- Distinct coins are all entries. -/
theorem utxoEntries_perm {tx : BuiltTransaction} (once : (ids tx.inputs).Nodup) :
    (KeyMap.values tx.utxoEntries).Perm tx.inputs := by
  have grows : ∀ (coins : List UtxoEntryReference) (entries : KeyMap UtxoEntryId UtxoEntryReference),
      (ids coins).Nodup → (∀ coin ∈ coins, coin.id ∉ entries) →
      (KeyMap.values (coins.foldl (fun entries coin => entries.insert coin.id coin) entries)).Perm
        (coins ++ KeyMap.values entries) := by
    intro coins
    induction coins with
    | nil => exact fun entries _ _ => List.Perm.refl _
    | cons coin later ih =>
      intro entries once fresh
      obtain ⟨apart, distinct⟩ := List.nodup_cons.mp once
      have grown := ih (entries.insert coin.id coin) distinct (by
        intro other member known
        rcases AList.mem_insert entries |>.mp known with same | known
        · exact apart (mem_ids.mpr ⟨other, member, same⟩)
        · exact fresh other (List.mem_cons_of_mem _ member) known)
      rw [insert_fresh_values (fresh coin List.mem_cons_self)] at grown
      exact grown.trans List.perm_middle
  have all := grows tx.inputs ∅ once fun coin _ known => (AList.notMem_empty coin.id) known
  rwa [show KeyMap.values (∅ : KeyMap UtxoEntryId UtxoEntryReference) = [] from rfl, List.append_nil] at all

theorem worth_le_of_subset {coins offered : List UtxoEntryReference} (once : (ids coins).Nodup)
    (inside : ∀ coin ∈ coins, coin ∈ offered) : coins.length ≤ offered.length ∧ worth coins ≤ worth offered := by
  have distinct : coins.Nodup := List.Nodup.of_map _ once
  obtain ⟨kept, same, sublist⟩ := List.subperm_of_subset distinct inside
  refine ⟨?_, ?_⟩
  · rw [← same.length_eq]
    exact sublist.length_le
  · rw [← worth_perm same]
    exact (sublist.map _).sum_le_sum fun _ _ => Nat.zero_le _

theorem Moves.of_verified (oracle : MergesSlice build) {offered : List UtxoEntryReference} {pass : Pass}
    (built : build offered = .ok (.built [pass.tx] pass.summary))
    (verified : verifyDrain [pass.tx] pass.summary destination (some offered) = .ok pass.facts)
    (fits : worth offered < u64Max) (few : offered.length < 2 ^ 32) : Moves offered destination pass := by
  obtain ⟨merges, once⟩ := oracle.merges offered pass.tx pass.summary built
  have wallet : ∀ coin ∈ pass.tx.inputs, coin ∈ offered ∧ coin.id.transactionId ∉ chainTxids [pass.tx] := by
    intro coin member
    obtain own | ⟨leg, inside, other, _⟩ :=
      oracle.draws offered _ _ built pass.tx (List.mem_singleton_self _) coin member
    · exact own
    · rw [List.mem_singleton.mp inside] at other
      exact absurd rfl other
  have inputs : chainInputs [pass.tx] = pass.tx.inputs := List.append_nil _
  have all : consumed [pass.tx] = pass.tx.inputs := by
    unfold consumed
    rw [inputs]
    exact List.filter_eq_self.mpr fun coin member => decide_eq_true (wallet coin member).2
  have drawn : ∀ coin ∈ pass.tx.inputs, coin ∈ offered := fun coin member => (wallet coin member).1
  obtain ⟨count, value⟩ := worth_le_of_subset once drawn
  have checked := verifyDrain_ok verified
  obtain ⟨tx, output, found, single, paid, swept, balance⟩ := checked.final
  have same : tx = pass.tx := List.mem_singleton.mp (List.mem_of_find?_eq_some found)
  subst same
  have entries : pass.tx.consumedValue = worth pass.tx.inputs := by
    have small : worth pass.tx.inputs < 2 ^ 64 := by
      have limit : u64Max < 2 ^ 64 := by decide
      omega
    unfold BuiltTransaction.consumedValue
    rw [show ((KeyMap.values pass.tx.utxoEntries).map (·.amount)).sum = worth pass.tx.inputs from
      worth_perm (utxoEntries_perm once), Nat.mod_eq_of_lt small]
  have balanced := balance rfl
  refine ⟨drawn, once, merges, ?_, ?_, output, single, paid⟩
  · rw [entries] at balanced
    unfold saturatingAdd at balanced
    rw [swept, checked.fee]
    omega
  · rw [checked.absorbed, all, Nat.mod_eq_of_lt (by omega)]

/-- Every pass of a run moves coins of its own. -/
theorem Passes.moved (oracle : MergesSlice build) {passes : List Pass} (passed : Passes build destination rest passes)
    (distinct : (ids rest).Nodup) (fits : worth rest < u64Max) (few : rest.length < 2 ^ 32) :
    (∀ pass ∈ passes, Moves pass.offered destination pass) ∧
      (∀ coin ∈ chainInputs (txs passes), coin ∈ rest) ∧ (ids (chainInputs (txs passes))).Nodup := by
  induction passed with
  | done rest => exact ⟨fun _ none_ => (nomatch none_), fun _ none_ => (nomatch none_), List.nodup_nil⟩
  | @next rest taken pass later largest offered verified after ih =>
    have split := List.take_append_drop taken rest
    have parts : ids (rest.take taken) ++ ids (rest.drop taken) = ids rest := by
      unfold ids
      rw [← List.map_append, split]
    have value : worth (rest.take taken) + worth (rest.drop taken) = worth rest := by
      rw [← worth_append, split]
    rw [← parts] at distinct
    obtain ⟨_, distinctLater, apart⟩ := List.nodup_append.mp distinct
    have built := largest.built
    rw [← offered] at built
    have moves : Moves pass.offered destination pass := by
      refine Moves.of_verified oracle built verified ?_ ?_
      · rw [offered]
        omega
      · rw [offered, List.length_take]
        omega
    obtain ⟨moved, inside, once⟩ := ih distinctLater (by omega) (by rw [List.length_drop]; omega)
    have first : ∀ coin ∈ pass.tx.inputs, coin ∈ rest.take taken := fun coin member => offered ▸ moves.draws coin member
    refine ⟨?_, ?_, ?_⟩
    · intro other member
      obtain rfl | behind := List.mem_cons.mp member
      · exact moves
      · exact moved other behind
    · intro coin member
      obtain own | behind := List.mem_append.mp member
      · exact List.mem_of_mem_take (first coin own)
      · exact List.mem_of_mem_drop (inside coin behind)
    · show (ids (pass.tx.inputs ++ chainInputs (txs later))).Nodup
      unfold ids at once ⊢
      rw [List.map_append]
      refine List.nodup_append.mpr ⟨moves.once, once, ?_⟩
      intro id own other behind same
      obtain ⟨coin, member, rfl⟩ := List.mem_map.mp own
      obtain ⟨held, memberHeld, rfl⟩ := List.mem_map.mp behind
      exact apart coin.id (mem_ids.mpr ⟨coin, first coin member, rfl⟩) held.id
        (mem_ids.mpr ⟨held, inside held memberHeld, rfl⟩) same

/-- What the passes add to the totals, where no total saturates. -/
structure Totals (before after : Merged) (passes : List Pass) : Prop where
  pending : after.pending = before.pending ++ txs passes
  moved : after.sweptTotal + after.feeTotal = before.sweptTotal + before.feeTotal + worth (chainInputs (txs passes))
  absorbed : after.absorbedTotal = before.absorbedTotal + (chainInputs (txs passes)).length
  passes : after.passes = before.passes + passes.length

theorem totals_of_moves {passes : List Pass} (moves : ∀ pass ∈ passes, Moves pass.offered destination pass)
    (merged : Merged)
    (fits : merged.sweptTotal + merged.feeTotal + worth (chainInputs (txs passes)) < u64Max)
    (few : merged.absorbedTotal + (chainInputs (txs passes)).length < 2 ^ 32) :
    Totals merged (passes.foldl Merged.add merged) passes := by
  induction passes generalizing merged with
  | nil => exact ⟨(List.append_nil _).symm, rfl, rfl, rfl⟩
  | cons pass later ih =>
    have move := moves pass List.mem_cons_self
    have balances := move.balances
    have absorbed := move.absorbed
    have inputs : chainInputs (txs (pass :: later)) = pass.tx.inputs ++ chainInputs (txs later) := rfl
    rw [inputs, worth_append] at fits
    rw [inputs, List.length_append] at few
    have swept : (merged.add pass).sweptTotal = merged.sweptTotal + pass.facts.sweptSompi := Nat.min_eq_left (by omega)
    have fee : (merged.add pass).feeTotal = merged.feeTotal + pass.facts.feeSompi := Nat.min_eq_left (by omega)
    have count : (merged.add pass).absorbedTotal = merged.absorbedTotal + pass.facts.absorbedUtxos :=
      Nat.min_eq_left (by omega)
    have behind := ih (fun other member => moves other (List.mem_cons_of_mem _ member)) (merged.add pass)
      (by omega) (by omega)
    have more := behind.moved
    have moreAbsorbed := behind.absorbed
    have morePasses := behind.passes
    rw [List.foldl_cons]
    refine ⟨?_, ?_, ?_, ?_⟩
    · rw [behind.pending]
      exact List.append_assoc _ _ _
    · rw [inputs, worth_append]
      omega
    · rw [inputs, List.length_append]
      omega
    · rw [morePasses, List.length_cons]
      show merged.passes + 1 + later.length = _
      omega

end Passes

section Conserves

variable {build : BuildBatch} {destination : Address}

theorem smallestFirst_perm (coins : List UtxoEntryReference) : (smallestFirst coins).Perm coins :=
  List.perm_insertionSort _ coins

theorem smallestFirst_sorted (coins : List UtxoEntryReference) :
    (smallestFirst coins).Pairwise fun a b => a.amount ≤ b.amount := by
  have : Std.Total fun a b : UtxoEntryReference => a.amount ≤ b.amount := ⟨fun a b => Nat.le_total a.amount b.amount⟩
  have : IsTrans UtxoEntryReference fun a b => a.amount ≤ b.amount := ⟨fun _ _ _ => Nat.le_trans⟩
  exact List.pairwise_insertionSort _ coins

/-- Each transaction spends two coins or more and makes one. -/
theorem outputs_lt_inputs {passes : List Pass} (moves : ∀ pass ∈ passes, Moves pass.offered destination pass)
    (some_ : passes ≠ []) :
    ((txs passes).flatMap (·.outputs)).length < (chainInputs (txs passes)).length := by
  have count : ∀ passes : List Pass, (∀ pass ∈ passes, Moves pass.offered destination pass) →
      ((txs passes).flatMap (·.outputs)).length + passes.length ≤ (chainInputs (txs passes)).length := by
    intro passes
    induction passes with
    | nil => exact fun _ => le_refl 0
    | cons pass later ih =>
      intro moves
      have behind := ih fun other member => moves other (List.mem_cons_of_mem _ member)
      have move := moves pass List.mem_cons_self
      have merges := move.merges
      obtain ⟨output, single, _⟩ := move.pays
      show (pass.tx.outputs ++ (txs later).flatMap (·.outputs)).length + (later.length + 1) ≤
        (pass.tx.inputs ++ chainInputs (txs later)).length
      rw [List.length_append, List.length_append, single, List.length_singleton]
      omega
  have positive := List.length_pos_iff.mpr some_
  have all := count passes moves
  omega

theorem outputs_pay {passes : List Pass} (moves : ∀ pass ∈ passes, Moves pass.offered destination pass) :
    ∀ tx ∈ txs passes, ∃ output, tx.outputs = [output] ∧ output.address = some destination := by
  intro tx member
  obtain ⟨pass, inside, rfl⟩ := List.mem_map.mp member
  exact (moves pass inside).pays

/-- No check's refusal is the refusal of a merge that built nothing. -/
theorem verifyDrain_ne_cannotMerge {pending : List BuiltTransaction} {summary : GeneratorSummary}
    {included : Option (List UtxoEntryReference)} {refused : String} (reservedCount : Nat)
    (failed : verifyDrain pending summary destination included = .error refused) :
    refused ≠ cannotMerge reservedCount := by
  have fourth : (cannotMerge reservedCount).toList[3]? = some 's' := by
    unfold cannotMerge
    split <;> decide +kernel
  have other : refused.toList[3]? ≠ some 's' := by
    unfold verifyDrain at failed
    split at failed
    · cases failed
      decide +kernel
    · split at failed
      · split at failed
        · cases failed
          decide +kernel
        · split at failed
          · cases failed
            decide +kernel
          · split at failed
            · cases failed
              decide +kernel
            · split at failed
              · cases failed
                decide +kernel
              · cases failed
      · cases failed
        simp
  rintro rfl
  exact other fourth

/-- A batched merge conserves coins and value, and fails for want of a batch exactly where no prefix
    of two coins or more builds in one transaction. -/
theorem batched_merge_conserves (build : BuildBatch) (oracle : MergesSlice build) (coins : List UtxoEntryReference)
    (distinct : (ids coins).Nodup) (fits : worth coins < u64Max) (few : coins.length < 2 ^ 32)
    (destination : Address) (reservedCount : Nat) :
    ((smallestFirst coins).Perm coins ∧ (smallestFirst coins).Pairwise fun a b => a.amount ≤ b.amount) ∧
    (∀ pending s, batchedMerge coins destination reservedCount build = .ok (pending, s) →
      (∃ passes, pending = txs passes ∧ Passes build destination (smallestFirst coins) passes ∧
        0 < passes.length ∧ passes.length ≤ MERGE_BATCH_LIMIT) ∧
      (∀ coin ∈ chainInputs pending, coin ∈ coins) ∧ (ids (chainInputs pending)).Nodup ∧
      (∀ tx ∈ pending, ∃ output, tx.outputs = [output] ∧ output.address = some destination) ∧
      s.amountSompi + s.feeSompi = worth (chainInputs pending) ∧
      s.utxoCount = (chainInputs pending).length ∧
      s.resultingCoins = pending.length ∧ s.txCount = pending.length ∧
      coins.length - (chainInputs pending).length + (pending.flatMap (·.outputs)).length < coins.length) ∧
    (batchedMerge coins destination reservedCount build = .error (cannotMerge reservedCount) ↔
      ∀ size, 2 ≤ size → size ≤ coins.length → ¬ Single build ((smallestFirst coins).take size)) ∧
    ∀ refused, batchedMerge coins destination reservedCount build = .error refused →
      refused ≠ cannotMerge reservedCount → ∃ offered tx summary, build offered = .ok (.built [tx] summary) ∧
        verifyDrain [tx] summary destination (some offered) = .error refused := by
  have same := smallestFirst_perm coins
  refine ⟨⟨same, smallestFirst_sorted coins⟩, ?_⟩
  have sortedDistinct : (ids (smallestFirst coins)).Nodup := (same.map _).nodup_iff.mpr distinct
  have sortedFits : worth (smallestFirst coins) < u64Max := by rwa [worth_perm same]
  have size := same.length_eq
  obtain ⟨passes, ran, passed, count, none_⟩ |
      ⟨⟨single, low, high, builds⟩, refused, offered, tx, summary, ran, built, failed⟩ :=
    mergePasses_ends oracle.toSpendsSlice destination MERGE_BATCH_LIMIT (smallestFirst coins) .empty
  · obtain ⟨moves, inside, once⟩ := passed.moved oracle sortedDistinct sortedFits (by omega)
    obtain ⟨least, most⟩ := worth_le_of_subset once inside
    have totals := totals_of_moves moves .empty (by show 0 + 0 + worth _ < u64Max; omega)
      (by show 0 + (chainInputs (txs passes)).length < 2 ^ 32; omega)
    have pending : (passes.foldl Merged.add .empty).pending = txs passes := totals.pending
    have moved := totals.moved
    have absorbed := totals.absorbed
    have counted := totals.passes
    have length : (txs passes).length = passes.length := List.length_map _
    unfold batchedMerge
    rw [ran]
    dsimp only
    by_cases empty : passes = []
    · subst empty
      have built : batchedMerge coins destination reservedCount build = .error (cannotMerge reservedCount) := by
        unfold batchedMerge
        rw [ran]
        rfl
      refine ⟨fun pending s made => (nomatch made), ⟨fun _ => ?_, fun _ => rfl⟩, ?_⟩
      · intro k low high
        exact none_ (by decide) rfl k low (by omega)
      · intro refused failed other
        exact absurd (Except.error.inj failed).symm other
    · have some_ : txs passes ≠ [] := fun none_ => empty (List.map_eq_nil_iff.mp none_)
      rw [pending, if_neg some_]
      refine ⟨?_, ⟨fun failed => (nomatch failed), ?_⟩, fun refused failed => (nomatch failed)⟩
      · intro made s result
        obtain ⟨rfl, rfl⟩ := Prod.mk.inj (Except.ok.inj result)
        have fewer := outputs_lt_inputs moves empty
        refine ⟨⟨passes, rfl, passed, List.length_pos_iff.mpr empty, count⟩, ?_, once, outputs_pay moves, ?_, ?_, ?_, ?_, ?_⟩
        · exact fun coin member => same.mem_iff.mp (inside coin member)
        · exact moved.trans (Nat.zero_add _)
        · exact absorbed.trans (Nat.zero_add _)
        · exact (counted.trans (Nat.zero_add _)).trans length.symm
        · exact (counted.trans (Nat.zero_add _)).trans length.symm
        · omega
      · intro never
        cases passed with
        | done => exact absurd rfl empty
        | next largest _ _ _ =>
          exact absurd ⟨_, _, largest.built⟩ (never _ largest.two (size ▸ largest.fits))
  · have whole : batchedMerge coins destination reservedCount build = .error refused := by
      unfold batchedMerge
      rw [ran]
    have apart := verifyDrain_ne_cannotMerge reservedCount failed
    rw [whole]
    refine ⟨fun pending s made => (nomatch made), ⟨fun same_ => absurd (Except.error.inj same_) apart, ?_⟩, ?_⟩
    · intro never
      exact absurd builds (never single low (size ▸ high))
    · intro other same_ _
      cases same_
      exact ⟨offered, tx, summary, built, failed⟩

section Samples

/-- An id that neither coin's transaction has. -/
def freshId (a b : TransactionId) : TransactionId := if a + 1 = b then a + 2 else a + 1

/-- One transaction over the two smallest coins of its slice, however many there are. -/
def drawsTwo : BuildBatch
  | a :: b :: _ =>
    if a.id = b.id then .ok (.built [] ⟨0, 0, 0⟩)
    else .ok (.built [⟨freshId a.id.transactionId b.id.transactionId, [a, b],
      [⟨a.amount + b.amount - 1, some home⟩], true⟩] ⟨1, 0, 1⟩)
  | _ => .ok .belowFee

/-- One transaction over the smallest coin of its slice alone. -/
def drawsOne : BuildBatch
  | a :: _ :: _ => .ok (.built [⟨a.id.transactionId + 1, [a], [⟨a.amount - 1, some home⟩], true⟩] ⟨1, 0, 1⟩)
  | _ => .ok .belowFee

def threeCoins : List UtxoEntryReference := [walletCoin 0 50, walletCoin 1 30, walletCoin 2 100]

theorem ne_add (x step : TransactionId) (moves : step ≠ 0) : x ≠ x + step := by
  intro same
  have cancel : x + 0 = x + step := (BitVec.add_zero x).trans same
  exact moves ((BitVec.add_right_inj x).mp cancel).symm

theorem freshId_ne (a b : TransactionId) : a ≠ freshId a b ∧ b ≠ freshId a b := by
  unfold freshId
  split
  · next next_ =>
    refine ⟨ne_add a 2 (by decide), ?_⟩
    have onward : a + 2 = b + 1 := by
      rw [← next_, BitVec.add_assoc]
      rfl
    rw [onward]
    exact ne_add b 1 (by decide)
  · next other => exact ⟨ne_add a 1 (by decide), fun same => other same.symm⟩

theorem drawsTwo_merges : MergesSlice drawsTwo where
  draws := by
    intro offered pending summary built tx member coin spent
    match offered with
    | [] => cases built
    | [_] => cases built
    | a :: b :: rest =>
      by_cases twice : a.id = b.id
      · rw [drawsTwo, if_pos twice] at built
        cases built
        cases member
      · rw [drawsTwo, if_neg twice] at built
        cases built
        obtain ⟨first, second⟩ := freshId_ne a.id.transactionId b.id.transactionId
        rw [List.mem_singleton.mp member] at spent
        simp only [List.mem_cons, List.not_mem_nil, or_false] at spent
        left
        obtain rfl | rfl := spent
        · refine ⟨List.mem_cons_self, ?_⟩
          intro own
          exact first (List.mem_singleton.mp own)
        · refine ⟨List.mem_cons_of_mem _ List.mem_cons_self, ?_⟩
          intro own
          exact second (List.mem_singleton.mp own)
  thresholds := by
    intro coins
    match coins with
    | [] => exact ⟨0, 0, fun size low high => absurd (low.trans high) (by decide)⟩
    | [_] => exact ⟨0, 0, fun size low high => absurd (low.trans high) (Nat.lt_irrefl 1)⟩
    | a :: b :: rest =>
      have front : ∀ size, 2 ≤ size → (a :: b :: rest).take size = a :: b :: rest.take (size - 2) := by
        intro size low
        obtain ⟨more, rfl⟩ := Nat.exists_eq_add_of_le' low
        rfl
      by_cases twice : a.id = b.id
      · refine ⟨0, 0, fun size low high => ⟨fun few => ?_, fun enough early => ?_, fun _ _ => ?_⟩⟩
        · omega
        · omega
        · rw [front size low]
          exact ⟨[], ⟨0, 0, 0⟩, if_pos twice, by decide⟩
      · refine ⟨0, rest.length + 2, fun size low high => ⟨fun few => ?_, fun _ _ => ?_, fun _ late => ?_⟩⟩
        · omega
        · rw [front size low]
          exact ⟨_, _, if_neg twice⟩
        · simp only [List.length_cons] at high
          omega
  merges := by
    intro offered tx summary built
    match offered with
    | [] => cases built
    | [_] => cases built
    | a :: b :: rest =>
      by_cases twice : a.id = b.id
      · rw [drawsTwo, if_pos twice] at built
        cases built
      · rw [drawsTwo, if_neg twice] at built
        cases built
        refine ⟨le_refl 2, ?_⟩
        exact List.nodup_cons.mpr ⟨fun same => twice (List.mem_singleton.mp same), List.nodup_singleton _⟩

theorem drawsOne_spends : SpendsSlice drawsOne where
  draws := by
    intro offered pending summary built tx member coin spent
    match offered with
    | [] => cases built
    | [_] => cases built
    | a :: b :: rest =>
      cases built
      rw [List.mem_singleton.mp member] at spent
      obtain rfl := List.mem_singleton.mp spent
      refine .inl ⟨List.mem_cons_self, ?_⟩
      intro own
      exact ne_add _ 1 (by decide) (List.mem_singleton.mp own)
  thresholds := by
    intro coins
    refine ⟨0, coins.length, fun size low high => ⟨fun few => by omega, fun _ _ => ?_, fun _ late => by omega⟩⟩
    match coins with
    | [] => exact absurd (low.trans high) (by decide)
    | [_] => exact absurd (low.trans high) (Nat.lt_irrefl 1)
    | a :: b :: rest =>
      obtain ⟨more, rfl⟩ := Nat.exists_eq_add_of_le' low
      exact ⟨_, _, rfl⟩

theorem batched_merge_of_three : ∃ pending s, batchedMerge threeCoins home 0 drawsTwo = .ok (pending, s) ∧
    s.amountSompi + s.feeSompi = worth (chainInputs pending) ∧
    threeCoins.length - (chainInputs pending).length + (pending.flatMap (·.outputs)).length < threeCoins.length := by
  have merged : batchedMerge threeCoins home 0 drawsTwo =
      .ok ([⟨10, [walletCoin 1 30, walletCoin 0 50], [⟨79, some home⟩], true⟩],
        ⟨home, 79, 1, 80, 0, 1, 2, 1, 1, 0⟩) := by
    decide +kernel
  obtain ⟨_, _, _, _, balances, _, _, _, falls⟩ :=
    (batched_merge_conserves drawsTwo drawsTwo_merges threeCoins (by decide +kernel) (by decide +kernel)
      (by decide +kernel) home 0).2.1 _ _ merged
  exact ⟨_, _, merged, balances, falls⟩

def twoCoins : List UtxoEntryReference := [walletCoin 0 50, walletCoin 1 30]

/-- A batch that spends one coin of its slice is accepted, and there are as many coins as before. -/
theorem merge_of_one_coin_accepted :
    SpendsSlice drawsOne ∧ (ids twoCoins).Nodup ∧ worth twoCoins < 2 ^ 64 ∧
      ∃ pending s, batchedMerge twoCoins home 0 drawsOne = .ok (pending, s) ∧
        ¬ twoCoins.length - (chainInputs pending).length + (pending.flatMap (·.outputs)).length < twoCoins.length := by
  have merged : batchedMerge twoCoins home 0 drawsOne =
      .ok ([⟨10, [walletCoin 1 30], [⟨29, some home⟩], true⟩], ⟨home, 29, 1, 30, 0, 1, 1, 1, 1, 0⟩) := by
    decide +kernel
  exact ⟨drawsOne_spends, by decide +kernel, by decide +kernel, _, _, merged, by decide +kernel⟩

end Samples

end Conserves

end Kaspaverse.Chain
