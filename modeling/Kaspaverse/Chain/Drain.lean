import Mathlib.Data.List.Nodup
import Mathlib.Data.List.Perm.Basic
import Kaspaverse.Chain.Coins

namespace Kaspaverse.Chain

structure TransactionOutput where
  value : Nat
  /-- The address its script is the standard script of. -/
  address : Option Address
  deriving DecidableEq

/-- One transaction of a built chain. Each input names the coin it spends. -/
structure BuiltTransaction where
  id : TransactionId
  inputs : List UtxoEntryReference
  outputs : List TransactionOutput
  isFinal : Bool
  deriving DecidableEq

structure GeneratorSummary where
  aggregateFees : Nat
  aggregateMass : Nat
  numberOfGeneratedTransactions : Nat
  deriving DecidableEq

structure SendSummary where
  destination : Address
  amountSompi : Nat
  feeSompi : Nat
  totalSompi : Nat
  mass : Nat
  txCount : Nat
  utxoCount : Nat
  resultingCoins : Nat
  sourceAddresses : Nat
  payloadLen : Nat
  deriving DecidableEq

structure DrainFacts where
  sweptSompi : Nat
  feeSompi : Nat
  absorbedUtxos : Nat
  deriving DecidableEq

namespace BuiltTransaction

/-- The coins spent, one for each outpoint. -/
def utxoEntries (tx : BuiltTransaction) : KeyMap UtxoEntryId UtxoEntryReference :=
  tx.inputs.foldl (fun entries coin => entries.insert coin.id coin) ∅

/-- The sum of the entries, as a `u64`. -/
def consumedValue (tx : BuiltTransaction) : Nat := (tx.utxoEntries.values.map (·.amount)).sum % 2 ^ 64

/-- The outpoints it makes, and what each is worth. -/
def created (tx : BuiltTransaction) : List (UtxoEntryId × Nat) :=
  tx.outputs.zipIdx.map fun output => (⟨tx.id, output.2⟩, output.1.value)

end BuiltTransaction

open BuiltTransaction

section VerifyDrain

variable (pending : List BuiltTransaction) (summary : GeneratorSummary) (destination : Address)

def TransactionOutput.pays (output : TransactionOutput) (destination : Address) : Bool :=
  decide (output.address = some destination)

/-- Does any output of the transaction pay the address? -/
def paysTo (tx : BuiltTransaction) (address : Address) : Bool := tx.outputs.any (·.pays address)

def chainTxids : List TransactionId := pending.map (·.id)

def chainInputs : List UtxoEntryReference := pending.flatMap (·.inputs)

/-- The wallet coins consumed: no transaction of this very chain makes them. -/
def consumed : List UtxoEntryReference :=
  (chainInputs pending).filter fun coin => decide (coin.id.transactionId ∉ chainTxids pending)

/-- A coin consumed that nobody offered. -/
def drewOutside (included : Option (List UtxoEntryReference)) : Bool :=
  match included with
  | none => false
  | some included => (consumed pending).any fun coin => decide (coin.id ∉ ids included)

def verifyDrain (included : Option (List UtxoEntryReference)) : Except String DrainFacts :=
  match pending.find? (·.isFinal) with
  | none => .error "the drain built no final transaction — refusing"
  | some final =>
    match final.outputs with
    | [output] =>
      if paysTo final destination = false then
        .error "the drain's output does not pay the drain destination — refusing"
      else if (pending.filter (!·.isFinal)).any fun leg => !leg.outputs.all (·.pays destination) then
        .error "a drain leg pays outside the drain destination — refusing"
      else if drewOutside pending included then
        .error "the drain drew a coin outside its offered set — refusing"
      else if pending.length = 1 ∧ saturatingAdd output.value summary.aggregateFees ≠ final.consumedValue then
        .error "the drain's arithmetic does not balance — refusing"
      else .ok ⟨output.value, summary.aggregateFees, (consumed pending).length % 2 ^ 32⟩
    | outputs =>
      .error ("the drain would leave " ++ toString outputs.length ++ " outputs instead of one — refusing")

def finishDrain (included : Option (List UtxoEntryReference)) (chainedDrainAllowed isExit : Bool) :
    Except String SendSummary :=
  if 1 < pending.length ∧ chainedDrainAllowed = false then
    .error (if isExit then
      "too many coins to sweep in one transaction — merge your coins first, then sweep"
    else
      "too many coins to merge in one transaction while some stay reserved for your " ++
        "conversations — ordinary sends absorb a few fragments each, so retry after " ++
        "spending, or sweep everything to a new wallet")
  else
    match verifyDrain pending summary destination included with
    | .error refused => .error refused
    | .ok facts => .ok {
        destination := destination
        amountSompi := facts.sweptSompi
        feeSompi := facts.feeSompi
        totalSompi := saturatingAdd facts.sweptSompi facts.feeSompi
        mass := summary.aggregateMass
        txCount := summary.numberOfGeneratedTransactions % 2 ^ 32
        utxoCount := facts.absorbedUtxos
        resultingCoins := 1
        sourceAddresses := 0
        payloadLen := 0 }

end VerifyDrain

section Verified

variable {pending : List BuiltTransaction} {summary : GeneratorSummary} {destination : Address}
  {included : Option (List UtxoEntryReference)}

/-- What an accepted chain has been held to. -/
structure Verified (pending : List BuiltTransaction) (summary : GeneratorSummary) (destination : Address)
    (included : Option (List UtxoEntryReference)) (facts : DrainFacts) : Prop where
  final : ∃ tx output, pending.find? (·.isFinal) = some tx ∧ tx.outputs = [output] ∧
    output.address = some destination ∧ facts.sweptSompi = output.value ∧
    (pending.length = 1 → saturatingAdd output.value summary.aggregateFees = tx.consumedValue)
  legs : ∀ leg ∈ pending, leg.isFinal = false → ∀ output ∈ leg.outputs, output.address = some destination
  offered : ∀ coins, included = some coins → ∀ coin ∈ consumed pending, coin.id ∈ ids coins
  fee : facts.feeSompi = summary.aggregateFees
  absorbed : facts.absorbedUtxos = (consumed pending).length % 2 ^ 32

theorem drewOutside_false (inside : drewOutside pending included = false) :
    ∀ coins, included = some coins → ∀ coin ∈ consumed pending, coin.id ∈ ids coins := by
  rintro coins rfl coin member
  by_contra outside
  have found : drewOutside pending (some coins) = true := List.any_eq_true.mpr ⟨coin, member, decide_eq_true outside⟩
  rw [inside] at found
  cases found

theorem verifyDrain_ok {facts : DrainFacts} (accepted : verifyDrain pending summary destination included = .ok facts) :
    Verified pending summary destination included facts := by
  unfold verifyDrain at accepted
  split at accepted
  case h_1 => cases accepted
  case h_2 final found =>
    split at accepted
    case h_2 => cases accepted
    case h_1 output single =>
      split at accepted
      · cases accepted
      · next pays =>
        split at accepted
        · cases accepted
        · next legs =>
          split at accepted
          · cases accepted
          · next offered =>
            split at accepted
            · cases accepted
            · next balances =>
              cases accepted
              have paid : output.address = some destination := by
                unfold paysTo at pays
                rw [single] at pays
                simpa [TransactionOutput.pays] using pays
              refine ⟨⟨final, output, found, single, paid, rfl, ?_⟩, ?_, ?_, rfl, rfl⟩
              · intro alone
                by_contra apart
                exact balances ⟨alone, apart⟩
              · intro leg member intermediate output_ paidOut
                by_contra elsewhere
                apply legs
                refine List.any_eq_true.mpr ⟨leg, List.mem_filter.mpr ⟨member, by rw [intermediate]; rfl⟩, ?_⟩
                rw [Bool.not_eq_true', ← Bool.not_eq_true, List.all_eq_true]
                intro all
                exact elsewhere (of_decide_eq_true (all output_ paidOut))
              · exact drewOutside_false (Bool.not_eq_true _ ▸ offered)

theorem finishDrain_ok {chainedDrainAllowed isExit : Bool} {s : SendSummary}
    (accepted : finishDrain pending summary destination included chainedDrainAllowed isExit = .ok s) :
    ∃ facts, verifyDrain pending summary destination included = .ok facts ∧ s.amountSompi = facts.sweptSompi ∧
      s.feeSompi = facts.feeSompi ∧ s.utxoCount = facts.absorbedUtxos ∧ s.resultingCoins = 1 := by
  unfold finishDrain at accepted
  split at accepted
  · cases accepted
  · split at accepted
    · cases accepted
    · next facts verified =>
      cases accepted
      exact ⟨facts, verified, rfl, rfl, rfl, rfl⟩

end Verified

section Summary

def worth (coins : List UtxoEntryReference) : Nat := (coins.map (·.amount)).sum

variable (pending : List BuiltTransaction)

def chainCreated : List (UtxoEntryId × Nat) := pending.flatMap (·.created)

def createdValue : Nat := ((chainCreated pending).map Prod.snd).sum

/-- What the chain makes and does not spend itself. -/
def unspent : List (UtxoEntryId × Nat) :=
  (chainCreated pending).filter fun made => decide (made.1 ∉ ids (chainInputs pending))

/-- The inputs that spend the chain's own transactions. -/
def internalInputs : List UtxoEntryReference :=
  (chainInputs pending).filter fun coin => decide (coin.id.transactionId ∈ chainTxids pending)

/-- What the transaction that the checks take for the final one makes. -/
def finalValue : Nat := createdValue (pending.find? (·.isFinal)).toList

/-- A chain that is what its summary says. -/
structure AsSummarised (destination : Address) (included : Option (List UtxoEntryReference)) (s : SendSummary) :
    Prop where
  pays : ∀ tx ∈ pending, ∀ output ∈ tx.outputs, output.address = some destination
  coins : (unspent pending).length = s.resultingCoins
  balances : s.amountSompi + s.feeSompi = worth (consumed pending)
  once : (ids (consumed pending)).Nodup
  counted : s.utxoCount = (consumed pending).length
  offered : ∀ coins, included = some coins → ∀ coin ∈ consumed pending, coin.id ∈ ids coins

/-- What the checks leave to the chain. -/
structure LeftToTheChain (destination : Address) : Prop where
  finals : ∀ tx ∈ pending, tx.isFinal = true → ∀ output ∈ tx.outputs, output.address = some destination
  single : (unspent pending).length = 1
  edges : worth (internalInputs pending) + finalValue pending = createdValue pending
  once : (ids (consumed pending)).Nodup
  counted : (consumed pending).length < 2 ^ 32

variable {pending} {summary : GeneratorSummary} {destination : Address}
  {included : Option (List UtxoEntryReference)} {s : SendSummary}

theorem worth_perm {coins other : List UtxoEntryReference} (same : coins.Perm other) : worth coins = worth other :=
  (same.map _).sum_nat

theorem worth_append (coins other : List UtxoEntryReference) : worth (coins ++ other) = worth coins + worth other := by
  unfold worth
  rw [List.map_append, List.sum_append]

theorem worth_inputs (pending : List BuiltTransaction) :
    worth (internalInputs pending) + worth (consumed pending) = worth (chainInputs pending) := by
  have split := List.filter_append_perm (fun coin => decide (coin.id.transactionId ∈ chainTxids pending))
    (chainInputs pending)
  rw [← worth_perm split, worth_append]
  unfold internalInputs consumed
  simp only [decide_not]

theorem createdValue_append (before after : List BuiltTransaction) :
    createdValue (before ++ after) = createdValue before + createdValue after := by
  unfold createdValue chainCreated
  rw [List.flatMap_append, List.map_append, List.sum_append]

theorem createdValue_single {tx : BuiltTransaction} {output : TransactionOutput} (single : tx.outputs = [output]) :
    createdValue [tx] = output.value := by
  unfold createdValue chainCreated created
  simp [single]

theorem Verified.finalValue {facts : DrainFacts} (verified : Verified pending summary destination included facts) :
    finalValue pending = facts.sweptSompi := by
  obtain ⟨tx, output, found, single, _, swept, _⟩ := verified.final
  unfold Chain.finalValue
  rw [found, swept]
  exact createdValue_single single

/-- An accepted chain is what its summary says exactly where it is what the checks leave to it. -/
theorem asSummarised_iff {chainedDrainAllowed isExit : Bool}
    (fees : summary.aggregateFees + createdValue pending = worth (chainInputs pending))
    (accepted : finishDrain pending summary destination included chainedDrainAllowed isExit = .ok s) :
    AsSummarised pending destination included s ↔ LeftToTheChain pending destination := by
  obtain ⟨facts, checked, amount, fee, count, one⟩ := finishDrain_ok accepted
  have verified := verifyDrain_ok checked
  have inputs := worth_inputs pending
  have swept := verified.finalValue
  have aggregate := verified.fee
  have absorbed := verified.absorbed
  constructor
  · intro summarised
    refine ⟨fun tx member _ => summarised.pays tx member, ?_, ?_, summarised.once, ?_⟩
    · rw [summarised.coins, one]
    · have balances := summarised.balances
      omega
    · have counted := summarised.counted
      omega
  · intro left
    refine ⟨?_, ?_, ?_, left.once, ?_, verified.offered⟩
    · intro tx member
      cases final : tx.isFinal with
      | true => exact left.finals tx member final
      | false => exact verified.legs tx member final
    · rw [left.single, one]
    · have edges := left.edges
      omega
    · have counted := left.counted
      omega

section Linked

/-- A chain as the Generator builds one: its legs in order with the final transaction behind them, and
    every input on the chain itself an earlier leg's output at its value, each spent once. -/
structure Linked (legs : List BuiltTransaction) (final : BuiltTransaction) : Prop where
  distinct : (chainTxids (legs ++ [final])).Nodup
  last : final.isFinal = true
  before : ∀ leg ∈ legs, leg.isFinal = false
  edges : ∀ coin ∈ internalInputs (legs ++ [final]), (coin.id, coin.amount) ∈ chainCreated legs
  once : (ids (internalInputs (legs ++ [final]))).Nodup

variable {legs : List BuiltTransaction} {final : BuiltTransaction}

theorem mem_created {tx : BuiltTransaction} {made : UtxoEntryId × Nat} (member : made ∈ tx.created) :
    made.1.transactionId = tx.id := by
  obtain ⟨output, _, rfl⟩ := List.mem_map.mp member
  rfl

theorem created_nodup (tx : BuiltTransaction) : (tx.created.map Prod.fst).Nodup := by
  have indices := List.nodup_zipIdx_map_snd tx.outputs
  have injective : Function.Injective fun index : Nat => (⟨tx.id, index⟩ : UtxoEntryId) := by
    intro first second same
    exact (UtxoEntryId.mk.inj same).2
  have mapped := indices.map injective
  rw [List.map_map] at mapped
  unfold created
  rw [List.map_map]
  exact mapped

theorem chainCreated_nodup (distinct : (chainTxids pending).Nodup) :
    ((chainCreated pending).map Prod.fst).Nodup := by
  induction pending with
  | nil => exact List.nodup_nil
  | cons tx rest ih =>
    obtain ⟨apart, later⟩ := List.nodup_cons.mp distinct
    show ((tx.created ++ chainCreated rest).map Prod.fst).Nodup
    rw [List.map_append]
    refine List.nodup_append.mpr ⟨created_nodup tx, ih later, ?_⟩
    intro id one other two same
    obtain ⟨made, mine, rfl⟩ := List.mem_map.mp one
    obtain ⟨found, theirs, rfl⟩ := List.mem_map.mp two
    obtain ⟨owner, member, its⟩ := List.mem_flatMap.mp theirs
    apply apart
    refine List.mem_map.mpr ⟨owner, member, ?_⟩
    rw [← mem_created its, ← same, mem_created mine]

theorem Linked.find (linked : Linked legs final) : (legs ++ [final]).find? (·.isFinal) = some final := by
  have none_ : legs.find? (·.isFinal) = none := by
    rw [List.find?_eq_none]
    intro leg member
    rw [linked.before leg member]
    exact Bool.false_ne_true
  rw [List.find?_append, none_, List.find?_cons, linked.last]
  rfl

/-- Nothing in the chain spends its last transaction. -/
theorem Linked.final_unspent (linked : Linked legs final) {made : UtxoEntryId × Nat} (mine : made ∈ final.created) :
    made.1 ∉ ids (chainInputs (legs ++ [final])) := by
  intro spent
  obtain ⟨coin, member, same⟩ := mem_ids.mp spent
  have own := mem_created mine
  have inside : coin ∈ internalInputs (legs ++ [final]) := by
    refine List.mem_filter.mpr ⟨member, decide_eq_true ?_⟩
    rw [same, own]
    exact List.mem_map.mpr ⟨final, List.mem_append_right _ (List.mem_singleton_self _), rfl⟩
  obtain ⟨leg, early, its⟩ := List.mem_flatMap.mp (linked.edges coin inside)
  have id : leg.id = final.id := by
    rw [← mem_created its, same, own]
  have distinct := linked.distinct
  unfold chainTxids at distinct
  rw [List.map_append] at distinct
  exact (List.nodup_append.mp distinct).2.2 leg.id (List.mem_map_of_mem early) final.id (List.mem_singleton_self _) id

theorem unspent_append (before after : List BuiltTransaction) (pending : List BuiltTransaction) :
    (chainCreated (before ++ after)).filter (fun made => decide (made.1 ∉ ids (chainInputs pending))) =
      (chainCreated before).filter (fun made => decide (made.1 ∉ ids (chainInputs pending))) ++
        (chainCreated after).filter fun made => decide (made.1 ∉ ids (chainInputs pending)) := by
  unfold chainCreated
  rw [List.flatMap_append, List.filter_append]

/-- Where every leg's output is spent, the chain spends on itself what its legs make. -/
theorem Linked.spent_worth (linked : Linked legs final)
    (spent : ∀ made ∈ chainCreated legs, made.1 ∈ ids (chainInputs (legs ++ [final]))) :
    worth (internalInputs (legs ++ [final])) = createdValue legs := by
  have distinct : (chainTxids legs).Nodup := by
    have all := linked.distinct
    unfold chainTxids at all ⊢
    rw [List.map_append] at all
    exact (List.nodup_append.mp all).1
  have nodup := chainCreated_nodup distinct
  have pairs : ((internalInputs (legs ++ [final])).map fun coin => (coin.id, coin.amount)).Perm (chainCreated legs) := by
    refine (List.perm_ext_iff_of_nodup ?_ (List.Nodup.of_map _ nodup)).mpr ?_
    · have once := linked.once
      apply List.Nodup.of_map Prod.fst
      rw [List.map_map]
      exact once
    · intro made
      constructor
      · intro member
        obtain ⟨coin, inside, rfl⟩ := List.mem_map.mp member
        exact linked.edges coin inside
      · intro member
        obtain ⟨coin, input, same⟩ := mem_ids.mp (spent made member)
        have inside : coin ∈ internalInputs (legs ++ [final]) := by
          refine List.mem_filter.mpr ⟨input, decide_eq_true ?_⟩
          obtain ⟨leg, early, its⟩ := List.mem_flatMap.mp member
          rw [same, mem_created its]
          exact List.mem_map.mpr ⟨leg, List.mem_append_left _ early, rfl⟩
        have listed := linked.edges coin inside
        have value := List.inj_on_of_nodup_map nodup listed member same
        exact List.mem_map.mpr ⟨coin, inside, value⟩
  have sums := (pairs.map Prod.snd).sum_nat
  rw [List.map_map] at sums
  exact sums

/-- Of a Generator's chain the checks leave these alone. -/
theorem Linked.left_iff {facts : DrainFacts} (linked : Linked legs final)
    (verified : Verified (legs ++ [final]) summary destination included facts) :
    LeftToTheChain (legs ++ [final]) destination ↔
      (∀ made ∈ chainCreated legs, made.1 ∈ ids (chainInputs (legs ++ [final]))) ∧
        (ids (consumed (legs ++ [final]))).Nodup ∧ (consumed (legs ++ [final])).length < 2 ^ 32 := by
  obtain ⟨tx, output, found, single, paid, _, _⟩ := verified.final
  rw [linked.find] at found
  cases found
  have last : (chainCreated [final]).filter (fun made => decide (made.1 ∉ ids (chainInputs (legs ++ [final])))) =
      chainCreated [final] := by
    refine List.filter_eq_self.mpr fun made member => decide_eq_true (linked.final_unspent ?_)
    obtain ⟨tx, only, mine⟩ := List.mem_flatMap.mp member
    rwa [List.mem_singleton.mp only] at mine
  have one : (chainCreated [final]).length = 1 := by
    unfold chainCreated created
    simp [single]
  have count : (unspent (legs ++ [final])).length =
      ((chainCreated legs).filter fun made => decide (made.1 ∉ ids (chainInputs (legs ++ [final])))).length + 1 := by
    unfold unspent
    rw [unspent_append, last, List.length_append, one]
  constructor
  · intro left
    refine ⟨?_, left.once, left.counted⟩
    have none_ : (chainCreated legs).filter (fun made => decide (made.1 ∉ ids (chainInputs (legs ++ [final])))) = [] := by
      apply List.length_eq_zero_iff.mp
      have single := left.single
      omega
    intro made member
    have spent := List.filter_eq_nil_iff.mp none_ made member
    by_contra outside
    exact spent (decide_eq_true outside)
  · rintro ⟨spent, once, counted⟩
    refine ⟨?_, ?_, ?_, once, counted⟩
    · intro tx member isFinal output_ its
      obtain early | only := List.mem_append.mp member
      · rw [linked.before tx early] at isFinal
        cases isFinal
      · rw [List.mem_singleton.mp only, single] at its
        rw [List.mem_singleton.mp its, paid]
    · have none_ : (chainCreated legs).filter
          (fun made => decide (made.1 ∉ ids (chainInputs (legs ++ [final])))) = [] := by
        refine List.filter_eq_nil_iff.mpr fun made member outside => ?_
        exact of_decide_eq_true outside (spent made member)
      rw [count, none_]
      rfl
    · unfold finalValue
      rw [linked.spent_worth spent, linked.find, createdValue_append]
      rfl

end Linked

def home : Address := ⟨0, [1]⟩

def walletCoin (index amount : Nat) : UtxoEntryReference :=
  ⟨⟨9, index⟩, amount, some home, 0, [], 0, false, none⟩

def merged (txid : TransactionId) (amount : Nat) : UtxoEntryReference :=
  ⟨⟨txid, 0⟩, amount, some home, 0, [], 0, false, none⟩

/-- Two coins merged, and a third beside what they make. -/
def compound : List BuiltTransaction :=
  [⟨1, [walletCoin 0 50, walletCoin 1 30], [⟨75, some home⟩], false⟩,
    ⟨2, [merged 1 75, walletCoin 2 100], [⟨160, some home⟩], true⟩]

/-- A leg whose coin stays where it is, and a final transaction of another coin. -/
def apart : List BuiltTransaction :=
  [⟨1, [walletCoin 0 50], [⟨40, some home⟩], false⟩, ⟨2, [walletCoin 2 100], [⟨90, some home⟩], true⟩]

end Summary

end Kaspaverse.Chain
