import Mathlib.Data.List.Sort
import Kaspaverse.Chain.InFlight

namespace Kaspaverse.Chain

def RIDER_LIMIT : Nat := 2

def isReserved (entry : UtxoEntryReference) (exclude : List Address) : Bool :=
  entry.address.all fun address => decide (address ∈ exclude)

def isCovenantBound (entry : UtxoEntryReference) : Bool := entry.covenantId.isSome

def largestAmount (a b : UtxoEntryReference) : Prop := b.amount ≤ a.amount

instance : DecidableRel largestAmount := fun a b => inferInstanceAs (Decidable (b.amount ≤ a.amount))

def selectSpendPriority (mature pinned : List UtxoEntryReference) (riders : Nat)
    (exclude : List Address) : List UtxoEntryReference :=
  let sorted := (mature.filter fun entry =>
    decide (entry.id ∉ ids pinned) && !isCovenantBound entry).insertionSort largestAmount
  let pool := if exclude = [] then sorted else sorted.filter fun entry => !isReserved entry exclude
  let reserved := if exclude = [] then [] else sorted.filter fun entry => isReserved entry exclude
  let order := (pinned.filter fun entry => !isCovenantBound entry).insertionSort largestAmount
  let keep := pool.length - min pool.length riders
  order ++ (pool.drop keep).reverse ++ pool.take keep ++ reserved

/-- The coins of `coins` not placed yet, each once, without the covenant-bound ones. -/
def place (placed : Finset UtxoEntryId) : List UtxoEntryReference → List UtxoEntryReference
  | [] => []
  | coin :: rest =>
    if isCovenantBound coin = false ∧ coin.id ∉ placed then
      coin :: place (insert coin.id placed) rest
    else place placed rest

/-- Whether a coin leads a build whose pinned block is bound to an address. -/
def leadsPinned (pinned : List UtxoEntryReference) (coin : UtxoEntryReference) : Bool :=
  match pinned.head?.bind (·.address) with
  | some bound => decide (coin.address = some bound)
  | none => true

/-- The order with the coins of our sends of unknown fate placed. -/
def anchored (order pinned first last : List UtxoEntryReference) : List UtxoEntryReference :=
  if first = [] ∧ last = [] then order
  else
    let first := place ∅ first
    let last := place (ids first).toFinset (last.filter fun coin => decide (coin.id ∉ ids pinned))
    let rest := order.filter fun coin => decide (coin.id ∉ ids first ++ ids last)
    let pinnedRest := rest.takeWhile fun coin => decide (coin.id ∈ ids pinned)
    let tail := rest.dropWhile fun coin => decide (coin.id ∈ ids pinned)
    first.filter (leadsPinned pinned) ++ pinnedRest ++
      first.filter (fun coin => !leadsPinned pinned coin) ++ tail ++ last

/-- What a build does with the coins of legs whose fate is unknown. -/
structure Anchoring where
  first : List UtxoEntryReference
  last : List UtxoEntryReference
  blocked : Bool

/-- Largest first; ties in outpoint order. -/
def largestFirst (a b : UtxoEntryReference) : Prop :=
  b.amount < a.amount ∨ a.amount = b.amount ∧ (a.id.transactionId < b.id.transactionId ∨
    a.id.transactionId = b.id.transactionId ∧ a.id.index ≤ b.id.index)

instance : DecidableRel largestFirst := fun a b => by
  unfold largestFirst
  infer_instance

/-- The coins of a leg no send of ours in flight holds. -/
def freeCoins (ours : List UtxoEntryId) (coins : List UtxoEntryReference) : List UtxoEntryReference :=
  coins.filter fun coin => decide (coin.id ∉ ours)

/-- The coins a leg leads with: its own free ones, or for a while its earlier legs' outputs. -/
def legAnchors (ours : List UtxoEntryId) (now : Nat) (leg : UnknownLeg) : List UtxoEntryReference :=
  if freeCoins ours leg.held ≠ [] then (freeCoins ours leg.held).insertionSort largestFirst
  else if leg.held = [] ∧ now - leg.sinceUnixMs < EARLIER_ANCHOR_FOR_MS then
    (freeCoins ours leg.earlier).insertionSort largestFirst
  else []

namespace InFlightSends

/-- The coins our other sends in flight hold. -/
def heldByOurs (s : InFlightSends) (spentByOurs : List UtxoEntryId) : List UtxoEntryId :=
  spentByOurs ++ ((s.taken.values.filter fun record => !record.isAccepted).flatMap fun record =>
    ids record.utxoEntries) ++ s.carriedInputs

def anchoring (s : InFlightSends) (key : String) (spendable spentByOurs : List UtxoEntryId)
    (now : Nat) : Anchoring :=
  let ours := s.heldByOurs spentByOurs
  let keyed := s.unknown.filter fun leg => leg.paidTo == key
  let each := (keyed.map (legAnchors ours now)).filter (!·.isEmpty)
  { first := each.filterMap List.head? ++ each.flatMap List.tail
    last := (s.unknown.filter fun leg => leg.paidTo != key).flatMap fun leg =>
      freeCoins ours (leg.held.filter fun coin => decide (coin.id ∈ spendable))
    blocked := keyed.any fun leg => (freeCoins ours leg.held).isEmpty && !leg.held.isEmpty }

end InFlightSends

theorem mem_place {placed : Finset UtxoEntryId} {coins : List UtxoEntryReference}
    {coin : UtxoEntryReference} (member : coin ∈ place placed coins) :
    coin ∈ coins ∧ isCovenantBound coin = false ∧ coin.id ∉ placed := by
  induction coins generalizing placed with
  | nil => cases member
  | cons first rest ih =>
    rw [place] at member
    split at member
    · rename_i fresh
      rcases List.mem_cons.mp member with rfl | later
      · exact ⟨List.mem_cons_self, fresh.1, fresh.2⟩
      · obtain ⟨inside, free, new⟩ := ih later
        exact ⟨List.mem_cons_of_mem _ inside, free, fun old => new (Finset.mem_insert_of_mem old)⟩
    · obtain ⟨inside, free, new⟩ := ih member
      exact ⟨List.mem_cons_of_mem _ inside, free, new⟩

/-- The coins of the pinned block, in its order. -/
def pinnedBlock (pinned : List UtxoEntryReference) : List UtxoEntryReference :=
  (pinned.filter fun entry => !isCovenantBound entry).insertionSort largestAmount

theorem mem_pinnedBlock {pinned : List UtxoEntryReference} {coin : UtxoEntryReference} :
    coin ∈ pinnedBlock pinned ↔ coin ∈ pinned ∧ isCovenantBound coin = false := by
  rw [pinnedBlock, List.mem_insertionSort, List.mem_filter]
  simp

theorem takeWhile_block {α : Type*} (p : α → Bool) {block tail : List α}
    (inside : ∀ a ∈ block, p a = true) (outside : ∀ a ∈ tail, p a = false) :
    (block ++ tail).takeWhile p = block ∧ (block ++ tail).dropWhile p = tail := by
  have nothing : tail.takeWhile p = [] ∧ tail.dropWhile p = tail := by
    cases tail with
    | nil => exact ⟨rfl, rfl⟩
    | cons first rest =>
      have stops := outside first List.mem_cons_self
      exact ⟨by rw [List.takeWhile_cons, stops]; rfl, by rw [List.dropWhile_cons, stops]; rfl⟩
  constructor
  · rw [List.takeWhile_append_of_pos inside, nothing.1, List.append_nil]
  · rw [List.dropWhile_append_of_pos inside, nothing.2]

end Kaspaverse.Chain
