import Mathlib
import Kaspaverse.Chain.SpendPolicy

namespace Kaspaverse.Chain

theorem mem_freeCoins {ours : List UtxoEntryId} {coins : List UtxoEntryReference}
    {coin : UtxoEntryReference} : coin ∈ freeCoins ours coins ↔ coin ∈ coins ∧ coin.id ∉ ours := by
  simp [freeCoins]

theorem freeCoins_congr {ours others : List UtxoEntryId} (same : ∀ id, id ∈ ours ↔ id ∈ others) :
    freeCoins ours = freeCoins others := by
  funext coins
  apply List.filter_congr
  intro coin _
  rw [decide_eq_decide, same]

theorem legAnchors_congr {ours others : List UtxoEntryId} (same : ∀ id, id ∈ ours ↔ id ∈ others)
    (now : Nat) (leg : UnknownLeg) : legAnchors ours now leg = legAnchors others now leg := by
  rw [legAnchors, legAnchors, freeCoins_congr same]

theorem mem_legAnchors {ours : List UtxoEntryId} {now : Nat} {leg : UnknownLeg}
    {coin : UtxoEntryReference} (member : coin ∈ legAnchors ours now leg) :
    coin ∈ leg.inputs ∧ coin.id ∉ ours := by
  rw [legAnchors] at member
  split at member
  · rw [List.mem_insertionSort, mem_freeCoins] at member
    exact ⟨List.mem_append_left _ member.1, member.2⟩
  · split at member
    · rw [List.mem_insertionSort, mem_freeCoins] at member
      exact ⟨List.mem_append_right _ member.1, member.2⟩
    · cases member

/-- A leg leads with something: it holds a free coin of its own, or it holds none at all, is young,
    and one of its earlier legs' outputs is free. -/
theorem legAnchors_ne_nil {ours : List UtxoEntryId} {now : Nat} {leg : UnknownLeg} :
    legAnchors ours now leg ≠ [] ↔ (∃ coin ∈ leg.held, coin.id ∉ ours) ∨
      leg.held = [] ∧ now - leg.sinceUnixMs < EARLIER_ANCHOR_FOR_MS ∧
        ∃ coin ∈ leg.earlier, coin.id ∉ ours := by
  have some_iff : ∀ coins, freeCoins ours coins ≠ [] ↔ ∃ coin ∈ coins, coin.id ∉ ours := by
    intro coins
    constructor
    · intro some_
      obtain ⟨coin, member⟩ := List.exists_mem_of_ne_nil _ some_
      exact ⟨coin, mem_freeCoins.mp member⟩
    · rintro ⟨coin, both⟩
      exact List.ne_nil_of_mem (mem_freeCoins.mpr both)
  have sorted_iff : ∀ coins : List UtxoEntryReference,
      coins.insertionSort largestFirst ≠ [] ↔ coins ≠ [] := by
    intro coins
    rw [← List.length_pos_iff, ← List.length_pos_iff, List.length_insertionSort]
  rw [legAnchors]
  split
  case isTrue own =>
    rw [sorted_iff, some_iff]
    exact ⟨Or.inl, fun _ => (some_iff leg.held).mp own⟩
  case isFalse taken =>
    have notOwn := fun own => taken ((some_iff leg.held).mpr own)
    split
    case isTrue bare =>
      rw [sorted_iff, some_iff]
      constructor
      · exact fun earlier => Or.inr ⟨bare.1, bare.2, earlier⟩
      · exact fun either => either.elim (absurd · notOwn) (·.2.2)
    case isFalse holds =>
      constructor
      · exact fun some_ => absurd rfl some_
      · intro either
        rcases either with own | ⟨bare, young, _⟩
        · exact absurd own notOwn
        · exact absurd ⟨bare, young⟩ holds

section Heads

variable {α β : Type*} (f : α → List β)

/-- The heads of the nonempty lists come first, so a list's head is among as many coins. -/
theorem head_mem_take {as : List α} {a : α} {b : β} (member : a ∈ as) (head : (f a).head? = some b) :
    b ∈ (((as.map f).filter (!·.isEmpty)).filterMap List.head? ++
      ((as.map f).filter (!·.isEmpty)).flatMap List.tail).take
        (as.countP fun a => !(f a).isEmpty) := by
  have count : ∀ lists : List (List β),
      ((lists.filter (!·.isEmpty)).filterMap List.head?).length = lists.countP (!·.isEmpty) := by
    intro lists
    induction lists with
    | nil => rfl
    | cons list rest ih =>
      cases list with
      | nil => simpa using ih
      | cons first more => simpa using ih
  have heads := count (as.map f)
  rw [List.countP_map] at heads
  have same : (as.countP fun a => !(f a).isEmpty) = as.countP ((!·.isEmpty) ∘ f) := rfl
  rw [same, ← heads, List.take_left]
  apply List.mem_filterMap.mpr
  refine ⟨f a, List.mem_filter.mpr ⟨List.mem_map_of_mem member, ?_⟩, head⟩
  cases held : f a with
  | nil =>
    rw [held] at head
    cases head
  | cons first more => rfl

end Heads

namespace InFlightSends

/-- A send of ours that has not been accepted, or one carried in, spends the coin. -/
def HeldByAnother (s : InFlightSends) (spentByOurs : List UtxoEntryId) (coin : UtxoEntryId) : Prop :=
  coin ∈ spentByOurs ∨
    (∃ txid record, s.taken.lookup txid = some record ∧ record.isAccepted = false ∧
      coin ∈ ids record.utxoEntries) ∨
    ∃ txid leg, s.carried.lookup txid = some leg ∧ coin ∈ ids leg.inputs

theorem mem_heldByOurs {s : InFlightSends} {spentByOurs : List UtxoEntryId} {coin : UtxoEntryId} :
    coin ∈ s.heldByOurs spentByOurs ↔ s.HeldByAnother spentByOurs coin := by
  simp only [heldByOurs, HeldByAnother, carriedInputs, List.mem_append, List.mem_flatMap,
    List.mem_filter, KeyMap.mem_values_iff, Bool.not_eq_true', or_assoc]
  constructor
  · rintro (spent | ⟨record, ⟨⟨txid, found⟩, open_⟩, inside⟩ | ⟨leg, ⟨txid, found⟩, inside⟩)
    · exact Or.inl spent
    · exact Or.inr (Or.inl ⟨txid, record, found, open_, inside⟩)
    · exact Or.inr (Or.inr ⟨txid, leg, found, inside⟩)
  · rintro (spent | ⟨txid, record, found, open_, inside⟩ | ⟨txid, leg, found, inside⟩)
    · exact Or.inl spent
    · exact Or.inr (Or.inl ⟨record, ⟨⟨txid, found⟩, open_⟩, inside⟩)
    · exact Or.inr (Or.inr ⟨leg, ⟨txid, found⟩, inside⟩)

/-- A leg the build must reach: one with a coin of its own, or a young one with none and a free
    output of its earlier legs. -/
def Owed (s : InFlightSends) (spentByOurs : List UtxoEntryId) (now : Nat) (leg : UnknownLeg) : Prop :=
  leg.held ≠ [] ∨ leg.held = [] ∧ now - leg.sinceUnixMs < EARLIER_ANCHOR_FOR_MS ∧
    ∃ coin ∈ leg.earlier, ¬ s.HeldByAnother spentByOurs coin.id

instance (s : InFlightSends) (spentByOurs : List UtxoEntryId) (coin : UtxoEntryId) :
    Decidable (s.HeldByAnother spentByOurs coin) := decidable_of_iff _ mem_heldByOurs

instance (s : InFlightSends) (spentByOurs : List UtxoEntryId) (now : Nat) (leg : UnknownLeg) :
    Decidable (s.Owed spentByOurs now leg) := by
  unfold Owed
  infer_instance

/-- The same sends, met in any order: each of the maps an anchoring reads is a map, and so is what
    an outgoing record keeps. -/
structure Reordered (s t : InFlightSends) : Prop where
  unknown : t.unknown = s.unknown
  taken : ∀ txid, Option.Rel (fun a b => a.isAccepted = b.isAccepted ∧
    a.utxoEntries.Perm b.utxoEntries) (s.taken.lookup txid) (t.taken.lookup txid)
  carried : ∀ txid, t.carried.lookup txid = s.carried.lookup txid

theorem Reordered.held {s t : InFlightSends} (same : s.Reordered t)
    {spentByOurs listed : List UtxoEntryId} (spent : ∀ id, id ∈ listed ↔ id ∈ spentByOurs)
    (coin : UtxoEntryId) : s.HeldByAnother spentByOurs coin ↔ t.HeldByAnother listed coin := by
  have taken : (∃ txid record, s.taken.lookup txid = some record ∧ record.isAccepted = false ∧
        coin ∈ ids record.utxoEntries) ↔
      ∃ txid record, t.taken.lookup txid = some record ∧ record.isAccepted = false ∧
        coin ∈ ids record.utxoEntries := by
    apply exists_congr
    intro txid
    have related := same.taken txid
    generalize s.taken.lookup txid = here at related
    generalize t.taken.lookup txid = there at related
    cases related with
    | none => simp
    | @some before after both =>
      have coins : (ids before.utxoEntries).Perm (ids after.utxoEntries) := both.2.map _
      simp only [Option.some.injEq, exists_eq_left', both.1, coins.mem_iff]
  unfold HeldByAnother
  rw [taken, spent]
  simp only [same.carried]

theorem blocked_iff {s : InFlightSends} {key : String} {spendable spentByOurs : List UtxoEntryId}
    {now : Nat} : (s.anchoring key spendable spentByOurs now).blocked = true ↔
      ∃ leg ∈ s.unknown, leg.paidTo = key ∧ leg.held ≠ [] ∧
        freeCoins (s.heldByOurs spentByOurs) leg.held = [] := by
  simp only [anchoring, List.any_eq_true, List.mem_filter, beq_iff_eq, Bool.and_eq_true,
    Bool.not_eq_true', List.isEmpty_iff, List.isEmpty_eq_false_iff]
  constructor
  · rintro ⟨leg, ⟨known, keyed⟩, taken, own⟩
    exact ⟨leg, known, keyed, own, taken⟩
  · rintro ⟨leg, known, keyed, own, taken⟩
    exact ⟨leg, ⟨known, keyed⟩, taken, own⟩

theorem freeCoins_eq_nil {s : InFlightSends} {spentByOurs : List UtxoEntryId}
    {coins : List UtxoEntryReference} : freeCoins (s.heldByOurs spentByOurs) coins = [] ↔
      ∀ coin ∈ coins, s.HeldByAnother spentByOurs coin.id := by
  simp [freeCoins, List.filter_eq_nil_iff, mem_heldByOurs]

theorem mem_first {s : InFlightSends} {key : String} {spendable spentByOurs : List UtxoEntryId}
    {now : Nat} {coin : UtxoEntryReference}
    (member : coin ∈ (s.anchoring key spendable spentByOurs now).first) :
    ∃ leg ∈ s.unknown, leg.paidTo = key ∧ coin ∈ legAnchors (s.heldByOurs spentByOurs) now leg := by
  simp only [anchoring, List.mem_append, List.mem_filterMap, List.mem_flatMap, List.mem_filter,
    List.mem_map, beq_iff_eq] at member
  rcases member with ⟨coins, ⟨⟨leg, ⟨known, keyed⟩, rfl⟩, _⟩, head⟩ |
    ⟨coins, ⟨⟨leg, ⟨known, keyed⟩, rfl⟩, _⟩, inTail⟩
  · exact ⟨leg, known, keyed, List.mem_of_head? head⟩
  · exact ⟨leg, known, keyed, List.mem_of_mem_tail inTail⟩

theorem mem_last {s : InFlightSends} {key : String} {spendable spentByOurs : List UtxoEntryId}
    {now : Nat} {coin : UtxoEntryReference} :
    coin ∈ (s.anchoring key spendable spentByOurs now).last ↔ ∃ leg ∈ s.unknown, leg.paidTo ≠ key ∧
      coin ∈ leg.held ∧ coin.id ∈ spendable ∧ ¬ s.HeldByAnother spentByOurs coin.id := by
  simp only [anchoring, List.mem_flatMap, List.mem_filter, bne_iff_ne, mem_freeCoins,
    decide_eq_true_eq, mem_heldByOurs, and_assoc]

theorem first_untaken {s : InFlightSends} {key : String} {spendable spentByOurs : List UtxoEntryId}
    {now : Nat} {coin : UtxoEntryReference}
    (member : coin ∈ (s.anchoring key spendable spentByOurs now).first) :
    ¬ s.HeldByAnother spentByOurs coin.id := by
  obtain ⟨leg, _, _, anchor⟩ := mem_first member
  exact fun taken => (mem_legAnchors anchor).2 (mem_heldByOurs.mpr taken)

/-- In a build no leg blocks, the legs that lead are those owed. -/
theorem leads_iff_owed {s : InFlightSends} {key : String} {spendable spentByOurs : List UtxoEntryId}
    {now : Nat} (unblocked : (s.anchoring key spendable spentByOurs now).blocked = false)
    {leg : UnknownLeg} (member : leg ∈ s.unknown) (keyed : leg.paidTo = key) :
    legAnchors (s.heldByOurs spentByOurs) now leg ≠ [] ↔ s.Owed spentByOurs now leg := by
  rw [legAnchors_ne_nil]
  simp only [mem_heldByOurs, Owed]
  apply or_congr_left
  constructor
  · rintro ⟨coin, own, _⟩ none
    rw [none] at own
    cases own
  · intro own
    by_contra taken
    have blocked : (s.anchoring key spendable spentByOurs now).blocked = true := by
      refine blocked_iff.mpr ⟨leg, member, keyed, own, freeCoins_eq_nil.mpr ?_⟩
      intro coin inside
      by_contra free
      exact taken ⟨coin, inside, free⟩
    rw [blocked] at unblocked
    cases unblocked

theorem first_reaches {s : InFlightSends} {key : String} {spendable spentByOurs : List UtxoEntryId}
    {now : Nat} (unblocked : (s.anchoring key spendable spentByOurs now).blocked = false)
    {leg : UnknownLeg} (member : leg ∈ s.unknown) (keyed : leg.paidTo = key)
    (owed : s.Owed spentByOurs now leg) :
    ∃ coin ∈ (s.anchoring key spendable spentByOurs now).first.take
      (s.unknown.countP fun leg => decide (leg.paidTo = key ∧ s.Owed spentByOurs now leg)),
      coin ∈ leg.inputs := by
  have leads := (leads_iff_owed unblocked member keyed).mpr owed
  obtain ⟨coin, head⟩ := Option.ne_none_iff_exists'.mp (mt List.head?_eq_none_iff.mp leads)
  refine ⟨coin, ?_, (mem_legAnchors (List.mem_of_head? head)).1⟩
  have inKeyed : leg ∈ s.unknown.filter fun leg => leg.paidTo == key :=
    List.mem_filter.mpr ⟨member, beq_iff_eq.mpr keyed⟩
  have reached := head_mem_take (legAnchors (s.heldByOurs spentByOurs) now) inKeyed head
  rw [List.countP_filter] at reached
  have count : (s.unknown.countP fun leg =>
        !(legAnchors (s.heldByOurs spentByOurs) now leg).isEmpty && leg.paidTo == key) =
      s.unknown.countP fun leg => decide (leg.paidTo = key ∧ s.Owed spentByOurs now leg) := by
    apply List.countP_congr
    intro other known
    rw [Bool.and_eq_true, beq_iff_eq, decide_eq_true_iff, Bool.not_eq_true',
      List.isEmpty_eq_false_iff, and_comm]
    exact and_congr_right fun same => leads_iff_owed unblocked known same
  rw [count] at reached
  exact reached

theorem anchoring_reordered {s t : InFlightSends} (same : s.Reordered t) (key : String)
    {spendable candidates spentByOurs listed : List UtxoEntryId} (now : Nat)
    (offered : ∀ id, id ∈ candidates ↔ id ∈ spendable) (spent : ∀ id, id ∈ listed ↔ id ∈ spentByOurs) :
    t.anchoring key candidates listed now = s.anchoring key spendable spentByOurs now := by
  have ours : ∀ id, id ∈ t.heldByOurs listed ↔ id ∈ s.heldByOurs spentByOurs := by
    intro id
    rw [mem_heldByOurs, mem_heldByOurs, same.held spent]
  have anchors : legAnchors (t.heldByOurs listed) now = legAnchors (s.heldByOurs spentByOurs) now :=
    funext (legAnchors_congr ours now)
  simp only [anchoring, same.unknown, freeCoins_congr ours, anchors, offered]

/-- A retry reaches every unsettled attempt of the same payment. -/
theorem anchoring_reaches_every_attempt (s : InFlightSends) (key : String)
    (spendable spentByOurs : List UtxoEntryId) (now : Nat) :
    let anchoring := s.anchoring key spendable spentByOurs now
    (anchoring.blocked = false → ∀ leg ∈ s.unknown, leg.paidTo = key → s.Owed spentByOurs now leg →
      ∃ coin ∈ anchoring.first.take
        (s.unknown.countP fun leg => decide (leg.paidTo = key ∧ s.Owed spentByOurs now leg)),
        coin ∈ leg.inputs) ∧
    (anchoring.blocked = true ↔ ∃ leg ∈ s.unknown, leg.paidTo = key ∧ leg.held ≠ [] ∧
      ∀ coin ∈ leg.held, s.HeldByAnother spentByOurs coin.id) ∧
    (∀ coin ∈ anchoring.first ++ anchoring.last, ¬ s.HeldByAnother spentByOurs coin.id) ∧
    (∀ coin ∈ anchoring.last, coin.id ∈ spendable ∧
      ∃ leg ∈ s.unknown, leg.paidTo ≠ key ∧ coin ∈ leg.held) ∧
    ∀ (t : InFlightSends) (candidates listed : List UtxoEntryId), s.Reordered t →
      (∀ id, id ∈ candidates ↔ id ∈ spendable) → (∀ id, id ∈ listed ↔ id ∈ spentByOurs) →
      t.anchoring key candidates listed now = anchoring := by
  refine ⟨?_, by simp only [blocked_iff, freeCoins_eq_nil], ?_, ?_, ?_⟩
  · intro unblocked leg member keyed owed
    exact first_reaches unblocked member keyed owed
  · intro coin member
    rcases List.mem_append.mp member with leads | trails
    · exact first_untaken leads
    · obtain ⟨_, _, _, _, _, free⟩ := mem_last.mp trails
      exact free
  · intro coin member
    obtain ⟨leg, known, other, own, offered, _⟩ := mem_last.mp member
    exact ⟨offered, leg, known, other, own⟩
  · intro t candidates listed same offered spent
    exact anchoring_reordered same key now offered spent

namespace Attempts

def coin (n : Nat) : UtxoEntryReference := ⟨⟨BitVec.ofNat 256 n, 0⟩, n, none, 0, [], 5, false, none⟩

/-- Two attempts at one payment that share a coin, and an attempt at another payment. -/
def sharing : InFlightSends :=
  { InFlightSends.default 10 with
    unknown := [⟨1, "kaspa:a", [coin 11, coin 12], [], 0, 0⟩, ⟨2, "kaspa:a", [coin 11], [], 0, 1⟩,
      ⟨3, "kaspa:b", [coin 13], [], 0, 2⟩]
    carried := (∅ : KeyMap TransactionId LegMeta).insert 4 ⟨"kaspa:c", [coin 12], [], [], 0, 0⟩ }

end Attempts

open Attempts in
theorem anchoring_reaches_sharing : ∃ coin' ∈ (sharing.anchoring "kaspa:a" [] [] 0).first.take 2,
    coin' ∈ [coin 11] := by
  have reached := (anchoring_reaches_every_attempt sharing "kaspa:a" [] [] 0).1 (by decide +kernel)
    ⟨2, "kaspa:a", [coin 11], [], 0, 1⟩ (by decide +kernel) rfl (by decide +kernel)
  have count : (sharing.unknown.countP fun leg =>
      decide (leg.paidTo = "kaspa:a" ∧ sharing.Owed [] 0 leg)) = 2 := by
    decide +kernel
  rw [count] at reached
  exact reached

end InFlightSends

end Kaspaverse.Chain
