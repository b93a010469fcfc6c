import Mathlib
import Kaspaverse.Chain.PaymentBuild

namespace Kaspaverse.Chain

inductive PinPolicy
  | default
  /-- Order input[0] so the indexer can attribute the row, and refuse rather than spend beyond the source. -/
  | ownerAttributable
  deriving DecidableEq

/-- Index 0 of a transaction of ours first, then any index 0. -/
def ownerTier (own : TransactionId → Bool) (entry : UtxoEntryReference) : Nat :=
  match decide (entry.id.index = 0), own entry.id.transactionId with
  | true, true => 0
  | true, false => 1
  | _, _ => 2

def orderPriorityForOwner (own : TransactionId → Bool) (entries : List UtxoEntryReference) : List UtxoEntryReference :=
  entries.insertionSort fun a b => ownerTier own a ≤ ownerTier own b

def pinnedPriorityOrRefuse (priority : List UtxoEntryReference) : Option (List UtxoEntryReference) :=
  let free := priority.filter fun entry => !isCovenantBound entry
  if free = [] then none else some free

/-- How many of the caller's pinned coins can pin. -/
def confinementCeiling (priority : List UtxoEntryReference) : Nat :=
  (priority.filter fun entry => !isCovenantBound entry).length

inductive TransportRefusal
  | noSpendableUtxo
  | refused (why : Refusal)
  | stillSettling
  deriving DecidableEq

/-- A message's build: keyed by its own key, so no payment's notice and no fence. -/
def prepareSendPinned {bound : UtxoEntryId → Bool} (generator : Generator bound) (rides : Bool)
    (mature pinned : List UtxoEntryReference) (exclude : List Address) (anchoring : Anchoring) :
    Except Refusal (List PendingTransaction) :=
  match shippedTwoShape generator rides fun riders =>
      anchored (selectSpendPriority mature pinned riders exclude) pinned anchoring.first anchoring.last with
  | none => .error .notBuilt
  | some pending => .ok pending

/-- `aggregated` is the Generator's count of the coins a chain consumes. -/
def prepareTransportSend {bound : UtxoEntryId → Bool} (generator : Generator bound) (rides : Bool)
    (aggregated : List PendingTransaction → Nat) (own : TransactionId → Bool) (pin : PinPolicy)
    (mature priority : List UtxoEntryReference) (exclude : List Address) (anchoring : Anchoring) :
    Except TransportRefusal (List PendingTransaction) :=
  let priorityLen := confinementCeiling priority
  let ordered := match pin with
    | .default => priority
    | .ownerAttributable => orderPriorityForOwner own priority
  match pinnedPriorityOrRefuse ordered with
  | none => .error .noSpendableUtxo
  | some pinned =>
    match prepareSendPinned generator rides mature pinned exclude anchoring with
    | .error why => .error (.refused why)
    | .ok pending =>
      if pin = .ownerAttributable ∧ priorityLen < aggregated pending then .error .stillSettling else .ok pending

/-- A message's build is the engine's, with what anchors its lane answers. -/
theorem prepareSend_message {bound : UtxoEntryId → Bool} (request : BuildRequest) (lane : Lane)
    (generator : Generator bound) (rides : Bool) (message : request.anchorKey.isSome = true) :
    (request.prepareSend lane generator rides).1 =
      prepareSendPinned generator rides request.mature request.pinned request.exclude (request.anchoring lane) := by
  have unpaid : request.payment = false := by
    rw [BuildRequest.payment, ← Option.not_isSome, message]
    rfl
  simp only [BuildRequest.prepareSend, unpaid, Bool.false_and, Bool.false_eq_true, if_false]
  rfl

section Front

variable {mature pinned first last : List UtxoEntryReference} {riders : Nat} {exclude : List Address}

/-- The coins at the front of an order: what leads at the pinned address, and the pinned coins left. -/
def front (pinned first last : List UtxoEntryReference) : List UtxoEntryReference :=
  (leading first).filter (leadsPinned pinned) ++ (pinnedBlock pinned).filter (unplaced pinned first last)

/-- The coins behind the front. -/
def behind (mature pinned : List UtxoEntryReference) (riders : Nat) (exclude : List Address)
    (first last : List UtxoEntryReference) : List UtxoEntryReference :=
  (leading first).filter (fun coin => !leadsPinned pinned coin) ++
    ((poolOrder mature pinned riders exclude).filter (unplaced pinned first last) ++ trailing pinned first last)

theorem anchored_front : anchored (selectSpendPriority mature pinned riders exclude) pinned first last =
    front pinned first last ++ behind mature pinned riders exclude first last := by
  rw [anchored_eq, front, behind]
  simp only [List.append_assoc]

theorem leading_unique {a b : UtxoEntryReference} (left : a ∈ leading first) (right : b ∈ leading first)
    (same : a.id = b.id) : a = b := by
  have once := nodup_ids_place ∅ first
  rw [ids, List.nodup_map_iff_inj_on ((List.Nodup.of_map _ once))] at once
  exact once a left b right same

theorem front_nodup (once : (ids pinned).Nodup) : (ids (front pinned first last)).Nodup := by
  rw [front, ids_append]
  refine List.nodup_append.mpr ⟨?_, ?_, ?_⟩
  · exact (nodup_ids_place ∅ first).sublist (List.filter_sublist.map _)
  · have block : (ids (pinnedBlock pinned)).Nodup := by
      have listed : (pinnedBlock pinned).Perm (pinned.filter fun entry => !isCovenantBound entry) :=
        List.perm_insertionSort _ _
      rw [ids, (listed.map _).nodup_iff]
      exact once.sublist (List.filter_sublist.map _)
    exact block.sublist (List.filter_sublist.map _)
  · intro id leads other rest same
    subst same
    obtain ⟨leader, inLead, named⟩ := mem_ids.mp leads
    obtain ⟨coin, inRest, rfl⟩ := mem_ids.mp rest
    have new := (unplaced_iff pinned first last).mp (List.mem_filter.mp inRest).2
    apply new.1
    rw [← named]
    exact (mem_ids_leading first).mp (mem_ids.mpr ⟨leader, (List.mem_filter.mp inLead).1, rfl⟩)

/-- No coin of the front comes again behind it. -/
theorem behind_front {coin : UtxoEntryReference} (back : coin ∈ behind mature pinned riders exclude first last) :
    coin.id ∉ ids (front pinned first last) := by
  rw [front, ids_append, List.mem_append, not_or]
  rw [behind, List.mem_append, List.mem_append] at back
  rcases back with after | pooled | trails
  · obtain ⟨leader, elsewhere⟩ := List.mem_filter.mp after
    constructor
    · intro again
      obtain ⟨copy, inLead, same⟩ := mem_ids.mp again
      obtain ⟨leader', here⟩ := List.mem_filter.mp inLead
      rw [leading_unique leader' leader same] at here
      rw [here] at elsewhere
      cases elsewhere
    · intro again
      obtain ⟨copy, inRest, same⟩ := mem_ids.mp again
      have new := (unplaced_iff pinned first last).mp (List.mem_filter.mp inRest).2
      apply new.1
      rw [same]
      exact (mem_ids_leading first).mp (mem_ids.mpr ⟨coin, leader, rfl⟩)
  · obtain ⟨listed, isNew⟩ := List.mem_filter.mp pooled
    have new := (unplaced_iff pinned first last).mp isNew
    have ordered := (poolOrder_perm mature pinned riders exclude).mem_iff.mp listed
    have unheld := (mem_unpinned.mp ordered).2.1
    constructor
    · intro again
      obtain ⟨copy, inLead, same⟩ := mem_ids.mp again
      apply new.1
      rw [← same]
      exact (mem_ids_leading first).mp (mem_ids.mpr ⟨copy, (List.mem_filter.mp inLead).1, rfl⟩)
    · intro again
      obtain ⟨copy, inRest, same⟩ := mem_ids.mp again
      apply unheld
      rw [← same]
      exact mem_ids.mpr ⟨copy, (mem_pinnedBlock.mp (List.mem_filter.mp inRest).1).1, rfl⟩
  · have placed := (mem_ids_trailing pinned first last).mp (mem_ids.mpr ⟨coin, trails, rfl⟩)
    constructor
    · intro again
      obtain ⟨copy, inLead, same⟩ := mem_ids.mp again
      apply placed.2.2
      rw [← same]
      exact (mem_ids_leading first).mp (mem_ids.mpr ⟨copy, (List.mem_filter.mp inLead).1, rfl⟩)
    · intro again
      obtain ⟨copy, inRest, same⟩ := mem_ids.mp again
      apply placed.2.1
      rw [← same]
      exact mem_ids.mpr ⟨copy, (mem_pinnedBlock.mp (List.mem_filter.mp inRest).1).1, rfl⟩

variable {home : Address}

theorem front_home (atHome : ∀ coin ∈ pinned, coin.address = some home) (some_ : pinned ≠ []) :
    ∀ coin ∈ front pinned first last, coin.address = some home := by
  intro coin member
  rcases List.mem_append.mp member with led | held
  · obtain ⟨_, there⟩ := List.mem_filter.mp led
    rw [leadsPinned_eq atHome some_, decide_eq_true_iff] at there
    exact there
  · exact atHome coin (mem_pinnedBlock.mp (List.mem_filter.mp held).1).1

/-- The front holds every pinned coin, in the block or among what leads. -/
theorem front_length (one : OneOutput (mature ++ pinned ++ first ++ last))
    (atHome : ∀ coin ∈ pinned, coin.address = some home) (unbound_ : ∀ coin ∈ pinned, isCovenantBound coin = false)
    (once : (ids pinned).Nodup) : pinned.length ≤ (front pinned first last).length := by
  have inside : ids pinned ⊆ ids (front pinned first last) := by
    intro id held
    obtain ⟨coin, member, rfl⟩ := mem_ids.mp held
    have some_ : pinned ≠ [] := List.ne_nil_of_mem member
    rw [front, ids_append, List.mem_append]
    by_cases placed : coin.id ∈ ids (unbound first)
    · obtain ⟨leader, leads, same⟩ := mem_ids.mp ((mem_ids_leading first).mpr placed)
      have alike := (one leader (by simp [(mem_place leads).1]) coin (by simp [member]) same).1
      left
      refine mem_ids.mpr ⟨leader, List.mem_filter.mpr ⟨leads, ?_⟩, same⟩
      rw [leadsPinned_eq atHome some_, alike, atHome coin member, decide_eq_true rfl]
    · right
      refine mem_ids.mpr ⟨coin, List.mem_filter.mpr ⟨mem_pinnedBlock.mpr ⟨member, unbound_ coin member⟩, ?_⟩, rfl⟩
      exact (unplaced_iff pinned first last).mpr ⟨placed, fun _ => mem_ids.mpr ⟨coin, member, rfl⟩⟩
  have fits := (List.subperm_of_subset once inside).length_le
  rw [ids, List.length_map, ids, List.length_map] at fits
  exact fits

end Front

section Confinement

variable {bound : UtxoEntryId → Bool}

/-- A chain that draws the front of an order and consumes no more coins than its front holds stays in it. -/
theorem drawn_in_front {mature pinned first last : List UtxoEntryReference} {riders : Nat} {exclude : List Address}
    {pending : List PendingTransaction} {most count : Nat} (once : (ids pinned).Nodup)
    (enough : most ≤ (front pinned first last).length)
    (counts : ∀ spent : List UtxoEntryReference, (ids spent).Nodup →
      (∀ coin ∈ spent, ∃ tx ∈ pending, coin ∈ tx.utxoEntries) → spent.length ≤ most)
    (drawn : ∀ coin ∈ (anchored (selectSpendPriority mature pinned riders exclude) pinned first last).take count,
      ∃ tx ∈ pending, coin ∈ tx.utxoEntries) :
    ∀ coin ∈ (anchored (selectSpendPriority mature pinned riders exclude) pinned first last).take count,
      coin ∈ front pinned first last := by
  rw [anchored_front] at drawn ⊢
  by_cases far : (front pinned first last).length < count
  · cases rest : behind mature pinned riders exclude first last with
    | nil =>
      intro coin member
      have listed := List.mem_of_mem_take member
      rw [List.append_nil] at listed
      exact listed
    | cons next more =>
      -- the front and the coin behind it would be one coin more than is counted
      exfalso
      rw [rest] at drawn
      have back : next ∈ behind mature pinned riders exclude first last := by
        rw [rest]
        simp
      have spent : (ids (front pinned first last ++ [next])).Nodup := by
        rw [ids_append]
        refine List.nodup_append.mpr ⟨front_nodup once, List.nodup_singleton _, ?_⟩
        intro id inFront other alone same
        rw [List.mem_singleton.mp alone] at same
        rw [same] at inFront
        exact behind_front back inFront
      have whole := counts _ spent fun coin member => by
        refine drawn coin ?_
        have early : front pinned first last ++ [next] <+: front pinned first last ++ next :: more :=
          ⟨more, by simp⟩
        have cut := early.take count
        rw [List.take_of_length_le (by simp; omega)] at cut
        exact cut.subset member
      rw [List.length_append, List.length_singleton] at whole
      omega
  · intro coin member
    rw [List.take_append_of_le_length (by omega)] at member
    exact List.mem_of_mem_take member

theorem order_owner_perm (own : TransactionId → Bool) (entries : List UtxoEntryReference) :
    (orderPriorityForOwner own entries).Perm entries := List.perm_insertionSort _ _

theorem backup_spends_its_own (generator : Generator bound) (rides : Bool) (aggregated : List PendingTransaction → Nat)
    (own : TransactionId → Bool) (mature priority : List UtxoEntryReference) (exclude : List Address)
    (anchoring : Anchoring) (home : Address)
    (located : OneOutput (mature ++ priority ++ anchoring.first ++ anchoring.last))
    (agrees : ∀ coin ∈ mature ++ priority ++ anchoring.first ++ anchoring.last, bound coin.id = isCovenantBound coin)
    (once : (ids priority).Nodup) (atHome : ∀ coin ∈ priority, coin.address = some home)
    (counts : ∀ pending (spent : List UtxoEntryReference), (ids spent).Nodup →
      (∀ coin ∈ spent, ∃ tx ∈ pending, coin ∈ tx.utxoEntries) → spent.length ≤ aggregated pending)
    {pending : List PendingTransaction}
    (sent : prepareTransportSend generator rides aggregated own .ownerAttributable mature priority exclude anchoring =
      .ok pending) :
    ∀ tx ∈ pending, ∀ coin ∈ tx.utxoEntries,
      coin.id ∈ ids (mature ++ priority ++ anchoring.first ++ anchoring.last) → coin.address = some home := by
  have perm := order_owner_perm own priority
  have held : ((orderPriorityForOwner own priority).filter fun entry => !isCovenantBound entry).Perm
      (priority.filter fun entry => !isCovenantBound entry) := perm.filter _
  simp only [prepareTransportSend, pinnedPriorityOrRefuse] at sent
  generalize ordered : ((orderPriorityForOwner own priority).filter fun entry => !isCovenantBound entry) = pinned
    at sent held
  split at sent
  · cases sent
  · rename_i kept pins
    split at pins
    · cases pins
    · rename_i some_
      cases pins
      -- the pinned block is the priority without its covenant-bound coins
      have among : ∀ coin ∈ pinned, coin ∈ priority ∧ isCovenantBound coin = false := by
        intro coin member
        simpa using held.mem_iff.mp member
      have size : confinementCeiling priority = pinned.length := held.length_eq.symm
      have pinnedOnce : (ids pinned).Nodup := by
        rw [ids, (held.map _).nodup_iff]
        exact once.sublist (List.filter_sublist.map _)
      have pinnedHome : ∀ coin ∈ pinned, coin.address = some home := fun coin member => atHome coin (among coin member).1
      have listed : ∀ coin ∈ mature ++ pinned ++ anchoring.first ++ anchoring.last,
          coin ∈ mature ++ priority ++ anchoring.first ++ anchoring.last := by
        intro coin member
        simp only [List.mem_append] at member ⊢
        rcases member with ((old | pin) | lead) | trail
        · exact .inl (.inl (.inl old))
        · exact .inl (.inl (.inr (among coin pin).1))
        · exact .inl (.inr lead)
        · exact .inr trail
      have one : OneOutput (mature ++ pinned ++ anchoring.first ++ anchoring.last) :=
        fun a left b right same => located a (listed a left) b (listed b right) same
      split at sent
      · cases sent
      · rename_i chain built
        split at sent
        · cases sent
        · rename_i within
          cases sent
          have few : aggregated pending ≤ pinned.length := by
            rw [← size]
            simpa using within
          have shipped : ∃ riders, DrawsFront bound (anchored (selectSpendPriority mature pinned riders exclude)
              pinned anchoring.first anchoring.last) pending := by
            unfold prepareSendPinned at built
            split at built
            · cases built
            · rename_i drawn
              cases built
              exact BuildRequest.shippedTwoShape_drawn drawn
          obtain ⟨riders, count, _, _, drawn, spends⟩ := shipped
          have room := le_trans few (front_length one pinnedHome (fun coin member => (among coin member).2) pinnedOnce)
          have inFront := drawn_in_front pinnedOnce room (counts pending) drawn
          intro tx there coin consumed wallet
          rcases spends tx there coin consumed with ahead | ⟨outside, free⟩
          · exact front_home pinnedHome some_ coin (inFront coin ahead)
          · -- a wallet coin that is not on the order is covenant-bound
            exfalso
            obtain ⟨copy, inLists, same⟩ := mem_ids.mp wallet
            have unbound_ : isCovenantBound copy = false := by
              rw [← agrees copy inLists, same]
              exact free
            have lists : copy ∈ mature ++ pinned ++ anchoring.first ++ anchoring.last := by
              simp only [List.mem_append] at inLists ⊢
              rcases inLists with ((old | prior) | lead) | trail
              · exact .inl (.inl (.inl old))
              · refine .inl (.inl (.inr (held.mem_iff.mpr ?_)))
                simp [prior, unbound_]
              · exact .inl (.inr lead)
              · exact .inr trail
            have onOrder := @anchored_lists mature pinned anchoring.first anchoring.last riders exclude one copy lists unbound_
            rw [same] at onOrder
            exact outside onOrder

/-- How many inputs a chain has, every leg counted. -/
def inputCount (pending : List PendingTransaction) : Nat := (pending.map fun tx => tx.utxoEntries.length).sum

theorem inputCount_counts (pending : List PendingTransaction) (spent : List UtxoEntryReference)
    (once : (ids spent).Nodup) (consumed : ∀ coin ∈ spent, ∃ tx ∈ pending, coin ∈ tx.utxoEntries) :
    spent.length ≤ inputCount pending := by
  have inside : spent ⊆ pending.flatMap fun tx => tx.utxoEntries := by
    intro coin member
    obtain ⟨tx, there, entry⟩ := consumed coin member
    exact List.mem_flatMap.mpr ⟨tx, there, entry⟩
  have fits := (List.subperm_of_subset (List.Nodup.of_map _ once) inside).length_le
  rwa [List.length_flatMap] at fits

open SpendSample in
/-- Two coins pinned, one of them the anchor of an earlier backup, beside another address's coin. -/
theorem backup_spends_its_own_pair :
    prepareTransportSend (drawsFirst (fun _ => false) 9 2 (by decide)) true inputCount (fun _ => false)
      .ownerAttributable [at_ 1 9, at_ 2 3, { at_ 3 5 with address := none }] [at_ 1 9, at_ 2 3] []
      ⟨[at_ 2 3], [], false⟩ = .ok [PendingTransaction.mk 9 [at_ 2 3, at_ 1 9] [] true] ∧
    (at_ 2 3).address = some SpendSample.home ∧ (at_ 1 9).address = some SpendSample.home := by
  have sent : prepareTransportSend (drawsFirst (fun _ => false) 9 2 (by decide)) true inputCount (fun _ => false)
      .ownerAttributable [at_ 1 9, at_ 2 3, { at_ 3 5 with address := none }] [at_ 1 9, at_ 2 3] []
      ⟨[at_ 2 3], [], false⟩ = .ok [PendingTransaction.mk 9 [at_ 2 3, at_ 1 9] [] true] := by rfl
  have law := backup_spends_its_own (drawsFirst (fun _ => false) 9 2 (by decide)) true inputCount (fun _ => false)
    [at_ 1 9, at_ 2 3, { at_ 3 5 with address := none }] [at_ 1 9, at_ 2 3] [] ⟨[at_ 2 3], [], false⟩ SpendSample.home
    (by unfold OneOutput; decide +kernel) (by decide +kernel) (by decide +kernel) (by decide +kernel) inputCount_counts
    sent (PendingTransaction.mk 9 [at_ 2 3, at_ 1 9] [] true) (List.mem_singleton.mpr rfl)
  refine ⟨sent, law (at_ 2 3) ?_ (by decide +kernel), law (at_ 1 9) ?_ (by decide +kernel)⟩
  · exact List.mem_cons_self
  · exact List.mem_cons_of_mem _ List.mem_cons_self

end Confinement

end Kaspaverse.Chain
