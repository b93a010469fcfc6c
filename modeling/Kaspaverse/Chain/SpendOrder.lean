import Kaspaverse.Chain.SpendPolicy

namespace Kaspaverse.Chain

theorem ids_append (a b : List UtxoEntryReference) : ids (a ++ b) = ids a ++ ids b := List.map_append

def unbound (coins : List UtxoEntryReference) : List UtxoEntryReference :=
  coins.filter fun coin => !isCovenantBound coin

@[simp] theorem mem_unbound {coins : List UtxoEntryReference} {coin : UtxoEntryReference} :
    coin ∈ unbound coins ↔ coin ∈ coins ∧ isCovenantBound coin = false := by
  simp [unbound]

theorem unbound_cons (coin : UtxoEntryReference) (rest : List UtxoEntryReference) :
    unbound (coin :: rest) =
      if isCovenantBound coin = false then coin :: unbound rest else unbound rest := by
  cases bound : isCovenantBound coin <;> simp [unbound, bound]

/-- `place` lists the outpoints of the coins no covenant binds, each at its first mention. -/
theorem ids_place (placed : Finset UtxoEntryId) (coins : List UtxoEntryReference) :
    ids (place placed coins) =
      ((ids (unbound coins)).filter fun id => decide (id ∉ placed)).eraseDups := by
  induction coins generalizing placed with
  | nil => rfl
  | cons coin rest ih =>
    rw [place, unbound_cons]
    by_cases bound : isCovenantBound coin = false
    · rw [if_pos bound]
      by_cases old : coin.id ∈ placed
      · rw [if_neg (fun both => both.2 old), ih]
        simp [ids, old]
      · rw [if_pos ⟨bound, old⟩]
        have skips : ((ids (unbound rest)).filter fun id => decide (id ∉ insert coin.id placed)) =
            ((ids (unbound rest)).filter fun id => decide (id ∉ placed)).filter fun id =>
              !id == coin.id := by
          rw [List.filter_filter]
          apply List.filter_congr
          intro id _
          by_cases same : id = coin.id <;> simp [same]
        have head : ids (coin :: unbound rest) = coin.id :: ids (unbound rest) := rfl
        rw [head, List.filter_cons_of_pos (by simpa using old), List.eraseDups_cons, ← skips, ← ih]
        rfl
    · rw [if_neg bound, if_neg (fun both => bound both.1), ih]

theorem mem_ids_place {placed : Finset UtxoEntryId} {coins : List UtxoEntryReference}
    {id : UtxoEntryId} : id ∈ ids (place placed coins) ↔ id ∈ ids (unbound coins) ∧ id ∉ placed := by
  rw [ids_place, List.mem_eraseDups, List.mem_filter, decide_eq_true_iff]

theorem nodup_ids_place (placed : Finset UtxoEntryId) (coins : List UtxoEntryReference) :
    (ids (place placed coins)).Nodup := by
  induction coins generalizing placed with
  | nil => exact List.nodup_nil
  | cons coin rest ih =>
    rw [place]
    split
    · apply List.nodup_cons.mpr
      refine ⟨?_, ih _⟩
      intro again
      exact (mem_ids_place.mp again).2 (Finset.mem_insert_self _ _)
    · exact ih placed

/-- Whether the reserved set demotes the coin. -/
def demoted (exclude : List Address) (coin : UtxoEntryReference) : Bool :=
  decide (exclude ≠ []) && isReserved coin exclude

/-- The coins of the pool: neither pinned nor bound to a covenant, largest first. -/
def unpinned (mature pinned : List UtxoEntryReference) : List UtxoEntryReference :=
  (mature.filter fun entry =>
    decide (entry.id ∉ ids pinned) && !isCovenantBound entry).insertionSort largestAmount

def freePool (mature pinned : List UtxoEntryReference) (exclude : List Address) :
    List UtxoEntryReference :=
  (unpinned mature pinned).filter fun coin => !demoted exclude coin

def reservedPool (mature pinned : List UtxoEntryReference) (exclude : List Address) :
    List UtxoEntryReference :=
  (unpinned mature pinned).filter (demoted exclude)

/-- How many of the pool's coins are kept when `riders` of them are drawn first. -/
def kept (pool : List UtxoEntryReference) (riders : Nat) : Nat := pool.length - min pool.length riders

def drawnRiders (pool : List UtxoEntryReference) (riders : Nat) : List UtxoEntryReference :=
  (pool.drop (kept pool riders)).reverse

def afterRiders (pool : List UtxoEntryReference) (riders : Nat) : List UtxoEntryReference :=
  pool.take (kept pool riders)

/-- What the order lists behind the pinned block. -/
def poolOrder (mature pinned : List UtxoEntryReference) (riders : Nat) (exclude : List Address) :
    List UtxoEntryReference :=
  drawnRiders (freePool mature pinned exclude) riders ++
    afterRiders (freePool mature pinned exclude) riders ++ reservedPool mature pinned exclude

theorem selectSpendPriority_eq (mature pinned : List UtxoEntryReference) (riders : Nat)
    (exclude : List Address) : selectSpendPriority mature pinned riders exclude =
      pinnedBlock pinned ++ poolOrder mature pinned riders exclude := by
  have free : (if exclude = [] then unpinned mature pinned
      else (unpinned mature pinned).filter fun entry => !isReserved entry exclude) =
      freePool mature pinned exclude := by
    rw [freePool]
    split
    case isTrue empty => simp [demoted, empty]
    case isFalse some_ => simp [demoted, some_]
  have reserved : (if exclude = [] then []
      else (unpinned mature pinned).filter fun entry => isReserved entry exclude) =
      reservedPool mature pinned exclude := by
    rw [reservedPool]
    split
    case isTrue empty => simp [demoted, empty]
    case isFalse some_ =>
      apply List.filter_congr
      intro coin _
      simp [demoted, some_]
  rw [poolOrder, ← free, ← reserved]
  simp only [selectSpendPriority, List.append_assoc]
  rfl

section Pool

variable {pool : List UtxoEntryReference} {riders : Nat}

theorem riders_perm : (drawnRiders pool riders ++ afterRiders pool riders).Perm pool := by
  have halves : (pool.drop (kept pool riders) ++ pool.take (kept pool riders)).Perm pool := by
    have joined := List.take_append_drop (kept pool riders) pool
    exact List.perm_append_comm.trans (List.Perm.of_eq joined)
  exact ((List.reverse_perm _).append_right _).trans halves

theorem length_drawnRiders : (drawnRiders pool riders).length = min riders pool.length := by
  rw [drawnRiders, List.length_reverse, List.length_drop, kept]
  omega

theorem riders_ascend (sorted : pool.Pairwise largestAmount) :
    (drawnRiders pool riders).Pairwise fun a b => a.amount ≤ b.amount := by
  rw [drawnRiders, List.pairwise_reverse]
  exact sorted.sublist (List.drop_sublist _ _)

theorem riders_smallest (sorted : pool.Pairwise largestAmount) :
    ∀ rider ∈ drawnRiders pool riders, ∀ coin ∈ afterRiders pool riders, rider.amount ≤ coin.amount := by
  intro rider drawn coin later
  rw [← List.take_append_drop (kept pool riders) pool, List.pairwise_append] at sorted
  exact sorted.2.2 coin later rider (List.mem_reverse.mp drawn)

theorem afterRiders_descend (sorted : pool.Pairwise largestAmount) :
    (afterRiders pool riders).Pairwise largestAmount := sorted.sublist (List.take_sublist _ _)

end Pool

instance : Std.Total largestAmount := ⟨fun a b => Nat.le_total b.amount a.amount⟩

instance : IsTrans UtxoEntryReference largestAmount := ⟨fun _ _ _ ab bc => Nat.le_trans bc ab⟩

theorem unpinned_sorted (mature pinned : List UtxoEntryReference) :
    (unpinned mature pinned).Pairwise largestAmount := List.pairwise_insertionSort _ _

theorem mem_unpinned {mature pinned : List UtxoEntryReference} {coin : UtxoEntryReference} :
    coin ∈ unpinned mature pinned ↔
      coin ∈ mature ∧ coin.id ∉ ids pinned ∧ isCovenantBound coin = false := by
  rw [unpinned, List.mem_insertionSort, List.mem_filter, Bool.and_eq_true, decide_eq_true_iff,
    Bool.not_eq_true']

theorem poolOrder_perm (mature pinned : List UtxoEntryReference) (riders : Nat)
    (exclude : List Address) :
    (poolOrder mature pinned riders exclude).Perm (unpinned mature pinned) := by
  have halves : (freePool mature pinned exclude ++ reservedPool mature pinned exclude).Perm
      (unpinned mature pinned) := by
    have split := List.filter_append_perm (demoted exclude) (unpinned mature pinned)
    exact List.perm_append_comm.trans split
  exact (riders_perm.append_right _).trans halves

/-- The order lists no coin twice. -/
theorem selectSpendPriority_nodup {mature pinned : List UtxoEntryReference} (riders : Nat)
    (exclude : List Address) (mature_once : (ids mature).Nodup) (pinned_once : (ids pinned).Nodup) :
    (ids (selectSpendPriority mature pinned riders exclude)).Nodup := by
  have pool : (ids (poolOrder mature pinned riders exclude)).Nodup := by
    have listed := (poolOrder_perm mature pinned riders exclude).map (·.id)
    apply listed.nodup_iff.mpr
    have sorted : (ids (unpinned mature pinned)).Perm (ids (mature.filter fun entry =>
        decide (entry.id ∉ ids pinned) && !isCovenantBound entry)) :=
      (List.perm_insertionSort largestAmount _).map _
    exact sorted.nodup_iff.mpr (mature_once.sublist (List.filter_sublist.map _))
  have block : (ids (pinnedBlock pinned)).Nodup := by
    have sorted : (ids (pinnedBlock pinned)).Perm (ids (unbound pinned)) :=
      (List.perm_insertionSort largestAmount _).map _
    exact sorted.nodup_iff.mpr (pinned_once.sublist (List.filter_sublist.map _))
  rw [selectSpendPriority_eq, ids, List.map_append]
  apply block.append pool
  intro id inBlock inPool
  obtain ⟨coin, held, rfl⟩ := mem_ids.mp inBlock
  obtain ⟨copy, listed, same⟩ := mem_ids.mp inPool
  have free := (mem_unpinned.mp ((poolOrder_perm mature pinned riders exclude).mem_iff.mp listed)).2.1
  rw [same] at free
  exact free (mem_ids.mpr ⟨coin, (mem_pinnedBlock.mp held).1, rfl⟩)

/-- An outpoint names one output, however many of the lists carry it. -/
def OneOutput (coins : List UtxoEntryReference) : Prop :=
  ∀ a ∈ coins, ∀ b ∈ coins, a.id = b.id → a.address = b.address ∧ a.covenantId = b.covenantId

section Anchored

variable (mature pinned first last : List UtxoEntryReference) (riders : Nat) (exclude : List Address)

/-- The coins placed first, each once. -/
def leading : List UtxoEntryReference := place ∅ first

/-- The coins placed last: not pinned and not placed first. -/
def trailing : List UtxoEntryReference :=
  place (ids (leading first)).toFinset (last.filter fun coin => decide (coin.id ∉ ids pinned))

/-- A coin no anchor places. -/
def unplaced (coin : UtxoEntryReference) : Bool :=
  decide (coin.id ∉ ids (leading first) ++ ids (trailing pinned first last))

theorem mem_ids_leading {id : UtxoEntryId} : id ∈ ids (leading first) ↔ id ∈ ids (unbound first) := by
  rw [leading, mem_ids_place]
  exact and_iff_left (Finset.notMem_empty id)

theorem mem_ids_trailing {id : UtxoEntryId} : id ∈ ids (trailing pinned first last) ↔
    id ∈ ids (unbound last) ∧ id ∉ ids pinned ∧ id ∉ ids (unbound first) := by
  rw [trailing, mem_ids_place, List.mem_toFinset, mem_ids_leading, ← and_assoc]
  apply and_congr_left'
  constructor
  · intro member
    obtain ⟨coin, inside, rfl⟩ := mem_ids.mp member
    obtain ⟨kept, free⟩ := mem_unbound.mp inside
    obtain ⟨listed, new⟩ := List.mem_filter.mp kept
    exact ⟨mem_ids.mpr ⟨coin, mem_unbound.mpr ⟨listed, free⟩, rfl⟩, of_decide_eq_true new⟩
  · intro ⟨member, new⟩
    obtain ⟨coin, inside, rfl⟩ := mem_ids.mp member
    obtain ⟨listed, free⟩ := mem_unbound.mp inside
    refine mem_ids.mpr ⟨coin, mem_unbound.mpr ⟨List.mem_filter.mpr ⟨listed, ?_⟩, free⟩, rfl⟩
    exact decide_eq_true new

theorem unplaced_iff {coin : UtxoEntryReference} : unplaced pinned first last coin = true ↔
    coin.id ∉ ids (unbound first) ∧ (coin.id ∈ ids (unbound last) → coin.id ∈ ids pinned) := by
  rw [unplaced, decide_eq_true_iff, List.mem_append, mem_ids_leading, mem_ids_trailing]
  tauto

/-- What an anchored order is made of. -/
theorem anchored_eq : anchored (selectSpendPriority mature pinned riders exclude) pinned first last =
    (leading first).filter (leadsPinned pinned) ++
      (pinnedBlock pinned).filter (unplaced pinned first last) ++
      (leading first).filter (fun coin => !leadsPinned pinned coin) ++
      (poolOrder mature pinned riders exclude).filter (unplaced pinned first last) ++
      trailing pinned first last := by
  have inside : ∀ coin ∈ (pinnedBlock pinned).filter (unplaced pinned first last),
      decide (coin.id ∈ ids pinned) = true := by
    intro coin member
    have held := (mem_pinnedBlock.mp (List.mem_filter.mp member).1).1
    exact decide_eq_true (mem_ids.mpr ⟨coin, held, rfl⟩)
  have outside : ∀ coin ∈ (poolOrder mature pinned riders exclude).filter (unplaced pinned first last),
      decide (coin.id ∈ ids pinned) = false := by
    intro coin member
    have listed := (poolOrder_perm mature pinned riders exclude).mem_iff.mp (List.mem_filter.mp member).1
    exact decide_eq_false (mem_unpinned.mp listed).2.1
  have splits := takeWhile_block (fun coin : UtxoEntryReference => decide (coin.id ∈ ids pinned))
    inside outside
  rw [← List.filter_append, ← selectSpendPriority_eq] at splits
  rw [anchored]
  split
  case isTrue empty =>
    obtain ⟨rfl, rfl⟩ := empty
    have everything : ∀ coins : List UtxoEntryReference, coins.filter (unplaced pinned [] []) = coins := by
      intro coins
      apply List.filter_eq_self.mpr
      intro coin _
      rfl
    rw [everything, everything, selectSpendPriority_eq]
    simp [leading, trailing, place]
  case isFalse some_ =>
    change (leading first).filter (leadsPinned pinned) ++
      ((selectSpendPriority mature pinned riders exclude).filter (unplaced pinned first last)).takeWhile
        (fun coin => decide (coin.id ∈ ids pinned)) ++
      (leading first).filter (fun coin => !leadsPinned pinned coin) ++
      ((selectSpendPriority mature pinned riders exclude).filter (unplaced pinned first last)).dropWhile
        (fun coin => decide (coin.id ∈ ids pinned)) ++ trailing pinned first last = _
    rw [splits.1, splits.2]

theorem anchored_perm : (anchored (selectSpendPriority mature pinned riders exclude) pinned first last).Perm
    (leading first ++ (selectSpendPriority mature pinned riders exclude).filter
      (unplaced pinned first last) ++ trailing pinned first last) := by
  rw [anchored_eq, selectSpendPriority_eq, List.filter_append]
  apply List.Perm.append_right
  have halves : ((leading first).filter (leadsPinned pinned) ++
      (leading first).filter fun coin => !leadsPinned pinned coin).Perm (leading first) :=
    List.filter_append_perm _ _
  refine List.Perm.trans ?_ (halves.append_right _)
  rw [← List.append_assoc]
  apply List.Perm.append_right
  rw [List.append_assoc, List.append_assoc]
  exact List.perm_append_comm.append_left _

variable {mature pinned first last riders exclude}

theorem anchored_nodup (mature_once : (ids mature).Nodup) (pinned_once : (ids pinned).Nodup) :
    (ids (anchored (selectSpendPriority mature pinned riders exclude) pinned first last)).Nodup := by
  have listed := (anchored_perm mature pinned first last riders exclude).map (·.id)
  apply listed.nodup_iff.mpr
  have order := selectSpendPriority_nodup riders exclude mature_once pinned_once
  have rest : (ids ((selectSpendPriority mature pinned riders exclude).filter
      (unplaced pinned first last))).Nodup := order.sublist (List.filter_sublist.map _)
  rw [List.map_append, List.map_append]
  apply List.Nodup.append
  · apply (nodup_ids_place _ _).append rest
    intro id leads inRest
    obtain ⟨coin, member, rfl⟩ := mem_ids.mp inRest
    have new := (unplaced_iff pinned first last).mp (List.mem_filter.mp member).2
    exact new.1 ((mem_ids_leading first).mp leads)
  · exact nodup_ids_place _ _
  · intro id ahead trails
    obtain ⟨ofLast, notPinned, notFirst⟩ := (mem_ids_trailing pinned first last).mp trails
    rcases List.mem_append.mp ahead with leads | inRest
    · exact notFirst ((mem_ids_leading first).mp leads)
    · obtain ⟨coin, member, rfl⟩ := mem_ids.mp inRest
      have new := (unplaced_iff pinned first last).mp (List.mem_filter.mp member).2
      exact notPinned (new.2 ofLast)

theorem mem_selectSpendPriority {coin : UtxoEntryReference} :
    coin ∈ selectSpendPriority mature pinned riders exclude ↔
      (coin ∈ pinned ∨ coin ∈ mature ∧ coin.id ∉ ids pinned) ∧ isCovenantBound coin = false := by
  rw [selectSpendPriority_eq, List.mem_append, mem_pinnedBlock,
    (poolOrder_perm mature pinned riders exclude).mem_iff, mem_unpinned]
  tauto

theorem anchored_unbound {coin : UtxoEntryReference}
    (member : coin ∈ anchored (selectSpendPriority mature pinned riders exclude) pinned first last) :
    isCovenantBound coin = false := by
  have listed := (anchored_perm mature pinned first last riders exclude).mem_iff.mp member
  rw [List.mem_append, List.mem_append, List.mem_filter] at listed
  rcases listed with (leads | ⟨ordered, _⟩) | trails
  · exact (mem_place leads).2.1
  · exact (mem_selectSpendPriority.mp ordered).2
  · exact (mem_place trails).2.1

theorem mem_ids_anchored {id : UtxoEntryId} :
    id ∈ ids (anchored (selectSpendPriority mature pinned riders exclude) pinned first last) ↔
      id ∈ ids (unbound first) ∨ (id ∈ ids (unbound last) ∧ id ∉ ids pinned) ∨
        id ∈ ids (selectSpendPriority mature pinned riders exclude) := by
  have listed := ((anchored_perm mature pinned first last riders exclude).map (·.id)).mem_iff (a := id)
  have same : id ∈ ids (anchored (selectSpendPriority mature pinned riders exclude) pinned first last) ↔
      id ∈ ids (leading first ++ (selectSpendPriority mature pinned riders exclude).filter
        (unplaced pinned first last) ++ trailing pinned first last) := listed
  have rest : id ∈ ids ((selectSpendPriority mature pinned riders exclude).filter
      (unplaced pinned first last)) ↔ id ∈ ids (selectSpendPriority mature pinned riders exclude) ∧
        id ∉ ids (unbound first) ∧ (id ∈ ids (unbound last) → id ∈ ids pinned) := by
    constructor
    · intro member
      obtain ⟨coin, inside, rfl⟩ := mem_ids.mp member
      obtain ⟨ordered, new⟩ := List.mem_filter.mp inside
      exact ⟨mem_ids.mpr ⟨coin, ordered, rfl⟩, (unplaced_iff pinned first last).mp new⟩
    · intro ⟨member, new⟩
      obtain ⟨coin, ordered, rfl⟩ := mem_ids.mp member
      have kept := List.mem_filter.mpr ⟨ordered, (unplaced_iff pinned first last).mpr new⟩
      exact mem_ids.mpr ⟨coin, kept, rfl⟩
  rw [same, ids_append, ids_append, List.mem_append, List.mem_append, mem_ids_leading, rest,
    mem_ids_trailing]
  tauto

theorem OneOutput.covenant {coins : List UtxoEntryReference} (one : OneOutput coins)
    {a b : UtxoEntryReference} (left : a ∈ coins) (right : b ∈ coins) (same : a.id = b.id) :
    isCovenantBound a = isCovenantBound b := by
  rw [isCovenantBound, isCovenantBound, (one a left b right same).2]

/-- Every coin no covenant binds is listed. -/
theorem anchored_lists (one : OneOutput (mature ++ pinned ++ first ++ last))
    {coin : UtxoEntryReference} (member : coin ∈ mature ++ pinned ++ first ++ last)
    (free : isCovenantBound coin = false) :
    coin.id ∈ ids (anchored (selectSpendPriority mature pinned riders exclude) pinned first last) := by
  rw [mem_ids_anchored]
  by_cases held : coin.id ∈ ids pinned
  · obtain ⟨copy, inside, same⟩ := mem_ids.mp held
    have alike := one.covenant (a := copy) (b := coin) (by simp [inside]) member same
    right; right
    refine mem_ids.mpr ⟨copy, mem_selectSpendPriority.mpr ⟨Or.inl inside, ?_⟩, same⟩
    rw [alike, free]
  · simp only [List.mem_append] at member
    rcases member with ((inMature | inPinned) | inFirst) | inLast
    · right; right
      exact mem_ids.mpr ⟨coin, mem_selectSpendPriority.mpr ⟨Or.inr ⟨inMature, held⟩, free⟩, rfl⟩
    · exact absurd (mem_ids.mpr ⟨coin, inPinned, rfl⟩) held
    · left
      exact mem_ids.mpr ⟨coin, mem_unbound.mpr ⟨inFirst, free⟩, rfl⟩
    · right; left
      exact ⟨mem_ids.mpr ⟨coin, mem_unbound.mpr ⟨inLast, free⟩, rfl⟩, held⟩

/-- With nothing pinned, the coins placed first lead and those placed last trail. -/
theorem anchored_unpinned (one : OneOutput (mature ++ first ++ last)) :
    ∃ middle, ids (anchored (selectSpendPriority mature [] riders exclude) [] first last) =
      (ids (unbound first)).eraseDups ++ middle ++
        (ids (unbound (last.filter fun coin => decide (coin.id ∉ ids first)))).eraseDups := by
  have leads : ids (leading first) = (ids (unbound first)).eraseDups := by
    rw [leading, ids_place]
    simp
  have everyLeader : (leading first).filter (leadsPinned []) = leading first := by
    apply List.filter_eq_self.mpr
    intro coin _
    rfl
  have noFollower : ((leading first).filter fun coin => !leadsPinned [] coin) = [] := by
    apply List.filter_eq_nil_iff.mpr
    intro coin _
    exact Bool.false_ne_true
  have trails : ids (trailing [] first last) =
      (ids (unbound (last.filter fun coin => decide (coin.id ∉ ids first)))).eraseDups := by
    have everything : (last.filter fun coin => decide (coin.id ∉ ids ([] : List UtxoEntryReference))) =
        last := by
      simp [ids]
    rw [trailing, everything, ids_place]
    apply congrArg
    rw [ids, ids, List.filter_map]
    apply congrArg
    rw [unbound, unbound, List.filter_filter, List.filter_filter]
    apply List.filter_congr
    intro coin inLast
    cases bound : isCovenantBound coin with
    | true => simp
    | false =>
      have same : coin.id ∈ (ids (leading first)).toFinset ↔ coin.id ∈ ids first := by
        rw [List.mem_toFinset, mem_ids_leading]
        constructor
        · intro member
          obtain ⟨copy, inside, equal⟩ := mem_ids.mp member
          exact mem_ids.mpr ⟨copy, (mem_unbound.mp inside).1, equal⟩
        · intro member
          obtain ⟨copy, inside, equal⟩ := mem_ids.mp member
          have alike := one.covenant (a := copy) (b := coin) (by simp [inside]) (by simp [inLast]) equal
          rw [bound] at alike
          exact mem_ids.mpr ⟨copy, mem_unbound.mpr ⟨inside, alike⟩, equal⟩
      have alike : decide (coin.id ∉ (ids (leading first)).toFinset) = decide (coin.id ∉ ids first) :=
        decide_eq_decide.mpr (not_congr same)
      simpa using alike
  rw [anchored_eq, everyLeader, noFollower, List.append_nil, List.append_assoc (leading first),
    ids_append, ids_append, leads, trails]
  exact ⟨_, rfl⟩

/-- Nothing ahead of a coin `held` names but coins `held` names or `fit` ones. -/
theorem pairwise_guarded {α : Type*} {held fit : α → Prop} {front back : List α}
    (inside : ∀ a ∈ front, fit a) (outside : ∀ a ∈ back, ¬ held a) :
    (front ++ back).Pairwise fun earlier later => held later → fit earlier := by
  rw [List.pairwise_append]
  refine ⟨?_, ?_, ?_⟩
  · apply List.pairwise_of_forall_mem_list
    intro a ahead _ _ _
    exact inside a ahead
  · apply List.pairwise_of_forall_mem_list
    intro _ _ b behind isHeld
    exact absurd isHeld (outside b behind)
  · intro a ahead _ _ _
    exact inside a ahead

theorem leadsPinned_eq {address : Address} (atHome : ∀ coin ∈ pinned, coin.address = some address)
    (some_ : pinned ≠ []) (coin : UtxoEntryReference) :
    leadsPinned pinned coin = decide (coin.address = some address) := by
  obtain ⟨head, rest, rfl⟩ := List.exists_cons_of_ne_nil some_
  rw [leadsPinned, List.head?_cons, Option.bind_some, atHome head List.mem_cons_self]

/-- A pinned block at one address keeps the front: only coins of `first` at its address go ahead. -/
theorem anchored_pinned (one : OneOutput (mature ++ pinned ++ first ++ last)) {address : Address}
    (atHome : ∀ coin ∈ pinned, coin.address = some address) (some_ : unbound pinned ≠ []) :
    (∃ coin, (anchored (selectSpendPriority mature pinned riders exclude) pinned first last).head? =
      some coin ∧ coin.address = some address) ∧
    (anchored (selectSpendPriority mature pinned riders exclude) pinned first last).Pairwise
      fun earlier later => later.id ∈ ids pinned →
        earlier.id ∈ ids pinned ∨ earlier.address = some address ∧ earlier.id ∈ ids (unbound first) := by
  have nonempty : pinned ≠ [] := by
    intro empty
    rw [empty] at some_
    exact some_ rfl
  have leads := leadsPinned_eq atHome nonempty
  have block : ∀ coin ∈ (pinnedBlock pinned).filter (unplaced pinned first last), coin ∈ pinned := by
    intro coin member
    exact (mem_pinnedBlock.mp (List.mem_filter.mp member).1).1
  have front : ∀ coin ∈ (leading first).filter (leadsPinned pinned) ++
      (pinnedBlock pinned).filter (unplaced pinned first last), coin.address = some address ∧
        (coin.id ∈ ids pinned ∨ coin.id ∈ ids (unbound first)) := by
    intro coin member
    rcases List.mem_append.mp member with led | held
    · obtain ⟨leader, there⟩ := List.mem_filter.mp led
      rw [leads, decide_eq_true_iff] at there
      exact ⟨there, Or.inr ((mem_ids_leading first).mp (mem_ids.mpr ⟨coin, leader, rfl⟩))⟩
    · exact ⟨atHome coin (block coin held), Or.inl (mem_ids.mpr ⟨coin, block coin held, rfl⟩)⟩
  rw [anchored_eq, List.append_assoc _ _ (trailing pinned first last),
    List.append_assoc _ _ ((poolOrder mature pinned riders exclude).filter _ ++ _)]
  constructor
  · obtain ⟨coin, free⟩ := List.exists_mem_of_ne_nil _ some_
    obtain ⟨held, free⟩ := mem_unbound.mp free
    have listed : (leading first).filter (leadsPinned pinned) ++
        (pinnedBlock pinned).filter (unplaced pinned first last) ≠ [] := by
      by_cases placed : coin.id ∈ ids (unbound first)
      · obtain ⟨leader, member, same⟩ := mem_ids.mp ((mem_ids_leading first).mpr placed)
        have alike := (one leader (by simp [(mem_place member).1]) coin (by simp [held]) same).1
        apply List.append_ne_nil_of_left_ne_nil
        apply List.ne_nil_of_mem (a := leader)
        exact List.mem_filter.mpr ⟨member, by rw [leads, alike, atHome coin held, decide_eq_true rfl]⟩
      · have new : unplaced pinned first last coin = true :=
          (unplaced_iff pinned first last).mpr ⟨placed, fun _ => mem_ids.mpr ⟨coin, held, rfl⟩⟩
        apply List.append_ne_nil_of_right_ne_nil
        apply List.ne_nil_of_mem (a := coin)
        exact List.mem_filter.mpr ⟨mem_pinnedBlock.mpr ⟨held, free⟩, new⟩
    obtain ⟨head, rest, isCons⟩ := List.exists_cons_of_ne_nil listed
    refine ⟨head, by rw [isCons]; rfl, (front head ?_).1⟩
    rw [isCons]
    exact List.mem_cons_self
  · apply pairwise_guarded
    · intro coin member
      obtain ⟨there, either⟩ := front coin member
      exact either.imp_right fun led => ⟨there, led⟩
    · intro coin member isHeld
      simp only [List.mem_append, List.mem_filter] at member
      rcases member with ⟨leader, elsewhere⟩ | ⟨pooled, _⟩ | trails
      · obtain ⟨copy, held, same⟩ := mem_ids.mp isHeld
        have alike := (one copy (by simp [held]) coin (by simp [(mem_place leader).1]) same).1
        rw [leads, ← alike, atHome copy held] at elsewhere
        simp at elsewhere
      · have listed := (poolOrder_perm mature pinned riders exclude).mem_iff.mp pooled
        exact (mem_unpinned.mp listed).2.1 isHeld
      · have placed := (mem_ids_trailing pinned first last).mp (mem_ids.mpr ⟨coin, trails, rfl⟩)
        exact placed.2.1 isHeld

/-- The coins no anchor places keep the order they had. -/
theorem anchored_unplaced :
    (anchored (selectSpendPriority mature pinned riders exclude) pinned first last).filter
      (unplaced pinned first last) =
    (selectSpendPriority mature pinned riders exclude).filter (unplaced pinned first last) := by
  have noLeader : ∀ p : UtxoEntryReference → Bool,
      ((leading first).filter p).filter (unplaced pinned first last) = [] := by
    intro p
    apply List.filter_eq_nil_iff.mpr
    intro coin member isNew
    have new := (unplaced_iff pinned first last).mp isNew
    apply new.1
    exact (mem_ids_leading first).mp (mem_ids.mpr ⟨coin, (List.mem_filter.mp member).1, rfl⟩)
  have noTrailer : (trailing pinned first last).filter (unplaced pinned first last) = [] := by
    apply List.filter_eq_nil_iff.mpr
    intro coin member isNew
    have new := (unplaced_iff pinned first last).mp isNew
    have placed := (mem_ids_trailing pinned first last).mp (mem_ids.mpr ⟨coin, member, rfl⟩)
    exact placed.2.1 (new.2 placed.1)
  rw [anchored_eq]
  simp only [List.filter_append, noLeader, noTrailer, List.filter_filter, Bool.and_self,
    List.nil_append, List.append_nil]
  rw [← List.filter_append, ← selectSpendPriority_eq]

end Anchored

/-- What an anchored order is made of: the leaders at the pinned address, the pinned coins that are
    no leaders, the other leaders, and coins that are neither. -/
theorem anchored_split (mature pinned : List UtxoEntryReference) (riders : Nat)
    (exclude : List Address) (first last : List UtxoEntryReference) :
    ∃ pinnedRest tail,
      anchored (selectSpendPriority mature pinned riders exclude) pinned first last =
        (place ∅ first).filter (leadsPinned pinned) ++ pinnedRest ++
          (place ∅ first).filter (fun coin => !leadsPinned pinned coin) ++ tail ∧
      (∀ coin, coin ∈ pinnedRest ↔
        coin ∈ pinned ∧ isCovenantBound coin = false ∧ coin.id ∉ ids (place ∅ first)) ∧
      ∀ coin ∈ tail, (coin ∈ mature ∨ coin ∈ last) ∧ isCovenantBound coin = false ∧
        coin.id ∉ ids (place ∅ first) := by
  refine ⟨(pinnedBlock pinned).filter (unplaced pinned first last),
    (poolOrder mature pinned riders exclude).filter (unplaced pinned first last) ++
      trailing pinned first last, ?_, ?_, ?_⟩
  · rw [anchored_eq, List.append_assoc _ _ (trailing pinned first last)]
    rfl
  · intro coin
    have new : coin.id ∈ ids (leading first) ↔ coin.id ∈ ids (unbound first) := mem_ids_leading first
    rw [leading] at new
    rw [List.mem_filter, mem_pinnedBlock, unplaced_iff, new]
    constructor
    · intro ⟨⟨held, free⟩, notFirst, _⟩
      exact ⟨held, free, notFirst⟩
    · intro ⟨held, free, notFirst⟩
      exact ⟨⟨held, free⟩, notFirst, fun _ => mem_ids.mpr ⟨coin, held, rfl⟩⟩
  · intro coin member
    have new : coin.id ∈ ids (leading first) ↔ coin.id ∈ ids (unbound first) := mem_ids_leading first
    rw [leading] at new
    rw [new]
    rcases List.mem_append.mp member with pooled | trails
    · obtain ⟨listed, isNew⟩ := List.mem_filter.mp pooled
      have ordered := (poolOrder_perm mature pinned riders exclude).mem_iff.mp listed
      obtain ⟨inMature, _, free⟩ := mem_unpinned.mp ordered
      exact ⟨Or.inl inMature, free, ((unplaced_iff pinned first last).mp isNew).1⟩
    · obtain ⟨inside, free, _⟩ := mem_place trails
      have placed := (mem_ids_trailing pinned first last).mp (mem_ids.mpr ⟨coin, trails, rfl⟩)
      exact ⟨Or.inr (List.mem_filter.mp inside).1, free, placed.2.2⟩

/-- The order before any anchor, in its blocks: the pinned coins, the riders drawn, the other free
    coins and the reserved ones. -/
structure SpendBlocks (mature pinned : List UtxoEntryReference) (riders : Nat) (exclude : List Address)
    (block drawn after reserved : List UtxoEntryReference) : Prop where
  whole : block.Perm (unbound pinned)
  blockDescends : block.Pairwise largestAmount
  free : (drawn ++ after).Perm ((unbound mature).filter fun coin =>
    decide (coin.id ∉ ids pinned) && !demoted exclude coin)
  demotes : reserved.Perm ((unbound mature).filter fun coin =>
    decide (coin.id ∉ ids pinned) && demoted exclude coin)
  count : drawn.length = min riders (drawn ++ after).length
  smallest : ∀ rider ∈ drawn, ∀ coin ∈ after, rider.amount ≤ coin.amount
  ascends : drawn.Pairwise fun a b => a.amount ≤ b.amount
  descends : after.Pairwise largestAmount
  reservedDescends : reserved.Pairwise largestAmount

theorem selectSpendPriority_blocks (mature pinned : List UtxoEntryReference) (riders : Nat)
    (exclude : List Address) : ∃ block drawn after reserved,
      selectSpendPriority mature pinned riders exclude = block ++ drawn ++ after ++ reserved ∧
      SpendBlocks mature pinned riders exclude block drawn after reserved := by
  have pool : (unpinned mature pinned).Perm
      ((unbound mature).filter fun coin => decide (coin.id ∉ ids pinned)) := by
    apply (List.perm_insertionSort _ _).trans
    rw [unbound, List.filter_filter]
  have part : ∀ p : UtxoEntryReference → Bool, ((unpinned mature pinned).filter p).Perm
      ((unbound mature).filter fun coin => decide (coin.id ∉ ids pinned) && p coin) := by
    intro p
    have both := pool.filter p
    rw [List.filter_filter] at both
    simpa only [Bool.and_comm] using both
  have sorted := unpinned_sorted mature pinned
  have freeSorted : (freePool mature pinned exclude).Pairwise largestAmount :=
    sorted.sublist List.filter_sublist
  refine ⟨pinnedBlock pinned, drawnRiders (freePool mature pinned exclude) riders,
    afterRiders (freePool mature pinned exclude) riders, reservedPool mature pinned exclude, ?_, ?_⟩
  · rw [selectSpendPriority_eq, poolOrder]
    simp only [List.append_assoc]
  · exact {
      whole := List.perm_insertionSort _ _
      blockDescends := List.pairwise_insertionSort _ _
      free := riders_perm.trans (part _)
      demotes := part _
      count := by rw [length_drawnRiders, riders_perm.length_eq]
      smallest := riders_smallest freeSorted
      ascends := riders_ascend freeSorted
      descends := afterRiders_descend freeSorted
      reservedDescends := sorted.sublist List.filter_sublist }

/-- An anchor says where the coin goes. -/
def anchorPlaces (pinned first last : List UtxoEntryReference) (coin : UtxoEntryReference) : Bool :=
  decide (coin.id ∈ ids (unbound first) ∨ coin.id ∈ ids (unbound last) ∧ coin.id ∉ ids pinned)

theorem unplaced_eq (pinned first last : List UtxoEntryReference) :
    unplaced pinned first last = fun coin => !anchorPlaces pinned first last coin := by
  funext coin
  rw [Bool.eq_iff_iff, unplaced_iff, anchorPlaces, Bool.not_eq_true', decide_eq_false_iff_not]
  tauto

/-- The spend order is exact. -/
theorem spend_order_is_exact (mature pinned first last : List UtxoEntryReference) (riders : Nat)
    (exclude : List Address) (mature_once : (ids mature).Nodup) (pinned_once : (ids pinned).Nodup)
    (one : OneOutput (mature ++ pinned ++ first ++ last)) :
    let listed := anchored (selectSpendPriority mature pinned riders exclude) pinned first last
    (ids listed).Nodup ∧
    (∀ coin ∈ listed, isCovenantBound coin = false) ∧
    (∀ coin ∈ mature ++ pinned ++ first ++ last, isCovenantBound coin = false → coin.id ∈ ids listed) ∧
    (pinned = [] → ∃ middle, ids listed = (ids (unbound first)).eraseDups ++ middle ++
      (ids (unbound (last.filter fun coin => decide (coin.id ∉ ids first)))).eraseDups) ∧
    (∀ address, (∀ coin ∈ pinned, coin.address = some address) → unbound pinned ≠ [] →
      (∃ coin, listed.head? = some coin ∧ coin.address = some address) ∧
      listed.Pairwise fun earlier later => later.id ∈ ids pinned →
        earlier.id ∈ ids pinned ∨ earlier.address = some address ∧ earlier.id ∈ ids (unbound first)) ∧
    ∃ block drawn after reserved,
      (listed.filter fun coin => !anchorPlaces pinned first last coin) =
        (block ++ drawn ++ after ++ reserved).filter (fun coin => !anchorPlaces pinned first last coin) ∧
      SpendBlocks mature pinned riders exclude block drawn after reserved := by
  refine ⟨anchored_nodup mature_once pinned_once, ?_, ?_, ?_, ?_, ?_⟩
  · intro coin member
    exact anchored_unbound member
  · intro coin member free
    exact anchored_lists one member free
  · intro empty
    subst empty
    rw [List.append_nil] at one
    exact anchored_unpinned one
  · intro address atHome some_
    exact anchored_pinned one atHome some_
  · obtain ⟨block, drawn, after, reserved, order, blocks⟩ :=
      selectSpendPriority_blocks mature pinned riders exclude
    refine ⟨block, drawn, after, reserved, ?_, blocks⟩
    rw [← order, ← unplaced_eq]
    exact anchored_unplaced

namespace SpendSample

def home : Address := ⟨0, [1]⟩

def at_ (n amount : Nat) : UtxoEntryReference :=
  ⟨⟨BitVec.ofNat 256 n, 0⟩, amount, some home, 0, [], 5, false, none⟩

end SpendSample

open SpendSample in
theorem spend_order_of_sample : (ids (anchored (selectSpendPriority [at_ 1 9, at_ 2 3, at_ 3 5]
    [at_ 2 3] 1 []) [at_ 2 3] [at_ 3 5] [at_ 2 3, at_ 1 9])).Nodup :=
  (spend_order_is_exact [at_ 1 9, at_ 2 3, at_ 3 5] [at_ 2 3] [at_ 3 5] [at_ 2 3, at_ 1 9] 1 []
    (by decide +kernel) (by decide +kernel) (by unfold OneOutput; decide +kernel)).1

open SpendSample in
/-- A pinned coin that another payment would draw last stays in its block, ahead of a smaller one. -/
theorem pinned_coin_behind_last : ¬ ∀ mature pinned first last : List UtxoEntryReference,
    ∀ (riders : Nat) (exclude : List Address) (address : Address), (ids mature).Nodup →
    (ids pinned).Nodup → OneOutput (mature ++ pinned ++ first ++ last) →
    (∀ coin ∈ pinned, coin.address = some address) → unbound pinned ≠ [] →
    ∀ held ∈ unbound pinned,
      (∀ coin ∈ unbound last, [held, coin].Sublist
        (anchored (selectSpendPriority mature pinned riders exclude) pinned first last)) ∧
      ∀ coin ∈ unbound mature, coin.id ∉ ids pinned → [held, coin].Sublist
        (anchored (selectSpendPriority mature pinned riders exclude) pinned first last) := by
  intro stated
  have precedes := stated [at_ 1 2, at_ 2 3] [at_ 1 2, at_ 2 3] [] [at_ 2 3] 0 [] home
    (by decide +kernel) (by decide +kernel) (by unfold OneOutput; decide +kernel) (by decide +kernel)
    (by decide +kernel) (at_ 1 2) (by decide +kernel)
  exact absurd (precedes.1 (at_ 2 3) (by decide +kernel)) (by decide +kernel)

end Kaspaverse.Chain
