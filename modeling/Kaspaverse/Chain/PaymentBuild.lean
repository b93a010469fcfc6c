import Mathlib
import Kaspaverse.Library.Ledger
import Kaspaverse.Chain.Commit
import Kaspaverse.Chain.Anchoring
import Kaspaverse.Chain.SpendOrder

namespace Kaspaverse.Chain

/-- What a build is asked for, with the spendable list and the clock it reads. -/
structure BuildRequest where
  destination : String
  /-- A message's own key; a payment has none and is keyed by its destination. -/
  anchorKey : Option String
  mature : List UtxoEntryReference
  pinned : List UtxoEntryReference
  exclude : List Address
  now : Nat

inductive Refusal
  | earlierPaymentWentThrough
  | paymentStillSettling
  | notBuilt
  deriving DecidableEq

/-- A chain that spends a nonempty prefix of `order` and, beside it, only coins it makes itself:
    none of them is on the order, and none is covenant-bound. -/
def DrawsFront (bound : UtxoEntryId → Bool) (order : List UtxoEntryReference)
    (pending : List PendingTransaction) : Prop :=
  ∃ count, 0 < count ∧ count ≤ order.length ∧
    (∀ coin ∈ order.take count, ∃ tx ∈ pending, coin ∈ tx.utxoEntries) ∧
    ∀ tx ∈ pending, ∀ coin ∈ tx.utxoEntries, coin ∈ order.take count ∨
      coin.id ∉ ids order ∧ bound coin.id = false

/-- The pin's Generator on one request, where `bound` says which outpoints a covenant binds. -/
structure Generator (bound : UtxoEntryId → Bool) where
  draw : List UtxoEntryReference → Option (List PendingTransaction)
  front : ∀ order pending, draw order = some pending → DrawsFront bound order pending

/-- The Generator that draws one transaction over the first `count` coins. -/
def drawsFirst (bound : UtxoEntryId → Bool) (txid : TransactionId) (count : Nat)
    (positive : 0 < count) : Generator bound where
  draw order :=
    if order = [] then none else some [⟨txid, order.take count, [], true⟩]
  front := by
    intro order pending drawn
    split at drawn
    · cases drawn
    · rename_i some_
      cases drawn
      have nonempty := List.length_pos_iff.mpr some_
      refine ⟨min count order.length, by omega, by omega, ?_, ?_⟩
      · intro coin member
        rw [← List.take_take, List.take_length] at member
        exact ⟨_, List.mem_singleton_self _, member⟩
      · intro tx member coin entry
        rw [List.mem_singleton.mp member] at entry
        rw [← List.take_take, List.take_length]
        exact Or.inl entry

/-- Both shapes are generated; the ridden one's failure is the build's, the riderless one's is not.
    `rides` is the comparison's answer. -/
def shippedTwoShape {bound : UtxoEntryId → Bool} (generator : Generator bound)
    (rides : Bool) (order : Nat → List UtxoEntryReference) : Option (List PendingTransaction) :=
  match generator.draw (order RIDER_LIMIT) with
  | none => none
  | some ridden =>
    match generator.draw (order 0) with
    | none => some ridden
    | some riderless => if rides then some ridden else some riderless

/-- Whether a built chain conflicts with a send it is anchored on, or has none. -/
def anchorFence (pending : List PendingTransaction) (anchoring : Anchoring) : Bool :=
  anchoring.first.isEmpty || pending.any fun tx =>
    tx.utxoEntries.any fun coin => decide (coin.id ∈ ids anchoring.first)

/-- The coins the processor's unaccepted sends spend. -/
def heldByProcessor (outgoing : KeyMap TransactionId OutgoingTransaction) : List UtxoEntryId :=
  (outgoing.values.filter fun record => !record.isAccepted).flatMap fun record =>
    ids record.utxoEntries

/-- The coins our sends in flight hold. -/
def Lane.ours (lane : Lane) : List UtxoEntryId :=
  lane.inFlight.heldByOurs (heldByProcessor lane.outgoing)

/-- A chain spends one of the coins of `leg`. -/
def SpendsOneOf (pending : List PendingTransaction) (leg : UnknownLeg) : Prop :=
  ∃ tx ∈ pending, ∃ coin ∈ tx.utxoEntries, leg.spends coin.id = true

namespace BuildRequest

def payment (request : BuildRequest) : Bool := request.anchorKey.isNone

def key (request : BuildRequest) : String := request.anchorKey.getD request.destination

def anchoring (request : BuildRequest) (lane : Lane) : Anchoring :=
  lane.inFlight.anchoring request.key (ids request.mature) (heldByProcessor lane.outgoing) request.now

def order (request : BuildRequest) (anchoring : Anchoring) (riders : Nat) :
    List UtxoEntryReference :=
  anchored (selectSpendPriority request.mature request.pinned riders request.exclude) request.pinned
    anchoring.first anchoring.last

variable {bound : UtxoEntryId → Bool}

/-- The build, and the lane it leaves: a notice that an earlier payment went through is told once. -/
def prepareSend (request : BuildRequest) (lane : Lane) (generator : Generator bound) (rides : Bool) :
    Except Refusal (List PendingTransaction) × Lane :=
  let told := lane.inFlight.takeLanded request.key request.now
  let after := if request.payment then { lane with inFlight := told.2 } else lane
  let anchoring := request.anchoring after
  let built :=
    if request.payment && told.1 then .error .earlierPaymentWentThrough
    else if request.payment && anchoring.blocked then .error .paymentStillSettling
    else
      match shippedTwoShape generator rides (request.order anchoring) with
      | none => .error .notBuilt
      | some pending =>
        if request.payment && !anchorFence pending anchoring then .error .paymentStillSettling
        else .ok pending
  (built, after)

/-- The legs of unknown fate of this payment that hold a coin of their own no other send holds. -/
def attempts (request : BuildRequest) (lane : Lane) : List UnknownLeg :=
  lane.inFlight.unknown.filter fun leg =>
    leg.paidTo == request.key && !(freeCoins (lane.ours) leg.held).isEmpty

/-- Every copy of a coin the build sees agrees with its outpoint. -/
def Agrees (bound : UtxoEntryId → Bool) (request : BuildRequest) (lane : Lane) : Prop :=
  ∀ coin ∈ request.mature ++ request.pinned ++ lane.inFlight.unknown.flatMap (·.inputs),
    bound coin.id = isCovenantBound coin

instance (request : BuildRequest) (lane : Lane) : Decidable (request.Agrees bound lane) :=
  inferInstanceAs (Decidable (∀ coin ∈ _, _))

/-- The coins that may lead the build: the largest free coin of each leg of unknown fate of this
    payment, in the order the legs were registered, and then the rest of each. -/
def candidates (request : BuildRequest) (lane : Lane) : List UtxoEntryReference :=
  let legs := lane.inFlight.unknown.filter fun leg => leg.paidTo == request.key
  let each := (legs.map (legAnchors lane.ours request.now)).filter (!·.isEmpty)
  each.filterMap List.head? ++ each.flatMap List.tail

def leaders (request : BuildRequest) (lane : Lane) : List UtxoEntryReference :=
  place ∅ (request.candidates lane)

/-- The coins no build of this payment can do without: the first leader at the pinned address, or
    else every pinned coin that is no leader and the first leader. -/
def ahead (request : BuildRequest) (lane : Lane) : List UtxoEntryReference :=
  match (request.leaders lane).find? (leadsPinned request.pinned) with
  | some coin => [coin]
  | none =>
    (request.pinned.filter fun coin =>
      !isCovenantBound coin && decide (coin.id ∉ ids (request.leaders lane))) ++
      (request.leaders lane).head?.toList

/-- The payment is refused whatever is built: a notice of an earlier one is due, a leg's every own
    coin is held by another send, or covenants bind every coin that may lead. -/
def RefusedOutright (request : BuildRequest) (lane : Lane) : Prop :=
  (lane.inFlight.takeLanded request.key request.now).1 = true ∨
  (∃ leg ∈ lane.inFlight.unknown, leg.paidTo = request.key ∧ leg.held ≠ [] ∧
    freeCoins lane.ours leg.held = []) ∨
  request.candidates lane ≠ [] ∧ request.leaders lane = []

/-- **The coins the build cannot do without reach every unsettled attempt.** -/
def LeadReachesAll (request : BuildRequest) (lane : Lane) : Prop :=
  request.RefusedOutright lane ∨
    ∀ leg ∈ request.attempts lane, ∃ coin ∈ request.ahead lane, leg.spends coin.id = true

theorem shippedTwoShape_drawn {generator : Generator bound} {rides : Bool}
    {order : Nat → List UtxoEntryReference} {pending : List PendingTransaction}
    (shipped : shippedTwoShape generator rides order = some pending) :
    ∃ riders, DrawsFront bound (order riders) pending := by
  unfold shippedTwoShape at shipped
  split at shipped
  · cases shipped
  · rename_i ridden drawn
    split at shipped
    · cases shipped
      exact ⟨RIDER_LIMIT, generator.front _ _ drawn⟩
    · rename_i riderless drawnToo
      cases rides with
      | true =>
        cases shipped
        exact ⟨RIDER_LIMIT, generator.front _ _ drawn⟩
      | false =>
        cases shipped
        exact ⟨0, generator.front _ _ drawnToo⟩

/-- A payment that is built met no notice, was not blocked and passed the fence. -/
theorem prepareSend_ok {request : BuildRequest} {lane : Lane} {generator : Generator bound}
    {rides : Bool} {pending : List PendingTransaction} (payment : request.payment = true)
    (built : (request.prepareSend lane generator rides).1 = .ok pending) :
    (lane.inFlight.takeLanded request.key request.now).1 = false ∧
      (request.anchoring lane).blocked = false ∧
      anchorFence pending (request.anchoring lane) = true ∧
      ∃ riders, DrawsFront bound (request.order (request.anchoring lane) riders) pending := by
  have same : request.anchoring
      { lane with inFlight := (lane.inFlight.takeLanded request.key request.now).2 } =
      request.anchoring lane := rfl
  simp only [prepareSend, payment, if_true, Bool.true_and, same] at built
  cases told : (lane.inFlight.takeLanded request.key request.now).1 with
  | true => simp [told] at built
  | false =>
    cases blocked : (request.anchoring lane).blocked with
    | true => simp [told, blocked] at built
    | false =>
      simp only [told, blocked, Bool.false_eq_true, if_false] at built
      split at built
      · cases built
      · rename_i shipped drawn
        cases fence : anchorFence shipped (request.anchoring lane) with
        | false => simp [fence] at built
        | true =>
          simp only [fence, Bool.not_true, Bool.false_eq_true, if_false, Except.ok.injEq] at built
          subst built
          exact ⟨rfl, rfl, fence, shippedTwoShape_drawn drawn⟩

theorem blocked_iff {request : BuildRequest} {lane : Lane} :
    (request.anchoring lane).blocked = true ↔ ∃ leg ∈ lane.inFlight.unknown,
      leg.paidTo = request.key ∧ leg.held ≠ [] ∧ freeCoins lane.ours leg.held = [] :=
  InFlightSends.blocked_iff

theorem candidates_eq (request : BuildRequest) (lane : Lane) :
    (request.anchoring lane).first = request.candidates lane := rfl

theorem mem_candidates {request : BuildRequest} {lane : Lane} {coin : UtxoEntryReference}
    (member : coin ∈ request.candidates lane) :
    ∃ leg ∈ lane.inFlight.unknown, leg.paidTo = request.key ∧ coin ∈ leg.inputs := by
  rw [← candidates_eq] at member
  obtain ⟨leg, known, keyed, anchor⟩ := InFlightSends.mem_first member
  exact ⟨leg, known, keyed, (mem_legAnchors anchor).1⟩

theorem candidates_ne_nil {request : BuildRequest} {lane : Lane} {leg : UnknownLeg}
    (member : leg ∈ request.attempts lane) : request.candidates lane ≠ [] := by
  obtain ⟨known, holds⟩ := List.mem_filter.mp member
  simp only [Bool.and_eq_true, beq_iff_eq, Bool.not_eq_true', List.isEmpty_eq_false_iff] at holds
  have anchors : legAnchors lane.ours request.now leg ≠ [] := by
    rw [legAnchors, if_pos holds.2]
    intro none
    have length := congrArg List.length none
    rw [List.length_insertionSort] at length
    exact holds.2 (List.eq_nil_of_length_eq_zero length)
  obtain ⟨first, rest, isCons⟩ := List.exists_cons_of_ne_nil anchors
  have inEach : legAnchors lane.ours request.now leg ∈ ((lane.inFlight.unknown.filter fun leg =>
      leg.paidTo == request.key).map (legAnchors lane.ours request.now)).filter (!·.isEmpty) := by
    refine List.mem_filter.mpr ⟨List.mem_map_of_mem (List.mem_filter.mpr ⟨known, by simp [holds.1]⟩), ?_⟩
    simp [isCons]
  apply List.ne_nil_of_mem (a := first)
  apply List.mem_append_left
  exact List.mem_filterMap.mpr ⟨_, inEach, by rw [isCons]; rfl⟩

/-- A prefix that reaches a leader holds every coin ahead. -/
theorem ahead_of_reached {pinned leaders lead rest after tail : List UtxoEntryReference}
    {count : Nat} {coin reached : UtxoEntryReference} (leads : UtxoEntryReference → Bool)
    (isLead : lead = leaders.filter leads) (isAfter : after = leaders.filter fun c => !leads c)
    (inRest : ∀ c, c ∈ rest ↔ c ∈ pinned ∧ isCovenantBound c = false ∧ c.id ∉ ids leaders)
    (inside : reached ∈ (lead ++ rest ++ after ++ tail).take count)
    (isLeader : reached.id ∈ ids leaders)
    (member : coin ∈ match leaders.find? leads with
      | some coin => [coin]
      | none => (pinned.filter fun c => !isCovenantBound c && decide (c.id ∉ ids leaders)) ++
          leaders.head?.toList) : coin ∈ (lead ++ rest ++ after ++ tail).take count := by
  cases found : leaders.find? leads with
  | some first =>
    rw [found] at member
    rw [List.mem_singleton.mp member]
    have head : lead.head? = some first := by
      rw [isLead, List.head?_filter, found]
    obtain ⟨others, rfl⟩ := List.head?_eq_some_iff.mp head
    cases count with
    | zero =>
      rw [List.take_zero] at inside
      cases inside
    | succ count => simp
  | none =>
    rw [found] at member
    have none_ : ∀ c ∈ leaders, leads c = false := by
      intro c inLeaders
      have no := List.find?_eq_none.mp found c inLeaders
      simpa using no
    have noLead : lead = [] := by
      rw [isLead, List.filter_eq_nil_iff]
      intro c inLeaders
      rw [none_ c inLeaders]
      exact Bool.false_ne_true
    have allAfter : after = leaders := by
      rw [isAfter, List.filter_eq_self]
      intro c inLeaders
      rw [none_ c inLeaders]
      rfl
    subst noLead allAfter
    rw [List.nil_append] at inside ⊢
    have past : rest.length < count := by
      by_contra short
      have within : reached ∈ rest := by
        rw [List.append_assoc, List.take_append_of_le_length (by omega)] at inside
        exact List.mem_of_mem_take inside
      exact ((inRest reached).mp within).2.2 isLeader
    rcases List.mem_append.mp member with pinnedCoin | first
    · obtain ⟨isPinned, holds⟩ := List.mem_filter.mp pinnedCoin
      simp only [Bool.and_eq_true, Bool.not_eq_true', decide_eq_true_eq] at holds
      have within := (inRest coin).mpr ⟨isPinned, holds.1, holds.2⟩
      rw [List.append_assoc, List.take_append, List.take_of_length_le (by omega)]
      exact List.mem_append_left _ within
    · rw [Option.mem_toList] at first
      obtain ⟨others, rfl⟩ := List.head?_eq_some_iff.mp first
      rw [List.append_assoc, List.take_append]
      apply List.mem_append_right
      obtain ⟨more, isMore⟩ : ∃ more, count - rest.length = more + 1 := ⟨count - rest.length - 1, by omega⟩
      rw [isMore]
      simp

/-- A build that passes the fence reaches a leader. -/
theorem reached_of_fence {request : BuildRequest} {lane : Lane} (agrees : request.Agrees bound lane)
    {pending : List PendingTransaction} {order : List UtxoEntryReference} {count : Nat}
    (some_ : request.candidates lane ≠ [])
    (fence : anchorFence pending (request.anchoring lane) = true)
    (known : ∀ coin ∈ order, isCovenantBound coin = false ∧
      (coin ∈ request.mature ++ request.pinned ++ lane.inFlight.unknown.flatMap (·.inputs)))
    (leaders : ∀ coin ∈ request.leaders lane, coin ∈ order)
    (drawn : ∀ tx ∈ pending, ∀ coin ∈ tx.utxoEntries, coin ∈ order.take count ∨
      coin.id ∉ ids order ∧ bound coin.id = false) :
    ∃ coin ∈ order.take count, coin.id ∈ ids (request.leaders lane) := by
  have notEmpty : (request.anchoring lane).first.isEmpty = false := by
    rw [candidates_eq]
    simpa using some_
  rw [anchorFence, notEmpty, Bool.false_or, List.any_eq_true] at fence
  obtain ⟨tx, member, hits⟩ := fence
  obtain ⟨coin, entry, anchors⟩ := List.any_eq_true.mp hits
  rw [decide_eq_true_eq, candidates_eq] at anchors
  obtain ⟨candidate, isCandidate, same⟩ := mem_ids.mp anchors
  obtain ⟨leg, inUnknown, _, input⟩ := mem_candidates isCandidate
  have candidateBound : bound candidate.id = isCovenantBound candidate := by
    apply agrees
    exact List.mem_append_right _ (List.mem_flatMap.mpr ⟨leg, inUnknown, input⟩)
  have isLeader : bound coin.id = false → coin.id ∈ ids (request.leaders lane) := by
    intro free
    rw [← same, candidateBound] at free
    rw [← same]
    have kept := mem_unbound.mpr ⟨isCandidate, free⟩
    exact mem_ids_place.mpr ⟨mem_ids.mpr ⟨candidate, kept, rfl⟩, Finset.notMem_empty _⟩
  rcases drawn tx member coin entry with taken | ⟨absent, free⟩
  · obtain ⟨free, seen⟩ := known coin (List.mem_of_mem_take taken)
    have coinBound := agrees coin seen
    rw [free] at coinBound
    exact ⟨coin, taken, isLeader coinBound⟩
  · obtain ⟨copy, inLeaders, equal⟩ := mem_ids.mp (isLeader free)
    exact absurd (mem_ids.mpr ⟨copy, leaders copy inLeaders, equal⟩) absent

theorem mem_last {request : BuildRequest} {lane : Lane} {coin : UtxoEntryReference}
    (member : coin ∈ (request.anchoring lane).last) :
    ∃ leg ∈ lane.inFlight.unknown, coin ∈ leg.inputs := by
  obtain ⟨leg, inLegs, free⟩ := List.mem_flatMap.mp member
  have held := (List.mem_filter.mp (List.mem_filter.mp free).1).1
  exact ⟨leg, (List.mem_filter.mp inLegs).1, List.mem_append_left _ held⟩

/-- A payment built over candidates holds every coin ahead. -/
theorem ahead_drawn {request : BuildRequest} {lane : Lane} (agrees : request.Agrees bound lane)
    {pending : List PendingTransaction} {riders : Nat} (some_ : request.candidates lane ≠ [])
    (fence : anchorFence pending (request.anchoring lane) = true)
    (drawn : DrawsFront bound (request.order (request.anchoring lane) riders) pending) :
    request.leaders lane ≠ [] ∧
      ∀ coin ∈ request.ahead lane, ∃ tx ∈ pending, coin ∈ tx.utxoEntries := by
  obtain ⟨rest, tail, order, inRest, inTail⟩ := anchored_split request.mature request.pinned riders
    request.exclude (request.candidates lane) (request.anchoring lane).last
  change request.order (request.anchoring lane) riders = _ at order
  obtain ⟨count, _, _, taken, entries⟩ := drawn
  rw [order] at taken entries
  have inLeaders : ∀ coin, coin ∈ request.leaders lane → coin ∈
      (place ∅ (request.candidates lane)).filter (leadsPinned request.pinned) ++ rest ++
        (place ∅ (request.candidates lane)).filter (fun c => !leadsPinned request.pinned c) ++ tail := by
    intro coin member
    simp only [List.mem_append, List.mem_filter]
    cases leadsPinned request.pinned coin with
    | true => exact Or.inl (Or.inl (Or.inl ⟨member, rfl⟩))
    | false => exact Or.inl (Or.inr ⟨member, rfl⟩)
  have leaderKnown : ∀ coin ∈ request.leaders lane, isCovenantBound coin = false ∧
      coin ∈ request.mature ++ request.pinned ++ lane.inFlight.unknown.flatMap (·.inputs) := by
    intro coin member
    obtain ⟨candidate, free, _⟩ := mem_place member
    obtain ⟨leg, known, _, input⟩ := mem_candidates candidate
    exact ⟨free, List.mem_append_right _ (List.mem_flatMap.mpr ⟨leg, known, input⟩)⟩
  obtain ⟨reached, inside, isLeader⟩ := reached_of_fence agrees some_ fence (by
    intro coin member
    simp only [List.mem_append, List.mem_filter] at member
    rcases member with ((lead | pinned) | after) | trails
    · exact leaderKnown coin lead.1
    · obtain ⟨isPinned, free, _⟩ := (inRest coin).mp pinned
      exact ⟨free, List.mem_append_left _ (List.mem_append_right _ isPinned)⟩
    · exact leaderKnown coin after.1
    · obtain ⟨either, free, _⟩ := inTail coin trails
      refine ⟨free, ?_⟩
      rcases either with listed | ofLast
      · exact List.mem_append_left _ (List.mem_append_left _ listed)
      · obtain ⟨leg, known, input⟩ := mem_last ofLast
        exact List.mem_append_right _ (List.mem_flatMap.mpr ⟨leg, known, input⟩)) inLeaders entries
  constructor
  · intro none
    rw [none] at isLeader
    cases isLeader
  · intro coin member
    exact taken coin (ahead_of_reached (leadsPinned request.pinned) rfl rfl inRest inside isLeader member)

/-- **Where the leading coins reach every attempt, so does every chain the build lets out.** -/
theorem spends_of_leadReachesAll {request : BuildRequest} {lane : Lane}
    (agrees : request.Agrees bound lane) (payment : request.payment = true)
    (lead : request.LeadReachesAll lane) {generator : Generator bound} {rides : Bool}
    {pending : List PendingTransaction}
    (built : (request.prepareSend lane generator rides).1 = .ok pending) :
    ∀ leg ∈ request.attempts lane, SpendsOneOf pending leg := by
  intro leg member
  obtain ⟨untold, unblocked, fence, riders, drawn⟩ := prepareSend_ok payment built
  obtain ⟨leads, spends⟩ := ahead_drawn agrees (candidates_ne_nil member) fence drawn
  rcases lead with told | all
  · rcases told with told | ⟨held, inUnknown, keyed, some_, none⟩ | ⟨_, none⟩
    · rw [told] at untold
      cases untold
    · have blocked : (request.anchoring lane).blocked = true :=
        blocked_iff.mpr ⟨held, inUnknown, keyed, some_, none⟩
      rw [blocked] at unblocked
      cases unblocked
    · exact absurd none leads
  · obtain ⟨coin, isAhead, hits⟩ := all leg member
    obtain ⟨tx, inPending, entry⟩ := spends coin isAhead
    exact ⟨tx, inPending, coin, entry, hits⟩

/-- A prefix of the order reaches a leader through no coin but those ahead. -/
theorem reach_through_ahead {pinned leaders lead rest after : List UtxoEntryReference}
    (tail : List UtxoEntryReference) (leads : UtxoEntryReference → Bool) (isLead : lead = leaders.filter leads)
    (isAfter : after = leaders.filter fun c => !leads c)
    (inRest : ∀ c, c ∈ rest ↔ c ∈ pinned ∧ isCovenantBound c = false ∧ c.id ∉ ids leaders)
    (some_ : leaders ≠ []) :
    ∃ count, 0 < count ∧ count ≤ (lead ++ rest ++ after ++ tail).length ∧
      (∃ coin ∈ (lead ++ rest ++ after ++ tail).take count, coin ∈ leaders) ∧
      ∀ coin ∈ (lead ++ rest ++ after ++ tail).take count,
        coin ∈ match leaders.find? leads with
          | some coin => [coin]
          | none => (pinned.filter fun c => !isCovenantBound c && decide (c.id ∉ ids leaders)) ++
              leaders.head?.toList := by
  cases found : leaders.find? leads with
  | some first =>
    have head : lead.head? = some first := by
      rw [isLead, List.head?_filter, found]
    obtain ⟨others, rfl⟩ := List.head?_eq_some_iff.mp head
    have inLeaders := List.mem_of_find?_eq_some found
    refine ⟨1, by decide, ?_, ⟨first, ?_, inLeaders⟩, ?_⟩
    · simp only [List.length_append, List.length_cons]
      omega
    · simp
    · intro coin member
      simpa using member
  | none =>
    have noneLeads : ∀ c ∈ leaders, leads c = false := by
      intro c inLeaders
      have no := List.find?_eq_none.mp found c inLeaders
      simpa using no
    have noLead : lead = [] := by
      rw [isLead, List.filter_eq_nil_iff]
      intro c inLeaders
      rw [noneLeads c inLeaders]
      exact Bool.false_ne_true
    have allAfter : after = leaders := by
      rw [isAfter, List.filter_eq_self]
      intro c inLeaders
      rw [noneLeads c inLeaders]
      rfl
    subst noLead allAfter
    obtain ⟨first, others, rfl⟩ := List.exists_cons_of_ne_nil some_
    have front : ([] ++ rest ++ (first :: others) ++ tail).take (rest.length + 1) = rest ++ [first] := by
      rw [List.nil_append, List.append_assoc, List.take_length_add_append]
      simp
    refine ⟨rest.length + 1, Nat.succ_pos _, ?_, ⟨first, ?_, List.mem_cons_self⟩, ?_⟩
    · simp only [List.length_append, List.length_cons, List.length_nil]
      omega
    · rw [front]
      simp
    · intro coin member
      rw [front, List.mem_append] at member
      rcases member with isRest | isFirst
      · obtain ⟨isPinned, free, new⟩ := (inRest coin).mp isRest
        apply List.mem_append_left
        exact List.mem_filter.mpr ⟨isPinned, by rw [free, decide_eq_true new]; rfl⟩
      · exact List.mem_append_right _ isFirst

theorem prepareSend_built {request : BuildRequest} {lane : Lane} {generator : Generator bound}
    {rides : Bool} {pending : List PendingTransaction}
    (untold : (lane.inFlight.takeLanded request.key request.now).1 = false)
    (unblocked : (request.anchoring lane).blocked = false)
    (fence : anchorFence pending (request.anchoring lane) = true)
    (shipped : shippedTwoShape generator rides (request.order (request.anchoring lane)) =
      some pending) : (request.prepareSend lane generator rides).1 = .ok pending := by
  have same : request.anchoring
      (if request.payment then
        { lane with inFlight := (lane.inFlight.takeLanded request.key request.now).2 } else lane) =
      request.anchoring lane := by
    split <;> rfl
  simp only [prepareSend, same, untold, unblocked, shipped, fence, Bool.and_false, Bool.not_true,
    Bool.false_eq_true, if_false]

/-- **Elsewhere the build lets out a chain that leaves an attempt untouched.** -/
theorem exists_miss {request : BuildRequest} {lane : Lane} (bound : UtxoEntryId → Bool)
    (short : ¬ request.LeadReachesAll lane) :
    ∃ (generator : Generator bound) (rides : Bool) (pending : List PendingTransaction),
      (request.prepareSend lane generator rides).1 = .ok pending ∧
      ∃ leg ∈ request.attempts lane, ¬ SpendsOneOf pending leg := by
  obtain ⟨open_, missed⟩ := not_or.mp short
  simp only [RefusedOutright, not_or] at open_
  obtain ⟨untold, unblocked, led⟩ := open_
  push Not at missed
  obtain ⟨leg, member, misses⟩ := missed
  have some_ := candidates_ne_nil member
  have leads : request.leaders lane ≠ [] := fun none => led ⟨some_, none⟩
  obtain ⟨rest, tail, order, inRest, inTail⟩ := anchored_split request.mature request.pinned
    RIDER_LIMIT request.exclude (request.candidates lane) (request.anchoring lane).last
  change request.order (request.anchoring lane) RIDER_LIMIT = _ at order
  obtain ⟨count, positive, within, ⟨reached, inside, isLeader⟩, only⟩ :=
    reach_through_ahead tail (leadsPinned request.pinned) rfl rfl inRest leads
  rw [← order] at within inside only
  have nonempty : request.order (request.anchoring lane) RIDER_LIMIT ≠ [] := by
    apply List.ne_nil_of_length_pos
    omega
  refine ⟨drawsFirst bound 0 count positive, true,
    [⟨0, (request.order (request.anchoring lane) RIDER_LIMIT).take count, [], true⟩], ?_, leg, member, ?_⟩
  · apply prepareSend_built
    · exact Bool.eq_false_iff.mpr untold
    · rw [Bool.eq_false_iff, Ne, blocked_iff]
      exact unblocked
    · have anchors : reached.id ∈ ids (request.anchoring lane).first :=
        mem_ids.mpr ⟨reached, (mem_place isLeader).1, rfl⟩
      rw [anchorFence, Bool.or_eq_true]
      apply Or.inr
      simp only [List.any_cons, List.any_nil, Bool.or_false, List.any_eq_true]
      exact ⟨reached, inside, decide_eq_true anchors⟩
    · rw [shippedTwoShape, drawsFirst]
      simp only [if_neg nonempty]
      split <;> rfl
  · rintro ⟨tx, isTx, coin, entry, spends⟩
    rw [List.mem_singleton.mp isTx] at entry
    exact misses coin (only coin entry) spends

end BuildRequest

end Kaspaverse.Chain
