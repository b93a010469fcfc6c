import Kaspaverse.Chain.LaneInvariant

namespace Kaspaverse.Chain

open SendsStore InFlightSends

/-- What a relaunch from `before` finds again, as `after`, and that it finds nothing else. -/
structure Restores (before after : InFlightSends) : Prop where
  unknown : ∀ leg ∈ before.unknown, ∃ again ∈ after.unknown,
    again.txid = leg.txid ∧ again.coins = leg.coins
  submitting : ∀ txid leg, before.legMeta.lookup txid = some leg → txid ∈ before.log.submits →
    txid ∉ before.taken → before.isUnknown txid = false →
    ∃ again ∈ after.unknown, again.txid = txid ∧ again.coins = leg.coins
  taken : ∀ txid ∈ before.taken, before.isUnknown txid = false →
    ∃ leg, before.legMeta.lookup txid = some leg ∧ after.carried.lookup txid = some leg
  carried : ∀ txid leg, before.carried.lookup txid = some leg → before.isUnknown txid = false →
    txid ∉ before.taken → (txid ∈ before.legMeta → txid ∉ before.log.submits) →
    after.carried.lookup txid = some leg
  noOtherUnknown : ∀ again ∈ after.unknown, before.isUnknown again.txid = true ∨
    again.txid ∈ before.legMeta ∧ again.txid ∈ before.log.submits
  noOtherCarried : ∀ txid ∈ after.carried, txid ∈ before.taken ∨ txid ∈ before.carried

theorem restores_snapshot (forms : TextForms) (carriedForDaa : Nat) (spent : List SpentRecord)
    {s : InFlightSends} (takenRemembered : ∀ txid ∈ s.taken, txid ∈ s.legMeta) :
    Restores s (load forms carriedForDaa (s.snapshot forms).1 spent) := by
  have unknownIff := load_snapshot_unknown forms carriedForDaa spent s
  have carriedIff := load_snapshot_carried forms carriedForDaa spent s
  refine ⟨?_, ?_, ?_, ?_, ?_, ?_⟩
  · intro leg member
    exact (unknownIff leg.txid leg.coins).mpr (Or.inl ⟨leg, member, rfl, rfl⟩)
  · intro txid leg remembered submitting untaken notUnknown
    exact (unknownIff txid leg.coins).mpr
      (Or.inr ⟨notUnknown, untaken, submitting, leg, remembered, rfl⟩)
  · intro txid taken notUnknown
    obtain ⟨leg, remembered⟩ := KeyMap.mem_iff_lookup.mp (takenRemembered txid taken)
    exact ⟨leg, remembered, (carriedIff txid leg).mpr (Or.inl ⟨notUnknown, taken, remembered⟩)⟩
  · intro txid leg found notUnknown untaken idle
    refine (carriedIff txid leg).mpr (Or.inr ⟨found, ?_⟩)
    intro remembered
    simp [keepsMeta, notUnknown, untaken, idle remembered]
  · intro again member
    rcases (unknownIff again.txid again.coins).mp ⟨again, member, rfl, rfl⟩ with
      ⟨leg, known, same, _⟩ | ⟨_, _, submitting, leg, remembered, _⟩
    · exact Or.inl (isUnknown_iff.mpr ⟨leg, known, same⟩)
    · exact Or.inr ⟨KeyMap.mem_of_lookup remembered, submitting⟩
  · intro txid member
    obtain ⟨leg, found⟩ := KeyMap.mem_iff_lookup.mp member
    rcases (carriedIff txid leg).mp found with ⟨_, taken, _⟩ | ⟨carried, _⟩
    · exact Or.inl taken
    · exact Or.inr (KeyMap.mem_of_lookup carried)

/-- **No leg that may be on the network is forgotten by a relaunch.** -/
theorem relaunch_forgets_no_leg (json : Json) (network : String) (forms : TextForms)
    (carriedForDaa : Nat) (found : Sends) (spentFound spent : List SpentRecord)
    (events : List LaneEvent) (lane : Lane)
    (reached : Machine.run Lane.step (Lane.opened (load forms carriedForDaa found spentFound)) events =
      some lane)
    (alone : Machine.Meets Lane.step Lane.ForgetsAlone
      (Lane.opened (load forms carriedForDaa found spentFound)) events)
    (bytes : List UInt8)
    (written : encodeSends json network (lane.inFlight.snapshot forms).1 = some bytes)
    (refusals : Refusals) (readable : refusals.read = false) :
    Restores lane.inFlight
      (load forms carriedForDaa (loadSends json network refusals (.file bytes)).1.records spent) := by
  have inv : lane.Inv := Machine.run_invariant_meeting Lane.inv_step
    (Lane.inv_opened forms carriedForDaa found spentFound) alone reached
  rw [loadSends_encodeSends json written readable]
  exact restores_snapshot forms carriedForDaa spent inv.takenRemembered

/-- A payment of the coin `coin` of an earlier transaction. -/
def onePayment (txid coin : TransactionId) : PreparedSend where
  pending := [⟨txid, [⟨⟨coin, 0⟩, 10, none, 0, [], 5, false, none⟩], [], true⟩]
  anchorKey := "kaspa:qq"

/-- A commit up to its request's answer. -/
def upToAnswer (c : Nat) : List LaneEvent :=
  [.commit c (.begin 1 7 1), .commit c .recorded, .commit c .admitted, .commit c (.registered 0),
    .commit c .requested, .commit c .answered]

/-- One payment dropped in its submit, another whose node's answer is on record. -/
def twoPayments : List LaneEvent :=
  [.prepared (onePayment 1 101), .prepared (onePayment 2 102), .commit 0 (.begin 1 7 1),
    .commit 0 .recorded, .commit 0 .admitted, .commit 0 (.registered 0), .commit 0 .requested,
    .commit 0 (.dropped 2)] ++ upToAnswer 1 ++
    [.commit 1 .noteTaken, .commit 1 (.ownSendSeen 2), .commit 1 (.returned 2)]

/-- The lane these events lead a first run of the app to. -/
def firstRun (events : List LaneEvent) : Option Lane :=
  Machine.run Lane.step (Lane.opened (load hexForms 0 .default [])) events

/-- What a relaunch finds of the records of `lane`, read from the text of its file. -/
def relaunched (lane : Lane) : InFlightSends :=
  let out : SendsOut := ⟨FORMAT, "mainnet", (lane.inFlight.snapshot hexForms).1⟩
  load hexForms 0 (loadSends (Json.of out) "mainnet" ⟨false, false⟩
    (.file (asciiBytes out.text))).1.records []

theorem relaunch_forgets_no_leg_twoPayments :
    ∃ lane, firstRun twoPayments = some lane ∧ lane.inFlight.unknown.map (·.txid) = [1] ∧
      lane.inFlight.taken.keys = [2] ∧ Restores lane.inFlight (relaunched lane) := by
  have ends : (firstRun twoPayments).map (fun lane => (lane.inFlight.unknown.map (·.txid),
      lane.inFlight.taken.keys)) = some ([1], [2]) := by
    decide +kernel
  obtain ⟨lane, reached, holds⟩ := Option.map_eq_some_iff.mp ends
  obtain ⟨unknown, taken⟩ := Prod.mk.inj holds
  have kept : ∀ event ∈ twoPayments, Lane.forgets event = false := by
    decide
  have alone : Machine.Meets Lane.step Lane.ForgetsAlone (Lane.opened (load hexForms 0 .default []))
      twoPayments :=
    Machine.meets_of_forall (fun event member => Lane.forgetsAlone_of_not_forgets (kept event member)) _
  have written := encodeSends_of "mainnet" (lane.inFlight.snapshot hexForms).1
  have run : Machine.run Lane.step (Lane.opened (load hexForms 0 .default [])) twoPayments =
      some lane := by
    rw [firstRun] at reached
    exact reached
  have restores := relaunch_forgets_no_leg _ "mainnet" hexForms 0 .default [] [] twoPayments lane run
    alone _ written ⟨false, false⟩ rfl
  refine ⟨lane, reached, unknown, taken, ?_⟩
  rw [relaunched]
  exact restores

/-- A leg a node took, still in its submit, comes back as carried and not as of unknown fate. -/
theorem relaunch_carries_leg_in_submit :
    ∃ lane, firstRun ([.prepared (onePayment 1 101)] ++ upToAnswer 0 ++ [.commit 0 .noteTaken]) =
        some lane ∧ 1 ∈ lane.inFlight.legMeta ∧ 1 ∈ lane.inFlight.log.submits ∧
      (relaunched lane).isUnknown 1 = false := by
  have ends : (firstRun ([.prepared (onePayment 1 101)] ++ upToAnswer 0 ++
      [.commit 0 .noteTaken])).map (fun lane => (decide (1 ∈ lane.inFlight.legMeta),
        decide (1 ∈ lane.inFlight.log.submits), decide (1 ∈ lane.inFlight.taken),
        lane.inFlight.unknown)) = some (true, true, true, []) := by
    decide +kernel
  obtain ⟨lane, reached, holds⟩ := Option.map_eq_some_iff.mp ends
  simp only [Prod.mk.injEq, decide_eq_true_eq] at holds
  obtain ⟨remembered, submitting, taken, noneUnknown⟩ := holds
  refine ⟨lane, reached, remembered, submitting, ?_⟩
  have written := encodeSends_of "mainnet" (lane.inFlight.snapshot hexForms).1
  rw [relaunched, loadSends_encodeSends _ written rfl, ← Bool.not_eq_true]
  intro again
  obtain ⟨leg, member, named⟩ := isUnknown_iff.mp again
  rcases (load_snapshot_unknown hexForms 0 [] lane.inFlight 1 leg.coins).mp
    ⟨leg, member, named, rfl⟩ with ⟨known, inside, _⟩ | ⟨_, untaken, _⟩
  · rw [noneUnknown] at inside
    cases inside
  · exact untaken taken

end Kaspaverse.Chain
