import Mathlib
import Kaspaverse.Chain.LaneInvariant
import Kaspaverse.Chain.PaymentBuild

namespace Kaspaverse.Chain

open SendsStore InFlightSends

/-- A payment that was built, and the attempts of it that stood unsettled at its build. -/
structure BuiltPayment where
  pending : List PendingTransaction
  attempts : List UnknownLeg

/-- The chain cannot land beside any of the attempts: it spends a coin of each. -/
def BuiltPayment.Conflicts (payment : BuiltPayment) : Prop :=
  ∀ leg ∈ payment.attempts, SpendsOneOf payment.pending leg

instance (pending : List PendingTransaction) (leg : UnknownLeg) : Decidable (SpendsOneOf pending leg) :=
  inferInstanceAs (Decidable (∃ tx ∈ pending, ∃ coin ∈ tx.utxoEntries, _))

instance (payment : BuiltPayment) : Decidable payment.Conflicts :=
  inferInstanceAs (Decidable (∀ leg ∈ payment.attempts, _))

/-- In no ledger is the chain accepted beside an attempt, unless the attempt is one of its own
    transactions built again. -/
def BuiltPayment.LandsOnce (payment : BuiltPayment) : Prop :=
  ∀ (w : Ledger.World TransactionId UtxoEntryId) (accepted : Set TransactionId),
    Ledger.Extends w ∅ accepted →
    (∀ tx ∈ payment.pending, ∀ coin ∈ tx.utxoEntries, coin.id ∈ w.inputs tx.id) →
    (∀ tx ∈ payment.pending, tx.id ∈ accepted) →
    ∀ leg ∈ payment.attempts, (∀ coin ∈ leg.inputs, coin.id ∈ w.inputs leg.txid) →
      leg.txid ∈ accepted → leg.txid ∈ payment.pending.map (·.id)

theorem BuiltPayment.Conflicts.landsOnce {payment : BuiltPayment} (conflicts : payment.Conflicts) :
    payment.LandsOnce := by
  intro w accepted ledger inputs landed leg member own attemptLanded
  obtain ⟨tx, inPending, coin, entry, spends⟩ := conflicts leg member
  obtain ⟨copy, isInput, same⟩ := List.any_eq_true.mp spends
  have spendsToo := own copy isInput
  rw [eq_of_beq same] at spendsToo
  have equal := ledger.no_double_spend (landed tx inPending) attemptLanded
    (inputs tx inPending coin entry) spendsToo
  exact List.mem_map.mpr ⟨tx, inPending, equal⟩

/-- The lane, and every payment built over it so far. -/
structure Payments where
  lane : Lane
  built : List BuiltPayment

inductive PaymentEvent (bound : UtxoEntryId → Bool)
  | lane (event : LaneEvent)
  | build (request : BuildRequest) (generator : Generator bound) (rides : Bool)

namespace Payments

variable {bound : UtxoEntryId → Bool}

/-- A built chain is committed by later events, or never. -/
def step (s : Payments) : PaymentEvent bound → Option Payments
  | .lane event => (s.lane.step event).map fun lane => { s with lane := lane }
  | .build request generator rides =>
    if request.Agrees bound s.lane then
      let (result, after) := request.prepareSend s.lane generator rides
      match result with
      | .error _ => some { s with lane := after }
      | .ok pending => some
        { lane := { after with commits := after.commits ++ [.start ⟨pending, request.key⟩] }
          built :=
            if request.payment then s.built ++ [⟨pending, request.attempts s.lane⟩] else s.built }
    else none

/-- A payment is built only where the coins it cannot do without reach every attempt. -/
def LeadsReach (s : Payments) : PaymentEvent bound → Prop
  | .lane _ => True
  | .build request _ _ => request.payment = true → request.LeadReachesAll s.lane

/-- What a build adds to the payments is the chain it lets out, beside the attempts it saw. -/
theorem step_built {s next : Payments} {event : PaymentEvent bound}
    (happens : s.step event = some next) :
    next.built = s.built ∨ ∃ request generator rides pending,
      event = .build request generator rides ∧ request.payment = true ∧
      request.Agrees bound s.lane ∧ (request.prepareSend s.lane generator rides).1 = .ok pending ∧
      next.built = s.built ++ [⟨pending, request.attempts s.lane⟩] := by
  cases event with
  | lane event =>
    obtain ⟨lane, _, rfl⟩ := Option.map_eq_some_iff.mp happens
    exact Or.inl rfl
  | build request generator rides =>
    simp only [step] at happens
    split at happens
    · rename_i agrees
      split at happens
      · cases happens
        exact Or.inl rfl
      · rename_i pending built
        cases happens
        cases payment : request.payment with
        | false => exact Or.inl rfl
        | true => exact Or.inr ⟨request, generator, rides, pending, rfl, payment, agrees, built, rfl⟩
    · cases happens

theorem build_step {s : Payments} {request : BuildRequest} {generator : Generator bound} {rides : Bool}
    {pending : List PendingTransaction} (isPayment : request.payment = true)
    (agrees : request.Agrees bound s.lane)
    (built : (request.prepareSend s.lane generator rides).1 = .ok pending) :
    ∃ next, s.step (.build request generator rides) = some next ∧
      next.built = s.built ++ [⟨pending, request.attempts s.lane⟩] := by
  simp only [step, if_pos agrees, built, isPayment, if_true]
  exact ⟨_, rfl, rfl⟩

theorem conflicts_step (s : Payments) (event : PaymentEvent bound) (next : Payments)
    (inv : ∀ payment ∈ s.built, payment.Conflicts) (leads : LeadsReach s event)
    (happens : s.step event = some next) : ∀ payment ∈ next.built, payment.Conflicts := by
  intro payment member
  rcases step_built happens with same |
    ⟨request, generator, rides, pending, rfl, isPayment, agrees, built, grown⟩
  · rw [same] at member
    exact inv payment member
  · rw [grown, List.mem_append, List.mem_singleton] at member
    rcases member with old | rfl
    · exact inv payment old
    · exact BuildRequest.spends_of_leadReachesAll agrees isPayment (leads isPayment) built

/-- **A payment built where its leading coins reach every unsettled attempt spends a coin of each,
    so at most one of them lands; built anywhere else it can leave an attempt untouched.** -/
theorem retry_spends_every_attempt (bound : UtxoEntryId → Bool) :
    (∀ (start : Lane) (events : List (PaymentEvent bound)) (final : Payments),
      Machine.run step ⟨start, []⟩ events = some final →
      Machine.Meets step LeadsReach ⟨start, []⟩ events →
      ∀ payment ∈ final.built, payment.Conflicts ∧ payment.LandsOnce) ∧
    ∀ (s : Payments) (request : BuildRequest), request.payment = true →
      request.Agrees bound s.lane → ¬ request.LeadReachesAll s.lane →
      ∃ (generator : Generator bound) (rides : Bool) (next : Payments),
        s.step (.build request generator rides) = some next ∧
        ∃ payment ∈ next.built, ¬ payment.Conflicts := by
  constructor
  · intro start events final reached leads payment member
    have all : ∀ payment ∈ final.built, payment.Conflicts :=
      Machine.run_invariant_meeting conflicts_step (fun _ none => by cases none) leads reached
    exact ⟨all payment member, (all payment member).landsOnce⟩
  · intro s request isPayment agrees short
    obtain ⟨generator, rides, pending, built, leg, member, missed⟩ := BuildRequest.exists_miss bound short
    obtain ⟨next, happens, grown⟩ := build_step isPayment agrees built
    refine ⟨generator, rides, next, happens, ⟨pending, request.attempts s.lane⟩, ?_, ?_⟩
    · rw [grown]
      exact List.mem_append_right _ List.mem_cons_self
    · intro all
      exact missed (all leg member)

def payment (destination : String) (mature : List UtxoEntryReference) : BuildRequest :=
  ⟨destination, none, mature, [], [], 1⟩

/-- The payment, drawn as one transaction over its first `count` coins. -/
def pays (destination : String) (mature : List UtxoEntryReference) (txid : TransactionId)
    (count : Nat) (positive : 0 < count) : PaymentEvent fun _ => false :=
  .build (payment destination mature) (drawsFirst _ txid count positive) false

def larger : UtxoEntryReference := ⟨⟨100, 0⟩, 10, none, 0, [], 5, false, none⟩

def smaller : UtxoEntryReference := ⟨⟨100, 1⟩, 5, none, 0, [], 5, false, none⟩

def upToRegistration (c : Nat) : List LaneEvent :=
  [.commit c (.begin 1 7 1), .commit c .recorded, .commit c .admitted, .commit c (.registered 0)]

/-- A commit whose request no node answers. -/
def unanswered (c : Nat) : List LaneEvent :=
  upToRegistration c ++ [.commit c .requested, .commit c (.failed (.general "timed out") false),
    .commit c .noteFailed, .commit c (.fateUnknown 2), .commit c (.returned 2)]

/-- A payment of both coins goes unanswered. -/
def firstAttempt : List (PaymentEvent fun _ => false) :=
  pays "kaspa:qq" [larger, smaller] 1 2 Nat.zero_lt_two :: (unanswered 0).map .lane

/-- While another payment holds the larger coin, a retry takes the smaller one and goes unanswered;
    the other payment is then refused before its request, and the larger coin is free again. -/
def secondAttempt : List (PaymentEvent fun _ => false) :=
  pays "kaspa:pp" [larger, smaller] 2 1 Nat.one_pos :: (upToRegistration 1).map .lane ++
    pays "kaspa:qq" [smaller] 3 1 Nat.one_pos :: (unanswered 2).map .lane ++
    [.lane (.commit 1 (.failed (.general NO_BOUND_SOCKET) false)), .lane (.commit 1 .noteFailed),
      .lane (.commit 1 (.returned 3))]

def firstPayments : Payments := ⟨Lane.opened (load hexForms 0 .default []), []⟩

instance (request : BuildRequest) (lane : Lane) : Decidable (request.LeadReachesAll lane) := by
  unfold BuildRequest.LeadReachesAll BuildRequest.RefusedOutright
  infer_instance

theorem retry_spends_every_attempt_once :
    ∃ final, Machine.run step firstPayments
        (firstAttempt ++ [pays "kaspa:qq" [larger, smaller] 3 1 (by decide)]) = some final ∧
      final.built.map (·.attempts.map (·.txid)) = [[], [1]] ∧
      ∀ payment ∈ final.built, payment.Conflicts ∧ payment.LandsOnce := by
  let retry := pays "kaspa:qq" [larger, smaller] 3 1 (by decide)
  have ends : (Machine.run step firstPayments (firstAttempt ++ [retry])).map
      (fun s => s.built.map (·.attempts.map (·.txid))) = some [[], [1]] := by
    decide +kernel
  have reaches : (Machine.run step firstPayments firstAttempt).all
      (fun s => decide ((payment "kaspa:qq" [larger, smaller]).LeadReachesAll s.lane)) = true := by
    decide +kernel
  obtain ⟨final, reached, attempts⟩ := Option.map_eq_some_iff.mp ends
  have leads : Machine.Meets step LeadsReach firstPayments (firstAttempt ++ [retry]) := by
    apply Machine.meets_append
    · refine ⟨fun _ => ?_, fun next _ => Machine.meets_of_forall ?_ next⟩
      · decide +kernel
      · intro event member s
        obtain ⟨_, _, rfl⟩ := List.mem_map.mp member
        exact True.intro
    · intro s before
      rw [before] at reaches
      exact ⟨fun _ => of_decide_eq_true reaches, fun _ _ => True.intro⟩
  rw [firstPayments] at reached leads
  exact ⟨final, reached, attempts, (retry_spends_every_attempt _).1 _ _ final reached leads⟩

/-- **The retry that leads with the larger coin leaves the attempt over the smaller one alone.** -/
theorem retry_misses_an_attempt : ¬ ∀ (bound : UtxoEntryId → Bool) (start : Lane)
    (events : List (PaymentEvent bound)) (final : Payments),
    Machine.run step ⟨start, []⟩ events = some final →
    ∀ payment ∈ final.built, payment.Conflicts := by
  have ends : (Machine.run step firstPayments (firstAttempt ++ secondAttempt ++
      [pays "kaspa:qq" [larger, smaller] 4 1 (by decide)])).map (fun s =>
        (s.built.map (·.pending.flatMap (·.utxoEntries)), s.built.map (·.attempts.map (·.txid)),
          decide (∀ payment ∈ s.built, payment.Conflicts))) =
      some ([[larger, smaller], [larger], [smaller], [larger]], [[], [], [1], [1, 3]], false) := by
    decide +kernel
  intro all
  obtain ⟨final, reached, holds⟩ := Option.map_eq_some_iff.mp ends
  simp only [Prod.mk.injEq, decide_eq_false_iff_not] at holds
  rw [firstPayments] at reached
  exact holds.2.2 (all _ _ _ final reached)

end Payments

end Kaspaverse.Chain
