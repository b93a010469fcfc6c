import Kaspaverse.Lane.Alternation
import Kaspaverse.Lane.Fence

namespace Kaspaverse.WalletLane

/-- How many of these messages change what the processor is. -/
def transitions : Bool → List RpcState → Nat
  | _, [] => 0
  | true, .connected :: rest => transitions true rest
  | true, .disconnected :: rest => transitions false rest + 1
  | false, .connected :: rest => transitions true rest + 1
  | false, .disconnected :: rest => transitions false rest

/-- The transitions signalled that the relay has not read the processor's event for. -/
def Processor.unacknowledged (p : Processor) : Nat :=
  transitions p.connected p.ctl + (if p.negotiating then 1 else 0) + p.answers.length

def RelayStep.awaits : RelayStep → Bool
  | .awaitingOpen | .awaitingStop => true
  | _ => false

theorem transitions_idle {connected : Bool} {messages rest : List RpcState}
    (idle : ∀ message ∈ messages, message = if connected then .connected else .disconnected) :
    transitions connected (messages ++ rest) = transitions connected rest := by
  induction messages with
  | nil => rfl
  | cons message messages ih =>
    have same := idle message List.mem_cons_self
    have later := ih fun other member => idle other (List.mem_cons_of_mem _ member)
    cases connected <;> subst same <;> exact later

theorem Processor.Quiet.acknowledged {p : Processor} (quiet : p.Quiet) : p.unacknowledged = 0 := by
  obtain ⟨still, answered, idle⟩ := quiet
  have none : transitions p.connected (p.ctl ++ []) = 0 := transitions_idle idle
  rw [List.append_nil] at none
  unfold Processor.unacknowledged
  rw [none, still, answered]
  rfl

/-- One transition is unacknowledged exactly while the relay waits for its event. -/
theorem Phase.unacknowledged {step : RelayStep} {p : Processor} (phase : Phase step p) :
    p.unacknowledged = if step.awaits then 1 else 0 := by
  cases step with
  | idle | opening | severing | draining => exact Processor.Quiet.acknowledged phase
  | reopening | counting | signalling | delivering _ => exact Processor.Quiet.acknowledged phase.1
  | awaitingOpen =>
    unfold Processor.unacknowledged
    rcases phase with ⟨still, answered, dark, idle, ctl, others⟩ | ⟨busy, answered, ctl⟩ | ⟨still, ctl, started | failed⟩
    · have last : transitions false (idle ++ [.connected]) = transitions false [.connected] :=
        transitions_idle others
      rw [still, answered, dark, ctl, last]
      rfl
    · rw [busy, answered, ctl]
      cases p.connected <;> rfl
    · rw [still, started, ctl]
      cases p.connected <;> rfl
    · rw [still, failed, ctl]
      cases p.connected <;> rfl
  | awaitingStop =>
    unfold Processor.unacknowledged
    rcases phase with ⟨still, answered, lit, idle, ctl, others⟩ | ⟨still, ctl, dark, stopped⟩
    · have last : transitions true (idle ++ [.disconnected]) = transitions true [.disconnected] :=
        transitions_idle others
      rw [still, answered, lit, ctl, last]
      rfl
    · rw [still, stopped, ctl, dark]
      rfl

namespace Boundary

variable {b next : Boundary}

/-- Everything an event leaves is at an epoch no older. -/
theorem apply_epoch {event : BoundaryEvent} (did : b.apply event = some next) : b.gate.epoch ≤ next.gate.epoch := by
  cases event with
  | relay =>
    simp only [Boundary.apply, Boundary.relayed] at did
    cases step : b.step <;> simp only [step] at did
    case idle =>
      split at did <;> cases did <;> exact Nat.le_refl _
    case severing =>
      cases did
      exact Nat.le_succ _
    all_goals cases did
    all_goals exact Nat.le_refl _
  | letIn i now =>
    simp only [Boundary.apply] at did
    split at did
    · cases did
    · split at did
      · split at did
        · cases did
          exact Nat.le_refl _
        case h_2 judged =>
          cases did
          exact Nat.le_of_eq (admit_epoch judged).2.2.symm
      · cases did
  | announce | retire | finishFrame | die =>
    cases did
    exact Nat.le_refl _
  | _ =>
    simp only [Boundary.apply] at did
    repeat' split at did
    all_goals first | cases did; exact Nat.le_refl _ | cases did

/-- A processor that has ended handles nothing. -/
def Idle (b : Boundary) : Prop := b.processor.ended = true → b.processor.handling = none

theorem Idle.apply (idle : b.Idle) {event : BoundaryEvent} (did : b.apply event = some next) : next.Idle := by
  cases event with
  | relay =>
    simp only [Boundary.apply, Boundary.relayed] at did
    repeat' split at did
    all_goals first | cases did; exact idle | cases did
  | takeFrame =>
    simp only [Boundary.apply] at did
    split at did
    case isTrue polls =>
      simp only [Boundary.polls, Bool.and_eq_true, Bool.not_eq_true'] at polls
      split at did
      · cases did
      · cases did
        intro ended
        rw [show b.processor.ended = true from ended] at polls
        cases polls.1.1
    case isFalse => cases did
  | stop =>
    simp only [Boundary.apply] at did
    split at did
    case isTrue met =>
      cases did
      simp only [Boundary.polls, Bool.and_eq_true, Option.isNone_iff_eq_none] at met
      exact fun _ => met.2.2
    case isFalse => cases did
  | finishFrame | die =>
    cases did
    exact fun _ => rfl
  | announce | retire =>
    cases did
    exact idle
  | _ =>
    simp only [Boundary.apply] at did
    repeat' split at did
    all_goals first | cases did; exact idle | cases did

end Boundary

namespace Lane

variable {mayDrop : Bool} {lane next : Lane}

theorem bounded_boundary {event : BoundaryEvent} (did : lane.bounded mayDrop event = some next) :
    lane.boundary.apply event = some next.boundary := by
  unfold bounded at did
  obtain ⟨boundary, applied, beside⟩ := Option.bind_eq_some_iff.mp did
  rw [applied]
  have same : next.boundary = boundary := by
    cases event with
    | relay =>
      simp only at beside
      split at beside
      · cases beside
        unfold Lane.relayed
        split <;> rfl
      · cases beside
    | receive =>
      simp only at beside
      split at beside
      · cases beside
        unfold Lane.received
        split <;> rfl
      · cases beside
    | deliver | answerError _ | stop =>
      simp only at beside
      split at beside <;> cases beside
      rfl
    | _ =>
      cases beside
      rfl
  rw [same]

/-- The boundary moves only by its own events. -/
theorem step_boundary {event : LaneEvent} (did : step mayDrop lane event = some next) :
    next.boundary = lane.boundary ∨ ∃ moved, lane.boundary.apply moved = some next.boundary := by
  cases event with
  | boundary moved => exact .inr ⟨moved, bounded_boundary did⟩
  | _ =>
    left
    simp only [step, granted, advanced, expired] at did
    repeat' split at did
    all_goals first | cases did; rfl | cases did

theorem run_boundary {p : Boundary → Prop}
    (keeps : ∀ b next event, p b → b.apply event = some next → p next) {first last : Lane} {events : List LaneEvent}
    (holds : p first.boundary) (ran : Machine.run (step mayDrop) first events = some last) : p last.boundary := by
  have each : ∀ lane event next, p lane.boundary → step mayDrop lane event = some next → p next.boundary := by
    intro lane event next before did
    rcases step_boundary did with same | ⟨moved, applied⟩
    · rw [same]
      exact before
    · exact keeps _ _ moved before applied
  exact Machine.run_invariant each holds ran

/-- No `UtxosChanged` is handled while the processor reads disconnected, whatever the sockets, the
    forwarders, the submits and the monitor do: an epoch once ended admits nothing any more, and the
    processor is signalled one transition at a time. -/
theorem no_frame_handled_disconnected (mayDrop : Bool) (events : List LaneEvent) (lane : Lane)
    (ran : Machine.run (step mayDrop) start events = some lane) :
    (∀ added, lane.boundary.processor.handling = some (.utxosChanged added) →
      lane.boundary.processor.connected = true) ∧
    (∀ after later, Machine.run (step mayDrop) lane after = some later →
      ∀ epoch < lane.boundary.gate.epoch, ∀ released now notification,
        later.boundary.gate.admitNotification released now epoch notification = none) ∧
    (lane.boundary.processor.ended = false →
      lane.boundary.processor.unacknowledged = if lane.boundary.step.awaits then 1 else 0) := by
  have inv : lane.boundary.Inv :=
    run_boundary (fun _ _ _ before applied => before.apply applied) Boundary.inv_start ran
  have idle : lane.boundary.Idle :=
    run_boundary (fun _ _ _ before applied => before.apply applied) (by intro ended; cases ended) ran
  refine ⟨?_, ?_, ?_⟩
  · intro added handled
    cases ended : lane.boundary.processor.ended with
    | true =>
      rw [idle ended] at handled
      cases handled
    | false =>
      by_contra dark
      exact (inv.alternates ended).dark (Bool.eq_false_iff.mpr dark) added (.inr (.inr handled))
  · intro after later reached epoch old released now notification
    have newer : lane.boundary.gate.epoch ≤ later.boundary.gate.epoch :=
      run_boundary (fun _ _ _ before applied => Nat.le_trans before (Boundary.apply_epoch applied)) (Nat.le_refl _)
        reached
    have apart : later.boundary.gate.epoch ≠ epoch := by omega
    unfold Gate.admitNotification
    simp [apart]
  · intro lives
    exact (inv.alternates lives).phase.unacknowledged

/-- The monitor opens a socket, a frame is admitted, and the socket's close ends the epoch before the
    frame reaches the processor. -/
def closedUnder : List LaneEvent :=
  [.announce .connected, .relay, .relay, .relay, .relay, .takeCtl true, .stamp, .register, .answerStart, .receive,
    .offer 0 (.utxosChanged 7), .letIn 0 5, .announce .disconnected, .relay, .relay, .pass 0, .takeFrame].map .boundary

theorem no_frame_handled_disconnected_closedUnder : ∃ lane,
    Machine.run (step false) start closedUnder = some lane ∧ lane.boundary.step = .draining ∧
      lane.boundary.processor.handling = some (.utxosChanged 7) ∧ lane.boundary.processor.connected = true ∧
      lane.boundary.gate.admitNotification ∅ 6 1 (.utxosChanged 8) = none := by
  have ends : (Machine.run (step false) start closedUnder).map (fun lane =>
      (lane.boundary.step, lane.boundary.processor.handling, lane.boundary.gate.epoch)) =
      some (.draining, some (.utxosChanged 7), 2) := by
    decide +kernel
  obtain ⟨lane, ran, reads⟩ := Option.map_eq_some_iff.mp ends
  obtain ⟨draining, rest⟩ := Prod.mk.inj reads
  obtain ⟨handled, epoch⟩ := Prod.mk.inj rest
  obtain ⟨connected, stays, _⟩ := no_frame_handled_disconnected false closedUnder lane ran
  refine ⟨lane, ran, draining, handled, connected 7 handled, ?_⟩
  exact stays [] lane rfl 1 (by rw [epoch]; decide) ∅ 6 (.utxosChanged 8)

end Lane

end Kaspaverse.WalletLane
