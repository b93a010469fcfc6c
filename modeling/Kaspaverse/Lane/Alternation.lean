import Kaspaverse.Lane.Boundary

namespace Kaspaverse.WalletLane

section Phases

variable {p : Processor} {step : RelayStep}

/-- The processor owes no answer, and what its ctl still holds changes nothing. -/
def Processor.Quiet (p : Processor) : Prop :=
  p.negotiating = false ∧ p.answers = [] ∧
    ∀ message ∈ p.ctl, message = if p.connected then .connected else .disconnected

/-- One open is on its way to the processor, being negotiated, or answered. -/
def Processor.Opens (p : Processor) : Prop :=
  (p.negotiating = false ∧ p.answers = [] ∧ p.connected = false ∧
      ∃ idle, p.ctl = idle ++ [.connected] ∧ ∀ message ∈ idle, message = RpcState.disconnected) ∨
    (p.negotiating = true ∧ p.answers = [] ∧ p.ctl = []) ∨
    (p.negotiating = false ∧ p.ctl = [] ∧ (p.answers = [.utxoProcStart] ∨ p.answers = [.utxoProcError]))

/-- One close is on its way to the processor, or answered. -/
def Processor.Closes (p : Processor) : Prop :=
  (p.negotiating = false ∧ p.answers = [] ∧ p.connected = true ∧
      ∃ idle, p.ctl = idle ++ [.disconnected] ∧ ∀ message ∈ idle, message = RpcState.connected) ∨
    (p.negotiating = false ∧ p.ctl = [] ∧ p.connected = false ∧ p.answers = [.utxoProcStop])

/-- The transition the relay has signalled, and the processor has not acknowledged. -/
def Phase : RelayStep → Processor → Prop
  | .idle, p | .opening, p | .severing, p | .draining, p => p.Quiet
  | .reopening, p => p.Quiet ∧ p.connected = true
  | .counting, p | .signalling, p => p.Quiet ∧ p.connected = false
  | .awaitingOpen, p => p.Opens
  | .delivering connected, p => p.Quiet ∧ p.connected = connected
  | .awaitingStop, p => p.Closes

/-- The epoch is ended, and no open has followed. -/
def RelayStep.severed : RelayStep → Bool
  | .draining | .delivering _ | .awaitingStop => true
  | _ => false

/-- The close is past its drain. -/
def RelayStep.closes : RelayStep → Bool
  | .delivering _ | .awaitingStop => true
  | _ => false

theorem RelayStep.severed_of_closes (closes : step.closes = true) : step.severed = true := by
  cases step <;> first | rfl | cases closes

theorem Phase.negotiating (phase : Phase step p) (negotiating : p.negotiating = true) :
    step = .awaitingOpen ∧ p.answers = [] ∧ p.ctl = [] := by
  have busy (quiet : p.negotiating = false) : False := by
    rw [quiet] at negotiating
    cases negotiating
  cases step with
  | awaitingOpen =>
    rcases phase with ⟨idle, _⟩ | ⟨_, answers, ctl⟩ | ⟨idle, _⟩
    · exact (busy idle).elim
    · exact ⟨rfl, answers, ctl⟩
    · exact (busy idle).elim
  | awaitingStop =>
    rcases phase with ⟨idle, _⟩ | ⟨idle, _⟩
    · exact (busy idle).elim
    · exact (busy idle).elim
  | idle | opening | severing | draining => exact (busy phase.1).elim
  | reopening | counting | signalling | delivering _ => exact (busy phase.1.1).elim

/-- An event the processor has announced is the answer the relay waits for. -/
theorem Phase.received (phase : Phase step p) {answer : Answer} {rest : List Answer} (answers : p.answers = answer :: rest) :
    Boundary.acknowledged step answer = .idle ∧ Processor.Quiet { p with answers := rest } := by
  have unanswered (none : p.answers = []) : False := by
    rw [none] at answers
    cases answers
  cases step with
  | awaitingOpen =>
    rcases phase with ⟨_, none, _⟩ | ⟨_, none, _⟩ | ⟨idle, ctl, started | failed⟩
    · exact (unanswered none).elim
    · exact (unanswered none).elim
    · rw [answers] at started
      cases started
      exact ⟨rfl, idle, rfl, by simp [ctl]⟩
    · rw [answers] at failed
      cases failed
      exact ⟨rfl, idle, rfl, by simp [ctl]⟩
  | awaitingStop =>
    rcases phase with ⟨_, none, _⟩ | ⟨idle, ctl, _, stopped⟩
    · exact (unanswered none).elim
    · rw [answers] at stopped
      cases stopped
      exact ⟨rfl, idle, rfl, by simp [ctl]⟩
  | idle | opening | severing | draining => exact (unanswered phase.2.1).elim
  | reopening | counting | signalling | delivering _ => exact (unanswered phase.1.2.1).elim

/-- A list of one message behind others of the other kind starts with it only when it is alone. -/
theorem last_of_cons {idle rest : List RpcState} {last other message : RpcState}
    (split : idle ++ [last] = message :: rest) (others : ∀ m ∈ idle, m = other) :
    (message = last ∧ idle = [] ∧ rest = []) ∨
      ∃ fewer, message = other ∧ rest = fewer ++ [last] ∧ ∀ m ∈ fewer, m = other := by
  cases idle with
  | nil =>
    cases split
    exact .inl ⟨rfl, rfl, rfl⟩
  | cons first fewer =>
    have first_eq := others first List.mem_cons_self
    cases split
    exact .inr ⟨fewer, first_eq, rfl, fun m member => others m (List.mem_cons_of_mem _ member)⟩

/-- A message that asks for what the processor already is goes without a trace. -/
theorem Phase.ignored (phase : Phase step p) {rest : List RpcState} {message : RpcState}
    (taken : p.ctl = message :: rest) (same : message = if p.connected then .connected else .disconnected) :
    Phase step { p with ctl := rest } := by
  have quiet (before : p.Quiet) : Processor.Quiet { p with ctl := rest } := by
    refine ⟨before.1, before.2.1, ?_⟩
    intro other member
    apply before.2.2 other
    rw [taken]
    exact List.mem_cons_of_mem _ member
  have taken_ne (none : p.ctl = []) : False := by
    rw [none] at taken
    cases taken
  cases step with
  | idle | opening | severing | draining => exact quiet phase
  | reopening | counting | signalling | delivering _ => exact ⟨quiet phase.1, phase.2⟩
  | awaitingOpen =>
    rcases phase with ⟨still, unanswered, dark, idle, ctl, others⟩ | ⟨_, _, none⟩ | ⟨_, none, _⟩
    · rw [ctl] at taken
      rw [dark] at same
      rcases last_of_cons taken others with ⟨isLast, _⟩ | ⟨fewer, _, rest_eq, still_others⟩
      · rw [isLast] at same
        cases same
      · exact .inl ⟨still, unanswered, dark, fewer, rest_eq, still_others⟩
    · exact (taken_ne none).elim
    · exact (taken_ne none).elim
  | awaitingStop =>
    rcases phase with ⟨still, unanswered, lit, idle, ctl, others⟩ | ⟨_, none, _⟩
    · rw [ctl] at taken
      rw [lit] at same
      rcases last_of_cons taken others with ⟨isLast, _⟩ | ⟨fewer, _, rest_eq, still_others⟩
      · rw [isLast] at same
        cases same
      · exact .inl ⟨still, unanswered, lit, fewer, rest_eq, still_others⟩
    · exact (taken_ne none).elim

/-- A message the processor acts on is the one transition signalled. -/
theorem Phase.acted (phase : Phase step p) {rest : List RpcState} {message : RpcState}
    (taken : p.ctl = message :: rest) (acts : message ≠ if p.connected then .connected else .disconnected) :
    rest = [] ∧ p.negotiating = false ∧ p.answers = [] ∧
      (step = .awaitingOpen ∧ message = .connected ∧ p.connected = false ∨
        step = .awaitingStop ∧ message = .disconnected ∧ p.connected = true) := by
  have quiet (before : p.Quiet) : False := by
    apply acts
    apply before.2.2
    rw [taken]
    exact List.mem_cons_self
  have taken_ne (none : p.ctl = []) : False := by
    rw [none] at taken
    cases taken
  cases step with
  | idle | opening | severing | draining => exact (quiet phase).elim
  | reopening | counting | signalling | delivering _ => exact (quiet phase.1).elim
  | awaitingOpen =>
    rcases phase with ⟨still, unanswered, dark, idle, ctl, others⟩ | ⟨_, _, none⟩ | ⟨_, none, _⟩
    · rw [ctl] at taken
      rcases last_of_cons taken others with ⟨isLast, _, last⟩ | ⟨_, other, _⟩
      · exact ⟨last, still, unanswered, .inl ⟨rfl, isLast, dark⟩⟩
      · rw [dark] at acts
        exact absurd other acts
    · exact (taken_ne none).elim
    · exact (taken_ne none).elim
  | awaitingStop =>
    rcases phase with ⟨still, unanswered, lit, idle, ctl, others⟩ | ⟨_, none, _⟩
    · rw [ctl] at taken
      rcases last_of_cons taken others with ⟨isLast, _, last⟩ | ⟨_, other, _⟩
      · exact ⟨last, still, unanswered, .inr ⟨rfl, isLast, lit⟩⟩
      · rw [lit] at acts
        exact absurd other acts
    · exact (taken_ne none).elim

/-- Frames are not part of a transition. -/
theorem Phase.frames (phase : Phase step p) (queue : List Notification) (handling : Option Notification) :
    Phase step { p with queue := queue, handling := handling } := by
  cases step <;> exact phase

end Phases

namespace Boundary

variable {b next : Boundary}

/-- The processor has been handed the frame, or a forwarder is about to hand it over. -/
def InHand (b : Boundary) (added : Nat) : Prop :=
  (∃ registration ∈ b.registrations, registration.passed = some (.utxosChanged added)) ∨
    .utxosChanged added ∈ b.processor.queue ∨ b.processor.handling = some (.utxosChanged added)

/-- A listener of the current epoch may still deliver. -/
def Serving (b : Boundary) : Prop :=
  ∃ registration ∈ b.registrations, registration.epoch = b.gate.epoch ∧
    (registration.live = true ∨ registration.offered ≠ [])

/-- What ties the epoch, the outstanding frames and the relay together while the processor lives. -/
structure Alternates (b : Boundary) : Prop where
  phase : Phase b.step b.processor
  held : ∀ added, b.InHand added → ∃ at_, (at_, added) ∈ b.gate.held b.released
  alive : ∀ registration ∈ b.registrations, ∀ added, .utxosChanged added ∈ registration.offered → added ∉ b.released
  dark : b.processor.connected = false → ∀ added, ¬ b.InHand added
  passed : b.step.closes = true → ∀ added, ¬ b.InHand added
  unserved : b.processor.connected = false ∨ b.step.severed = true → ¬ b.Serving
  busy : b.processor.negotiating = true → b.processor.handling = none
  stamping : b.processor.stamped ≠ none → b.processor.negotiating = true ∧ b.processor.connected = true

structure Inv (b : Boundary) : Prop where
  epochs : ∀ registration ∈ b.registrations, registration.epoch ≤ b.gate.epoch
  stamped : ∀ epoch, b.processor.stamped = some epoch → epoch ≤ b.gate.epoch
  alternates : b.processor.ended = false → b.Alternates

theorem inv_start : start.Inv where
  epochs := fun _ none => nomatch none
  stamped := fun _ none => nomatch none
  alternates := fun _ => by
    refine ⟨⟨rfl, rfl, fun _ none => nomatch none⟩, ?_, (fun _ none => nomatch none), ?_, ?_, ?_, fun _ => rfl, ?_⟩
    · intro added hand
      rcases hand with ⟨_, none, _⟩ | none | none <;> cases none
    · intro _ added hand
      rcases hand with ⟨_, none, _⟩ | none | none <;> cases none
    · intro closes
      cases closes
    · intro _ serving
      obtain ⟨_, none, _⟩ := serving
      cases none
    · intro stamped
      exact absurd rfl stamped

section Registrations

variable {i : Nat} {registration changed : Registration}

theorem mem_setRegistration {other : Registration}
    (member : other ∈ (b.setRegistration i changed).registrations) : other ∈ b.registrations ∨ other = changed :=
  List.mem_or_eq_of_mem_set member

theorem inHand_setRegistration (found : b.registrations[i]? = some registration)
    (passed : ∀ added, changed.passed = some (.utxosChanged added) → registration.passed = some (.utxosChanged added))
    {added : Nat} (hand : (b.setRegistration i changed).InHand added) : b.InHand added := by
  rcases hand with ⟨other, member, isPassed⟩ | queued | handled
  · left
    rcases mem_setRegistration member with before | rfl
    · exact ⟨other, before, isPassed⟩
    · exact ⟨registration, List.mem_of_getElem? found, passed added isPassed⟩
  · exact .inr (.inl queued)
  · exact .inr (.inr handled)

theorem serving_setRegistration (found : b.registrations[i]? = some registration)
    (epoch : changed.epoch = registration.epoch)
    (serves : changed.live = true ∨ changed.offered ≠ [] → registration.live = true ∨ registration.offered ≠ [])
    (serving : (b.setRegistration i changed).Serving) : b.Serving := by
  obtain ⟨other, member, current, delivers⟩ := serving
  rcases mem_setRegistration member with before | rfl
  · exact ⟨other, before, current, delivers⟩
  · exact ⟨registration, List.mem_of_getElem? found, epoch.symm.trans current, serves delivers⟩

/-- A registration that neither admits nor serves more than before changes nothing. -/
theorem Alternates.setRegistration (holds : b.Alternates) (found : b.registrations[i]? = some registration)
    (epoch : changed.epoch = registration.epoch)
    (passed : ∀ added, changed.passed = some (.utxosChanged added) → registration.passed = some (.utxosChanged added))
    (serves : changed.live = true ∨ changed.offered ≠ [] → registration.live = true ∨ registration.offered ≠ [])
    (alive : ∀ added, .utxosChanged added ∈ changed.offered → added ∉ b.released) :
    (b.setRegistration i changed).Alternates where
  phase := holds.phase
  held := fun added hand => holds.held added (inHand_setRegistration found passed hand)
  alive := by
    intro other member added offered
    rcases mem_setRegistration member with before | rfl
    · exact holds.alive other before added offered
    · exact alive added offered
  dark := fun dark added hand => holds.dark dark added (inHand_setRegistration found passed hand)
  passed := fun closes added hand => holds.passed closes added (inHand_setRegistration found passed hand)
  unserved := fun shut serving => holds.unserved shut (serving_setRegistration found epoch serves serving)
  busy := holds.busy
  stamping := holds.stamping

theorem Inv.setRegistration (inv : b.Inv) (found : b.registrations[i]? = some registration)
    (epoch : changed.epoch = registration.epoch)
    (alternates : b.Alternates → (b.setRegistration i changed).Alternates) : (b.setRegistration i changed).Inv where
  epochs := by
    intro other member
    rcases mem_setRegistration member with before | rfl
    · exact inv.epochs other before
    · rw [epoch]
      exact inv.epochs registration (List.mem_of_getElem? found)
  stamped := inv.stamped
  alternates := fun lives => alternates (inv.alternates lives)

end Registrations

section Gate

variable {gate after : Gate} {released : Finset Nat} {now epoch : Nat} {notification : Notification} {wakes : Bool}

theorem admit_epoch (did : gate.admitNotification released now epoch notification = some (wakes, after)) :
    gate.retired = false ∧ gate.epoch = epoch ∧ after.epoch = gate.epoch := by
  unfold Gate.admitNotification at did
  split at did
  · cases did
  case isFalse open_ =>
    simp only [Bool.or_eq_true, bne_iff_ne, not_or, not_not, Bool.not_eq_true] at open_
    refine ⟨open_.1, open_.2, ?_⟩
    cases notification <;> cases did <;> rfl

theorem admit_held (did : gate.admitNotification released now epoch notification = some (wakes, after)) {entry : Nat × Nat}
    (held : entry ∈ gate.held released) : entry ∈ after.held released := by
  obtain ⟨fresh, _, outstanding, _⟩ := Gate.admit_some did
  apply Gate.mem_held.mpr
  rw [outstanding]
  exact ⟨List.mem_append_left _ held, (Gate.mem_held.mp held).2⟩

/-- A `UtxosChanged` let through is outstanding until it is released. -/
theorem admit_files {added : Nat}
    (did : gate.admitNotification released now epoch (.utxosChanged added) = some (wakes, after))
    (alive : added ∉ released) : (now, added) ∈ after.held released := by
  unfold Gate.admitNotification at did
  split at did
  · cases did
  · cases did
    apply Gate.mem_held.mpr
    simp [alive]

end Gate

section Steps

/-- What the relay does on its own keeps the alternation. -/
theorem Inv.relayed (inv : b.Inv) (did : b.relayed = some next) : next.Inv := by
  have lives (alive : b.processor.ended = false) := inv.alternates alive
  unfold Boundary.relayed at did
  cases step : b.step with
  | idle =>
    simp only [step] at did
    cases pending : b.pending with
    | nil =>
      simp only [pending] at did
      cases did
    | cons state rest =>
      cases state <;>
      · simp only [pending] at did
        cases did
        refine ⟨inv.epochs, inv.stamped, fun alive => ?_⟩
        have holds := lives alive
        have phase := holds.phase
        rw [step] at phase
        refine ⟨phase, holds.held, holds.alive, holds.dark, ?_, ?_, holds.busy, holds.stamping⟩
        · intro closes
          cases closes
        · intro shut
          apply holds.unserved
          rcases shut with dark | severed
          · exact .inl dark
          · cases severed
  | opening =>
    simp only [step] at did
    cases did
    refine ⟨inv.epochs, inv.stamped, fun alive => ?_⟩
    have holds := lives alive
    have phase := holds.phase
    rw [step] at phase
    cases lit : b.processor.connected with
    | true =>
      refine ⟨⟨phase, lit⟩, holds.held, holds.alive, holds.dark, ?_, ?_, holds.busy, holds.stamping⟩
      · intro closes
        cases closes
      · intro shut
        apply holds.unserved
        rcases shut with dark | severed
        · exact .inl dark
        · cases severed
    | false =>
      refine ⟨⟨phase, lit⟩, holds.held, holds.alive, holds.dark, ?_, ?_, holds.busy, holds.stamping⟩
      · intro closes
        cases closes
      · exact fun _ => holds.unserved (.inl lit)
  | reopening =>
    simp only [step] at did
    cases did
    refine ⟨inv.epochs, inv.stamped, fun alive => ?_⟩
    have holds := lives alive
    have phase := holds.phase
    rw [step] at phase
    obtain ⟨⟨idle, unanswered, messages⟩, lit⟩ := phase
    refine ⟨⟨idle, unanswered, ?_⟩, holds.held, holds.alive, holds.dark, ?_, ?_, holds.busy, holds.stamping⟩
    · intro message member
      rcases List.mem_append.mp member with before | last
      · exact messages message before
      · rw [List.mem_singleton.mp last]
        exact (if_pos lit).symm
    · intro closes
      cases closes
    · intro shut
      apply holds.unserved
      rcases shut with dark | severed
      · exact .inl dark
      · cases severed
  | counting =>
    simp only [step] at did
    cases did
    refine ⟨inv.epochs, inv.stamped, fun alive => ?_⟩
    have holds := lives alive
    have phase := holds.phase
    rw [step] at phase
    refine ⟨phase, holds.held, holds.alive, holds.dark, ?_, ?_, holds.busy, holds.stamping⟩
    · intro closes
      cases closes
    · exact fun _ => holds.unserved (.inl phase.2)
  | signalling =>
    simp only [step] at did
    cases did
    refine ⟨inv.epochs, inv.stamped, fun alive => ?_⟩
    have holds := lives alive
    have phase := holds.phase
    rw [step] at phase
    obtain ⟨⟨idle, unanswered, messages⟩, dark⟩ := phase
    refine ⟨.inl ⟨idle, unanswered, dark, _, rfl, ?_⟩, holds.held, holds.alive, holds.dark, ?_, ?_, holds.busy,
      holds.stamping⟩
    · intro message member
      have same := messages message member
      rw [dark] at same
      exact same
    · intro closes
      cases closes
    · exact fun _ => holds.unserved (.inl dark)
  | severing =>
    simp only [step] at did
    cases did
    have older : ∀ registration ∈ b.registrations, registration.epoch ≤ b.gate.epoch := inv.epochs
    refine ⟨?_, ?_, fun alive => ?_⟩
    · intro registration member
      exact Nat.le_succ_of_le (older registration member)
    · intro epoch stamped
      exact Nat.le_succ_of_le (inv.stamped epoch stamped)
    · have holds := lives alive
      have phase := holds.phase
      rw [step] at phase
      refine ⟨phase, holds.held, holds.alive, holds.dark, ?_, ?_, holds.busy, holds.stamping⟩
      · intro closes
        cases closes
      · intro _ serving
        obtain ⟨registration, member, current, _⟩ := serving
        have bound := older registration member
        change registration.epoch = b.gate.epoch + 1 at current
        omega
  | delivering connected =>
    simp only [step] at did
    cases did
    refine ⟨inv.epochs, inv.stamped, fun alive => ?_⟩
    have holds := lives alive
    have phase := holds.phase
    have gone := holds.passed (by rw [step]; rfl)
    have shut := holds.unserved (.inr (by rw [step]; rfl))
    rw [step] at phase
    obtain ⟨⟨idle, unanswered, messages⟩, lit⟩ := phase
    cases connected with
    | true =>
      refine ⟨.inl ⟨idle, unanswered, lit, _, rfl, ?_⟩, holds.held, holds.alive, holds.dark, fun _ => gone,
        fun _ => shut, holds.busy, holds.stamping⟩
      intro message member
      have same := messages message member
      rw [lit] at same
      exact same
    | false =>
      refine ⟨⟨idle, unanswered, ?_⟩, holds.held, holds.alive, holds.dark, fun _ => gone, fun _ => shut, holds.busy,
        holds.stamping⟩
      intro message member
      rcases List.mem_append.mp member with before | last
      · exact messages message before
      · rw [List.mem_singleton.mp last]
        change _ = if b.processor.connected = true then _ else _
        rw [lit]
        rfl
  | awaitingOpen | draining | awaitingStop =>
    simp only [step] at did
    cases did

theorem drained_inHand (holds : b.Alternates) (drained : b.drained = true) (added : Nat) : ¬ b.InHand added := by
  intro hand
  obtain ⟨at_, held⟩ := holds.held added hand
  have none : b.gate.held b.released = [] := List.isEmpty_iff.mp drained
  rw [none] at held
  cases held

theorem Inv.delivered (inv : b.Inv) (did : b.apply .deliver = some next) : next.Inv := by
  simp only [Boundary.apply] at did
  split at did
  case isFalse => cases did
  case isTrue met =>
    cases did
    refine ⟨inv.epochs, inv.stamped, fun alive => ?_⟩
    have holds := inv.alternates alive
    have phase := holds.phase
    rw [met.1] at phase
    have drained : b.drained = true := by
      have either := met.2
      change b.processor.ended = false at alive
      rwa [alive, Bool.or_false] at either
    have gone : ∀ added, ¬ b.InHand added := drained_inHand holds drained
    refine ⟨⟨phase, rfl⟩, holds.held, holds.alive, holds.dark, fun _ => gone, ?_, holds.busy, holds.stamping⟩
    exact fun _ => holds.unserved (.inr (by rw [met.1]; rfl))

theorem Inv.received (inv : b.Inv) (did : b.apply .receive = some next) : next.Inv := by
  simp only [Boundary.apply] at did
  cases answers : b.processor.answers with
  | nil =>
    simp only [answers] at did
    cases did
  | cons answer rest =>
    simp only [answers] at did
    split at did
    case isFalse => cases did
    case isTrue =>
      cases did
      refine ⟨inv.epochs, inv.stamped, fun alive => ?_⟩
      have holds := inv.alternates alive
      obtain ⟨idle, quiet⟩ := holds.phase.received answers
      refine ⟨?_, holds.held, holds.alive, holds.dark, ?_, ?_, holds.busy, holds.stamping⟩
      · rw [idle]
        exact quiet
      · intro closes
        rw [idle] at closes
        cases closes
      · intro shut
        apply holds.unserved
        rcases shut with dark | severed
        · exact .inl dark
        · rw [idle] at severed
          cases severed

/-- Taking a ctl message keeps the alternation: a close is taken only with every frame handled. -/
theorem Inv.tookCtl (inv : b.Inv) {early : Bool} (did : b.apply (.takeCtl early) = some next) : next.Inv := by
  simp only [Boundary.apply] at did
  split at did
  case isFalse => cases did
  case isTrue polls =>
    simp only [Boundary.polls, Bool.and_eq_true, Bool.not_eq_true', Option.isNone_iff_eq_none] at polls
    obtain ⟨⟨alive, still⟩, free⟩ := polls
    have holds := inv.alternates alive
    cases taken : b.processor.ctl with
    | nil =>
      simp only [taken] at did
      cases did
    | cons message rest =>
      have phase := holds.phase
      have unstamped : b.processor.stamped = none := by
        by_contra stamped
        rw [(holds.stamping stamped).1] at still
        cases still
      by_cases same : message = if b.processor.connected then .connected else .disconnected
      · -- the processor already is what the message asks for
        have ignored : next = { b with processor := { b.processor with ctl := rest } } := by
          cases lit : b.processor.connected <;> rw [lit] at same <;> subst same <;>
            simp only [taken, lit, if_true, Bool.false_eq_true, if_false] at did <;> rw [← Option.some.inj did] <;> simp [lit]
        subst ignored
        refine ⟨inv.epochs, inv.stamped, fun _ => ?_⟩
        exact ⟨phase.ignored taken same, holds.held, holds.alive, holds.dark, holds.passed, holds.unserved, holds.busy,
          holds.stamping⟩
      · obtain ⟨last, _, unanswered, ⟨step, opens, dark⟩ | ⟨step, closes, lit⟩⟩ := phase.acted taken same
        · subst opens
          simp only [taken] at did
          rw [if_neg (by rw [dark]; simp)] at did
          cases did
          have gone := holds.dark dark
          have shut := holds.unserved (.inl dark)
          refine ⟨inv.epochs, inv.stamped, fun _ => ?_⟩
          refine ⟨?_, holds.held, holds.alive, fun _ => gone, fun _ => gone, fun _ => shut, fun _ => free, ?_⟩
          · change Phase b.step _
            rw [step]
            exact .inr (.inl ⟨rfl, unanswered, last⟩)
          · intro stamped
            exact absurd unstamped stamped
        · subst closes
          simp only [taken] at did
          rw [if_pos lit] at did
          cases did
          have gone := holds.passed (by rw [step]; rfl)
          have shut := holds.unserved (.inr (by rw [step]; rfl))
          refine ⟨inv.epochs, inv.stamped, fun _ => ?_⟩
          refine ⟨?_, holds.held, holds.alive, fun _ => gone, fun _ => gone, fun _ => shut, holds.busy, ?_⟩
          · change Phase b.step _
            rw [step]
            exact .inr ⟨still, last, rfl, by simp [unanswered]⟩
          · intro stamped
            exact absurd unstamped stamped

/-- A negotiation runs while the relay waits for its open to be answered. -/
theorem Inv.negotiation (inv : b.Inv) (negotiates : b.negotiates = true) :
    b.processor.ended = false ∧ b.processor.negotiating = true ∧ b.Alternates ∧ b.step = .awaitingOpen ∧
      b.processor.answers = [] ∧ b.processor.ctl = [] := by
  simp only [Boundary.negotiates, Bool.and_eq_true, Bool.not_eq_true'] at negotiates
  have holds := inv.alternates negotiates.1
  exact ⟨negotiates.1, negotiates.2, holds, holds.phase.negotiating negotiates.2⟩

theorem Inv.connected (inv : b.Inv) (did : b.apply .connect = some next) : next.Inv := by
  simp only [Boundary.apply] at did
  split at did
  case isFalse => cases did
  case isTrue negotiates =>
    cases did
    obtain ⟨_, negotiating, holds, step, unanswered, ctl⟩ := inv.negotiation negotiates
    refine ⟨inv.epochs, inv.stamped, fun _ => ?_⟩
    refine ⟨?_, holds.held, holds.alive, fun dark => (nomatch dark), holds.passed, ?_, holds.busy, ?_⟩
    · change Phase b.step _
      rw [step]
      exact .inr (.inl ⟨negotiating, unanswered, ctl⟩)
    · intro shut
      rcases shut with dark | severed
      · cases dark
      · exact holds.unserved (.inr severed)
    · exact fun stamped => ⟨(holds.stamping stamped).1, rfl⟩

theorem Inv.stamps (inv : b.Inv) (did : b.apply .stamp = some next) : next.Inv := by
  simp only [Boundary.apply] at did
  split at did
  case isFalse => cases did
  case isTrue met =>
    cases did
    simp only [Bool.and_eq_true] at met
    obtain ⟨_, negotiating, holds, step, unanswered, ctl⟩ := inv.negotiation met.1.1
    refine ⟨inv.epochs, ?_, fun _ => ?_⟩
    · intro epoch stamped
      cases stamped
      exact Nat.le_refl _
    · refine ⟨?_, holds.held, holds.alive, holds.dark, holds.passed, holds.unserved, holds.busy, ?_⟩
      · change Phase b.step _
        rw [step]
        exact .inr (.inl ⟨negotiating, unanswered, ctl⟩)
      · exact fun _ => ⟨negotiating, met.1.2⟩

theorem Inv.registers (inv : b.Inv) (did : b.apply .register = some next) : next.Inv := by
  simp only [Boundary.apply] at did
  cases stamped : b.processor.stamped with
  | none =>
    simp only [stamped] at did
    cases did
  | some epoch =>
    simp only [stamped] at did
    split at did
    case isFalse => cases did
    case isTrue negotiates =>
      cases did
      obtain ⟨_, negotiating, holds, step, unanswered, ctl⟩ := inv.negotiation negotiates
      have lit : b.processor.connected = true := (holds.stamping (by rw [stamped]; simp)).2
      have hands : ∀ added, InHand { b with
          registrations := b.registrations ++ [⟨epoch, true, [], none⟩]
          processor := { b.processor with stamped := none } } added → b.InHand added := by
        intro added hand
        rcases hand with ⟨registration, member, passed⟩ | others
        · rcases List.mem_append.mp member with before | last
          · exact .inl ⟨registration, before, passed⟩
          · rw [List.mem_singleton.mp last] at passed
            cases passed
        · exact .inr others
      refine ⟨?_, fun _ none => (nomatch none), fun _ => ?_⟩
      · intro registration member
        rcases List.mem_append.mp member with before | last
        · exact inv.epochs registration before
        · rw [List.mem_singleton.mp last]
          exact inv.stamped epoch stamped
      · refine ⟨?_, ?_, ?_, ?_, ?_, ?_, holds.busy, fun none => absurd rfl none⟩
        · change Phase b.step _
          rw [step]
          exact .inr (.inl ⟨negotiating, unanswered, ctl⟩)
        · exact fun added hand => holds.held added (hands added hand)
        · intro registration member added offered
          rcases List.mem_append.mp member with before | last
          · exact holds.alive registration before added offered
          · rw [List.mem_singleton.mp last] at offered
            cases offered
        · exact fun dark added hand => holds.dark dark added (hands added hand)
        · exact fun closes added hand => holds.passed closes added (hands added hand)
        · intro shut
          rcases shut with dark | severed
          · rw [show b.processor.connected = false from dark] at lit
            cases lit
          · rw [show b.step = _ from step] at severed
            cases severed

theorem Inv.started (inv : b.Inv) (did : b.apply .answerStart = some next) : next.Inv := by
  simp only [Boundary.apply] at did
  split at did
  case isFalse => cases did
  case isTrue met =>
    cases did
    simp only [Bool.and_eq_true, Option.isNone_iff_eq_none] at met
    obtain ⟨_, _, holds, step, unanswered, ctl⟩ := inv.negotiation met.1.1
    refine ⟨inv.epochs, inv.stamped, fun _ => ?_⟩
    refine ⟨?_, holds.held, holds.alive, holds.dark, holds.passed, holds.unserved, (fun busy => nomatch busy), ?_⟩
    · change Phase b.step _
      rw [step]
      exact .inr (.inr ⟨rfl, ctl, .inl (by simp [unanswered])⟩)
    · exact fun stamped => absurd met.2 stamped

/-- With nothing on its way to the processor, no frame is in hand and no listener serves. -/
theorem undelivering_silent (undelivering : b.undelivering = true) (free : b.processor.handling = none) :
    (∀ added, ¬ b.InHand added) ∧ ¬ b.Serving := by
  simp only [Boundary.undelivering, Bool.and_eq_true, List.isEmpty_iff, List.all_eq_true, Bool.or_eq_true,
    Option.isNone_iff_eq_none, bne_iff_ne, Bool.not_eq_true'] at undelivering
  obtain ⟨queue, each⟩ := undelivering
  constructor
  · intro added hand
    rcases hand with ⟨registration, member, passed⟩ | queued | handled
    · rw [(each registration member).1] at passed
      cases passed
    · rw [queue] at queued
      cases queued
    · rw [free] at handled
      cases handled
  · intro serving
    obtain ⟨registration, member, current, delivers⟩ := serving
    rcases (each registration member).2 with stale | ⟨silent, nothing⟩
    · exact stale current
    · rcases delivers with live | offered
      · rw [silent] at live
        cases live
      · exact offered nothing

theorem Inv.failed (inv : b.Inv) {drops : Bool} (did : b.apply (.answerError drops) = some next) : next.Inv := by
  simp only [Boundary.apply] at did
  split at did
  case isFalse => cases did
  case isTrue met =>
    cases did
    simp only [Bool.and_eq_true, Option.isNone_iff_eq_none, Bool.or_eq_true, Bool.not_eq_true'] at met
    obtain ⟨_, negotiating, holds, step, unanswered, ctl⟩ := inv.negotiation met.1.1
    have dark (still : (b.processor.connected && !drops) = false) : (∀ added, ¬ b.InHand added) ∧ ¬ b.Serving := by
      cases lit : b.processor.connected with
      | false => exact ⟨holds.dark lit, holds.unserved (.inl lit)⟩
      | true =>
        rcases met.2 with keeps | undelivering
        · rw [lit, keeps] at still
          cases still
        · exact undelivering_silent undelivering (holds.busy negotiating)
    refine ⟨inv.epochs, inv.stamped, fun _ => ?_⟩
    refine ⟨?_, holds.held, holds.alive, fun still => (dark still).1, holds.passed, ?_, (fun busy => nomatch busy), ?_⟩
    · change Phase b.step _
      rw [step]
      exact .inr (.inr ⟨rfl, ctl, .inr (by simp [unanswered])⟩)
    · intro shut
      rcases shut with still | severed
      · exact (dark still).2
      · exact holds.unserved (.inr severed)
    · exact fun stamped => absurd met.1.2 stamped

theorem Inv.tookFrame (inv : b.Inv) (did : b.apply .takeFrame = some next) : next.Inv := by
  simp only [Boundary.apply] at did
  split at did
  case isFalse => cases did
  case isTrue polls =>
    simp only [Boundary.polls, Bool.and_eq_true, Bool.not_eq_true'] at polls
    have holds := inv.alternates polls.1.1
    cases queue : b.processor.queue with
    | nil =>
      simp only [queue] at did
      cases did
    | cons notification rest =>
      simp only [queue] at did
      cases did
      have hands : ∀ added, InHand { b with processor :=
          { b.processor with queue := rest, handling := some notification } } added → b.InHand added := by
        intro added hand
        rcases hand with passed | queued | handled
        · exact .inl passed
        · right; left
          rw [queue]
          exact List.mem_cons_of_mem _ queued
        · right; left
          rw [queue, Option.some.inj handled]
          exact List.mem_cons_self
      refine ⟨inv.epochs, inv.stamped, fun _ => ?_⟩
      refine ⟨?_, fun added hand => holds.held added (hands added hand), holds.alive,
        fun dark added hand => holds.dark dark added (hands added hand),
        fun closes added hand => holds.passed closes added (hands added hand), holds.unserved, ?_, holds.stamping⟩
      · exact holds.phase.frames rest (some notification)
      · intro busy
        rw [show b.processor.negotiating = true from busy] at polls
        cases polls.1.2

theorem Inv.finished (inv : b.Inv) (did : b.apply .finishFrame = some next) : next.Inv := by
  simp only [Boundary.apply] at did
  cases did
  have hands : ∀ added, InHand { b with processor := { b.processor with handling := none } } added → b.InHand added := by
    intro added hand
    rcases hand with passed | queued | handled
    · exact .inl passed
    · exact .inr (.inl queued)
    · cases handled
  refine ⟨inv.epochs, inv.stamped, fun alive => ?_⟩
  have holds := inv.alternates alive
  exact ⟨holds.phase.frames b.processor.queue none, fun added hand => holds.held added (hands added hand), holds.alive,
    fun dark added hand => holds.dark dark added (hands added hand),
    fun closes added hand => holds.passed closes added (hands added hand), holds.unserved, fun _ => rfl, holds.stamping⟩

theorem Inv.offered (inv : b.Inv) {i : Nat} {notification : Notification}
    (did : b.apply (.offer i notification) = some next) : next.Inv := by
  simp only [Boundary.apply] at did
  cases found : b.registrations[i]? with
  | none =>
    simp only [found] at did
    cases did
  | some registration =>
    simp only [found] at did
    split at did
    case isFalse => cases did
    case isTrue met =>
      cases did
      simp only [Bool.and_eq_true] at met
      refine inv.setRegistration found rfl fun holds => ?_
      refine holds.setRegistration found rfl (fun _ passed => passed) (fun _ => .inl met.1) ?_
      intro added offered
      rcases List.mem_append.mp offered with before | last
      · exact holds.alive registration (List.mem_of_getElem? found) added before
      · rw [← List.mem_singleton.mp last] at met
        exact of_decide_eq_true met.2

theorem Inv.fellSilent (inv : b.Inv) {i : Nat} (did : b.apply (.fallSilent i) = some next) : next.Inv := by
  simp only [Boundary.apply] at did
  cases found : b.registrations[i]? with
  | none =>
    simp only [found] at did
    cases did
  | some registration =>
    simp only [found] at did
    cases did
    refine inv.setRegistration found rfl fun holds => ?_
    refine holds.setRegistration found rfl (fun _ passed => passed) ?_ ?_
    · intro serves
      rcases serves with live | offered
      · cases live
      · exact .inr offered
    · exact holds.alive registration (List.mem_of_getElem? found)

/-- A frame is admitted only from a listener of the current epoch, so never behind a sever. -/
theorem Inv.admitted (inv : b.Inv) {i now : Nat} (did : b.apply (.letIn i now) = some next) : next.Inv := by
  simp only [Boundary.apply] at did
  cases found : b.registrations[i]? with
  | none =>
    simp only [found] at did
    cases did
  | some registration =>
    have member := List.mem_of_getElem? found
    simp only [found] at did
    cases offered : registration.offered with
    | nil =>
      simp only [offered] at did
      cases did
    | cons notification rest =>
      have fewer : ∀ frame, frame ∈ rest → frame ∈ registration.offered := by
        intro frame later
        rw [offered]
        exact List.mem_cons_of_mem _ later
      have offers : registration.live = true ∨ registration.offered ≠ [] := by
        right
        rw [offered]
        simp
      cases passed : registration.passed with
      | some before =>
        simp only [offered, passed] at did
        cases did
      | none =>
        simp only [offered, passed] at did
        cases judged : b.gate.admitNotification b.released now registration.epoch notification with
        | none =>
          simp only [judged] at did
          cases did
          refine inv.setRegistration found rfl fun holds => ?_
          refine holds.setRegistration found rfl (fun _ same => nomatch same) (fun _ => offers) ?_
          exact fun added later => holds.alive registration member added (fewer _ later)
        | some admission =>
          obtain ⟨wakes, gate⟩ := admission
          simp only [judged] at did
          cases did
          obtain ⟨_, current, sameEpoch⟩ := admit_epoch judged
          have moved : Boundary.Inv { b with gate := gate } := by
            refine ⟨?_, ?_, ?_⟩
            · intro other inside
              rw [sameEpoch]
              exact inv.epochs other inside
            · intro epoch stamped
              rw [sameEpoch]
              exact inv.stamped epoch stamped
            · intro alive
              have holds := inv.alternates alive
              refine ⟨holds.phase, ?_, holds.alive, holds.dark, holds.passed, ?_, holds.busy, holds.stamping⟩
              · intro added hand
                obtain ⟨at_, entry⟩ := holds.held added hand
                exact ⟨at_, admit_held judged entry⟩
              · intro shut serving
                obtain ⟨other, inside, epoch, delivers⟩ := serving
                exact holds.unserved shut ⟨other, inside, epoch.trans sameEpoch, delivers⟩
          refine moved.setRegistration found rfl fun holds => ?_
          have serving : Boundary.Serving { b with gate := gate } :=
            ⟨registration, member, current.symm.trans sameEpoch.symm, offers⟩
          have lit : b.processor.connected = true := by
            by_contra dark
            exact holds.unserved (.inl (Bool.eq_false_iff.mpr dark)) serving
          have unsevered : b.step.severed = false := by
            by_contra severed
            exact holds.unserved (.inr (Bool.not_eq_false _ ▸ severed)) serving
          refine ⟨holds.phase, ?_, ?_, ?_, ?_, ?_, holds.busy, holds.stamping⟩
          · intro added hand
            rcases hand with ⟨other, inside, isPassed⟩ | others
            · rcases mem_setRegistration inside with before | rfl
              · exact holds.held added (.inl ⟨other, before, isPassed⟩)
              · have same : notification = .utxosChanged added := Option.some.inj isPassed
                have alive : added ∉ b.released := by
                  apply holds.alive registration member added
                  rw [offered, same]
                  exact List.mem_cons_self
                rw [same] at judged
                exact ⟨now, admit_files judged alive⟩
            · exact holds.held added (.inr others)
          · intro other inside added later
            rcases mem_setRegistration inside with before | rfl
            · exact holds.alive other before added later
            · exact holds.alive registration member added (fewer _ later)
          · intro dark
            rw [show b.processor.connected = false from dark] at lit
            cases lit
          · intro closes
            have severed : b.step.severed = true := RelayStep.severed_of_closes closes
            rw [severed] at unsevered
            cases unsevered
          · intro shut
            rcases shut with dark | severed
            · rw [show b.processor.connected = false from dark] at lit
              cases lit
            · rw [show b.step.severed = true from severed] at unsevered
              cases unsevered

theorem Inv.sent (inv : b.Inv) {i : Nat} (did : b.apply (.pass i) = some next) : next.Inv := by
  simp only [Boundary.apply] at did
  cases found : b.registrations[i]? with
  | none =>
    simp only [found] at did
    cases did
  | some registration =>
    have member := List.mem_of_getElem? found
    simp only [found] at did
    cases passed : registration.passed with
    | none =>
      simp only [passed] at did
      cases did
    | some notification =>
      simp only [passed] at did
      cases did
      have hands : ∀ added, InHand (Boundary.setRegistration { b with processor :=
          { b.processor with queue := b.processor.queue ++ [notification] } } i
          { registration with passed := none }) added → b.InHand added := by
        intro added hand
        rcases hand with ⟨other, inside, isPassed⟩ | queued | handled
        · rcases mem_setRegistration inside with before | rfl
          · exact .inl ⟨other, before, isPassed⟩
          · cases isPassed
        · rcases List.mem_append.mp queued with before | last
          · exact .inr (.inl before)
          · rw [← List.mem_singleton.mp last] at passed
            exact .inl ⟨registration, member, passed⟩
        · exact .inr (.inr handled)
      refine ⟨?_, inv.stamped, fun alive => ?_⟩
      · intro other inside
        rcases mem_setRegistration inside with before | rfl
        · exact inv.epochs other before
        · exact inv.epochs registration member
      · have holds := inv.alternates alive
        refine ⟨holds.phase.frames _ b.processor.handling, fun added hand => holds.held added (hands added hand), ?_,
          fun dark added hand => holds.dark dark added (hands added hand),
          fun closes added hand => holds.passed closes added (hands added hand), ?_, holds.busy, holds.stamping⟩
        · intro other inside added offered
          rcases mem_setRegistration inside with before | rfl
          · exact holds.alive other before added offered
          · exact holds.alive registration member added offered
        · intro shut serving
          obtain ⟨other, inside, current, delivers⟩ := serving
          rcases mem_setRegistration inside with before | rfl
          · exact holds.unserved shut ⟨other, before, current, delivers⟩
          · exact holds.unserved shut ⟨registration, member, current, delivers⟩

/-- A frame someone holds is not released. -/
theorem Inv.freed (inv : b.Inv) {added : Nat} (did : b.apply (.release added) = some next) : next.Inv := by
  simp only [Boundary.apply] at did
  split at did
  case isTrue => cases did
  case isFalse unheld =>
    cases did
    simp only [Boundary.holds, Bool.or_eq_true, List.any_eq_true, decide_eq_true_eq, not_or, not_exists, not_and] at unheld
    obtain ⟨⟨nowhere, unqueued⟩, unhandled⟩ := unheld
    refine ⟨inv.epochs, inv.stamped, fun alive => ?_⟩
    have holds := inv.alternates alive
    refine ⟨holds.phase, ?_, ?_, holds.dark, holds.passed, holds.unserved, holds.busy, holds.stamping⟩
    · intro other hand
      obtain ⟨at_, entry⟩ := holds.held other hand
      refine ⟨at_, Gate.mem_held.mpr ⟨(Gate.mem_held.mp entry).1, ?_⟩⟩
      intro gone
      rcases Finset.mem_insert.mp gone with same | before
      · have isIt : other = added := same
        subst isIt
        rcases hand with ⟨registration, member, isPassed⟩ | queued | handled
        · exact (nowhere registration member).2 isPassed
        · exact unqueued queued
        · exact unhandled handled
      · exact (Gate.mem_held.mp entry).2 before
    · intro registration member other offered gone
      rcases Finset.mem_insert.mp gone with same | before
      · subst same
        exact (nowhere registration member).1 offered
      · exact holds.alive registration member other offered before

/-- Every event keeps the boundary's invariant. -/
theorem Inv.apply (inv : b.Inv) {event : BoundaryEvent} (did : b.apply event = some next) : next.Inv := by
  cases event with
  | announce state =>
    cases did
    refine ⟨inv.epochs, inv.stamped, fun alive => ?_⟩
    have holds := inv.alternates alive
    exact ⟨holds.phase, holds.held, holds.alive, holds.dark, holds.passed, holds.unserved, holds.busy, holds.stamping⟩
  | relay => exact inv.relayed did
  | deliver => exact inv.delivered did
  | receive => exact inv.received did
  | retire =>
    cases did
    refine ⟨inv.epochs, inv.stamped, fun alive => ?_⟩
    have holds := inv.alternates alive
    exact ⟨holds.phase, holds.held, holds.alive, holds.dark, holds.passed, holds.unserved, holds.busy, holds.stamping⟩
  | takeCtl early => exact inv.tookCtl did
  | connect => exact inv.connected did
  | stamp => exact inv.stamps did
  | register => exact inv.registers did
  | answerStart => exact inv.started did
  | answerError drops => exact inv.failed did
  | takeFrame => exact inv.tookFrame did
  | finishFrame => exact inv.finished did
  | die =>
    cases did
    exact ⟨inv.epochs, inv.stamped, fun alive => nomatch alive⟩
  | stop =>
    simp only [Boundary.apply] at did
    split at did
    · cases did
      exact ⟨inv.epochs, inv.stamped, fun alive => nomatch alive⟩
    · cases did
  | offer i notification => exact inv.offered did
  | fallSilent i => exact inv.fellSilent did
  | letIn i now => exact inv.admitted did
  | pass i => exact inv.sent did
  | release added => exact inv.freed did

end Steps

end Boundary

end Kaspaverse.WalletLane
