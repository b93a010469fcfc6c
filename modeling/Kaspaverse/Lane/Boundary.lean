import Kaspaverse.Lane.HeldFrames

namespace Kaspaverse.WalletLane

/-- What the monitor announces, and what the relay signals on the processor's own ctl. -/
inductive RpcState
  | connected
  | disconnected
  deriving DecidableEq

/-- How the processor answers an open or a close. -/
inductive Answer
  | utxoProcStart
  | utxoProcError
  | utxoProcStop
  deriving DecidableEq

/-- A listener of the processor's with the node client, and the forwarder behind its proxy channel. -/
structure Registration where
  epoch : Nat
  live : Bool
  offered : List Notification
  /-- admitted, and not yet sent on -/
  passed : Option Notification
  deriving DecidableEq

/-- The pinned processor: one task over its ctl and its notifications. -/
structure Processor where
  connected : Bool
  negotiating : Bool
  /-- the epoch a registration in progress has read -/
  stamped : Option Nat
  ctl : List RpcState
  queue : List Notification
  handling : Option Notification
  answers : List Answer
  ended : Bool
  deriving DecidableEq

/-- Where the relay is, with the stores and reads inside `open`, `close_begin` and `close_deliver`
    told apart. -/
inductive RelayStep
  | idle
  /-- the closing flag is down, the processor not read yet -/
  | opening
  /-- read connected: the open is signalled and not awaited -/
  | reopening
  /-- read disconnected: the open is counted next -/
  | counting
  | signalling
  | awaitingOpen
  /-- the closing flag is up, the epoch not ended yet -/
  | severing
  | draining
  /-- read, with the pending coins copied: the close is signalled next -/
  | delivering (connected : Bool)
  | awaitingStop
  deriving DecidableEq

/-- The relay waits for an event. -/
def RelayStep.selects : RelayStep → Bool
  | .idle | .awaitingOpen | .draining | .awaitingStop => true
  | _ => false

structure Boundary where
  gate : Gate
  /-- the frames no one holds any more -/
  released : Finset Nat
  registrations : List Registration
  processor : Processor
  step : RelayStep
  pending : List RpcState
  deriving DecidableEq

inductive BoundaryEvent
  /-- the monitor announces a transition -/
  | announce (state : RpcState)
  /-- the relay's next store, read or signal -/
  | relay
  /-- the relay finds everything handed over released -/
  | deliver
  /-- the relay reads the processor's next event -/
  | receive
  | retire
  /-- the processor takes its next ctl message; an open may set its flag at once or later -/
  | takeCtl (early : Bool)
  | connect
  | stamp
  | register
  | answerStart
  /-- a failed negotiation, which may lower the flag where no listener delivers -/
  | answerError (drops : Bool)
  | takeFrame
  | finishFrame
  /-- the processor's task ends -/
  | die
  /-- the pinned `stop()` goes through -/
  | stop
  | offer (i : Nat) (notification : Notification)
  /-- the node client delivers to it no more -/
  | fallSilent (i : Nat)
  | letIn (i now : Nat)
  | pass (i : Nat)
  | release (added : Nat)
  deriving DecidableEq

namespace Boundary

def start : Boundary where
  gate := .new
  released := ∅
  registrations := []
  processor := ⟨false, false, none, [], [], none, [], false⟩
  step := .idle
  pending := []

/-- The processor's task waits for a message. -/
def polls (b : Boundary) : Bool :=
  !b.processor.ended && !b.processor.negotiating && b.processor.handling.isNone

/-- The processor's task is inside an open's negotiation. -/
def negotiates (b : Boundary) : Bool := !b.processor.ended && b.processor.negotiating

def drained (b : Boundary) : Bool := (b.gate.held b.released).isEmpty

/-- No listener is registered in the current epoch, and no frame of any is on its way. -/
def undelivering (b : Boundary) : Bool :=
  b.processor.queue.isEmpty && b.registrations.all fun registration => registration.passed.isNone &&
    (registration.epoch != b.gate.epoch || (!registration.live && registration.offered.isEmpty))

/-- Someone holds the frame: a channel, a forwarder or the processor. -/
def holds (b : Boundary) (added : Nat) : Bool :=
  (b.registrations.any fun registration => decide (.utxosChanged added ∈ registration.offered) ||
    decide (registration.passed = some (.utxosChanged added))) ||
  decide (.utxosChanged added ∈ b.processor.queue) || decide (b.processor.handling = some (.utxosChanged added))

def signal (b : Boundary) (state : RpcState) (step : RelayStep) : Boundary :=
  { b with processor := { b.processor with ctl := b.processor.ctl ++ [state] }, step := step }

def setRegistration (b : Boundary) (i : Nat) (registration : Registration) : Boundary :=
  { b with registrations := b.registrations.set i registration }

/-- A frame offered is one its sender still holds. -/
def alive (b : Boundary) : Notification → Bool
  | .utxosChanged added => decide (added ∉ b.released)
  | _ => true

/-- The relay's next store, read or signal, where none of them waits. -/
def relayed (b : Boundary) : Option Boundary :=
  match b.step with
  | .idle =>
    match b.pending with
    | [] => none
    | .connected :: rest => some { b with pending := rest, step := .opening }
    | .disconnected :: rest => some { b with pending := rest, step := .severing }
  | .opening => some { b with step := if b.processor.connected then .reopening else .counting }
  | .reopening => some (b.signal .connected .idle)
  | .counting => some { b with step := .signalling }
  | .signalling => some (b.signal .connected .awaitingOpen)
  | .severing => some { b with gate := b.gate.sever, step := .draining }
  | .delivering connected => some (b.signal .disconnected (if connected then .awaitingStop else .idle))
  | .awaitingOpen | .draining | .awaitingStop => none

/-- The relay's step behind an event it reads. -/
def acknowledged : RelayStep → Answer → RelayStep
  | .awaitingOpen, .utxoProcStart | .awaitingOpen, .utxoProcError | .awaitingStop, .utxoProcStop => .idle
  | step, _ => step

def apply (b : Boundary) : BoundaryEvent → Option Boundary
  | .announce state => some { b with pending := b.pending ++ [state] }
  | .relay => b.relayed
  | .deliver =>
    if b.step = .draining ∧ (b.drained || b.processor.ended) = true then
      some { b with step := .delivering b.processor.connected }
    else none
  | .receive =>
    match b.processor.answers with
    | [] => none
    | answer :: rest =>
      if b.step.selects then
        some { b with
          processor := { b.processor with answers := rest }
          step := acknowledged b.step answer }
      else none
  | .retire => some { b with gate := b.gate.retire }
  | .takeCtl early =>
    if b.polls then
      match b.processor.ctl with
      | [] => none
      | .connected :: rest =>
        if b.processor.connected then some { b with processor := { b.processor with ctl := rest } }
        else some { b with processor := { b.processor with ctl := rest, negotiating := true, connected := early } }
      | .disconnected :: rest =>
        if b.processor.connected then
          some { b with processor := { b.processor with
            ctl := rest, connected := false, answers := b.processor.answers ++ [.utxoProcStop] } }
        else some { b with processor := { b.processor with ctl := rest } }
    else none
  | .connect =>
    if b.negotiates then some { b with processor := { b.processor with connected := true } } else none
  | .stamp =>
    -- a retired lane registers nothing
    if b.negotiates && b.processor.connected && !b.gate.retired then
      some { b with processor := { b.processor with stamped := some b.gate.epoch } }
    else none
  | .register =>
    match b.processor.stamped with
    | none => none
    | some epoch =>
      if b.negotiates then
        some { b with
          registrations := b.registrations ++ [⟨epoch, true, [], none⟩]
          processor := { b.processor with stamped := none } }
      else none
  | .answerStart =>
    if b.negotiates && b.processor.connected && b.processor.stamped.isNone then
      some { b with processor := { b.processor with
        negotiating := false, answers := b.processor.answers ++ [.utxoProcStart] } }
    else none
  | .answerError drops =>
    if b.negotiates && b.processor.stamped.isNone && (!drops || b.undelivering) then
      some { b with processor := { b.processor with
        negotiating := false
        connected := b.processor.connected && !drops
        answers := b.processor.answers ++ [.utxoProcError] } }
    else none
  | .takeFrame =>
    if b.polls then
      match b.processor.queue with
      | [] => none
      | notification :: rest =>
        some { b with processor := { b.processor with queue := rest, handling := some notification } }
    else none
  | .finishFrame => some { b with processor := { b.processor with handling := none } }
  | .die => some { b with processor := { b.processor with handling := none, ended := true } }
  | .stop =>
    if b.gate.retired && b.polls then
      some { b with processor := { b.processor with connected := false, ended := true } }
    else none
  | .offer i notification =>
    match b.registrations[i]? with
    | none => none
    | some registration =>
      if registration.live && b.alive notification then
        some (b.setRegistration i { registration with offered := registration.offered ++ [notification] })
      else none
  | .fallSilent i =>
    match b.registrations[i]? with
    | none => none
    | some registration =>
      some (b.setRegistration i { registration with live := false })
  | .letIn i now =>
    match b.registrations[i]? with
    | none => none
    | some registration =>
      match registration.offered, registration.passed with
      | notification :: rest, none =>
        match b.gate.admitNotification b.released now registration.epoch notification with
        | none => some (b.setRegistration i { registration with offered := rest })
        | some (_, gate) =>
          some (Boundary.setRegistration { b with gate := gate } i
            { registration with offered := rest, passed := some notification })
      | _, _ => none
  | .pass i =>
    match b.registrations[i]? with
    | none => none
    | some registration =>
      match registration.passed with
      | none => none
      | some notification =>
        some (Boundary.setRegistration
          { b with processor := { b.processor with queue := b.processor.queue ++ [notification] } } i
          { registration with passed := none })
  | .release added =>
    if b.holds added then none else some { b with released := insert added b.released }

end Boundary

end Kaspaverse.WalletLane
