import Kaspaverse.Lane.Boundary

namespace Kaspaverse.WalletLane

inductive NotAdmitted
  | retired
  | notReady
  deriving DecidableEq

/-- Which of the three readiness checks a submit is at. -/
inductive Place
  | first
  /-- with the fence's guard -/
  | fenced
  /-- with the guard, behind the wait for the notification lock -/
  | locked
  deriving DecidableEq

/-- How far `is_ready` has read. -/
inductive Reading
  | closing
  | connected
  | opens
  | folded (opens : Nat)
  | failed (opens folded : Nat)
  deriving DecidableEq

/-- Where one `admit_submit` is, up to the return of the submit it admitted. -/
inductive SubmitStep
  | looping
  | checking (place : Place) (reading : Reading)
  | waiting
  | queued
  | fencing
  | locking
  | admitted
  | refused (why : NotAdmitted)
  | returned
  deriving DecidableEq

namespace SubmitStep

/-- The submit has the fence's read guard. -/
def guards : SubmitStep → Bool
  | fencing | locking | admitted | checking .fenced _ | checking .locked _ => true
  | _ => false

def ready : Place → SubmitStep
  | .first => queued
  | .fenced => locking
  | .locked => admitted

/-- Not ready: the loop again, or, before the fence, the wait for a change. -/
def unready : Place → SubmitStep
  | .first => waiting
  | .fenced | .locked => looping

end SubmitStep

/-- Who waits for the fence, in the order they came. -/
inductive Waiter
  | submit (i : Nat)
  | close
  | stop
  deriving DecidableEq

/-- A close's claim on the write side: its task spawned, queued, or its guard sent to the relay. -/
inductive Claim
  | none
  | spawned
  | queued
  | granted
  deriving DecidableEq

/-- A stop's claim, held across the pinned `stop()` until that returns or times out. -/
inductive StopStep
  | idle
  | queued
  | held
  | over_
  deriving DecidableEq

structure Lane where
  boundary : Boundary
  relaying : Bool
  closing : Bool
  opens : Nat
  opensFailed : Nat
  startsFolded : Nat
  /-- the starts announced that the fold has not followed through -/
  starts : Nat
  fence : List Waiter
  claim : Claim
  fenceHeld : Bool
  stop : StopStep
  submits : List SubmitStep
  deriving DecidableEq

inductive LaneEvent
  | boundary (event : BoundaryEvent)
  /-- the relay's task is dropped where it waits -/
  | dropRelay
  | claimQueues
  | grant
  | takeClaim
  | stopQueues
  | stopGivesUp
  | stopEnds
  | startFolded
  | submit
  /-- the submit's next read, or its place in the fence's queue -/
  | advance (i : Nat)
  /-- the notification lock is free -/
  | lock (i : Nat)
  | wake (i : Nat)
  | expire (i : Nat)
  | finish (i : Nat)
  deriving DecidableEq

namespace Lane

def start : Lane where
  boundary := .start
  relaying := true
  closing := false
  opens := 0
  opensFailed := 0
  startsFolded := 0
  starts := 0
  fence := []
  claim := .none
  fenceHeld := false
  stop := .idle
  submits := []

def setSubmit (lane : Lane) (i : Nat) (step : SubmitStep) : Lane :=
  { lane with submits := lane.submits.set i step }

/-- No one has the fence's write side. -/
def unwritten (lane : Lane) : Bool :=
  !lane.fenceHeld && decide (lane.claim ≠ .granted) && decide (lane.stop ≠ .held)

/-- No submit has the fence's read side. -/
def unread (lane : Lane) : Bool := lane.submits.all fun step => !step.guards

/-- One read of `is_ready`. -/
def read (lane : Lane) (place : Place) : Reading → SubmitStep
  | .closing => if lane.closing then .unready place else .checking place .connected
  | .connected => if lane.boundary.processor.connected then .checking place .opens else .unready place
  | .opens => .checking place (.folded lane.opens)
  | .folded opens => .checking place (.failed opens lane.startsFolded)
  | .failed opens folded => if opens ≤ folded + lane.opensFailed then .ready place else .unready place

/-- What the relay's own steps do beside the boundary. -/
def relayed (lane : Lane) (boundary : Boundary) : Lane :=
  match lane.boundary.step, boundary.step with
  | .idle, .opening => { lane with boundary := boundary, closing := false }
  | .idle, _ => { lane with boundary := boundary, closing := true }
  | .counting, _ => { lane with boundary := boundary, opens := lane.opens + 1 }
  | .severing, _ => { lane with boundary := boundary, claim := .spawned }
  | .delivering false, _ => { lane with boundary := boundary, fenceHeld := false }
  | _, _ => { lane with boundary := boundary }

/-- What the relay does with an event it reads. -/
def received (lane : Lane) (boundary : Boundary) : Lane :=
  match lane.boundary.step, lane.boundary.processor.answers.head? with
  | .awaitingOpen, some .utxoProcError => { lane with boundary := boundary, opensFailed := lane.opensFailed + 1 }
  | .awaitingStop, some .utxoProcStop => { lane with boundary := boundary, fenceHeld := false }
  | _, _ => { lane with boundary := boundary }

def bounded (lane : Lane) (mayDrop : Bool) (event : BoundaryEvent) : Option Lane :=
  (lane.boundary.apply event).bind fun boundary =>
    match event with
    | .relay => if lane.relaying then some (lane.relayed boundary) else none
    | .deliver => if lane.relaying && lane.fenceHeld then some { lane with boundary := boundary } else none
    | .receive => if lane.relaying then some (lane.received boundary) else none
    | .answerStart => some { lane with boundary := boundary, starts := lane.starts + 1 }
    | .answerError drops => if drops && !mayDrop then none else some { lane with boundary := boundary }
    | .stop =>
      if lane.stop = .held ∨ lane.stop = .over_ then some { lane with boundary := boundary } else none
    | _ => some { lane with boundary := boundary }

/-- The fence goes to the first who waits for it, once what they want is free. -/
def granted (lane : Lane) : Option Lane :=
  match lane.fence with
  | [] => none
  | .submit i :: rest =>
    if lane.unwritten && decide (lane.submits[i]? = some .queued) then
      some (Lane.setSubmit { lane with fence := rest } i .fencing)
    else none
  | .close :: rest =>
    if lane.unwritten && lane.unread then
      -- a relay that is gone drops the guard
      some { lane with fence := rest, claim := if lane.relaying then .granted else .none }
    else none
  | .stop :: rest =>
    if lane.unwritten && lane.unread then some { lane with fence := rest, stop := .held } else none

def advanced (lane : Lane) (i : Nat) : Option Lane :=
  match lane.submits[i]? with
  | some .looping =>
    some (lane.setSubmit i (if lane.boundary.gate.retired then .refused .retired else .checking .first .closing))
  | some (.checking place reading) =>
    let next := lane.read place reading
    some (Lane.setSubmit { lane with fence := if next = .queued then lane.fence ++ [.submit i] else lane.fence } i next)
  | some .fencing =>
    some (lane.setSubmit i (if lane.boundary.gate.retired then .refused .retired else .checking .fenced .closing))
  | _ => none

def expired (lane : Lane) (i : Nat) : Option Lane :=
  match lane.submits[i]? with
  | some .waiting | some .locking => some (lane.setSubmit i (.refused .notReady))
  | some .queued =>
    some (Lane.setSubmit { lane with fence := lane.fence.filter (· ≠ .submit i) } i (.refused .notReady))
  | _ => none

/-- `mayDrop` says whether a failed negotiation may lower the processor's flag again. -/
def step (mayDrop : Bool) (lane : Lane) : LaneEvent → Option Lane
  | .boundary event => lane.bounded mayDrop event
  | .dropRelay =>
    if lane.relaying && lane.boundary.gate.retired && lane.boundary.step.selects then
      some { lane with
        relaying := false
        fenceHeld := false
        claim := if lane.claim = .granted then .none else lane.claim }
    else none
  | .claimQueues =>
    if lane.claim = .spawned then some { lane with claim := .queued, fence := lane.fence ++ [.close] } else none
  | .grant => lane.granted
  | .takeClaim =>
    if lane.relaying && decide (lane.boundary.step = .draining) && decide (lane.claim = .granted) then
      some { lane with claim := .none, fenceHeld := true }
    else none
  | .stopQueues =>
    if lane.boundary.gate.retired && decide (lane.stop = .idle) then
      some { lane with stop := .queued, fence := lane.fence ++ [.stop] }
    else none
  | .stopGivesUp =>
    if lane.stop = .queued then
      some { lane with stop := .idle, fence := lane.fence.filter (· ≠ .stop) }
    else none
  | .stopEnds => if lane.stop = .held then some { lane with stop := .over_ } else none
  | .startFolded =>
    if lane.starts = 0 then none
    else some { lane with starts := lane.starts - 1, startsFolded := lane.startsFolded + 1 }
  | .submit => some { lane with submits := lane.submits ++ [.looping] }
  | .advance i => lane.advanced i
  | .lock i =>
    if lane.submits[i]? = some .locking then some (lane.setSubmit i (.checking .locked .closing)) else none
  | .wake i => if lane.submits[i]? = some .waiting then some (lane.setSubmit i .looping) else none
  | .expire i => lane.expired i
  | .finish i => if lane.submits[i]? = some .admitted then some (lane.setSubmit i .returned) else none

end Lane

end Kaspaverse.WalletLane
