import Mathlib
import Kaspaverse.Library.Machine
import Kaspaverse.Library.Emitted
import Kaspaverse.Link.Silence

namespace Kaspaverse.Link

/-- Empty rounds a swap hunt spends before it keeps its incumbent. -/
def SWAP_HUNT_ROUNDS : Nat := 3

/-- Why a swap hunt runs. -/
inductive SwapWhy
  | asked
  | silent (gen ticks asked : Nat)
  | moved (gen asked : Nat) (tapped : Bool)
deriving DecidableEq

/-- What a race loop is for. -/
inductive RaceMode
  | cold
  | swap (incumbent : String) (why : SwapWhy)
deriving DecidableEq

/-- What became of a winner at the gate. -/
inductive Held
  | install
  | standDown
  | stale
deriving DecidableEq

inductive RetireCause
  | silenceSwap
  | networkSwap
  | superseded
deriving DecidableEq

/-- The installed socket, with its task's clock. -/
structure BoundSocket where
  gen : Nat
  url : String
  connectedMonoMs : Nat
  lastTickMonoMs : Nat
  ticks : Nat
  swapDue : Bool
  announced : Bool
  silence : SilenceClock
deriving DecidableEq

def BoundSocket.fresh (gen : Nat) (url : String) : BoundSocket := ⟨gen, url, 0, 0, 0, false, false, .down⟩

/-- Where a race loop waits. -/
inductive RacePlace
  /-- spawned, or in its retry pause -/
  | pausing
  | racing
  /-- and when the winner's probe goes stale -/
  | holding (winner : String) (stale : Nat)
  | dialing (gen : Nat)
deriving DecidableEq

structure Hunt where
  mode : RaceMode
  emptyRounds : Nat
  place : RacePlace
deriving DecidableEq

inductive NetworkEvent
  | lost
  | available
  | moved
  | changed
deriving DecidableEq

/-- What `on_connected` made of the socket. -/
inductive Came
  | refused
  | unsubscribed
  | published
deriving DecidableEq

/-- The monitor with no node pinned. Its tasks take turns: a step is what one of them does between two of its
    awaits. -/
structure DagMonitor where
  monoMs : Nat
  paused : Bool
  isConnected : Bool
  bound : Option BoundSocket
  nextGen : Nat
  swapsAsked : Nat
  networkMovedMonoMs : Nat
  networkLostPending : Bool
  silenceBackoff : Nat
  hunt : Option Hunt
deriving DecidableEq

def degradeLostSwap (mode : RaceMode) (connected : Bool) : RaceMode :=
  match mode with
  | .swap _ _ => if connected then mode else .cold
  | .cold => .cold

/-- The URLs that a round may not dial. -/
def roundExclusions (demoted : List String) : RaceMode → List String
  | .cold => demoted
  | .swap _ (.moved _ _ false) => demoted
  | .swap incumbent _ => incumbent :: demoted

def swapHuntExhausted (mode : RaceMode) (emptyRounds : Nat) (incumbentAlive joined : Bool) : Bool :=
  incumbentAlive && !joined && decide (mode ≠ .cold) && decide (SWAP_HUNT_ROUNDS ≤ emptyRounds)

def silentIncumbentSpokeAgain (ticksNow ticksAtStart quiet : Nat) : Bool :=
  decide (ticksAtStart < ticksNow) && decide (quiet < SILENCE_DEADLINE)

namespace DagMonitor

/-- `start` has asked for its first hunt. -/
def start : DagMonitor := ⟨1, false, false, none, 0, 0, 0, false, 0, some ⟨.cold, 0, .pausing⟩⟩

section Reads

variable (s : DagMonitor)

def currentBind (gen : Nat) : Option BoundSocket := s.bound.filter fun bind => decide (bind.gen = gen)

def mayBindFromRace : RaceMode → Bool
  | .cold => !s.paused && !s.isConnected
  | .swap _ _ => !s.paused

def networkMovedUnder (bind : BoundSocket) : Bool :=
  decide (s.networkMovedMonoMs ≠ 0) && decide (bind.connectedMonoMs < s.networkMovedMonoMs)

def silenceHuntWasAsked (asked : Nat) : Bool := decide (s.swapsAsked ≠ asked)

def silenceDeadline : Option Nat := silenceDeadlineAfter s.silenceBackoff

def silentIncumbentIsBack : RaceMode → Bool
  | .swap _ (.silent gen ticks asked) =>
    !s.silenceHuntWasAsked asked && (s.currentBind gen).any fun bind =>
      !s.networkMovedUnder bind && silentIncumbentSpokeAgain bind.ticks ticks (s.monoMs - bind.lastTickMonoMs)
  | _ => false

/-- A silence hunt, or a moved network's, that a tap has joined. -/
def joinedByTap : RaceMode → Option RaceMode
  | .swap incumbent (.silent _ _ asked) =>
    if s.silenceHuntWasAsked asked then some (.swap incumbent .asked) else none
  | .swap incumbent (.moved gen asked false) =>
    if s.silenceHuntWasAsked asked then some (.swap incumbent (.moved gen s.swapsAsked true)) else none
  | _ => none

/-- A swap hunt whose incumbent is on a network the phone has left. -/
def recastIfMoved : RaceMode → Option RaceMode
  | .swap _ (.moved _ _ _) => none
  | .swap incumbent why =>
    (s.bound.filter fun bind => decide (bind.url = incumbent) && s.networkMovedUnder bind).map fun bind =>
      .swap incumbent (.moved bind.gen
        (match why with
          | .silent _ _ asked => asked
          | _ => s.swapsAsked)
        (decide (why = .asked)))
  | .cold => none

def swapHuntSpent (mode : RaceMode) (emptyRounds : Nat) : Bool :=
  swapHuntExhausted mode emptyRounds s.isConnected ((s.joinedByTap mode).isSome || (s.recastIfMoved mode).isSome)

def tapRulesOut (mode : RaceMode) (winner : String) : Bool :=
  (s.joinedByTap mode).any fun theirs => decide (winner ∈ roundExclusions [] theirs)

def installGate (mode : RaceMode) : Option Held :=
  if !s.mayBindFromRace mode then some .standDown
  else match mode with
    | .swap _ (.silent gen _ _) =>
      if (s.joinedByTap mode).isSome then some .install
      else if s.silentIncumbentIsBack mode then some .standDown
      else match (s.currentBind gen).filter fun _ => s.isConnected with
        | none => some .install
        | some bind => if bind.swapDue || s.networkMovedUnder bind then some .install else none
    | _ => some .install

def retireCause : RaceMode → RetireCause
  | .swap _ (.silent _ _ asked) =>
    if s.silenceHuntWasAsked asked then .superseded
    else if s.bound.any s.networkMovedUnder then .networkSwap else .silenceSwap
  | .swap _ (.moved _ _ _) => .networkSwap
  | _ => .superseded

/-- A race loop's head: where it goes from there, or that it ends. -/
def head (mode : RaceMode) (emptyRounds : Nat) : Option Hunt :=
  let degraded := degradeLostSwap mode s.isConnected
  let spent := if degraded = mode then emptyRounds else 0
  if !s.mayBindFromRace degraded then none
  else if s.silentIncumbentIsBack degraded then none
  else
    let theirs := (s.joinedByTap degraded).getD degraded
    let spent := if (s.joinedByTap degraded).isSome then 0 else spent
    some ⟨(s.recastIfMoved theirs).getD theirs, if (s.recastIfMoved theirs).isSome then 0 else spent, .racing⟩

end Reads

section Writes

variable (s : DagMonitor)

def retireBind : DagMonitor := match s.bound with
  | none => s
  | some _ => { s with bound := none, isConnected := false }

/-- Spawn a race loop unless one is hunting. A kick is a retry pause or a hold that ends early. -/
def spawnRaceWith (mode : RaceMode) : DagMonitor := match s.hunt with
  | some _ => s
  | none => { s with hunt := some ⟨mode, 0, .pausing⟩ }

def hardReconnect : DagMonitor := s.retireBind.spawnRaceWith .cold

def noteSilenceSwapLanded : DagMonitor := { s with silenceBackoff := s.silenceBackoff + 1 }

/-- What an install retires, and what it counts against the silence's budget. -/
def retireLeaving (mode : RaceMode) : DagMonitor :=
  if s.retireCause mode = .silenceSwap ∧ s.bound.isSome then s.retireBind.noteSilenceSwapLanded else s.retireBind

/-- Install a winner, its incumbent retired first, or find that no client can be made for it. -/
def installBindLeaving (winner : String) (mode : RaceMode) (armed : Bool) : DagMonitor :=
  if armed then
    { s.retireLeaving mode with
      nextGen := s.nextGen + 1
      bound := some (.fresh (s.nextGen + 1) winner)
      hunt := some ⟨mode, 0, .dialing (s.nextGen + 1)⟩ }
  else { s.retireLeaving mode with hunt := (s.retireLeaving mode).head mode 0 }

/-- A winner after its round, and each time its hold wakes. -/
def follow (mode : RaceMode) (winner : String) (hold : RacePlace) (armed : Bool) : Option Held → DagMonitor
  | none => { s with hunt := some ⟨mode, 0, hold⟩ }
  | some .standDown => { s with hunt := none }
  | some .stale => { s with hunt := s.head mode 0 }
  | some .install =>
    if s.tapRulesOut mode winner then { s with hunt := s.head mode 0 }
    else s.installBindLeaving winner mode armed

/-- Available after a loss, or a move: the phone has left the network it was on. -/
def noteNetwork (event : NetworkEvent) : DagMonitor :=
  if event = .moved ∨ s.networkLostPending then
    { s with networkLostPending := false, networkMovedMonoMs := s.monoMs }
  else { s with networkLostPending := false }

def huntOffMovedNetwork : DagMonitor := match s.bound with
  | none => s
  | some bind => s.spawnRaceWith (.swap bind.url (.moved bind.gen s.swapsAsked false))

/-- What a new default network is answered with. -/
def onNetwork : DagMonitor :=
  if s.paused then s
  else if s.isConnected then if s.bound.any s.networkMovedUnder then s.huntOffMovedNetwork else s
  else s.spawnRaceWith .cold

def networkEvent (event : NetworkEvent) : DagMonitor := match event with
  | .lost => { s with networkLostPending := true }
  | .changed => s
  | _ => (s.noteNetwork event).onNetwork

/-- The user's tap: `reconnect` with no stall claimed. -/
def tap : DagMonitor :=
  let live := { s with paused := false }
  match live.bound.filter fun _ => live.isConnected with
  | none => live.hardReconnect
  | some bind => { live with swapsAsked := live.swapsAsked + 1 }.spawnRaceWith (.swap bind.url .asked)

/-- The watchdog's claim, of a socket silent so far as its wall clocks say. -/
def stalled (silent : Bool) : DagMonitor :=
  let live := { s with paused := false }
  if live.bound.isNone || !live.isConnected then live.spawnRaceWith .cold
  else if silent then live.retireBind.hardReconnect
  else live

def onConnected (bind : BoundSocket) : Came → DagMonitor
  | .refused => s.retireBind.spawnRaceWith .cold
  | .unsubscribed => s
  | .published =>
    { s with
      isConnected := true
      bound := some { bind with connectedMonoMs := s.monoMs, announced := true, silence := .up s.monoMs } }

def onDisconnected (bind : BoundSocket) : DagMonitor :=
  let down := { s with bound := some { bind with silence := .down } }
  if !s.isConnected then down
  else if s.paused then down.retireBind
  else down.retireBind.spawnRaceWith .cold

/-- A DAA tick: `mark_tick`, then the clock's. -/
def onTick (bind : BoundSocket) : DagMonitor :=
  { s with
    silenceBackoff := if (bind.silence.tick s.monoMs).2 then 0 else s.silenceBackoff
    bound := some { bind with
      lastTickMonoMs := s.monoMs
      ticks := bind.ticks + 1
      swapDue := false
      silence := (bind.silence.tick s.monoMs).1 } }

/-- A silence's stage falls on the socket. -/
def onStage (bind : BoundSocket) (stage : SilenceStage) : DagMonitor :=
  let fired := { bind with silence := bind.silence.fire stage }
  let mode := RaceMode.swap bind.url (.silent bind.gen bind.ticks s.swapsAsked)
  if !s.isConnected || !bind.announced || s.paused then { s with bound := some fired }
  else match stage with
    | .predial => { s with bound := some fired }.spawnRaceWith mode
    | .swap => { s with bound := some { fired with swapDue := true } }.spawnRaceWith mode

end Writes

/-- What may happen next. A socket's own news is the installed one's: a retired socket's is discarded. -/
inductive Event
  | elapse (ms : Nat)
  | pause
  | resume
  | tap
  | stalled (silent : Bool)
  | hardReconnect
  | network (event : NetworkEvent)
  | connected (came : Came)
  | disconnected
  | tick
  | due (explained : Bool)
  /-- a race loop starts, or its retry pause ends -/
  | round
  /-- a round comes back, with what else it left out -/
  | raced (demoted : List String) (winner : Option String) (armed : Bool)
  /-- a hold wakes -/
  | held (armed : Bool)
  | dialed (came : Bool)
deriving DecidableEq

section Step

variable (s : DagMonitor)

def holdLimit : Nat := PREDIAL_LEAD + s.silenceDeadline.getD SILENCE_DEADLINE

/-- The winner a hunt has in hand at an event, and what becomes of it. -/
def judged : Event → Option (Hunt × String × Option Held)
  | .raced demoted (some winner) _ =>
    (s.hunt.filter fun hunt => decide (hunt.place = .racing ∧ winner ∉ roundExclusions demoted hunt.mode)).map
      fun hunt => (hunt, winner,
        if !s.mayBindFromRace hunt.mode || s.silentIncumbentIsBack hunt.mode then some .standDown
        else s.installGate hunt.mode)
  | .held _ => s.hunt.bind fun hunt => match hunt.place with
    | .holding winner stale => some (hunt, winner,
        (s.installGate hunt.mode).or (if stale ≤ s.monoMs then some .stale else none))
    | _ => none
  | _ => none

def armedOf : Event → Bool
  | .raced _ _ armed => armed
  | .held armed => armed
  | _ => false

/-- An event's winner comes in: for what its hunt ran, and who it is. -/
def comesIn (e : Event) : Option (RaceMode × String) :=
  (s.judged e).bind fun found =>
    if found.2.2 = some .install ∧ s.tapRulesOut found.1.mode found.2.1 = false then some (found.1.mode, found.2.1)
    else none

/-- The socket that an event's winner retires under the silence's own cause. -/
def silenceSwaps (e : Event) : Option Nat :=
  (s.comesIn e).bind fun found =>
    if s.retireCause found.1 = .silenceSwap then s.bound.map BoundSocket.gen else none

/-- The socket that says the link held. -/
def holds : Event → Option Nat
  | .tick => (s.bound.filter fun bind => (bind.silence.tick s.monoMs).2).map BoundSocket.gen
  | _ => none

def step : Event → Option DagMonitor
  | .elapse ms => some { s with monoMs := s.monoMs + ms }
  | .pause => some { s with paused := true }.retireBind
  | .resume =>
    let live := { s with paused := false }
    some (if live.isConnected then live else live.spawnRaceWith .cold)
  | .tap => some s.tap
  | .stalled silent => some (s.stalled silent)
  | .hardReconnect => some s.hardReconnect
  | .network event => some (s.networkEvent event)
  | .connected came => (s.bound.filter fun bind => !bind.announced).map fun bind => s.onConnected bind came
  | .disconnected => s.bound.map s.onDisconnected
  | .tick => s.bound.map s.onTick
  | .due explained => s.bound.bind fun bind => (bind.silence.next s.silenceDeadline).bind fun next =>
    if next.1 ≤ s.monoMs then
      some (if !bind.silence.extended && explained then
          { s with bound := some { bind with silence := bind.silence.extend } }
        else s.onStage bind next.2)
    else none
  | .round => (s.hunt.filter fun hunt => decide (hunt.place = .pausing)).map fun hunt =>
    { s with hunt := s.head hunt.mode hunt.emptyRounds }
  | .raced _ none _ => (s.hunt.filter fun hunt => decide (hunt.place = .racing)).map fun hunt =>
    { s with hunt :=
        if s.swapHuntSpent hunt.mode (hunt.emptyRounds + 1) then none
        else some ⟨hunt.mode, hunt.emptyRounds + 1, .pausing⟩ }
  | .raced demoted (some winner) armed => (s.judged (.raced demoted (some winner) armed)).map fun found =>
    s.follow found.1.mode found.2.1 (.holding found.2.1 (s.monoMs + s.holdLimit)) armed found.2.2
  | .held armed => (s.judged (.held armed)).map fun found =>
    s.follow found.1.mode found.2.1 found.1.place armed found.2.2
  | .dialed came => s.hunt.bind fun hunt => match hunt.place with
    | .dialing gen =>
      some (if came then
          if s.paused then { s.retireBind with hunt := none }
          else if (s.currentBind gen).isSome then { s with hunt := none }
          else { s with hunt := s.head hunt.mode 0 }
        else { s.retireBind with hunt := s.retireBind.head hunt.mode 0 })
    | _ => none

end Step

end DagMonitor

end Kaspaverse.Link
