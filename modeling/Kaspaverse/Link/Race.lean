import Mathlib.Data.Finset.Insert
import Kaspaverse.Library.KeyedMap
import Kaspaverse.Library.Machine
import Kaspaverse.Link.Failure

namespace Kaspaverse.Link

open Core

/-- How long a first answer waits for a faster one, in milliseconds. -/
def PREFER_GRACE : Nat := 250

/-- A healthy endpoint found by a probe. -/
structure ProbeOutcome where
  url : Text
  serverVersion : Text
  virtualDaaScore : Nat
  rpcApiVersion : Nat
  infoMs : Nat
deriving DecidableEq

structure RaceOutcome where
  winner : Option ProbeOutcome
  failed : List (Text × StrikeReason)
  notes : List (Text × Text)
  answered : Nat
deriving DecidableEq

/-- The endpoint to strike if the node is what failed, a note, and whether anything answered. -/
structure RaceLoss where
  struck : Option (Text × StrikeReason)
  note : Option (Text × Text)
  answered : Bool

/-- What a round is given. -/
structure Entry where
  cached : Option Text
  pantry : List Text
  excluded : Finset Text
  fetches : Nat
  prefer : KeyMap Text Nat

/-- What dials a task: the round itself, or a walk of the resolver. -/
inductive Lane
  | immediate
  | fetched
deriving DecidableEq

inductive Phase
  /-- Losses are collected until the first healthy answer. -/
  | collecting (outcome : RaceOutcome) (finished : Finset Text)
  /-- A first answer waits for a better one. -/
  | grace (outcome : RaceOutcome) (waiting : List Text) (best : ProbeOutcome) (bestRank : Option Nat) (deadline : Nat)
  | returned (outcome : RaceOutcome)

/-- A round under way. `probed` lists the calls of the prober, first to last. -/
structure Round where
  clock : Nat
  seen : Finset Text
  walking : Nat
  dialing : KeyMap Text Lane
  probed : List Text
  phase : Phase

/-- A task's end, as the round is handed it, or the end of the wait. -/
inductive Happening
  | walkFailed (text : Text)
  | walkNamed (url : Text)
  | probeFailed (url : Text) (text : Text)
  | probeHealthy (outcome : ProbeOutcome)
  | graceOver
  | drained

structure Event where
  now : Nat
  what : Happening

namespace Entry

/-- The cached endpoint and the pantry, each address once and none that is excluded. -/
def immediate (entry : Entry) : List Text :=
  ((entry.cached.toList ++ entry.pantry).filter fun url => decide (url ∉ entry.excluded)).foldl
    (fun entered url => if url ∈ entered then entered else entered ++ [url]) []

def rankOf (entry : Entry) (url : Text) : Option Nat := entry.prefer.lookup url

/-- A rank that goes before the best one so far. -/
def better (rank : Nat) (bestRank : Option Nat) : Bool := bestRank.all fun best => decide (rank < best)

/-- The immediate candidates still in flight that rank before an answer. -/
def waiting (entry : Entry) (url : Text) (finished : Finset Text) : List Text :=
  entry.immediate.filter fun other =>
    decide (other ≠ url ∧ other ∉ finished) &&
      (entry.rankOf other).any fun rank => better rank (entry.rankOf url)

end Entry

namespace Phase

def lose (loss : RaceLoss) : Phase → Phase
  | collecting outcome finished =>
    collecting
      { outcome with
        failed := outcome.failed ++ loss.struck.toList
        notes := outcome.notes ++ loss.note.toList
        answered := outcome.answered + if loss.answered then 1 else 0 }
      (loss.struck.elim finished fun struck => insert struck.1 finished)
  | phase => phase

def win (entry : Entry) (now : Nat) (found : ProbeOutcome) : Phase → Phase
  | collecting outcome finished =>
    let waiting := entry.waiting found.url finished
    if waiting = [] then returned { outcome with winner := some found }
    else grace outcome waiting found (entry.rankOf found.url) (now + PREFER_GRACE)
  | grace outcome waiting best bestRank deadline =>
    if found.url ∈ waiting then
      match entry.rankOf found.url with
      | some rank =>
        if Entry.better rank bestRank then grace outcome waiting found (some rank) deadline
        else grace outcome waiting best bestRank deadline
      | none => grace outcome waiting best bestRank deadline
    else grace outcome waiting best bestRank deadline
  | phase => phase

/-- The wait ends. -/
def close : Phase → Phase
  | collecting outcome _ => returned outcome
  | grace outcome _ best _ _ => returned { outcome with winner := some best }
  | phase => phase

end Phase

namespace Round

def start (entry : Entry) : Round where
  clock := 0
  seen := entry.immediate.toFinset
  walking := entry.fetches
  dialing := .ofRows (entry.immediate.map fun url => (url, .immediate))
  probed := entry.immediate
  phase := .collecting ⟨none, [], [], 0⟩ ∅

/-- A walk that ends without a dial. -/
def miss (round : Round) (loss : RaceLoss) : Round :=
  { round with walking := round.walking - 1, phase := round.phase.lose loss }

/-- A walk ends in the address it named, which is dialed if it is clean, not excluded and new. -/
def take (entry : Entry) (round : Round) (url : Text) : Round :=
  if candidateUrlIsClean url = false then
    round.miss ⟨none, some ("resolver".toList, "rejected: malformed url".toList), true⟩
  else if url ∈ entry.excluded then
    round.miss ⟨none, some (sanitizeNodeText (endpointHost url), "skipped: excluded".toList), true⟩
  else if url ∈ round.seen then round.miss ⟨none, none, true⟩
  else
    { round with
      walking := round.walking - 1
      seen := insert url round.seen
      dialing := round.dialing.insert url .fetched
      probed := round.probed ++ [url] }

def probeLoss (lane : Lane) (url text : Text) : RaceLoss :=
  let host := sanitizeNodeText (endpointHost url)
  match lane with
  | .immediate =>
    ⟨some (url, .classifyProbeFailure text), some (host ++ "[imm]".toList, compactReason text), !failedAtTheDial text⟩
  | .fetched => ⟨some (url, .classifyProbeFailure text), some (host, compactReason text), true⟩

def idle (round : Round) : Bool := round.walking == 0 && round.dialing.entries.isEmpty

/-- One event of a round, where it can happen. -/
def happen (entry : Entry) (round : Round) (now : Nat) : Happening → Option Round
  | .walkFailed text =>
    if round.walking = 0 then none
    else some (round.miss ⟨none, some ("resolver".toList, compactReason text), aWalkAnswered text⟩)
  | .walkNamed url => if round.walking = 0 then none else some (round.take entry url)
  | .probeFailed url text => (round.dialing.lookup url).map fun lane =>
    { round with dialing := round.dialing.erase url, phase := round.phase.lose (probeLoss lane url text) }
  | .probeHealthy found => (round.dialing.lookup found.url).map fun _ =>
    { round with dialing := round.dialing.erase found.url, phase := round.phase.win entry now found }
  | .graceOver => match round.phase with
    | .grace _ _ _ _ deadline => if deadline ≤ now then some { round with phase := round.phase.close } else none
    | _ => none
  | .drained => match round.phase with
    | .returned _ => none
    | _ => if round.idle then some { round with phase := round.phase.close } else none

def step (entry : Entry) (round : Round) (event : Event) : Option Round :=
  if event.now < round.clock then none else happen entry { round with clock := event.now } event.now event.what

end Round

end Kaspaverse.Link
