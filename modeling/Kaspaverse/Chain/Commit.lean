import Mathlib
import Kaspaverse.Library.Machine
import Kaspaverse.Chain.Judgement
import Kaspaverse.Chain.Relaunch

namespace Kaspaverse.Chain

/-- One built transaction of a send. -/
structure PendingTransaction where
  id : TransactionId
  utxoEntries : List UtxoEntryReference
  outputs : List (Nat × Nat × Option Address)
  isFinal : Bool
  deriving DecidableEq

structure PreparedSend where
  pending : List PendingTransaction
  anchorKey : String
  deriving DecidableEq

/-- What a failed submit says. -/
inductive SubmitError
  | missingDaaScore (site : String)
  | general (text : String)
  | other
  deriving DecidableEq

def REGISTER_SITE : String := "register_outgoing_transaction()"

def NO_BOUND_SOCKET : String := "link: no bound socket"

def mayHaveReachedANode : SubmitError → Bool
  | .missingDaaScore site => site != REGISTER_SITE
  | .general text => text != NO_BOUND_SOCKET
  | .other => true

/-- The inputs as the leg's own coins and as outputs of earlier legs. -/
def partitionInputs (coins : List UtxoEntryReference) (earlier : List TransactionId) :
    List UtxoEntryReference × List UtxoEntryReference :=
  coins.partition fun coin =>
    decide (coin.id.transactionId ∉ earlier) && decide (coin.blockDaaScore ≠ unacceptedDaaScore)

namespace PreparedSend

/-- What a build for the same payment carries; nothing for a chain's earlier leg, which pays us. -/
def paidTo (send : PreparedSend) (leg : PendingTransaction) : String :=
  if leg.isFinal then send.anchorKey else ""

def legMeta (send : PreparedSend) (leg : PendingTransaction) (earlier : List TransactionId)
    (now daa : Nat) : LegMeta where
  paidTo := send.paidTo leg
  direct := (partitionInputs leg.utxoEntries earlier).1
  earlier := (partitionInputs leg.utxoEntries earlier).2
  outputs := leg.outputs
  sinceUnixMs := now
  sinceDaa := daa

def unknownLeg (send : PreparedSend) (leg : PendingTransaction) (earlier : List TransactionId)
    (now : Nat) : UnknownLeg where
  txid := leg.id
  paidTo := send.paidTo leg
  held := (partitionInputs leg.utxoEntries earlier).1
  earlier := (partitionInputs leg.utxoEntries earlier).2
  sinceUnixMs := now
  seq := 0

end PreparedSend

/-- How far a commit has got with the leg it is at. -/
inductive Stage
  | signing
  /-- Its record is on its way to the file, as this snapshot. -/
  | recording (generation : Nat)
  | recorded
  | admitted
  | registered
  | requested
  | answered
  /-- The pin's record was looked for; whether it was there. -/
  | noted (kept : Bool)
  | seen (kept : Bool)
  | failed (error : SubmitError)
  /-- The submit failed, and the pin kept its record or never registered the leg. -/
  | passed (error : SubmitError) (kept : Bool)
  | cancelled (error : SubmitError)
  | anchored
  | over
  deriving DecidableEq

namespace Stage

/-- The leg has an entry in the submit log that has not returned. -/
def isOpen : Stage → Bool
  | .signing => false
  | .over => false
  | _ => true

/-- The record of the leg was written. -/
def isRecorded : Stage → Bool
  | .signing => false
  | .recording _ => false
  | .over => false
  | _ => true

/-- The leg's request may have reached a node. -/
def mayHaveReached : Stage → Bool
  | .requested => true
  | .answered => true
  | .noted _ => true
  | .seen _ => true
  | .failed error => mayHaveReachedANode error
  | .passed error _ => mayHaveReachedANode error
  | .cancelled error => mayHaveReachedANode error
  | .anchored => true
  | _ => false

/-- Where a commit waits, and so where it can be dropped. -/
def awaits : Stage → Bool
  | .recording _ => true
  | .recorded => true
  | .admitted => true
  | .registered => true
  | .requested => true
  | .passed _ _ => true
  | .cancelled _ => true
  | _ => false

end Stage

/-- A send on its way out: the legs to go, the current one first, and the txids of those gone. -/
structure Commit where
  send : PreparedSend
  pending : List PendingTransaction
  earlier : List TransactionId
  stage : Stage
  deriving DecidableEq

def Commit.start (send : PreparedSend) : Commit := ⟨send, send.pending, [], .signing⟩

/-- The commit has an open entry of `txid` in the submit log. -/
def Commit.isOpenOn (txid : TransactionId) (commit : Commit) : Bool :=
  commit.stage.isOpen && (commit.pending.head?.map (·.id)) == some txid

inductive CommitStep
  | signFailed
  | begin (now daa generation : Nat)
  | recorded
  | notRecorded (now : Nat)
  | admitted
  | refused (now : Nat)
  | registered (originatingContext : Nat)
  | requested
  | answered
  | failed (error : SubmitError) (kept : Bool)
  | noteTaken
  | ownSendSeen (now : Nat)
  | noteFailed
  | fateUnknown (now : Nat)
  | returned (now : Nat)
  | dropped (now : Nat)

/-- What the fold and the reads of the node's unspent set make of the sends: each is evidence that
    a send landed, was lost, or is watched no more. -/
inductive Evidence
  | leave (txid : TransactionId) (now : Nat)
  | fateSeen (txid : TransactionId) (now : Nat)
  | coinsSpent (coins : List UtxoEntryId) (now : Nat)
  | creatorLost (txid : TransactionId) (now : Nat)
  | doneWith (txid : TransactionId) (now : Nat)
  | settled (txid : TransactionId) (now : Nat)
  | outputsListed (txids : Finset TransactionId) (now : Nat)
  | retireUnknown (spent : UtxoEntryReference → Bool) (before now : Nat)
  | judgeCarried (proven : Finset TransactionId) (gone : Gone) (score now : Nat)

def Evidence.apply (s : InFlightSends) : Evidence → InFlightSends
  | .leave txid now => s.leave txid now
  | .fateSeen txid now => s.fateSeen txid now
  | .coinsSpent coins now => s.coinsSpent coins now
  | .creatorLost txid now => s.creatorLost txid now
  | .doneWith txid now => s.doneWith txid now
  | .settled txid now => s.settled txid now
  | .outputsListed txids now => s.outputsListed txids now
  | .retireUnknown spent before now => s.retireUnknown spent before now
  | .judgeCarried proven gone score now => (s.judgeCarried proven gone score now).2.2

/-- What the fold and the reads write down that settles nothing. -/
inductive Note
  | enter (txid : TransactionId) (send : InFlightSend)
  | accepted (txid : TransactionId) (daa now : Nat)
  | spent (coins : List UtxoEntryId) (daa now : Nat)
  | spentWithheld (score margin now : Nat)
  | takeLanded (key : String) (now : Nat)
  | beginRead
  | endRead (floor : Nat)
  | reopen
  | snapshot

def Note.apply (s : InFlightSends) : Note → InFlightSends
  | .enter txid send => s.enter txid send
  | .accepted txid daa now => s.noteAccepted txid daa now
  | .spent coins daa now => s.noteSpentAt coins daa now
  | .spentWithheld score margin now => (s.spentWithheld score margin now).2
  | .takeLanded key now => (s.takeLanded key now).2
  | .beginRead => s.beginRead.2
  | .endRead floor => s.endRead floor
  | .reopen => s.reopen.2
  | .snapshot => s.pruneMeta

/-- The lane's sends, the processor's records of them and the commits. The last three fields
    watch: the txids a request may have carried to a node with nothing settled since, those whose
    record a commit found at the pin, and those whose records evidence took. -/
structure Lane where
  inFlight : InFlightSends
  outgoing : KeyMap TransactionId OutgoingTransaction
  commits : List Commit
  unsettled : Finset TransactionId
  kept : Finset TransactionId
  dropped : Finset TransactionId

inductive LaneEvent
  | prepared (send : PreparedSend)
  | commit (c : Nat) (step : CommitStep)
  | evidence (evidence : Evidence)
  | note (note : Note)
  /-- The pin announced a send of ours it registered. -/
  | pendingSeen (txid : TransactionId) (now : Nat)
  /-- What frames, ticks, closes and reopens leave in the processor's map. -/
  | processor (outgoing : KeyMap TransactionId OutgoingTransaction)

namespace InFlightSends

def takenTxids (s : InFlightSends) : Finset TransactionId := s.taken.keys.toFinset

/-- The txids under which a record of a leg stands. -/
def recordedTxids (s : InFlightSends) : Finset TransactionId :=
  (s.unknown.map (·.txid)).toFinset ∪ s.takenTxids ∪ s.carried.keys.toFinset

end InFlightSends

namespace Lane

/-- The commit moves to `stage`. -/
def advance (lane : Lane) (c : Nat) (commit : Commit) (stage : Stage) : Lane :=
  { lane with commits := lane.commits.set c { commit with stage := stage } }

/-- The commit is over its leg and at the next. -/
def nextLeg (lane : Lane) (c : Nat) (commit : Commit) (leg : PendingTransaction) : Lane :=
  { lane with
    commits := lane.commits.set c
      { commit with
        pending := commit.pending.tail
        earlier := commit.earlier ++ [leg.id]
        stage := .signing } }

/-- Look for the pin's record of the leg and keep it. -/
def noteTaken (lane : Lane) (leg : PendingTransaction) : Bool × Lane :=
  match lane.outgoing.lookup leg.id with
  | some record =>
    (true,
      { lane with
        inFlight := lane.inFlight.noteTaken record
        kept := insert leg.id lane.kept })
  | none => (false, lane)

def commitStep (lane : Lane) (c : Nat) (commit : Commit) (leg : PendingTransaction) :
    CommitStep → Option Lane
  | .signFailed =>
    if commit.stage = .signing then some (lane.advance c commit .over) else none
  | .begin now daa generation =>
    if commit.stage = .signing then
      let remembered := lane.inFlight.rememberLeg leg.id
        (commit.send.legMeta leg commit.earlier now daa)
      let logged := (remembered.submitting leg.id (ids leg.utxoEntries)).pruneMeta
      some ({ lane with inFlight := logged }.advance c commit (.recording generation))
    else none
  | .recorded =>
    match commit.stage with
    | .recording _ => some (lane.advance c commit .recorded)
    | _ => none
  | .notRecorded now =>
    match commit.stage with
    | .recording _ =>
      some ({ lane with inFlight := lane.inFlight.forgetLeg leg.id now }.advance c commit .over)
    | _ => none
  | .admitted =>
    if commit.stage = .recorded then some (lane.advance c commit .admitted) else none
  | .refused now =>
    if commit.stage = .recorded then
      some ({ lane with inFlight := lane.inFlight.forgetLeg leg.id now }.advance c commit .over)
    else none
  | .registered originatingContext =>
    if commit.stage = .admitted then
      let record := ⟨leg.id, leg.utxoEntries, none, originatingContext⟩
      some ({ lane with outgoing := lane.outgoing.insert leg.id record }.advance c commit .registered)
    else none
  | .requested =>
    if commit.stage = .registered then
      some ({ lane with unsettled := insert leg.id lane.unsettled }.advance c commit .requested)
    else none
  | .answered =>
    if commit.stage = .requested then some (lane.advance c commit .answered) else none
  | .failed error kept =>
    match commit.stage with
    | .admitted =>
      if error = .missingDaaScore REGISTER_SITE then some (lane.advance c commit (.failed error))
      else none
    | .registered =>
      some ({ lane with outgoing := lane.outgoing.erase leg.id }.advance c commit (.failed error))
    | .requested =>
      if mayHaveReachedANode error then
        let outgoing := if kept then lane.outgoing else lane.outgoing.erase leg.id
        some ({ lane with outgoing := outgoing }.advance c commit (.failed error))
      else none
    | _ => none
  | .noteTaken =>
    if commit.stage = .answered then
      let noted := lane.noteTaken leg
      some (noted.2.advance c commit (.noted noted.1))
    else none
  | .ownSendSeen now =>
    match commit.stage with
    | .noted kept =>
      some ({ lane with inFlight := lane.inFlight.ownSendSeen leg.id [] now }.advance c commit
        (.seen kept))
    | _ => none
  | .noteFailed =>
    match commit.stage with
    | .failed error =>
      let noted := lane.noteTaken leg
      if noted.1 = true ∨ error = .missingDaaScore REGISTER_SITE then
        some (noted.2.advance c commit (.passed error noted.1))
      else
        some ({ lane with inFlight := lane.inFlight.noteCancelled leg.id leg.utxoEntries }.advance c
          commit (.cancelled error))
    | _ => none
  | .fateUnknown now =>
    match commit.stage with
    | .cancelled error =>
      if mayHaveReachedANode error then
        let unknown := commit.send.unknownLeg leg commit.earlier now
        some ({ lane with inFlight := lane.inFlight.fateUnknown unknown }.advance c commit .anchored)
      else none
    | _ => none
  | .returned now =>
    match commit.stage with
    | .seen _ =>
      some ({ lane with inFlight := lane.inFlight.submitReturned leg.id true now }.nextLeg c commit leg)
    | .anchored =>
      some ({ lane with inFlight := lane.inFlight.submitReturned leg.id true now }.advance c commit
        .over)
    | .cancelled error =>
      if mayHaveReachedANode error then none
      else
        some ({ lane with inFlight := lane.inFlight.submitReturned leg.id false now }.advance c commit
          .over)
    | .passed error _ =>
      some ({ lane with
        inFlight := lane.inFlight.submitReturned leg.id (mayHaveReachedANode error) now }.advance c
          commit .over)
    | _ => none
  | .dropped now =>
    if commit.stage.awaits then
      some ({ lane with inFlight := lane.inFlight.submitReturned leg.id true now }.advance c commit
        .over)
    else none

/-- What evidence does to the lane: a leg whose last record it takes is settled. -/
def evidence (lane : Lane) (evidence : Evidence) : Lane :=
  let after := evidence.apply lane.inFlight
  { lane with
    inFlight := after
    unsettled := lane.unsettled \ (lane.inFlight.recordedTxids \ after.recordedTxids)
    dropped := lane.dropped ∪ (lane.inFlight.takenTxids \ after.takenTxids) }

def step (lane : Lane) : LaneEvent → Option Lane
  | .prepared send => some { lane with commits := lane.commits ++ [.start send] }
  | .commit c step =>
    match lane.commits[c]? with
    | none => none
    | some commit => commit.pending.head?.bind fun leg => lane.commitStep c commit leg step
  | .evidence evidence => some (lane.evidence evidence)
  | .note note => some { lane with inFlight := note.apply lane.inFlight }
  | .pendingSeen txid now =>
    some { lane with inFlight := lane.inFlight.ownSendSeen txid [] now }
  | .processor outgoing =>
    if ∀ entry ∈ outgoing.entries, entry.2.id = entry.1 then some { lane with outgoing := outgoing }
    else none

end Lane

end Kaspaverse.Chain
