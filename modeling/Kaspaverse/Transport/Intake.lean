import Kaspaverse.Transport.Store

namespace Kaspaverse.Transport

/-- Where an inbound event came from: our node's walk, or an archive. -/
inductive EventOrigin
  | node
  | fill
deriving DecidableEq

def EventOrigin.rowSource : EventOrigin → RowSource
  | .node => .nodeScanned
  | .fill => .fillSourced

/-- Why an inbound event never became a stored row. -/
inductive DropReason
  | noTxid
  | alreadyStored
  | notAddressedToUs
  | malformedCommHead
  | malformedEnvelope
  | vaultLocked
  | noKeyOpensIt
  | undecodablePayload
  | dismissedInvitation
  | noConversationForAlias
  | storeRace
  | storeFailed
  | stashRefusedCollision
  | conversationAlreadyKnown
  | acceptanceUnverified
  | stashNotOurs
  | blockedContact
  | senderPending
  | revivalBudgetSpent
  | senderNotContact
deriving DecidableEq

inductive FoldOutcome
  | recorded
  | settled
  | held
  | locked
deriving DecidableEq

/-- Does a fill cursor hold at this row? -/
def FoldOutcome.holds : FoldOutcome → Bool
  | .held | .locked => true
  | _ => false

/-- Whether a fill cursor may advance past a row that dropped for this reason. -/
def DropReason.outcome : DropReason → FoldOutcome
  | .vaultLocked => .locked
  | .storeRace | .storeFailed | .notAddressedToUs => .held
  | _ => .settled

/-- What the vault answers when it does not open an envelope. -/
inductive OpenError
  | vaultLocked
  | transportOpen
  | other (what : String)
deriving DecidableEq

def decryptDrop : OpenError → DropReason
  | .vaultLocked => .vaultLocked
  | _ => .noKeyOpensIt

/-- A key of the watched window. -/
abbrev KeySlot := KeyBranch × Nat

/-- Who may write in a conversation's thread. -/
inductive CommSenderVerdict
  | contact
  | notContact
  | awaitSender
  | awaitContact
deriving DecidableEq

def commSenderVerdict (origin : EventOrigin) (sender : Option String) (contactAddress : String) :
    CommSenderVerdict :=
  match sender with
  | some sender =>
    if contactAddress ≠ "" ∧ sender = contactAddress then .contact
    else if contactAddress = "" ∧ origin = .node then .awaitContact
    else .notContact
  | none => if origin = .node then .awaitSender else .notContact

/-- What may be done with an acceptance that echoes one of our aliases. -/
inductive AcceptanceVerdict
  | complete
  | notOurContact
  | awaitSender
  | refuse
deriving DecidableEq

def acceptanceVerdict (origin : EventOrigin) (resolvedSender : Option String) (contactAddress : String) :
    AcceptanceVerdict :=
  if origin ≠ .node then .refuse
  else
    match resolvedSender with
    | some sender => if contactAddress ≠ "" ∧ sender = contactAddress then .complete else .notOurContact
    | none => .awaitSender

def mayUnhide (status : ConversationStatus) (tombstoned : Bool) : Bool :=
  tombstoned && decide (status ≠ .pendingInbound)

/-- Is this inbound comm addressed to an invitation the user dismissed? -/
def commIsDismissed (status : ConversationStatus) (tombstoned : Bool) : Bool :=
  tombstoned && decide (status = .pendingInbound)

/-- Why an unroutable comm may not even be tried for revival. -/
def revivalRefusal (origin : EventOrigin) (alreadyParked budget : Bool) : Option DropReason :=
  if origin ≠ .node then some .noConversationForAlias
  else if alreadyParked then some .senderPending
  else if budget = false then some .revivalBudgetSpent
  else none

/-- The row a node event may replace: an archive's claim, or one older than provenance. -/
def overridable (origin : EventOrigin) (row : MessageRecord) : Bool :=
  decide (origin = .node ∧ row.direction = .inbound ∧
    (row.provenance = .fillSourced ∨ row.provenance = .unknown))

/-- A claim the archive makes gets no hearing ahead of what our node said of its txid. -/
def commClaim (origin : EventOrigin) (refuted parked : Bool) : Option DropReason :=
  if origin ≠ .fill then none
  else if refuted then some .senderNotContact
  else if parked then some .senderPending
  else none

/-- The row a comm finds stored under its txid, and may go on to replace. -/
def commStored (origin : EventOrigin) (stored : Option MessageRecord) :
    Except DropReason (Option MessageRecord) :=
  match stored with
  | none => .ok none
  | some row => if overridable origin row then .ok (some row) else .error .alreadyStored

/-- What a comm reads of the conversation it routes to. -/
structure RoutedRow where
  status : ConversationStatus
  hidden : Bool
  blocked : Bool
  contactAddress : String
deriving DecidableEq

/-- Under the lock the routing takes: dismissed, blocked, and who may write. -/
def commRouted (origin : EventOrigin) (sender : Option String) (row : RoutedRow) :
    Except DropReason CommSenderVerdict :=
  if commIsDismissed row.status row.hidden then .error .dismissedInvitation
  else if row.blocked then .error .blockedContact
  else .ok (commSenderVerdict origin sender row.contactAddress)

/-- The verdict before any decrypt. An archive row stays where the node names nobody. -/
def commJudged (verdict : CommSenderVerdict) (overrides parked : Bool) : Option DropReason :=
  match verdict with
  | .contact => none
  | .notContact => some .senderNotContact
  | .awaitSender | .awaitContact => if overrides || parked then some .senderPending else none

/-- The validation decrypt: the bound slot first, then the window. -/
def commOpened (bound : KeySlot) (atBound : Except OpenError Unit) (scan : Except OpenError KeySlot) :
    Except DropReason KeySlot :=
  match atBound with
  | .ok _ => .ok bound
  | .error .transportOpen => scan.mapError decryptDrop
  | .error e => .error (decryptDrop e)

/-- The same questions under the lock the decrypt let go of: record the comm, hold it until its row
    knows its contact, or drop it. A row that is gone keeps what the first verdict said. -/
def commRechecked (origin : EventOrigin) (sender : Option String) (verdict : CommSenderVerdict)
    (row : Option RoutedRow) : Except DropReason Bool :=
  match row with
  | none => if verdict = .contact then .ok true else .error .storeRace
  | some row =>
    if commIsDismissed row.status row.hidden then .error .dismissedInvitation
    else if row.blocked then .error .blockedContact
    else
      match commSenderVerdict origin sender row.contactAddress with
      | .contact => .ok true
      | .awaitContact => .ok false
      | _ => .error .senderNotContact

/-- What an archive's comm meets on its way in. `again` is the row once the decrypt is over. -/
structure FillComm where
  refuted : Bool
  parked : Bool
  stored : Option MessageRecord
  head : Bool
  routed : Option RoutedRow
  sender : Option String
  envelope : Bool
  bound : KeySlot
  atBound : Except OpenError Unit
  scan : Except OpenError KeySlot
  again : Option RoutedRow
  write : Except Unit Bool

def refuse : Option DropReason → Except DropReason Unit
  | some reason => .error reason
  | none => .ok ()

/-- An archive's comm, from the claim it makes to the row it becomes. -/
def FillComm.filed (comm : FillComm) : Except DropReason Unit := do
  refuse (commClaim .fill comm.refuted comm.parked)
  let _ ← commStored .fill comm.stored
  if comm.head = false then .error .malformedCommHead
  match comm.routed with
  | none => refuse (revivalRefusal .fill false false)
  | some row =>
    let verdict ← commRouted .fill comm.sender row
    refuse (commJudged verdict false false)
    if comm.envelope = false then .error .malformedEnvelope
    let _ ← commOpened comm.bound comm.atBound comm.scan
    let records ← commRechecked .fill comm.sender verdict comm.again
    if records = false then .error .senderPending
    match comm.write with
    | .error _ => .error .storeFailed
    | .ok recorded => if recorded then .ok () else .error .alreadyStored

/-- What an archive's handshake meets on its way in. `awaits` is the contact of the conversation whose
    alias an acceptance echoes. -/
structure FillHandshake where
  stored : Bool
  watched : Bool
  envelope : Bool
  opened : Except OpenError KeySlot
  payload : Bool
  awaits : Option String
  known : Bool

def FillHandshake.filed (handshake : FillHandshake) : Except DropReason Unit := do
  if handshake.stored then .error .alreadyStored
  if handshake.watched = false then .error .notAddressedToUs
  if handshake.envelope = false then .error .malformedEnvelope
  let _ ← handshake.opened.mapError decryptDrop
  if handshake.payload = false then .error .undecodablePayload
  match handshake.awaits.map (acceptanceVerdict .fill none) with
  | some .refuse | some .awaitSender => .error .acceptanceUnverified
  | _ => if handshake.known then .error .conversationAlreadyKnown else .ok ()

/-- What a fold comes to: a row, or the reason there is none. -/
def foldedTo : Except DropReason Unit → FoldOutcome
  | .ok _ => .recorded
  | .error reason => reason.outcome

/-- A bounded memory of the txids our own walk refused. -/
structure RefutedTxids where
  order : List String
deriving DecidableEq

def REFUTED_CAPACITY : Nat := 1024

namespace RefutedTxids

def contains (refuted : RefutedTxids) (txid : String) : Bool := refuted.order.contains txid

def note (refuted : RefutedTxids) (txid : String) : RefutedTxids :=
  if refuted.contains txid then refuted
  else if REFUTED_CAPACITY ≤ refuted.order.length then ⟨refuted.order.tail ++ [txid]⟩
  else ⟨refuted.order ++ [txid]⟩

end RefutedTxids

/-- One conversation of a backup. -/
structure SavedHandshakePayload where
  alias_ : String
  timestamp : Nat
  theirAlias : Option String
  isResponse : Option Bool
  partnerAddress : String
  conversationId : Option String
  boundBranch : Option String
  boundIndex : Option Nat
deriving DecidableEq

structure SavedHandshakeSnapshot where
  stashedAt : Option Nat
  rows : List SavedHandshakePayload
deriving DecidableEq

end Kaspaverse.Transport
