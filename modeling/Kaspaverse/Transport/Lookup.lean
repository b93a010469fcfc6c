import Mathlib.Data.List.MinMax
import Kaspaverse.Transport.Intake

namespace Kaspaverse.Transport

namespace TransportStore

def conversation (store : TransportStore) (conversationId : String) : Option ConversationRecord :=
  store.conversations.records.lookup conversationId

def message (store : TransportStore) (txid : String) : Option MessageRecord :=
  store.messages.records.lookup txid

def isHidden (store : TransportStore) (conversationId : String) : Bool :=
  decide (conversationId ∈ store.conversations.tombstoned)

def listConversations (store : TransportStore) : List ConversationRecord :=
  store.conversations.records.values

/-- Does the row answer to this alias, by either side's? -/
def answers (alias_ : String) (row : ConversationRecord) : Bool :=
  decide (row.myAlias = alias_ ∨ row.theirAlias = some alias_)

/-- A conversation we can talk in outranks one that waits for our accept. -/
def aliasStanding (row : ConversationRecord) : Nat :=
  match row.status with
  | .active => if row.myAlias ≠ "" then 3 else 2
  | .pendingOutbound => if row.initiatedByMe then 1 else 0
  | .pendingInbound => 0

/-- Within a standing a live row beats a hidden one, then the older establishment, then the later
    activity, then the lowest id. -/
def aliasRank (store : TransportStore) (row : ConversationRecord) :
    ℕ ×ₗ Bool ×ₗ ℕᵒᵈ ×ₗ ℕ ×ₗ Stringᵒᵈ :=
  toLex (aliasStanding row, toLex (!store.isHidden row.conversationId,
    toLex (OrderDual.toDual row.createdUnixMs,
      toLex (row.lastActivityUnixMs, OrderDual.toDual row.conversationId))))

/-- The conversation an alias routes to. A hidden row still matches. -/
def conversationByAlias (store : TransportStore) (alias_ : String) : Option ConversationRecord :=
  (store.listConversations.filter (answers alias_)).argmax store.aliasRank

def awaitingRank (store : TransportStore) (row : ConversationRecord) :
    Bool ×ₗ ℕᵒᵈ ×ₗ Stringᵒᵈ :=
  toLex (!store.isHidden row.conversationId,
    toLex (OrderDual.toDual row.createdUnixMs, OrderDual.toDual row.conversationId))

def conversationAwaitingResponse (store : TransportStore) (echoed : String) :
    Option ConversationRecord :=
  (store.listConversations.filter fun row =>
    decide (row.status = .pendingOutbound ∧ row.myAlias = echoed)).argmax store.awaitingRank

/-- The row an inbound handshake can complete comes first. -/
def contactRank (row : ConversationRecord) : Bool ×ₗ ℕ ×ₗ Stringᵒᵈ :=
  toLex (row.initiatedByMe && decide (row.status = .pendingOutbound),
    toLex (row.lastActivityUnixMs, OrderDual.toDual row.conversationId))

/-- No address matches an invitation that knows none. -/
def conversationByContactAddress (store : TransportStore) (address : String) :
    Option ConversationRecord :=
  if address = "" then none
  else (store.listConversations.filter fun row => decide (row.contactAddress = address)).argmax contactRank

def conversationsForContactAddress (store : TransportStore) (address : String) :
    List ConversationRecord :=
  if address = "" then []
  else store.listConversations.filter fun row => decide (row.contactAddress = address)

def messagesFor (store : TransportStore) (conversationId : String) : List MessageRecord :=
  store.messages.records.values.filter fun m => decide (m.conversationId = conversationId)

def hasHandshakeTxid (store : TransportStore) (txid : String) : Bool :=
  store.listConversations.any fun row => decide (row.handshakeTxid = some txid)

def anyContactAddress (store : TransportStore) : Bool :=
  store.listConversations.any fun row => decide (row.contactAddress ≠ "")

/-- May the bond be returned? Our own node saw the handshake, or we wrote it. -/
def acceptProvenanceOk (store : TransportStore) (txid : String) : Bool :=
  (store.message txid).any fun m => decide (m.provenance = .nodeScanned ∨ m.provenance = .own)

/-- An invitation the sender lookup may name. -/
def nameable (store : TransportStore) (row : ConversationRecord) : Bool :=
  decide (row.status = .pendingInbound ∧ row.contactAddress = "") &&
    row.handshakeTxid.any fun txid => store.acceptProvenanceOk txid &&
      (store.message txid).any fun m => decide (m.kind = .handshake)

/-- The writes, each appended whole. -/
def put (store : TransportStore) (row : ConversationRecord) : TransportStore :=
  { store with conversations := store.conversations.insert row }

def drop (store : TransportStore) (conversationId : String) : TransportStore :=
  { store with conversations := store.conversations.erase conversationId }

/-- An unknown row is not hidden. -/
def conceal (store : TransportStore) (conversationId : String) : TransportStore :=
  if conversationId ∈ store.conversations.records then
    { store with conversations := store.conversations.flag conversationId }
  else store

def reveal (store : TransportStore) (conversationId : String) : TransportStore :=
  { store with conversations := store.conversations.unflag conversationId }

/-- The first record under a txid stands. -/
def recordMessage (store : TransportStore) (record : MessageRecord) : TransportStore :=
  if record.txid ∈ store.messages.records then store
  else { store with messages := store.messages.insert record }

/-- Node truth over an archive's claim; every other row stays. -/
def overrides (store : TransportStore) (record : MessageRecord) : Bool :=
  (store.message record.txid).any (overridable .node) && decide (record.provenance = .nodeScanned)

def overrideMessage (store : TransportStore) (record : MessageRecord) : TransportStore :=
  if store.overrides record then { store with messages := store.messages.insert record } else store

def removeMessage (store : TransportStore) (txid : String) : TransportStore :=
  { store with messages := store.messages.erase txid }

def removeMessages (store : TransportStore) (txids : List String) : TransportStore :=
  txids.foldl removeMessage store

def emptied : TransportStore := ⟨⟨∅, ∅, fun _ _ found => (nomatch found)⟩, ⟨∅, ∅, fun _ _ found => (nomatch found)⟩⟩

/-- Fold the rows of one address into the best of them, every write landing: the row that is kept,
    where there was more than one. -/
def merge (store : TransportStore) (address : String) : TransportStore × Option String :=
  match mergeContact address ⟨store, none⟩ with
  | .ok kept w => (w.store, kept.map Prod.fst)
  | .error _ w => (w.store, none)

/-- Every address that holds a row, in turn. -/
def mergeAll (store : TransportStore) : TransportStore :=
  ((((store.listConversations.filter fun row => decide (row.contactAddress ≠ "")).map
    ConversationRecord.contactAddress).insertionSort (· ≤ ·)).dedup).foldl
      (fun store address => (store.merge address).1) store

/-- Bring a hidden contact back when it writes. An invitation stays dismissed. -/
def unhideOnInbound (store : TransportStore) (conversationId : String) : TransportStore :=
  match store.conversation conversationId with
  | none => store
  | some row => if mayUnhide row.status (store.isHidden conversationId) then store.reveal conversationId else store

/-- Lift the activity clock of a row, if there is one. -/
def touch (store : TransportStore) (conversationId : String) (now : Nat) : TransportStore :=
  match store.conversation conversationId with
  | none => store
  | some row => store.put { row with lastActivityUnixMs := max row.lastActivityUnixMs now }

/-- What follows an inbound row: the thread comes back, its clock lifted. -/
def lifted (store : TransportStore) (conversationId : String) (now : Nat) : TransportStore :=
  (store.unhideOnInbound conversationId).touch conversationId now

/-- Every row of an address with its messages, but for a live request where those are kept. -/
def purgeIds (store : TransportStore) (address : String) (keepLiveRequests : Bool) : List String :=
  ((store.conversationsForContactAddress address).filter fun row =>
    !(keepLiveRequests && decide (row.status = .pendingInbound) && !store.isHidden row.conversationId)).map
      ConversationRecord.conversationId

def purgeRow (store : TransportStore) (conversationId : String) : TransportStore :=
  (store.removeMessages ((store.messagesFor conversationId).map MessageRecord.txid)).drop conversationId

def purgeContactRows (store : TransportStore) (address : String) (keepLiveRequests : Bool) :
    TransportStore :=
  (store.purgeIds address keepLiveRequests).foldl purgeRow store

/-- A blocked address's knock keeps its handshake row and nothing else. -/
def purgeComms (store : TransportStore) (conversationId : String) : TransportStore :=
  store.removeMessages (((store.messagesFor conversationId).filter fun m => decide (m.kind = .comm)).map
    MessageRecord.txid)

def hideRows (store : TransportStore) (conversationId : String) : TransportStore :=
  (store.removeMessages ((store.messagesFor conversationId).map MessageRecord.txid)).conceal conversationId

/-- Every message but the establishing handshake. -/
def clearRows (store : TransportStore) (conversationId : String) : TransportStore :=
  let keep := (store.conversation conversationId).bind ConversationRecord.handshakeTxid
  store.removeMessages (((store.messagesFor conversationId).map MessageRecord.txid).filter fun txid =>
    decide (some txid ≠ keep))

end TransportStore

end Kaspaverse.Transport
