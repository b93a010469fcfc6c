import Mathlib.Data.Finset.Basic
import Mathlib.Data.List.Sort
import Mathlib.Data.Prod.Lex
import Mathlib.Data.String.Basic
import Kaspaverse.Kvlog.Frame
import Kaspaverse.Library.KeyedMap

namespace Kaspaverse.Transport

open Kvlog (ChainError)

inductive KeyBranch
  | receive
  | change
deriving DecidableEq

inductive ConversationStatus
  | pendingOutbound
  | pendingInbound
  | active
deriving DecidableEq

/-- One conversation. An empty address or alias is one that is not known yet. -/
structure ConversationRecord where
  conversationId : String
  contactAddress : String
  myAlias : String
  theirAlias : Option String
  status : ConversationStatus
  initiatedByMe : Bool
  boundBranch : KeyBranch
  boundIndex : Nat
  createdUnixMs : Nat
  lastActivityUnixMs : Nat
  handshakeTxid : Option String
deriving DecidableEq

inductive MessageDirection
  | inbound
  | outbound
deriving DecidableEq

inductive StoredKind
  | handshake
  | comm
  | legacy
deriving DecidableEq

inductive RowSource
  | unknown
  | own
  | nodeScanned
  | fillSourced
deriving DecidableEq

inductive WireNamespace
  | ciphMsg
  | kChat
deriving DecidableEq

structure MessageRecord where
  txid : String
  conversationId : String
  direction : MessageDirection
  kind : StoredKind
  envelope : List UInt8
  unixMs : Nat
  aliasOnWire : Option String
  sealedTo : Option (KeyBranch × Nat)
  provenance : RowSource
  wire : WireNamespace
deriving DecidableEq

/-- A log's maps: each record under its own key, and the keys flagged. -/
structure Table (T : Type) (keyOf : T → String) where
  records : KeyMap String T
  tombstoned : Finset String
  filed : ∀ key record, records.lookup key = some record → keyOf record = key

namespace Table

variable {T : Type} {keyOf : T → String}

def insert (table : Table T keyOf) (record : T) : Table T keyOf where
  records := table.records.insert (keyOf record) record
  tombstoned := table.tombstoned
  filed key held found := by
    rcases KeyMap.lookup_insert_some.mp found with ⟨rfl, rfl⟩ | ⟨_, before⟩
    · rfl
    · exact table.filed key held before

def erase (table : Table T keyOf) (key : String) : Table T keyOf where
  records := table.records.erase key
  tombstoned := table.tombstoned.erase key
  filed other held found := table.filed other held (KeyMap.lookup_erase_some.mp found).2

def flag (table : Table T keyOf) (key : String) : Table T keyOf :=
  { table with tombstoned := Insert.insert key table.tombstoned }

def unflag (table : Table T keyOf) (key : String) : Table T keyOf :=
  { table with tombstoned := table.tombstoned.erase key }

/-- Two tables that differ in the order of their entries alone. -/
structure Same (table other : Table T keyOf) : Prop where
  records : ∀ key, table.records.lookup key = other.records.lookup key
  tombstoned : table.tombstoned = other.tombstoned

end Table

/-- The transport store: conversations and messages, each with its log. -/
structure TransportStore where
  conversations : Table ConversationRecord ConversationRecord.conversationId
  messages : Table MessageRecord MessageRecord.txid

/-- The store on its disk, and which of the next log writes fails: with `some (n, landed)` the one
    behind `n` more, its frame whole in the file or not. -/
structure World where
  store : TransportStore
  fault : Option (Nat × Bool)

abbrev Writing := EStateM ChainError World

/-- Append one frame. What a failed append left in the file is what the next load reads. -/
def commit (after : TransportStore) : Writing Unit := fun w =>
  match w.fault with
  | none => .ok () { w with store := after }
  | some (0, landed) => .error .io { w with store := if landed then after else w.store }
  | some (n + 1, landed) => .ok () ⟨after, some (n, landed)⟩

namespace TransportStore

/-- A record that is held with the same bytes already is not written. -/
def upsertConversation (record : ConversationRecord) : Writing Unit := fun w =>
  if w.store.conversations.records.lookup record.conversationId = some record then .ok () w
  else commit { w.store with conversations := w.store.conversations.insert record } w

def removeConversation (conversationId : String) : Writing Unit := fun w =>
  if conversationId ∈ w.store.conversations.records then
    commit { w.store with conversations := w.store.conversations.erase conversationId } w
  else .ok () w

def tombstoneConversation (conversationId : String) : Writing Unit := fun w =>
  if conversationId ∉ w.store.conversations.records ∨
      conversationId ∈ w.store.conversations.tombstoned then .ok () w
  else commit { w.store with conversations := w.store.conversations.flag conversationId } w

def untombstoneConversation (conversationId : String) : Writing Unit := fun w =>
  if conversationId ∈ w.store.conversations.tombstoned then
    commit { w.store with conversations := w.store.conversations.unflag conversationId } w
  else .ok () w

/-- `false` where there is no such row, or where it is there already. -/
def rehomeMessage (txid conversationId : String) : Writing Bool := fun w =>
  match w.store.messages.records.lookup txid with
  | none => .ok false w
  | some existing =>
    if existing.conversationId = conversationId then .ok false w
    else
      (do
        commit { w.store with
          messages := w.store.messages.insert { existing with conversationId := conversationId } }
        pure true : Writing Bool) w

/-- When the alias of one direction was last announced: the newest handshake that stands, or the
    row's establishment. -/
def announcedAt (store : TransportStore) (row : ConversationRecord) (direction : MessageDirection) :
    Nat :=
  ((store.messages.records.values.filter fun m =>
      decide (m.conversationId = row.conversationId ∧ m.direction = direction ∧ m.kind = .handshake ∧
        m.txid ∉ store.messages.tombstoned)).map MessageRecord.unixMs).max?.getD row.createdUnixMs

end TransportStore

/-- A conversation, and whether it is hidden. -/
abbrev Row := ConversationRecord × Bool

abbrev MergeRank := Bool ×ₗ Bool ×ₗ Bool ×ₗ Bool ×ₗ Nat

/-- Greater is better: it can send, it can read, it is active, it shows, it is newer. -/
def mergeRank (row : Row) : MergeRank :=
  toLex (decide (row.1.myAlias ≠ ""), toLex (row.1.theirAlias.isSome,
    toLex (decide (row.1.status = .active), toLex (!row.2, row.1.createdUnixMs))))

/-- The order of the rows of one contact: among equal ranks the lowest id comes last. -/
def mergeOrder (row : Row) : MergeRank ×ₗ Stringᵒᵈ :=
  toLex (mergeRank row, OrderDual.toDual row.1.conversationId)

structure ContactMergeReport where
  contacts : Nat
  rowsFolded : Nat
  messagesRehomed : Nat
deriving DecidableEq

namespace TransportStore

/-- The rows of one contact, the best one last. -/
def contactRows (store : TransportStore) (address : String) : List Row :=
  ((store.conversations.records.values.filter fun c => decide (c.contactAddress = address)).map
    fun c => (c, decide (c.conversationId ∈ store.conversations.tombstoned))).insertionSort
      fun a b => mergeOrder a ≤ mergeOrder b

/-- The host as the rows are folded into it, and when the aliases it holds were announced. -/
structure Folding where
  host : ConversationRecord
  theirsAt : Nat
  mineAt : Nat
  created : Nat
  last : Nat

def Folding.start (store : TransportStore) (host : ConversationRecord) : Folding :=
  ⟨host, store.announcedAt host .inbound, store.announcedAt host .outbound, host.createdUnixMs,
    host.lastActivityUnixMs⟩

/-- Their alias, with the slot they sealed to. -/
def Folding.takeTheirs (store : TransportStore) (folding : Folding) (dup : ConversationRecord) :
    Folding :=
  match dup.theirAlias with
  | none => folding
  | some theirs =>
    if folding.host.theirAlias.isNone ∨ folding.theirsAt < store.announcedAt dup .inbound then
      { folding with
        host := { folding.host with
          theirAlias := some theirs, boundBranch := dup.boundBranch, boundIndex := dup.boundIndex }
        theirsAt := store.announcedAt dup .inbound }
    else folding

def Folding.takeMine (store : TransportStore) (folding : Folding) (dup : ConversationRecord) :
    Folding :=
  if dup.myAlias ≠ "" ∧
      (folding.host.myAlias = "" ∨ folding.mineAt < store.announcedAt dup .outbound) then
    { folding with
      host := { folding.host with myAlias := dup.myAlias }
      mineAt := store.announcedAt dup .outbound }
  else folding

/-- Take what a row announced later than the host did, and what the host lacks. -/
def Folding.take (store : TransportStore) (folding : Folding) (row : Row) : Folding :=
  let folding := (folding.takeTheirs store row.1).takeMine store row.1
  let host := folding.host
  { folding with
    host := { host with
      handshakeTxid := if host.handshakeTxid.isNone then row.1.handshakeTxid else host.handshakeTxid }
    created := min folding.created row.1.createdUnixMs
    last := max folding.last row.1.lastActivityUnixMs }

/-- The row that is kept: everything folded into the host. -/
def mergedHost (store : TransportStore) (host : ConversationRecord) (rows : List Row) :
    ConversationRecord :=
  let folding := rows.foldl (Folding.take store) (.start store host)
  let host : ConversationRecord := { folding.host with
    createdUnixMs := folding.created, lastActivityUnixMs := folding.last }
  if host.status ≠ .pendingInbound ∧ host.myAlias ≠ "" ∧ host.theirAlias.isSome then
    { host with status := .active }
  else host

/-- A hidden invitation blocks the host while the host is an invitation still. -/
def blocked (host : Row) (rows : List Row) : Bool :=
  decide (host.1.status = .pendingInbound) &&
    (host.2 || rows.any fun row => row.2 && decide (row.1.status = .pendingInbound))

def anyVisible (host : Row) (rows : List Row) : Bool := !host.2 || rows.any fun row => !row.2

/-- Move one row's messages onto the host and drop the row. -/
def foldRow (hostId : String) (report : ContactMergeReport) (row : Row) :
    Writing ContactMergeReport := do
  let w ← get
  let txids := (w.store.messages.records.values.filter fun m =>
    decide (m.conversationId = row.1.conversationId)).map MessageRecord.txid
  let report ← txids.foldlM (fun report txid => do
    let moved ← rehomeMessage txid hostId
    pure (if moved then { report with messagesRehomed := report.messagesRehomed + 1 } else report))
    report
  removeConversation row.1.conversationId
  pure { report with rowsFolded := report.rowsFolded + 1 }

/-- Hide the kept row, or show it. -/
def settleFlag (host : Row) (rows : List Row) : Writing Unit :=
  if blocked host rows then tombstoneConversation host.1.conversationId
  else if anyVisible host rows then untombstoneConversation host.1.conversationId
  else pure ()

/-- The writes of a merge: the host first, then each row's messages and its removal, then the
    flag. -/
def foldInto (store : TransportStore) (host : Row) (rows : List Row) :
    Writing (String × ContactMergeReport) := do
  upsertConversation (store.mergedHost host.1 rows)
  let report ← rows.foldlM (foldRow host.1.conversationId) ⟨1, 0, 0⟩
  settleFlag host rows
  pure (host.1.conversationId, report)

/-- Fold the rows of one address into the best of them. -/
def mergeContact (address : String) : Writing (Option (String × ContactMergeReport)) := do
  let w ← get
  let rows := w.store.contactRows address
  if address = "" ∨ rows.length < 2 then pure none
  else match rows.getLast? with
    | none => pure none
    | some host => do
      let kept ← foldInto w.store host rows.dropLast
      pure (some kept)

/-- Every address that holds a row, in turn. -/
def mergeDuplicateContacts : Writing ContactMergeReport := do
  let store := (← get).store
  let addresses := (((store.conversations.records.values.filter fun c =>
    decide (c.contactAddress ≠ "")).map ConversationRecord.contactAddress).insertionSort (· ≤ ·)).dedup
  addresses.foldlM (fun report address => do
    match ← mergeContact address with
    | none => pure report
    | some (_, one) => pure ⟨report.contacts + 1, report.rowsFolded + one.rowsFolded,
        report.messagesRehomed + one.messagesRehomed⟩) ⟨0, 0, 0⟩

end TransportStore

end Kaspaverse.Transport
