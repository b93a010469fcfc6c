import Mathlib
import Kaspaverse.Transport.Fill
import Kaspaverse.Transport.Lookup
import Kaspaverse.Transport.Pending

namespace Kaspaverse.Transport

/-- What is decided outside: who sent a transaction, the canonical form of an address of our network,
    which aliases are well formed, and how long an invitation can be accepted. -/
structure Chain where
  sender : String → String
  mainnet : String → Option String
  aliasValid : String → Bool
  pruningHorizonMs : Nat
  named : ∀ txid, sender txid ≠ ""
  proper : ∀ address canonical, mainnet address = some canonical → canonical ≠ ""
  spelled : ∀ alias_, aliasValid alias_ = true → alias_ ≠ ""

/-- A comm, as our walk's page or an archive's row gives it. No head or envelope: malformed. -/
structure InboundComm where
  txid : String
  head : Option String
  envelope : Option (List UInt8)
  blockTimeMs : Option Nat
  sender : Option String
  origin : EventOrigin
  wire : WireNamespace
deriving DecidableEq

structure HandshakePayload where
  alias_ : String
  theirAlias : Option String
  isResponse : Option Bool
  timestamp : Nat
deriving DecidableEq

def HandshakePayload.isAcceptance (payload : HandshakePayload) : Bool :=
  decide (payload.isResponse = some true) && payload.theirAlias.isSome

/-- A handshake, as a page or an archive's row gives it. `payload` is what its envelope holds. -/
structure InboundHandshake where
  txid : String
  envelope : Option (List UInt8)
  payload : Option HandshakePayload
  blockTimeMs : Option Nat
  pageSender : Option String
  origin : EventOrigin
  wire : WireNamespace
deriving DecidableEq

/-- A handshake one of our keys opened. -/
structure OpenedHandshake where
  txid : String
  envelope : List UInt8
  payload : HandshakePayload
  slot : KeySlot
  now : Nat
  pageSender : Option String
  origin : EventOrigin
  wire : WireNamespace
deriving DecidableEq

def OpenedHandshake.row (handshake : OpenedHandshake) (conversationId : String) : MessageRecord where
  txid := handshake.txid
  conversationId := conversationId
  direction := .inbound
  kind := .handshake
  envelope := handshake.envelope
  unixMs := handshake.payload.timestamp
  aliasOnWire := none
  sealedTo := none
  provenance := handshake.origin.rowSource
  wire := handshake.wire

/-- A comm that opened under one of our keys and waits for its sender, or for its row's. -/
structure ParkedComm where
  alias_ : String
  slot : KeySlot
  envelope : List UInt8
  blockTimeMs : Option Nat
  wire : WireNamespace
  sender : Option String
deriving DecidableEq

def InboundComm.parked (comm : InboundComm) (alias_ : String) (slot : KeySlot) (envelope : List UInt8)
    (sender : Option String) : ParkedComm :=
  ⟨alias_, slot, envelope, comm.blockTimeMs, comm.wire, sender⟩

/-- The parked comms by txid, oldest first. -/
structure ParkedComms where
  entries : List (String × ParkedComm)
deriving DecidableEq

def PENDING_COMMS_CAPACITY : Nat := 256
def PENDING_COMMS_BYTES : Nat := 1048576

namespace ParkedComms

def contains (parked : ParkedComms) (txid : String) : Bool := parked.entries.any fun e => decide (e.1 = txid)

def bytes (entries : List (String × ParkedComm)) : Nat := (entries.map fun e => e.2.envelope.length).sum

/-- Drop the oldest until both bounds hold. -/
def evict : List (String × ParkedComm) → List (String × ParkedComm)
  | [] => []
  | oldest :: rest =>
    if PENDING_COMMS_CAPACITY < rest.length + 1 ∨
        (1 < rest.length + 1 ∧ PENDING_COMMS_BYTES < bytes (oldest :: rest)) then evict rest
    else oldest :: rest

/-- The first claim under a txid stands. -/
def park (parked : ParkedComms) (txid : String) (comm : ParkedComm) : ParkedComms :=
  if parked.contains txid then parked else ⟨evict (parked.entries ++ [(txid, comm)])⟩

def find (parked : ParkedComms) (txid : String) : Option ParkedComm :=
  (parked.entries.find? fun e => decide (e.1 = txid)).map Prod.snd

def remove (parked : ParkedComms) (txid : String) : ParkedComms :=
  ⟨parked.entries.filter fun e => decide (e.1 ≠ txid)⟩

/-- The siblings a page names the same sender for. -/
def siblings (parked : ParkedComms) (alias_ sender : String) : List (String × ParkedComm) :=
  parked.entries.filter fun e => decide (e.2.alias_ = alias_ ∧ e.2.sender = some sender)

/-- Those under the alias that a page names another sender for. -/
def strangers (parked : ParkedComms) (alias_ sender : String) : List String :=
  (parked.entries.filter fun e =>
    decide (e.2.alias_ = alias_ ∧ e.2.sender ≠ some sender) && e.2.sender.isSome).map Prod.fst

/-- Under the alias, only what names no sender stays. -/
def withoutSiblings (parked : ParkedComms) (alias_ : String) : ParkedComms :=
  ⟨parked.entries.filter fun e => decide (e.2.alias_ ≠ alias_) || e.2.sender.isNone⟩

def withoutFrom (parked : ParkedComms) (alias_ sender : String) : ParkedComms :=
  ⟨parked.entries.filter fun e => !decide (e.2.alias_ = alias_ ∧ e.2.sender = some sender)⟩

def forgetAlias (parked : ParkedComms) (alias_ : String) : ParkedComms :=
  ⟨parked.entries.filter fun e => decide (e.2.alias_ ≠ alias_)⟩

end ParkedComms

/-- What an acceptance claims, until the chain names its sender. -/
structure ParkedAcceptance where
  conversationId : String
  theirAlias : String
  bound : KeySlot
  envelope : List UInt8
  unixMs : Nat
  wire : WireNamespace
deriving DecidableEq

/-- A comm its alias routed, and what the row said of it before the decrypt. -/
structure RoutedComm where
  comm : InboundComm
  alias_ : String
  replaces : Option MessageRecord
  conversationId : String
  bound : KeySlot
  verdict : CommSenderVerdict
deriving DecidableEq

/-- The slot a backup binds, clamped to the windows we derive keys for. -/
def SavedHandshakePayload.boundSlot (payload : SavedHandshakePayload) (windows : Nat × Nat) : KeySlot :=
  match payload.boundBranch, payload.boundIndex with
  | some branch, some index =>
    if branch = "receive" ∧ index < windows.1 then (.receive, index)
    else if branch = "change" ∧ index < windows.2 then (.change, index)
    else (.receive, 0)
  | _, _ => (.receive, 0)

/-- The critical sections of the hub's calls. Between two of a call any other call may run. -/
inductive Act
  | commClaim (comm : InboundComm)
  | commStored (comm : InboundComm)
  | commRoute (comm : InboundComm) (alias_ : String) (replaces : Option MessageRecord)
  | commWaits (routed : RoutedComm)
  | commOpen (routed : RoutedComm)
  | commFile (routed : RoutedComm) (slot : KeySlot) (envelope : List UInt8)
  | revive (comm : InboundComm) (alias_ : String)
  | reviveOpen (comm : InboundComm) (alias_ : String)
  | park (txid : String) (comm : ParkedComm)
  | note (txid : String)
  | removeArchiveRow (txid : String)
  | handshakeStored (handshake : InboundHandshake)
  | handshakeOpen (handshake : InboundHandshake) (replaces : Option MessageRecord)
  | handshakeOverride (handshake : OpenedHandshake) (old : MessageRecord)
  | handshakeResolve (handshake : OpenedHandshake)
  | handshakeAwaiting (handshake : OpenedHandshake) (sender : Option String)
  | handshakeComplete (handshake : OpenedHandshake) (sender : String) (conversationId : String)
  | handshakePark (handshake : OpenedHandshake) (conversationId : String)
  | handshakeMatch (handshake : OpenedHandshake) (sender : Option String)
  | handshakeContact (handshake : OpenedHandshake) (sender : String)
  | handshakeInvite (handshake : OpenedHandshake) (sender : Option String)
  | release (conversationId alias_ sender : String)
  | releaseFile (conversationId sender : String) (rows : List (String × ParkedComm))
  | adopt (txid : String)
  | adoptFold (txid : String) (parked : ParkedComm)
  | forget (alias_ sender : String) (first : Option String)
  | acceptance (txid : String)
  | backfill (txid : String)
  | resweep
  | resweepName (conversationId txid : String)
  | restore (payload : SavedHandshakePayload) (windows : Nat × Nat)
  | stashLoad (run : Nat) (provenTxid : String)
  | stashSave (state : StashState)
  | hide (conversationId : String)
  | clearRows (conversationId : String)
  | route (address : String)
  | blockRead (conversationId : String)
  | blockList (address : String) (alias_ : Option String)
  | blockIds (address : String) (alias_ : Option String)
  | blockPurge (address : String) (alias_ : Option String) (ids : List String)
  | blockForget (alias_ : Option String) (ids : List String)
  | blockRetain (ids : List String)
  | unblock (address : String)
  | abandonPlan
  | abandonIntent
  | seal
  | wipeStore
  | wipeFiles
  | wipeComms
  | wipeAcceptances
  | prepareHandshake (address : String)
  | prepareComm (conversationId : String)
  | prepareAccept (conversationId : String)
  | prepareAcceptNamed (conversationId theirAlias handshakeTxid : String)
  | prepareStash
  | allot (intent : TransportIntent)
  | storeIntent (nonce : Nat) (intent : TransportIntent)
  | storePlan (nonce : Nat) (built : TransportIntent)
  | commit (nonce : Nat)
  | commitCheck (nonce : Nat) (target : String)
  | takePlan (nonce : Nat)
  | takeIntent (nonce : Nat) (built : TransportIntent)
  | broadcast (built : TransportIntent) (intent : Option TransportIntent)
  | apply (intent : TransportIntent) (txid : String)
  | startMerge
  | startBlocked
  | startSweep (addresses : List String)

/-- What the world tells one critical section: the clock, a fresh conversation id and alias, whom our
    node names, what the vault answers, sealed bytes, and whether what can fail did not. -/
structure Oracle where
  now : Nat
  freshId : String
  freshAlias : String
  sender : Option String
  atBound : Except OpenError Unit
  scan : Except OpenError KeySlot
  bytes : List UInt8
  txid : String
  wire : WireNamespace
  ok : Bool

/-- What wipes destroyed: conversations and messages, each with the erasures its wipe was behind, backups,
    and the conversations that were gone when a backup was. -/
structure Destroyed where
  ids : String → Option Nat
  txids : String → Option Nat
  backups : String → Bool
  covered : String → Bool

namespace Destroyed

def nothing : Destroyed := ⟨fun _ => none, fun _ => none, fun _ => false, fun _ => false⟩

/-- Names that come back in a way a wipe does not answer for are none it destroyed. -/
def except (d : Destroyed) (ids txids : List String) (spared : Nat → Bool) : Destroyed where
  ids id := if id ∈ ids then (d.ids id).filter fun at_ => !spared at_ else d.ids id
  txids txid := if txid ∈ txids then (d.txids txid).filter fun at_ => !spared at_ else d.txids txid
  backups := d.backups
  covered id := d.covered id && !(decide (id ∈ ids) && (d.ids id).any spared)

end Destroyed

/-- The process's stores and its memory. A plan stands for what it was built for. A walk of the history
    fill has the erasures it began behind, and whether its last look found no later one. The last five
    fields are history, which nothing reads: every conversation id there was, whom each comm of ours was
    prepared for and each inbound one filed for, the addresses whose block purged them and was not
    lifted, and what wipes destroyed. -/
structure Hub where
  store : TransportStore
  blocked : List String
  comms : ParkedComms
  acceptances : List (String × ParkedAcceptance)
  refuted : RefutedTxids
  stash : Option StashState
  nonce : Nat
  plan : Option (Nat × TransportIntent)
  intent : Option (Nat × TransportIntent)
  erasures : Nat
  fills : KeyMap Nat (Nat × Bool)
  calls : KeyMap Nat (List Act)
  minted : Finset String
  addressed : KeyMap TransportIntent String
  filedFor : KeyMap String String
  held : Finset String
  destroyed : Destroyed

end Kaspaverse.Transport
