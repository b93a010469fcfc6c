import Mathlib.Logic.Relation
import Kaspaverse.Transport.HubStep
import Kaspaverse.Transport.HubStore

namespace Kaspaverse.Transport

open Hub

/-- What our node says of a transaction's sender is true; an archive may say anything. -/
def InboundComm.Honest (chain : Chain) (comm : InboundComm) : Prop :=
  comm.origin = .node → ∀ sender, comm.sender = some sender → sender = chain.sender comm.txid

def ParkedComm.Honest (chain : Chain) (txid : String) (parked : ParkedComm) : Prop :=
  ∀ sender, parked.sender = some sender → sender = chain.sender txid

def OpenedHandshake.Honest (chain : Chain) (handshake : OpenedHandshake) : Prop :=
  handshake.origin = .node → ∀ sender, handshake.pageSender = some sender → sender = chain.sender handshake.txid

/-- The sender a handshake was resolved to: our node's word, or nobody. -/
def OpenedHandshake.Resolved (chain : Chain) (handshake : OpenedHandshake) (sender : Option String) : Prop :=
  ∀ address, sender = some address → handshake.origin = .node ∧ address = chain.sender handshake.txid

/-- What the sections of a call carry over from the ones before them. -/
def Act.Sound (chain : Chain) : Act → Prop
  | .commClaim comm | .commStored comm | .revive comm _ => comm.Honest chain
  | .commRoute comm _ replaces => comm.Honest chain ∧ (replaces.isSome = true → comm.origin = .node)
  | .reviveOpen comm _ => comm.Honest chain ∧ comm.origin = .node
  | .commWaits routed | .commOpen routed | .commFile routed _ _ =>
    routed.comm.Honest chain ∧ (routed.replaces.isSome = true → routed.comm.origin = .node) ∧
      (routed.verdict = .contact ∨ routed.comm.origin = .node)
  | .park txid comm | .adoptFold txid comm => comm.Honest chain txid
  | .handshakeStored handshake =>
    handshake.origin = .node → ∀ sender, handshake.pageSender = some sender → sender = chain.sender handshake.txid
  | .handshakeOpen handshake replaces =>
    (handshake.origin = .node → ∀ sender, handshake.pageSender = some sender →
      sender = chain.sender handshake.txid) ∧
    ∀ old, replaces = some old → handshake.origin = .node ∧ old.txid = handshake.txid
  | .handshakeOverride handshake old =>
    handshake.Honest chain ∧ handshake.origin = .node ∧ old.txid = handshake.txid
  | .handshakeResolve handshake => handshake.Honest chain
  | .handshakeAwaiting handshake sender | .handshakeMatch handshake sender
  | .handshakeInvite handshake sender => handshake.Resolved chain sender
  | .handshakeComplete handshake sender _ | .handshakeContact handshake sender =>
    handshake.Resolved chain (some sender)
  | .handshakePark handshake _ => handshake.origin = .node
  | .releaseFile _ sender rows =>
    ∀ row ∈ rows, row.2.sender = some sender ∧ row.2.Honest chain row.1
  | _ => True

/-- The sections in flight and the parked comms carry what they should. -/
structure Hub.Sound (chain : Chain) (s : Hub) : Prop where
  calls : ∀ id acts, s.calls.lookup id = some acts → ∀ act ∈ acts, act.Sound chain
  parked : ∀ e ∈ s.comms.entries, e.2.Honest chain e.1

/-- The rows, and whom each inbound comm was filed for. -/
structure Filing where
  store : TransportStore
  filedFor : KeyMap String String

def Hub.filing (s : Hub) : Filing := ⟨s.store, s.filedFor⟩

/-- No comm lands in an invitation that is dismissed: by the check, or where an alias the row lacked
    is learned, which no invitation lacks. -/
def Hub.Standing (s : Hub) (row : ConversationRecord) (store : TransportStore) : Prop :=
  commIsDismissed row.status (store.isHidden row.conversationId) = false ∨
    ∃ old, s.store.conversation row.conversationId = some old ∧ old.theirAlias = none ∧
      (row.status = .pendingInbound → old.status = .pendingInbound)

section

variable (chain : Chain) (s : Hub) (act : Act) (o : Oracle)

/-- The conversations a section may write, from what it found under the lock. -/
inductive Put (store : TransportStore) : ConversationRecord → Prop
  | touch {old : ConversationRecord} (last : Nat) (found : store.conversation old.conversationId = some old) :
    Put store { old with lastActivityUnixMs := last }
  | name {old : ConversationRecord} {sender txid : String}
    (found : store.conversation old.conversationId = some old) (blank : old.contactAddress = "")
    (asks : asks act = some txid) (answer : sender = chain.sender txid) :
    Put store { old with contactAddress := sender }
  | refresh {old : ConversationRecord} {handshake : OpenedHandshake} {replaced : MessageRecord}
    (section_ : act = .handshakeOverride handshake replaced) (address : String)
    (found : store.conversation old.conversationId = some old) (home : replaced.conversationId = old.conversationId)
    (waits : old.status = .pendingInbound)
    (named : address = old.contactAddress ∨
      old.contactAddress = "" ∧ old.handshakeTxid = some handshake.txid ∧ address = chain.sender handshake.txid) :
    Put store { old with
      createdUnixMs := handshake.now
      theirAlias := some handshake.payload.alias_
      boundBranch := handshake.slot.1
      boundIndex := handshake.slot.2
      contactAddress := address }
  | complete {old : ConversationRecord} (alias_ : String) (slot : KeySlot) (now : Nat)
    (found : store.conversation old.conversationId = some old) (waits : old.status = .pendingOutbound)
    (known : old.contactAddress ≠ "")
    (section_ : (∃ handshake, act = .handshakeComplete handshake old.contactAddress old.conversationId ∧
        handshake.payload.alias_ = alias_ ∧ handshake.slot = slot ∧
          old.contactAddress = chain.sender handshake.txid) ∨
      ∃ txid claim, act = .acceptance txid ∧ (txid, claim) ∈ s.acceptances ∧ claim.theirAlias = alias_ ∧
        claim.bound = slot ∧ old.contactAddress = chain.sender txid) :
    Put store (completed old alias_ slot now)
  | contact {old : ConversationRecord} {handshake : OpenedHandshake}
    (section_ : act = .handshakeContact handshake old.contactAddress)
    (found : store.conversation old.conversationId = some old) (known : old.contactAddress ≠ "")
    (truly : old.contactAddress = chain.sender handshake.txid) :
    Put store (refreshedContact old handshake)
  | adopt {old : ConversationRecord} {txid : String} {parked : ParkedComm}
    (section_ : act = .adoptFold txid parked)
    (found : store.conversation old.conversationId = some old) (known : old.contactAddress ≠ "")
    (truly : old.contactAddress = chain.sender txid) (free : s.isBlocked old.contactAddress = false)
    (unrouted : TransportStore.answers parked.alias_ old = false) (gap : old.theirAlias = none) :
    Put store (adopted old parked.alias_)
  | invite {handshake : OpenedHandshake} {sender : Option String}
    (section_ : act = .handshakeInvite handshake sender) (start : store = s.store) (fresh : o.freshId ∉ s.minted) :
    Put store (invitation handshake sender o.freshId)
  | revive {txid : String} {parked : ParkedComm} (now : Nat) (section_ : act = .adoptFold txid parked)
    (start : store = s.store) (free : s.isBlocked (chain.sender txid) = false) (fresh : o.freshId ∉ s.minted) :
    Put store (revivedConversation (chain.sender txid) parked.alias_ parked.slot now o.freshId)
  | restore {payload : SavedHandshakePayload} {windows : Nat × Nat} {address : String}
    (section_ : act = .restore payload windows)
    (valid : chain.mainnet payload.partnerAddress = some address) (spelled : payload.alias_ ≠ "")
    (free : s.isBlocked address = false)
    (absent : store.conversation (payload.conversationId.getD o.freshId) = none) :
    Put store (restoredConversation payload address (payload.conversationId.getD o.freshId) windows)
  | invited {snapshot : ConversationRecord} {reseal : List UInt8} {timestampMs : Nat} {txid : String}
    (section_ : act = .apply (.handshake snapshot reseal timestampMs) txid) (start : store = s.store)
    (absent : store.conversation snapshot.conversationId = none) :
    Put store { snapshot with handshakeTxid := some txid }
  | reinvited {snapshot live : ConversationRecord} {reseal : List UInt8} {timestampMs : Nat} {txid : String}
    (section_ : act = .apply (.handshake snapshot reseal timestampMs) txid) (start : store = s.store)
    (found : store.conversation snapshot.conversationId = some live) :
    Put store (mergeHandshakeCommit { snapshot with handshakeTxid := some txid } live)
  | accept {old : ConversationRecord} {contactAddress myAlias : String} {reseal : List UInt8}
    {timestampMs : Nat} {txid : String} (created : Nat)
    (section_ : act = .apply (.accept old.conversationId contactAddress myAlias reseal timestampMs) txid)
    (start : store = s.store) (found : store.conversation old.conversationId = some old) :
    Put store { old with
      contactAddress := contactAddress
      myAlias := myAlias
      status := .active
      lastActivityUnixMs := timestampMs
      createdUnixMs := created }

/-- An inbound comm, and whom it is filed for. Where a comm was the contact's before its decrypt and the
    row went inside, it is filed all the same. -/
inductive Enters (store : TransportStore) (m : MessageRecord) (sender : String) : Prop
  | comm {row : ConversationRecord} {routed : RoutedComm} {slot : KeySlot} {envelope : List UInt8} (now : Nat)
    (section_ : act = .commFile routed slot envelope) (is : m = commRow routed slot envelope now)
    (claimed : routed.comm.sender = some sender)
    (found : store.conversation routed.conversationId = some row) (contact : row.contactAddress = sender)
    (known : sender ≠ "") (free : s.isBlocked sender = false)
    (standing : commIsDismissed row.status (store.isHidden routed.conversationId) = false)
  | orphan {routed : RoutedComm} {slot : KeySlot} {envelope : List UInt8} (now : Nat)
    (section_ : act = .commFile routed slot envelope) (is : m = commRow routed slot envelope now)
    (claimed : routed.comm.sender.getD "" = sender) (verdict : routed.verdict = .contact)
    (start : store = s.store) (missing : store.conversation routed.conversationId = none)
  | parked {row : ConversationRecord} {txid : String} {comm : ParkedComm} (bound : KeySlot) (now : Nat)
    (is : m = parkedRow row.conversationId bound now (txid, comm))
    (source : (∃ rows, act = .releaseFile row.conversationId sender rows ∧ (txid, comm) ∈ rows) ∨
      ∃ first parked, act = .adoptFold first parked ∧
        ((txid, comm) = (first, parked) ∨ (txid, comm) ∈ s.comms.entries))
    (truly : sender = chain.sender txid)
    (found : store.conversation row.conversationId = some row) (contact : row.contactAddress = sender)
    (known : sender ≠ "") (free : s.isBlocked sender = false) (standing : s.Standing row store)

/-- A handshake's row in a conversation, or one of our own. -/
inductive Files (store : TransportStore) (m : MessageRecord) : Prop
  | inbound {row : ConversationRecord} (direction : m.direction = .inbound) (kind : m.kind = .handshake)
    (found : store.conversation m.conversationId = some row)
    (truly : m.provenance = .nodeScanned → row.contactAddress ≠ "" → row.contactAddress = chain.sender m.txid)
    (source : (∃ handshake sender id, act = .handshakeComplete handshake sender id ∧ m = handshake.row id) ∨
      (∃ handshake sender, act = .handshakeContact handshake sender ∧ m = handshake.row row.conversationId) ∨
      (∃ handshake sender, act = .handshakeInvite handshake sender ∧ m = handshake.row o.freshId) ∨
      ∃ txid claim, act = .acceptance txid ∧ (txid, claim) ∈ s.acceptances ∧ m = acceptanceRow txid claim)
  | own {row : ConversationRecord} (direction : m.direction = .outbound) (kind : m.kind = .handshake)
    (found : store.conversation m.conversationId = some row)
    (source : ∃ intent, act = .apply intent m.txid)
  | sent {conversationId aliasOnWire : String} {reseal : List UInt8} {sealedTo : KeySlot} {timestampMs : Nat}
    {wire : WireNamespace}
    (section_ : act = .apply (.comm conversationId aliasOnWire reseal sealedTo timestampMs wire) m.txid)
    (start : store = s.store)
    (is : m = ownRow m.txid conversationId .comm reseal timestampMs (some aliasOnWire) sealedTo wire)

/-- One write of a section. -/
inductive Write : Filing → Filing → Prop
  | put {f : Filing} {row : ConversationRecord} (licence : Put chain s act o f.store row) :
    Write f { f with store := f.store.put row }
  | reveal {f : Filing} {row : ConversationRecord}
    (found : f.store.conversation row.conversationId = some row) (contact : row.status ≠ .pendingInbound) :
    Write f { f with store := f.store.reveal row.conversationId }
  | conceal {f : Filing} {conversationId : String} (section_ : act = .hide conversationId)
    (empty : ∀ txid m, f.store.message txid = some m → m.conversationId ≠ conversationId) :
    Write f { f with store := f.store.conceal conversationId }
  | enter {f : Filing} {m : MessageRecord} {sender : String} (absent : f.store.message m.txid = none)
    (licence : Enters chain s act f.store m sender) :
    Write f ⟨f.store.recordMessage m, f.filedFor.insert m.txid sender⟩
  | reenter {f : Filing} {m : MessageRecord} {sender : String} (wins : f.store.overrides m = true)
    (licence : Enters chain s act f.store m sender) :
    Write f ⟨f.store.overrideMessage m, f.filedFor.insert m.txid sender⟩
  | file {f : Filing} {m : MessageRecord} (absent : f.store.message m.txid = none)
    (licence : Files chain s act o f.store m) : Write f { f with store := f.store.recordMessage m }
  | override {f : Filing} {handshake : OpenedHandshake} {old : MessageRecord}
    (section_ : act = .handshakeOverride handshake old) (start : f.store = s.store)
    (wins : f.store.overrides (handshake.row old.conversationId) = true) :
    Write f { f with store := f.store.overrideMessage (handshake.row old.conversationId) }
  | remove {f : Filing} (txids : List String) : Write f { f with store := f.store.removeMessages txids }
  | drop {f : Filing} {conversationId : String}
    (known : ∀ row, f.store.conversation conversationId = some row → row.contactAddress ≠ "")
    (empty : ∀ txid m, f.store.message txid = some m → m.conversationId ≠ conversationId) :
    Write f { f with store := f.store.drop conversationId }
  | merge {f : Filing} (address : String) : Write f { f with store := (f.store.merge address).1 }
  | wipe {f : Filing} (section_ : act = .wipeStore) : Write f { f with store := .emptied }

/-- The writes of a section, in turn. -/
abbrev Writes : Filing → Filing → Prop := Relation.ReflTransGen (Write chain s act o)

end

end Kaspaverse.Transport
