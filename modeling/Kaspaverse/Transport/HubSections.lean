import Kaspaverse.Library.Machine
import Kaspaverse.Transport.Hub

namespace Kaspaverse.Transport.Hub

def isBlocked (s : Hub) (address : String) : Bool := decide (address ≠ "" ∧ address ∈ s.blocked)

def routedRow (s : Hub) (row : ConversationRecord) : RoutedRow :=
  ⟨row.status, s.store.isHidden row.conversationId, s.isBlocked row.contactAddress, row.contactAddress⟩

/-- Our walk disproved the archive's filing: remembered first, then the row goes. -/
def disprove (txid : String) : List Act := [.note txid, .removeArchiveRow txid]

def commStored (s : Hub) (comm : InboundComm) : List Act :=
  match Transport.commStored comm.origin (s.store.message comm.txid), comm.head with
  | .ok (some old), some alias_ =>
    -- our node's own transaction carries another alias than the archive filed it under
    if old.aliasOnWire.any fun filed => decide (filed ≠ alias_) then
      disprove comm.txid ++ [.commRoute comm alias_ none]
    else [.commRoute comm alias_ (some old)]
  | .ok none, some alias_ => [.commRoute comm alias_ none]
  | _, _ => []

/-- An archive row whose alias stopped routing is disproved by a sender who is not its contact. -/
def disproven (s : Hub) (comm : InboundComm) (replaces : Option MessageRecord) : Bool :=
  match replaces, comm.sender with
  | some old, some sender =>
    (s.store.conversation old.conversationId).any fun row =>
      decide (row.contactAddress ≠ "" ∧ row.contactAddress ≠ sender)
  | _, _ => false

def commRoute (s : Hub) (comm : InboundComm) (alias_ : String) (replaces : Option MessageRecord) :
    List Act :=
  match s.store.conversationByAlias alias_ with
  | none => (if s.disproven comm replaces then disprove comm.txid else []) ++ [.revive comm alias_]
  | some row =>
    match commRouted comm.origin comm.sender (s.routedRow row) with
    | .error _ => []
    | .ok verdict =>
      let routed : RoutedComm :=
        ⟨comm, alias_, replaces, row.conversationId, (row.boundBranch, row.boundIndex), verdict⟩
      match verdict with
      | .contact => [.commOpen routed]
      | .notContact =>
        if comm.origin = .node then
          (if replaces.isSome then disprove comm.txid else []) ++ [.note comm.txid]
        else []
      | .awaitSender | .awaitContact => if replaces.isSome then [] else [.commWaits routed]

/-- The decrypt, with no lock held. A comm whose page named no sender is parked here. -/
def commOpen (routed : RoutedComm) (o : Oracle) : List Act :=
  match routed.comm.envelope, commOpened routed.bound o.atBound o.scan with
  | some envelope, .ok slot =>
    if routed.verdict = .awaitSender then
      [.park routed.comm.txid (routed.comm.parked routed.alias_ slot envelope none)]
    else [.commFile routed slot envelope]
  | _, _ => []

def commRow (routed : RoutedComm) (slot : KeySlot) (envelope : List UInt8) (now : Nat) :
    MessageRecord where
  txid := routed.comm.txid
  conversationId := routed.conversationId
  direction := .inbound
  kind := .comm
  envelope := envelope
  unixMs := now
  aliasOnWire := some routed.alias_
  sealedTo := if slot ≠ routed.bound then some slot else none
  provenance := routed.comm.origin.rowSource
  wire := routed.comm.wire

/-- The row, over an archive's where the comm replaces one. -/
def recordComm (s : Hub) (routed : RoutedComm) (row : MessageRecord) : Hub :=
  let filed : Hub := { s with filedFor := s.filedFor.insert row.txid (routed.comm.sender.getD "") }
  if routed.replaces.isSome then
    if s.store.overrides row then
      { filed with
        store := (s.store.overrideMessage row).lifted row.conversationId row.unixMs }
    else s
  else if row.txid ∈ s.store.messages.records then s
  else { filed with
    store := (s.store.recordMessage row).lifted row.conversationId row.unixMs }

/-- The same questions under the lock the decrypt let go of, and the row. -/
def commFile (s : Hub) (routed : RoutedComm) (slot : KeySlot) (envelope : List UInt8) (o : Oracle) : Hub :=
  let comm := routed.comm
  match commRechecked comm.origin comm.sender routed.verdict
      ((s.store.conversation routed.conversationId).map s.routedRow) with
  | .error reason =>
    if reason = .senderNotContact ∧ comm.origin = .node then
      { s with refuted := s.refuted.note comm.txid }
    else s
  | .ok false =>
    { s with
      comms := s.comms.park comm.txid (comm.parked routed.alias_ slot envelope comm.sender) }
  | .ok true => s.recordComm routed (commRow routed slot envelope (comm.blockTimeMs.getD o.now))

def reviveOpen (comm : InboundComm) (alias_ : String) (o : Oracle) : List Act :=
  match comm.envelope, o.scan with
  | some envelope, .ok slot => [.park comm.txid (comm.parked alias_ slot envelope comm.sender)]
  | _, _ => []

def removeArchiveRow (s : Hub) (txid : String) : Hub :=
  if (s.store.message txid).any (overridable .node) then { s with store := s.store.removeMessage txid }
  else s

def handshakeStored (s : Hub) (handshake : InboundHandshake) : List Act :=
  if s.store.hasHandshakeTxid handshake.txid ∨ (s.store.message handshake.txid).isSome then
    if (s.store.message handshake.txid).any (overridable handshake.origin) then
      [.handshakeOpen handshake (s.store.message handshake.txid)]
    else []
  else [.handshakeOpen handshake none]

/-- The establishment scan, with no lock held: an output pays us, and a watched key opens it. -/
def handshakeOpen (handshake : InboundHandshake) (replaces : Option MessageRecord) (o : Oracle) :
    List Act :=
  match o.ok, handshake.envelope, o.scan, handshake.payload with
  | true, some envelope, .ok slot, some payload =>
    let opened : OpenedHandshake :=
      ⟨handshake.txid, envelope, payload, slot, handshake.blockTimeMs.getD o.now, handshake.pageSender,
        handshake.origin, handshake.wire⟩
    match replaces with
    | some old => [.handshakeOverride opened old]
    | none => [.handshakeResolve opened]
  | _, _, _, _ => []

/-- The rules keyed on a sender that has just been written: a blocked knock keeps its handshake alone,
    the contact's rows become one, and what the invitation held is released into that one. -/
def named (s : Hub) (conversationId sender : String) (alias_ : Option String) : Hub × List Act :=
  let store := if s.isBlocked sender then s.store.purgeComms conversationId else s.store
  let merged := store.merge sender
  ({ s with store := merged.1 },
    alias_.toList.map fun alias_ => .release (merged.2.getD conversationId) alias_ sender)

/-- Node truth over an archive's row. Its conversation is refreshed while it is an invitation, and
    named by the page where the invitation's own handshake this is. -/
def handshakeOverride (chain : Chain) (s : Hub) (handshake : OpenedHandshake) (old : MessageRecord) :
    Hub × List Act :=
  let record := handshake.row old.conversationId
  if s.store.overrides record = false then (s, [])
  else
    let s := { s with store := s.store.overrideMessage record }
    match s.store.conversation old.conversationId with
    | none => (s, [])
    | some existing =>
      if existing.status ≠ .pendingInbound then (s, [])
      else
        let refreshed : ConversationRecord := { existing with
          createdUnixMs := handshake.now
          theirAlias := some handshake.payload.alias_
          boundBranch := handshake.slot.1
          boundIndex := handshake.slot.2 }
        match if existing.contactAddress = "" ∧ existing.handshakeTxid = some handshake.txid then
            handshake.pageSender.filter fun sender => (chain.mainnet sender).isSome
          else none with
        | none => ({ s with store := s.store.put refreshed }, [])
        | some sender =>
          ({ s with store := s.store.put { refreshed with contactAddress := sender } } : Hub).named
            old.conversationId sender (some handshake.payload.alias_)

/-- The page names the sender first; the lookup is for a page that named none. -/
def handshakeResolve (handshake : OpenedHandshake) (o : Oracle) : List Act :=
  let sender := if handshake.origin = .node then handshake.pageSender.or o.sender else none
  if handshake.payload.isAcceptance then [.handshakeAwaiting handshake sender]
  else [.handshakeMatch handshake sender]

def handshakeAwaiting (s : Hub) (handshake : OpenedHandshake) (sender : Option String) : List Act :=
  match s.store.conversationAwaitingResponse (handshake.payload.theirAlias.getD "") with
  | none => [.handshakeMatch handshake sender]
  | some existing =>
    match acceptanceVerdict handshake.origin sender existing.contactAddress with
    | .complete => [.handshakeComplete handshake (sender.getD "") existing.conversationId]
    | .notOurContact => [.handshakeMatch handshake sender]
    | .awaitSender => [.handshakePark handshake existing.conversationId]
    | .refuse => []

/-- The conversation an acceptance completes. -/
def completed (row : ConversationRecord) (alias_ : String) (slot : KeySlot) (now : Nat) :
    ConversationRecord :=
  { row with
    theirAlias := some alias_
    status := .active
    boundBranch := slot.1
    boundIndex := slot.2
    lastActivityUnixMs := max row.lastActivityUnixMs now }

/-- The whole verdict once more, against the row as it is now. -/
def handshakeComplete (s : Hub) (handshake : OpenedHandshake) (sender conversationId : String) : Hub :=
  match s.store.conversation conversationId with
  | none => s
  | some current =>
    if current.status ≠ .pendingOutbound ∨
        acceptanceVerdict handshake.origin (some sender) current.contactAddress ≠ .complete then s
    else { s with
      store := ((s.store.unhideOnInbound conversationId).put
        (completed current handshake.payload.alias_ handshake.slot handshake.now)).recordMessage
          (handshake.row conversationId) }

def handshakePark (s : Hub) (handshake : OpenedHandshake) (conversationId : String) : Hub :=
  if s.acceptances.any fun e => decide (e.1 = handshake.txid) then s
  else
    let kept := if PENDING_COMMS_CAPACITY ≤ s.acceptances.length then s.acceptances.tail else s.acceptances
    { s with
      acceptances := kept ++ [(handshake.txid,
        ⟨conversationId, handshake.payload.alias_, handshake.slot, handshake.envelope,
          handshake.payload.timestamp, handshake.wire⟩)] }

def handshakeMatch (s : Hub) (handshake : OpenedHandshake) (sender : Option String) : List Act :=
  match sender with
  | some address =>
    if s.store.anyContactAddress then [.handshakeContact handshake address]
    else [.handshakeInvite handshake sender]
  | none => [.handshakeInvite handshake sender]

/-- A contact's row refreshed by its own handshake. Only one we opened goes active by it. -/
def refreshedContact (row : ConversationRecord) (handshake : OpenedHandshake) : ConversationRecord :=
  { row with
    theirAlias := some handshake.payload.alias_
    boundBranch := handshake.slot.1
    boundIndex := handshake.slot.2
    status := if row.initiatedByMe ∧ row.status ≠ .active then .active else row.status
    lastActivityUnixMs := max row.lastActivityUnixMs handshake.now }

def handshakeContact (s : Hub) (handshake : OpenedHandshake) (sender : String) : Hub × List Act :=
  match s.store.conversationByContactAddress sender with
  | none => (s, [.handshakeInvite handshake (some sender)])
  | some existing =>
    ({ s with
      store := ((s.store.unhideOnInbound existing.conversationId).put
        (refreshedContact existing handshake)).recordMessage (handshake.row existing.conversationId) }, [])

def invitation (handshake : OpenedHandshake) (sender : Option String) (conversationId : String) :
    ConversationRecord where
  conversationId := conversationId
  contactAddress := sender.getD ""
  myAlias := ""
  theirAlias := some handshake.payload.alias_
  status := .pendingInbound
  initiatedByMe := false
  boundBranch := handshake.slot.1
  boundIndex := handshake.slot.2
  createdUnixMs := handshake.now
  lastActivityUnixMs := handshake.now
  handshakeTxid := some handshake.txid

/-- A new invitation, but for an alias some conversation already holds as theirs. -/
def handshakeInvite (s : Hub) (handshake : OpenedHandshake) (sender : Option String) (o : Oracle) : Hub :=
  if (s.store.conversationByAlias handshake.payload.alias_).any fun row =>
      decide (row.theirAlias = some handshake.payload.alias_) then s
  else { s with
    store := (s.store.put (invitation handshake sender o.freshId)).recordMessage (handshake.row o.freshId) }

/-- What an invitation held under its alias, taken; the strangers' are refused. -/
def release (s : Hub) (conversationId alias_ sender : String) : Hub × List Act :=
  ({ s with comms := s.comms.withoutSiblings alias_ },
    (s.comms.strangers alias_ sender).map Act.note ++
      [.releaseFile conversationId sender (s.comms.siblings alias_ sender)])

def parkedRow (conversationId : String) (bound : KeySlot) (now : Nat) (row : String × ParkedComm) :
    MessageRecord where
  txid := row.1
  conversationId := conversationId
  direction := .inbound
  kind := .comm
  envelope := row.2.envelope
  unixMs := row.2.blockTimeMs.getD now
  aliasOnWire := some row.2.alias_
  sealedTo := if row.2.slot ≠ bound then some row.2.slot else none
  provenance := .nodeScanned
  wire := row.2.wire

/-- One parked comm the chain has proven the sender of. -/
def recordParked (conversationId sender : String) (bound : KeySlot) (now : Nat) (s : Hub)
    (row : String × ParkedComm) : Hub :=
  if row.1 ∈ s.store.messages.records then s
  else { s with
    store := s.store.recordMessage (parkedRow conversationId bound now row)
    filedFor := s.filedFor.insert row.1 sender }

def recordParkedRows (s : Hub) (conversationId sender : String) (bound : KeySlot)
    (rows : List (String × ParkedComm)) (now : Nat) : Hub :=
  let s := rows.foldl (recordParked conversationId sender bound now) s
  { s with store := s.store.touch conversationId ((rows.map fun row => row.2.blockTimeMs.getD now).foldl max 0) }

/-- Held comms land in the row that holds their sender now, if it does and may. -/
def releaseFile (s : Hub) (conversationId sender : String) (rows : List (String × ParkedComm))
    (o : Oracle) : Hub :=
  match rows, s.store.conversation conversationId with
  | [], _ | _, none => s
  | _, some row =>
    if s.isBlocked sender ∨ commSenderVerdict .node (some sender) row.contactAddress ≠ .contact ∨
        commIsDismissed row.status (s.store.isHidden conversationId) then s
    else
      ({ s with store := s.store.unhideOnInbound conversationId } : Hub).recordParkedRows conversationId sender
        (row.boundBranch, row.boundIndex) rows o.now

def adopt (s : Hub) (txid : String) : Hub × List Act :=
  match s.comms.find txid with
  | none => (s, [])
  | some parked => ({ s with comms := s.comms.remove txid }, [.adoptFold txid parked])

/-- The row a known contact's message mints when no row holds them: no alias of ours. -/
def revivedConversation (sender alias_ : String) (slot : KeySlot) (now : Nat) (conversationId : String) :
    ConversationRecord where
  conversationId := conversationId
  contactAddress := sender
  myAlias := ""
  theirAlias := some alias_
  status := .active
  initiatedByMe := false
  boundBranch := slot.1
  boundIndex := slot.2
  createdUnixMs := now
  lastActivityUnixMs := now
  handshakeTxid := none

/-- The contact's row that a message of theirs teaches an alias. -/
def adopted (row : ConversationRecord) (alias_ : String) : ConversationRecord :=
  { row with
    theirAlias := some alias_
    status := if row.status = .pendingOutbound then .active else row.status }

/-- The comm that was named, and its siblings by the same sender. The strangers' are refused. -/
def foldSiblings (s : Hub) (txid : String) (parked : ParkedComm) (sender conversationId : String)
    (bound : KeySlot) (now : Nat) : Hub :=
  let siblings := s.comms.siblings parked.alias_ sender
  ({ s with
    comms := s.comms.withoutSiblings parked.alias_
    refuted := (s.comms.strangers parked.alias_ sender).foldl RefutedTxids.note s.refuted } : Hub).recordParkedRows
      conversationId sender bound ((txid, parked) :: siblings) now

/-- Fold a parked comm once the chain has named its sender. -/
def adoptFold (chain : Chain) (s : Hub) (txid : String) (parked : ParkedComm) (o : Oracle) :
    Hub × List Act :=
  match o.sender with
  | none => (s, [])
  | some sender =>
    let now := parked.blockTimeMs.getD o.now
    if chain.mainnet sender = none then (s, [])
    else if s.isBlocked sender then (s, [.forget parked.alias_ sender (some txid)])
    else
      match s.store.conversationByAlias parked.alias_ with
      | some row =>
        match commSenderVerdict .node (some sender) row.contactAddress with
        | .contact =>
          if commIsDismissed row.status (s.store.isHidden row.conversationId) then
            (s, [.note txid, .forget parked.alias_ sender none])
          else
            (({ s with store := s.store.unhideOnInbound row.conversationId } : Hub).foldSiblings txid parked
              sender row.conversationId (row.boundBranch, row.boundIndex) now, [])
        | .awaitContact => ({ s with comms := s.comms.park txid { parked with sender := some sender } }, [])
        | .notContact | .awaitSender => (s, [.note txid, .forget parked.alias_ sender none])
      | none =>
        match s.store.conversationByContactAddress sender with
        | some existing =>
          if existing.theirAlias.any fun held => decide (held ≠ parked.alias_) then (s, [])
          else
            (({ s with
              store := (s.store.unhideOnInbound existing.conversationId).put
                (adopted existing parked.alias_) } : Hub).foldSiblings txid parked sender
                  existing.conversationId (existing.boundBranch, existing.boundIndex) now, [])
        | none =>
          -- only an address this wallet has paid before is a contact
          if o.ok = false then (s, [])
          else
            (({ s with
              store := s.store.put (revivedConversation sender parked.alias_ parked.slot now o.freshId) } :
                Hub).foldSiblings txid parked sender o.freshId parked.slot now, [])

def forget (s : Hub) (alias_ sender : String) (first : Option String) : Hub × List Act :=
  ({ s with comms := s.comms.withoutFrom alias_ sender },
    (first.toList ++ (s.comms.siblings alias_ sender).map Prod.fst).map Act.note)

def acceptanceRow (txid : String) (claim : ParkedAcceptance) : MessageRecord where
  txid := txid
  conversationId := claim.conversationId
  direction := .inbound
  kind := .handshake
  envelope := claim.envelope
  unixMs := claim.unixMs
  aliasOnWire := none
  sealedTo := none
  provenance := .nodeScanned
  wire := claim.wire

/-- Take the parked claim and apply it if the sender is the contact we chose. -/
def applyParkedAcceptance (s : Hub) (txid sender : String) (o : Oracle) : Hub :=
  match s.acceptances.find? fun e => decide (e.1 = txid) with
  | none => s
  | some (_, claim) =>
    let s := { s with acceptances := s.acceptances.filter fun e => decide (e.1 ≠ txid) }
    match s.store.conversation claim.conversationId with
    | none => s
    | some existing =>
      if existing.status ≠ .pendingOutbound ∨
          acceptanceVerdict .node (some sender) existing.contactAddress ≠ .complete then s
      else { s with
        store := ((s.store.unhideOnInbound claim.conversationId).put
          (completed existing claim.theirAlias claim.bound o.now)).recordMessage (acceptanceRow txid claim) }

/-- The order conversations are listed in, the first one greatest. -/
def listRank (row : ConversationRecord) : ℕ ×ₗ Stringᵒᵈ :=
  toLex (row.lastActivityUnixMs, OrderDual.toDual row.conversationId)

def backfill (chain : Chain) (s : Hub) (txid : String) (o : Oracle) : Hub × List Act :=
  match o.sender.filter (fun sender => (chain.mainnet sender).isSome),
      (s.store.listConversations.filter fun row =>
        s.store.nameable row && decide (row.handshakeTxid = some txid)).argmax listRank with
  | some sender, some row =>
    ({ s with store := s.store.put { row with contactAddress := sender } } : Hub).named row.conversationId
      sender row.theirAlias
  | _, _ => (s, [])

def resweep (s : Hub) : List Act :=
  (s.store.listConversations.filter s.store.nameable).filterMap fun row =>
    row.handshakeTxid.map (Act.resweepName row.conversationId)

def resweepName (s : Hub) (conversationId : String) (o : Oracle) : Hub × List Act :=
  match o.sender, s.store.conversation conversationId with
  | some sender, some row =>
    if row.contactAddress ≠ "" then (s, [])
    else
      ({ s with store := s.store.put { row with contactAddress := sender } } : Hub).named conversationId
        sender row.theirAlias
  | _, _ => (s, [])

/-- The conversation a backup describes, never an invitation. -/
def restoredConversation (payload : SavedHandshakePayload) (address conversationId : String)
    (windows : Nat × Nat) : ConversationRecord where
  conversationId := conversationId
  contactAddress := address
  myAlias := payload.alias_
  theirAlias := payload.theirAlias
  status := if payload.theirAlias.isSome then .active else .pendingOutbound
  initiatedByMe := !payload.isResponse.getD false
  boundBranch := (payload.boundSlot windows).1
  boundIndex := (payload.boundSlot windows).2
  createdUnixMs := payload.timestamp
  lastActivityUnixMs := payload.timestamp
  handshakeTxid := none

/-- A live row with an alias of ours, or an invitation, has something to defend. -/
def standing (store : TransportStore) (row : ConversationRecord) : Bool :=
  !store.isHidden row.conversationId && !decide (row.status = .active ∧ row.myAlias = "")

def stashRowIsFree (store : TransportStore) (record : ConversationRecord) : Bool :=
  let aliasIsFree (alias_ : String) : Bool :=
    (store.listConversations.filter (TransportStore.answers alias_)).all fun row => !standing store row
  (store.conversation record.conversationId).isNone &&
    ((store.conversationsForContactAddress record.contactAddress).all fun row => !standing store row) &&
    aliasIsFree record.myAlias && record.theirAlias.all aliasIsFree

def restore (chain : Chain) (s : Hub) (payload : SavedHandshakePayload) (windows : Nat × Nat) (o : Oracle) :
    Hub :=
  match o.ok && chain.aliasValid payload.alias_ && payload.theirAlias.all chain.aliasValid,
      chain.mainnet payload.partnerAddress with
  | true, some address =>
    let record := restoredConversation payload address (payload.conversationId.getD o.freshId) windows
    if s.isBlocked address ∨ stashRowIsFree s.store record = false then s
    else { s with store := ((s.store.put record).merge address).1 }
  | _, _ => s

/-- The walk read the last backup back. -/
def stashLoad (s : Hub) (run : Nat) (provenTxid : String) : List Act :=
  let state := s.stash.getD .default
  if (s.fills.lookup run).any (fun walk => decide (walk.1 = s.erasures)) ∧
      state.confirmedReadable = false ∧ state.lastTxid ≠ "" ∧ provenTxid = state.lastTxid then
    [.stashSave { state with confirmedReadable := true }]
  else []

/-- The order a contact's rows are tried in, the first one greatest. -/
def establishedRank (row : ConversationRecord) : Bool ×ₗ ℕᵒᵈ ×ₗ Stringᵒᵈ :=
  toLex (decide (row.status = .active),
    toLex (OrderDual.toDual row.createdUnixMs, OrderDual.toDual row.conversationId))

def commSendable (row : ConversationRecord) : Bool :=
  decide (row.status = .active ∨ row.status = .pendingOutbound ∧ row.initiatedByMe = true) &&
    decide (row.contactAddress ≠ "" ∧ row.myAlias ≠ "")

/-- The user asks for a row back: shown, but never an invitation. -/
def unhideRow (s : Hub) (row : ConversationRecord) : Hub :=
  if mayUnhide row.status (s.store.isHidden row.conversationId) then
    { s with store := s.store.reveal row.conversationId }
  else s

def route (chain : Chain) (s : Hub) (address : String) : Hub :=
  match (chain.mainnet address).bind fun address =>
      ((s.store.conversationsForContactAddress address).filter fun row =>
        decide (row.status = .active) || commSendable row).argmax establishedRank with
  | some row => s.unhideRow row
  | none => s

end Kaspaverse.Transport.Hub
