import Kaspaverse.Transport.HubSections

namespace Kaspaverse.Transport.Hub

/-- A block keys on the address, and there is none to key on before the sender is known. -/
def blockRead (s : Hub) (conversationId : String) : List Act :=
  match s.store.conversation conversationId with
  | none => []
  | some row => if row.contactAddress = "" then [] else [.blockList row.contactAddress row.theirAlias]

/-- The refusal first, saved before it counts. -/
def blockList (s : Hub) (address : String) (alias_ : Option String) (o : Oracle) : Hub × List Act :=
  if o.ok = false then (s, [])
  else
    ({ s with blocked := if s.isBlocked address then s.blocked else address :: s.blocked },
      [.blockIds address alias_])

def blockIds (s : Hub) (address : String) (alias_ : Option String) : List Act :=
  [.seal, .blockPurge address alias_
    ((s.store.conversationsForContactAddress address).map ConversationRecord.conversationId)]

def blockPurge (s : Hub) (address : String) (alias_ : Option String) (ids : List String) : Hub × List Act :=
  ({ s with
      store := s.store.purgeContactRows address false
      held := if address ∈ s.blocked then insert address s.held else s.held },
    [.blockForget alias_ ids])

def unblock (s : Hub) (address : String) (o : Oracle) : Hub :=
  if o.ok = false then s
  else { s with blocked := s.blocked.filter (· ≠ address), held := s.held.erase address }

/-- Accepting or inviting a contact lifts its block. A lift that is not saved is not made. -/
def liftBlockOnContact (s : Hub) (address : String) (o : Oracle) : Hub :=
  { s with
    blocked := if s.isBlocked address ∧ o.ok = true then s.blocked.filter (· ≠ address) else s.blocked
    held := s.held.erase address }

/-- Is it a section of a row that a walk of the history fill folds? -/
def ofFill : Act → Bool
  | .commClaim comm | .commStored comm | .commRoute comm _ _ | .revive comm _ | .reviveOpen comm _ =>
    decide (comm.origin = .fill)
  | .commWaits routed | .commOpen routed | .commFile routed _ _ => decide (routed.comm.origin = .fill)
  | .handshakeStored handshake | .handshakeOpen handshake _ => decide (handshake.origin = .fill)
  | .handshakeOverride handshake _ | .handshakeResolve handshake | .handshakeAwaiting handshake _
  | .handshakeComplete handshake _ _ | .handshakePark handshake _ | .handshakeMatch handshake _
  | .handshakeContact handshake _ | .handshakeInvite handshake _ => decide (handshake.origin = .fill)
  | .restore _ _ => true
  | _ => false

/-- The transactions a section may store a message of. -/
def txids : Act → List String
  | .commClaim comm | .commStored comm | .commRoute comm _ _ | .revive comm _ | .reviveOpen comm _ => [comm.txid]
  | .commWaits routed | .commOpen routed | .commFile routed _ _ => [routed.comm.txid]
  | .park txid _ | .adoptFold txid _ => [txid]
  | .handshakeStored handshake | .handshakeOpen handshake _ => [handshake.txid]
  | .handshakeOverride handshake _ | .handshakeResolve handshake | .handshakeAwaiting handshake _
  | .handshakeComplete handshake _ _ | .handshakePark handshake _ | .handshakeMatch handshake _
  | .handshakeContact handshake _ | .handshakeInvite handshake _ => [handshake.txid]
  | .releaseFile _ _ rows => rows.map Prod.fst
  | .apply _ txid => [txid]
  | _ => []

/-- The conversations of a backup's row. -/
def restores : Act → List String
  | .restore payload _ => payload.conversationId.toList
  | _ => []

/-- The rows go. A fill's row that is on its way in as they do is one of its own. -/
def wipeStore (s : Hub) : Hub :=
  let filling := s.calls.values.flatten.filter ofFill
  let ids := s.store.listConversations.map ConversationRecord.conversationId
  let messages := s.store.messages.records.values.map MessageRecord.txid
  { s with
    store := .emptied
    destroyed := { s.destroyed with
      ids id := if id ∈ ids ∧ id ∉ filling.flatMap restores then some s.erasures else s.destroyed.ids id
      txids txid :=
        if txid ∈ messages ∧ txid ∉ filling.flatMap txids then some s.erasures else s.destroyed.txids txid } }

/-- The backup's record goes. -/
def wipeFiles (s : Hub) : Hub :=
  { s with
    stash := none
    destroyed := { s.destroyed with
      backups txid := s.destroyed.backups txid || s.stash.any fun state => decide (state.lastTxid = txid)
      covered id := s.destroyed.covered id || (s.destroyed.ids id).isSome } }

def handshakeReuses (row : ConversationRecord) : Bool :=
  decide (row.status = .pendingOutbound ∧ row.initiatedByMe = true) ||
    decide (row.status = .active ∧ row.myAlias = "")

def inviteExpired (chain : Chain) (row : ConversationRecord) (now : Nat) : Bool :=
  decide (row.status = .pendingInbound ∧ chain.pruningHorizonMs < now - row.createdUnixMs)

def invitationIsAcceptable (chain : Chain) (s : Hub) (row : ConversationRecord) (now : Nat) : Bool :=
  decide (row.status = .pendingInbound) && row.theirAlias.isSome &&
    !s.store.isHidden row.conversationId && !inviteExpired chain row now &&
      row.handshakeTxid.any s.store.acceptProvenanceOk

/-- The snapshot a handshake to an address commits: the row it reuses, or a new one. -/
def outgoing (existing : Option ConversationRecord) (address : String) (o : Oracle) : ConversationRecord :=
  match existing with
  | some row => { row with
      myAlias := if row.myAlias ≠ "" then row.myAlias else o.freshAlias
      lastActivityUnixMs := o.now }
  | none => ⟨o.freshId, address, o.freshAlias, none, .pendingOutbound, true, .receive, 0, o.now, o.now, none⟩

def prepareHandshake (chain : Chain) (s : Hub) (address : String) (o : Oracle) : Hub × List Act :=
  match chain.mainnet address with
  | none => (s, [])
  | some dest =>
    let rows := s.store.conversationsForContactAddress dest
    let reuse := (rows.filter handshakeReuses).argmax establishedRank
    let shown := match reuse with
      | some row => s.unhideRow row
      | none => s
    if (rows.any fun row => decide (row.status = .active ∧ row.myAlias ≠ "") &&
          !shown.store.isHidden row.conversationId) ∨
        (rows.any fun row => invitationIsAcceptable chain shown row o.now) then (shown, [])
    else
      (shown, [.allot (.handshake (outgoing reuse dest o) o.bytes o.now)])

def prepareComm (s : Hub) (conversationId : String) (o : Oracle) : Hub × List Act :=
  match s.store.conversation conversationId with
  | none => (s, [])
  | some row =>
    if commSendable row then
      let intent : TransportIntent :=
        .comm conversationId row.myAlias o.bytes (row.boundBranch, row.boundIndex) o.now o.wire
      ({ s with addressed := s.addressed.insert intent row.contactAddress }, [.allot intent])
    else (s, [])

def prepareAccept (chain : Chain) (s : Hub) (conversationId : String) (o : Oracle) : List Act :=
  match s.store.conversation conversationId with
  | none => []
  | some row =>
    if row.status ≠ .pendingInbound ∨ s.store.isHidden conversationId = true ∨
        inviteExpired chain row o.now = true then []
    else
      match row.theirAlias, row.handshakeTxid with
      | some theirAlias, some txid =>
        if s.store.acceptProvenanceOk txid then [.prepareAcceptNamed conversationId theirAlias txid] else []
      | _, _ => []

/-- One row per contact, at the spend: fold first, and refuse if this row was the one folded. -/
def prepareAcceptNamed (chain : Chain) (s : Hub) (conversationId theirAlias : String) (o : Oracle) :
    Hub × List Act :=
  match o.sender.filter fun sender => o.ok && (chain.mainnet sender).isSome with
  | none => (s, [])
  | some sender =>
    let intent := Act.allot (.accept conversationId sender o.freshAlias o.bytes o.now)
    if (s.store.conversationsForContactAddress sender).any fun row =>
        decide (row.conversationId ≠ conversationId) then
      let store := match s.store.conversation conversationId with
        | some row => if row.contactAddress = "" then s.store.put { row with contactAddress := sender } else s.store
        | none => s.store
      let merged := store.merge sender
      ({ s with store := merged.1 },
        .release (merged.2.getD conversationId) theirAlias sender ::
          if Pending.acceptTargetMissing merged.1 conversationId then [] else [intent])
    else (s, [intent])

/-- What can be backed up. -/
def stashable (chain : Chain) (s : Hub) : List String :=
  (s.store.listConversations.filter fun row => !s.store.isHidden row.conversationId &&
    decide (row.contactAddress ≠ "" ∧ row.myAlias ≠ "") && chain.aliasValid row.myAlias &&
      row.theirAlias.all chain.aliasValid).map ConversationRecord.conversationId

def prepareStash (chain : Chain) (s : Hub) (o : Oracle) : List Act :=
  if s.stashable chain = [] then [] else [.allot (.selfStash (s.stashable chain) o.now)]

def commit (s : Hub) (nonce : Nat) : List Act :=
  match Pending.pendingAcceptTarget s.intent nonce with
  | some target => [.commitCheck nonce target]
  | none => [.takePlan nonce]

def commitCheck (s : Hub) (nonce : Nat) (target : String) : List Act :=
  if Pending.acceptTargetMissing s.store target then [.abandonPlan, .abandonIntent] else [.takePlan nonce]

def takePlan (s : Hub) (nonce : Nat) : Hub × List Act :=
  match s.plan with
  | some (stored, built) => if stored = nonce then ({ s with plan := none }, [.takeIntent nonce built]) else (s, [])
  | none => (s, [])

def takeIntent (s : Hub) (nonce : Nat) (built : TransportIntent) : Hub × List Act :=
  ({ s with intent := (Pending.takeIntent s.intent nonce).2 },
    [.broadcast built (Pending.takeIntent s.intent nonce).1])

/-- A clean broadcast hands its intent on. -/
def broadcast (intent : Option TransportIntent) (o : Oracle) : List Act :=
  match intent, o.ok with
  | some intent, true => [.apply intent o.txid]
  | _, _ => []

/-- The live row wins on everything it can have learned since the snapshot. -/
def mergeHandshakeCommit (snapshot live : ConversationRecord) : ConversationRecord :=
  { snapshot with
    theirAlias := live.theirAlias.or snapshot.theirAlias
    boundBranch := live.boundBranch
    boundIndex := live.boundIndex
    status := if live.status = .pendingOutbound then snapshot.status else live.status
    lastActivityUnixMs := max live.lastActivityUnixMs snapshot.lastActivityUnixMs }

def ownRow (txid conversationId : String) (kind : StoredKind) (reseal : List UInt8) (timestampMs : Nat)
    (aliasOnWire : Option String) (sealedTo : KeySlot) (wire : WireNamespace) : MessageRecord where
  txid := txid
  conversationId := conversationId
  direction := .outbound
  kind := kind
  envelope := reseal
  unixMs := timestampMs
  aliasOnWire := aliasOnWire
  sealedTo := some sealedTo
  provenance := .own
  wire := wire

def applyHandshake (s : Hub) (snapshot : ConversationRecord) (reseal : List UInt8) (timestampMs : Nat)
    (txid : String) (o : Oracle) : Hub :=
  let snapshot : ConversationRecord := { snapshot with handshakeTxid := some txid }
  let row := match s.store.conversation snapshot.conversationId with
    | some live => mergeHandshakeCommit snapshot live
    | none => snapshot
  let s := s.liftBlockOnContact row.contactAddress o
  { s with
    store := (s.store.put row).recordMessage (ownRow txid row.conversationId .handshake reseal timestampMs
      none (row.boundBranch, row.boundIndex) .ciphMsg) }

/-- Accepting makes the row the newest active one of its contact. -/
def acceptedAt (store : TransportStore) (address conversationId : String) (timestampMs : Nat) : Nat :=
  match ((store.conversationsForContactAddress address).filter fun row =>
      decide (row.conversationId ≠ conversationId ∧ row.status = .active)).map
        ConversationRecord.createdUnixMs |>.max? with
  | some newest => max timestampMs (newest + 1)
  | none => timestampMs

def applyAccept (s : Hub) (conversationId contactAddress myAlias : String) (reseal : List UInt8)
    (timestampMs : Nat) (txid : String) (o : Oracle) : Hub × List Act :=
  match s.store.conversation conversationId with
  | none => (s, [])
  | some existing =>
    let s := s.liftBlockOnContact contactAddress o
    let row : ConversationRecord := { existing with
      contactAddress := contactAddress
      myAlias := myAlias
      status := .active
      lastActivityUnixMs := timestampMs
      createdUnixMs := acceptedAt s.store contactAddress conversationId timestampMs }
    ({ s with
      store := (s.store.put row).recordMessage (ownRow txid conversationId .handshake reseal timestampMs none
        (row.boundBranch, row.boundIndex) .ciphMsg) },
      existing.theirAlias.toList.map fun alias_ => .release conversationId alias_ contactAddress)

def applyComm (s : Hub) (conversationId aliasOnWire : String) (reseal : List UInt8) (sealedTo : KeySlot)
    (timestampMs : Nat) (wire : WireNamespace) (txid : String) : Hub :=
  let store := s.store.recordMessage
    (ownRow txid conversationId .comm reseal timestampMs (some aliasOnWire) sealedTo wire)
  { s with
    store := match store.conversation conversationId with
      | some existing => store.put { existing with lastActivityUnixMs := timestampMs }
      | none => store }

def applyIntent (s : Hub) (intent : TransportIntent) (txid : String) (o : Oracle) : Hub × List Act :=
  match intent with
  | .bcast => (s, [])
  | .handshake conversation reseal timestampMs => (s.applyHandshake conversation reseal timestampMs txid o, [])
  | .accept conversationId contactAddress myAlias reseal timestampMs =>
    s.applyAccept conversationId contactAddress myAlias reseal timestampMs txid o
  | .comm conversationId aliasOnWire reseal sealedTo timestampMs wire =>
    (s.applyComm conversationId aliasOnWire reseal sealedTo timestampMs wire txid, [])
  | .selfStash covered timestampMs =>
    (if o.ok then { s with stash := some ⟨timestampMs, txid, covered, false⟩ } else s, [])

/-- The start's sweep: no thread of a blocked address, but for its live requests. -/
def startSweep (s : Hub) (addresses : List String) : Hub :=
  { s with store := addresses.foldl (fun store address => store.purgeContactRows address true) s.store }

/-- One critical section: what it leaves, and the sections of its call that follow it. -/
def perform (chain : Chain) (s : Hub) (o : Oracle) : Act → Hub × List Act
  | .commClaim comm =>
    (s, if commClaim comm.origin (s.refuted.contains comm.txid) (s.comms.contains comm.txid) = none then
      [.commStored comm] else [])
  | .commStored comm => (s, s.commStored comm)
  | .commRoute comm alias_ replaces => (s, s.commRoute comm alias_ replaces)
  | .commWaits routed => (s, if s.comms.contains routed.comm.txid then [] else [.commOpen routed])
  | .commOpen routed => (s, commOpen routed o)
  | .commFile routed slot envelope => (s.commFile routed slot envelope o, [])
  | .revive comm alias_ =>
    (s, if revivalRefusal comm.origin (s.comms.contains comm.txid) o.ok = none then
      [.reviveOpen comm alias_] else [])
  | .reviveOpen comm alias_ => (s, reviveOpen comm alias_ o)
  | .park txid comm => ({ s with comms := s.comms.park txid comm }, [])
  | .note txid => ({ s with refuted := s.refuted.note txid }, [])
  | .removeArchiveRow txid => (s.removeArchiveRow txid, [])
  | .handshakeStored handshake => (s, s.handshakeStored handshake)
  | .handshakeOpen handshake replaces => (s, handshakeOpen handshake replaces o)
  | .handshakeOverride handshake old => s.handshakeOverride chain handshake old
  | .handshakeResolve handshake => (s, handshakeResolve handshake o)
  | .handshakeAwaiting handshake sender => (s, s.handshakeAwaiting handshake sender)
  | .handshakeComplete handshake sender conversationId => (s.handshakeComplete handshake sender conversationId, [])
  | .handshakePark handshake conversationId => (s.handshakePark handshake conversationId, [])
  | .handshakeMatch handshake sender => (s, s.handshakeMatch handshake sender)
  | .handshakeContact handshake sender => s.handshakeContact handshake sender
  | .handshakeInvite handshake sender => (s.handshakeInvite handshake sender o, [])
  | .release conversationId alias_ sender => s.release conversationId alias_ sender
  | .releaseFile conversationId sender rows => (s.releaseFile conversationId sender rows o, [])
  | .adopt txid => s.adopt txid
  | .adoptFold txid parked => s.adoptFold chain txid parked o
  | .forget alias_ sender first => s.forget alias_ sender first
  | .acceptance txid =>
    (match o.sender with
      | some sender => s.applyParkedAcceptance txid sender o
      | none => s, [])
  | .backfill txid => s.backfill chain txid o
  | .resweep => (s, s.resweep)
  | .resweepName conversationId _ => s.resweepName conversationId o
  | .restore payload windows => (s.restore chain payload windows o, [])
  | .stashLoad run provenTxid => (s, s.stashLoad run provenTxid)
  | .stashSave state => (if o.ok then { s with stash := some state } else s, [])
  | .hide conversationId => ({ s with store := s.store.hideRows conversationId }, [])
  | .clearRows conversationId => ({ s with store := s.store.clearRows conversationId }, [])
  | .route address => (s.route chain address, [])
  | .blockRead conversationId => (s, s.blockRead conversationId)
  | .blockList address alias_ => s.blockList address alias_ o
  | .blockIds address alias_ => (s, s.blockIds address alias_)
  | .blockPurge address alias_ ids => s.blockPurge address alias_ ids
  | .blockForget alias_ ids =>
    (match alias_ with
      | some alias_ => { s with comms := s.comms.forgetAlias alias_ }
      | none => s, [.blockRetain ids])
  | .blockRetain ids =>
    ({ s with acceptances := s.acceptances.filter fun e => decide (e.2.conversationId ∉ ids) }, [])
  | .unblock address => (s.unblock address o, [])
  | .abandonPlan => ({ s with plan := none }, [])
  | .abandonIntent => ({ s with intent := none }, [])
  | .seal => ({ s with erasures := s.erasures + 1 }, [])
  | .wipeStore => (s.wipeStore, [])
  | .wipeFiles => (s.wipeFiles, [])
  | .wipeComms => ({ s with comms := ⟨[]⟩ }, [])
  | .wipeAcceptances => ({ s with acceptances := [] }, [])
  | .prepareHandshake address => s.prepareHandshake chain address o
  | .prepareComm conversationId => s.prepareComm conversationId o
  | .prepareAccept conversationId => (s, s.prepareAccept chain conversationId o)
  | .prepareAcceptNamed conversationId theirAlias _ => s.prepareAcceptNamed chain conversationId theirAlias o
  | .prepareStash => (s, s.prepareStash chain o)
  | .allot intent => ({ s with nonce := s.nonce + 1 }, if o.ok then [.storeIntent s.nonce intent] else [])
  | .storeIntent nonce intent => ({ s with intent := some (nonce, intent) }, [.storePlan nonce intent])
  | .storePlan nonce built => ({ s with plan := some (nonce, built) }, [])
  | .commit nonce => (s, s.commit nonce)
  | .commitCheck nonce target => (s, s.commitCheck nonce target)
  | .takePlan nonce => s.takePlan nonce
  | .takeIntent nonce built => s.takeIntent nonce built
  | .broadcast _ intent => (s, broadcast intent o)
  | .apply intent txid => s.applyIntent intent txid o
  | .startMerge => ({ s with store := s.store.mergeAll }, [])
  | .startBlocked => (s, [.startSweep s.blocked])
  | .startSweep addresses => (s.startSweep addresses, [])

/-- The conversation ids a section draws or reads, whether it comes to use them or not. -/
def draws (o : Oracle) : Act → List String
  | .handshakeInvite _ _ | .adoptFold _ _ | .prepareHandshake _ => [o.freshId]
  | .restore payload _ => [payload.conversationId.getD o.freshId]
  | _ => []

/-- What calls the hub from outside the history fill. -/
inductive Call
  | inboundComm (comm : InboundComm)
  | inboundHandshake (handshake : InboundHandshake)
  | senderOfComm (txid : String)
  | senderOfAcceptance (txid : String)
  | senderOfInvitation (txid : String)
  | hide (conversationId : String)
  | clear (conversationId : String)
  | existing (address : String)
  | block (conversationId : String)
  | unblock (address : String)
  | abandon
  | wipe
  | prepareHandshake (address : String)
  | prepareComm (conversationId : String)
  | prepareAccept (conversationId : String)
  | prepareStash
  | commit (nonce : Nat)
  | start

def Call.acts : Call → List Act
  | .inboundComm comm => [.commClaim comm]
  | .inboundHandshake handshake => [.handshakeStored handshake]
  | .senderOfComm txid => [.adopt txid]
  | .senderOfAcceptance txid => [.acceptance txid]
  | .senderOfInvitation txid => [.backfill txid]
  | .hide conversationId => [.hide conversationId]
  | .clear conversationId => [.seal, .clearRows conversationId]
  | .existing address => [.route address]
  | .block conversationId => [.blockRead conversationId]
  | .unblock address => [.unblock address]
  | .abandon => [.abandonPlan, .abandonIntent]
  | .wipe =>
    [.abandonPlan, .abandonIntent, .seal, .wipeStore, .wipeFiles, .wipeComms, .wipeAcceptances]
  | .prepareHandshake address => [.prepareHandshake address]
  | .prepareComm conversationId => [.prepareComm conversationId]
  | .prepareAccept conversationId => [.prepareAccept conversationId]
  | .prepareStash => [.prepareStash]
  | .commit nonce => [.commit nonce]
  | .start => [.startMerge, .startBlocked, .resweep]

/-- What a walk of the history fill folds. -/
inductive FillRow
  | comm (comm : InboundComm)
  | handshake (handshake : InboundHandshake)
  | backup (payload : SavedHandshakePayload) (windows : Nat × Nat)

def FillRow.acts : FillRow → List Act
  | .comm row => [.commClaim { row with origin := .fill }]
  | .handshake row => [.handshakeStored { row with origin := .fill }]
  | .backup payload windows => [.restore payload windows]

/-- The page of our node names the true sender, or nobody. -/
def Call.truthful (chain : Chain) : Call → Bool
  | .inboundComm comm =>
    decide (comm.origin = .node) && comm.sender.all fun sender => decide (sender = chain.sender comm.txid)
  | .inboundHandshake handshake =>
    decide (handshake.origin = .node) &&
      handshake.pageSender.all fun sender => decide (sender = chain.sender handshake.txid)
  | _ => true

/-- The transaction a section asks our node the sender of. -/
def asks : Act → Option String
  | .handshakeResolve handshake => some handshake.txid
  | .adoptFold txid _ | .acceptance txid | .backfill txid | .resweepName _ txid
  | .prepareAcceptNamed _ _ txid => some txid
  | _ => none

/-- Our node answers truly or not at all, and fresh ids and aliases are fresh. -/
def answers (chain : Chain) (s : Hub) (act : Act) (o : Oracle) : Bool :=
  (match asks act with
    | some txid => o.sender.all fun sender => decide (sender = chain.sender txid)
    | none => true) && decide (o.freshId ∉ s.minted ∧ o.freshAlias ≠ "")

inductive Event
  | call (id : Nat) (call : Call)
  | perform (id : Nat) (o : Oracle)
  | fillBegin (run : Nat)
  /-- the walk looks whether an erase passed since it began -/
  | fillCheck (run : Nat)
  | fillFold (run id : Nat) (row : FillRow)
  | fillProve (run id : Nat) (provenTxid : String)
  | restart

/-- The transaction our walk reads with a call. -/
def Call.reads : Call → List String
  | .inboundComm comm => [comm.txid]
  | .inboundHandshake handshake => [handshake.txid]
  | _ => []

/-- An id that was drawn or read is never drawn again. -/
def mint (s : Hub) (ids : List String) : Hub := { s with minted := ids.toFinset ∪ s.minted }

/-- Put a call's remaining sections back. -/
def setCall (s : Hub) (id : Nat) (acts : List Act) : Hub :=
  { s with calls := match acts with
    | [] => s.calls.erase id
    | acts => s.calls.insert id acts }

def step (chain : Chain) (s : Hub) : Event → Option Hub
  | .call id call =>
    if id ∈ s.calls ∨ call.truthful chain = false then none
    else some ({ s with destroyed := s.destroyed.except [] call.reads fun _ => true } |>.setCall id call.acts)
  | .perform id o =>
    match s.calls.lookup id with
    | some (act :: rest) =>
      if s.answers chain act o then
        some (((s.perform chain o act).1.mint (draws o act)).setCall id ((s.perform chain o act).2 ++ rest))
      else none
    | _ => none
  | .fillBegin run => if run ∈ s.fills then none else some { s with fills := s.fills.insert run (s.erasures, false) }
  | .fillCheck run =>
    match s.fills.lookup run with
    | some (began, _) =>
      some { s with
        fills := if began = s.erasures then s.fills.insert run (began, true) else s.fills.erase run }
    | none => none
  | .fillFold run id row =>
    match s.fills.lookup run with
    | some (began, true) =>
      if id ∈ s.calls then none
      else some ({ s with
        fills := s.fills.insert run (began, false)
        destroyed := s.destroyed.except (row.acts.flatMap restores) (row.acts.flatMap txids)
          fun at_ => decide (began < at_) } |>.setCall id row.acts)
    | _ => none
  | .fillProve run id provenTxid =>
    if run ∈ s.fills ∧ id ∉ s.calls then some (s.setCall id [.stashLoad run provenTxid]) else none
  | .restart =>
    some { s with
      comms := ⟨[]⟩, acceptances := [], refuted := ⟨[]⟩, nonce := 1, plan := none, intent := none
      erasures := 0, fills := ∅, calls := ∅
      destroyed := { s.destroyed with
        ids id := (s.destroyed.ids id).map fun _ => 0
        txids txid := (s.destroyed.txids txid).map fun _ => 0 } }

def launch : Hub where
  store := .emptied
  blocked := []
  comms := ⟨[]⟩
  acceptances := []
  refuted := ⟨[]⟩
  stash := none
  nonce := 1
  plan := none
  intent := none
  erasures := 0
  fills := ∅
  calls := ∅
  minted := ∅
  addressed := ∅
  filedFor := ∅
  held := ∅
  destroyed := .nothing

end Kaspaverse.Transport.Hub
