import Mathlib
import Kaspaverse.Library.Rounds
import Kaspaverse.Chain.SubmitLog

namespace Kaspaverse.Chain

structure InFlightSend where
  returning : List (UtxoEntryId × Nat)
  spends : List UtxoEntryId
  deriving DecidableEq

/-- What the store keeps of a leg of ours. -/
structure LegMeta where
  paidTo : String
  /-- Its inputs other than its own send's earlier legs' outputs. -/
  direct : List UtxoEntryReference
  /-- Its inputs that are its own send's earlier legs' outputs. -/
  earlier : List UtxoEntryReference
  outputs : List (Nat × Nat × Option Address)
  sinceUnixMs : Nat
  sinceDaa : Nat
  deriving DecidableEq

def LegMeta.inputs (leg : LegMeta) : List UtxoEntryReference := leg.direct ++ leg.earlier

/-- A leg whose submit got no answer. -/
structure UnknownLeg where
  txid : TransactionId
  paidTo : String
  held : List UtxoEntryReference
  earlier : List UtxoEntryReference
  sinceUnixMs : Nat
  seq : Nat
  deriving DecidableEq

def UnknownLeg.inputs (leg : UnknownLeg) : List UtxoEntryReference := leg.held ++ leg.earlier

def UnknownLeg.spends (leg : UnknownLeg) (coin : UtxoEntryId) : Bool :=
  leg.inputs.any fun own => own.id == coin

/-- The leg without its clock, which a read sets back. -/
def UnknownLeg.timeless (leg : UnknownLeg) : UnknownLeg := { leg with sinceUnixMs := 0 }

/-- The leg `known` describes, cancelled at `now`. -/
def LegMeta.unknownLeg (known : LegMeta) (txid : TransactionId) (now : Nat) : UnknownLeg where
  txid := txid
  paidTo := known.paidTo
  held := known.direct
  earlier := known.earlier
  sinceUnixMs := now
  seq := 0

/-- A coin one of our accepted sends spent. -/
structure SpentByUs where
  coin : UtxoEntryId
  seenAtDaa : Nat
  seenAtMs : Nat
  deriving DecidableEq

def LANDED_NOTICE_FOR_MS : Nat := 60 * 60 * 1000

def LANDED_KEPT : Nat := 64

def READ_SETTLED_KEPT : Nat := 1024

def EARLIER_ANCHOR_FOR_MS : Nat := 24 * 60 * 60 * 1000

def SPENT_KEPT : Nat := 4096

def SPENT_FOR_MS : Nat := 60 * 60 * 1000

def CARRIED_FOR_MS : Nat := 24 * 60 * 60 * 1000

/-- The last `bound` elements. -/
def lastOf {α : Type*} (bound : Nat) (list : List α) : List α := (list.reverse.take bound).reverse

/-- Our own sends on one lane. -/
structure InFlightSends where
  sends : KeyMap TransactionId InFlightSend
  taken : KeyMap TransactionId OutgoingTransaction
  accepted : Finset TransactionId
  cancelled : KeyMap TransactionId (List UtxoEntryReference)
  log : SubmitLog
  unknown : List UnknownLeg
  nextUnknown : Nat
  readSettled : List TransactionId
  landed : List (String × Nat)
  retired : List (TransactionId × String × Nat)
  legMeta : KeyMap TransactionId LegMeta
  carried : KeyMap TransactionId LegMeta
  spentByUs : List SpentByUs
  ours : Finset Address
  carriedForDaa : Nat

namespace InFlightSends

def default (carriedForDaa : Nat) : InFlightSends where
  sends := ∅
  taken := ∅
  accepted := ∅
  cancelled := ∅
  log := .empty
  unknown := []
  nextUnknown := 0
  readSettled := []
  landed := []
  retired := []
  legMeta := ∅
  carried := ∅
  spentByUs := []
  ours := ∅
  carriedForDaa := carriedForDaa

/-- Whether a leg of unknown fate has this txid. -/
def isUnknown (s : InFlightSends) (txid : TransactionId) : Bool :=
  s.unknown.any fun leg => leg.txid == txid

def enter (s : InFlightSends) (txid : TransactionId) (send : InFlightSend) : InFlightSends :=
  { s with sends := s.sends.insert txid send }

def submitting (s : InFlightSends) (txid : TransactionId) (inputs : List UtxoEntryId) :
    InFlightSends :=
  { s with log := s.log.submitting txid inputs }

def fateUnknown (s : InFlightSends) (leg : UnknownLeg) : InFlightSends :=
  { s with
    unknown := (s.unknown.filter fun known => known.txid != leg.txid) ++
      [{ leg with seq := s.nextUnknown }]
    nextUnknown := s.nextUnknown + 1 }

/-- A leg that may have left with no record of its fate is of unknown fate. -/
def anchorUnrecorded (s : InFlightSends) (txid : TransactionId) (now : Nat) : InFlightSends :=
  if txid ∉ s.taken ∧ s.isUnknown txid = false then
    match s.legMeta.lookup txid with
    | some known => s.fateUnknown (known.unknownLeg txid now)
    | none => s
  else s

def submitReturned (s : InFlightSends) (txid : TransactionId) (mayHaveLeft : Bool) (now : Nat) :
    InFlightSends :=
  let noted := { s with log := s.log.note txid mayHaveLeft }
  let uncarried := { noted with carried := noted.carried.erase txid }
  let anchored := if mayHaveLeft then uncarried.anchorUnrecorded txid now else noted
  { anchored with log := anchored.log.prune }

def beginRead (s : InFlightSends) : Nat × InFlightSends :=
  (s.log.floor, { s with log := s.log.beginRead.2 })

def endRead (s : InFlightSends) (floor : Nat) : InFlightSends :=
  { s with log := s.log.endRead floor }

def noteLanded (landed : List (String × Nat)) (key : String) (now : Nat) : List (String × Nat) :=
  if key = "" then landed else lastOf LANDED_KEPT (landed ++ [(key, now)])

/-- Keep the legs `keep` holds; the rest are retired. -/
def retire (s : InFlightSends) (keep : UnknownLeg → Bool) (now : Nat) : InFlightSends :=
  { s with
    unknown := s.unknown.filter keep
    retired := lastOf LANDED_KEPT (s.retired ++ (s.unknown.filter fun leg => !keep leg).map
      fun leg => (leg.txid, leg.paidTo, now)) }

/-- The legs `landed` names landed: a retired one only while it is young. -/
def provenLanded (s : InFlightSends) (landed : TransactionId → Bool) (now : Nat) : InFlightSends :=
  let young := fun entry : TransactionId × String × Nat =>
    landed entry.1 && decide (now - entry.2.2 < LANDED_NOTICE_FOR_MS)
  let keys := (s.unknown.filter fun leg => landed leg.txid).map (·.paidTo) ++
    (s.retired.filter young).map (·.2.1)
  { s with
    unknown := s.unknown.filter fun leg => !landed leg.txid
    retired := s.retired.filter fun entry => !young entry
    landed := keys.foldl (fun notices key => noteLanded notices key now) s.landed }

/-- A time later than now is taken as now. -/
def clampUnknown (s : InFlightSends) (now : Nat) : InFlightSends :=
  { s with unknown := s.unknown.map fun leg => { leg with sinceUnixMs := min leg.sinceUnixMs now } }

def retireUnknown (s : InFlightSends) (spent : UtxoEntryReference → Bool) (before now : Nat) :
    InFlightSends :=
  (s.clampUnknown now).retire (fun leg =>
    !(decide (leg.seq < before) && leg.inputs.any spent) &&
      (!leg.held.isEmpty || decide (now - leg.sinceUnixMs < EARLIER_ANCHOR_FOR_MS))) now

def coinsSpent (s : InFlightSends) (coins : List UtxoEntryId) (now : Nat) : InFlightSends :=
  s.retire (fun leg => !coins.any leg.spends) now

def creatorLost (s : InFlightSends) (txid : TransactionId) (now : Nat) : InFlightSends :=
  s.retire (fun leg => !leg.earlier.any fun coin => coin.id.transactionId == txid) now

def fateSeen (s : InFlightSends) (txid : TransactionId) (now : Nat) : InFlightSends :=
  s.provenLanded (· == txid) now

/-- Drop the leg of unknown fate `txid`, retiring nothing. -/
def dropUnknown (s : InFlightSends) (txid : TransactionId) : InFlightSends :=
  { s with unknown := s.unknown.filter fun leg => leg.txid != txid }

def ownSendSeen (s : InFlightSends) (txid : TransactionId) (acceptedSpends : List UtxoEntryId)
    (now : Nat) : InFlightSends :=
  (s.dropUnknown txid).coinsSpent acceptedSpends now

def outputsListed (s : InFlightSends) (txids : Finset TransactionId) (now : Nat) : InFlightSends :=
  s.provenLanded (fun txid => decide (txid ∈ txids)) now

/-- The records an acceptance of `txid` takes, before its own send. -/
def untake (s : InFlightSends) (txid : TransactionId) : InFlightSends :=
  { s with
    taken := s.taken.erase txid
    accepted := if txid ∈ s.taken then insert txid s.accepted else s.accepted
    carried := s.carried.erase txid }

/-- `leave`, to a depth of `fuel`. -/
def leaveWithin (now : Nat) : Nat → InFlightSends → TransactionId → InFlightSends
  | 0, s, _ => s
  | fuel + 1, s, txid =>
    match s.sends.lookup txid with
    | none => (s.untake txid).fateSeen txid now
    | some send =>
      let gone := { s.untake txid with sends := s.sends.erase txid }
      send.spends.foldl (fun s spent => leaveWithin now fuel s spent.transactionId)
        (gone.ownSendSeen txid send.spends now)

def leave (s : InFlightSends) (txid : TransactionId) (now : Nat) : InFlightSends :=
  leaveWithin now (s.sends.entries.length + 1) s txid

def returnedTagged (s : InFlightSends) (txid : TransactionId) : Option Bool :=
  (s.taken.lookup txid).map (·.isAccepted)

def unknownAddresses (s : InFlightSends) (key : String) : List Address :=
  ((s.unknown.filter fun leg => leg.paidTo == key).flatMap fun leg =>
    leg.inputs.filterMap (·.address)).eraseDups

def tracks (s : InFlightSends) (txid : TransactionId) : Bool :=
  decide (txid ∈ s.taken) || decide (txid ∈ s.sends) || decide (txid ∈ s.readSettled) ||
    decide (txid ∈ s.carried)

def unknownMark (s : InFlightSends) : Nat := s.nextUnknown

def takeLanded (s : InFlightSends) (key : String) (now : Nat) : Bool × InFlightSends :=
  let live := fun notice : String × Nat => decide (now - notice.2 < LANDED_NOTICE_FOR_MS)
  (s.landed.any fun notice => live notice && notice.1 == key,
    { s with landed := s.landed.filter fun notice => live notice && notice.1 != key })

def noteTaken (s : InFlightSends) (record : OutgoingTransaction) : InFlightSends :=
  { s with taken := s.taken.insert record.id record }

def noteCancelled (s : InFlightSends) (txid : TransactionId) (coins : List UtxoEntryReference) :
    InFlightSends :=
  { s with cancelled := s.cancelled.insert txid coins }

/-- What a reopen hands back to the pin and clears. -/
structure Reopen where
  taken : List OutgoingTransaction
  accepted : Finset TransactionId
  cancelled : List UtxoEntryReference

def reopen (s : InFlightSends) : Reopen × InFlightSends :=
  (⟨s.taken.values, s.accepted, s.cancelled.values.flatten⟩,
    { s with accepted := ∅, cancelled := ∅ })

/-- A send that can no longer land, or whose fate is the acceptance tracker's to say. -/
def doneWith (s : InFlightSends) (txid : TransactionId) (now : Nat) : InFlightSends :=
  let seen := s.ownSendSeen txid [] now
  { seen with
    sends := seen.sends.erase txid
    taken := seen.taken.erase txid
    accepted := seen.accepted.erase txid }

/-- Keep `txid` among the sends a read settled, the oldest leaving. -/
def noteReadSettled (s : InFlightSends) (txid : TransactionId) : InFlightSends :=
  { s with readSettled :=
      if txid ∈ s.readSettled then s.readSettled
      else lastOf READ_SETTLED_KEPT (s.readSettled ++ [txid]) }

/-- A send the node's unspent set shows settled. -/
def settled (s : InFlightSends) (txid : TransactionId) (now : Nat) : InFlightSends :=
  (s.noteReadSettled txid).doneWith txid now

def unknownSpendsAny (s : InFlightSends) (coins : List UtxoEntryId) : Bool :=
  s.unknown.any fun leg => coins.any leg.spends

def keepWatched (s : InFlightSends) (watched : Finset Address) : InFlightSends :=
  let foreign := fun coin : UtxoEntryReference => coin.address.any fun address => address ∉ watched
  { s with
    ours := watched
    unknown := s.unknown.filter fun leg => !leg.inputs.all foreign
    carried := s.carried.retain fun _ leg => !leg.inputs.all foreign }

def rememberLeg (s : InFlightSends) (txid : TransactionId) (leg : LegMeta) : InFlightSends :=
  { s with legMeta := s.legMeta.insert txid leg }

def forgetLeg (s : InFlightSends) (txid : TransactionId) (now : Nat) : InFlightSends :=
  let forgotten := { s with legMeta := s.legMeta.erase txid }
  forgotten.submitReturned txid false now

/-- The walk of `noteAccepted`: the transactions still to visit, those visited, the coins so far. -/
structure Walk where
  next : List TransactionId
  seen : Finset TransactionId
  coins : List UtxoEntryId

/-- The coins `txid` spent, as far as any record of ours says. -/
def recordedInputs (s : InFlightSends) (txid : TransactionId) : List UtxoEntryId :=
  ((s.sends.lookup txid).elim [] (·.spends)) ++
    ((s.taken.lookup txid).elim [] fun record => ids record.utxoEntries) ++
    (((s.carried.lookup txid).or (s.legMeta.lookup txid)).elim [] fun leg => ids leg.inputs)

def walkStep (s : InFlightSends) (walk : Walk) : Option Walk :=
  match walk.next with
  | [] => none
  | txid :: rest =>
    if txid ∈ walk.seen then some { walk with next := rest }
    else some
      { next := ((s.sends.lookup txid).elim [] fun send =>
          (send.spends.map (·.transactionId)).reverse) ++ rest
        seen := insert txid walk.seen
        coins := walk.coins ++ s.recordedInputs txid }

/-- Enough rounds for a walk that visits every send once. -/
def walkFuel (s : InFlightSends) : Nat :=
  1 + (s.sends.values.map fun send => send.spends.length).sum

def acceptedCoins (s : InFlightSends) (txid : TransactionId) : List UtxoEntryId :=
  (Rounds.rounds s.walkStep s.walkFuel ⟨[txid], ∅, []⟩).coins

/-- Refresh what is kept of `coin`, or keep it. -/
def noteSpentCoin (daa now : Nat) (coin : UtxoEntryId) : List SpentByUs → List SpentByUs
  | [] => [⟨coin, daa, now⟩]
  | kept :: rest =>
    if kept.coin = coin then ⟨coin, max kept.seenAtDaa daa, now⟩ :: rest
    else kept :: noteSpentCoin daa now coin rest

def noteSpentAt (s : InFlightSends) (coins : List UtxoEntryId) (daa now : Nat) : InFlightSends :=
  { s with
    spentByUs := lastOf SPENT_KEPT
      (coins.foldl (fun kept coin => noteSpentCoin daa now coin kept) s.spentByUs) }

def noteAccepted (s : InFlightSends) (txid : TransactionId) (daa now : Nat) : InFlightSends :=
  s.noteSpentAt (s.acceptedCoins txid) daa now

/-- The kept coins a node at `score` may not have seen spent yet, and the memory without those
    past the retention window. -/
def spentWithheld (s : InFlightSends) (score margin now : Nat) :
    List UtxoEntryId × InFlightSends :=
  let clamped := s.spentByUs.map fun kept => { kept with seenAtMs := min kept.seenAtMs now }
  let live := clamped.filter fun kept => decide (now - kept.seenAtMs < SPENT_FOR_MS)
  ((live.filter fun kept => decide (score < saturatingAdd kept.seenAtDaa margin)).map (·.coin),
    { s with spentByUs := live })

def carriedInputs (s : InFlightSends) : List UtxoEntryId :=
  s.carried.values.flatMap fun leg => ids leg.inputs

end InFlightSends

end Kaspaverse.Chain
