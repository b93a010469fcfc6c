import Mathlib.Data.Finset.Basic
import Mathlib.Data.List.MinMax
import Kaspaverse.Library.Index

namespace Kaspaverse.Acceptance

abbrev Txid := String

abbrev Block := String

def TOMBSTONE_WINDOW_MS : Nat := 120000

def STALL_AFTER_MS : Nat := 60000

def CONFIRMED_DEPTH_BLUE : Nat := 1000

def TERMINAL_DEPTH_BLUE : Nat := 2000

def WATCH_CAP : Nat := 512

def OFF_CHAIN_CAPACITY : Nat := 4096

/-- The pinned mainnet parameters: the pruning depth, times the milliseconds a block takes. -/
def pruningHorizonMs : Nat := 1080000 * 100

inductive WatchSource
  | send
  | transport
  deriving DecidableEq

inductive PersistedStatus
  | submitted (submitOkUnixMs : Nat)
  | accepted (acceptingBlock : Block) (acceptingBlueScore acceptedUnixMs : Nat)
  | displaced (sinceUnixMs : Nat) (priorBlock : Block)
  | finalized (acceptingBlock : Block) (acceptingBlueScore acceptedUnixMs : Nat)
  deriving DecidableEq

/-- The block the status says accepts the transaction, while a removal can still displace it. -/
def PersistedStatus.acceptingBlock : PersistedStatus → Option Block
  | .accepted block _ _ => some block
  | _ => none

structure WatchRecord where
  txid : Txid
  source : WatchSource
  watchedUnixMs : Nat
  status : PersistedStatus
  deriving DecidableEq

inductive TxStatus
  | submitted
  | accepted (blueDepth acceptedUnixMs : Nat)
  | confirmed (blueDepth acceptedUnixMs : Nat)
  | displaced
  | stalled (waitedMs : Nat)
  deriving DecidableEq

inductive AcceptanceEvent
  | accepted (txid : Txid)
  | confirmed (txid : Txid) (blueDepth : Nat)
  | displaced (txid : Txid)
  | displacedElapsed (txid : Txid)
  | senderResolvable (txid : Txid) (acceptingDaaScore : Nat)
  | stalled (txid : Txid) (waitedMs : Nat)
  deriving DecidableEq

/-- The watch log as its readers see it, and what the disk answers to the writes to come; past the
    end of `disk` they land. -/
structure WatchLog where
  records : KeyMap Txid WatchRecord
  disk : List Bool

namespace WatchLog

def lands (log : WatchLog) : Bool := log.disk.headD true

/-- A record that is held already is not written again. -/
def upsert (log : WatchLog) (key : Txid) (record : WatchRecord) : Bool × WatchLog :=
  if log.records.lookup key = some record then (true, log)
  else if log.lands then (true, ⟨log.records.insert key record, log.disk.tail⟩)
  else (false, { log with disk := log.disk.tail })

def remove (log : WatchLog) (key : Txid) : Bool × WatchLog :=
  if key ∈ log.records then
    if log.lands then (true, ⟨log.records.erase key, log.disk.tail⟩)
    else (false, { log with disk := log.disk.tail })
  else (true, log)

end WatchLog

/-- The chain blocks the live stream removed and did not add back, the oldest first. -/
structure OffChain where
  order : List Block
  deriving DecidableEq

namespace OffChain

def removed (off : OffChain) (block : Block) : OffChain :=
  if block ∈ off.order then off
  else
    let order := off.order ++ [block]
    ⟨if OFF_CHAIN_CAPACITY < order.length then order.tail else order⟩

def added (off : OffChain) (block : Block) : OffChain := ⟨off.order.filter (· != block)⟩

def contains (off : OffChain) (block : Block) : Bool := decide (block ∈ off.order)

end OffChain

/-- What one fold of a chain batch persisted: its events, and whether a write of it failed. -/
structure Fold where
  events : List AcceptanceEvent
  failed : Bool

def Fold.default : Fold := ⟨[], false⟩

/-- The events, unless a write failed. -/
def Fold.intoResult (fold : Fold) : Option (List AcceptanceEvent) :=
  if fold.failed then none else some fold.events

/-- What the walk's memory holds of a matched txid no one watches. -/
inductive Remembered
  | accepted (block : Block) (blueScore daaScore acceptedUnixMs : Nat)
  | displaced (sinceUnixMs : Nat) (priorBlock : Block)
  deriving DecidableEq

structure TrackerState where
  log : WatchLog
  byAcceptingBlock : KeyMap Block (List Txid)
  stallEmitted : Finset Txid
  elapseEmitted : Finset Txid
  confirmedEmitted : Finset Txid
  sinkBlue : Nat
  depthHeld : Bool
  walking : Bool
  ahead : KeyMap Txid (Block × Nat × Nat)
  offChain : OffChain

namespace TrackerState

def record (s : TrackerState) (txid : Txid) : Option WatchRecord := s.log.records.lookup txid

/-- The block the record of `txid` is accepted by. -/
def acceptedAt (s : TrackerState) (txid : Txid) : Option Block :=
  (s.record txid).bind (·.status.acceptingBlock)

/-- The records as an iteration meets them, in an order of their keys that nothing fixes. -/
def values (s : TrackerState) (order : List Txid) : List WatchRecord := order.filterMap s.record

/-- A load of the log whose frames hold `stored`, the later ones over the earlier. -/
def load (stored : List WatchRecord) : TrackerState :=
  let records := stored.foldl (fun records record => records.insert record.txid record) ∅
  { log := ⟨records, []⟩
    byAcceptingBlock := Index.build (·.txid) (·.status.acceptingBlock) records.values
    stallEmitted := ∅
    elapseEmitted := ∅
    confirmedEmitted := ∅
    sinkBlue := 0
    depthHeld := false
    walking := false
    ahead := ∅
    offChain := ⟨[]⟩ }

def holdsAcceptanceAt (s : TrackerState) (block : Block) : Bool := decide (block ∈ s.byAcceptingBlock)

def claimsDepth (s : TrackerState) : Bool := !s.depthHeld && !s.walking

def awaitsFirstAcceptance (s : TrackerState) (txid : Txid) : Bool :=
  match s.record txid with
  | some ⟨_, .send, _, .submitted _⟩ => true
  | _ => false

def isWatched (s : TrackerState) (txid : Txid) : Bool := decide (txid ∈ s.log.records)

/-- The index loses `txid` before the log does. -/
def dropWatch (s : TrackerState) (txid : Txid) : Bool × TrackerState :=
  let index := match s.acceptedAt txid with
    | some block => Index.unlist s.byAcceptingBlock block txid
    | none => s.byAcceptingBlock
  let removed := s.log.remove txid
  (removed.1,
    { s with
      log := removed.2
      byAcceptingBlock := index
      stallEmitted := s.stallEmitted.erase txid
      elapseEmitted := s.elapseEmitted.erase txid
      confirmedEmitted := s.confirmedEmitted.erase txid })

def oldest (s : TrackerState) (order : List Txid) : Option Txid :=
  ((s.values order).argmin (·.watchedUnixMs)).map (·.txid)

/-- Room for one more watch: at the cap the oldest goes. -/
def makeRoom (s : TrackerState) (order : List Txid) : Bool × TrackerState :=
  if WATCH_CAP ≤ s.log.records.keys.length then
    match s.oldest order with
    | some oldest => s.dropWatch oldest
    | none => (true, s)
  else (true, s)

def upsert (s : TrackerState) (txid : Txid) (record : WatchRecord) : Bool × TrackerState :=
  let written := s.log.upsert txid record
  (written.1, { s with log := written.2 })

def watch (s : TrackerState) (order : List Txid) (txid : Txid) (source : WatchSource) (now : Nat) :
    Bool × TrackerState :=
  if s.isWatched txid then (true, s)
  else
    let room := s.makeRoom order
    if room.1 then room.2.upsert txid ⟨txid, source, now, .submitted now⟩ else room

def noteAdded (s : TrackerState) (blocks : List Block) : TrackerState :=
  { s with offChain := blocks.foldl OffChain.added s.offChain }

/-- One txid of an accepting block's list: the index follows the log once its write lands. -/
def acceptOne (block : Block) (blueScore unixMs : Nat) (folding : Fold × TrackerState) (txid : Txid) :
    Fold × TrackerState :=
  let (fold, s) := folding
  match s.record txid with
  | none => (fold, s)
  | some record =>
    if record.status.acceptingBlock = some block then (fold, s)
    else
      let written := s.upsert txid { record with status := .accepted block blueScore unixMs }
      if written.1 then
        let index := match record.status.acceptingBlock with
          | some old => Index.unlist s.byAcceptingBlock old txid
          | none => s.byAcceptingBlock
        ({ fold with events := fold.events ++ [.accepted txid] },
          { written.2 with
            ahead := s.ahead.erase txid
            byAcceptingBlock := Index.enlist index block txid
            stallEmitted := s.stallEmitted.erase txid
            elapseEmitted := s.elapseEmitted.erase txid })
      else ({ fold with failed := true }, written.2)

def onAccepted (s : TrackerState) (block : Block) (blueScore : Nat) (txids : List Txid)
    (unixMs : Nat) : Fold × TrackerState :=
  txids.foldl (acceptOne block blueScore unixMs) (.default, s)

/-- One txid a removed block accepted, and the txids of it that stay listed. -/
def displaceOne (block : Block) (now : Nat) (folding : Fold × List Txid × TrackerState)
    (txid : Txid) : Fold × List Txid × TrackerState :=
  let (fold, kept, s) := folding
  match s.record txid with
  | none => (fold, kept, s)
  | some record =>
    let written := s.upsert txid { record with status := .displaced now block }
    if written.1 then
      ({ fold with events := fold.events ++ [.displaced txid] }, kept,
        { written.2 with confirmedEmitted := s.confirmedEmitted.erase txid })
    else ({ fold with failed := true }, kept ++ [txid], written.2)

def removeBlock (now : Nat) (folding : Fold × TrackerState) (block : Block) : Fold × TrackerState :=
  let s := { folding.2 with offChain := folding.2.offChain.removed block }
  match s.byAcceptingBlock.lookup block with
  | none => (folding.1, s)
  | some txids =>
    let (fold, kept, after) := txids.foldl (displaceOne block now) (folding.1, [], s)
    (fold, { after with byAcceptingBlock := Index.keep after.byAcceptingBlock block kept })

def onRemoved (s : TrackerState) (blocks : List Block) (now : Nat) : Fold × TrackerState :=
  blocks.foldl (removeBlock now) (.default, s)

def walkAccepted (s : TrackerState) (txid : Txid) (block : Block) (blueScore unixMs : Nat) :
    Option (List AcceptanceEvent) × TrackerState :=
  match s.record txid with
  | none => (some [], s)
  | some record =>
    let first := decide (record.source = .transport) && !s.offChain.contains block
    match record.status with
    | .accepted held _ heldUnixMs =>
      if heldUnixMs = 0 ∧ held = block ∧ unixMs ≠ 0 then
        let written := s.upsert txid { record with status := .accepted block blueScore unixMs }
        (if written.1 then some [] else none, written.2)
      else (some [], s)
    | .submitted _ =>
      if first then
        let folded := s.onAccepted block blueScore [txid] unixMs
        (folded.1.intoResult, folded.2)
      else (some [], s)
    | .displaced _ _ =>
      if first then
        let folded := s.onAccepted block blueScore [txid] unixMs
        (folded.1.intoResult, folded.2)
      else (some [], s)
    | .finalized _ _ _ => (some [], s)

/-- What the walk read before `txid` was watched, unless the live stream took its block off since. -/
def recalled (s : TrackerState) (now : Nat) : Remembered → Remembered
  | .accepted block blueScore daaScore unixMs =>
    if s.offChain.contains block then .displaced now block
    else .accepted block blueScore daaScore unixMs
  | .displaced since prior => .displaced since prior

def register (s : TrackerState) (txid : Txid) :
    Remembered → Option (List AcceptanceEvent) × TrackerState
  | .accepted block blueScore _ unixMs =>
    let folded := s.onAccepted block blueScore [txid] unixMs
    (folded.1.intoResult, folded.2)
  | .displaced since prior =>
    match s.record txid with
    | none => (some [], s)
    | some record =>
      let written := s.upsert txid { record with status := .displaced since prior }
      (if written.1 then some [.displaced txid] else none, written.2)

def watchRemembered (s : TrackerState) (order : List Txid) (txid : Txid) (source : WatchSource)
    (now : Nat) (remembered : Remembered) : Option (List AcceptanceEvent) × TrackerState :=
  let watched := s.watch order txid source now
  if watched.1 then watched.2.register txid (watched.2.recalled now remembered) else (none, watched.2)

/-- The record leaves the index once its write lands, and stays in the log. -/
def finalizeWatch (s : TrackerState) (txid : Txid) : Bool × TrackerState :=
  match s.record txid with
  | none => (true, s)
  | some record =>
    match record.status with
    | .accepted block blueScore unixMs =>
      let written := s.upsert txid { record with status := .finalized block blueScore unixMs }
      if written.1 then
        (true, { written.2 with byAcceptingBlock := Index.unlist s.byAcceptingBlock block txid })
      else written
    | _ => (true, s)

def expired (s : TrackerState) (order : List Txid) (now : Nat) : List Txid :=
  ((s.values order).filter fun record => decide (pruningHorizonMs < now - record.watchedUnixMs)).map
    (·.txid)

/-- Drop the watches, up to the first whose removal is not written. -/
def dropAll : TrackerState → List Txid → Bool × TrackerState
  | s, [] => (true, s)
  | s, txid :: rest =>
    let dropped := s.dropWatch txid
    if dropped.1 then dropAll dropped.2 rest else dropped

def pruneBeyondHorizon (s : TrackerState) (order : List Txid) (now : Nat) : Bool × TrackerState :=
  s.dropAll (s.expired order now)

/-- The blue depth of a record still open to a removal. -/
def openDepth (s : TrackerState) (record : WatchRecord) : Option Nat :=
  match record.status with
  | .accepted _ blueScore _ => some (s.sinkBlue - blueScore)
  | _ => none

def crossed (s : TrackerState) (order : List Txid) : List (Txid × Nat) :=
  (s.values order).filterMap fun record =>
    (s.openDepth record).bind fun depth =>
      if CONFIRMED_DEPTH_BLUE ≤ depth ∧ record.txid ∉ s.confirmedEmitted then some (record.txid, depth)
      else none

def terminal (s : TrackerState) (order : List Txid) : List Txid :=
  (s.values order).filterMap fun record =>
    (s.openDepth record).bind fun depth =>
      if TERMINAL_DEPTH_BLUE ≤ depth then some record.txid else none

/-- The crossings are told once. -/
def noteCrossed (s : TrackerState) (order : List Txid) : List AcceptanceEvent × TrackerState :=
  let crossed := s.crossed order
  (crossed.map fun crossing => .confirmed crossing.1 crossing.2,
    { s with confirmedEmitted := s.confirmedEmitted ∪ (crossed.map Prod.fst).toFinset })

/-- A finalization that is not written is tried again at a later score. -/
def finalizeTerminal (s : TrackerState) (order : List Txid) : TrackerState :=
  (s.terminal order).foldl (fun s txid => (s.finalizeWatch txid).2) (s.noteCrossed order).2

def onSinkBlue (s : TrackerState) (order : List Txid) (sinkBlue now : Nat) :
    Option (List AcceptanceEvent) × TrackerState :=
  let s := { s with sinkBlue := sinkBlue }
  if s.claimsDepth then
    (some (s.noteCrossed order).1, ((s.finalizeTerminal order).pruneBeyondHorizon order now).2)
  else
    let pruned := s.pruneBeyondHorizon order now
    (if pruned.1 then some [] else none, pruned.2)

def windowElapsed (s : TrackerState) (now : Nat) (record : WatchRecord) : Option AcceptanceEvent :=
  match record.status with
  | .submitted submitOk =>
    if record.source = .send ∧ STALL_AFTER_MS ≤ now - submitOk ∧ record.txid ∉ s.stallEmitted then
      some (.stalled record.txid (now - submitOk))
    else none
  | .displaced since _ =>
    if TOMBSTONE_WINDOW_MS ≤ now - since ∧ record.txid ∉ s.elapseEmitted then
      some (.displacedElapsed record.txid)
    else none
  | _ => none

def noteElapsed (s : TrackerState) : AcceptanceEvent → TrackerState
  | .stalled txid _ => { s with stallEmitted := insert txid s.stallEmitted }
  | .displacedElapsed txid => { s with elapseEmitted := insert txid s.elapseEmitted }
  | _ => s

def tick (s : TrackerState) (order : List Txid) (now : Nat) :
    List AcceptanceEvent × TrackerState :=
  if s.walking then ([], s)
  else
    let events := (s.values order).filterMap (s.windowElapsed now)
    (events, events.foldl noteElapsed s)

def status (s : TrackerState) (txid : Txid) (now : Nat) : Option TxStatus :=
  (s.record txid).map fun record =>
    match record.status with
    | .submitted submitOk =>
      match s.ahead.lookup txid with
      | some (_, blueScore, unixMs) => .accepted (s.sinkBlue - blueScore) unixMs
      | none =>
        if record.source = .send ∧ STALL_AFTER_MS ≤ now - submitOk then .stalled (now - submitOk)
        else .submitted
    | .accepted _ blueScore unixMs =>
      let depth := s.sinkBlue - blueScore
      if CONFIRMED_DEPTH_BLUE ≤ depth ∧ s.claimsDepth = true then .confirmed depth unixMs
      else .accepted depth unixMs
    | .finalized _ blueScore unixMs => .confirmed (s.sinkBlue - blueScore) unixMs
    | .displaced _ _ => .displaced

end TrackerState

end Kaspaverse.Acceptance
