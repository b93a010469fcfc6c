import Kaspaverse.Acceptance.Tracker

namespace Kaspaverse.Acceptance

/-- One `VirtualChainChanged`: the chain blocks removed and added, and what each accepts. -/
structure VccBatch where
  removed : List Block
  added : List Block
  accepted : List (Block × List Txid)
  deriving DecidableEq

/-- An accepting block's facts. -/
structure AcceptingBlock where
  blueScore : Nat
  daaScore : Option Nat
  acceptedUnixMs : Nat

/-- What the node answers while one batch folds: a block's blue score, DAA score and timestamp, and
    the sink's blue score. -/
structure Node where
  block : Block → Option (Nat × Nat × Nat)
  sinkBlueScore : Option Nat

/-- What folding one batch did, for the cursor. -/
structure BatchFold where
  complete : Bool
  accepted : Bool
  deriving DecidableEq

/-- The tracker's state and the txids whose sender is to be named. -/
structure Tracker where
  state : TrackerState
  senderInterest : List Txid

/-- The txids of one accepting block some one watches, and those whose sender is wanted. -/
structure Matched where
  block : Block
  watched : List Txid
  wanted : List Txid

namespace TrackerState

/-- Where the node cannot serve the block, the sink's score bounds the block's from above; a sink
    not known yet is asked for first. -/
def readAcceptingBlock (s : TrackerState) (node : Node) (block : Block) :
    Option AcceptingBlock × TrackerState :=
  match node.block block with
  | some (blueScore, daaScore, timestamp) => (some ⟨blueScore, some daaScore, timestamp⟩, s)
  | none =>
    if s.sinkBlue = 0 then
      match node.sinkBlueScore with
      | some blue => (some ⟨blue, none, 0⟩, { s with sinkBlue := blue })
      | none => (none, s)
    else (some ⟨s.sinkBlue, none, 0⟩, s)

/-- The removals, and the added blocks back on the chain: all of a batch that asks no node. -/
def foldRemovals (s : TrackerState) (batch : VccBatch) (now : Nat) : Fold × TrackerState :=
  let folded := s.onRemoved batch.removed now
  (folded.1, folded.2.noteAdded batch.added)

def matched (s : TrackerState) (interest : List Txid) (batch : VccBatch) : List Matched :=
  (batch.accepted.map fun entry =>
    ⟨entry.1, entry.2.filter s.isWatched, entry.2.filter fun txid => decide (txid ∈ interest)⟩).filter
      fun m => !m.watched.isEmpty || !m.wanted.isEmpty

def accepts (s : TrackerState) (batch : VccBatch) : Bool := batch.added.any s.holdsAcceptanceAt

end TrackerState

/-- The lookups a block's txids resolve, each once. -/
def takeResolvable (interest txids : List Txid) (daaScore : Nat) :
    List AcceptanceEvent × List Txid :=
  txids.foldl (fun taking txid =>
    if txid ∈ taking.2 then
      (taking.1 ++ [.senderResolvable txid daaScore], taking.2.erase txid)
    else taking) ([], interest)

/-- A batch on its way: the tracker so far, what it announced, and whether all of it is on disk. -/
structure Folding where
  tracker : Tracker
  events : List AcceptanceEvent
  complete : Bool

namespace Folding

/-- The removals of a batch, and the matches its acceptances then read. -/
def begin (tracker : Tracker) (batch : VccBatch) (now : Nat) : Folding × List Matched :=
  let folded := tracker.state.foldRemovals batch now
  (⟨{ tracker with state := folded.2 }, folded.1.events, !folded.1.failed⟩,
    folded.2.matched tracker.senderInterest batch)

/-- One accepting block: its facts are read, and its watched txids fold. -/
def foldMatch (node : Node) (folding : Folding) (m : Matched) : Folding :=
  let read := folding.tracker.state.readAcceptingBlock node m.block
  match read.1 with
  | none =>
    { folding with
      tracker := { folding.tracker with state := read.2 }
      complete := folding.complete && m.watched.isEmpty }
  | some facts =>
    let resolved := match facts.daaScore with
      | some daaScore => takeResolvable folding.tracker.senderInterest m.wanted daaScore
      | none => ([], folding.tracker.senderInterest)
    let folded := read.2.onAccepted m.block facts.blueScore m.watched facts.acceptedUnixMs
    { tracker := ⟨folded.2, resolved.2⟩
      events := folding.events ++ resolved.1 ++ folded.1.events
      complete := folding.complete && !folded.1.failed }

end Folding

/-- Removals fold before acceptances, so a transaction a reorg accepts again ends accepted. -/
def foldBatch (node : Node) (now : Nat) (tracker : Tracker) (batch : VccBatch) :
    BatchFold × List AcceptanceEvent × Tracker :=
  let begun := Folding.begin tracker batch now
  let folding := begun.2.foldl (Folding.foldMatch node) begun.1
  (⟨folding.complete, folding.tracker.state.accepts batch⟩, folding.events, folding.tracker)

end Kaspaverse.Acceptance
