import Kaspaverse.Library.Machine
import Kaspaverse.Acceptance.Batch

namespace Kaspaverse.Acceptance

def MAX_VCC_CATCHUP_PAGES : Nat := 16

def VCC_TIP_PAGE_THRESHOLD : Nat := 100

def CURSOR_MIN_WRITE_SECS : Nat := 3

def TICK : Nat := 10000

def HOLD_WALK_BACKOFF_MAX : Nat := 300000

structure WalkAcceptance where
  acceptingBlock : Block
  blueScore : Nat
  daaScore : Nat
  timestampMs : Nat
  txids : List Txid

/-- What a page of the message walk says to the log. -/
structure WalkBatch where
  accepted : List WalkAcceptance

inductive TrackerFeed
  | vcc (batch : VccBatch)
  | walk (batch : WalkBatch)

/-- What a batch says of a txid watched at that time. -/
inductive Fact
  | accepted (txid : Txid) (block : Block)
  | removed (txid : Txid) (block : Block)
  deriving DecidableEq

/-- A batch on its way, between two of its block reads. -/
structure InFold where
  batch : VccBatch
  pending : List Matched
  complete : Bool

/-- Where a walk from the cursor file awaits. -/
inductive Walk
  | starting
  | asking (cursor : Block) (page : Nat) (clean : Bool)
  | folding (cursor : Block) (page : Nat) (clean : Bool) (fold : InFold)
  | seeding

/-- Where the task's loop awaits: at its `select!`, or in the body of one of its arms. -/
inductive Doing
  | priming
  | select
  | ahead (batch : VccBatch) (due : List (Block × List Txid))
  | live (fold : InFold) (drains : Bool)
  | draining

/-- The tracker, its cursor file and the locals of its task. The last four fields are history, which
    nothing reads: the events broadcast, the facts of folded batches that are not on disk, and what
    the running walk read ahead and could not read. -/
structure TrackerTask where
  tracker : Tracker
  cursor : Option Block
  cursorWritten : Nat
  forceOwed : Bool
  frozen : Bool
  frozenSinceMs : Nat
  holds : Nat
  walk : Option Walk
  doing : Doing
  heldBack : List TrackerFeed
  walkAgain : Bool
  holdWalk : Bool
  holdBackoff : Nat
  holdWalkAt : Nat
  holdSeen : Nat
  emitted : List AcceptanceEvent
  owed : List Fact
  readAhead : List Txid
  unread : List Txid

/-- What one await of the task is answered: block reads, a page, a sink, the cursor file's read and
    write, and the clocks. -/
structure TaskIo where
  node : Node
  page : Option VccBatch
  sink : Option Block
  blue : Option Nat
  reads : Bool
  lands : Bool
  now : Nat
  instant : Nat

namespace TrackerState

/-- The fact is not on disk, where the txid is still watched. -/
def stillOwes (s : TrackerState) : Fact → Bool
  | .accepted txid _ => s.isWatched txid
  | .removed txid block => decide (s.acceptedAt txid = some block)

/-- The removals of a batch that are not on disk. -/
def unremoved (s : TrackerState) (batch : VccBatch) : List Fact :=
  batch.removed.flatMap fun block =>
    (s.log.records.keys.filter fun txid => decide (s.acceptedAt txid = some block)).map
      fun txid => .removed txid block

/-- The acceptances of a match that are not on disk. -/
def unaccepted (s : TrackerState) (m : Matched) : List Fact :=
  (m.watched.filter fun txid => s.isWatched txid && decide (s.acceptedAt txid ≠ some m.block)).map
    fun txid => .accepted txid m.block

end TrackerState

/-- A later batch that takes a block off takes its acceptances back; one that puts a block on takes
    its removals back. -/
def VccBatch.takesBack (batch : VccBatch) : Fact → Bool
  | .accepted _ block => decide (block ∈ batch.removed)
  | .removed _ block => decide (block ∈ batch.added)

/-- An acceptance of the match is on disk. -/
def Matched.settles (s : TrackerState) (m : Matched) : Fact → Bool
  | .accepted txid _ => decide (txid ∈ m.watched ∧ s.acceptedAt txid = some m.block)
  | .removed _ _ => false

namespace TrackerTask

variable (w : TrackerTask)

def broadcast (events : List AcceptanceEvent) : TrackerTask := { w with emitted := w.emitted ++ events }

def setState (s : TrackerState) : TrackerTask :=
  { w with tracker := { w.tracker with state := s }, owed := w.owed.filter s.stillOwes }

def writeCursor (hash : Block) (force : Bool) (io : TaskIo) : TrackerTask :=
  if force = false ∧ io.now / 1000 - w.cursorWritten < CURSOR_MIN_WRITE_SECS then w
  else if io.lands then { w with cursorWritten := io.now / 1000, cursor := some hash }
  else { w with cursorWritten := io.now / 1000, forceOwed := w.forceOwed || force }

def freezeCursor (io : TaskIo) : TrackerTask :=
  if w.frozen then w
  else
    { w with
      frozen := true
      frozenSinceMs := io.now
      holds := w.holds + 1
      tracker := { w.tracker with state := { w.tracker.state with depthHeld := true } } }

def releaseCursor : TrackerTask :=
  if w.frozen then
    { w with
      frozen := false
      frozenSinceMs := 0
      tracker := { w.tracker with state := { w.tracker.state with depthHeld := false } } }
  else w

def keepsHold (io : TaskIo) : Bool :=
  w.frozen && decide (w.frozenSinceMs ≠ 0) && decide (io.now - w.frozenSinceMs < pruningHorizonMs)

/-- The first part of `fold_batch`: its removals, and the matches it reads next. -/
def beginFold (batch : VccBatch) (now : Nat) : TrackerTask × InFold :=
  let begun := Folding.begin w.tracker batch now
  let s := begun.1.tracker.state
  let owed := (w.owed ++ s.unremoved batch).filter fun fact => s.stillOwes fact && !batch.takesBack fact
  ({ w.broadcast begun.1.events with tracker := begun.1.tracker, owed := owed },
    ⟨batch, begun.2, begun.1.complete⟩)

/-- One match of `fold_batch`: its block is read, and its watched txids fold. -/
def foldMatch (node : Node) (complete : Bool) (m : Matched) : TrackerTask × Bool :=
  let folding := Folding.foldMatch node ⟨w.tracker, [], complete⟩ m
  let s := folding.tracker.state
  let owed := (w.owed.filter fun fact => s.stillOwes fact && !m.settles s fact) ++ s.unaccepted m
  let unread := if (w.tracker.state.readAcceptingBlock node m.block).1.isNone then m.watched else []
  ({ w.broadcast folding.events with
      tracker := folding.tracker
      owed := owed
      unread := w.unread ++ unread },
    folding.complete)

/-- The end of `fold_live`: the cursor moves past the batch, or holds. -/
def finishLive (fold : InFold) (io : TaskIo) : TrackerTask :=
  if fold.complete = false then w.freezeCursor io
  else if w.frozen then w
  else
    match fold.batch.added.getLast? with
    | none => w
    | some last =>
      let force := w.tracker.state.accepts fold.batch || w.forceOwed
      { w with forceOwed := false }.writeCursor last force io

/-- One txid of a page of the message walk. -/
def foldWalkTxid (acceptance : WalkAcceptance) (w : TrackerTask) (txid : Txid) : TrackerTask :=
  let folded := w.tracker.state.walkAccepted txid acceptance.acceptingBlock acceptance.blueScore
    acceptance.timestampMs
  (w.setState folded.2).broadcast (folded.1.getD [])

def foldWalk (batch : WalkBatch) : TrackerTask :=
  let folded := batch.accepted.foldl (fun w acceptance =>
    acceptance.txids.foldl (foldWalkTxid acceptance) w) w
  batch.accepted.foldl (fun w acceptance =>
    if w.tracker.state.offChain.contains acceptance.acceptingBlock then w
    else
      let resolved := takeResolvable w.tracker.senderInterest acceptance.txids acceptance.daaScore
      { w.broadcast resolved.1 with tracker := { w.tracker with senderInterest := resolved.2 } }) folded

/-- The sends of a batch whose first acceptance is read ahead of a walk. -/
def due (batch : VccBatch) : List (Block × List Txid) :=
  (batch.accepted.map fun entry => (entry.1, entry.2.filter w.tracker.state.awaitsFirstAcceptance)).filter
    fun entry => !entry.2.isEmpty

/-- One block of `fold_ahead`. -/
def foldAhead (node : Node) (block : Block) (txids : List Txid) : TrackerTask :=
  let read := w.tracker.state.readAcceptingBlock node block
  match read.1 with
  | none => w.setState read.2
  | some facts =>
    let ahead := txids.foldl (fun ahead txid =>
      ahead.insert txid (block, facts.blueScore, facts.acceptedUnixMs)) read.2.ahead
    { (w.setState { read.2 with ahead := ahead }).broadcast (txids.map .accepted) with
      readAhead := w.readAhead ++ txids }

def beginWalk : TrackerTask :=
  { w with
    walk := some .starting
    tracker := { w.tracker with state := { w.tracker.state with walking := true } }
    readAhead := []
    unread := [] }

/-- What a walk held back has folded: depth may be claimed again. -/
def endWalk (io : TaskIo) : TrackerTask :=
  let w := { w with
    doing := .select
    tracker := { w.tracker with state := { w.tracker.state with walking := false, ahead := ∅ } }
    readAhead := []
    unread := [] }
  let w :=
    if w.holdWalk && w.frozen then
      { w with
        holdBackoff := min (w.holdBackoff * 2) HOLD_WALK_BACKOFF_MAX
        holdWalkAt := io.instant + min (w.holdBackoff * 2) HOLD_WALK_BACKOFF_MAX }
    else w
  let w := { w with holdWalk := false }
  if w.walkAgain then { w with walkAgain := false }.beginWalk else w

/-- The walk returned: what it held back folds next. -/
def walked : TrackerTask := { w with walk := none, doing := .draining }

def goto (walk : Walk) : TrackerTask := { w with walk := some walk }

/-- The end of a page of `catch_up`. -/
def endPage (start : Block) (page : Nat) (clean : Bool) (fold : InFold) (io : TaskIo) : TrackerTask :=
  let clean := clean && fold.complete
  let w := if fold.complete then w else w.freezeCursor io
  let last := fold.batch.added.getLast?
  let w :=
    match last with
    | some last => if clean then w.writeCursor last true io else w
    | none => w
  if fold.batch.added.length < VCC_TIP_PAGE_THRESHOLD then
    (if clean then w.releaseCursor else w.freezeCursor io).walked
  else if page + 1 < MAX_VCC_CATCHUP_PAGES then w.goto (.asking (last.getD start) (page + 1) clean)
  else if !clean && w.keepsHold io then w.walked
  else w.goto .seeding

/-- The hold, and the facts it was for, are given up. -/
def reseed (sink : Block) (io : TaskIo) : TrackerTask :=
  { (w.writeCursor sink true io).releaseCursor with owed := [] }

/-- `catch_up`, up to its next await. -/
def poll (io : TaskIo) : Walk → TrackerTask
  | .starting =>
    match if io.reads then w.cursor else none with
    | none => w.goto .seeding
    | some cursor => w.goto (.asking cursor 0 true)
  | .asking cursor page clean =>
    match io.page with
    | none => if w.keepsHold io then w.walked else w.goto .seeding
    | some batch =>
      let begun := w.beginFold batch io.now
      begun.1.goto (.folding cursor page clean begun.2)
  | .folding cursor page clean fold =>
    match fold.pending with
    | [] => w.endPage cursor page clean fold io
    | m :: rest =>
      let folded := w.foldMatch io.node fold.complete m
      folded.1.goto (.folding cursor page clean ⟨fold.batch, rest, folded.2⟩)
  | .seeding =>
    match io.sink with
    | none => w.walked
    | some sink => (w.reseed sink io).walked

/-- A live batch that no walk holds back. -/
def startLive (batch : VccBatch) (now : Nat) (drains : Bool) : TrackerTask :=
  let begun := w.beginFold batch now
  { begun.1 with doing := .live begun.2 drains }

/-- One feed that reaches the loop. -/
def feed (now : Nat) : TrackerFeed → TrackerTask
  | .vcc batch =>
    if w.walk.isSome then { w with doing := .ahead batch (w.due batch) }
    else w.startLive batch now false
  | .walk batch =>
    if w.walk.isSome then { w with heldBack := w.heldBack ++ [.walk batch] } else w.foldWalk batch

/-- The body of an arm of the loop, up to its next await. -/
def work (io : TaskIo) : Option TrackerTask :=
  match w.doing with
  | .select => none
  | .priming =>
    let w := { w with doing := .select }
    match io.blue with
    | none => some w
    | some blue => some (w.setState { w.tracker.state with sinkBlue := blue })
  | .ahead batch [] => some { w with doing := .select, heldBack := w.heldBack ++ [.vcc batch] }
  | .ahead batch ((block, txids) :: rest) =>
    some { w.foldAhead io.node block txids with doing := .ahead batch rest }
  | .live fold drains =>
    match fold.pending with
    | [] => some { w.finishLive fold io with doing := if drains then .draining else .select }
    | m :: rest =>
      let folded := w.foldMatch io.node fold.complete m
      some { folded.1 with doing := .live ⟨fold.batch, rest, folded.2⟩ drains }
  | .draining =>
    match w.heldBack with
    | [] => some (w.endWalk io)
    | .vcc batch :: rest => some ({ w with heldBack := rest }.startLive batch io.now true)
    | .walk batch :: rest => some ({ w with heldBack := rest }.foldWalk batch)

/-- A held cursor heals at a tick: each hold walks at its first tick, then backs off. -/
def tickHold (instant : Nat) : TrackerTask :=
  if w.frozen = false then w
  else
    let w := if w.holds = w.holdSeen then w
      else { w with holdSeen := w.holds, holdBackoff := TICK, holdWalkAt := instant }
    if w.walk.isNone ∧ w.holdWalkAt ≤ instant then { w.beginWalk with holdWalk := true } else w

def watch (order : List Txid) (txid : Txid) (source : WatchSource) (now : Nat)
    (remembered : Option Remembered) : TrackerTask :=
  if w.tracker.state.isWatched txid then w
  else
    match if source = .transport then remembered else none with
    | some remembered =>
      let watched := w.tracker.state.watchRemembered order txid source now remembered
      (w.setState watched.2).broadcast (watched.1.getD [])
    | none => w.setState (w.tracker.state.watch order txid source now).2

end TrackerTask

inductive TaskEvent
  /-- What the log's writes to come are answered. -/
  | disk (answers : List Bool)
  | poll (io : TaskIo)
  | work (io : TaskIo)
  | feed (feed : TrackerFeed) (now : Nat)
  | connected
  | sinkBlue (order : List Txid) (blue now : Nat)
  | tick (order : List Txid) (now instant : Nat)
  | watch (order : List Txid) (txid : Txid) (source : WatchSource) (now : Nat)
      (remembered : Option Remembered)
  | senderInterest (interest : List Txid)

namespace TrackerTask

/-- One step of the task between two awaits, or of another thread. -/
def step (w : TrackerTask) : TaskEvent → Option TrackerTask
  | .disk answers =>
    some { w with tracker := { w.tracker with
      state := { w.tracker.state with log := { w.tracker.state.log with disk := answers } } } }
  | .poll io =>
    match w.doing, w.walk with
    | .select, some walk => some (w.poll io walk)
    | _, _ => none
  | .work io => w.work io
  | .feed feed now =>
    match w.doing with
    | .select => some (w.feed now feed)
    | _ => none
  | .connected =>
    match w.doing with
    | .select => some (if w.walk.isSome then { w with walkAgain := true } else w.beginWalk)
    | _ => none
  | .sinkBlue order blue now =>
    match w.doing with
    | .select =>
      if order.Perm w.tracker.state.log.records.keys then
        let folded := w.tracker.state.onSinkBlue order blue now
        some ((w.setState folded.2).broadcast (folded.1.getD []))
      else none
    | _ => none
  | .tick order now instant =>
    match w.doing with
    | .select =>
      if order.Perm w.tracker.state.log.records.keys then
        let w := w.tickHold instant
        let ticked := w.tracker.state.tick order now
        some ((w.setState ticked.2).broadcast ticked.1)
      else none
    | _ => none
  | .watch order txid source now remembered =>
    if order.Perm w.tracker.state.log.records.keys then some (w.watch order txid source now remembered)
    else none
  | .senderInterest interest =>
    some { w with tracker := { w.tracker with senderInterest := interest } }

/-- A start of the task over what the log and the cursor file hold. -/
def launch (stored : List WatchRecord) (cursor : Option Block) : TrackerTask where
  tracker := ⟨{ TrackerState.load stored with walking := true }, []⟩
  cursor := cursor
  cursorWritten := 0
  forceOwed := false
  frozen := false
  frozenSinceMs := 0
  holds := 0
  walk := some .starting
  doing := .priming
  heldBack := []
  walkAgain := false
  holdWalk := false
  holdBackoff := TICK
  holdWalkAt := 0
  holdSeen := 0
  emitted := []
  owed := []
  readAhead := []
  unread := []

end TrackerTask

end Kaspaverse.Acceptance
