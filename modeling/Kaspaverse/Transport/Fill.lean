import Kaspaverse.Library.Machine
import Kaspaverse.Transport.Intake

namespace Kaspaverse.Transport

def PAGE_LIMIT : Nat := 50

def PAGE_BUDGET : Nat := 40

def FUTURE_SKEW_MS : Nat := 10 * 60 * 1000

/-- One row an archive serves: its own txid label, block time and claimed sender. -/
structure FillRow where
  txId : String
  blockTime : Nat
  data : String
  sender : String
deriving DecidableEq

def nibble (c : Char) : Option Nat :=
  if '0' ≤ c ∧ c ≤ '9' then some (c.toNat - '0'.toNat)
  else if 'a' ≤ c ∧ c ≤ 'f' then some (c.toNat - 'a'.toNat + 10)
  else if 'A' ≤ c ∧ c ≤ 'F' then some (c.toNat - 'A'.toNat + 10)
  else none

def decodeHexChars : List Char → Option (List UInt8)
  | [] => some []
  | [_] => none
  | high :: low :: rest => do
    let bytes ← decodeHexChars rest
    pure (UInt8.ofNat (16 * (← nibble high) + (← nibble low)) :: bytes)

def decodeHex (text : String) : Option (List UInt8) := decodeHexChars text.toList

/-- Resume points, a map for each kind of lane, and the erase floor under all of them. -/
structure FillCursors where
  handshakes : KeyMap String Nat
  comms : KeyMap String Nat
  stash : KeyMap String Nat
  floorUnixMs : Nat

/-- What the last committed backup covered. -/
structure StashState where
  lastUnixMs : Nat
  lastTxid : String
  covered : List String
  confirmedReadable : Bool
deriving DecidableEq

def StashState.default : StashState := ⟨0, "", [], false⟩

inductive LaneKind
  | stash
  | handshakes
  | comms
deriving DecidableEq

/-- One paginated walk, by what its cursor is kept under: a backup's owner, a receive address, or a
    conversation. -/
structure Lane where
  kind : LaneKind
  key : String
deriving DecidableEq

namespace FillCursors

def empty : FillCursors := ⟨∅, ∅, ∅, 0⟩

def lanes (cursors : FillCursors) : LaneKind → KeyMap String Nat
  | .stash => cursors.stash
  | .handshakes => cursors.handshakes
  | .comms => cursors.comms

/-- The lane's own cursor. A missing key reads as 0. -/
def cursorOf (cursors : FillCursors) (lane : Lane) : Nat := ((cursors.lanes lane.kind).lookup lane.key).getD 0

/-- Where a lane must start: its own cursor, never below the floor. -/
def startAt (cursors : FillCursors) (lane : Lane) : Nat := max (cursors.cursorOf lane) cursors.floorUnixMs

def setCursor (cursors : FillCursors) (lane : Lane) (resume : Nat) : FillCursors :=
  match lane.kind with
  | .stash => { cursors with stash := cursors.stash.insert lane.key resume }
  | .handshakes => { cursors with handshakes := cursors.handshakes.insert lane.key resume }
  | .comms => { cursors with comms := cursors.comms.insert lane.key resume }

def raiseFloor (cursors : FillCursors) (now : Nat) : FillCursors :=
  { cursors with floorUnixMs := max cursors.floorUnixMs now }

end FillCursors

/-- The pages of one walk so far. -/
structure Walker where
  items : List FillRow
  cursor : Nat
  pages : Nat
deriving DecidableEq

structure WalkOutcome where
  items : List FillRow
  cursor : Nat
  complete : Bool
  pages : Nat
  error : Option String
deriving DecidableEq

namespace Walker

/-- One row of a page. A row past the ceiling never folds and never moves the cursor, and a txid of
    this walk is taken once. -/
def take (ceiling : Nat) (state : Walker × Bool) (row : FillRow) : Walker × Bool :=
  if ceiling < row.blockTime then state
  else
    let walker := { state.1 with cursor := max state.1.cursor row.blockTime }
    if (walker.items.map FillRow.txId).contains row.txId then (walker, state.2)
    else ({ walker with items := walker.items ++ [row] }, true)

def finish (walker : Walker) (complete : Bool) (error : Option String) : WalkOutcome :=
  ⟨walker.items, walker.cursor, complete, walker.pages, error⟩

/-- Fold the answer of one fetch, and say whether the walk goes on. -/
def page (walker : Walker) (ceiling : Nat) (answer : Except String (List FillRow)) : Walker ⊕ WalkOutcome :=
  match answer with
  | .error e => .inr (walker.finish false (some e))
  | .ok rows =>
    let (walker, progressed) := rows.foldl (take ceiling) ({ walker with pages := walker.pages + 1 }, false)
    if rows.length < PAGE_LIMIT then .inr (walker.finish true none)
    else if progressed = false then
      .inr (walker.finish false (some ("page wall: a full page yielded no new rows (same-block_time " ++
        "cluster past the API's reach)")))
    else if PAGE_BUDGET ≤ walker.pages then .inr (walker.finish false none)
    else .inl walker

end Walker

/-- The lowest block time in a walk whose row we could not fold. -/
abbrev HeldFloor := Option Nat

namespace HeldFloor

def hold (held : HeldFloor) (blockTime : Nat) : HeldFloor :=
  some (match held with
    | some floor => min floor blockTime
    | none => blockTime)

/-- The resume point: never past the lowest held row. -/
def resumeFrom (held : HeldFloor) (walkCursor : Nat) : Nat :=
  match held with
  | some floor => min walkCursor floor
  | none => walkCursor

def notice (held : HeldFloor) : Option String :=
  held.map fun _ => "some history could not be folded this run and will be retried " ++
    "(the cursor is held, not advanced)"

end HeldFloor

/-- What opening a backup row came to. -/
inductive StashRead
  | malformedEnvelope
  | unopened (e : OpenError)
  | untagged
  | unverified (e : OpenError)
  | forged
  | undecodable
  | snapshot (snapshot : SavedHandshakeSnapshot)
deriving DecidableEq

/-- A backup row that is passed over for good, or holds its cursor. -/
def StashRead.dropped : StashRead → Option DropReason
  | .malformedEnvelope => some .malformedEnvelope
  | .unopened e | .unverified e => some (decryptDrop e)
  | .untagged | .forged => some .stashNotOurs
  | .undecodable => some .undecodablePayload
  | .snapshot _ => none

/-- Does the candidate backup supersede the one we are holding? -/
def stashSupersedes (candidate : Option Nat × Nat × String) (current : Option (Option Nat × Nat × String)) :
    Bool :=
  match current with
  | none => true
  | some current =>
    let byArchive := decide (current.2.1 < candidate.2.1) ||
      (candidate.2.1 == current.2.1 && decide (candidate.2.2 < current.2.2))
    match candidate.1, current.1 with
    | some a, some b => if a ≠ b then decide (b < a) else byArchive
    | some _, none => true
    | none, some _ => false
    | none, none => byArchive

structure FillReport where
  complete : Bool
  pages : Nat
  newRows : Nat
  error : Option String
deriving DecidableEq

namespace FillReport

/-- Not complete, and for this reason where none was named yet. -/
def incomplete (report : FillReport) (error : Option String) : FillReport :=
  { report with complete := false, error := report.error <|> error }

def addPages (report : FillReport) (pages : Nat) : FillReport :=
  { report with pages := report.pages + pages }

def countRow (report : FillReport) : FillReport := { report with newRows := report.newRows + 1 }

/-- What a finished walk leaves of the report. -/
def close (report : FillReport) (outcome : WalkOutcome) (held : HeldFloor) : FillReport :=
  if outcome.complete = false ∨ held.isSome then report.incomplete (outcome.error <|> held.notice) else report

end FillReport

def LOCKED_NOTICE : String := "the wallet locked while catching up — unlock and check again"

/-- A backup that authenticated: its row, and what it says. -/
structure Backup where
  row : FillRow
  snapshot : SavedHandshakeSnapshot
deriving DecidableEq

def Backup.key (backup : Backup) : Option Nat × Nat × String :=
  (backup.snapshot.stashedAt, backup.row.blockTime, backup.row.txId)

/-- Where a running fill is. -/
inductive FillStage
  | backups
  | walking (lane : Lane) (start ceiling : Nat) (walker : Walker)
  | opening (lane : Lane) (start : Nat) (outcome : WalkOutcome) (left : List FillRow) (held : HeldFloor)
      (newest : Option Backup)
  /-- the erase check in front of the whole backup, and in front of each of its rows -/
  | restoring (lane : Lane) (start : Nat) (outcome : WalkOutcome) (held : HeldFloor) (backup : Backup)
      (left : Option (List SavedHandshakePayload)) (checked : Bool)
  | covering (lane : Lane) (start : Nat) (outcome : WalkOutcome) (held : HeldFloor) (newest : Option Backup)
      (checked : Bool)
  | sweep
  | addresses
  | folding (lane : Lane) (start : Nat) (outcome : WalkOutcome) (left : List FillRow) (held : HeldFloor)
      (checked : Bool)
  | listing
  | conversations
  | saving
deriving DecidableEq

/-- A conversation the comm sweep asks for: its id, its contact and their alias. -/
structure Swept where
  conversationId : String
  contactAddress : String
  theirAlias : String
deriving DecidableEq

/-- A running fill: the erase generation it began under and its own copy of the cursors. The fields
    from `erasures` on are history, which nothing reads: how many erasures came before it, the cursors it
    began with, the clears that were lost by then, the lanes it was asked for, where those it began
    started, the rows it held and those it has dealt with, the lanes it skipped and those it drained, and
    how many rows it recorded since an erase landed under it. -/
structure FillRun where
  epoch : Nat
  cursors : FillCursors
  report : FillReport
  stage : FillStage
  addresses : List String
  conversations : List Swept
  erasures : Nat
  began : FillCursors
  lostClears : List (String × Nat)
  lanes : List Lane
  starts : List (Lane × Nat)
  holds : List (Lane × FillRow)
  dealt : List (Lane × FillRow)
  skipped : List Lane
  drained : List Lane
  late : Nat

/-- What the user erases: everything, one conversation's words, or a contact's rows. -/
inductive Erasure
  | wipe (now : Nat)
  | clear (conversationId : String) (now : Nat)
  | block (conversationIds : List String)
deriving DecidableEq

/-- The part of an erase that runs on the cursors under the erase gate. -/
def Erasure.mutate : Erasure → FillCursors → FillCursors
  | .wipe now, cursors => { cursors.raiseFloor now with comms := ∅ }
  | .clear conversationId now, cursors =>
    { cursors with
      comms := cursors.comms.insert conversationId (max ((cursors.comms.lookup conversationId).getD 0) now) }
  | .block conversationIds, cursors =>
    { cursors with comms := conversationIds.foldl (fun comms id => comms.erase id) cursors.comms }

/-- A durable write: saved, or failed with the old or the new contents on the disk. -/
inductive DurableWrite
  | saved
  | failed (landed : Bool)
deriving DecidableEq

def DurableWrite.lands : DurableWrite → Bool
  | .saved => true
  | .failed landed => landed

/-- A whole-file write with no fsync: saved, not begun, or torn, which reads as the default. -/
inductive CheapWrite
  | saved
  | kept
  | torn
deriving DecidableEq

/-- An erase whose floor is durable: how many erasures there were with it, and the floor it left. -/
structure Seal where
  erasure : Erasure
  place : Nat
  floor : Nat
deriving DecidableEq

/-- A write a fill run made: how many erasures there were when it read its cursors, and when it wrote. -/
structure FillSave where
  readAfter : Nat
  savedAfter : Nat
deriving DecidableEq

/-- A fill that ended: what it reported, unless the process died under it, and the cursors it saved. -/
structure FinishedRun where
  run : FillRun
  report : Option FillReport
  saved : Option FillCursors

/-- The fill's files and the erase generation, with the run in flight if there is one. The last
    fields are history, which nothing reads: how many erasures there were, those that are durable, the
    clears that are lost, the writes fills made and the fills that ended. A clear is lost once a block or a
    wipe has taken its conversation's cursor while the floor was below it. -/
structure FillState where
  epoch : Nat
  cursors : FillCursors
  stash : StashState
  run : Option FillRun
  erasures : Nat
  seals : List Seal
  lostClears : List (String × Nat)
  saves : List FillSave
  finished : List FinishedRun

namespace FillRun

def begin (epoch : Nat) (cursors : FillCursors) (erasures : Nat) (lostClears : List (String × Nat)) : FillRun :=
  { epoch := epoch, cursors := cursors, report := ⟨true, 0, 0, none⟩, stage := .backups, addresses := []
    conversations := [], erasures := erasures, began := cursors, lostClears := lostClears, lanes := []
    starts := [], holds := [], dealt := [], skipped := [], drained := [], late := 0 }

def startLane (run : FillRun) (lane : Lane) (now : Nat) : FillRun :=
  let start := run.cursors.startAt lane
  { run with
    stage := .walking lane start (now + FUTURE_SKEW_MS) ⟨[], start, 0⟩
    starts := (lane, start) :: run.starts }

/-- A lane that is left out because the vault is locked, with the ones behind it. -/
def skipLanes (run : FillRun) (lanes : List Lane) (stage : FillStage) : FillRun :=
  { run with
    report := run.report.incomplete (some LOCKED_NOTICE), stage := stage, skipped := lanes ++ run.skipped }

/-- The resume point of a finished lane, and what it leaves of the report. -/
def closeLane (run : FillRun) (lane : Lane) (start : Nat) (outcome : WalkOutcome) (held : HeldFloor)
    (stage : FillStage) : FillRun :=
  let resume := held.resumeFrom outcome.cursor
  { run with
    cursors := if start < resume then run.cursors.setCursor lane resume else run.cursors
    report := run.report.close outcome held
    stage := stage
    drained := if outcome.complete ∧ held.isNone then lane :: run.drained else run.drained }

/-- The next page of a walk. -/
def page (run : FillRun) (answer : Except String (List FillRow)) : Option FillRun :=
  match run.stage with
  | .walking lane start ceiling walker =>
    match walker.page ceiling answer with
    | .inl walker => some { run with stage := .walking lane start ceiling walker }
    | .inr outcome =>
      some { run with
        report := run.report.addPages outcome.pages
        stage :=
          if lane.kind = .stash then .opening lane start outcome outcome.items none none
          else .folding lane start outcome outcome.items none false }
  | _ => none

/-- The next row of the backup walk: malformed, refused, held, superseded, or the newest yet. -/
def read (run : FillRun) (read : StashRead) : Option FillRun :=
  match run.stage with
  | .opening lane start outcome (row :: left) held newest =>
    if (decodeHex row.data).isNone then
      some { run with stage := .opening lane start outcome left held newest, dealt := (lane, row) :: run.dealt }
    else
      match read.dropped, read with
      | some reason, _ =>
        if reason.outcome.holds then
          some { run with
            stage := .opening lane start outcome left (held.hold row.blockTime) newest
            holds := (lane, row) :: run.holds }
        else
          some { run with
            stage := .opening lane start outcome left held newest, dealt := (lane, row) :: run.dealt }
      | none, .snapshot snapshot =>
        let candidate : Backup := ⟨row, snapshot⟩
        if stashSupersedes candidate.key (newest.map Backup.key) then
          some { run with
            stage := .opening lane start outcome left held (some candidate)
            dealt := (newest.map fun old => (lane, old.row)).toList ++ run.dealt }
        else
          some { run with
            stage := .opening lane start outcome left held newest, dealt := (lane, row) :: run.dealt }
      | none, _ => none
  | _ => none

/-- What a fold of a row comes to. `moved` is whether an erase has landed since the run began. -/
def settle (run : FillRun) (lane : Lane) (row : FillRow) (outcome : FoldOutcome) (moved : Bool) : FillRun :=
  match outcome with
  | .recorded =>
    { run with
      report := run.report.countRow, dealt := (lane, row) :: run.dealt
      late := if moved then run.late + 1 else run.late }
  | .settled => { run with dealt := (lane, row) :: run.dealt }
  | .held | .locked => { run with holds := (lane, row) :: run.holds }

/-- What a fold of one conversation of a backup comes to. The row is dealt with when all of it is. -/
def settleBackup (run : FillRun) (lane : Lane) (row : FillRow) (outcome : FoldOutcome) (moved : Bool) : FillRun :=
  match outcome with
  | .recorded =>
    { run with report := run.report.countRow, late := if moved then run.late + 1 else run.late }
  | .settled => run
  | .held | .locked => { run with holds := (lane, row) :: run.holds }

end FillRun

inductive FillEvent
  | erase (erasure : Erasure) (write : DurableWrite)
  /-- the process dies, and the next one counts its erases from 0 -/
  | relaunch
  /-- a wipe deletes `stash.state` -/
  | dropStash
  /-- a committed backup records what it covered -/
  | backup (state : StashState) (write : CheapWrite)
  | begin
  | backups (live : Bool) (owner : Except String String) (now : Nat)
  | page (answer : Except String (List FillRow))
  | read (read : StashRead)
  | check
  | fold (outcome : FoldOutcome)
  | cover (write : CheapWrite)
  | close
  | sweep (addresses : Except String (List String))
  | lane (live : Bool) (now : Nat)
  | list (conversations : List Swept)
  | save (write : DurableWrite)

namespace FillState

/-- Each clear that is durable: the conversation, and its time. -/
def clears (s : FillState) : List (String × Nat) :=
  s.seals.filterMap fun sealed =>
    match sealed.erasure with
    | .clear conversationId now => some (conversationId, now)
    | _ => none

/-- The clears that are lost once the erasure has moved the cursors to `cursors`. -/
def lost (s : FillState) (erasure : Erasure) (cursors : FillCursors) : List (String × Nat) :=
  match erasure with
  | .wipe _ => (s.clears ++ s.lostClears).filter fun lost => cursors.floorUnixMs < lost.2
  | .block conversationIds =>
    (s.clears.filter fun lost => conversationIds.contains lost.1 && cursors.floorUnixMs < lost.2) ++ s.lostClears
  | .clear conversationId now => s.lostClears.filter fun lost => !(lost.1 == conversationId && lost.2 ≤ now)

/-- Stamp the floor, then bump the generation. -/
def sealErasure (s : FillState) (erasure : Erasure) (write : DurableWrite) : FillState :=
  let cursors := if write.lands then erasure.mutate s.cursors else s.cursors
  { s with
    epoch := s.epoch + 1
    cursors := cursors
    erasures := s.erasures + 1
    seals := if write = .saved then ⟨erasure, s.erasures + 1, cursors.floorUnixMs⟩ :: s.seals else s.seals
    lostClears := if write.lands then s.lost erasure cursors else s.lostClears }

def setRun (s : FillState) (run : FillRun) : FillState := { s with run := some run }

def finish (s : FillState) (run : FillRun) (saved : Option FillCursors) : FillState :=
  { s with run := none, finished := s.finished ++ [⟨run, some run.report, saved⟩] }

/-- Stop a walk whose store was erased under it, writing nothing. -/
def abandon (s : FillState) (run : FillRun) : FillState :=
  s.finish { run with report := { run.report with
    complete := false, error := some "history was erased while catching up" } } none

def saveStash (s : FillState) (state : StashState) : CheapWrite → FillState
  | .saved => { s with stash := state }
  | .kept => s
  | .torn => { s with stash := .default }

/-- The next row's erase check, or the row a malformed payload passes over. -/
def check (s : FillState) (run : FillRun) : Option FillState :=
  let guarded (stage : FillStage) : FillState :=
    if s.epoch = run.epoch then s.setRun { run with stage := stage } else s.abandon run
  match run.stage with
  | .restoring lane start outcome held backup none _ =>
    some (guarded (.restoring lane start outcome held backup (some backup.snapshot.rows) false))
  | .restoring lane start outcome held backup (some (payload :: left)) false =>
    some (guarded (.restoring lane start outcome held backup (some (payload :: left)) true))
  | .covering lane start outcome held newest false =>
    some (guarded (.covering lane start outcome held newest true))
  | .folding lane start outcome (row :: left) held false =>
    if (decodeHex row.data).isNone then
      some (s.setRun { run with
        stage := .folding lane start outcome left held false, dealt := (lane, row) :: run.dealt })
    else some (guarded (.folding lane start outcome (row :: left) held true))
  | _ => none

def fold (s : FillState) (run : FillRun) (folded : FoldOutcome) : Option FillState :=
  let moved := decide (s.epoch ≠ run.epoch)
  match run.stage with
  | .restoring lane start outcome held backup (some (_ :: left)) true =>
    let held := if folded.holds then held.hold 0 else held
    some (s.setRun { run.settleBackup lane backup.row folded moved with
      stage := .restoring lane start outcome held backup (some left) false })
  | .folding lane start outcome (row :: left) held true =>
    let held := if folded.holds then held.hold row.blockTime else held
    some (s.setRun { run.settle lane row folded moved with
      stage := .folding lane start outcome left held false })
  | _ => none

/-- The coverage proof, under the gate, and the end of the backup lane. -/
def cover (s : FillState) (run : FillRun) (write : CheapWrite) : Option FillState :=
  match run.stage with
  | .covering lane start outcome held newest true =>
    match newest with
    | none => some (s.setRun (run.closeLane lane start outcome held .sweep))
    | some backup =>
      if s.epoch ≠ run.epoch then some (s.abandon run)
      else
        let proven := !s.stash.confirmedReadable && s.stash.lastTxid ≠ "" && backup.row.txId = s.stash.lastTxid
        let s :=
          if proven then
            { (s.saveStash { s.stash with confirmedReadable := true } write) with
              saves := ⟨run.erasures, s.erasures⟩ :: s.saves }
          else s
        let restored := outcome.complete && held ≠ some 0
        let run := { run with dealt := if restored then (lane, backup.row) :: run.dealt else run.dealt }
        some (s.setRun (run.closeLane lane start outcome held .sweep))
  | _ => none

def close (s : FillState) (run : FillRun) : Option FillState :=
  match run.stage with
  | .opening lane start outcome [] held newest =>
    match outcome.complete, newest with
    | true, some backup => some (s.setRun { run with stage := .restoring lane start outcome held backup none false })
    | false, some backup =>
      -- an older backup may be all a cut walk saw: restore nothing from it
      some (s.setRun { run with
        stage := .covering lane start outcome (held.hold start) (some backup) false
        holds := (lane, backup.row) :: run.holds })
    | _, none => some (s.setRun { run with stage := .covering lane start outcome held none false })
  | .restoring lane start outcome held backup (some []) false =>
    some (s.setRun { run with stage := .covering lane start outcome held (some backup) false })
  | .folding lane start outcome [] held false =>
    let next : FillStage := if lane.kind = .comms then .conversations else .addresses
    some (s.setRun (run.closeLane lane start outcome held next))
  | _ => none

/-- The next lane of a sweep: its liveness check and its start. -/
def lane (s : FillState) (run : FillRun) (live : Bool) (now : Nat) : Option FillState :=
  match run.stage with
  | .addresses =>
    match run.addresses with
    | [] => some (s.setRun { run with stage := .listing })
    | address :: left =>
      if live then some (s.setRun ({ run with addresses := left }.startLane ⟨.handshakes, address⟩ now))
      else
        some (s.setRun ({ run with addresses := [] }.skipLanes
          ((address :: left).map fun address => ⟨.handshakes, address⟩) .listing))
  | .conversations =>
    match run.conversations with
    | [] => some (s.setRun { run with stage := .saving })
    | swept :: left =>
      if live then
        some (s.setRun ({ run with conversations := left }.startLane ⟨.comms, swept.conversationId⟩ now))
      else
        some (s.setRun ({ run with conversations := [] }.skipLanes
          ((swept :: left).map fun (swept : Swept) => ⟨.comms, swept.conversationId⟩) .saving))
  | _ => none

/-- One step of a running fill. -/
def runStep (s : FillState) (run : FillRun) : FillEvent → Option FillState
  | .backups live owner now =>
    if run.stage ≠ .backups then none
    else
      match live, owner with
      | true, .ok owner =>
        some (s.setRun ({ run with lanes := [⟨.stash, owner⟩] }.startLane ⟨.stash, owner⟩ now))
      | true, .error e => some (s.setRun { run with report := run.report.incomplete (some e), stage := .sweep })
      | false, owner =>
        let lanes := (owner.toOption.map fun owner => ⟨.stash, owner⟩).toList
        some (s.setRun ({ run with lanes := lanes }.skipLanes lanes .sweep))
  | .page answer => (run.page answer).map s.setRun
  | .read read => (run.read read).map s.setRun
  | .check => s.check run
  | .fold outcome => s.fold run outcome
  | .cover write => s.cover run write
  | .close => s.close run
  | .sweep addresses =>
    if run.stage ≠ .sweep then none
    else
      match addresses with
      | .error e => some (s.finish { run with report := { run.report with complete := false, error := some e } } none)
      | .ok addresses =>
        -- one address for each derived index
        if addresses.Nodup then
          some (s.setRun { run with
            stage := .addresses, addresses := addresses
            lanes := (addresses.map fun address => ⟨.handshakes, address⟩) ++ run.lanes })
        else none
  | .lane live now => s.lane run live now
  | .list conversations =>
    if run.stage ≠ .listing then none
    -- the rows of a map keyed by the id
    else if (conversations.map Swept.conversationId).Nodup then
      some (s.setRun { run with
        stage := .conversations, conversations := conversations
        lanes := (conversations.map fun swept => ⟨.comms, swept.conversationId⟩) ++ run.lanes })
    else none
  | .save write =>
    if run.stage ≠ .saving then none
    else if s.epoch ≠ run.epoch then some (s.abandon run)
    else if write.lands then
      some ({ s with cursors := run.cursors, saves := ⟨run.erasures, s.erasures⟩ :: s.saves }.finish run
        (some run.cursors))
    else some (s.finish run none)
  | _ => none

def step (s : FillState) : FillEvent → Option FillState
  | .erase erasure write => some (s.sealErasure erasure write)
  | .relaunch =>
    some { s with epoch := 0, run := none, finished := s.finished ++ s.run.toList.map fun run => ⟨run, none, none⟩ }
  | .dropStash => some { s with stash := .default }
  | .backup state write => some (s.saveStash state write)
  | .begin =>
    -- one fill at a time
    if s.run.isSome then none else some (s.setRun (.begin s.epoch s.cursors s.erasures s.lostClears))
  | event => s.run.bind fun run => s.runStep run event

def launch (cursors : FillCursors) (stash : StashState) : FillState := ⟨0, cursors, stash, none, 0, [], [], [], []⟩

end FillState

end Kaspaverse.Transport
