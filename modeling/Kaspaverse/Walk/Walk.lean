import Mathlib
import Kaspaverse.Library.Machine

namespace Kaspaverse.Walk

def MAX_WALK_PAGES : Nat := 16
def WALK_TIP_PAGE_THRESHOLD : Nat := 100
def WALK_PAGE_ATTEMPTS : Nat := 8
def MAX_FAILED_RUNS : Nat := 3
def FAILED_RUN_BACKOFF : Nat := 2000
def FAILED_RUN_BACKOFF_CAP : Nat := 60000
def CURSOR_MIN_WRITE_SECS : Nat := 3
def CATCH_UP_BEHIND_MS : Nat := 60000

/-- What a page says of one added chain block: its header's hash and time, where the node sent
    them. -/
structure Entry (Hash : Type) where
  hash : Option Hash
  timestamp : Option Nat
deriving DecidableEq

structure Response (Hash : Type) where
  removed : List Hash
  added : List Hash
  entries : List (Entry Hash)
deriving DecidableEq

structure WalkPage (Hash : Type) where
  start : Hash
  response : Response Hash
deriving DecidableEq

/-- Why a page call did not return a page. -/
inductive PageError
  | noSocket
  | socketLost
  | displaced
  | timedOut
  | refused (error : String)
deriving DecidableEq

inductive Verdict
  | folded
  | held
deriving DecidableEq

inductive Mode
  | idle
  | running
deriving DecidableEq

structure State (Hash : Type) where
  mode : Mode
  cursor : Option Hash
  path : Option String
  writtenAt : Nat
  cursorTimeMs : Option Nat
  epoch : Nat
  failedRuns : Nat
  retryAfter : Option Nat
  carried : Option (Hash × Nat)
  own : Option (Hash × Nat)
  markRead : Bool
  present : Bool
  atTip : Bool

inductive Cause
  | budget
  | failure
deriving DecidableEq

/-- What a run of the walk carries: the arm it began under, and the pages it has walked. -/
structure Run where
  epoch : Nat
  pages : Nat
deriving DecidableEq

/-- Where the walk's task is: before a critical section, or in an await. -/
inductive Task (Hash : Type)
  | waiting
  | marking (run : Run) (page : Option (WalkPage Hash))
  | readingMark (run : Run) (page : Option (WalkPage Hash))
  | owing (run : Run)
  | stepping (run : Run)
  | judging (run : Run) (start : Hash)
  | asking (run : Run) (start : Hash) (catchUp : Bool) (attempt : Nat) (onlyNoSocket : Bool)
  | yielding (run : Run) (start : Hash) (catchUp : Bool) (attempt : Nat) (onlyNoSocket : Bool)
  | fetching (run : Run) (start : Hash) (catchUp : Bool) (attempt : Nat) (onlyNoSocket : Bool)
  | failing (run : Run) (start : Hash)
  | gating (run : Run) (page : WalkPage Hash)
  | noting (run : Run) (page : WalkPage Hash)
  | folding (run : Run) (page : WalkPage Hash) (matcher : Nat)
  | holding (run : Run)
  | committing (run : Run) (page : WalkPage Hash)
  | skipping (run : Run) (cause : Cause)
  | announcing (run : Run) (was to_ : Hash) (matcher : Nat) (walksOn : Bool)
  | seeding (run : Run)
  | settling (run : Run)

/-- How a committed cursor came to be where it is. -/
inductive How (Hash : Type)
  | page (page : WalkPage Hash)
  | seed
  | skip
deriving DecidableEq

structure Move (Hash : Type) where
  path : Option String
  was : Option Hash
  to_ : Hash
  how : How Hash
deriving DecidableEq

/-- The walk, its task and the cursor files. The last three fields are history, which nothing
    reads: the moves of the committed cursor, the pages each matcher folded, and the gaps each was
    told of. -/
structure World (Hash : Type) where
  state : State Hash
  task : Task Hash
  poked : Bool
  settled : Nat
  files : String → Option Hash
  moves : List (Move Hash)
  folds : List (Nat × WalkPage Hash)
  gaps : List (Nat × Hash × Hash)

/-- What one step of the task meets: its clocks, the node's answers, a matcher's verdict, whether
    sends go first, and whether a cursor write lands. -/
structure Io (Hash : Type) where
  instant : Nat
  unixSecs : Nat
  unixMs : Nat
  mark : Option Hash
  page : Except PageError (Response Hash)
  sink : Option Hash
  verdict : Verdict
  foreground : Bool
  writes : Bool

variable {Hash : Type}

section Page

variable [DecidableEq Hash] (page : WalkPage Hash)

def WalkPage.aligned : Nat :=
  ((page.response.added.zip page.response.entries).takeWhile fun pair =>
    decide (pair.2.hash = some pair.1)).length

/-- The added chain blocks the page is trusted for, in chain order. -/
def WalkPage.blocks : List (Hash × Entry Hash) :=
  (page.response.added.zip page.response.entries).take page.aligned

def WalkPage.last : Option (Hash × Option Nat) :=
  page.blocks.getLast?.map fun pair => (pair.1, pair.2.timestamp)

def WalkPage.addedLen : Nat := page.response.added.length

def WalkPage.long : Bool := decide (WALK_TIP_PAGE_THRESHOLD ≤ page.addedLen)

def WalkPage.carries (mark : Option (Hash × Nat)) : Bool :=
  mark.any fun mark => decide (mark.1 = page.start) || page.blocks.any fun pair => decide (pair.1 = mark.1)

end Page

def State.fresh : State Hash where
  mode := .idle
  cursor := none
  path := none
  writtenAt := 0
  cursorTimeMs := none
  epoch := 0
  failedRuns := 0
  retryAfter := none
  carried := none
  own := none
  markRead := false
  present := false
  atTip := false

namespace World

variable (w : World Hash)

def goto (task : Task Hash) : World Hash := { w with task := task }

def poke : World Hash := { w with poked := true }

/-- Write the committed cursor to its file. A write that fails is logged and forgotten. -/
def flush (io : Io Hash) : World Hash :=
  match w.state.path, w.state.cursor with
  | some path, some cursor =>
    { w with
      files := if io.writes then Function.update w.files path (some cursor) else w.files
      state := { w.state with writtenAt := io.unixSecs } }
  | _, _ => w

def settle (epoch : Nat) : World Hash := { w with settled := max w.settled epoch }

/-- The walk still runs under the arm the run began under. -/
def runs (run : Run) : Bool := decide (w.state.mode = .running ∧ w.state.epoch = run.epoch)

/-- Move the committed cursor, and say how. -/
def moveTo (to_ : Hash) (timeMs : Option Nat) (how : How Hash) : World Hash :=
  { w with
    state := { w.state with cursor := some to_, cursorTimeMs := timeMs }
    moves := ⟨w.state.path, w.state.cursor, to_, how⟩ :: w.moves }

def arm (path : String) : World Hash :=
  let s := w.state
  let sameStore := decide (s.path = some path)
  let reads := !sameStore || s.cursor.isNone
  { w with
    state := { s with
      cursor := if reads then w.files path else s.cursor
      cursorTimeMs := if reads then none else s.cursorTimeMs
      path := some path
      mode := .running
      epoch := s.epoch + 1
      failedRuns := 0
      retryAfter := none
      carried := if sameStore then s.carried.or s.own else none
      own := none
      markRead := false
      present := false
      atTip := false }
    poked := true }

def hold (io : Io Hash) : World Hash :=
  if w.state.mode = .idle then w
  else { w with state := { w.state with mode := .idle, epoch := w.state.epoch + 1 } }.flush io

/-- A matcher could not fold a page: stop, and keep the cursor. -/
def holdAt (io : Io Hash) : World Hash :=
  { w with state := { w.state with mode := .idle, epoch := w.state.epoch + 1 } }.flush io

def socketPublished : World Hash := { w with state := { w.state with atTip := false } }

/-- The process dies. The cursor files stay. -/
def die : World Hash := { w with state := .fresh, task := .waiting, poked := false, settled := 0 }

def behind (run : Run) (io : Io Hash) : Bool :=
  decide (w.state.epoch = run.epoch) && !w.state.atTip &&
    w.state.cursorTimeMs.all fun t => decide (CATCH_UP_BEHIND_MS ≤ io.unixMs - t)

variable [DecidableEq Hash]

/-- The walk still runs under the run's arm, from the cursor the page starts at. -/
def stillAt (run : Run) (start : Hash) : Bool := w.runs run && decide (w.state.cursor = some start)

def noteProgress (run : Run) (start : Hash) : World Hash :=
  if w.state.epoch = run.epoch ∧ w.state.cursor = some start then
    { w with state := { w.state with failedRuns := 0, retryAfter := none, markRead := true } }
  else w

/-- Drop the marks a folded page passed. -/
def passMarks (run : Run) (page : WalkPage Hash) (atTip : Bool) : World Hash :=
  let s := w.state
  if atTip || page.carries s.own then
    { w with
      state := { s with
        own := none
        carried := none
        present := s.present || decide (s.epoch = run.epoch)
        atTip := s.atTip || (decide (s.epoch = run.epoch) && atTip) } }
  else if page.carries s.carried then { w with state := { s with carried := none } }
  else w

/-- Move the committed cursor from the page's start to its last chain block. -/
def commit (io : Io Hash) (run : Run) (page : WalkPage Hash) (force atTip : Bool) : World Hash :=
  if w.state.cursor ≠ some page.start then w
  else
    match page.last with
    | none => w.passMarks run page atTip
    | some (to_, timeMs) =>
      let w := (w.moveTo to_ timeMs (.page page)).passMarks run page atTip
      if force ∨ w.state.mode ≠ .running ∨ CURSOR_MIN_WRITE_SECS ≤ io.unixSecs - w.state.writtenAt then
        w.flush io
      else w

/-- Where a skip goes. -/
inductive Landing (Hash : Type)
  | landed (was mark : Hash)
  | present
  | sink

/-- The oldest mark that is not the cursor, taken once: what is left of the marks, whether the rest
    is present, and the mark. -/
def takeMark (s : State Hash) (cursor : Hash) : State Hash × Option (Hash × Nat) :=
  match s.carried.filter fun mark => decide (mark.1 ≠ cursor) with
  | some mark => ({ s with carried := none }, some mark)
  | none =>
    match s.own with
    | none => ({ s with carried := none }, none)
    | some own =>
      ({ s with carried := none, own := none, present := true },
        some own |>.filter fun mark => decide (mark.1 ≠ cursor))

def landing (io : Io Hash) (run : Run) (cause : Cause) : World Hash × Option (Landing Hash) :=
  if w.runs run = false then (w, none)
  else
    match w.state.cursor with
    | none => (w, some .sink)
    | some cursor =>
      let (s, next) := takeMark w.state cursor
      let w := { w with state := s }
      match next with
      | none => (w, some (if s.present then .present else .sink))
      | some (mark, _) =>
        let w := w.moveTo mark none .skip
        let w := { w with state := { w.state with
          failedRuns := 0
          retryAfter := if cause = Cause.budget then none else w.state.retryAfter } }
        (w.flush io, some (.landed cursor mark))

/-- Put the cursor at the node's sink, and give back the cursor it left. -/
def reseed (io : Io Hash) (sink : Hash) : World Hash :=
  let w := w.moveTo sink none (if w.state.cursor.isNone then .seed else .skip)
  { w with state := { w.state with
    failedRuns := 0
    retryAfter := none
    carried := none
    own := none
    markRead := true
    present := true
    atTip := true } }.flush io

def backoff (failed : Nat) : Nat :=
  min (FAILED_RUN_BACKOFF * 2 ^ min (failed - 1) 8) FAILED_RUN_BACKOFF_CAP

end World

/-- What a step needs of the rest: how many matchers there are, and which of the node's refusals
    say that it does not know the cursor. -/
structure Setup where
  matchers : Nat
  cursorUnknown : String → Bool

namespace World

variable (setup : Setup) (w : World Hash)

/-- The next matcher's fold, or the commit. -/
def toFold (run : Run) (page : WalkPage Hash) (matcher : Nat) : World Hash :=
  w.goto (if matcher < setup.matchers then .folding run page matcher else .committing run page)

/-- The next matcher's notice of a gap, or the end of the run: a spent budget that landed on a
    mark walks on at once. -/
def toAnnounce (run : Run) (was to_ : Hash) (matcher : Nat) (walksOn : Bool) : World Hash :=
  if matcher < setup.matchers then w.goto (.announcing run was to_ matcher walksOn)
  else if walksOn then w.poke.goto .waiting
  else w.goto (.settling run)

variable [DecidableEq Hash]

/-- One critical section of `run_to_tip`, or the end of one of its awaits. -/
def advance (io : Io Hash) : World Hash :=
  match w.task with
  | .waiting =>
    if w.poked = false then w
    else
      let w := { w with poked := false }
      if w.state.mode ≠ .running then w
      else if w.state.retryAfter.any fun at_ => decide (io.instant < at_) then
        w.settle w.state.epoch
      else w.goto (.marking ⟨w.state.epoch, 0⟩ none)
  | .marking run page =>
    if w.runs run = false ∨ w.state.cursor.isNone ∨ w.state.markRead then
      match page with
      | none => w.goto (.owing run)
      | some page => w.goto (.gating run page)
    else w.goto (.readingMark run page)
  | .readingMark run page =>
    let w :=
      match io.mark with
      | none => w
      | some mark =>
        if w.runs run ∧ w.state.markRead = false then
          { w with state := { w.state with own := some (mark, io.unixMs), markRead := true } }
        else w
    match page with
    | none => w.goto (.owing run)
    | some page => w.goto (.gating run page)
  | .owing run =>
    if MAX_FAILED_RUNS ≤ w.state.failedRuns then w.goto (.skipping run .failure)
    else w.goto (.stepping run)
  | .stepping run =>
    if w.runs run = false then w.goto (.settling run)
    else match w.state.cursor with
      | none => w.goto (.seeding run)
      | some cursor => w.goto (.judging run cursor)
  | .judging run start => w.goto (.asking run start (decide (0 < run.pages) || w.behind run io) 0 true)
  | .asking run start catchUp attempt onlyNoSocket =>
    if attempt = WALK_PAGE_ATTEMPTS then
      w.goto (if onlyNoSocket then .settling run else .failing run start)
    else if w.stillAt run start = false then w.goto (.settling run)
    else if catchUp && io.foreground then w.goto (.yielding run start catchUp attempt onlyNoSocket)
    else w.goto (.fetching run start catchUp attempt onlyNoSocket)
  | .yielding run start catchUp attempt onlyNoSocket =>
    if w.stillAt run start = false then w.goto (.settling run)
    else w.goto (.fetching run start catchUp attempt onlyNoSocket)
  | .fetching run start catchUp attempt onlyNoSocket =>
    match io.page with
    | .ok response => w.goto (.marking run (some ⟨start, response⟩))
    | .error .timedOut | .error .socketLost => w.goto (.failing run start)
    | .error .displaced => w.goto (.settling run)
    | .error .noSocket => w.goto (.asking run start catchUp (attempt + 1) onlyNoSocket)
    | .error (.refused error) =>
      if setup.cursorUnknown error then w.goto (.skipping run .failure)
      else w.goto (.asking run start catchUp (attempt + 1) false)
  | .failing run start =>
    if w.stillAt run start = false then w.goto (.settling run)
    else
      let failed := w.state.failedRuns + 1
      let w := { w with state := { w.state with
        failedRuns := failed, retryAfter := some (io.instant + backoff failed) } }
      w.goto (if MAX_FAILED_RUNS ≤ failed then .skipping run .failure else .settling run)
  | .gating run page =>
    if w.stillAt run page.start = false then w.goto (.settling run) else w.goto (.noting run page)
  | .noting run page => (w.noteProgress run page.start).toFold setup run page 0
  | .folding run page matcher =>
    match io.verdict with
    | .held => w.goto (.holding run)
    | .folded =>
      { w with folds := (matcher, page) :: w.folds }.toFold setup run page (matcher + 1)
  | .holding run => (w.holdAt io).goto (.settling run)
  | .committing run page =>
    let atTip := !page.long && decide (page.aligned = page.addedLen)
    let w := w.commit io run page (page.long || decide (0 < run.pages)) atTip
    if page.aligned < page.addedLen ∨ page.long = false then w.goto (.settling run)
    else if MAX_WALK_PAGES ≤ run.pages + 1 then w.goto (.skipping { run with pages := run.pages + 1 } .budget)
    else w.goto (.stepping { run with pages := run.pages + 1 })
  | .skipping run cause =>
    match w.landing io run cause with
    | (w, none) => w.goto (.settling run)
    | (w, some (.landed was mark)) => w.toAnnounce setup run was mark 0 (decide (cause = .budget))
    | (w, some .present) =>
      if cause = .budget then w.poke.goto (.settling run) else w.goto (.seeding run)
    | (w, some .sink) => w.goto (.seeding run)
  | .announcing run was to_ matcher walksOn =>
    { w with gaps := (matcher, was, to_) :: w.gaps }.toAnnounce setup run was to_ (matcher + 1) walksOn
  | .seeding run =>
    match io.sink with
    | none =>
      let pause := io.instant + FAILED_RUN_BACKOFF
      let w :=
        if w.runs run then
          { w with state := { w.state with
            retryAfter := some (w.state.retryAfter.elim pause fun at_ => max at_ pause) } }
        else w
      w.goto (.settling run)
    | some sink =>
      if w.runs run = false then w.goto (.settling run)
      else
        match w.state.cursor with
        | none => (w.reseed io sink).goto (.settling run)
        | some was => (w.reseed io sink).toAnnounce setup run was sink 0 false
  | .settling run => (w.settle run.epoch).goto .waiting

end World

inductive Event (Hash : Type)
  | arm (path : String)
  | hold (io : Io Hash)
  | poke
  | socketPublished
  | die
  | task (io : Io Hash)

/-- One atomic step of the task, of another thread, or of the process. -/
def step [DecidableEq Hash] (setup : Setup) (w : World Hash) : Event Hash → Option (World Hash)
  | .arm path => some (w.arm path)
  | .hold io => some (w.hold io)
  | .poke => some w.poke
  | .socketPublished => some w.socketPublished
  | .die => some w.die
  | .task io => some (w.advance setup io)

end Kaspaverse.Walk
