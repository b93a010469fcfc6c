import Mathlib
import Kaspaverse.Walk.NothingSilent

namespace Kaspaverse.Walk

variable {Hash : Type} {w mid after : World Hash} {setup : Setup}

/-- The reads of a mark so far, by number, beside the walk: which of them the stored marks are, the
    ones landed on (with the arm they were landed on under), the ones the walk is known to have
    passed, and the cause of the skip that the task is paying. -/
structure Ledger (Hash : Type) where
  reads : List Hash
  own : Option Nat
  carried : Option Nat
  arms : Nat
  landed : List (Nat × Nat)
  passed : List Nat
  owed : Option Cause

structure Marked (Hash : Type) where
  world : World Hash
  ledger : Ledger Hash

def Task.run : Task Hash → Option Run
  | .waiting => none
  | .marking run _ | .readingMark run _ | .owing run | .stepping run | .judging run _ => some run
  | .asking run _ _ _ _ | .yielding run _ _ _ _ | .fetching run _ _ _ _ => some run
  | .failing run _ | .gating run _ | .noting run _ | .folding run _ _ | .holding run => some run
  | .committing run _ | .skipping run _ | .announcing run _ _ _ _ | .seeding run | .settling run => some run

namespace Ledger

variable (ledger : Ledger Hash)

def opened : Ledger Hash := ⟨[], none, none, 0, [], [], none⟩

/-- An arm carries the older unreached mark of the same store. -/
def arm (sameStore : Bool) : Ledger Hash :=
  { ledger with
    carried := if sameStore then ledger.carried.or ledger.own else none
    own := none
    arms := ledger.arms + 1 }

def read (mark : Hash) : Ledger Hash :=
  { ledger with reads := ledger.reads ++ [mark], own := some ledger.reads.length }

/-- The reads so far that a committed page carries, or all of them where it reached the tip. -/
def passedBy [DecidableEq Hash] (page : WalkPage Hash) (atTip : Bool) : List Nat :=
  (List.range ledger.reads.length).filter fun i =>
    atTip || page.carries (ledger.reads[i]?.map fun mark => (mark, 0))

def pass [DecidableEq Hash] (page : WalkPage Hash) (atTip : Bool) : Ledger Hash :=
  { ledger with passed := ledger.passedBy page atTip ++ ledger.passed }

def land (fromCarried : Bool) : Ledger Hash :=
  { ledger with
    landed := (if fromCarried then ledger.carried else ledger.own).toList.map (ledger.arms, ·) ++ ledger.landed }

/-- Forget the reads whose marks the walk no longer stores. -/
def keep (s : State Hash) : Ledger Hash :=
  { ledger with
    own := if s.own.isSome then ledger.own else none
    carried := if s.carried.isSome then ledger.carried else none }

/-- The cause of the skip that the task is paying: from its landing to the end of its re-seed. -/
def paying (task : Task Hash) : Ledger Hash :=
  { ledger with
    owed :=
      match task with
      | .skipping _ cause => some cause
      | .seeding _ | .announcing _ _ _ _ _ => ledger.owed
      | _ => none }

variable [DecidableEq Hash]

/-- What the task's step does to the reads, from the world it is taken in. -/
def task (w : World Hash) (io : Io Hash) : Ledger Hash :=
  match w.task with
  | .readingMark run _ =>
    match io.mark with
    | some mark => if w.runs run ∧ w.state.markRead = false then ledger.read mark else ledger
    | none => ledger
  | .committing _ page =>
    if w.state.cursor = some page.start then
      ledger.pass page (!page.long && decide (page.aligned = page.addedLen))
    else ledger
  | .skipping run cause =>
    match w.landing io run cause with
    | (_, some (.landed was _)) => ledger.land (w.state.carried.any fun mark => decide (mark.1 ≠ was))
    | _ => ledger
  | _ => ledger

def follow (w after : World Hash) : Event Hash → Ledger Hash
  | .arm path => ledger.arm (decide (w.state.path = some path))
  | .die => (ledger.keep after.state).paying after.task
  | .hold _ | .poke | .socketPublished => ledger
  | .task io => ((ledger.task w io).keep after.state).paying after.task

end Ledger

def Marked.step [DecidableEq Hash] (setup : Setup) (m : Marked Hash) (e : Event Hash) : Option (Marked Hash) :=
  (Walk.step setup m.world e).map fun after => ⟨after, m.ledger.follow m.world after e⟩

section Frames

/-- The stored marks stay, the cursor stays, and no arm begins. -/
structure Stays (w after : World Hash) : Prop where
  own : after.state.own = w.state.own
  carried : after.state.carried = w.state.carried
  present : after.state.present = w.state.present
  cursor : after.state.cursor = w.state.cursor
  markRead : w.state.markRead = true → after.state.markRead = true
  epoch : w.state.epoch ≤ after.state.epoch
  mode : after.state.mode = .running → w.state.mode = .running

theorem Stays.refl (w : World Hash) : Stays w w :=
  ⟨rfl, rfl, rfl, rfl, id, Nat.le_refl _, id⟩

theorem Stays.trans (first : Stays w mid) (second : Stays mid after) : Stays w after where
  own := second.own.trans first.own
  carried := second.carried.trans first.carried
  present := second.present.trans first.present
  cursor := second.cursor.trans first.cursor
  markRead := fun noted => second.markRead (first.markRead noted)
  epoch := Nat.le_trans first.epoch second.epoch
  mode := fun running => first.mode (second.mode running)

theorem Stays.same (own : after.state.own = w.state.own) (carried : after.state.carried = w.state.carried)
    (present : after.state.present = w.state.present) (cursor : after.state.cursor = w.state.cursor)
    (markRead : after.state.markRead = w.state.markRead) (epoch : after.state.epoch = w.state.epoch)
    (mode : after.state.mode = w.state.mode) : Stays w after :=
  ⟨own, carried, present, cursor, fun noted => markRead.trans noted, Nat.le_of_eq epoch.symm,
    fun running => mode.symm.trans running⟩

theorem Stays.goto (stays : Stays w mid) (task : Task Hash) : Stays w (mid.goto task) :=
  stays.trans (.same rfl rfl rfl rfl rfl rfl rfl)

theorem flush_stays (w : World Hash) (io : Io Hash) : Stays w (w.flush io) := by
  unfold World.flush
  split
  · exact .same rfl rfl rfl rfl rfl rfl rfl
  · exact .refl w

theorem flush_epoch (w : World Hash) (io : Io Hash) : (w.flush io).state.epoch = w.state.epoch := by
  unfold World.flush
  split <;> rfl

theorem idle_stays (w : World Hash) (io : Io Hash) :
    Stays w ({ w with state := { w.state with mode := .idle, epoch := w.state.epoch + 1 } }.flush io) := by
  refine Stays.trans ?_ (flush_stays _ io)
  exact ⟨rfl, rfl, rfl, rfl, id, Nat.le_succ _, fun running => by cases running⟩

theorem hold_stays (w : World Hash) (io : Io Hash) : Stays w (w.hold io) := by
  unfold World.hold
  split
  · exact .refl w
  · exact idle_stays w io

theorem toFold_stays (setup : Setup) (w : World Hash) (run : Run) (page : WalkPage Hash) (matcher : Nat) :
    Stays w (w.toFold setup run page matcher) := .same rfl rfl rfl rfl rfl rfl rfl

theorem toAnnounce_stays (setup : Setup) (w : World Hash) (run : Run) (was to_ : Hash) (matcher : Nat)
    (walksOn : Bool) : Stays w (w.toAnnounce setup run was to_ matcher walksOn) := by
  unfold World.toAnnounce
  split
  · exact .same rfl rfl rfl rfl rfl rfl rfl
  · split <;> exact .same rfl rfl rfl rfl rfl rfl rfl

variable [DecidableEq Hash]

theorem noteProgress_stays (w : World Hash) (run : Run) (start : Hash) :
    Stays w (w.noteProgress run start) := by
  unfold World.noteProgress
  split
  · exact ⟨rfl, rfl, rfl, rfl, fun _ => rfl, Nat.le_refl _, id⟩
  · exact .refl w

end Frames

/-- The tasks whose step may change a mark. -/
def Task.marks : Task Hash → Prop
  | .readingMark _ _ | .committing _ _ | .skipping _ _ | .seeding _ => True
  | _ => False

section Plain

variable [DecidableEq Hash]

theorem plain_stays {io : Io Hash} (plain : ¬ w.task.marks) : Stays w (w.advance setup io) := by
  cases task : w.task with
  | readingMark run page => exact absurd (task ▸ True.intro) plain
  | committing run page => exact absurd (task ▸ True.intro) plain
  | skipping run cause => exact absurd (task ▸ True.intro) plain
  | seeding run => exact absurd (task ▸ True.intro) plain
  | announcing run was to_ matcher walksOn =>
    simp only [World.advance, task]
    refine Stays.trans ?_ (toAnnounce_stays setup _ run was to_ (matcher + 1) walksOn)
    exact .same rfl rfl rfl rfl rfl rfl rfl
  | folding run page matcher =>
    simp only [World.advance, task]
    split
    · exact (Stays.refl w).goto _
    · exact .same rfl rfl rfl rfl rfl rfl rfl
  | noting run page =>
    simp only [World.advance, task]
    exact (noteProgress_stays w run page.start).trans (toFold_stays setup _ run page 0)
  | holding run =>
    simp only [World.advance, task]
    exact (idle_stays w io).goto _
  | waiting =>
    simp only [World.advance, task]
    split
    · exact .refl w
    · split
      · exact .same rfl rfl rfl rfl rfl rfl rfl
      · split <;> exact .same rfl rfl rfl rfl rfl rfl rfl
  | marking run page =>
    simp only [World.advance, task]
    split
    · cases page <;> exact (Stays.refl w).goto _
    · exact (Stays.refl w).goto _
  | owing run =>
    simp only [World.advance, task]
    split <;> exact (Stays.refl w).goto _
  | stepping run =>
    simp only [World.advance, task]
    split
    · exact (Stays.refl w).goto _
    · split <;> exact (Stays.refl w).goto _
  | judging run start =>
    simp only [World.advance, task]
    exact (Stays.refl w).goto _
  | asking run start catchUp attempt onlyNoSocket =>
    simp only [World.advance, task]
    split
    · exact (Stays.refl w).goto _
    · split
      · exact (Stays.refl w).goto _
      · split <;> exact (Stays.refl w).goto _
  | yielding run start catchUp attempt onlyNoSocket =>
    simp only [World.advance, task]
    split <;> exact (Stays.refl w).goto _
  | fetching run start catchUp attempt onlyNoSocket =>
    simp only [World.advance, task]
    split
    case h_6 => split <;> exact (Stays.refl w).goto _
    all_goals exact (Stays.refl w).goto _
  | failing run start =>
    simp only [World.advance, task]
    split
    · exact (Stays.refl w).goto _
    · exact .same rfl rfl rfl rfl rfl rfl rfl
  | gating run page =>
    simp only [World.advance, task]
    split <;> exact (Stays.refl w).goto _
  | settling run =>
    simp only [World.advance, task]
    exact .same rfl rfl rfl rfl rfl rfl rfl

end Plain

/-- The walk stores these marks now, is present or not, and the arm goes on. -/
structure Leaves (w after : World Hash) (own carried : Option (Hash × Nat)) (present : Bool) : Prop where
  own : after.state.own = own
  carried : after.state.carried = carried
  present : after.state.present = present
  markRead : w.state.markRead = true → after.state.markRead = true
  epoch : after.state.epoch = w.state.epoch
  mode : after.state.mode = .running → w.state.mode = .running

section Leaves

variable {own carried : Option (Hash × Nat)} {present : Bool}

theorem Leaves.flush (leaves : Leaves w after own carried present) (io : Io Hash) :
    Leaves w (after.flush io) own carried present where
  own := (flush_stays after io).own.trans leaves.own
  carried := (flush_stays after io).carried.trans leaves.carried
  present := (flush_stays after io).present.trans leaves.present
  markRead := fun noted => (flush_stays after io).markRead (leaves.markRead noted)
  epoch := (flush_epoch after io).trans leaves.epoch
  mode := fun running => leaves.mode ((flush_stays after io).mode running)

theorem Leaves.same (leaves : Leaves w mid own carried present) (marks : Stays mid after)
    (epoch : after.state.epoch = mid.state.epoch) : Leaves w after own carried present where
  own := marks.own.trans leaves.own
  carried := marks.carried.trans leaves.carried
  present := marks.present.trans leaves.present
  markRead := fun noted => marks.markRead (leaves.markRead noted)
  epoch := epoch.trans leaves.epoch
  mode := fun running => leaves.mode (marks.mode running)

theorem reseed_leaves (w : World Hash) (io : Io Hash) (sink : Hash) :
    Leaves w (w.reseed io sink) none none true := by
  unfold World.reseed
  refine Leaves.flush ?_ io
  exact ⟨rfl, rfl, rfl, fun _ => rfl, rfl, id⟩

theorem reseed_markRead (w : World Hash) (io : Io Hash) (sink : Hash) :
    (w.reseed io sink).state.markRead = true := by
  unfold World.reseed
  apply (flush_stays _ io).markRead
  rfl

variable [DecidableEq Hash]

/-- The page passes this arm's own mark, and with it every older one. -/
def passesOwn (w : World Hash) (page : WalkPage Hash) (atTip : Bool) : Bool := atTip || page.carries w.state.own

def passesCarried (w : World Hash) (page : WalkPage Hash) (atTip : Bool) : Bool :=
  passesOwn w page atTip || page.carries w.state.carried

def passPresent (w : World Hash) (run : Run) (page : WalkPage Hash) (atTip : Bool) : Bool :=
  w.state.present || (passesOwn w page atTip && decide (w.state.epoch = run.epoch))

theorem passMarks_leaves (w : World Hash) (run : Run) (page : WalkPage Hash) (atTip : Bool) :
    Leaves w (w.passMarks run page atTip) (if passesOwn w page atTip then none else w.state.own)
      (if passesCarried w page atTip then none else w.state.carried) (passPresent w run page atTip) := by
  unfold passesCarried passPresent passesOwn
  simp only [World.passMarks]
  by_cases own : (atTip || page.carries w.state.own) = true
  · simp only [own, Bool.true_or, Bool.true_and, if_true]
    exact ⟨rfl, rfl, rfl, id, rfl, id⟩
  · simp only [own, Bool.false_or, Bool.false_and, Bool.or_false, if_false, Bool.false_eq_true]
    split
    · exact ⟨rfl, rfl, rfl, id, rfl, id⟩
    · exact ⟨rfl, rfl, rfl, id, rfl, id⟩

theorem commit_stands (w : World Hash) (io : Io Hash) (run : Run) (page : WalkPage Hash) (force atTip : Bool)
    (elsewhere : w.state.cursor ≠ some page.start) : w.commit io run page force atTip = w := by
  unfold World.commit
  rw [if_pos elsewhere]

theorem commit_leaves {page : WalkPage Hash} (run : Run) (io : Io Hash) (force atTip : Bool)
    (stands : w.state.cursor = some page.start) :
    Leaves w (w.commit io run page force atTip) (if passesOwn w page atTip then none else w.state.own)
      (if passesCarried w page atTip then none else w.state.carried) (passPresent w run page atTip) := by
  unfold World.commit
  rw [if_neg (not_not_intro stands)]
  cases last : page.last with
  | none => exact passMarks_leaves w run page atTip
  | some block =>
    have moved := passMarks_leaves (w.moveTo block.1 block.2 (.page page)) run page atTip
    simp only
    split
    · refine Leaves.flush ?_ io
      exact ⟨moved.own, moved.carried, moved.present, moved.markRead, moved.epoch, moved.mode⟩
    · exact ⟨moved.own, moved.carried, moved.present, moved.markRead, moved.epoch, moved.mode⟩

theorem commit_cursor {run : Run} {page : WalkPage Hash} (io : Io Hash) (force atTip : Bool)
    (stands : w.state.cursor = some page.start) : (w.commit io run page force atTip).state.cursor ≠ none := by
  rcases commit_moves w io run page force atTip with keeps | ⟨_, to_, timeMs, _, keeps⟩
  · rw [keeps.cursor, stands]
    exact Option.some_ne_none _
  · rw [keeps.cursor]
    exact Option.some_ne_none _

/-- What a skip's landing does: nothing under another arm or without a cursor; else it takes the
    older mark if that is ahead, or this arm's own, or finds none left. -/
inductive Lands (run : Run) (w after : World Hash) : Option (World.Landing Hash) → Prop
  | replaced (lost : w.runs run = false) (same : after = w) : Lands run w after none
  | unseeded (runs : w.runs run = true) (empty : w.state.cursor = none) (same : after = w) :
      Lands run w after (some .sink)
  | older (was : Hash) (mark : Hash × Nat) (runs : w.runs run = true) (stands : w.state.cursor = some was)
      (stored : w.state.carried = some mark) (ahead : mark.1 ≠ was)
      (leaves : Leaves w after w.state.own none w.state.present) : Lands run w after (some (.landed was mark.1))
  | newer (was : Hash) (mark : Hash × Nat) (runs : w.runs run = true) (stands : w.state.cursor = some was)
      (spent : (w.state.carried.any fun mark => decide (mark.1 ≠ was)) = false)
      (stored : w.state.own = some mark) (leaves : Leaves w after none none true) :
      Lands run w after (some (.landed was mark.1))
  | reached (was : Hash) (mark : Hash × Nat) (runs : w.runs run = true) (stands : w.state.cursor = some was)
      (stored : w.state.own = some mark) (leaves : Leaves w after none none true) :
      Lands run w after (some .present)
  | bare (was : Hash) (runs : w.runs run = true) (stands : w.state.cursor = some was)
      (stored : w.state.own = none) (cursor : after.state.cursor = w.state.cursor)
      (leaves : Leaves w after none none w.state.present) :
      Lands run w after (some (if w.state.present then .present else .sink))

theorem landing_lands {io : Io Hash} {run : Run} {cause : Cause} {landing : Option (World.Landing Hash)}
    (result : w.landing io run cause = (after, landing)) : Lands run w after landing := by
  unfold World.landing at result
  by_cases runs : w.runs run = false
  · rw [if_pos runs] at result
    cases result
    exact .replaced runs rfl
  rw [if_neg runs] at result
  have runs : w.runs run = true := Bool.not_eq_false _ ▸ runs
  cases stands : w.state.cursor with
  | none =>
    rw [stands] at result
    cases result
    exact .unseeded runs stands rfl
  | some was =>
    rw [stands] at result
    simp only at result
    cases taken : w.state.carried.filter fun mark => decide (mark.1 ≠ was) with
    | some mark =>
      obtain ⟨stored, ahead⟩ := Option.filter_eq_some_iff.mp taken
      simp only [World.takeMark, taken] at result
      cases result
      refine .older was mark runs stands stored (of_decide_eq_true ahead) (Leaves.flush ?_ io)
      exact ⟨rfl, rfl, rfl, id, rfl, id⟩
    | none =>
      have spent : (w.state.carried.any fun mark => decide (mark.1 ≠ was)) = false := by
        rw [Option.filter_eq_none_iff] at taken
        cases carried : w.state.carried with
        | none => rfl
        | some mark => exact Bool.eq_false_iff.mpr (taken mark carried)
      cases own : w.state.own with
      | none =>
        simp only [World.takeMark, taken, own] at result
        cases result
        exact .bare was runs stands own rfl ⟨rfl, rfl, rfl, id, rfl, id⟩
      | some mark =>
        by_cases ahead : mark.1 = was
        · simp only [World.takeMark, taken, own, Option.filter_some, ahead, ne_eq, not_true_eq_false, decide_false,
            Bool.false_eq_true, if_false, if_true] at result
          cases result
          exact .reached was mark runs stands own ⟨rfl, rfl, rfl, id, rfl, id⟩
        · simp only [World.takeMark, taken, own, Option.filter_some, ahead, ne_eq, not_false_eq_true, decide_true,
            if_true] at result
          cases result
          refine .newer was mark runs stands spent own (Leaves.flush ?_ io)
          exact ⟨rfl, rfl, rfl, id, rfl, id⟩

end Leaves

/-- What the task in hand stands on for as long as its arm lasts: the page it folds starts at the
    cursor, its mark's read window is closed once it noted the page, and a spent budget has a cursor
    to skip from. -/
def Task.stands (s : State Hash) : Task Hash → Prop
  | .noting run page => s.epoch = run.epoch → s.cursor = some page.start
  | .folding run page _ | .committing run page =>
    s.epoch = run.epoch → s.cursor = some page.start ∧ s.markRead = true
  | .skipping run .budget => s.epoch = run.epoch → s.cursor ≠ none
  | _ => True

/-- Which skip the task is paying, and that a spent budget re-seeds no present arm. -/
def Task.pays (s : State Hash) (owed : Option Cause) : Task Hash → Prop
  | .skipping _ cause => owed = some cause
  | .seeding run => owed = some .budget → s.epoch = run.epoch → s.present = false
  | .announcing _ _ _ _ _ => True
  | _ => owed = none

structure Armed (m : Marked Hash) : Prop where
  begun : ∀ run, m.world.task.run = some run → run.epoch ≤ m.world.state.epoch
  stands : m.world.task.stands m.world.state
  pays : m.world.task.pays m.world.state m.ledger.owed
  read : m.world.state.own ≠ none → m.world.state.markRead = true
  present : m.world.state.present = true →
    m.world.state.markRead = true ∧ m.world.state.own = none ∧ m.world.state.carried = none

section Armed

variable {task next : Task Hash} {run : Run} {m : Marked Hash} {ledger : Ledger Hash}

theorem Task.stands_of_replaced {s : State Hash} (replaced : ∀ run, task.run = some run → run.epoch < s.epoch) :
    task.stands s := by
  cases task with
  | noting run page => exact fun same => absurd same (Nat.ne_of_gt (replaced run rfl))
  | folding run page matcher => exact fun same => absurd same (Nat.ne_of_gt (replaced run rfl))
  | committing run page => exact fun same => absurd same (Nat.ne_of_gt (replaced run rfl))
  | skipping run cause =>
    cases cause with
    | budget => exact fun same => absurd same (Nat.ne_of_gt (replaced run rfl))
    | failure => exact True.intro
  | _ => exact True.intro

theorem Stays.epoch_eq (stays : Stays w after) (begun : run.epoch ≤ w.state.epoch)
    (same : after.state.epoch = run.epoch) : w.state.epoch = run.epoch :=
  Nat.le_antisymm (Nat.le_trans stays.epoch (Nat.le_of_eq same)) begun

theorem Task.stands.stays (stands : task.stands w.state)
    (begun : ∀ run, task.run = some run → run.epoch ≤ w.state.epoch) (stays : Stays w after) :
    task.stands after.state := by
  cases task with
  | noting run page =>
    intro same
    exact stays.cursor.trans (stands (stays.epoch_eq (begun run rfl) same))
  | folding run page matcher =>
    intro same
    obtain ⟨cursor, noted⟩ := stands (stays.epoch_eq (begun run rfl) same)
    exact ⟨stays.cursor.trans cursor, stays.markRead noted⟩
  | committing run page =>
    intro same
    obtain ⟨cursor, noted⟩ := stands (stays.epoch_eq (begun run rfl) same)
    exact ⟨stays.cursor.trans cursor, stays.markRead noted⟩
  | skipping run cause =>
    cases cause with
    | budget =>
      intro same
      rw [stays.cursor]
      exact stands (stays.epoch_eq (begun run rfl) same)
    | failure => exact True.intro
  | _ => exact True.intro

theorem Task.pays.stays {owed : Option Cause} (pays : task.pays w.state owed)
    (begun : ∀ run, task.run = some run → run.epoch ≤ w.state.epoch) (stays : Stays w after) :
    task.pays after.state owed := by
  cases task with
  | seeding run =>
    intro budget same
    rw [stays.present]
    exact pays budget (stays.epoch_eq (begun run rfl) same)
  | _ => exact pays

/-- A task that stands on nothing. -/
def Task.free : Task Hash → Prop
  | .noting _ _ | .folding _ _ _ | .committing _ _ | .skipping _ .budget | .seeding _ => False
  | _ => True

theorem Task.free.stands (free : task.free) (s : State Hash) : task.stands s := by
  cases task with
  | noting run page => exact free.elim
  | folding run page matcher => exact free.elim
  | committing run page => exact free.elim
  | skipping run cause =>
    cases cause with
    | budget => exact free.elim
    | failure => exact True.intro
  | _ => exact True.intro

theorem pays_paying {s : State Hash}
    (seeds : ∀ run, next = .seeding run → ledger.owed = some .budget → s.epoch = run.epoch → s.present = false) :
    next.pays s (ledger.paying next).owed := by
  cases next with
  | seeding run => exact seeds run rfl
  | announcing run was to_ matcher walksOn => exact True.intro
  | _ => rfl

/-- A step that leaves the marks and goes on to another task under the same arm. -/
theorem Armed.goes (armed : Armed m) (stays : Stays m.world mid)
    (begun : ∀ run, next.run = some run → run.epoch ≤ m.world.state.epoch) (stands : next.stands mid.state)
    (seeds : ∀ run, next = .seeding run → ledger.owed ≠ some .budget) :
    Armed ⟨mid.goto next, ledger.paying next⟩ where
  begun := fun run same => Nat.le_trans (begun run same) stays.epoch
  stands := stands
  pays := pays_paying fun run same budget => absurd budget (seeds run same)
  read := by
    intro stored
    apply stays.markRead (armed.read _)
    rw [← stays.own]
    exact stored
  present := by
    intro present
    obtain ⟨noted, own, carried⟩ := armed.present (stays.present.symm.trans present)
    exact ⟨stays.markRead noted, stays.own.trans own, stays.carried.trans carried⟩

theorem Armed.goesFree (armed : Armed m) (stays : Stays m.world mid)
    (begun : ∀ run, next.run = some run → run.epoch ≤ m.world.state.epoch) (free : next.free) :
    Armed ⟨mid.goto next, ledger.paying next⟩ := by
  refine armed.goes stays begun (free.stands _) ?_
  intro run same
  subst same
  exact free.elim

theorem Armed.waits (armed : Armed m) (stays : Stays m.world after) (waiting : after.task = .waiting) :
    Armed ⟨after, ledger.paying after.task⟩ := by
  have same : after = after.goto .waiting := by
    rw [← waiting]
    rfl
  rw [same]
  exact armed.goesFree stays (fun _ none => by cases none) True.intro

/-- A step that the task does not take. -/
theorem Armed.aside (armed : Armed m) (stays : Stays m.world after) (same : after.task = m.world.task) :
    Armed ⟨after, m.ledger⟩ where
  begun := by
    intro run inHand
    rw [same] at inHand
    exact Nat.le_trans (armed.begun run inHand) stays.epoch
  stands := by
    rw [same]
    exact armed.stands.stays armed.begun stays
  pays := by
    rw [same]
    exact armed.pays.stays armed.begun stays
  read := by
    intro stored
    apply stays.markRead (armed.read _)
    rw [← stays.own]
    exact stored
  present := by
    intro present
    obtain ⟨noted, own, carried⟩ := armed.present (stays.present.symm.trans present)
    exact ⟨stays.markRead noted, stays.own.trans own, stays.carried.trans carried⟩

theorem Armed.rearmed (armed : Armed m) (path : String) (ledger : Ledger Hash) (same : ledger.owed = m.ledger.owed) :
    Armed ⟨m.world.arm path, ledger⟩ where
  begun := fun run inHand => Nat.le_succ_of_le (armed.begun run inHand)
  stands := Task.stands_of_replaced fun run inHand => Nat.lt_succ_of_le (armed.begun run inHand)
  pays := by
    rw [same]
    have pays := armed.pays
    change m.world.task.pays _ _
    cases task : m.world.task with
    | seeding run => exact fun _ _ => rfl
    | _ =>
      rw [task] at pays
      exact pays
  read := fun stored => absurd rfl stored
  present := fun present => by cases present

theorem Armed.died (w : World Hash) (ledger : Ledger Hash) : Armed ⟨w.die, ledger.paying w.die.task⟩ where
  begun := fun _ inHand => by cases inHand
  stands := True.intro
  pays := rfl
  read := fun stored => absurd rfl stored
  present := fun present => by cases present

/-- The marks after a step that takes some of them and leaves no present arm with one. -/
theorem Leaves.armed {own carried : Option (Hash × Nat)} {present : Bool}
    (leaves : Leaves m.world mid own carried present)
    (begun : ∀ run, next.run = some run → run.epoch ≤ m.world.state.epoch)
    (stands : next.stands mid.state) (pays : next.pays mid.state (ledger.paying next).owed)
    (read : own ≠ none → mid.state.markRead = true)
    (clears : present = true → mid.state.markRead = true ∧ own = none ∧ carried = none) :
    Armed ⟨mid.goto next, ledger.paying next⟩ where
  begun := fun run same => Nat.le_trans (begun run same) (Nat.le_of_eq leaves.epoch.symm)
  stands := stands
  pays := pays
  read := by
    intro stored
    apply read
    rw [← leaves.own]
    exact stored
  present := by
    intro here
    obtain ⟨noted, own, carried⟩ := clears (leaves.present.symm.trans here)
    exact ⟨noted, leaves.own.trans own, leaves.carried.trans carried⟩

end Armed

section Advance

variable {m : Marked Hash} {ledger : Ledger Hash} {io : Io Hash} {run : Run} {page : WalkPage Hash}

theorem toAnnounce_goes (setup : Setup) (w : World Hash) (run : Run) (was to_ : Hash) (matcher : Nat)
    (walksOn : Bool) :
    ∃ next, w.toAnnounce setup run was to_ matcher walksOn = w.goto next ∧ next.free ∧ next.run = some run ∨
      w.toAnnounce setup run was to_ matcher walksOn = w.poke.goto next ∧ next = .waiting := by
  unfold World.toAnnounce
  split
  · exact ⟨_, .inl ⟨rfl, True.intro, rfl⟩⟩
  · split
    · exact ⟨_, .inr ⟨rfl, rfl⟩⟩
    · exact ⟨_, .inl ⟨rfl, True.intro, rfl⟩⟩

theorem poke_stays (w : World Hash) : Stays w w.poke := .same rfl rfl rfl rfl rfl rfl rfl

/-- What follows a move to a gap's far side: its notices, or the end of the run. -/
theorem Armed.announces {was to_ : Hash} {matcher : Nat} {walksOn : Bool}
    (goes : ∀ mid' next, Stays mid mid' → mid'.state.epoch = mid.state.epoch → next.free →
      (∀ other, next.run = some other → other = run) → Armed ⟨mid'.goto next, ledger.paying next⟩) :
    Armed ⟨mid.toAnnounce setup run was to_ matcher walksOn,
      ledger.paying (mid.toAnnounce setup run was to_ matcher walksOn).task⟩ := by
  obtain ⟨next, ⟨same, free, inHand⟩ | ⟨same, waits⟩⟩ := toAnnounce_goes setup mid run was to_ matcher walksOn
  · rw [same]
    refine goes mid next (.refl mid) rfl free ?_
    intro other again
    rw [inHand] at again
    exact (Option.some.inj again).symm
  · subst waits
    rw [same]
    exact goes mid.poke .waiting (poke_stays mid) rfl True.intro (fun _ none => by cases none)

theorem runs_epoch (runs : w.runs run = true) : w.state.epoch = run.epoch := (of_decide_eq_true runs).2

theorem Armed.toFold (armed : Armed m) (stays : Stays m.world mid) (matcher : Nat)
    (begun : run.epoch ≤ m.world.state.epoch)
    (stands : mid.state.epoch = run.epoch → mid.state.cursor = some page.start ∧ mid.state.markRead = true) :
    Armed ⟨mid.toFold setup run page matcher, ledger.paying (mid.toFold setup run page matcher).task⟩ := by
  unfold World.toFold
  split
  · refine armed.goes stays ?_ stands (fun _ same => by cases same)
    intro other same
    cases same
    exact begun
  · refine armed.goes stays ?_ stands (fun _ same => by cases same)
    intro other same
    cases same
    exact begun

variable [DecidableEq Hash]

theorem stillAt_stands {start : Hash} (still : w.stillAt run start = true) :
    w.state.epoch = run.epoch ∧ w.state.cursor = some start := by
  unfold World.stillAt at still
  rw [Bool.and_eq_true] at still
  exact ⟨runs_epoch still.1, of_decide_eq_true still.2⟩

theorem Armed.committing (armed : Armed m) (task : m.world.task = .committing run page) :
    Armed ⟨m.world.advance setup io, ledger.paying (m.world.advance setup io).task⟩ := by
  have begun : run.epoch ≤ m.world.state.epoch := armed.begun run (task ▸ rfl)
  have standing := armed.stands
  rw [task] at standing
  have goes (force atTip : Bool) (next : Task Hash) (inHand : ∀ other, next.run = some other → other.epoch = run.epoch)
      (stands : ∀ mid : World Hash, (mid.state.epoch = run.epoch → mid.state.cursor ≠ none) → next.stands mid.state)
      (seeds : ∀ other, next ≠ .seeding other) :
      Armed ⟨(m.world.commit io run page force atTip).goto next, ledger.paying next⟩ := by
    have begins : ∀ other, next.run = some other → other.epoch ≤ m.world.state.epoch := by
      intro other same
      rw [inHand other same]
      exact begun
    by_cases start : m.world.state.cursor = some page.start
    · have leaves := commit_leaves run io force atTip start
      refine leaves.armed begins (stands _ fun _ => commit_cursor io force atTip start)
        (pays_paying fun other same => absurd same (seeds other)) ?_ ?_
      · intro stored
        refine leaves.markRead (armed.read fun none => ?_)
        rw [none, ite_self] at stored
        exact stored rfl
      · intro present
        unfold passPresent at present
        rcases Bool.or_eq_true_iff.mp present with before | passes
        · obtain ⟨noted, own, carried⟩ := armed.present before
          refine ⟨leaves.markRead noted, ?_, ?_⟩
          · rw [own, ite_self]
          · rw [carried, ite_self]
        · obtain ⟨passes, same⟩ := Bool.and_eq_true_iff.mp passes
          refine ⟨leaves.markRead (standing (of_decide_eq_true same)).2, if_pos passes, if_pos ?_⟩
          rw [passesCarried, passes, Bool.true_or]
    · rw [commit_stands _ io run page force atTip start]
      refine armed.goes (.refl _) begins (stands _ ?_) (fun other same => absurd same (seeds other))
      intro same none
      rw [(standing same).1] at none
      cases none
  simp only [World.advance, task]
  split
  · exact goes _ _ (.settling run) (fun _ same => by cases same; rfl) (fun _ _ => True.intro) (fun _ same => by cases same)
  · split
    · exact goes _ _ (.skipping { run with pages := run.pages + 1 } .budget) (fun _ same => by cases same; rfl)
        (fun _ cursor => cursor) (fun _ same => by cases same)
    · exact goes _ _ (.stepping { run with pages := run.pages + 1 }) (fun _ same => by cases same; rfl)
        (fun _ _ => True.intro) (fun _ same => by cases same)

/-- A skip's landing takes an unreached mark, or what is left of the marks. Only a bare arm re-seeds. -/
theorem Armed.skipping {cause : Cause} (armed : Armed m) (task : m.world.task = .skipping run cause)
    (owed : ledger.owed = some cause) :
    Armed ⟨m.world.advance setup io, ledger.paying (m.world.advance setup io).task⟩ := by
  have begun : run.epoch ≤ m.world.state.epoch := armed.begun run (task ▸ rfl)
  have standing := armed.stands
  rw [task] at standing
  have begins (next : Task Hash) (inHand : ∀ other, next.run = some other → other = run) :
      ∀ other, next.run = some other → other.epoch ≤ m.world.state.epoch := by
    intro other same
    rw [inHand other same]
    exact begun
  have takes (mid : World Hash) (own carried : Option (Hash × Nat)) (present : Bool)
      (leaves : Leaves m.world mid own carried present) (read : own ≠ none → mid.state.markRead = true)
      (clears : present = true → mid.state.markRead = true ∧ own = none ∧ carried = none)
      (next : Task Hash) (free : next.free) (inHand : ∀ other, next.run = some other → other = run) :
      Armed ⟨mid.goto next, ledger.paying next⟩ := by
    refine leaves.armed (begins next inHand) (free.stands _) (pays_paying ?_) read clears
    intro other same
    subst same
    exact free.elim
  have seeds (mid : World Hash) (own carried : Option (Hash × Nat)) (present : Bool)
      (leaves : Leaves m.world mid own carried present) (read : own ≠ none → mid.state.markRead = true)
      (clears : present = true → mid.state.markRead = true ∧ own = none ∧ carried = none)
      (bare : cause = .budget → present = false) :
      Armed ⟨mid.goto (.seeding run), ledger.paying (.seeding run)⟩ := by
    refine leaves.armed (begins _ fun _ same => by cases same; rfl) True.intro (pays_paying ?_) read clears
    intro other same budget epoch
    rw [owed] at budget
    rw [leaves.present]
    exact bare (Option.some.inj budget)
  simp only [World.advance, task]
  split
  next mid result =>
    cases landing_lands result with
    | replaced lost same =>
      rw [same]
      exact armed.goesFree (.refl _) (begins _ fun _ same => by cases same; rfl) True.intro
  next mid was mark result =>
    refine Armed.announces fun mid' next stays epoch free inHand => ?_
    have lands := landing_lands result
    generalize landed : (some (.landed was mark) : Option (World.Landing Hash)) = landing at lands
    cases lands with
    | older was' mark' runs stands stored ahead leaves =>
      have leaves := leaves.same stays epoch
      refine takes mid' _ _ _ leaves (fun own => leaves.markRead (armed.read own)) ?_ next free inHand
      intro present
      rw [(armed.present present).2.2] at stored
      cases stored
    | newer was' mark' runs stands spent stored leaves =>
      refine takes mid' _ _ _ (leaves.same stays epoch) (fun none => absurd rfl none) ?_ next free inHand
      intro _
      refine ⟨(leaves.same stays epoch).markRead (armed.read ?_), rfl, rfl⟩
      rw [stored]
      exact Option.some_ne_none _
    | bare was' runs stands stored cursor leaves => split at landed <;> cases landed
    | _ => cases landed
  next mid result =>
    have lands := landing_lands result
    generalize landed : (some .present : Option (World.Landing Hash)) = landing at lands
    cases lands with
    | reached was mark runs stands stored leaves =>
      have clears : true = true → mid.state.markRead = true ∧ (none : Option (Hash × Nat)) = none ∧
          (none : Option (Hash × Nat)) = none := by
        intro _
        refine ⟨leaves.markRead (armed.read ?_), rfl, rfl⟩
        rw [stored]
        exact Option.some_ne_none _
      split
      · exact takes mid.poke _ _ _ (leaves.same (poke_stays mid) rfl) (fun none => absurd rfl none) clears
          (.settling run) True.intro (fun _ same => by cases same; rfl)
      next failed => exact seeds mid _ _ _ leaves (fun none => absurd rfl none) clears (fun budget => absurd budget failed)
    | bare was runs stands stored cursor leaves =>
      have clears : m.world.state.present = true → mid.state.markRead = true ∧
          (none : Option (Hash × Nat)) = none ∧ (none : Option (Hash × Nat)) = none :=
        fun present => ⟨leaves.markRead (armed.present present).1, rfl, rfl⟩
      split
      · exact takes mid.poke _ _ _ (leaves.same (poke_stays mid) rfl) (fun none => absurd rfl none) clears
          (.settling run) True.intro (fun _ same => by cases same; rfl)
      next failed => exact seeds mid _ _ _ leaves (fun none => absurd rfl none) clears (fun budget => absurd budget failed)
    | _ => cases landed
  next mid result =>
    have lands := landing_lands result
    generalize landed : (some .sink : Option (World.Landing Hash)) = landing at lands
    cases lands with
    | unseeded runs empty same =>
      subst same
      refine armed.goes (.refl _) (begins _ fun _ same => by cases same; rfl) True.intro ?_
      intro _ _ budget
      rw [owed] at budget
      cases budget
      exact standing (runs_epoch runs) empty
    | bare was runs stands stored cursor leaves =>
      refine seeds mid _ _ _ leaves (fun none => absurd rfl none)
        (fun present => ⟨leaves.markRead (armed.present present).1, rfl, rfl⟩) ?_
      intro _
      cases present : m.world.state.present with
      | false => rfl
      | true =>
        rw [present] at landed
        cases landed
    | _ => cases landed

theorem Armed.seeding (armed : Armed m) (task : m.world.task = .seeding run) :
    Armed ⟨m.world.advance setup io, ledger.paying (m.world.advance setup io).task⟩ := by
  have begun : run.epoch ≤ m.world.state.epoch := armed.begun run (task ▸ rfl)
  have begins (next : Task Hash) (inHand : ∀ other, next.run = some other → other = run) :
      ∀ other, next.run = some other → other.epoch ≤ m.world.state.epoch := by
    intro other same
    rw [inHand other same]
    exact begun
  have takes (sink : Hash) (mid : World Hash) (next : Task Hash) (stays : Stays (m.world.reseed io sink) mid)
      (epoch : mid.state.epoch = (m.world.reseed io sink).state.epoch) (free : next.free)
      (inHand : ∀ other, next.run = some other → other = run) : Armed ⟨mid.goto next, ledger.paying next⟩ := by
    have leaves := (reseed_leaves m.world io sink).same stays epoch
    refine leaves.armed (begins next inHand) (free.stands _) (pays_paying ?_) (fun none => absurd rfl none) ?_
    · intro other same
      subst same
      exact free.elim
    · exact fun _ => ⟨stays.markRead (reseed_markRead m.world io sink), rfl, rfl⟩
  simp only [World.advance, task]
  split
  · refine armed.goesFree ?_ (begins (.settling run) fun _ same => by cases same; rfl) True.intro
    split
    · exact .same rfl rfl rfl rfl rfl rfl rfl
    · exact .refl _
  next sink _ =>
    split
    · exact armed.goesFree (.refl _) (begins (.settling run) fun _ same => by cases same; rfl) True.intro
    · split
      · exact takes sink _ (.settling run) (.refl _) rfl True.intro (fun _ same => by cases same; rfl)
      · exact Armed.announces fun mid next stays epoch free inHand => takes sink mid next stays epoch free inHand

theorem Armed.advance (armed : Armed m) (owed : ledger.owed = m.ledger.owed) :
    Armed ⟨m.world.advance setup io, ledger.paying (m.world.advance setup io).task⟩ := by
  have begins (next : Task Hash) (same : next.run = m.world.task.run) :
      ∀ other, next.run = some other → other.epoch ≤ m.world.state.epoch := by
    intro other inHand
    rw [same] at inHand
    exact armed.begun other inHand
  have stays := Stays.refl m.world
  cases task : m.world.task with
  | committing run page => exact armed.committing task
  | skipping run cause =>
    have pays := armed.pays
    rw [task] at pays
    exact armed.skipping task (owed.trans pays)
  | seeding run => exact armed.seeding task
  | announcing run was to_ matcher walksOn =>
    rw [task] at begins
    simp only [World.advance, task]
    refine Armed.announces fun mid' next stays epoch free inHand => ?_
    refine armed.goesFree (Stays.trans ?_ stays) ?_ free
    · exact .same rfl rfl rfl rfl rfl rfl rfl
    · intro other same
      rw [inHand other same]
      exact begins (.settling run) rfl run rfl
  | noting run page =>
    rw [task] at begins
    have standing := armed.stands
    rw [task] at standing
    simp only [World.advance, task]
    refine armed.toFold (noteProgress_stays m.world run page.start) 0 (begins (.settling run) rfl run rfl) ?_
    unfold World.noteProgress
    split
    next noted => exact fun _ => ⟨noted.2, rfl⟩
    next other =>
      intro same
      exact absurd ⟨same, standing same⟩ other
  | folding run page matcher =>
    rw [task] at begins
    have standing := armed.stands
    rw [task] at standing
    simp only [World.advance, task]
    split
    · exact armed.goesFree stays (begins (.holding run) rfl) True.intro
    · refine armed.toFold ?_ (matcher + 1) (begins (.settling run) rfl run rfl) standing
      exact .same rfl rfl rfl rfl rfl rfl rfl
  | gating run page =>
    rw [task] at begins
    simp only [World.advance, task]
    split
    · exact armed.goesFree stays (begins (.settling run) rfl) True.intro
    next still =>
      refine armed.goes stays (begins (.noting run page) rfl) ?_ (fun _ same => by cases same)
      exact fun _ => (stillAt_stands (Bool.not_eq_false _ ▸ still)).2
  | stepping run =>
    rw [task] at begins
    simp only [World.advance, task]
    split
    · exact armed.goesFree stays (begins (.settling run) rfl) True.intro
    · split
      · refine armed.goes stays (begins (.seeding run) rfl) True.intro ?_
        intro _ _
        have pays := armed.pays
        rw [task] at pays
        rw [owed, pays]
        exact fun same => by cases same
      next cursor _ => exact armed.goesFree stays (begins (.judging run cursor) rfl) True.intro
  | waiting =>
    have pays := armed.pays
    rw [task] at pays
    simp only [World.advance, task]
    split
    · exact armed.waits stays task
    · split
      · exact armed.waits (.same rfl rfl rfl rfl rfl rfl rfl) rfl
      · split
        · exact armed.waits (.same rfl rfl rfl rfl rfl rfl rfl) rfl
        · refine armed.goesFree (.same rfl rfl rfl rfl rfl rfl rfl) ?_ True.intro
          intro other same
          cases same
          exact Nat.le_refl _
  | readingMark run page =>
    rw [task] at begins
    have reads (next : Task Hash) (inHand : next.run = some run) (free : next.free) (mark : Hash)
        (unread : m.world.state.markRead = false) :
        Armed ⟨World.goto { m.world with state := { m.world.state with
          own := some (mark, io.unixMs), markRead := true } } next, ledger.paying next⟩ := by
      refine Leaves.armed ⟨rfl, rfl, rfl, fun _ => rfl, rfl, id⟩ (begins next inHand) (free.stands _)
        (pays_paying ?_) (fun _ => rfl) ?_
      · intro other same
        subst same
        exact free.elim
      · intro present
        rw [(armed.present present).1] at unread
        cases unread
    simp only [World.advance, task]
    cases page with
    | none =>
      cases io.mark with
      | none => exact armed.goesFree stays (begins (.owing run) rfl) True.intro
      | some mark =>
        simp only
        split
        next read => exact reads (.owing run) rfl True.intro mark read.2
        · exact armed.goesFree stays (begins (.owing run) rfl) True.intro
    | some page =>
      cases io.mark with
      | none => exact armed.goesFree stays (begins (.gating run page) rfl) True.intro
      | some mark =>
        simp only
        split
        next read => exact reads (.gating run page) rfl True.intro mark read.2
        · exact armed.goesFree stays (begins (.gating run page) rfl) True.intro
  | marking run page =>
    rw [task] at begins
    simp only [World.advance, task]
    split
    · cases page with
      | none => exact armed.goesFree stays (begins (.owing run) rfl) True.intro
      | some page => exact armed.goesFree stays (begins (.gating run page) rfl) True.intro
    · exact armed.goesFree stays (begins (.readingMark run page) rfl) True.intro
  | owing run =>
    rw [task] at begins
    simp only [World.advance, task]
    split
    · exact armed.goesFree stays (begins (.skipping run .failure) rfl) True.intro
    · exact armed.goesFree stays (begins (.stepping run) rfl) True.intro
  | judging run start =>
    rw [task] at begins
    simp only [World.advance, task]
    exact armed.goesFree stays (begins _ rfl) True.intro
  | asking run start catchUp attempt onlyNoSocket =>
    rw [task] at begins
    simp only [World.advance, task]
    split
    · split
      · exact armed.goesFree stays (begins (.settling run) rfl) True.intro
      · exact armed.goesFree stays (begins (.failing run start) rfl) True.intro
    · split
      · exact armed.goesFree stays (begins (.settling run) rfl) True.intro
      · split
        · exact armed.goesFree stays (begins _ rfl) True.intro
        · exact armed.goesFree stays (begins _ rfl) True.intro
  | yielding run start catchUp attempt onlyNoSocket =>
    rw [task] at begins
    simp only [World.advance, task]
    split
    · exact armed.goesFree stays (begins (.settling run) rfl) True.intro
    · exact armed.goesFree stays (begins _ rfl) True.intro
  | fetching run start catchUp attempt onlyNoSocket =>
    rw [task] at begins
    simp only [World.advance, task]
    split
    case h_6 =>
      split
      · exact armed.goesFree stays (begins (.skipping run .failure) rfl) True.intro
      · exact armed.goesFree stays (begins _ rfl) True.intro
    all_goals exact armed.goesFree stays (begins _ rfl) True.intro
  | failing run start =>
    rw [task] at begins
    simp only [World.advance, task]
    split
    · exact armed.goesFree stays (begins (.settling run) rfl) True.intro
    · split
      · refine armed.goesFree ?_ (begins (.skipping run .failure) rfl) True.intro
        exact .same rfl rfl rfl rfl rfl rfl rfl
      · refine armed.goesFree ?_ (begins (.settling run) rfl) True.intro
        exact .same rfl rfl rfl rfl rfl rfl rfl
  | holding run =>
    rw [task] at begins
    simp only [World.advance, task]
    exact armed.goesFree (idle_stays m.world io) (begins (.settling run) rfl) True.intro
  | settling run =>
    simp only [World.advance, task]
    exact armed.waits (.same rfl rfl rfl rfl rfl rfl rfl) rfl

end Advance

section Ledger

variable {s s' : State Hash} {ledger : Ledger Hash} {i : Nat}

/-- The read's mark is still stored. -/
def Ledger.Stores (ledger : Ledger Hash) (i : Nat) : Prop := ledger.own = some i ∨ ledger.carried = some i

def Ledger.landedUnder (ledger : Ledger Hash) (arm : Nat) : Nat := ledger.landed.countP fun landing => landing.1 = arm

/-- How many more landings the marks at hand allow this arm: one on a carried mark, and one on its own,
    stored or still to be read. -/
def State.room (s : State Hash) : Nat :=
  (if s.carried = none then 0 else 1) + (if s.own = none ∧ s.markRead = true then 0 else 1)

structure Ledger.Holds (s : State Hash) (ledger : Ledger Hash) : Prop where
  own : s.own.map Prod.fst = ledger.own.bind fun i => ledger.reads[i]?
  carried : s.carried.map Prod.fst = ledger.carried.bind fun i => ledger.reads[i]?
  stored : ∀ i, ledger.Stores i → i < ledger.reads.length ∧ i ∉ ledger.landed.map Prod.snd ∧ i ∉ ledger.passed
  apart : ∀ i, ledger.own = some i → ledger.carried ≠ some i
  landed : ∀ landing ∈ ledger.landed, landing.1 ≤ ledger.arms ∧ landing.2 < ledger.reads.length
  passed : ∀ i ∈ ledger.passed, i < ledger.reads.length
  once : (ledger.landed.map Prod.snd).Nodup
  twice : ∀ arm, ledger.landedUnder arm ≤ 2
  room : s.mode = .running → ledger.landedUnder ledger.arms + s.room ≤ 2

theorem stored_none_iff {mark : Option (Hash × Nat)} {reads : List Hash} {at_ : Option Nat}
    (same : mark.map Prod.fst = at_.bind fun i => reads[i]?) (inRange : ∀ i, at_ = some i → i < reads.length) :
    mark = none ↔ at_ = none := by
  cases at_ with
  | none => exact ⟨fun _ => rfl, fun _ => Option.map_eq_none_iff.mp same⟩
  | some i =>
    rw [Option.bind_some, List.getElem?_eq_getElem (inRange i rfl)] at same
    refine ⟨fun none => ?_, fun none => by cases none⟩
    rw [none] at same
    cases same

theorem Ledger.Holds.own_none (holds : ledger.Holds s) : s.own = none ↔ ledger.own = none :=
  stored_none_iff holds.own fun i here => (holds.stored i (.inl here)).1

theorem Ledger.Holds.carried_none (holds : ledger.Holds s) : s.carried = none ↔ ledger.carried = none :=
  stored_none_iff holds.carried fun i here => (holds.stored i (.inr here)).1

theorem kept_some {mark : Option (Hash × Nat)} {at_ : Option Nat}
    (kept : (if mark.isSome then at_ else none) = some i) : mark ≠ none ∧ at_ = some i := by
  split at kept
  next stored => exact ⟨Option.isSome_iff_ne_none.mp stored, kept⟩
  · cases kept

theorem kept_mark {before after : Option (Hash × Nat)} {reads : List Hash} {at_ : Option Nat}
    (same : before.map Prod.fst = at_.bind fun i => reads[i]?) (fewer : after = none ∨ after = before) :
    after.map Prod.fst = (if after.isSome then at_ else none).bind fun i => reads[i]? := by
  rcases fewer with none | kept
  · rw [none]
    rfl
  · rw [kept]
    cases stored : before with
    | none => rfl
    | some mark =>
      rw [stored] at same
      exact same

theorem Ledger.Stores.of_keep (stores : (ledger.keep s).Stores i) :
    s.own ≠ none ∧ ledger.own = some i ∨ s.carried ≠ none ∧ ledger.carried = some i :=
  stores.imp kept_some kept_some

/-- Marks are dropped, and reads are known to be passed whose marks are not stored any more. -/
theorem Ledger.Holds.drop (holds : ledger.Holds s) (extra : List Nat)
    (own : s'.own = none ∨ s'.own = s.own) (carried : s'.carried = none ∨ s'.carried = s.carried)
    (running : s'.mode = .running → s.mode = .running ∧ (s.markRead = true → s'.markRead = true))
    (reads : ∀ i ∈ extra, i < ledger.reads.length)
    (gone : ∀ i ∈ extra, (s'.own ≠ none → ledger.own ≠ some i) ∧ (s'.carried ≠ none → ledger.carried ≠ some i)) :
    (Ledger.keep { ledger with passed := extra ++ ledger.passed } s').Holds s' where
  own := kept_mark holds.own own
  carried := kept_mark holds.carried carried
  stored := by
    intro i stores
    have before : ledger.Stores i := stores.of_keep.imp And.right And.right
    obtain ⟨inRange, unlanded, unpassed⟩ := holds.stored i before
    refine ⟨inRange, unlanded, fun passed => ?_⟩
    rcases List.mem_append.mp passed with new | old
    · rcases stores.of_keep with ⟨kept, here⟩ | ⟨kept, here⟩
      · exact (gone i new).1 kept here
      · exact (gone i new).2 kept here
    · exact unpassed old
  apart := by
    intro i own carried
    exact holds.apart i (kept_some own).2 (kept_some carried).2
  landed := holds.landed
  passed := by
    intro i passed
    rcases List.mem_append.mp passed with new | old
    · exact reads i new
    · exact holds.passed i old
  once := holds.once
  twice := holds.twice
  room := by
    intro now
    obtain ⟨before, noted⟩ := running now
    refine Nat.le_trans (Nat.add_le_add_left ?_ _) (holds.room before)
    unfold State.room
    apply Nat.add_le_add
    · rcases carried with none | same
      · rw [if_pos none]
        exact Nat.zero_le _
      · exact Nat.le_of_eq (by rw [same])
    · by_cases closed : s.own = none ∧ s.markRead = true
      · have still := And.intro (own.elim id fun same => same.trans closed.1) (noted closed.2)
        exact Nat.le_of_eq (by rw [if_pos closed, if_pos still])
      · rw [if_neg closed]
        split
        · exact Nat.zero_le _
        · exact Nat.le_refl _

theorem Ledger.Holds.land (holds : ledger.Holds s) (stores : ledger.Stores i)
    (own : s'.own = none ∨ s'.own = s.own) (carried : s'.carried = none ∨ s'.carried = s.carried)
    (running : s.mode = .running) (noted : s.markRead = true → s'.markRead = true)
    (taken : ¬ (ledger.keep s').Stores i) (less : s'.room + 1 ≤ s.room) :
    (Ledger.keep { ledger with landed := (ledger.arms, i) :: ledger.landed } s').Holds s' := by
  have dropped : (ledger.keep s').Holds s' :=
    holds.drop [] own carried (fun _ => ⟨running, noted⟩) (fun _ none => by cases none) (fun _ none => by cases none)
  obtain ⟨inRange, unlanded, _⟩ := holds.stored i stores
  have room := holds.room running
  have counted (arm : Nat) : (Ledger.keep { ledger with landed := (ledger.arms, i) :: ledger.landed } s').landedUnder arm =
      ledger.landedUnder arm + if ledger.arms = arm then 1 else 0 := by
    unfold Ledger.landedUnder
    change List.countP _ ((ledger.arms, i) :: ledger.landed) = _
    rw [List.countP_cons]
    simp only [decide_eq_true_eq]
  refine ⟨dropped.own, dropped.carried, ?_, dropped.apart, ?_, dropped.passed, ?_, ?_, ?_⟩
  · intro j kept
    obtain ⟨inside, elsewhere, unpassed⟩ := dropped.stored j kept
    refine ⟨inside, ?_, unpassed⟩
    intro landed
    rcases List.mem_cons.mp landed with same | before
    · subst same
      exact taken kept
    · exact elsewhere before
  · intro landing member
    rcases List.mem_cons.mp member with rfl | before
    · exact ⟨Nat.le_refl _, inRange⟩
    · exact holds.landed landing before
  · exact List.nodup_cons.mpr ⟨unlanded, holds.once⟩
  · intro arm
    rw [counted]
    split
    next here =>
      subst here
      omega
    · exact holds.twice arm
  · intro _
    change Ledger.landedUnder _ ledger.arms + s'.room ≤ 2
    rw [counted, if_pos rfl]
    omega

theorem Ledger.Holds.read (holds : ledger.Holds s) (mark : Hash × Nat) (running : s.mode = .running)
    (unread : s.markRead = false) :
    (ledger.read mark.1).Holds { s with own := some mark, markRead := true } := by
  have grown {i : Nat} (inRange : i < ledger.reads.length) : (ledger.reads ++ [mark.1])[i]? = ledger.reads[i]? :=
    List.getElem?_append_left inRange
  refine ⟨?_, ?_, ?_, ?_, ?_, ?_, holds.once, holds.twice, ?_⟩
  · change some mark.1 = (ledger.reads ++ [mark.1])[ledger.reads.length]?
    rw [List.getElem?_concat_length]
  · change s.carried.map Prod.fst = ledger.carried.bind fun i => (ledger.reads ++ [mark.1])[i]?
    rw [holds.carried]
    cases here : ledger.carried with
    | none => rfl
    | some i => exact (grown (holds.stored i (.inr here)).1).symm
  · intro i stores
    change i < (ledger.reads ++ [mark.1]).length ∧ _
    rw [List.length_append]
    rcases stores with own | carried
    · cases own
      refine ⟨Nat.lt_succ_self _, fun landed => ?_, fun passed => Nat.lt_irrefl _ (holds.passed _ passed)⟩
      obtain ⟨landing, member, same⟩ := List.mem_map.mp landed
      exact absurd same (Nat.ne_of_lt (holds.landed landing member).2)
    · obtain ⟨inRange, others⟩ := holds.stored i (.inr carried)
      exact ⟨Nat.lt_succ_of_lt inRange, others⟩
  · intro i own carried
    cases own
    exact Nat.lt_irrefl _ (holds.stored _ (.inr carried)).1
  · intro landing member
    refine ⟨(holds.landed landing member).1, ?_⟩
    change landing.2 < (ledger.reads ++ [mark.1]).length
    rw [List.length_append]
    exact Nat.lt_succ_of_lt (holds.landed landing member).2
  · intro i passed
    change i < (ledger.reads ++ [mark.1]).length
    rw [List.length_append]
    exact Nat.lt_succ_of_lt (holds.passed i passed)
  · intro _
    have before := holds.room running
    have open_ : ¬ (s.own = none ∧ s.markRead = true) := fun closed => by cases unread.symm.trans closed.2
    have same : State.room { s with own := some mark, markRead := true } = s.room := by
      unfold State.room
      rw [if_neg open_]
      rfl
    rw [same]
    exact before

theorem Ledger.Holds.arm (holds : ledger.Holds s) (sameStore : Bool)
    (own : s'.own = none) (carried : s'.carried = if sameStore then s.carried.or s.own else none) :
    (ledger.arm sameStore).Holds s' := by
  have fresh : (ledger.arm sameStore).landedUnder (ledger.arms + 1) = 0 := by
    apply List.countP_eq_zero.mpr
    intro landing member same
    have := (holds.landed landing member).1
    have := of_decide_eq_true same
    omega
  have carries {i : Nat} (stores : (ledger.arm sameStore).Stores i) : ledger.Stores i := by
    rcases stores with none | kept
    · cases none
    · change (if sameStore then ledger.carried.or ledger.own else none) = some i at kept
      split at kept
      · exact (Option.or_eq_some_iff.mp kept).elim .inr fun own => .inl own.2
      · cases kept
  refine ⟨?_, ?_, fun i stores => holds.stored i (carries stores), fun i none => (by cases none), ?_, holds.passed,
    holds.once, holds.twice, ?_⟩
  · rw [own]
    rfl
  · rw [carried]
    change _ = (if sameStore then ledger.carried.or ledger.own else none).bind _
    split
    · cases stored : s.carried with
      | none =>
        rw [holds.carried_none.mp stored]
        exact holds.own
      | some mark =>
        cases here : ledger.carried with
        | none => cases stored.symm.trans (holds.carried_none.mpr here)
        | some i =>
          have same := holds.carried
          rw [stored, here] at same
          exact same
    · rfl
  · intro landing member
    exact ⟨Nat.le_succ_of_le (holds.landed landing member).1, (holds.landed landing member).2⟩
  · intro _
    change (ledger.arm sameStore).landedUnder (ledger.arms + 1) + _ ≤ 2
    rw [fresh]
    unfold State.room
    split <;> split <;> decide

end Ledger

/-- The reads known to be passed stay known, and a new landing is on none of them. -/
structure Ledger.Grows (ledger later : Ledger Hash) : Prop where
  passed : ∀ i ∈ ledger.passed, i ∈ later.passed
  landed : ∃ new, later.landed = new ++ ledger.landed ∧ ∀ landing ∈ new, landing.2 ∉ ledger.passed

section Steps

variable {m next : Marked Hash} {ledger later : Ledger Hash} {io : Io Hash} {run : Run} {page : WalkPage Hash}

theorem Ledger.Grows.same (passed : later.passed = ledger.passed) (landed : later.landed = ledger.landed) :
    ledger.Grows later where
  passed := by
    rw [passed]
    exact fun _ held => held
  landed := ⟨[], landed, fun _ none => by cases none⟩

theorem Ledger.Grows.trans {final : Ledger Hash} (first : ledger.Grows later) (second : later.Grows final) :
    ledger.Grows final where
  passed := fun i held => second.passed i (first.passed i held)
  landed := by
    obtain ⟨early, landed, elsewhere⟩ := first.landed
    obtain ⟨new, landedLater, others⟩ := second.landed
    refine ⟨new ++ early, ?_, ?_⟩
    · rw [landedLater, landed, List.append_assoc]
    · intro landing member
      rcases List.mem_append.mp member with last | before
      · exact fun passed => others landing last (first.passed _ passed)
      · exact elsewhere landing before

theorem toAnnounce_state (setup : Setup) (w : World Hash) (run : Run) (was to_ : Hash) (matcher : Nat)
    (walksOn : Bool) : (w.toAnnounce setup run was to_ matcher walksOn).state = w.state := by
  unfold World.toAnnounce
  split
  · rfl
  · split <;> rfl

theorem Ledger.Holds.kept {s s' : State Hash} (holds : ledger.Holds s) (own : s'.own = none ∨ s'.own = s.own)
    (carried : s'.carried = none ∨ s'.carried = s.carried)
    (running : s'.mode = .running → s.mode = .running ∧ (s.markRead = true → s'.markRead = true)) :
    (ledger.keep s').Holds s' :=
  holds.drop [] own carried running (fun _ none => by cases none) (fun _ none => by cases none)

theorem Ledger.Holds.stays (holds : ledger.Holds w.state) (stays : Stays w after) :
    (ledger.keep after.state).Holds after.state :=
  holds.kept (.inr stays.own) (.inr stays.carried) fun running => ⟨stays.mode running, stays.markRead⟩

theorem Ledger.Holds.unkept {s : State Hash} (holds : ledger.Holds s) : ledger.keep s = ledger := by
  have own : (if s.own.isSome then ledger.own else none) = ledger.own := by
    split
    · rfl
    next none => exact (holds.own_none.mp (Option.not_isSome_iff_eq_none.mp none)).symm
  have carried : (if s.carried.isSome then ledger.carried else none) = ledger.carried := by
    split
    · rfl
    next none => exact (holds.carried_none.mp (Option.not_isSome_iff_eq_none.mp none)).symm
  unfold Ledger.keep
  rw [own, carried]

theorem Ledger.Holds.paying {s : State Hash} (holds : ledger.Holds s) (task : Task Hash) :
    (ledger.paying task).Holds s :=
  ⟨holds.own, holds.carried, holds.stored, holds.apart, holds.landed, holds.passed, holds.once, holds.twice, holds.room⟩

theorem Ledger.Holds.aside (holds : ledger.Holds w.state) (stays : Stays w after) : ledger.Holds after.state := by
  have same : ledger.keep after.state = ledger := by
    refine Eq.trans ?_ holds.unkept
    unfold Ledger.keep
    rw [stays.own, stays.carried]
  have kept := holds.stays stays
  rw [same] at kept
  exact kept

variable [DecidableEq Hash]

theorem carries_hash (page : WalkPage Hash) (mark : Option (Hash × Nat)) :
    page.carries ((mark.map Prod.fst).map fun mark => (mark, 0)) = page.carries mark := by
  cases mark <;> rfl

theorem Ledger.mem_passedBy {atTip : Bool} {i : Nat} : i ∈ ledger.passedBy page atTip ↔
    i < ledger.reads.length ∧ (atTip = true ∨ page.carries (ledger.reads[i]?.map fun mark => (mark, 0)) = true) := by
  rw [Ledger.passedBy, List.mem_filter, List.mem_range, Bool.or_eq_true]

theorem Ledger.task_owed (ledger : Ledger Hash) (w : World Hash) (io : Io Hash) :
    (ledger.task w io).owed = ledger.owed := by
  unfold Ledger.task
  split
  · split
    · split <;> rfl
    · rfl
  · split <;> rfl
  · split <;> rfl
  · rfl

theorem plain_task (ledger : Ledger Hash) (io : Io Hash) (plain : ¬ w.task.marks) : ledger.task w io = ledger := by
  cases task : w.task with
  | readingMark run page => exact absurd (task ▸ True.intro) plain
  | committing run page => exact absurd (task ▸ True.intro) plain
  | skipping run cause => exact absurd (task ▸ True.intro) plain
  | seeding run => exact absurd (task ▸ True.intro) plain
  | _ => simp only [Ledger.task, task]

theorem Ledger.Holds.committing (holds : ledger.Holds w.state) (task : w.task = .committing run page) :
    ((ledger.task w io).keep (w.advance setup io).state).Holds (w.advance setup io).state ∧
      ledger.Grows (ledger.task w io) := by
  have state : (w.advance setup io).state = (w.commit io run page (page.long || decide (0 < run.pages))
      (!page.long && decide (page.aligned = page.addedLen))).state := by
    simp only [World.advance, task]
    split
    · rfl
    · split <;> rfl
  rw [state]
  simp only [Ledger.task, task]
  generalize (!page.long && decide (page.aligned = page.addedLen)) = atTip
  generalize (page.long || decide (0 < run.pages)) = force
  split
  next start =>
    refine ⟨?_, fun i held => List.mem_append_right _ held, [], rfl, fun _ none => by cases none⟩
    have leaves := commit_leaves run io force atTip start
    refine holds.drop (ledger.passedBy page atTip) ?_ ?_ ?_ (fun i passed => (Ledger.mem_passedBy.mp passed).1) ?_
    · rw [leaves.own]
      exact ite_eq_or_eq _ _ _
    · rw [leaves.carried]
      exact ite_eq_or_eq _ _ _
    · exact fun running => ⟨leaves.mode running, leaves.markRead⟩
    · intro i passed
      obtain ⟨_, carried⟩ := Ledger.mem_passedBy.mp passed
      refine ⟨fun kept own => kept ?_, fun kept older => kept ?_⟩
      · have same := holds.own
        rw [own, Option.bind_some] at same
        rw [← same, carries_hash] at carried
        have passes : passesOwn w page atTip = true := Bool.or_eq_true_iff.mpr carried
        rw [leaves.own, if_pos passes]
      · have same := holds.carried
        rw [older, Option.bind_some] at same
        rw [← same, carries_hash] at carried
        rw [leaves.carried, if_pos]
        unfold passesCarried passesOwn
        rw [Bool.or_eq_true, Bool.or_eq_true]
        rcases carried with tip | carried
        · exact .inl (.inl tip)
        · exact .inr carried
  next elsewhere =>
    rw [commit_stands w io run page force atTip elsewhere, holds.unkept]
    exact ⟨holds, .same rfl rfl⟩

/-- The read that a landing is on: its mark was stored, and is taken. -/
theorem Ledger.Holds.lands {mid : World Hash} {was mark : Hash} (holds : ledger.Holds w.state)
    (noted : w.state.own ≠ none → w.state.markRead = true)
    (lands : Lands run w mid (some (.landed was mark))) :
    ∃ i, ledger.Stores i ∧ ledger.reads[i]? = some mark ∧
      (ledger.land (w.state.carried.any fun mark => decide (mark.1 ≠ was))) =
        { ledger with landed := (ledger.arms, i) :: ledger.landed } ∧
      (Ledger.keep { ledger with landed := (ledger.arms, i) :: ledger.landed } mid.state).Holds mid.state := by
  generalize landed : (some (.landed was mark) : Option (World.Landing Hash)) = landing at lands
  cases lands with
  | older was' stored runs stands carried ahead leaves =>
    cases landed
    have stored : w.state.carried ≠ none := by
      rw [carried]
      exact Option.some_ne_none _
    have mark := holds.carried
    obtain ⟨i, read⟩ := Option.ne_none_iff_exists'.mp fun none => stored (holds.carried_none.mpr none)
    rw [carried, read] at mark
    refine ⟨i, .inr read, mark.symm, ?_, ?_⟩
    · have chosen : (if (w.state.carried.any fun mark => decide (mark.1 ≠ was)) then ledger.carried
          else ledger.own) = some i := by
        rw [carried, Option.any_some, if_pos (decide_eq_true ahead), read]
      unfold Ledger.land
      rw [chosen]
      rfl
    · refine holds.land (.inr read) (.inr leaves.own) (.inl leaves.carried) (of_decide_eq_true runs).1
        leaves.markRead ?_ ?_
      · intro stores
        rcases stores.of_keep with ⟨_, own⟩ | ⟨kept, _⟩
        · exact holds.apart i own read
        · exact kept leaves.carried
      · unfold State.room
        rw [if_pos leaves.carried, if_neg stored, leaves.own]
        by_cases closed : w.state.own = none ∧ w.state.markRead = true
        · have still := And.intro closed.1 (leaves.markRead closed.2)
          simp [if_pos closed, if_pos still]
        · rw [if_neg closed]
          split <;> decide
  | newer was' stored runs stands spent own leaves =>
    cases landed
    have stored : w.state.own ≠ none := by
      rw [own]
      exact Option.some_ne_none _
    have mark := holds.own
    obtain ⟨i, read⟩ := Option.ne_none_iff_exists'.mp fun none => stored (holds.own_none.mpr none)
    rw [own, read] at mark
    refine ⟨i, .inl read, mark.symm, ?_, ?_⟩
    · have chosen : (if (w.state.carried.any fun mark => decide (mark.1 ≠ was)) then ledger.carried
          else ledger.own) = some i := by
        rw [spent, if_neg Bool.false_ne_true, read]
      unfold Ledger.land
      rw [chosen]
      rfl
    · refine holds.land (.inl read) (.inl leaves.own) (.inl leaves.carried) (of_decide_eq_true runs).1
        leaves.markRead ?_ ?_
      · intro stores
        rcases stores.of_keep with ⟨kept, _⟩ | ⟨kept, _⟩
        · exact kept leaves.own
        · exact kept leaves.carried
      · have noneLeft : mid.state.room = 0 := by
          unfold State.room
          rw [if_pos leaves.carried, if_pos ⟨leaves.own, leaves.markRead (noted stored)⟩]
        have someLeft : 1 ≤ w.state.room := by
          have unclosed : ¬ (w.state.own = none ∧ w.state.markRead = true) := fun closed => stored closed.1
          unfold State.room
          rw [if_neg unclosed]
          exact Nat.le_add_left _ _
        omega
  | bare was runs stands stored cursor leaves => split at landed <;> cases landed
  | _ => cases landed

theorem skipping_state {cause : Cause} (task : w.task = .skipping run cause) :
    (w.advance setup io).state = (w.landing io run cause).1.state := by
  simp only [World.advance, task]
  split
  next result => rw [result]; rfl
  next result =>
    rw [result]
    exact toAnnounce_state _ _ _ _ _ _ _
  next result =>
    rw [result]
    split <;> rfl
  next result => rw [result]; rfl

theorem Ledger.Holds.skipping {cause : Cause} (holds : ledger.Holds w.state)
    (noted : w.state.own ≠ none → w.state.markRead = true) (task : w.task = .skipping run cause) :
    ((ledger.task w io).keep (w.advance setup io).state).Holds (w.advance setup io).state ∧
      ledger.Grows (ledger.task w io) := by
  rw [skipping_state task]
  simp only [Ledger.task, task]
  cases result : w.landing io run cause with
  | mk mid landing =>
    have lands := landing_lands result
    cases landing with
    | none =>
      refine ⟨?_, .same rfl rfl⟩
      cases lands with
      | replaced lost same =>
        rw [same]
        exact holds.stays (.refl w)
    | some landing =>
      cases landing with
      | landed was mark =>
        obtain ⟨i, stores, _, landed, after⟩ := holds.lands noted lands
        change ((ledger.land _).keep mid.state).Holds mid.state ∧ ledger.Grows (ledger.land _)
        rw [landed]
        refine ⟨after, fun _ held => held, [(ledger.arms, i)], rfl, ?_⟩
        intro landing member
        rw [List.mem_singleton.mp member]
        exact (holds.stored i stores).2.2
      | present =>
        refine ⟨?_, .same rfl rfl⟩
        change (ledger.keep mid.state).Holds mid.state
        generalize landed : (some .present : Option (World.Landing Hash)) = landing at lands
        cases lands with
        | reached was mark runs stands stored leaves =>
          exact holds.kept (.inl leaves.own) (.inl leaves.carried) fun running => ⟨leaves.mode running, leaves.markRead⟩
        | bare was runs stands stored cursor leaves =>
          exact holds.kept (.inl leaves.own) (.inl leaves.carried) fun running => ⟨leaves.mode running, leaves.markRead⟩
        | _ => cases landed
      | sink =>
        refine ⟨?_, .same rfl rfl⟩
        change (ledger.keep mid.state).Holds mid.state
        generalize landed : (some .sink : Option (World.Landing Hash)) = landing at lands
        cases lands with
        | unseeded runs empty same =>
          rw [same]
          exact holds.stays (.refl w)
        | bare was runs stands stored cursor leaves =>
          exact holds.kept (.inl leaves.own) (.inl leaves.carried) fun running => ⟨leaves.mode running, leaves.markRead⟩
        | _ => cases landed

theorem Ledger.Holds.seeding (holds : ledger.Holds w.state) (task : w.task = .seeding run) :
    (ledger.keep (w.advance setup io).state).Holds (w.advance setup io).state := by
  have seeded (sink : Hash) : (ledger.keep (w.reseed io sink).state).Holds (w.reseed io sink).state := by
    have leaves := reseed_leaves w io sink
    exact holds.kept (.inl leaves.own) (.inl leaves.carried) fun running => ⟨leaves.mode running, leaves.markRead⟩
  simp only [World.advance, task]
  split
  · refine holds.stays (Stays.goto ?_ _)
    split
    · exact .same rfl rfl rfl rfl rfl rfl rfl
    · exact .refl w
  next sink _ =>
    split
    · exact holds.stays ((Stays.refl w).goto _)
    · split
      · exact seeded sink
      · rw [toAnnounce_state]
        exact seeded sink

theorem Ledger.Holds.reading {over_ : Option (WalkPage Hash)} (holds : ledger.Holds w.state)
    (task : w.task = .readingMark run over_) :
    ((ledger.task w io).keep (w.advance setup io).state).Holds (w.advance setup io).state ∧
      ledger.Grows (ledger.task w io) := by
  have state : (w.advance setup io).state = io.mark.elim w.state (fun mark =>
      if w.runs run ∧ w.state.markRead = false then
        { w.state with own := some (mark, io.unixMs), markRead := true }
      else w.state) := by
    simp only [World.advance, task]
    cases over_ with
    | none =>
      cases io.mark with
      | none => rfl
      | some mark =>
        simp only [Option.elim_some]
        split <;> rfl
    | some page =>
      cases io.mark with
      | none => rfl
      | some mark =>
        simp only [Option.elim_some]
        split <;> rfl
  rw [state]
  simp only [Ledger.task, task]
  cases io.mark with
  | none =>
    simp only [Option.elim_none]
    rw [holds.unkept]
    exact ⟨holds, .same rfl rfl⟩
  | some mark =>
    simp only [Option.elim_some]
    split
    next read =>
      have after := holds.read (mark, io.unixMs) (of_decide_eq_true read.1).1 read.2
      refine ⟨?_, .same rfl rfl⟩
      rw [Ledger.Holds.unkept after]
      exact after
    · rw [holds.unkept]
      exact ⟨holds, .same rfl rfl⟩

theorem Ledger.Holds.advance (holds : ledger.Holds w.state)
    (noted : w.state.own ≠ none → w.state.markRead = true) :
    ((ledger.task w io).keep (w.advance setup io).state).Holds (w.advance setup io).state ∧
      ledger.Grows (ledger.task w io) := by
  have plain (plain : ¬ w.task.marks) : ((ledger.task w io).keep (w.advance setup io).state).Holds
      (w.advance setup io).state ∧ ledger.Grows (ledger.task w io) := by
    rw [plain_task ledger io plain]
    exact ⟨holds.stays (plain_stays plain), .same rfl rfl⟩
  cases task : w.task with
  | readingMark run page => exact holds.reading task
  | committing run page => exact holds.committing task
  | skipping run cause => exact holds.skipping noted task
  | seeding run =>
    have same : ledger.task w io = ledger := by simp only [Ledger.task, task]
    rw [same]
    exact ⟨holds.seeding task, .same rfl rfl⟩
  | _ =>
    apply plain
    rw [task]
    exact id

/-- What a run keeps, and how far its ledger has grown since. -/
structure Tracked (before m : Marked Hash) : Prop where
  armed : Armed m
  holds : m.ledger.Holds m.world.state
  grows : before.ledger.Grows m.ledger

theorem Armed.step {e : Event Hash} (armed : Armed m) (happens : Marked.step setup m e = some next) : Armed next := by
  cases e with
  | arm path =>
    cases happens
    exact armed.rearmed path _ rfl
  | die =>
    cases happens
    exact Armed.died m.world _
  | hold io =>
    cases happens
    exact armed.aside (hold_stays m.world io) (hold_keeps m.world io).2
  | poke =>
    cases happens
    exact armed.aside (poke_stays m.world) rfl
  | socketPublished =>
    cases happens
    exact armed.aside (.same rfl rfl rfl rfl rfl rfl rfl) rfl
  | task io =>
    cases happens
    exact armed.advance (Ledger.task_owed m.ledger m.world io)

theorem Ledger.Holds.step {e : Event Hash} (armed : Armed m) (holds : m.ledger.Holds m.world.state)
    (happens : Marked.step setup m e = some next) :
    next.ledger.Holds next.world.state ∧ m.ledger.Grows next.ledger := by
  cases e with
  | arm path =>
    cases happens
    refine ⟨holds.arm _ rfl ?_, .same rfl rfl⟩
    change (if decide (m.world.state.path = some path) then _ else _) = _
    rfl
  | die =>
    cases happens
    have kept : (m.ledger.keep m.world.die.state).Holds m.world.die.state :=
      holds.kept (.inl rfl) (.inl rfl) fun running => by cases running
    refine ⟨?_, .same rfl rfl⟩
    exact kept.paying m.world.die.task
  | hold io =>
    cases happens
    exact ⟨holds.aside (hold_stays m.world io), .same rfl rfl⟩
  | poke =>
    cases happens
    exact ⟨holds, .same rfl rfl⟩
  | socketPublished =>
    cases happens
    refine ⟨Ledger.Holds.aside holds ?_, .same rfl rfl⟩
    exact .same rfl rfl rfl rfl rfl rfl rfl
  | task io =>
    cases happens
    obtain ⟨after, grows⟩ : _ ∧ m.ledger.Grows (m.ledger.task m.world io) := holds.advance armed.read
    exact ⟨after.paying _, grows.passed, grows.landed⟩

theorem reading_state {page : Option (WalkPage Hash)} (task : w.task = .readingMark run page)
    (noted : w.state.markRead = true) : (w.advance setup io).state = w.state := by
  have skips : ¬ (w.runs run = true ∧ w.state.markRead = false) := fun read => by cases noted.symm.trans read.2
  simp only [World.advance, task]
  cases page with
  | none =>
    cases io.mark with
    | none => rfl
    | some mark =>
      simp only [if_neg skips]
      rfl
  | some page =>
    cases io.mark with
    | none => rfl
    | some mark =>
      simp only [if_neg skips]
      rfl

/-- An arm that is present stays present until another arm, or the end of the process. -/
theorem Armed.persists (armed : Armed m) (present : m.world.state.present = true) :
    (m.world.advance setup io).state.present = true := by
  obtain ⟨noted, own, carried⟩ := armed.present present
  cases task : m.world.task with
  | readingMark run page =>
    rw [reading_state task noted]
    exact present
  | committing run page =>
    have commits (force atTip : Bool) (next : Task Hash) :
        ((m.world.commit io run page force atTip).goto next).state.present = true := by
      change (m.world.commit io run page force atTip).state.present = true
      by_cases start : m.world.state.cursor = some page.start
      · rw [(commit_leaves run io force atTip start).present, passPresent, present, Bool.true_or]
      · rw [commit_stands _ io run page force atTip start]
        exact present
    simp only [World.advance, task]
    split
    · exact commits _ _ _
    · split <;> exact commits _ _ _
  | skipping run cause =>
    rw [skipping_state task]
    rcases result : m.world.landing io run cause with ⟨mid, landing⟩
    cases landing_lands result with
    | replaced lost same => rw [same]; exact present
    | unseeded runs empty same => rw [same]; exact present
    | older was mark runs stands stored ahead leaves => exact leaves.present.trans present
    | newer was mark runs stands spent stored leaves => exact leaves.present
    | reached was mark runs stands stored leaves => exact leaves.present
    | bare was runs stands stored cursor leaves => exact leaves.present.trans present
  | seeding run =>
    simp only [World.advance, task]
    split
    · change (if _ then _ else m.world : World Hash).state.present = true
      split <;> exact present
    next sink _ =>
      split
      · exact present
      · split
        · exact (reseed_leaves m.world io sink).present
        · rw [toAnnounce_state]
          exact (reseed_leaves m.world io sink).present
  | _ =>
    have plain : ¬ m.world.task.marks := by
      rw [task]
      exact id
    exact (plain_stays plain).present.trans present

/-- A spent budget moves no present arm's cursor, neither in its landing nor in a re-seed. -/
theorem Armed.budget (armed : Armed m) (spent : m.ledger.owed = some .budget)
    (present : m.world.state.present = true) :
    (m.world.advance setup io).state.cursor = m.world.state.cursor := by
  obtain ⟨noted, own, carried⟩ := armed.present present
  have pays := armed.pays
  cases task : m.world.task with
  | skipping run cause =>
    rw [skipping_state task]
    rcases result : m.world.landing io run cause with ⟨mid, landing⟩
    cases landing_lands result with
    | replaced lost same => rw [same]
    | unseeded runs empty same => rw [same]
    | older was mark runs stands stored ahead leaves => cases carried.symm.trans stored
    | newer was mark runs stands spent stored leaves => cases own.symm.trans stored
    | reached was mark runs stands stored leaves => cases own.symm.trans stored
    | bare was runs stands stored cursor leaves => exact cursor
  | seeding run =>
    rw [task] at pays
    simp only [World.advance, task]
    split
    · change (if _ then _ else m.world : World Hash).state.cursor = _
      split <;> rfl
    · split
      · rfl
      next runs =>
        have bare := pays spent (runs_epoch (Bool.not_eq_false _ ▸ runs))
        cases present.symm.trans bare
  | announcing run was to_ matcher walksOn =>
    have plain : ¬ m.world.task.marks := by
      rw [task]
      exact id
    exact (plain_stays plain).cursor
  | _ =>
    rw [task] at pays
    cases spent.symm.trans pays

/-- What the walk promises of its marks in a state a run has reached: a present arm stores none, stays
    present and is moved by no spent budget; every landing is on one read's mark; no read is landed on
    twice, and no arm lands more than twice; a committed page passes every read it carries, starts at or
    leaves behind the tip; and no read that was passed is landed on later. -/
structure MarksLandOnce (setup : Setup) (m : Marked Hash) : Prop where
  present : m.world.state.present = true → m.world.state.own = none ∧ m.world.state.carried = none
  persists : ∀ e next, Marked.step setup m e = some next → m.world.state.present = true →
    next.world.state.present = true ∨ (∃ path, e = .arm path) ∨ e = .die
  budget : ∀ io next, Marked.step setup m (.task io) = some next → m.ledger.owed = some .budget →
    m.world.state.present = true → next.world.state.cursor = m.world.state.cursor
  landing : ∀ io next run cause was mark, Marked.step setup m (.task io) = some next →
    m.world.task = .skipping run cause → (m.world.landing io run cause).2 = some (.landed was mark) →
      ∃ i, m.ledger.reads[i]? = some mark ∧ next.ledger.landed = (m.ledger.arms, i) :: m.ledger.landed
  once : (m.ledger.landed.map Prod.snd).Nodup
  twice : ∀ arm, m.ledger.landedUnder arm ≤ 2
  commits : ∀ io next run page, Marked.step setup m (.task io) = some next →
    m.world.task = .committing run page → m.world.state.cursor = some page.start →
      ∀ i mark, m.ledger.reads[i]? = some mark →
        (page.long = false ∧ page.aligned = page.addedLen) ∨ mark = page.start ∨ mark ∈ page.blocks.map Prod.fst →
          i ∈ next.ledger.passed
  passed : ∀ events final, Machine.run (Marked.step setup) m events = some final →
    ∃ new, final.ledger.landed = new ++ m.ledger.landed ∧ ∀ landing ∈ new, landing.2 ∉ m.ledger.passed

theorem Ledger.task_passes {i : Nat} {mark : Hash} (task : w.task = .committing run page)
    (start : w.state.cursor = some page.start) (read : ledger.reads[i]? = some mark)
    (passes : (page.long = false ∧ page.aligned = page.addedLen) ∨ mark = page.start ∨
      mark ∈ page.blocks.map Prod.fst) : i ∈ (ledger.task w io).passed := by
  simp only [Ledger.task, task]
  rw [if_pos start]
  refine List.mem_append_left _ (Ledger.mem_passedBy.mpr ⟨?_, ?_⟩)
  · by_contra outside
    rw [List.getElem?_eq_none (Nat.le_of_not_lt outside)] at read
    cases read
  · rw [read]
    change _ ∨ (decide (mark = page.start) || page.blocks.any fun pair => decide (pair.1 = mark)) = true
    rw [Bool.or_eq_true]
    rcases passes with ⟨short, whole⟩ | same | member
    · left
      rw [short, whole]
      exact decide_eq_true rfl
    · exact .inr (.inl (decide_eq_true same))
    · obtain ⟨pair, inside, same⟩ := List.mem_map.mp member
      exact .inr (.inr (List.any_eq_true.mpr ⟨pair, inside, decide_eq_true same⟩))

theorem tracked_step {before : Marked Hash} {e : Event Hash} (tracked : Tracked before m)
    (happens : Marked.step setup m e = some next) : Tracked before next := by
  obtain ⟨holds, grows⟩ := tracked.holds.step tracked.armed happens
  exact ⟨tracked.armed.step happens, holds, tracked.grows.trans grows⟩

theorem Tracked.marksLandOnce {before : Marked Hash} (tracked : Tracked before m) : MarksLandOnce setup m where
  present := fun present => (tracked.armed.present present).2
  persists := by
    intro e next happens present
    cases e with
    | arm path => exact .inr (.inl ⟨path, rfl⟩)
    | die => exact .inr (.inr rfl)
    | hold io =>
      cases happens
      exact .inl ((hold_stays m.world io).present.trans present)
    | poke =>
      cases happens
      exact .inl present
    | socketPublished =>
      cases happens
      exact .inl present
    | task io =>
      cases happens
      exact .inl (tracked.armed.persists present)
  budget := by
    intro io next happens spent present
    cases happens
    exact tracked.armed.budget spent present
  landing := by
    intro io next run cause was mark happens task landed
    cases happens
    rcases result : m.world.landing io run cause with ⟨mid, landing⟩
    rw [result] at landed
    change landing = some (.landed was mark) at landed
    subst landed
    obtain ⟨i, _, read, same, _⟩ := tracked.holds.lands tracked.armed.read (landing_lands result)
    refine ⟨i, read, ?_⟩
    change (m.ledger.task m.world io).landed = _
    simp only [Ledger.task, task, result]
    rw [same]
  once := tracked.holds.once
  twice := tracked.holds.twice
  commits := by
    intro io next run page happens task start i mark read passes
    cases happens
    exact Ledger.task_passes task start read passes
  passed := by
    intro events final happens
    have later : Tracked m final :=
      Machine.run_invariant (fun _ _ _ tracked happens => tracked_step tracked happens)
        ⟨tracked.armed, tracked.holds, .same rfl rfl⟩ happens
    exact later.grows.landed

/-- However arms, holds, runs, late commits, skips and restarts interleave, the walk keeps its promise
    of the marks. -/
theorem marks_land_once {init : String → Option Hash} {events : List (Event Hash)} {final : Marked Hash}
    (begun : Begun init w) (happens : Machine.run (Marked.step setup) ⟨w, .opened⟩ events = some final) :
    MarksLandOnce setup final := by
  have start : Tracked ⟨w, .opened⟩ ⟨w, .opened⟩ := by
    refine ⟨⟨?_, ?_, ?_, ?_, ?_⟩, ?_, .same rfl rfl⟩
    · intro run inHand
      rw [begun.task] at inHand
      cases inHand
    · rw [begun.task]
      exact True.intro
    · rw [begun.task]
      rfl
    · rw [begun.state]
      exact fun stored => absurd rfl stored
    · rw [begun.state]
      exact fun present => by cases present
    · rw [begun.state]
      refine ⟨rfl, rfl, ?_, ?_, ?_, ?_, List.nodup_nil, fun _ => Nat.zero_le 2, fun running => by cases running⟩
      · exact fun i stores => stores.elim (fun none => by cases none) (fun none => by cases none)
      · exact fun i none => by cases none
      · exact fun landing none => by cases none
      · exact fun i none => by cases none
  have tracked : Tracked ⟨w, .opened⟩ final :=
    Machine.run_invariant (fun _ _ _ tracked happens => tracked_step tracked happens) start happens
  exact tracked.marksLandOnce

theorem marks_land_once_foldThenSkip :
    ∃ final, Machine.run (Marked.step oneMatcher) ⟨launched, .opened⟩ foldThenSkip = some final ∧
      final.ledger.landed = [(1, 0)] ∧ final.ledger.reads = [5] ∧ MarksLandOnce oneMatcher final := by
  refine ⟨_, rfl, rfl, rfl, ?_⟩
  exact marks_land_once launched_begun
    (show Machine.run (Marked.step oneMatcher) ⟨launched, .opened⟩ foldThenSkip = some _ from rfl)

end Steps

end Kaspaverse.Walk
