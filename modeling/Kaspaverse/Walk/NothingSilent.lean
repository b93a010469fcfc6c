import Kaspaverse.Walk.Walk

namespace Kaspaverse.Walk

variable {Hash : Type} {w after : World Hash} {init : String → Option Hash} {setup : Setup}

/-- The task is about to tell the matcher of the gap. -/
def Task.owes : Task Hash → Nat → Hash → Hash → Prop
  | .announcing _ was to_ matcher _, i, a, b => matcher ≤ i ∧ a = was ∧ b = to_
  | _, _, _, _ => False

/-- The task is not between a skip's cursor write and its last notice of the gap. -/
def Task.quiet (task : Task Hash) : Prop := ∀ i was to_, ¬ task.owes i was to_

/-- Every matcher was told of the gap, or the task is about to tell it. -/
def Told (setup : Setup) (w : World Hash) (was to_ : Hash) : Prop :=
  ∀ i < setup.matchers, (i, was, to_) ∈ w.gaps ∨ w.task.owes i was to_

/-- The cursor file held the value at the start, or the committed cursor was moved to it. -/
def Reached (init : String → Option Hash) (moves : List (Move Hash)) (path : String) (cursor : Hash) :
    Prop :=
  init path = some cursor ∨ ∃ move ∈ moves, move.path = some path ∧ move.to_ = cursor

section Definitions

variable [DecidableEq Hash]

/-- A move of the committed cursor is a fold of a page by every matcher, a first seed, or a skip
    that every matcher is told of. -/
def Justified (setup : Setup) (w : World Hash) (move : Move Hash) : Prop :=
  match move.how with
  | .page page => move.was = some page.start ∧ page.last.map Prod.fst = some move.to_ ∧
      ∀ i < setup.matchers, (i, page) ∈ w.folds
  | .seed => move.was = none
  | .skip => ∃ was, move.was = some was ∧ Told setup w was move.to_

end Definitions

/-- Every move starts where its cursor file had been brought before. -/
def Trail (init : String → Option Hash) : List (Move Hash) → Prop
  | [] => True
  | move :: older =>
    (∀ path was, move.path = some path → move.was = some was → Reached init older path was) ∧
      Trail init older

/-- The matchers that have answered for the page in the task's hands folded it. -/
def Progress (setup : Setup) (w : World Hash) : Prop :=
  match w.task with
  | .folding _ page matcher => ∀ i < matcher, (i, page) ∈ w.folds
  | .committing _ page => ∀ i < setup.matchers, (i, page) ∈ w.folds
  | _ => True

structure Sound [DecidableEq Hash] (setup : Setup) (init : String → Option Hash) (w : World Hash) :
    Prop where
  justified : ∀ move ∈ w.moves, Justified setup w move
  trail : Trail init w.moves
  cursor : ∀ path cursor, w.state.path = some path → w.state.cursor = some cursor →
    Reached init w.moves path cursor
  files : ∀ path cursor, w.files path = some cursor → Reached init w.moves path cursor
  absent : ∀ path, w.state.path = some path → w.state.cursor = none → w.files path = none
  progress : Progress setup w

/-- The committed cursor stays, and the histories only grow. Its file may be brought up to it. -/
structure Keeps (w after : World Hash) : Prop where
  path : after.state.path = w.state.path
  cursor : after.state.cursor = w.state.cursor
  moves : after.moves = w.moves
  folds : ∀ fold ∈ w.folds, fold ∈ after.folds
  gaps : ∀ gap ∈ w.gaps, gap ∈ after.gaps
  files : ∀ path cursor, after.files path = some cursor →
    w.files path = some cursor ∨ w.state.path = some path ∧ w.state.cursor = some cursor

section Keeps

theorem Keeps.same (path : after.state.path = w.state.path) (cursor : after.state.cursor = w.state.cursor)
    (moves : after.moves = w.moves) (folds : after.folds = w.folds) (gaps : after.gaps = w.gaps)
    (files : after.files = w.files) : Keeps w after where
  path := path
  cursor := cursor
  moves := moves
  folds := by
    rw [folds]
    exact fun _ held => held
  gaps := by
    rw [gaps]
    exact fun _ held => held
  files := by
    rw [files]
    exact fun _ _ held => .inl held

theorem Keeps.refl (w : World Hash) : Keeps w w := .same rfl rfl rfl rfl rfl rfl

theorem Keeps.trans {mid : World Hash} (first : Keeps w mid) (second : Keeps mid after) : Keeps w after where
  path := second.path.trans first.path
  cursor := second.cursor.trans first.cursor
  moves := second.moves.trans first.moves
  folds := fun fold held => second.folds fold (first.folds fold held)
  gaps := fun gap held => second.gaps gap (first.gaps gap held)
  files := by
    intro path cursor held
    rcases second.files path cursor held with before | ⟨named, stands⟩
    · exact first.files path cursor before
    · exact .inr ⟨first.path.symm.trans named, first.cursor.symm.trans stands⟩

theorem Keeps.goto {mid : World Hash} (keeps : Keeps w mid) (task : Task Hash) : Keeps w (mid.goto task) :=
  keeps.trans (.same rfl rfl rfl rfl rfl rfl)

theorem flush_keeps (w : World Hash) (io : Io Hash) : Keeps w (w.flush io) := by
  unfold World.flush
  split
  case h_1 path cursor named stands =>
    refine ⟨rfl, rfl, rfl, fun _ held => held, fun _ held => held, ?_⟩
    intro other held found
    change (if io.writes then Function.update w.files path (some cursor) else w.files) other = some held
      at found
    split at found
    · by_cases same : other = path
      · subst same
        rw [Function.update_self] at found
        cases found
        exact .inr ⟨named, stands⟩
      · rw [Function.update_of_ne same] at found
        exact .inl found
    · exact .inl found
  · exact Keeps.refl w

theorem flush_task (w : World Hash) (io : Io Hash) : (w.flush io).task = w.task := by
  unfold World.flush
  split <;> rfl

theorem hold_keeps (w : World Hash) (io : Io Hash) : Keeps w (w.hold io) ∧ (w.hold io).task = w.task := by
  unfold World.hold
  split
  · exact ⟨Keeps.refl w, rfl⟩
  · have idle : Keeps w { w with state := { w.state with mode := .idle, epoch := w.state.epoch + 1 } } :=
      .same rfl rfl rfl rfl rfl rfl
    exact ⟨idle.trans (flush_keeps _ io), flush_task _ io⟩

theorem holdAt_keeps (w : World Hash) (io : Io Hash) : Keeps w (w.holdAt io) := by
  have idle : Keeps w { w with state := { w.state with mode := .idle, epoch := w.state.epoch + 1 } } :=
    .same rfl rfl rfl rfl rfl rfl
  exact idle.trans (flush_keeps _ io)

theorem toFold_keeps (setup : Setup) (w : World Hash) (run : Run) (page : WalkPage Hash) (matcher : Nat) :
    Keeps w (w.toFold setup run page matcher) := .same rfl rfl rfl rfl rfl rfl

theorem toAnnounce_keeps (setup : Setup) (w : World Hash) (run : Run) (was to_ : Hash) (matcher : Nat)
    (walksOn : Bool) : Keeps w (w.toAnnounce setup run was to_ matcher walksOn) := by
  unfold World.toAnnounce
  split
  · exact .same rfl rfl rfl rfl rfl rfl
  · split <;> exact .same rfl rfl rfl rfl rfl rfl

variable [DecidableEq Hash]

theorem noteProgress_keeps (w : World Hash) (run : Run) (start : Hash) :
    Keeps w (w.noteProgress run start) := by
  unfold World.noteProgress
  split <;> exact .same rfl rfl rfl rfl rfl rfl

theorem passMarks_keeps (w : World Hash) (run : Run) (page : WalkPage Hash) (atTip : Bool) :
    Keeps w (w.passMarks run page atTip) := by
  simp only [World.passMarks]
  split
  · exact .same rfl rfl rfl rfl rfl rfl
  · split <;> exact .same rfl rfl rfl rfl rfl rfl

end Keeps

section Moves

variable [DecidableEq Hash]

/-- A commit stays, or moves from the page's start to its last chain block. -/
theorem commit_moves (w : World Hash) (io : Io Hash) (run : Run) (page : WalkPage Hash) (force atTip : Bool) :
    Keeps w (w.commit io run page force atTip) ∨
      w.state.cursor = some page.start ∧ ∃ to_ timeMs, page.last = some (to_, timeMs) ∧
        Keeps (w.moveTo to_ timeMs (.page page)) (w.commit io run page force atTip) := by
  unfold World.commit
  by_cases stands : w.state.cursor = some page.start
  · rw [if_neg (not_not_intro stands)]
    cases last : page.last with
    | none => exact .inl (passMarks_keeps w run page atTip)
    | some block =>
      obtain ⟨to_, timeMs⟩ := block
      refine .inr ⟨stands, to_, timeMs, rfl, ?_⟩
      simp only
      split
      · exact (passMarks_keeps _ run page atTip).trans (flush_keeps _ io)
      · exact passMarks_keeps _ run page atTip
  · rw [if_pos stands]
    exact .inl (Keeps.refl w)

theorem takeMark_keeps (s : State Hash) (cursor : Hash) :
    (World.takeMark s cursor).1.path = s.path ∧ (World.takeMark s cursor).1.cursor = s.cursor := by
  unfold World.takeMark
  split
  · exact ⟨rfl, rfl⟩
  · split <;> exact ⟨rfl, rfl⟩

/-- A landing stays, or skips from the cursor to the mark it says. -/
theorem landing_moves {landing : Option (World.Landing Hash)} {io : Io Hash} {run : Run} {cause : Cause}
    (result : w.landing io run cause = (after, landing)) :
    Keeps w after ∧ (∀ was mark, landing ≠ some (.landed was mark)) ∨
      ∃ was mark, landing = some (.landed was mark) ∧ w.state.cursor = some was ∧
        Keeps (w.moveTo mark none .skip) after := by
  unfold World.landing at result
  split at result
  · cases result
    exact .inl ⟨Keeps.refl w, fun _ _ same => nomatch same⟩
  · split at result
    · cases result
      exact .inl ⟨Keeps.refl w, fun _ _ same => nomatch same⟩
    next was stands =>
      obtain ⟨path, cursor⟩ := takeMark_keeps w.state was
      simp only at result
      split at result
      · cases result
        refine .inl ⟨.same path cursor rfl rfl rfl rfl, ?_⟩
        intro was mark same
        split at same <;> exact nomatch same
      next mark _ _ =>
        cases result
        refine .inr ⟨was, mark, rfl, stands, ?_⟩
        refine Keeps.trans ?_ (flush_keeps _ io)
        refine .same path rfl ?_ rfl rfl rfl
        simp only [World.moveTo, path, cursor]

theorem reseed_moves (w : World Hash) (io : Io Hash) (sink : Hash) :
    Keeps (w.moveTo sink none (if w.state.cursor.isNone then .seed else .skip)) (w.reseed io sink) := by
  unfold World.reseed
  refine Keeps.trans ?_ (flush_keeps _ io)
  exact .same rfl rfl rfl rfl rfl rfl

end Moves

/-- The notices that the task owes are given, or still owed. -/
def Pays (setup : Setup) (w after : World Hash) : Prop :=
  ∀ i < setup.matchers, ∀ was to_, w.task.owes i was to_ →
    (i, was, to_) ∈ after.gaps ∨ after.task.owes i was to_

/-- The committed cursor moved, for a reason. -/
def Moved [DecidableEq Hash] (setup : Setup) (w after : World Hash) : Prop :=
  ∃ to_ timeMs how, Keeps (w.moveTo to_ timeMs how) after ∧
    Justified setup after ⟨w.state.path, w.state.cursor, to_, how⟩

/-- What a step of the task does to the committed cursor, and what it owes after. -/
structure Advances [DecidableEq Hash] (setup : Setup) (w after : World Hash) : Prop where
  moves : Keeps w after ∨ Moved setup w after
  pays : Pays setup w after
  progress : Progress setup after

section Advance

theorem progress_toFold (w : World Hash) (run : Run) (page : WalkPage Hash) (matcher : Nat)
    (folded : ∀ i < matcher, (i, page) ∈ w.folds) : Progress setup (w.toFold setup run page matcher) := by
  unfold World.toFold
  split
  · exact folded
  next all => exact fun i inside => folded i (Nat.lt_of_lt_of_le inside (Nat.le_of_not_lt all))

theorem progress_toAnnounce (setup : Setup) (w : World Hash) (run : Run) (was to_ : Hash) (matcher : Nat)
    (walksOn : Bool) : Progress setup (w.toAnnounce setup run was to_ matcher walksOn) := by
  unfold World.toAnnounce
  split
  · exact True.intro
  · split <;> exact True.intro

theorem told_toAnnounce (setup : Setup) (w : World Hash) (run : Run) (was to_ : Hash) (walksOn : Bool) :
    Told setup (w.toAnnounce setup run was to_ 0 walksOn) was to_ := by
  intro i inside
  have some : 0 < setup.matchers := Nat.zero_lt_of_lt inside
  right
  rw [World.toAnnounce, if_pos some]
  exact ⟨Nat.zero_le i, rfl, rfl⟩

theorem owes_toAnnounce {i : Nat} {a b was to_ : Hash} (w : World Hash) (run : Run) (matcher : Nat)
    (walksOn : Bool) (inside : i < setup.matchers) (owed : matcher ≤ i ∧ a = was ∧ b = to_) :
    (w.toAnnounce setup run was to_ matcher walksOn).task.owes i a b := by
  rw [World.toAnnounce, if_pos (Nat.lt_of_le_of_lt owed.1 inside)]
  exact owed

theorem pays_of_idle (idle : w.task.quiet) : Pays setup w after :=
  fun i _ was to_ owes => absurd owes (idle i was to_)

variable [DecidableEq Hash]

theorem Advances.stay {mid : World Hash} {task : Task Hash} (keeps : Keeps w mid)
    (idle : w.task.quiet) (progress : Progress setup (mid.goto task)) :
    Advances setup w (mid.goto task) :=
  ⟨.inl (keeps.goto task), pays_of_idle idle, progress⟩

theorem committing_advances {io : Io Hash} {run : Run} {page : WalkPage Hash}
    (task : w.task = .committing run page) (progress : Progress setup w) :
    Advances setup w (w.advance setup io) := by
  have idle : w.task.quiet := task ▸ fun _ _ _ owes => owes
  have folded : ∀ i < setup.matchers, (i, page) ∈ w.folds := by
    unfold Progress at progress
    rw [task] at progress
    exact progress
  have moves (force atTip : Bool) (next : Task Hash) :
      Keeps w ((w.commit io run page force atTip).goto next) ∨
        Moved setup w ((w.commit io run page force atTip).goto next) := by
    rcases commit_moves w io run page force atTip with keeps | ⟨stands, to_, timeMs, last, keeps⟩
    · exact .inl (keeps.goto next)
    · refine .inr ⟨to_, timeMs, .page page, keeps.goto next, stands, ?_, ?_⟩
      · rw [last]
        rfl
      · exact fun i inside => keeps.folds _ (folded i inside)
  simp only [World.advance, task]
  split
  · exact ⟨moves _ _ _, pays_of_idle idle, True.intro⟩
  · split
    · exact ⟨moves _ _ _, pays_of_idle idle, True.intro⟩
    · exact ⟨moves _ _ _, pays_of_idle idle, True.intro⟩

theorem skipping_advances {io : Io Hash} {run : Run} {cause : Cause}
    (task : w.task = .skipping run cause) : Advances setup w (w.advance setup io) := by
  have idle : w.task.quiet := task ▸ fun _ _ _ owes => owes
  simp only [World.advance, task]
  split
  next mid result =>
    rcases landing_moves result with ⟨keeps, _⟩ | ⟨_, _, lands, _⟩
    · exact .stay keeps idle True.intro
    · exact nomatch lands
  next mid was mark result =>
    rcases landing_moves result with ⟨_, elsewhere⟩ | ⟨was', mark', lands, stands, keeps⟩
    · exact absurd rfl (elsewhere was mark)
    · cases lands
      refine ⟨.inr ⟨mark, none, .skip, keeps.trans (toAnnounce_keeps setup mid run was mark 0 _), was, stands, ?_⟩,
        pays_of_idle idle, progress_toAnnounce setup mid run was mark 0 _⟩
      exact told_toAnnounce setup mid run was mark _
  next mid result =>
    rcases landing_moves result with ⟨keeps, _⟩ | ⟨_, _, lands, _⟩
    · split
      · refine .stay (keeps.trans ?_) idle True.intro
        exact .same rfl rfl rfl rfl rfl rfl
      · exact .stay keeps idle True.intro
    · exact nomatch lands
  next mid result =>
    rcases landing_moves result with ⟨keeps, _⟩ | ⟨_, _, lands, _⟩
    · exact .stay keeps idle True.intro
    · exact nomatch lands

theorem seeding_advances {io : Io Hash} {run : Run} (task : w.task = .seeding run) :
    Advances setup w (w.advance setup io) := by
  have idle : w.task.quiet := task ▸ fun _ _ _ owes => owes
  simp only [World.advance, task]
  split
  · refine .stay ?_ idle True.intro
    split
    · exact .same rfl rfl rfl rfl rfl rfl
    · exact Keeps.refl w
  next sink _ =>
    split
    · exact .stay (Keeps.refl w) idle True.intro
    · have moves := reseed_moves w io sink
      split
      next stands =>
        rw [stands] at moves
        exact ⟨.inr ⟨sink, none, .seed, moves.goto _, stands⟩, pays_of_idle idle, True.intro⟩
      next was stands =>
        rw [stands] at moves
        refine ⟨.inr ⟨sink, none, .skip, ?_, was, stands, ?_⟩, pays_of_idle idle, ?_⟩
        · exact moves.trans (toAnnounce_keeps setup _ run was sink 0 false)
        · exact told_toAnnounce setup _ run was sink false
        · exact progress_toAnnounce setup _ run was sink 0 false

theorem announcing_advances {io : Io Hash} {run : Run} {was to_ : Hash} {matcher : Nat} {walksOn : Bool}
    (task : w.task = .announcing run was to_ matcher walksOn) : Advances setup w (w.advance setup io) := by
  have tells : Keeps w { w with gaps := (matcher, was, to_) :: w.gaps } :=
    ⟨rfl, rfl, rfl, fun _ held => held, fun _ held => List.mem_cons_of_mem _ held, fun _ _ held => .inl held⟩
  simp only [World.advance, task]
  refine ⟨.inl (tells.trans (toAnnounce_keeps setup _ run was to_ (matcher + 1) walksOn)), ?_,
    progress_toAnnounce setup _ run was to_ (matcher + 1) walksOn⟩
  intro i inside a b owes
  rw [task] at owes
  obtain ⟨due, rfl, rfl⟩ := owes
  rcases Nat.eq_or_lt_of_le due with rfl | later
  · exact .inl ((toAnnounce_keeps setup _ run a b (matcher + 1) walksOn).gaps _ List.mem_cons_self)
  · exact .inr (owes_toAnnounce _ run (matcher + 1) walksOn inside ⟨later, rfl, rfl⟩)

theorem folding_advances {io : Io Hash} {run : Run} {page : WalkPage Hash} {matcher : Nat}
    (task : w.task = .folding run page matcher) (progress : Progress setup w) :
    Advances setup w (w.advance setup io) := by
  have idle : w.task.quiet := task ▸ fun _ _ _ owes => owes
  have folded : ∀ i < matcher, (i, page) ∈ w.folds := by
    unfold Progress at progress
    rw [task] at progress
    exact progress
  simp only [World.advance, task]
  split
  · exact .stay (Keeps.refl w) idle True.intro
  · refine ⟨.inl ⟨rfl, rfl, rfl, fun _ held => List.mem_cons_of_mem _ held, fun _ held => held, fun _ _ held => .inl held⟩,
      pays_of_idle idle, progress_toFold _ run page (matcher + 1) ?_⟩
    intro i inside
    rcases Nat.eq_or_lt_of_le (Nat.le_of_lt_succ inside) with rfl | earlier
    · exact List.mem_cons_self
    · exact List.mem_cons_of_mem _ (folded i earlier)

/-- Every step of the task. The cursor moves in a commit, in a landing and in a re-seed alone. -/
theorem advances (w : World Hash) (io : Io Hash) (progress : Progress setup w) :
    Advances setup w (w.advance setup io) := by
  cases task : w.task with
  | committing run page => exact committing_advances task progress
  | skipping run cause => exact skipping_advances task
  | seeding run => exact seeding_advances task
  | announcing run was to_ matcher walksOn => exact announcing_advances task
  | folding run page matcher => exact folding_advances task progress
  | noting run page =>
    have idle : w.task.quiet := task ▸ fun _ _ _ owes => owes
    simp only [World.advance, task]
    refine ⟨.inl ((noteProgress_keeps w run page.start).trans (toFold_keeps setup _ run page 0)),
      pays_of_idle idle, progress_toFold _ run page 0 ?_⟩
    exact fun _ below => absurd below (Nat.not_lt_zero _)
  | holding run =>
    have idle : w.task.quiet := task ▸ fun _ _ _ owes => owes
    simp only [World.advance, task]
    exact .stay (holdAt_keeps w io) idle True.intro
  | waiting =>
    have idle : w.task.quiet := task ▸ fun _ _ _ owes => owes
    simp only [World.advance, task]
    split
    · exact ⟨.inl (Keeps.refl w), pays_of_idle idle, progress⟩
    · split
      · refine ⟨.inl (.same rfl rfl rfl rfl rfl rfl), pays_of_idle idle, ?_⟩
        exact True.intro
      · split
        · refine ⟨.inl (.same rfl rfl rfl rfl rfl rfl), pays_of_idle idle, ?_⟩
          exact True.intro
        · refine .stay ?_ idle True.intro
          exact .same rfl rfl rfl rfl rfl rfl
  | readingMark run page =>
    have idle : w.task.quiet := task ▸ fun _ _ _ owes => owes
    simp only [World.advance, task]
    cases page with
    | none =>
      refine .stay ?_ idle True.intro
      split
      · exact Keeps.refl w
      · split <;> exact .same rfl rfl rfl rfl rfl rfl
    | some page =>
      refine .stay ?_ idle True.intro
      split
      · exact Keeps.refl w
      · split <;> exact .same rfl rfl rfl rfl rfl rfl
  | marking run page =>
    have idle : w.task.quiet := task ▸ fun _ _ _ owes => owes
    simp only [World.advance, task]
    split
    · cases page with
      | none => exact .stay (Keeps.refl w) idle True.intro
      | some page => exact .stay (Keeps.refl w) idle True.intro
    · exact .stay (Keeps.refl w) idle True.intro
  | owing run =>
    have idle : w.task.quiet := task ▸ fun _ _ _ owes => owes
    simp only [World.advance, task]
    split <;> exact .stay (Keeps.refl w) idle True.intro
  | stepping run =>
    have idle : w.task.quiet := task ▸ fun _ _ _ owes => owes
    simp only [World.advance, task]
    split
    · exact .stay (Keeps.refl w) idle True.intro
    · split <;> exact .stay (Keeps.refl w) idle True.intro
  | judging run start =>
    have idle : w.task.quiet := task ▸ fun _ _ _ owes => owes
    simp only [World.advance, task]
    exact .stay (Keeps.refl w) idle True.intro
  | asking run start catchUp attempt onlyNoSocket =>
    have idle : w.task.quiet := task ▸ fun _ _ _ owes => owes
    simp only [World.advance, task]
    split
    · refine .stay (Keeps.refl w) idle ?_
      split <;> exact True.intro
    · split
      · exact .stay (Keeps.refl w) idle True.intro
      · split <;> exact .stay (Keeps.refl w) idle True.intro
  | yielding run start catchUp attempt onlyNoSocket =>
    have idle : w.task.quiet := task ▸ fun _ _ _ owes => owes
    simp only [World.advance, task]
    split <;> exact .stay (Keeps.refl w) idle True.intro
  | fetching run start catchUp attempt onlyNoSocket =>
    have idle : w.task.quiet := task ▸ fun _ _ _ owes => owes
    simp only [World.advance, task]
    split
    case h_6 => split <;> exact .stay (Keeps.refl w) idle True.intro
    all_goals exact .stay (Keeps.refl w) idle True.intro
  | failing run start =>
    have idle : w.task.quiet := task ▸ fun _ _ _ owes => owes
    simp only [World.advance, task]
    split
    · exact .stay (Keeps.refl w) idle True.intro
    · refine .stay (.same rfl rfl rfl rfl rfl rfl) idle ?_
      split <;> exact True.intro
  | gating run page =>
    have idle : w.task.quiet := task ▸ fun _ _ _ owes => owes
    simp only [World.advance, task]
    split <;> exact .stay (Keeps.refl w) idle True.intro
  | settling run =>
    have idle : w.task.quiet := task ▸ fun _ _ _ owes => owes
    simp only [World.advance, task]
    refine .stay ?_ idle True.intro
    exact .same rfl rfl rfl rfl rfl rfl

end Advance

section Steps

variable [DecidableEq Hash]

/-- A step that the task does not take, which leaves the committed cursor. -/
theorem Advances.apart (keeps : Keeps w after) (task : after.task = w.task) (progress : Progress setup w) :
    Advances setup w after := by
  refine ⟨.inl keeps, ?_, ?_⟩
  · intro i _ was to_ owes
    rw [task]
    exact .inr owes
  · unfold Progress at progress ⊢
    rw [task]
    cases here : w.task with
    | folding run page matcher =>
      rw [here] at progress
      exact fun i inside => keeps.folds _ (progress i inside)
    | committing run page =>
      rw [here] at progress
      exact fun i inside => keeps.folds _ (progress i inside)
    | _ => exact True.intro

theorem step_cases {e : Event Hash} (happens : step setup w e = some after) (progress : Progress setup w) :
    (∃ path, after = w.arm path) ∨ e = .die ∧ after = w.die ∨ Advances setup w after := by
  cases e with
  | arm path =>
    cases happens
    exact .inl ⟨path, rfl⟩
  | die =>
    cases happens
    exact .inr (.inl ⟨rfl, rfl⟩)
  | hold io =>
    cases happens
    exact .inr (.inr (.apart (hold_keeps w io).1 (hold_keeps w io).2 progress))
  | poke =>
    cases happens
    exact .inr (.inr (.apart (.same rfl rfl rfl rfl rfl rfl) rfl progress))
  | socketPublished =>
    cases happens
    exact .inr (.inr (.apart (.same rfl rfl rfl rfl rfl rfl) rfl progress))
  | task io =>
    cases happens
    exact .inr (.inr (advances w io progress))

theorem Reached.older {moves : List (Move Hash)} {move : Move Hash} {path : String} {cursor : Hash}
    (reached : Reached init moves path cursor) : Reached init (move :: moves) path cursor := by
  rcases reached with first | ⟨move, member, moved⟩
  · exact .inl first
  · exact .inr ⟨move, List.mem_cons_of_mem _ member, moved⟩

/-- A history that only grows justifies a move as before. -/
theorem Justified.mono {move : Move Hash} (justified : Justified setup w move)
    (folds : ∀ fold ∈ w.folds, fold ∈ after.folds) (gaps : ∀ gap ∈ w.gaps, gap ∈ after.gaps)
    (pays : Pays setup w after) : Justified setup after move := by
  unfold Justified at justified ⊢
  cases how : move.how with
  | page page =>
    rw [how] at justified
    obtain ⟨start, last, all⟩ := justified
    exact ⟨start, last, fun i inside => folds _ (all i inside)⟩
  | seed =>
    rw [how] at justified
    exact justified
  | skip =>
    rw [how] at justified
    obtain ⟨was, left, told⟩ := justified
    refine ⟨was, left, ?_⟩
    intro i inside
    rcases told i inside with said | owes
    · exact .inl (gaps _ said)
    · exact pays i inside was _ owes

theorem Sound.kept (sound : Sound setup init w) (keeps : Keeps w after) (pays : Pays setup w after)
    (progress : Progress setup after) : Sound setup init after where
  justified := by
    rw [keeps.moves]
    exact fun move member => (sound.justified move member).mono keeps.folds keeps.gaps pays
  trail := by
    rw [keeps.moves]
    exact sound.trail
  cursor := by
    rw [keeps.moves, keeps.path, keeps.cursor]
    exact sound.cursor
  files := by
    rw [keeps.moves]
    intro path cursor held
    rcases keeps.files path cursor held with before | ⟨named, stands⟩
    · exact sound.files path cursor before
    · exact sound.cursor path cursor named stands
  absent := by
    rw [keeps.path, keeps.cursor]
    intro path named none
    by_contra present
    obtain ⟨cursor, held⟩ := Option.ne_none_iff_exists'.mp present
    rcases keeps.files path cursor held with before | ⟨_, stands⟩
    · rw [sound.absent path named none] at before
      exact nomatch before
    · rw [none] at stands
      exact nomatch stands
  progress := progress

theorem Sound.moved (sound : Sound setup init w) (moved : Moved setup w after) (pays : Pays setup w after)
    (progress : Progress setup after) : Sound setup init after := by
  obtain ⟨to_, timeMs, how, keeps, justified⟩ := moved
  have moves : after.moves = ⟨w.state.path, w.state.cursor, to_, how⟩ :: w.moves := keeps.moves
  have path : after.state.path = w.state.path := keeps.path
  have cursor : after.state.cursor = some to_ := keeps.cursor
  have here : ∀ named, w.state.path = some named → Reached init after.moves named to_ := by
    intro named same
    refine .inr ⟨⟨w.state.path, w.state.cursor, to_, how⟩, ?_, same, rfl⟩
    rw [moves]
    exact List.mem_cons_self
  refine ⟨?_, ?_, ?_, ?_, ?_, progress⟩
  · rw [moves]
    intro move member
    rcases List.mem_cons.mp member with rfl | before
    · exact justified
    · exact (sound.justified move before).mono keeps.folds keeps.gaps pays
  · rw [moves]
    exact ⟨sound.cursor, sound.trail⟩
  · rw [path, cursor]
    intro named held same stands
    cases stands
    exact here named same
  · intro other held found
    rcases keeps.files other held found with before | ⟨same, stands⟩
    · rw [moves]
      exact (sound.files other held before).older
    · cases stands
      exact here other same
  · rw [cursor]
    exact fun _ _ none => nomatch none

theorem Sound.arm (sound : Sound setup init w) (path : String) : Sound setup init (w.arm path) := by
  have cursor : (w.arm path).state.cursor = w.files path ∨
      w.state.path = some path ∧ w.state.cursor.isNone = false ∧
        (w.arm path).state.cursor = w.state.cursor := by
    simp only [World.arm]
    by_cases same : w.state.path = some path
    · cases stands : w.state.cursor with
      | none => exact .inl (by simp)
      | some held => exact .inr ⟨same, rfl, by simp [same]⟩
    · exact .inl (by simp [same])
  have named : (w.arm path).state.path = some path := rfl
  refine ⟨?_, sound.trail, ?_, sound.files, ?_, sound.progress⟩
  · intro move member
    exact (sound.justified move member).mono (fun _ held => held) (fun _ held => held)
      (fun _ _ _ _ owes => .inr owes)
  · intro other held found stands
    rw [named] at found
    cases found
    rcases cursor with read | ⟨same, _, kept⟩
    · rw [read] at stands
      exact sound.files path held stands
    · rw [kept] at stands
      exact sound.cursor path held same stands
  · intro other found none
    rw [named] at found
    cases found
    rcases cursor with read | ⟨_, some, kept⟩
    · rw [read] at none
      exact none
    · rw [kept] at none
      rw [none] at some
      exact nomatch some

theorem Sound.die (sound : Sound setup init w) (quiet : w.task.quiet) : Sound setup init w.die where
  justified := fun move member =>
    (sound.justified move member).mono (fun _ held => held) (fun _ held => held) (pays_of_idle quiet)
  trail := sound.trail
  cursor := fun _ _ named => nomatch named
  files := sound.files
  absent := fun _ named => nomatch named
  progress := True.intro

/-- The process does not die between a skip's cursor write and its last notice of the gap. -/
def Quietly (w : World Hash) (e : Event Hash) : Prop := e = .die → w.task.quiet

theorem Sound.step {e : Event Hash} (sound : Sound setup init w) (quietly : Quietly w e)
    (happens : step setup w e = some after) : Sound setup init after := by
  rcases step_cases happens sound.progress with ⟨path, rfl⟩ | ⟨dies, rfl⟩ | advances
  · exact sound.arm path
  · exact sound.die (quietly dies)
  · rcases advances.moves with keeps | moved
    · exact sound.kept keeps advances.pays advances.progress
    · exact sound.moved moved advances.pays advances.progress

/-- A cursor that changes under one file is moved, and the move is recorded. -/
theorem Sound.change {e : Event Hash} {path : String} (sound : Sound setup init w)
    (happens : Walk.step setup w e = some after) (before : w.state.path = some path)
    (same : after.state.path = some path) (changes : after.state.cursor ≠ w.state.cursor) :
    ∃ to_ how, after.state.cursor = some to_ ∧
      after.moves = ⟨some path, w.state.cursor, to_, how⟩ :: w.moves := by
  rcases step_cases happens sound.progress with ⟨armed, rfl⟩ | ⟨_, rfl⟩ | advances
  · cases Option.some.inj same
    refine absurd ?_ changes
    simp only [World.arm, before]
    cases stands : w.state.cursor with
    | none => simpa using sound.absent path before stands
    | some held => simp
  · exact nomatch same
  · rcases advances.moves with keeps | ⟨to_, timeMs, how, keeps, _⟩
    · exact absurd keeps.cursor changes
    · refine ⟨to_, how, keeps.cursor, ?_⟩
      rw [← before]
      exact keeps.moves

end Steps

section Held

variable [DecidableEq Hash]

/-- The run is over: the walk holds, or is about to wait. -/
def Task.stopped : Task Hash → Prop
  | .holding _ | .settling _ => True
  | _ => False

theorem stopped_step {e : Event Hash} (stopped : w.task.stopped) (happens : step setup w e = some after) :
    after.moves = w.moves ∧ (after.task.stopped ∨ after.task = .waiting) := by
  cases e with
  | arm path =>
    cases happens
    exact ⟨rfl, .inl stopped⟩
  | die =>
    cases happens
    exact ⟨rfl, .inr rfl⟩
  | hold io =>
    cases happens
    refine ⟨(hold_keeps w io).1.moves, .inl ?_⟩
    rw [(hold_keeps w io).2]
    exact stopped
  | poke =>
    cases happens
    exact ⟨rfl, .inl stopped⟩
  | socketPublished =>
    cases happens
    exact ⟨rfl, .inl stopped⟩
  | task io =>
    cases happens
    cases task : w.task with
    | holding run =>
      simp only [World.advance, task]
      exact ⟨(holdAt_keeps w io).moves, .inl True.intro⟩
    | settling run =>
      simp only [World.advance, task]
      exact ⟨rfl, .inr rfl⟩
    | _ =>
      rw [task] at stopped
      exact stopped.elim

/-- A run that is over moves nothing before the task waits again. -/
theorem stopped_run {events : List (Event Hash)} (stopped : w.task.stopped)
    (happens : Machine.run (step setup) w events = some after) :
    after.moves = w.moves ∨ ∃ first rest mid, events = first ++ rest ∧
      Machine.run (step setup) w first = some mid ∧ mid.task = .waiting ∧ mid.moves = w.moves := by
  induction events generalizing w with
  | nil =>
    cases happens
    exact .inl rfl
  | cons e rest ih =>
    obtain ⟨next, first, later⟩ := Machine.run_cons_some happens
    obtain ⟨same, ends⟩ := stopped_step stopped first
    rcases ends with on | waits
    · rcases ih on later with kept | ⟨early, late, mid, split, reached, waits, kept⟩
      · exact .inl (kept.trans same)
      · refine .inr ⟨e :: early, late, mid, by rw [split, List.cons_append], ?_, waits, kept.trans same⟩
        rw [Machine.run_cons, first]
        exact reached
    · refine .inr ⟨[e], rest, next, rfl, ?_, waits, same⟩
      rw [Machine.run_cons, first]
      rfl

end Held

section Runs

variable [DecidableEq Hash]

/-- A process start: nothing in memory, and the cursor files as they were left. -/
structure Begun (init : String → Option Hash) (w : World Hash) : Prop where
  state : w.state = .fresh
  task : w.task = .waiting
  files : w.files = init
  moves : w.moves = []
  folds : w.folds = []
  gaps : w.gaps = []

theorem Begun.sound (setup : Setup) (begun : Begun init w) : Sound setup init w where
  justified := by
    rw [begun.moves]
    exact fun _ member => nomatch member
  trail := by
    rw [begun.moves]
    exact True.intro
  cursor := by
    rw [begun.state]
    exact fun _ _ named => nomatch named
  files := by
    rw [begun.files]
    exact fun _ _ held => .inl held
  absent := by
    rw [begun.state]
    exact fun _ named => nomatch named
  progress := by
    unfold Progress
    rw [begun.task]
    exact True.intro

/-- A cursor that the file held at the start or a first seed gave, or that was reached from one by
    pages every matcher folded and by gaps every matcher is told of. -/
inductive Walked (setup : Setup) (init : String → Option Hash) (w : World Hash) (path : String) :
    Hash → Prop
  | file {cursor} : init path = some cursor → Walked setup init w path cursor
  | seed {cursor} : ⟨some path, none, cursor, .seed⟩ ∈ w.moves → Walked setup init w path cursor
  | fold {page : WalkPage Hash} {cursor} : Walked setup init w path page.start →
      ⟨some path, some page.start, cursor, .page page⟩ ∈ w.moves →
      page.last.map Prod.fst = some cursor → (∀ i < setup.matchers, (i, page) ∈ w.folds) →
      Walked setup init w path cursor
  | skip {was cursor} : Walked setup init w path was → ⟨some path, some was, cursor, .skip⟩ ∈ w.moves →
      Told setup w was cursor → Walked setup init w path cursor

theorem walked_of_reached {older : List (Move Hash)} {path : String} {cursor : Hash}
    (justified : ∀ move ∈ w.moves, Justified setup w move) (within : ∀ move ∈ older, move ∈ w.moves)
    (trail : Trail init older) (reached : Reached init older path cursor) :
    Walked setup init w path cursor := by
  induction older generalizing path cursor with
  | nil =>
    rcases reached with first | ⟨move, member, _⟩
    · exact .file first
    · exact nomatch member
  | cons last older ih =>
    obtain ⟨left, before⟩ := trail
    have earlier {path : String} {cursor : Hash} (reached : Reached init older path cursor) :
        Walked setup init w path cursor :=
      ih (fun move member => within move (List.mem_cons_of_mem _ member)) before reached
    rcases reached with first | ⟨move, member, named, rfl⟩
    · exact .file first
    · rcases List.mem_cons.mp member with rfl | member
      · have recorded := within move List.mem_cons_self
        have reason := justified move recorded
        obtain ⟨file, was, to_, how⟩ := move
        change file = some path at named
        subst named
        cases how with
        | page page =>
          obtain ⟨start, ends, folded⟩ := reason
          change was = some page.start at start
          subst start
          exact .fold (earlier (left path page.start rfl rfl)) recorded ends folded
        | seed =>
          change was = none at reason
          subst reason
          exact .seed recorded
        | skip =>
          obtain ⟨from_, start, told⟩ := reason
          change was = some from_ at start
          subst start
          exact .skip (earlier (left path from_ rfl rfl)) recorded told
      · exact earlier (.inr ⟨move, member, named, rfl⟩)

/-- What the walk promises of its committed cursor in a state a run has reached: every move is a page
    that every matcher folded, a first seed or a skip whose gap is told; the cursor in memory and the
    one on file were walked to; a change under one file is such a move; and a page that a matcher
    held moves nothing until the task waits again. -/
structure NothingSilent (setup : Setup) (init : String → Option Hash) (w : World Hash) : Prop where
  moves : ∀ move ∈ w.moves, Justified setup w move
  cursor : ∀ path cursor, w.state.path = some path → w.state.cursor = some cursor →
    Reached init w.moves path cursor ∧ Walked setup init w path cursor
  persisted : ∀ path cursor, w.files path = some cursor →
    Reached init w.moves path cursor ∧ Walked setup init w path cursor
  change : ∀ e after path, step setup w e = some after → w.state.path = some path →
    after.state.path = some path → after.state.cursor ≠ w.state.cursor →
      ∃ to_ how, after.state.cursor = some to_ ∧
        after.moves = ⟨some path, w.state.cursor, to_, how⟩ :: w.moves
  held : ∀ run page matcher io events after, w.task = .folding run page matcher → io.verdict = .held →
    Machine.run (step setup) w (.task io :: events) = some after →
      after.moves = w.moves ∨ ∃ first rest mid, events = first ++ rest ∧
        Machine.run (step setup) w (.task io :: first) = some mid ∧ mid.task = .waiting ∧
          mid.moves = w.moves

theorem Sound.nothingSilent (sound : Sound setup init w) : NothingSilent setup init w where
  moves := sound.justified
  cursor := by
    intro path cursor named stands
    have reached := sound.cursor path cursor named stands
    exact ⟨reached, walked_of_reached sound.justified (fun _ member => member) sound.trail reached⟩
  persisted := by
    intro path cursor held
    have reached := sound.files path cursor held
    exact ⟨reached, walked_of_reached sound.justified (fun _ member => member) sound.trail reached⟩
  change := fun _ _ _ => sound.change
  held := by
    intro run page matcher io events after task verdict happens
    have stops : Walk.step setup w (.task io) = some (w.goto (.holding run)) := by
      simp only [Walk.step, World.advance, task, verdict]
    rw [Machine.run_cons, stops] at happens
    have stopped : (w.goto (.holding run)).task.stopped := True.intro
    rcases stopped_run stopped happens with kept | ⟨first, rest, mid, split, reached, waits, kept⟩
    · exact .inl kept
    · refine .inr ⟨first, rest, mid, split, ?_, waits, kept⟩
      rw [Machine.run_cons, stops]
      exact reached

/-- Whatever arms, holds, answers, failures and restarts come, the walk skips nothing silently, as
    long as the process does not die with a skip's cursor written and its gap not yet told. -/
theorem walk_skips_nothing_silently {events : List (Event Hash)} {final : World Hash}
    (begun : Begun init w) (quietly : Machine.Meets (step setup) Quietly w events)
    (happens : Machine.run (step setup) w events = some final) : NothingSilent setup init final := by
  have sound : Sound setup init final :=
    Machine.run_invariant_meeting (fun _ _ _ sound quietly happens => sound.step quietly happens)
      (begun.sound setup) quietly happens
  exact sound.nothingSilent

section Example

def oneMatcher : Setup := ⟨1, fun error => error == "unknown"⟩

def answering (page : Except PageError (Response Nat)) : Event Nat :=
  .task ⟨0, 100, 0, some 5, page, none, .folded, false, true⟩

/-- The cursor file of store `a` at block `0`. -/
def launched : World Nat :=
  ⟨.fresh, .waiting, false, 0, fun path => if path = "a" then some 0 else none, [], [], []⟩

theorem launched_begun : Begun launched.files launched := ⟨rfl, rfl, rfl, rfl, rfl, rfl⟩

/-- Arm, read the mark `5`, and ask for the first page. -/
def untilAsked : List (Event Nat) :=
  .arm "a" :: List.replicate 7 (answering (.error .displaced))

def pageOne : Except PageError (Response Nat) := .ok ⟨[], [1, 2], [⟨some 1, none⟩, ⟨none, none⟩]⟩

/-- One page to block `1`, then a cursor that the node does not know: the walk lands on the mark and
    tells its matcher, and the process dies. -/
def foldThenSkip : List (Event Nat) :=
  untilAsked ++ List.replicate 7 (answering pageOne) ++
    .poke :: List.replicate 10 (answering (.error (.refused "unknown")))

theorem walk_skips_nothing_silently_foldThenSkip :
    ∃ final, Machine.run (step oneMatcher) launched (foldThenSkip ++ [.die, .arm "a"]) = some final ∧
      final.state.cursor = some 5 ∧ final.gaps = [(0, 1, 5)] ∧
        NothingSilent oneMatcher launched.files final := by
  refine ⟨_, rfl, rfl, rfl, ?_⟩
  refine walk_skips_nothing_silently launched_begun ?_
    (show Machine.run (step oneMatcher) launched (foldThenSkip ++ [.die, .arm "a"]) = some _ from rfl)
  apply Machine.meets_append
  · refine Machine.meets_of_forall ?_ launched
    intro e member w dies
    subst dies
    simp [foldThenSkip, untilAsked, answering] at member
  · intro next reached
    have waits : next.task = .waiting := by
      cases reached
      rfl
    refine ⟨fun _ => ?_, fun armed _ => ⟨fun dies => (nomatch dies), fun _ _ => True.intro⟩⟩
    rw [waits]
    exact fun _ _ _ owes => owes

/-- The node does not know the cursor, the walk lands on the mark and writes its file, and the
    process dies before it tells the gap. -/
def dieInSkip : List (Event Nat) :=
  untilAsked ++ List.replicate 2 (answering (.error (.refused "unknown"))) ++ [.die]

theorem die_in_skip_swallows_gap :
    ∃ final, Machine.run (step oneMatcher) launched dieInSkip = some final ∧
      final.files "a" = some 5 ∧ final.gaps = [] ∧ ¬ NothingSilent oneMatcher launched.files final := by
  refine ⟨_, rfl, rfl, rfl, ?_⟩
  intro silent
  obtain ⟨was, _, told⟩ := silent.moves ⟨some "a", some 0, 5, .skip⟩ List.mem_cons_self
  rcases told 0 Nat.zero_lt_one with said | owes
  · exact nomatch said
  · exact owes

end Example

end Runs

end Kaspaverse.Walk
