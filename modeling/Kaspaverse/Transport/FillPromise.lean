import Mathlib
import Kaspaverse.Transport.FillOrder
import Kaspaverse.Transport.FillPages

namespace Kaspaverse.Transport

open Machine

namespace FillRun

/-- The walk in hand: each row it has come past is pending, dealt with, or held under its floor. -/
structure Working (listing : List FillRow) (lane : Lane) (start : Nat) (stage : FillStage)
    (dealt holds : List (Lane × FillRow)) : Prop where
  pending : ∀ item ∈ stage.pending, start ≤ item.blockTime
  covers : ∀ row ∈ listing, start ≤ row.blockTime → row.blockTime < stage.reached →
    ∃ item, (item ∈ stage.pending ∨ (lane, item) ∈ dealt ∨ (lane, item) ∈ holds) ∧
      item.txId = row.txId ∧ item.blockTime ≤ row.blockTime
  held : ∀ item, (lane, item) ∈ holds → start ≤ item.blockTime ∧ ∃ floor ∈ stage.held, floor ≤ item.blockTime

/-- A pending row is dealt with, or held. -/
theorem Working.settles {listing : List FillRow} {lane : Lane} {start : Nat} {stage next : FillStage}
    {dealt dealt' holds holds' : List (Lane × FillRow)} (working : Working listing lane start stage dealt holds)
    (reached : next.reached = stage.reached) (fewer : ∀ item ∈ next.pending, item ∈ stage.pending)
    (accounts : ∀ item ∈ stage.pending, item ∈ next.pending ∨ (lane, item) ∈ dealt' ∨ (lane, item) ∈ holds')
    (dealing : ∀ entry ∈ dealt, entry ∈ dealt') (holding : ∀ entry ∈ holds, entry ∈ holds')
    (lower : ∀ floor ∈ stage.held, ∃ lower ∈ next.held, lower ≤ floor)
    (fresh : ∀ item, (lane, item) ∈ holds' → (lane, item) ∈ holds ∨
      item ∈ stage.pending ∧ ∃ floor ∈ next.held, floor ≤ item.blockTime) :
    Working listing lane start next dealt' holds' := by
  refine ⟨fun item member => working.pending item (fewer item member), ?_, ?_⟩
  · rw [reached]
    intro row listed above below
    obtain ⟨item, pending | before | before, same⟩ := working.covers row listed above below
    · exact ⟨item, accounts item pending, same⟩
    · exact ⟨item, .inr (.inl (dealing _ before)), same⟩
    · exact ⟨item, .inr (.inr (holding _ before)), same⟩
  · intro item member
    obtain before | ⟨pending, floor⟩ := fresh item member
    · obtain ⟨above, floor, held, below⟩ := working.held item before
      obtain ⟨lowest, held, under⟩ := lower floor held
      exact ⟨above, lowest, held, under.trans below⟩
    · exact ⟨working.pending item pending, floor⟩

/-- What a run's cursors promise of each lane it began: no row held above them is passed, and every row
    they have passed is dealt with. -/
structure Kept (listing : Lane → List FillRow) (run : FillRun) : Prop where
  gathers : ∀ lane start ceiling walker, run.stage = .walking lane start ceiling walker →
    Gathered (listing lane) start walker.cursor walker.items
  working : ∀ lane start, run.stage.lane = some (lane, start) →
    Working (listing lane) lane start run.stage run.dealt run.holds
  done : ∀ started ∈ run.starts, run.stage.lane ≠ some started →
    ∀ row ∈ listing started.1, started.2 ≤ row.blockTime → row.blockTime < run.cursors.cursorOf started.1 →
      ∃ item, (started.1, item) ∈ run.dealt ∧ item.txId = row.txId ∧ item.blockTime ≤ row.blockTime
  holds : ∀ entry ∈ run.holds, entry.1 ∈ run.begun ∧ run.cursors.cursorOf entry.1 ≤ entry.2.blockTime
  untouched : ∀ lane, lane ∉ run.begun → run.cursors.cursorOf lane = run.began.cursorOf lane
  cut : ∀ entry ∈ run.stage.cut, entry ∈ run.holds

theorem begin_kept (listing : Lane → List FillRow) (epoch : Nat) (cursors : FillCursors) (erasures : Nat)
    (lostClears : List (String × Nat)) : (FillRun.begin epoch cursors erasures lostClears).Kept listing := by
  constructor <;> simp [FillRun.begin, FillStage.lane, FillStage.cut]

/-- A run between two lanes moves on. -/
theorem Kept.moves_on {listing : Lane → List FillRow} {run next : FillRun} (kept : run.Kept listing)
    (idle : run.stage.lane = none) (idle' : next.stage.lane = none) (cursors : next.cursors = run.cursors)
    (began : next.began = run.began) (starts : next.starts = run.starts) (holds : next.holds = run.holds)
    (dealt : next.dealt = run.dealt) : next.Kept listing := by
  constructor
  · intro lane start ceiling walker stage
    rw [stage] at idle'
    cases idle'
  · intro lane start working
    rw [idle'] at working
    cases working
  · rw [starts, cursors, dealt]
    intro started member _
    apply kept.done started member
    rw [idle]
    exact Option.some_ne_none _ ∘ Eq.symm
  · rw [holds, begun, starts, cursors]
    exact kept.holds
  · rw [begun, starts, cursors, began]
    exact kept.untouched
  · intro entry member
    exact absurd idle' (cut_lane member)

/-- A lane that was not begun starts its walk. -/
theorem Kept.starts {listing : Lane → List FillRow} {run : FillRun} {lane : Lane} (kept : run.Kept listing)
    (idle : run.stage.lane = none) (fresh : lane ∉ run.begun) (now : Nat) : (run.startLane lane now).Kept listing := by
  constructor
  · intro other start ceiling walker stage
    cases stage
    refine ⟨le_refl _, fun item member => (by cases member), ?_⟩
    intro row listed above below
    exact absurd below (Nat.not_lt.mpr above)
  · intro other start working
    cases working
    refine ⟨fun item member => (by cases member), ?_, ?_⟩
    · intro row listed above below
      exact absurd below (Nat.not_lt.mpr above)
    · intro item member
      exact absurd (kept.holds _ member).1 fresh
  · intro started member away
    obtain rfl | before := List.mem_cons.mp member
    · exact absurd rfl away
    · apply kept.done started before
      rw [idle]
      exact Option.some_ne_none _ ∘ Eq.symm
  · intro entry member
    obtain ⟨before, above⟩ := kept.holds entry member
    exact ⟨List.mem_cons_of_mem _ before, above⟩
  · intro other away
    exact kept.untouched other fun before => away (List.mem_cons_of_mem _ before)
  · exact fun entry member => by cases member

/-- The walk in hand goes on. -/
theorem Kept.stays {listing : Lane → List FillRow} {run next : FillRun} {lane : Lane} {start : Nat}
    (kept : run.Kept listing) (climbs : run.Climbs) (ordered : run.Ordered)
    (working : run.stage.lane = some (lane, start)) (same : next.stage.lane = some (lane, start))
    (cursors : next.cursors = run.cursors) (began : next.began = run.began) (starts : next.starts = run.starts)
    (dealing : ∀ entry ∈ run.dealt, entry ∈ next.dealt)
    (holding : ∀ entry ∈ next.holds, entry ∈ run.holds ∨ entry.1 = lane)
    (goes : Working (listing lane) lane start next.stage next.dealt next.holds)
    (gathers : ∀ lane start ceiling walker, next.stage = .walking lane start ceiling walker →
      Gathered (listing lane) start walker.cursor walker.items)
    (cut : ∀ entry ∈ next.stage.cut, entry ∈ next.holds) : next.Kept listing := by
  have below := climbs.working (lane, start) working
  have member := ordered.working (lane, start) working
  refine ⟨gathers, ?_, ?_, ?_, ?_, cut⟩
  · intro other begin working
    rw [same] at working
    cases working
    exact goes
  · rw [starts, cursors, same]
    intro started among away row listed above under
    rw [← working] at away
    obtain ⟨item, dealt, same⟩ := kept.done started among away row listed above under
    exact ⟨item, dealing _ dealt, same⟩
  · rw [cursors, begun, starts]
    intro entry among
    obtain before | fresh := holding entry among
    · exact kept.holds entry before
    · obtain ⟨other, row⟩ := entry
      dsimp only at fresh
      subst fresh
      exact ⟨List.mem_map_of_mem member, below.trans (goes.held row among).1⟩
  · rw [begun, starts, cursors, began]
    exact kept.untouched

/-- The lane in hand closes: its cursor comes up to the walk's, or to its lowest held row. -/
theorem Kept.closes {listing : Lane → List FillRow} {run : FillRun} {lane : Lane} {start : Nat}
    {outcome : WalkOutcome} {held : HeldFloor} {stage : FillStage} (kept : run.Kept listing) (climbs : run.Climbs)
    (ordered : run.Ordered) (working : run.stage.lane = some (lane, start)) (reached : run.stage.reached = outcome.cursor)
    (floor : run.stage.held = held) (idle : stage.lane = none)
    (settled : held ≠ some 0 → ∀ item ∈ run.stage.pending, (lane, item) ∈ run.dealt ∨ (lane, item) ∈ run.holds) :
    (run.closeLane lane start outcome held stage).Kept listing := by
  have below := climbs.working (lane, start) working
  have member := ordered.working (lane, start) working
  have walk := kept.working lane start working
  have alone (started : Lane × Nat) (among : started ∈ run.starts) (same : started.1 = lane) :
      started = (lane, start) := List.inj_on_of_nodup_map ordered.once among member same
  have others (other : Lane) (away : other ≠ lane) :
      (run.closeLane lane start outcome held stage).cursors.cursorOf other = run.cursors.cursorOf other := by
    by_cases advances : start < held.resumeFrom outcome.cursor
    · simp only [FillRun.closeLane, if_pos advances]
      exact FillCursors.cursorOf_setCursor_of_ne _ _ away
    · simp only [FillRun.closeLane, if_neg advances]
  have own : (run.closeLane lane start outcome held stage).cursors.cursorOf lane ≤ start ∨
      (run.closeLane lane start outcome held stage).cursors.cursorOf lane = held.resumeFrom outcome.cursor := by
    by_cases advances : start < held.resumeFrom outcome.cursor
    · simp only [FillRun.closeLane, if_pos advances]
      exact .inr (FillCursors.cursorOf_setCursor_self _ _ _)
    · simp only [FillRun.closeLane, if_neg advances]
      exact .inl below
  refine ⟨?_, ?_, ?_, ?_, ?_, ?_⟩
  · intro lane start ceiling walker walking
    change stage = _ at walking
    rw [walking] at idle
    cases idle
  · intro other begin working
    change stage.lane = _ at working
    rw [idle] at working
    cases working
  · intro started among _ row listed above under
    by_cases same : started.1 = lane
    · have whole := alone started among same
      subst whole
      dsimp only at above under ⊢
      obtain low | resumes := own
      · omega
      · rw [resumes] at under
        have passed : row.blockTime < run.stage.reached := by
          have most := held.resumeFrom_le_cursor outcome.cursor
          omega
        obtain ⟨item, accounted, same⟩ := walk.covers row listed above passed
        have positive : held ≠ some 0 := by
          rintro rfl
          have none_passed := HeldFloor.resumeFrom_le (show 0 ∈ (some 0 : HeldFloor) from rfl) outcome.cursor
          omega
        have never : (lane, item) ∉ run.holds := by
          intro holding
          obtain ⟨_, lowest, inside, under'⟩ := walk.held item holding
          rw [floor] at inside
          have most := HeldFloor.resumeFrom_le inside outcome.cursor
          have order := same.2
          omega
        have dealt : (lane, item) ∈ run.dealt := by
          obtain pending | dealt | holding := accounted
          · exact (settled positive item pending).resolve_right never
          · exact dealt
          · exact absurd holding never
        exact ⟨item, dealt, same⟩
    · rw [others started.1 same] at under
      refine kept.done started among ?_ row listed above under
      rw [working]
      intro equal
      cases equal
      exact same rfl
  · intro entry among
    obtain ⟨before, above⟩ := kept.holds entry among
    refine ⟨before, ?_⟩
    by_cases same : entry.1 = lane
    · obtain ⟨other, row⟩ := entry
      dsimp only at same
      subst same
      obtain ⟨bound, lowest, inside, under⟩ := walk.held row among
      obtain low | resumes := own
      · exact low.trans bound
      · rw [resumes]
        rw [floor] at inside
        exact (HeldFloor.resumeFrom_le inside outcome.cursor).trans under
    · rw [others entry.1 same]
      exact above
  · intro other away
    have apart : other ≠ lane := by
      rintro rfl
      exact away (List.mem_map_of_mem member)
    rw [others other apart]
    exact kept.untouched other away
  · intro entry member
    exact absurd idle (cut_lane member)

/-- The page the lane in hand is to be answered with. -/
def answer (listing : Lane → List FillRow) (run : FillRun) : Option (List FillRow) :=
  match run.stage with
  | .walking lane _ _ walker => some (pageAt FillRow.blockTime PAGE_LIMIT walker.cursor (listing lane))
  | _ => none

theorem Kept.page {listing : Lane → List FillRow} {run next : FillRun} {answer : Except String (List FillRow)}
    (kept : run.Kept listing) (climbs : run.Climbs) (ordered : run.Ordered)
    (ascending : ∀ lane, (listing lane).Pairwise fun a b => a.blockTime ≤ b.blockTime)
    (served : ∀ rows, answer = .ok rows → ∀ page ∈ run.answer listing, rows = page)
    (paged : run.page answer = some next) : next.Kept listing := by
  unfold FillRun.page at paged
  split at paged
  · next lane start ceiling walker stage =>
    have working : run.stage.lane = some (lane, start) := by
      rw [stage]
      rfl
    have walk := kept.working lane start working
    have never : ∀ item, (lane, item) ∉ run.holds := by
      intro item member
      obtain ⟨_, floor, inside, _⟩ := walk.held item member
      rw [stage] at inside
      cases inside
    have served' : ∀ rows, answer = .ok rows →
        rows = pageAt FillRow.blockTime PAGE_LIMIT walker.cursor (listing lane) := by
      intro rows answered
      apply served rows answered
      rw [FillRun.answer, stage]
      rfl
    have goes (after : FillStage) (items : List FillRow) (cursor : Nat)
        (gathered : Gathered (listing lane) start cursor items) (pending : after.pending = items)
        (reached : after.reached = cursor) :
        Working (listing lane) lane start after run.dealt run.holds := by
      subst pending
      subst reached
      refine ⟨fun item member => (gathered.bounds item member).1, ?_, fun item member => absurd member (never item)⟩
      intro row listed above below
      obtain ⟨item, member, same⟩ := gathered.covers row listed above below
      exact ⟨item, .inl member, same⟩
    obtain ⟨after, gathered, pages | ⟨complete, error, pages⟩⟩ :=
      Walker.page_gathered ceiling (ascending lane) (kept.gathers lane start ceiling walker stage) served'
    · rw [pages] at paged
      cases paged
      refine kept.stays climbs ordered working rfl rfl rfl rfl (fun _ member => member) (fun _ => .inl)
        (goes _ _ _ gathered rfl rfl) ?_ fun _ member => by cases member
      intro lane start ceiling walker walking
      cases walking
      exact gathered
    · rw [pages] at paged
      cases paged
      by_cases stash : lane.kind = .stash
      · refine kept.stays climbs ordered working ?_ rfl rfl rfl (fun _ member => member) (fun _ => .inl) ?_ ?_ ?_
        · simp [stash, FillStage.lane]
        · rw [if_pos stash]
          exact goes _ _ _ gathered (by simp [FillStage.pending, Walker.finish]) rfl
        · simp [stash]
        · simp [stash, FillStage.cut]
      · refine kept.stays climbs ordered working ?_ rfl rfl rfl (fun _ member => member) (fun _ => .inl) ?_ ?_ ?_
        · simp [stash, FillStage.lane]
        · rw [if_neg stash]
          exact goes _ _ _ gathered rfl rfl
        · simp [stash]
        · simp [stash, FillStage.cut]
  · cases paged

theorem Kept.read {listing : Lane → List FillRow} {run next : FillRun} {read : StashRead}
    (kept : run.Kept listing) (climbs : run.Climbs) (ordered : run.Ordered)
    (opened : run.read read = some next) : next.Kept listing := by
  unfold FillRun.read at opened
  split at opened
  · next lane start outcome row left held newest stage =>
    have working : run.stage.lane = some (lane, start) := by
      rw [stage]
      rfl
    have walk := kept.working lane start working
    rw [stage] at walk
    have goes (held' : HeldFloor) (newest' : Option Backup) (holds dealt : List (Lane × FillRow))
        (dealing : ∀ entry ∈ run.dealt, entry ∈ dealt)
        (holding : ∀ entry ∈ holds, entry ∈ run.holds ∨ entry.1 = lane)
        (still : Working (listing lane) lane start (.opening lane start outcome left held' newest') dealt holds) :
        Kept listing { run with
          stage := .opening lane start outcome left held' newest', holds := holds, dealt := dealt } :=
      kept.stays climbs ordered working rfl rfl rfl rfl dealing holding still
        (fun _ _ _ _ walking => by cases walking) fun _ member => by cases member
    -- the row is dealt with, and what else is pending stays so
    have dealt : Kept listing { run with
        stage := .opening lane start outcome left held newest, dealt := (lane, row) :: run.dealt } := by
      apply goes held newest run.holds
      · exact fun _ member => List.mem_cons_of_mem _ member
      · exact fun _ => .inl
      · refine walk.settles rfl ?_ ?_ (fun _ member => List.mem_cons_of_mem _ member) (fun _ member => member)
          (fun floor inside => ⟨floor, inside, le_refl _⟩) fun _ => .inl
        · intro item member
          exact List.mem_cons_of_mem _ member
        · intro item member
          obtain rfl | later := List.mem_cons.mp member
          · exact .inr (.inl List.mem_cons_self)
          · exact .inl later
    split at opened
    · cases opened
      exact dealt
    · split at opened
      · split at opened
        · cases opened
          apply goes (held.hold row.blockTime) newest ((lane, row) :: run.holds)
          · exact fun _ member => member
          · intro entry member
            obtain rfl | before := List.mem_cons.mp member
            · exact .inr rfl
            · exact .inl before
          · refine walk.settles rfl ?_ ?_ (fun _ member => member) (fun _ member => List.mem_cons_of_mem _ member)
              (fun floor inside => HeldFloor.hold_lower inside row.blockTime) ?_
            · intro item member
              exact List.mem_cons_of_mem _ member
            · intro item member
              obtain rfl | later := List.mem_cons.mp member
              · exact .inr (.inr List.mem_cons_self)
              · exact .inl later
            · intro item member
              obtain same | before := List.mem_cons.mp member
              · cases same
                exact .inr ⟨List.mem_cons_self, held.hold_le row.blockTime⟩
              · exact .inl before
        · cases opened
          exact dealt
      · dsimp only at opened
        split at opened
        · cases opened
          apply goes held _ run.holds
          · exact fun _ member => List.mem_append_right _ member
          · exact fun _ => .inl
          · refine walk.settles rfl ?_ ?_ (fun _ member => List.mem_append_right _ member) (fun _ member => member)
              (fun floor inside => ⟨floor, inside, le_refl _⟩) fun _ => .inl
            · intro item member
              simp only [FillStage.pending, Option.map_some, Option.toList_some, List.mem_append, List.mem_cons,
                List.not_mem_nil, or_false] at member ⊢
              tauto
            · intro item member
              cases newest <;> simp [FillStage.pending] at member ⊢ <;> tauto
        · cases opened
          exact dealt
      · cases opened
  · cases opened

theorem check_keeps {stage checked : FillStage} (passes : stage.check = some checked) :
    checked.pending = stage.pending ∧ checked.held = stage.held ∧ checked.reached = stage.reached ∧
      checked.cut = stage.cut := by
  unfold FillStage.check at passes
  split at passes
  · cases passes
    exact ⟨rfl, rfl, rfl, rfl⟩
  · cases passes
    exact ⟨rfl, rfl, rfl, rfl⟩
  · next lane start outcome held newest =>
    cases passes
    refine ⟨rfl, rfl, rfl, ?_⟩
    cases newest <;> rfl
  · split at passes
    · cases passes
    · cases passes
      exact ⟨rfl, rfl, rfl, rfl⟩
  · cases passes

theorem Kept.check {listing : Lane → List FillRow} {run : FillRun} {checked : FillStage} (kept : run.Kept listing)
    (climbs : run.Climbs) (ordered : run.Ordered) (passes : run.stage.check = some checked) :
    Kept listing { run with stage := checked } := by
  obtain ⟨pending, held, reached, cut⟩ := check_keeps passes
  have lane := check_lane passes
  cases working : run.stage.lane with
  | none =>
    unfold FillStage.check at passes
    split at passes <;> first | (rename_i stage; rw [stage] at working; cases working) | cases passes
  | some worked =>
    have walk := kept.working worked.1 worked.2 working
    refine kept.stays climbs ordered working (lane.trans working) rfl rfl rfl (fun _ member => member) (fun _ => .inl)
      ?_ ?_ ?_
    · refine ⟨?_, ?_, ?_⟩
      · rw [pending]
        exact walk.pending
      · rw [pending, reached]
        exact walk.covers
      · rw [held]
        exact walk.held
    · intro lane start ceiling walker walking
      dsimp only at walking
      subst walking
      unfold FillStage.check at passes
      split at passes <;> first | cases passes | skip
      split at passes <;> cases passes
    · rw [cut]
      exact kept.cut

/-- The row a fold settles, or holds. -/
theorem Kept.foldRow {listing : Lane → List FillRow} {run : FillRun} {lane : Lane} {start : Nat}
    {outcome : WalkOutcome} {row : FillRow} {left : List FillRow} {held : HeldFloor} {checked : Bool}
    (kept : run.Kept listing) (climbs : run.Climbs) (ordered : run.Ordered)
    (stage : run.stage = .folding lane start outcome (row :: left) held checked) (folded : FoldOutcome) (moved : Bool) :
    Kept listing { run.settle lane row folded moved with
      stage := .folding lane start outcome left (if folded.holds then held.hold row.blockTime else held) false } := by
  have working : run.stage.lane = some (lane, start) := by
    rw [stage]
    rfl
  have walk := kept.working lane start working
  rw [stage] at walk
  have dealt : Working (listing lane) lane start (.folding lane start outcome left held false)
      ((lane, row) :: run.dealt) run.holds := by
    refine walk.settles rfl ?_ ?_ (fun _ member => List.mem_cons_of_mem _ member) (fun _ member => member)
      (fun floor inside => ⟨floor, inside, le_refl _⟩) fun _ => .inl
    · intro item member
      exact List.mem_cons_of_mem _ member
    · intro item member
      obtain rfl | later := List.mem_cons.mp member
      · exact .inr (.inl List.mem_cons_self)
      · exact .inl later
  have holding : Working (listing lane) lane start (.folding lane start outcome left (held.hold row.blockTime) false)
      run.dealt ((lane, row) :: run.holds) := by
    refine walk.settles rfl ?_ ?_ (fun _ member => member) (fun _ member => List.mem_cons_of_mem _ member)
      (fun floor inside => HeldFloor.hold_lower inside row.blockTime) ?_
    · intro item member
      exact List.mem_cons_of_mem _ member
    · intro item member
      obtain rfl | later := List.mem_cons.mp member
      · exact .inr (.inr List.mem_cons_self)
      · exact .inl later
    · intro item member
      obtain same | before := List.mem_cons.mp member
      · cases same
        exact .inr ⟨List.mem_cons_self, held.hold_le row.blockTime⟩
      · exact .inl before
  have here (entry : Lane × FillRow) (member : entry ∈ (lane, row) :: run.holds) : entry ∈ run.holds ∨ entry.1 = lane := by
    obtain rfl | before := List.mem_cons.mp member
    · exact .inr rfl
    · exact .inl before
  cases folded with
  | recorded =>
    exact kept.stays climbs ordered working rfl rfl rfl rfl (fun _ member => List.mem_cons_of_mem _ member)
      (fun _ => .inl) dealt (fun _ _ _ _ walking => by cases walking) fun _ member => by cases member
  | settled =>
    exact kept.stays climbs ordered working rfl rfl rfl rfl (fun _ member => List.mem_cons_of_mem _ member)
      (fun _ => .inl) dealt (fun _ _ _ _ walking => by cases walking) fun _ member => by cases member
  | held =>
    exact kept.stays climbs ordered working rfl rfl rfl rfl (fun _ member => member)
      here holding (fun _ _ _ _ walking => by cases walking) fun _ member => by cases member
  | locked =>
    exact kept.stays climbs ordered working rfl rfl rfl rfl (fun _ member => member)
      here holding (fun _ _ _ _ walking => by cases walking) fun _ member => by cases member

/-- A conversation of a backup that is held holds the whole lane. -/
theorem Kept.foldBackup {listing : Lane → List FillRow} {run : FillRun} {lane : Lane} {start : Nat}
    {outcome : WalkOutcome} {held : HeldFloor} {backup : Backup} {payload : SavedHandshakePayload}
    {left : List SavedHandshakePayload} (kept : run.Kept listing) (climbs : run.Climbs) (ordered : run.Ordered)
    (stage : run.stage = .restoring lane start outcome held backup (some (payload :: left)) true)
    (folded : FoldOutcome) (moved : Bool) :
    Kept listing { run.settleBackup lane backup.row folded moved with
      stage := .restoring lane start outcome (if folded.holds then held.hold 0 else held) backup (some left) false } := by
  have working : run.stage.lane = some (lane, start) := by
    rw [stage]
    rfl
  have walk := kept.working lane start working
  rw [stage] at walk
  have same : Working (listing lane) lane start (.restoring lane start outcome held backup (some left) false)
      run.dealt run.holds :=
    walk.settles rfl (fun _ member => member) (fun _ => .inl) (fun _ member => member) (fun _ member => member)
      (fun floor inside => ⟨floor, inside, le_refl _⟩) fun _ => .inl
  have holding : Working (listing lane) lane start
      (.restoring lane start outcome (held.hold 0) backup (some left) false) run.dealt ((lane, backup.row) :: run.holds) := by
    refine walk.settles rfl (fun _ member => member) (fun _ => .inl) (fun _ member => member)
      (fun _ member => List.mem_cons_of_mem _ member) (fun floor inside => HeldFloor.hold_lower inside 0) ?_
    intro item member
    obtain same | before := List.mem_cons.mp member
    · cases same
      obtain ⟨floor, inside, low⟩ := held.hold_le 0
      exact .inr ⟨List.mem_cons_self, floor, inside, low.trans (Nat.zero_le _)⟩
    · exact .inl before
  have cut (entry : Lane × FillRow) (member : entry ∈ run.stage.cut) : entry ∈ run.holds := kept.cut entry member
  rw [stage] at cut
  have here (entry : Lane × FillRow) (member : entry ∈ (lane, backup.row) :: run.holds) :
      entry ∈ run.holds ∨ entry.1 = lane := by
    obtain rfl | before := List.mem_cons.mp member
    · exact .inr rfl
    · exact .inl before
  cases folded with
  | recorded =>
    exact kept.stays climbs ordered working rfl rfl rfl rfl (fun _ member => member)
      (fun _ => .inl) same (fun _ _ _ _ walking => by cases walking) cut
  | settled =>
    exact kept.stays climbs ordered working rfl rfl rfl rfl (fun _ member => member)
      (fun _ => .inl) same (fun _ _ _ _ walking => by cases walking) cut
  | held =>
    exact kept.stays climbs ordered working rfl rfl rfl rfl (fun _ member => member)
      here holding (fun _ _ _ _ walking => by cases walking) fun entry member => List.mem_cons_of_mem _ (cut entry member)
  | locked =>
    exact kept.stays climbs ordered working rfl rfl rfl rfl (fun _ member => member)
      here holding (fun _ _ _ _ walking => by cases walking) fun entry member => List.mem_cons_of_mem _ (cut entry member)

/-- A cut walk restores nothing from the backup it saw, and holds at its start. -/
theorem Kept.cutShort {listing : Lane → List FillRow} {run : FillRun} {lane : Lane} {start : Nat}
    {outcome : WalkOutcome} {held : HeldFloor} {backup : Backup} (kept : run.Kept listing) (climbs : run.Climbs)
    (ordered : run.Ordered) (stage : run.stage = .opening lane start outcome [] held (some backup)) :
    Kept listing { run with
      stage := .covering lane start outcome (held.hold start) (some backup) false
      holds := (lane, backup.row) :: run.holds } := by
  have working : run.stage.lane = some (lane, start) := by
    rw [stage]
    rfl
  have walk := kept.working lane start working
  rw [stage] at walk
  refine kept.stays climbs ordered working rfl rfl rfl rfl (fun _ member => member) ?_ ?_
    (fun _ _ _ _ walking => by cases walking) ?_
  · intro entry member
    obtain rfl | before := List.mem_cons.mp member
    · exact .inr rfl
    · exact .inl before
  · refine walk.settles rfl (fun _ member => member) (fun _ => .inl) (fun _ member => member)
      (fun _ member => List.mem_cons_of_mem _ member) (fun floor inside => HeldFloor.hold_lower inside start) ?_
    intro item member
    obtain same | before := List.mem_cons.mp member
    · cases same
      have above := walk.pending backup.row List.mem_cons_self
      obtain ⟨floor, inside, low⟩ := held.hold_le start
      exact .inr ⟨List.mem_cons_self, floor, inside, low.trans above⟩
    · exact .inl before
  · intro entry member
    dsimp only [FillStage.cut] at member
    split at member
    · cases member
    · cases member
      exact List.mem_cons_self

/-- The lane goes on to its next stage with the rows it has. -/
theorem Kept.goes_on {listing : Lane → List FillRow} {run : FillRun} {lane : Lane} {start : Nat} {stage : FillStage}
    (kept : run.Kept listing) (climbs : run.Climbs) (ordered : run.Ordered)
    (working : run.stage.lane = some (lane, start)) (same : stage.lane = some (lane, start))
    (pending : stage.pending = run.stage.pending) (held : stage.held = run.stage.held)
    (reached : stage.reached = run.stage.reached) (walks : ∀ lane start ceiling walker, stage ≠ .walking lane start ceiling walker)
    (cut : ∀ entry ∈ stage.cut, entry ∈ run.stage.cut) : Kept listing { run with stage := stage } := by
  have walk := kept.working lane start working
  refine kept.stays climbs ordered working same rfl rfl rfl (fun _ member => member) (fun _ => .inl) ?_ ?_ ?_
  · refine ⟨?_, ?_, ?_⟩
    · rw [pending]
      exact walk.pending
    · rw [pending, reached]
      exact walk.covers
    · rw [held]
      exact walk.held
  · intro lane start ceiling walker walking
    exact absurd walking (walks lane start ceiling walker)
  · exact fun entry member => kept.cut entry (cut entry member)

theorem Move.kept {moved : Prop} [Decidable moved] {listing : Lane → List FillRow} {run next : FillRun}
    {event : FillEvent} (move : run.Move moved event next) (kept : run.Kept listing) (climbs : run.Climbs)
    (ordered : run.Ordered) (ascending : ∀ lane, (listing lane).Pairwise fun a b => a.blockTime ≤ b.blockTime)
    (served : ∀ rows, event = .page (.ok rows) → ∀ page ∈ run.answer listing, rows = page) : next.Kept listing := by
  have idle {stage : FillStage} (here : run.stage = stage) (between : stage.lane = none) : run.stage.lane = none := by
    rw [here]
    exact between
  have working {stage : FillStage} {worked : Lane × Nat} (here : run.stage = stage) (lane : stage.lane = some worked) :
      run.stage.lane = some worked := by
    rw [here]
    exact lane
  cases move with
  | askBackups owner now stage =>
    have asked : Kept listing { run with lanes := [⟨.stash, owner⟩] } :=
      kept.moves_on (idle stage rfl) (idle stage rfl) rfl rfl rfl rfl rfl
    apply asked.starts (idle stage rfl)
    rw [begun, (ordered.at_backups stage).1]
    exact List.not_mem_nil
  | failBackups e now stage => exact kept.moves_on (idle stage rfl) rfl rfl rfl rfl rfl rfl
  | lockBackups owner now lanes stage backups => exact kept.moves_on (idle stage rfl) rfl rfl rfl rfl rfl rfl
  | page paged =>
    refine kept.page climbs ordered ascending ?_ paged
    rintro rows rfl
    exact served rows rfl
  | read opened => exact kept.read climbs ordered opened
  | check passes still => exact kept.check climbs ordered passes
  | skipRow stage => exact kept.foldRow climbs ordered stage .settled false
  | foldBackup folded stage => exact kept.foldBackup climbs ordered stage folded _
  | foldRow folded stage => exact kept.foldRow climbs ordered stage folded _
  | coverNone write stage =>
    refine kept.closes climbs ordered (working stage rfl) (by rw [stage]; rfl) (by rw [stage]; rfl) rfl ?_
    rw [stage]
    exact fun _ item member => by cases member
  | @cover write lane start outcome held backup stage still =>
    have dealing : Kept listing { run with
        dealt := if outcome.complete && held ≠ some 0 then (lane, backup.row) :: run.dealt else run.dealt } := by
      have walk := kept.working lane start (working stage rfl)
      have more : ∀ entry ∈ run.dealt,
          entry ∈ if outcome.complete && held ≠ some 0 then (lane, backup.row) :: run.dealt else run.dealt := by
        intro entry member
        split
        · exact List.mem_cons_of_mem _ member
        · exact member
      refine kept.stays climbs ordered (working stage rfl) (working stage rfl) rfl rfl rfl more (fun _ => .inl) ?_ ?_
        kept.cut
      · exact walk.settles rfl (fun _ member => member) (fun _ => .inl) more (fun _ member => member)
          (fun floor inside => ⟨floor, inside, le_refl _⟩) fun _ => .inl
      · exact kept.gathers
    refine dealing.closes ?_ ?_ (working stage rfl) (by rw [stage]; rfl) (by rw [stage]; rfl) rfl ?_
    · exact ⟨climbs.floor, climbs.cursors, climbs.starts, climbs.working⟩
    · exact ordered.stays (working stage rfl) (working stage rfl) rfl rfl rfl rfl rfl Or.inl
    · intro positive item member
      dsimp only at member
      rw [stage] at member
      cases List.mem_singleton.mp member
      cases whole : outcome.complete with
      | true =>
        left
        simp [positive]
      | false =>
        right
        apply kept.cut
        rw [stage, FillStage.cut, whole]
        exact rfl
  | restore stage complete =>
    refine kept.goes_on climbs ordered (working stage rfl) rfl (by rw [stage]; rfl) (by rw [stage]; rfl)
      (by rw [stage]; rfl) (fun _ _ _ _ walking => by cases walking) ?_
    rw [FillStage.cut, if_pos complete]
    exact fun _ member => by cases member
  | cutShort stage cut => exact kept.cutShort climbs ordered stage
  | noBackup stage =>
    exact kept.goes_on climbs ordered (working stage rfl) rfl (by rw [stage]; rfl) (by rw [stage]; rfl)
      (by rw [stage]; rfl) (fun _ _ _ _ walking => by cases walking) fun _ member => by cases member
  | restored stage =>
    exact kept.goes_on climbs ordered (working stage rfl) rfl (by rw [stage]; rfl) (by rw [stage]; rfl)
      (by rw [stage]; rfl) (fun _ _ _ _ walking => by cases walking) (by rw [stage]; exact fun _ member => member)
  | closeLane stage =>
    refine kept.closes climbs ordered (working stage rfl) (by rw [stage]; rfl) (by rw [stage]; rfl) ?_ ?_
    · split <;> rfl
    · rw [stage]
      exact fun _ item member => by cases member
  | sweep stage distinct => exact kept.moves_on (idle stage rfl) rfl rfl rfl rfl rfl rfl
  | endAddresses live now stage spent => exact kept.moves_on (idle stage rfl) rfl rfl rfl rfl rfl rfl
  | @nextAddress now address left stage queued =>
    have asked : Kept listing { run with addresses := left } :=
      kept.moves_on (idle stage rfl) (idle stage rfl) rfl rfl rfl rfl rfl
    apply asked.starts (idle stage rfl)
    refine (ordered.fresh _ ?_).1
    simp [FillRun.queued, queued]
  | lockAddresses now stage some_left => exact kept.moves_on (idle stage rfl) rfl rfl rfl rfl rfl rfl
  | list stage distinct => exact kept.moves_on (idle stage rfl) rfl rfl rfl rfl rfl rfl
  | endConversations live now stage spent => exact kept.moves_on (idle stage rfl) rfl rfl rfl rfl rfl rfl
  | @nextConversation now swept left stage queued =>
    have asked : Kept listing { run with conversations := left } :=
      kept.moves_on (idle stage rfl) (idle stage rfl) rfl rfl rfl rfl rfl
    apply asked.starts (idle stage rfl)
    refine (ordered.fresh _ ?_).1
    simp [FillRun.queued, queued]
  | lockConversations now stage some_left => exact kept.moves_on (idle stage rfl) rfl rfl rfl rfl rfl rfl

/-- A run that reports complete has skipped no lane, holds nothing but in the lane in hand, and has drained
    every lane it was asked for but that one and those queued. -/
def Whole (run : FillRun) : Prop :=
  run.report.complete = true → run.skipped = [] ∧
    (∀ entry ∈ run.holds, ∃ start, run.stage.lane = some (entry.1, start)) ∧
    ∀ lane ∈ run.lanes, lane ∈ run.drained ∨ lane ∈ run.queued ∨ ∃ start, run.stage.lane = some (lane, start)

theorem begin_whole (epoch : Nat) (cursors : FillCursors) (erasures : Nat) (lostClears : List (String × Nat)) :
    (FillRun.begin epoch cursors erasures lostClears).Whole := by
  simp [Whole, FillRun.begin]

/-- The lane in hand stays, and only its own rows come to be held. -/
theorem Whole.stays {run next : FillRun} {worked : Lane × Nat} (whole : run.Whole)
    (working : run.stage.lane = some worked) (same : next.stage.lane = some worked)
    (complete : next.report.complete = run.report.complete) (skipped : next.skipped = run.skipped)
    (queued : next.queued = run.queued) (lanes : next.lanes = run.lanes) (drained : next.drained = run.drained)
    (holding : ∀ entry ∈ next.holds, entry ∈ run.holds ∨ entry.1 = worked.1) : next.Whole := by
  intro reports
  rw [complete] at reports
  obtain ⟨none_skipped, here, all⟩ := whole reports
  rw [working] at here all
  rw [skipped, same, lanes, drained, queued]
  refine ⟨none_skipped, ?_, all⟩
  intro entry member
  obtain before | fresh := holding entry member
  · exact here entry before
  · exact ⟨worked.2, by rw [fresh]⟩

/-- Between two lanes, what was asked for is drained or queued. -/
theorem Whole.moves_on {run next : FillRun} (whole : run.Whole) (idle : run.stage.lane = none)
    (complete : next.report.complete = true → run.report.complete = true) (skipped : next.skipped = run.skipped)
    (holds : next.holds = run.holds) (drained : next.drained = run.drained)
    (asks : ∀ lane ∈ next.lanes, lane ∈ run.lanes ∨ lane ∈ next.queued ∨ ∃ start, next.stage.lane = some (lane, start))
    (queued : ∀ lane ∈ run.queued, lane ∈ next.queued ∨ ∃ start, next.stage.lane = some (lane, start)) :
    next.Whole := by
  intro reports
  obtain ⟨none_skipped, here, all⟩ := whole (complete reports)
  rw [idle] at here all
  rw [skipped, holds, drained]
  refine ⟨none_skipped, ?_, ?_⟩
  · intro entry member
    obtain ⟨_, other⟩ := here entry member
    cases other
  · intro lane member
    obtain before | now := asks lane member
    · obtain done | left | ⟨_, other⟩ := all lane before
      · exact .inl done
      · exact .inr (queued lane left)
      · cases other
    · exact .inr now

theorem Kept.free {listing : Lane → List FillRow} {run : FillRun} {lane : Lane} {start : Nat}
    (kept : run.Kept listing) (working : run.stage.lane = some (lane, start)) (floor : run.stage.held = none)
    (item : FillRow) : (lane, item) ∉ run.holds := by
  intro member
  obtain ⟨_, lowest, inside, _⟩ := (kept.working lane start working).held item member
  rw [floor] at inside
  cases inside

theorem Whole.closes {run : FillRun} {lane : Lane} {start : Nat} {outcome : WalkOutcome} {held : HeldFloor}
    {stage : FillStage} (whole : run.Whole) (working : run.stage.lane = some (lane, start))
    (free : held = none → ∀ item, (lane, item) ∉ run.holds) :
    (run.closeLane lane start outcome held stage).Whole := by
  intro reports
  have drains : run.report.complete = true ∧ outcome.complete = true ∧ held = none := by
    simp only [FillRun.closeLane, FillReport.close] at reports
    split at reports
    · cases reports
    · next whole =>
      simp only [Bool.not_eq_true, Option.isSome_iff_ne_none, not_or, not_not, Bool.not_eq_false] at whole
      exact ⟨reports, whole⟩
  obtain ⟨reported, complete, floor⟩ := drains
  obtain ⟨none_skipped, here, all⟩ := whole reported
  rw [working] at here all
  have nothing : ∀ entry, entry ∉ run.holds := by
    intro entry member
    obtain ⟨_, same⟩ := here entry member
    cases same
    exact free floor entry.2 member
  refine ⟨none_skipped, fun entry member => absurd member (nothing entry), ?_⟩
  intro other member
  have drained : (run.closeLane lane start outcome held stage).drained = lane :: run.drained := by
    simp [FillRun.closeLane, complete, floor]
  rw [drained]
  obtain done | left | ⟨_, same⟩ := all other member
  · exact .inl (List.mem_cons_of_mem _ done)
  · exact .inr (.inl left)
  · cases same
    exact .inl List.mem_cons_self

theorem Whole.of_incomplete {run : FillRun} (incomplete : run.report.complete = false) : run.Whole := by
  intro complete
  rw [incomplete] at complete
  cases complete

theorem Whole.page {run next : FillRun} {answer : Except String (List FillRow)} (whole : run.Whole)
    (paged : run.page answer = some next) : next.Whole := by
  unfold FillRun.page at paged
  split at paged
  · next lane start ceiling walker stage =>
    have working : run.stage.lane = some (lane, start) := by
      rw [stage]
      rfl
    split at paged
    · cases paged
      exact whole.stays working rfl rfl rfl rfl rfl rfl fun _ => .inl
    · cases paged
      refine whole.stays working ?_ rfl rfl rfl rfl rfl fun _ => .inl
      dsimp only
      split <;> rfl
  · cases paged

theorem Whole.read {run next : FillRun} {read : StashRead} (whole : run.Whole)
    (opened : run.read read = some next) : next.Whole := by
  unfold FillRun.read at opened
  split at opened
  · next lane start outcome row left held newest stage =>
    have keeps (held' : HeldFloor) (newest' : Option Backup) (holds dealt : List (Lane × FillRow))
        (holding : ∀ entry ∈ holds, entry ∈ run.holds ∨ entry.1 = lane) :
        Whole { run with
          stage := .opening lane start outcome left held' newest', holds := holds, dealt := dealt } := by
      have working : run.stage.lane = some (lane, start) := by
        rw [stage]
        rfl
      exact whole.stays working rfl rfl rfl rfl rfl rfl holding
    split at opened
    · cases opened
      exact keeps _ _ _ _ fun _ => .inl
    · split at opened
      · split at opened
        · cases opened
          apply keeps
          intro entry member
          obtain rfl | before := List.mem_cons.mp member
          · exact .inr rfl
          · exact .inl before
        · cases opened
          exact keeps _ _ _ _ fun _ => .inl
      · dsimp only at opened
        split at opened <;> cases opened <;> exact keeps _ _ _ _ fun _ => .inl
      · cases opened
  · cases opened

theorem Move.whole {moved : Prop} [Decidable moved] {listing : Lane → List FillRow} {run next : FillRun}
    {event : FillEvent} (move : run.Move moved event next) (whole : run.Whole) (kept : run.Kept listing)
    (ordered : run.Ordered) : next.Whole := by
  have idle {stage : FillStage} (here : run.stage = stage) (between : stage.lane = none) : run.stage.lane = none := by
    rw [here]
    exact between
  have working {stage : FillStage} {worked : Lane × Nat} (here : run.stage = stage) (lane : stage.lane = some worked) :
      run.stage.lane = some worked := by
    rw [here]
    exact lane
  have now (entry : Lane × FillRow) (entry' : Lane × FillRow) (member : entry ∈ entry' :: run.holds) :
      entry ∈ run.holds ∨ entry.1 = entry'.1 := by
    obtain rfl | before := List.mem_cons.mp member
    · exact .inr rfl
    · exact .inl before
  cases move with
  | askBackups owner now stage =>
    obtain ⟨starts, skipped, addresses, conversations⟩ := ordered.at_backups stage
    refine whole.moves_on (idle stage rfl) (fun reports => reports) rfl rfl rfl ?_ ?_
    · intro lane member
      rw [List.mem_singleton.mp member]
      exact .inr (.inr ⟨_, rfl⟩)
    · simp [FillRun.queued, addresses, conversations]
  | failBackups e now stage => exact Whole.of_incomplete rfl
  | lockBackups owner now lanes stage backups => exact Whole.of_incomplete rfl
  | page paged => exact whole.page paged
  | read opened => exact whole.read opened
  | check passes still =>
    cases worked : run.stage.lane with
    | none =>
      exact whole.moves_on worked (fun reports => reports) rfl rfl rfl (fun _ => .inl) fun _ => .inl
    | some lane =>
      exact whole.stays worked ((check_lane passes).trans worked) rfl rfl rfl rfl rfl fun _ => .inl
  | skipRow stage => exact whole.stays (working stage rfl) rfl rfl rfl rfl rfl rfl fun _ => .inl
  | foldBackup folded stage =>
    cases folded with
    | recorded => exact whole.stays (working stage rfl) rfl rfl rfl rfl rfl rfl fun _ => .inl
    | settled => exact whole.stays (working stage rfl) rfl rfl rfl rfl rfl rfl fun _ => .inl
    | held => exact whole.stays (working stage rfl) rfl rfl rfl rfl rfl rfl fun entry => now entry _
    | locked => exact whole.stays (working stage rfl) rfl rfl rfl rfl rfl rfl fun entry => now entry _
  | foldRow folded stage =>
    cases folded with
    | recorded => exact whole.stays (working stage rfl) rfl rfl rfl rfl rfl rfl fun _ => .inl
    | settled => exact whole.stays (working stage rfl) rfl rfl rfl rfl rfl rfl fun _ => .inl
    | held => exact whole.stays (working stage rfl) rfl rfl rfl rfl rfl rfl fun entry => now entry _
    | locked => exact whole.stays (working stage rfl) rfl rfl rfl rfl rfl rfl fun entry => now entry _
  | coverNone write stage => exact whole.closes (working stage rfl) fun floor => kept.free (working stage rfl) (by rw [stage]; exact floor)
  | cover write stage still =>
    have dealing : Whole { run with dealt := _ } :=
      whole.stays (working stage rfl) (working stage rfl) rfl rfl rfl rfl rfl fun _ => .inl
    exact dealing.closes (working stage rfl) fun floor => kept.free (working stage rfl) (by rw [stage]; exact floor)
  | restore stage complete => exact whole.stays (working stage rfl) rfl rfl rfl rfl rfl rfl fun _ => .inl
  | cutShort stage cut => exact whole.stays (working stage rfl) rfl rfl rfl rfl rfl rfl fun entry => now entry _
  | noBackup stage => exact whole.stays (working stage rfl) rfl rfl rfl rfl rfl rfl fun _ => .inl
  | restored stage => exact whole.stays (working stage rfl) rfl rfl rfl rfl rfl rfl fun _ => .inl
  | closeLane stage => exact whole.closes (working stage rfl) fun floor => kept.free (working stage rfl) (by rw [stage]; exact floor)
  | sweep stage distinct =>
    have addresses := ordered.addresses (.inl (by rw [stage]; decide))
    have conversations := ordered.conversations (.inl (by rw [stage]; decide))
    refine whole.moves_on (idle stage rfl) (fun reports => reports) rfl rfl rfl ?_ ?_
    · intro lane member
      obtain asked | before := List.mem_append.mp member
      · exact .inr (.inl (List.mem_append_left _ asked))
      · exact .inl before
    · simp [FillRun.queued, addresses, conversations]
  | endAddresses live now stage spent =>
    exact whole.moves_on (idle stage rfl) (fun reports => reports) rfl rfl rfl (fun _ => .inl) fun _ => .inl
  | nextAddress now stage queued =>
    refine whole.moves_on (idle stage rfl) (fun reports => reports) rfl rfl rfl (fun _ => .inl) ?_
    intro lane member
    rw [FillRun.queued, queued] at member
    obtain rfl | later := List.mem_cons.mp member
    · exact .inr ⟨_, rfl⟩
    · exact .inl later
  | lockAddresses now stage some_left => exact Whole.of_incomplete rfl
  | list stage distinct =>
    have addresses := ordered.addresses (.inr stage)
    have conversations := ordered.conversations (.inl (by rw [stage]; decide))
    refine whole.moves_on (idle stage rfl) (fun reports => reports) rfl rfl rfl ?_ ?_
    · intro lane member
      obtain asked | before := List.mem_append.mp member
      · exact .inr (.inl (List.mem_append_right _ asked))
      · exact .inl before
    · simp [FillRun.queued, addresses, conversations]
  | endConversations live now stage spent =>
    exact whole.moves_on (idle stage rfl) (fun reports => reports) rfl rfl rfl (fun _ => .inl) fun _ => .inl
  | nextConversation now stage queued =>
    have addresses := ordered.addresses (.inl (by rw [stage]; decide))
    refine whole.moves_on (idle stage rfl) (fun reports => reports) rfl rfl rfl (fun _ => .inl) ?_
    intro lane member
    rw [FillRun.queued, queued, addresses] at member
    obtain rfl | later := List.mem_cons.mp member
    · exact .inr ⟨_, rfl⟩
    · exact .inl (List.mem_append_right _ later)
  | lockConversations now stage some_left => exact Whole.of_incomplete rfl

end FillRun

/-- A row anyone can have an archive serve: its alias routes nowhere, its claimed sender is not the
    contact, or no key of ours opens it. -/
def FillComm.Minted (comm : FillComm) : Prop :=
  comm.routed = none ∨ (∃ row ∈ comm.routed, row.contactAddress = "" ∨ comm.sender ≠ some row.contactAddress) ∨
    commOpened comm.bound comm.atBound comm.scan = .error .noKeyOpensIt

theorem commClaim_settles {refuted parked : Bool} {reason : DropReason}
    (refuses : commClaim .fill refuted parked = some reason) : reason.outcome.holds = false := by
  unfold commClaim at refuses
  cases refuted <;> cases parked <;> cases refuses <;> rfl

theorem commStored_settles {stored : Option MessageRecord} {reason : DropReason}
    (refuses : commStored .fill stored = .error reason) : reason.outcome.holds = false := by
  unfold commStored at refuses
  split at refuses
  · cases refuses
  · split at refuses <;> cases refuses
    rfl

theorem commRouted_settles {sender : Option String} {row : RoutedRow} {reason : DropReason}
    (refuses : commRouted .fill sender row = .error reason) : reason.outcome.holds = false := by
  unfold commRouted at refuses
  split at refuses
  · cases refuses
    rfl
  · split at refuses <;> cases refuses
    rfl

theorem commRouted_verdict {sender : Option String} {row : RoutedRow} {verdict : CommSenderVerdict}
    (routes : commRouted .fill sender row = .ok verdict) :
    commSenderVerdict .fill sender row.contactAddress = verdict := by
  unfold commRouted at routes
  split at routes
  · cases routes
  · split at routes <;> cases routes
    rfl

theorem commJudged_settles {verdict : CommSenderVerdict} {overrides parked : Bool} {reason : DropReason}
    (refuses : commJudged verdict overrides parked = some reason) : reason.outcome.holds = false := by
  cases verdict <;> simp only [commJudged] at refuses
  · cases refuses
  · cases refuses
    rfl
  · split at refuses <;> cases refuses
    rfl
  · split at refuses <;> cases refuses
    rfl

theorem fill_verdict {sender : Option String} {contactAddress : String}
    (wrong : contactAddress = "" ∨ sender ≠ some contactAddress) :
    commSenderVerdict .fill sender contactAddress = .notContact := by
  unfold commSenderVerdict
  cases sender with
  | none => rfl
  | some claimed =>
    have away : ¬(contactAddress ≠ "" ∧ claimed = contactAddress) := by
      rintro ⟨named, rfl⟩
      exact wrong.elim named fun other => other rfl
    simp [away]

theorem minted_comm_never_holds (comm : FillComm) (minted : comm.Minted) : (foldedTo comm.filed).holds = false := by
  unfold FillComm.filed
  cases claim : commClaim .fill comm.refuted comm.parked with
  | some reason => exact commClaim_settles claim
  | none =>
    cases stored : commStored .fill comm.stored with
    | error reason => exact commStored_settles stored
    | ok row =>
      cases head : comm.head with
      | false => rfl
      | true =>
        cases routed : comm.routed with
        | none => rfl
        | some row =>
          cases verdict : commRouted .fill comm.sender row with
          | error reason =>
            simp only [refuse, bind, Except.bind, Bool.true_eq_false, if_false, pure, Except.pure, verdict]
            exact commRouted_settles verdict
          | ok verdict' =>
            simp only [refuse, bind, Except.bind, Bool.true_eq_false, if_false, pure, Except.pure, verdict]
            cases judged : commJudged verdict' false false with
            | some reason => exact commJudged_settles judged
            | none =>
              have unopened : commOpened comm.bound comm.atBound comm.scan = .error .noKeyOpensIt := by
                obtain none_routed | ⟨other, route, wrong⟩ | unopened := minted
                · rw [routed] at none_routed
                  cases none_routed
                · rw [routed] at route
                  cases route
                  rw [← commRouted_verdict verdict, fill_verdict wrong] at judged
                  cases judged
                · exact unopened
              cases comm.envelope with
              | false => rfl
              | true =>
                rw [unopened]
                rfl

theorem handshake_never_holds (handshake : FillHandshake) (watched : handshake.watched = true)
    (unlocked : handshake.opened ≠ .error .vaultLocked) : (foldedTo handshake.filed).holds = false := by
  unfold FillHandshake.filed
  cases handshake.stored with
  | true => rfl
  | false =>
    rw [watched]
    cases handshake.envelope with
    | false => rfl
    | true =>
      cases opened : handshake.opened with
      | error e =>
        cases e with
        | vaultLocked => exact absurd opened unlocked
        | transportOpen => rfl
        | other what => rfl
      | ok slot =>
        cases handshake.payload with
        | false => rfl
        | true =>
          cases handshake.awaits with
          | some contact => rfl
          | none => cases handshake.known <;> rfl

theorem backup_never_holds (read : StashRead) (reason : DropReason) (drops : read.dropped = some reason)
    (unlocked : read ≠ .unopened .vaultLocked ∧ read ≠ .unverified .vaultLocked) : reason.outcome.holds = false := by
  have opens (e : OpenError) (other : e ≠ .vaultLocked) : (decryptDrop e).outcome.holds = false := by
    cases e with
    | vaultLocked => exact absurd rfl other
    | transportOpen => rfl
    | other what => rfl
  cases read with
  | unopened e =>
    cases drops
    exact opens e fun locked => unlocked.1 (by rw [locked])
  | unverified e =>
    cases drops
    exact opens e fun locked => unlocked.2 (by rw [locked])
  | snapshot snapshot => cases drops
  | _ =>
    cases drops
    rfl

/-- What a fill that ended promises of its lanes: no row it held is passed, every row it passed was dealt
    with, a lane it skipped kept its cursor, and a complete report leaves nothing behind. -/
structure FinishedRun.Promise (listing : Lane → List FillRow) (ended : FinishedRun) : Prop where
  holds : ∀ saved ∈ ended.saved, ∀ entry ∈ ended.run.holds, saved.cursorOf entry.1 ≤ entry.2.blockTime
  covers : ∀ saved ∈ ended.saved, ∀ started ∈ ended.run.starts, ∀ row ∈ listing started.1,
    started.2 ≤ row.blockTime → row.blockTime < saved.cursorOf started.1 →
      ∃ item, (started.1, item) ∈ ended.run.dealt ∧ item.txId = row.txId ∧ item.blockTime ≤ row.blockTime
  skipped : ∀ saved ∈ ended.saved, ∀ lane ∈ ended.run.skipped,
    saved.cursorOf lane = ended.run.began.cursorOf lane
  complete : ∀ report ∈ ended.report, report.complete = true →
    ended.run.skipped = [] ∧ ended.run.holds = [] ∧ ∀ lane ∈ ended.run.lanes, lane ∈ ended.run.drained

/-- The rows of an answered page. -/
def FillEvent.rows : FillEvent → Option (List FillRow)
  | .page (.ok rows) => some rows
  | _ => none

def FillEvent.erases : FillEvent → Bool
  | .erase _ _ => true
  | _ => false

namespace FillRun

/-- A run at its end has nothing queued and nothing in hand. -/
theorem Whole.at_end {run : FillRun} (whole : run.Whole) (ordered : run.Ordered) (stage : run.stage = .saving)
    (complete : run.report.complete = true) :
    run.skipped = [] ∧ run.holds = [] ∧ ∀ lane ∈ run.lanes, lane ∈ run.drained := by
  obtain ⟨skipped, here, all⟩ := whole complete
  have idle : run.stage.lane = none := by
    rw [stage]
    rfl
  have addresses := ordered.addresses (.inl (by rw [stage]; decide))
  have conversations := ordered.conversations (.inr stage)
  rw [idle] at here all
  refine ⟨skipped, ?_, ?_⟩
  · apply List.eq_nil_iff_forall_not_mem.mpr
    intro entry member
    obtain ⟨_, other⟩ := here entry member
    cases other
  · intro lane member
    obtain done | left | ⟨_, other⟩ := all lane member
    · exact done
    · simp [queued, addresses, conversations] at left
    · cases other

theorem Kept.saved {listing : Lane → List FillRow} {run : FillRun} (kept : run.Kept listing) (ordered : run.Ordered)
    (whole : run.Whole) (stage : run.stage = .saving) :
    FinishedRun.Promise listing ⟨run, some run.report, some run.cursors⟩ := by
  have idle : run.stage.lane = none := by
    rw [stage]
    rfl
  constructor
  · rintro saved ⟨⟩ entry member
    exact (kept.holds entry member).2
  · rintro saved ⟨⟩ started member
    apply kept.done started member
    rw [idle]
    exact Option.some_ne_none _ ∘ Eq.symm
  · rintro saved ⟨⟩ lane member
    exact kept.untouched lane (ordered.skipped lane member)
  · rintro report ⟨⟩ complete
    exact whole.at_end ordered stage complete

end FillRun

namespace FillState

/-- The server answers a page with the first rows at or above the cursor asked for. -/
def Served (server : Nat → Lane → List FillRow) (s : FillState) (event : FillEvent) : Prop :=
  ∀ rows ∈ event.rows, ∀ run ∈ s.run, ∀ page ∈ run.answer (server s.finished.length), rows = page

instance (server : Nat → Lane → List FillRow) (s : FillState) (event : FillEvent) : Decidable (Served server s event) :=
  inferInstanceAs (Decidable (∀ rows ∈ event.rows, ∀ run ∈ s.run,
    ∀ page ∈ run.answer (server s.finished.length), rows = page))

structure Promised (server : Nat → Lane → List FillRow) (s : FillState) : Prop where
  guarded : s.Guarded
  running : ∀ run ∈ s.run, run.Ordered ∧ run.Kept (server s.finished.length) ∧ run.Whole
  finished : ∀ place (ended : FinishedRun), s.finished[place]? = some ended → ended.Promise (server place)

section Steps

variable {server : Nat → Lane → List FillRow} {s next : FillState} {event : FillEvent}

theorem Promised.ends (promised : s.Promised server) (ended : FinishedRun)
    (promise : ended.Promise (server s.finished.length)) :
    ∀ place (other : FinishedRun), (s.finished ++ [ended])[place]? = some other → other.Promise (server place) := by
  intro place other found
  by_cases early : place < s.finished.length
  · rw [List.getElem?_append_left early] at found
    exact promised.finished place other found
  · rw [List.getElem?_append_right (Nat.le_of_not_lt early)] at found
    obtain ⟨here, same⟩ := List.getElem?_eq_some_iff.mp found
    have last : place = s.finished.length := by
      simp only [List.length_singleton] at here
      omega
    simp only [List.getElem_singleton] at same
    rw [last, ← same]
    exact promise

theorem unsaved_promise (listing : Lane → List FillRow) (run : FillRun) (report : Option FillReport)
    (complete : ∀ told ∈ report, told.complete = true →
      run.skipped = [] ∧ run.holds = [] ∧ ∀ lane ∈ run.lanes, lane ∈ run.drained) :
    FinishedRun.Promise listing ⟨run, report, none⟩ :=
  ⟨fun _ saved => (by cases saved), fun _ saved => (by cases saved), fun _ saved => (by cases saved), complete⟩

theorem Promised.step (promised : s.Promised server)
    (ascending : ∀ place lane, (server place lane).Pairwise fun a b => a.blockTime ≤ b.blockTime)
    (served : s.Served server event) (steps : s.step event = some next) : next.Promised server := by
  have guarded := promised.guarded.step steps
  have stepped (runs : (s.run.bind fun run => s.runStep run event) = some next) : next.Promised server := by
    obtain ⟨run, running, happens⟩ := Option.bind_eq_some_iff.mp runs
    obtain ⟨ordered, kept, whole⟩ := promised.running run running
    have climbs := (promised.guarded.running run running).fair.climbs
    have goes {after : FillRun} (move : run.Move (s.epoch ≠ run.epoch) event after) :
        after.Ordered ∧ after.Kept (server s.finished.length) ∧ after.Whole := by
      refine ⟨move.ordered ordered, move.kept kept climbs ordered (ascending _) ?_, move.whole whole kept ordered⟩
      rintro rows rfl page answer
      exact served rows rfl run running page answer
    have told (report : FillReport) (ends : report.complete = true → report = run.report ∧ run.stage = .saving) :
        ∀ told ∈ some report, told.complete = true →
          run.skipped = [] ∧ run.holds = [] ∧ ∀ lane ∈ run.lanes, lane ∈ run.drained := by
      rintro told ⟨⟩ complete
      obtain ⟨same, stage⟩ := ends complete
      exact whole.at_end ordered stage (same ▸ complete)
    cases runStep_ran happens with
    | moves after move =>
      refine ⟨guarded, ?_, promised.finished⟩
      rintro other ⟨⟩
      exact goes move
    | proves after stash move same =>
      refine ⟨guarded, ?_, promised.finished⟩
      rintro other ⟨⟩
      exact goes move
    | ends report complete =>
      refine ⟨guarded, fun _ running => (by cases running), promised.ends _ ?_⟩
      exact unsaved_promise _ _ _ (told report complete)
    | saves same stage =>
      exact ⟨guarded, fun _ running => (by cases running), promised.ends _ (kept.saved ordered whole stage)⟩
  cases event with
  | erase erasure write =>
    cases steps
    exact ⟨guarded, promised.running, promised.finished⟩
  | relaunch =>
    cases steps
    refine ⟨guarded, fun _ running => (by cases running), ?_⟩
    cases running : s.run with
    | none =>
      have same : s.finished ++ (Option.toList none).map (fun run => (⟨run, none, none⟩ : FinishedRun)) = s.finished :=
        List.append_nil _
      rw [same]
      exact promised.finished
    | some run => exact promised.ends _ (unsaved_promise _ _ _ fun _ told => by cases told)
  | dropStash =>
    cases steps
    exact ⟨guarded, promised.running, promised.finished⟩
  | backup state write =>
    cases steps
    cases write <;> exact ⟨guarded, promised.running, promised.finished⟩
  | begin =>
    simp only [FillState.step] at steps
    split at steps
    · cases steps
    · cases steps
      refine ⟨guarded, ?_, promised.finished⟩
      rintro run ⟨⟩
      exact ⟨FillRun.begin_ordered _ _ _ _, FillRun.begin_kept _ _ _ _ _, FillRun.begin_whole _ _ _ _⟩
  | _ => exact stepped steps

theorem cursorOf_le_step (guarded : s.Guarded) (keeps : event.erases = false) (steps : s.step event = some next)
    (lane : Lane) : s.cursors.cursorOf lane ≤ next.cursors.cursorOf lane := by
  have stepped (runs : (s.run.bind fun run => s.runStep run event) = some next) :
      s.cursors.cursorOf lane ≤ next.cursors.cursorOf lane := by
    obtain ⟨run, running, happens⟩ := Option.bind_eq_some_iff.mp runs
    have inStep := guarded.running run running
    cases runStep_ran happens with
    | moves after move => exact le_refl _
    | proves after stash move same => exact le_refl _
    | ends report complete => exact le_refl _
    | saves same stage =>
      change _ ≤ run.cursors.cursorOf lane
      rw [← (inStep.began (inStep.same_erasures same)).1]
      exact inStep.fair.climbs.cursors lane
  cases event with
  | erase erasure write => cases keeps
  | relaunch =>
    cases steps
    exact le_refl _
  | dropStash =>
    cases steps
    exact le_refl _
  | backup state write =>
    cases steps
    cases write <;> exact le_refl _
  | begin =>
    simp only [FillState.step] at steps
    split at steps <;> cases steps
    exact le_refl _
  | _ => exact stepped steps

/-- A fill ends with every lane it skipped where it was. -/
theorem skipped_keeps (promised : s.Promised server) (steps : s.step event = some next) {ended : FinishedRun}
    (ends : next.finished = s.finished ++ [ended]) {lane : Lane} (skipped : lane ∈ ended.run.skipped) :
    next.cursors.cursorOf lane = s.cursors.cursorOf lane := by
  have still (same : next.finished = s.finished) : next.cursors.cursorOf lane = s.cursors.cursorOf lane := by
    rw [same] at ends
    simp at ends
  have stepped (runs : (s.run.bind fun run => s.runStep run event) = some next) :
      next.cursors.cursorOf lane = s.cursors.cursorOf lane := by
    obtain ⟨run, running, happens⟩ := Option.bind_eq_some_iff.mp runs
    obtain ⟨ordered, kept, whole⟩ := promised.running run running
    have inStep := promised.guarded.running run running
    cases runStep_ran happens with
    | moves after move => rfl
    | proves after stash move same => rfl
    | ends report complete => rfl
    | saves same stage =>
      have whose : ended.run = run := by
        have last := List.append_cancel_left ends
        rw [← List.singleton_inj.mp last]
      rw [whose] at skipped
      change run.cursors.cursorOf lane = _
      rw [kept.untouched lane (ordered.skipped lane skipped), (inStep.began (inStep.same_erasures same)).1]
  cases event with
  | erase erasure write =>
    cases steps
    exact still rfl
  | relaunch =>
    cases steps
    rfl
  | dropStash =>
    cases steps
    rfl
  | backup state write =>
    cases steps
    cases write <;> rfl
  | begin =>
    simp only [FillState.step] at steps
    split at steps <;> cases steps
    rfl
  | _ => exact stepped steps

theorem launch_promised (server : Nat → Lane → List FillRow) (cursors : FillCursors) (stash : StashState) :
    (launch cursors stash).Promised server :=
  ⟨launch_guarded cursors stash, fun _ running => (by cases running), fun _ _ found => by cases found⟩

end Steps

theorem cursors_keep_their_promise (server : Nat → Lane → List FillRow)
    (ascending : ∀ place lane, (server place lane).Pairwise fun a b => a.blockTime ≤ b.blockTime)
    (cursors : FillCursors) (stash : StashState) (events : List FillEvent) (s : FillState)
    (ran : Machine.run step (launch cursors stash) events = some s)
    (served : Meets step (Served server) (launch cursors stash) events) :
    (∀ place (ended : FinishedRun), s.finished[place]? = some ended → ended.Promise (server place)) ∧
      (∀ event next, s.step event = some next →
        (event.erases = false → ∀ lane, s.cursors.cursorOf lane ≤ next.cursors.cursorOf lane) ∧
        ∀ ended : FinishedRun, next.finished = s.finished ++ [ended] → ∀ lane ∈ ended.run.skipped,
          next.cursors.cursorOf lane = s.cursors.cursorOf lane) ∧
      (∀ comm : FillComm, comm.Minted → (foldedTo comm.filed).holds = false) ∧
      (∀ handshake : FillHandshake, handshake.watched = true → handshake.opened ≠ .error .vaultLocked →
        (foldedTo handshake.filed).holds = false) ∧
      ∀ (read : StashRead) reason, read.dropped = some reason → read ≠ .unopened .vaultLocked →
        read ≠ .unverified .vaultLocked → reason.outcome.holds = false := by
  have promised : s.Promised server :=
    run_invariant_meeting (fun _ _ _ held met steps => held.step ascending met steps)
      (launch_promised server cursors stash) served ran
  refine ⟨promised.finished, ?_, minted_comm_never_holds, handshake_never_holds, ?_⟩
  · intro event next steps
    refine ⟨fun keeps lane => cursorOf_le_step promised.guarded keeps steps lane, ?_⟩
    intro ended ends lane skipped
    exact skipped_keeps promised steps ends skipped
  · intro read reason drops unopened unverified
    exact backup_never_holds read reason drops ⟨unopened, unverified⟩

/-- An archive that lists one transaction twice. -/
def twiceListed (_ : Nat) (lane : Lane) : List FillRow :=
  if lane = ⟨.handshakes, "mine"⟩ then
    [⟨"t", 1, "00", "friend"⟩, ⟨"t", 2, "00", "friend"⟩, ⟨"u", 3, "00", "friend"⟩]
  else []

def walkTwiceListed : List FillEvent :=
  [.begin, .backups true (.ok "own") 200, .page (.ok []), .close, .check, .cover .saved, .sweep (.ok ["mine"]),
    .lane true 200, .page (.ok (twiceListed 0 ⟨.handshakes, "mine"⟩)), .check, .fold .recorded, .check,
    .fold .recorded, .close, .lane true 200, .list [], .lane true 200, .save .saved]

theorem twiceListed_ascending (place : Nat) (lane : Lane) :
    (twiceListed place lane).Pairwise fun a b => a.blockTime ≤ b.blockTime := by
  unfold twiceListed
  split
  · decide
  · exact List.Pairwise.nil

theorem cursors_keep_their_promise_twice :
    ∃ s, Machine.run step (launch .empty .default) walkTwiceListed = some s ∧
      s.cursors.cursorOf ⟨.handshakes, "mine"⟩ = 3 ∧
      ∀ place (ended : FinishedRun), s.finished[place]? = some ended → ended.Promise (twiceListed place) := by
  have happens : ∃ s ∈ Machine.run step (launch .empty .default) walkTwiceListed,
      s.cursors.cursorOf ⟨.handshakes, "mine"⟩ = 3 := by
    decide +kernel
  obtain ⟨s, reached, saved⟩ := happens
  have served : Meets step (Served twiceListed) (launch .empty .default) walkTwiceListed := by
    decide +kernel
  exact ⟨s, reached, saved,
    (cursors_keep_their_promise twiceListed twiceListed_ascending _ _ _ s reached served).1⟩

/-- Each row below a saved cursor being dealt with itself is more than the walk does. -/
theorem one_listing_of_a_transaction_is_folded :
    ¬ ∀ (server : Nat → Lane → List FillRow),
      (∀ place lane, (server place lane).Pairwise fun a b => a.blockTime ≤ b.blockTime) →
      ∀ (cursors : FillCursors) (stash : StashState) (events : List FillEvent) (s : FillState),
        Machine.run step (launch cursors stash) events = some s →
        Meets step (Served server) (launch cursors stash) events →
        ∀ place (ended : FinishedRun), s.finished[place]? = some ended → ∀ saved ∈ ended.saved,
          ∀ started ∈ ended.run.starts, ∀ row ∈ server place started.1, started.2 ≤ row.blockTime →
            row.blockTime < saved.cursorOf started.1 →
              ∃ other ∈ s.finished, (started.1, row) ∈ other.run.dealt := by
  intro every
  have served : Meets step (Served twiceListed) (launch .empty .default) walkTwiceListed := by
    decide +kernel
  have happens : ∃ s ∈ Machine.run step (launch .empty .default) walkTwiceListed,
      (∃ ended ∈ s.finished[0]?, ∃ saved ∈ ended.saved,
        (⟨.handshakes, "mine"⟩, 0) ∈ ended.run.starts ∧ saved.cursorOf ⟨.handshakes, "mine"⟩ = 3) ∧
      ∀ other ∈ s.finished, (⟨.handshakes, "mine"⟩, ⟨"t", 2, "00", "friend"⟩) ∉ other.run.dealt := by
    decide +kernel
  obtain ⟨s, reached, ⟨ended, first, saved, wrote, starts, cursor⟩, never⟩ := happens
  obtain ⟨other, member, dealt⟩ := every twiceListed twiceListed_ascending _ _ _ s reached served 0 ended first saved
    wrote _ starts ⟨"t", 2, "00", "friend"⟩ (by decide) (by decide) (by rw [cursor]; decide)
  exact never other member dealt

end FillState

end Kaspaverse.Transport
