import Kaspaverse.Transport.FillMoves

namespace Kaspaverse.Transport

open Machine

namespace FillCursors

@[simp] theorem floorUnixMs_setCursor (cursors : FillCursors) (lane : Lane) (resume : Nat) :
    (cursors.setCursor lane resume).floorUnixMs = cursors.floorUnixMs := by
  obtain ⟨kind, key⟩ := lane
  cases kind <;> rfl

theorem cursorOf_setCursor_self (cursors : FillCursors) (lane : Lane) (resume : Nat) :
    (cursors.setCursor lane resume).cursorOf lane = resume := by
  obtain ⟨kind, key⟩ := lane
  cases kind <;> simp [cursorOf, lanes, setCursor]

theorem cursorOf_setCursor_of_ne (cursors : FillCursors) {lane other : Lane} (resume : Nat)
    (different : other ≠ lane) : (cursors.setCursor lane resume).cursorOf other = cursors.cursorOf other := by
  obtain ⟨kind, key⟩ := lane
  obtain ⟨otherKind, otherKey⟩ := other
  by_cases sameKind : otherKind = kind
  · subst sameKind
    have otherKeys : otherKey ≠ key := fun same => different (by rw [same])
    cases otherKind <;> simp [cursorOf, lanes, setCursor, AList.lookup_insert_ne otherKeys]
  · cases kind <;> cases otherKind <;> first | exact absurd rfl sameKind | rfl

theorem cursorOf_le_setCursor (cursors : FillCursors) {lane : Lane} {resume : Nat}
    (above : cursors.cursorOf lane ≤ resume) (other : Lane) :
    cursors.cursorOf other ≤ (cursors.setCursor lane resume).cursorOf other := by
  by_cases same : other = lane
  · subst same
    rw [cursorOf_setCursor_self]
    exact above
  · exact le_of_eq (cursorOf_setCursor_of_ne cursors resume same).symm

theorem startAt_mono {before after : FillCursors} (floor : after.floorUnixMs = before.floorUnixMs) {lane : Lane}
    (above : before.cursorOf lane ≤ after.cursorOf lane) : before.startAt lane ≤ after.startAt lane := by
  simp only [startAt, floor]
  exact max_le_max_right _ above

end FillCursors

namespace FillRun

/-- A run only raises the cursors it began with, and starts no lane below them. -/
structure Climbs (run : FillRun) : Prop where
  floor : run.cursors.floorUnixMs = run.began.floorUnixMs
  cursors : ∀ lane, run.began.cursorOf lane ≤ run.cursors.cursorOf lane
  starts : ∀ started ∈ run.starts, run.began.startAt started.1 ≤ started.2
  working : ∀ worked ∈ run.stage.lane, run.cursors.cursorOf worked.1 ≤ worked.2

/-- No comm lane started for a conversation of which a clear was lost. -/
def Spares (run : FillRun) : Prop :=
  ∀ started ∈ run.starts, started.1.kind = .comms → ∀ now, (started.1.key, now) ∉ run.lostClears

/-- A run records one row at most after an erase, and goes no further. -/
def Stops (run : FillRun) (moved : Prop) : Prop :=
  run.late ≤ 1 ∧ (run.late = 1 → moved ∧ run.stage.isChecked = false)

/-- What any step does to a run. -/
structure Follows (moved spared : Prop) (run next : FillRun) : Prop where
  epoch : next.epoch = run.epoch
  erasures : next.erasures = run.erasures
  began : next.began = run.began
  lostClears : next.lostClears = run.lostClears
  climbs : run.Climbs → next.Climbs
  spares : spared → run.Spares → next.Spares
  stops : run.Stops moved → next.Stops moved

theorem Climbs.of_same {run next : FillRun} (climbs : run.Climbs) (cursors : next.cursors = run.cursors)
    (began : next.began = run.began) (starts : next.starts = run.starts)
    (lane : ∀ worked ∈ next.stage.lane, worked ∈ run.stage.lane) : next.Climbs := by
  constructor
  · rw [cursors, began]
    exact climbs.floor
  · rw [cursors, began]
    exact climbs.cursors
  · rw [starts, began]
    exact climbs.starts
  · intro worked member
    rw [cursors]
    exact climbs.working worked (lane worked member)

/-- A step that moves no cursor, starts no lane and records nothing. -/
theorem Follows.of_same {moved spared : Prop} {run next : FillRun} (epoch : next.epoch = run.epoch)
    (erasures : next.erasures = run.erasures) (began : next.began = run.began)
    (lostClears : next.lostClears = run.lostClears) (cursors : next.cursors = run.cursors)
    (starts : next.starts = run.starts) (lane : ∀ worked ∈ next.stage.lane, worked ∈ run.stage.lane)
    (late : next.late = run.late)
    (checked : next.stage.isChecked = true → run.stage.isChecked = true ∨ ¬ moved) :
    run.Follows moved spared next := by
  refine ⟨epoch, erasures, began, lostClears, ?_, ?_, ?_⟩
  · intro climbs
    exact climbs.of_same cursors began starts lane
  · intro _ spares
    rw [Spares, starts, lostClears]
    exact spares
  · intro stops
    refine ⟨late ▸ stops.1, ?_⟩
    intro one
    obtain ⟨landed, unchecked⟩ := stops.2 (late ▸ one)
    refine ⟨landed, Bool.eq_false_iff.mpr ?_⟩
    intro isChecked
    obtain before | still := checked isChecked
    · rw [unchecked] at before
      cases before
    · exact still landed

theorem Follows.trans {moved spared : Prop} {run middle next : FillRun} (first : run.Follows moved spared middle)
    (rest : middle.Follows moved spared next) : run.Follows moved spared next where
  epoch := rest.epoch.trans first.epoch
  erasures := rest.erasures.trans first.erasures
  began := rest.began.trans first.began
  lostClears := rest.lostClears.trans first.lostClears
  climbs := rest.climbs ∘ first.climbs
  spares := fun spared => rest.spares spared ∘ first.spares spared
  stops := rest.stops ∘ first.stops

/-- A lane starts at its own cursor or the floor, whichever is higher. -/
theorem startLane_follows {moved spared : Prop} {run : FillRun} {lane : Lane} (now : Nat)
    (allowed : spared → lane.kind = .comms → ∀ time, (lane.key, time) ∉ run.lostClears) :
    run.Follows moved spared (run.startLane lane now) := by
  refine ⟨rfl, rfl, rfl, rfl, ?_, ?_, ?_⟩
  · intro climbs
    refine ⟨climbs.floor, climbs.cursors, ?_, ?_⟩
    · intro started member
      obtain rfl | earlier := List.mem_cons.mp member
      · exact FillCursors.startAt_mono climbs.floor (climbs.cursors lane)
      · exact climbs.starts started earlier
    · intro worked member
      cases member
      exact le_max_left _ _
  · intro spared spares started member
    obtain rfl | earlier := List.mem_cons.mp member
    · exact allowed spared
    · exact spares started earlier
  · intro stops
    exact ⟨stops.1, fun one => ⟨(stops.2 one).1, rfl⟩⟩

theorem skipLanes_follows {moved spared : Prop} (run : FillRun) (lanes : List Lane) {stage : FillStage}
    (idle : stage.lane = none) (unchecked : stage.isChecked = false) :
    run.Follows moved spared (run.skipLanes lanes stage) := by
  refine Follows.of_same rfl rfl rfl rfl rfl rfl ?_ rfl ?_
  · intro worked member
    rw [skipLanes, idle] at member
    cases member
  · intro checked
    rw [skipLanes, unchecked] at checked
    cases checked

/-- A finished lane keeps its cursor, or moves it past where its walk started. -/
theorem closeLane_follows {moved spared : Prop} {run : FillRun} {lane : Lane} {start : Nat}
    (working : (lane, start) ∈ run.stage.lane) (outcome : WalkOutcome) (held : HeldFloor) {stage : FillStage}
    (idle : stage.lane = none) (unchecked : stage.isChecked = false) :
    run.Follows moved spared (run.closeLane lane start outcome held stage) := by
  refine ⟨rfl, rfl, rfl, rfl, ?_, ?_, ?_⟩
  · intro climbs
    have below := climbs.working (lane, start) working
    have nothing : ∀ worked ∈ stage.lane, False := by
      intro worked member
      rw [idle] at member
      cases member
    by_cases advances : start < held.resumeFrom outcome.cursor
    · have above : run.cursors.cursorOf lane ≤ held.resumeFrom outcome.cursor :=
        below.trans (Nat.le_of_lt advances)
      refine ⟨?_, ?_, climbs.starts, fun worked member => (nothing worked member).elim⟩
      · simpa [closeLane, advances] using climbs.floor
      · intro other
        simp only [closeLane, if_pos advances]
        exact (climbs.cursors other).trans (run.cursors.cursorOf_le_setCursor above other)
    · refine ⟨?_, ?_, climbs.starts, fun worked member => (nothing worked member).elim⟩
      · simpa [closeLane, advances] using climbs.floor
      · simpa [closeLane, advances] using climbs.cursors
  · exact fun _ spares => spares
  · intro stops
    exact ⟨stops.1, fun one => ⟨(stops.2 one).1, unchecked⟩⟩

theorem page_follows {moved spared : Prop} {run next : FillRun} {answer : Except String (List FillRow)}
    (paged : run.page answer = some next) : run.Follows moved spared next := by
  unfold page at paged
  split at paged
  · next lane start ceiling walker walking =>
    split at paged
    · cases paged
      refine Follows.of_same rfl rfl rfl rfl rfl rfl ?_ rfl (fun checked => Bool.noConfusion checked)
      rw [walking]
      exact fun worked member => member
    · cases paged
      refine Follows.of_same rfl rfl rfl rfl rfl rfl ?_ rfl ?_
      · intro worked member
        rw [walking]
        dsimp only at member
        split at member <;> exact member
      · intro checked
        dsimp only at checked
        split at checked <;> cases checked
  · cases paged

theorem read_follows {moved spared : Prop} {run next : FillRun} {read : StashRead}
    (happens : run.read read = some next) : run.Follows moved spared next := by
  unfold FillRun.read at happens
  split at happens
  · next lane start outcome row left held newest opening =>
    have keeps (held' : HeldFloor) (newest' : Option Backup) (holds dealt : List (Lane × FillRow)) :
        run.Follows moved spared { run with
          stage := .opening lane start outcome left held' newest', holds := holds, dealt := dealt } := by
      refine Follows.of_same rfl rfl rfl rfl rfl rfl ?_ rfl (fun checked => Bool.noConfusion checked)
      rw [opening]
      exact fun worked member => member
    split at happens
    · cases happens
      exact keeps _ _ _ _
    · split at happens
      · split at happens <;> cases happens <;> exact keeps _ _ _ _
      · dsimp only at happens
        split at happens <;> cases happens <;> exact keeps _ _ _ _
      · cases happens
  · cases happens

/-- A fold that passed its check records one row, whatever landed meanwhile. -/
theorem folded_follows {moved spared : Prop} {run next : FillRun} (checked : run.stage.isChecked = true)
    (epoch : next.epoch = run.epoch) (erasures : next.erasures = run.erasures) (began : next.began = run.began)
    (lostClears : next.lostClears = run.lostClears) (cursors : next.cursors = run.cursors)
    (starts : next.starts = run.starts) (lane : ∀ worked ∈ next.stage.lane, worked ∈ run.stage.lane)
    (late : next.late = run.late ∨ (next.late = run.late + 1 ∧ moved))
    (unchecked : next.stage.isChecked = false) : run.Follows moved spared next := by
  refine ⟨epoch, erasures, began, lostClears, ?_, ?_, ?_⟩
  · intro climbs
    exact climbs.of_same cursors began starts lane
  · intro _ spares
    rw [Spares, starts, lostClears]
    exact spares
  · intro stops
    have none_yet : run.late = 0 := by
      have most := stops.1
      have not_one : run.late ≠ 1 := by
        intro one
        rw [(stops.2 one).2] at checked
        cases checked
      omega
    rw [none_yet] at late
    obtain late | ⟨late, landed⟩ := late
    · refine ⟨by omega, ?_⟩
      intro one
      omega
    · exact ⟨by omega, fun _ => ⟨landed, unchecked⟩⟩

theorem settle_follows {moved spared : Prop} [Decidable moved] {run : FillRun} (lane : Lane) (row : FillRow)
    (outcome : FoldOutcome) {stage : FillStage} (checked : run.stage.isChecked = true)
    (working : ∀ worked ∈ stage.lane, worked ∈ run.stage.lane) (unchecked : stage.isChecked = false) :
    run.Follows moved spared { run.settle lane row outcome (decide moved) with stage := stage } := by
  cases outcome with
  | recorded =>
    refine folded_follows checked rfl rfl rfl rfl rfl rfl working ?_ unchecked
    by_cases landed : moved
    · exact .inr ⟨by simp [settle, landed], landed⟩
    · exact .inl (by simp [settle, landed])
  | settled => exact folded_follows checked rfl rfl rfl rfl rfl rfl working (.inl rfl) unchecked
  | held => exact folded_follows checked rfl rfl rfl rfl rfl rfl working (.inl rfl) unchecked
  | locked => exact folded_follows checked rfl rfl rfl rfl rfl rfl working (.inl rfl) unchecked

theorem settleBackup_follows {moved spared : Prop} [Decidable moved] {run : FillRun} (lane : Lane) (row : FillRow)
    (outcome : FoldOutcome) {stage : FillStage} (checked : run.stage.isChecked = true)
    (working : ∀ worked ∈ stage.lane, worked ∈ run.stage.lane) (unchecked : stage.isChecked = false) :
    run.Follows moved spared { run.settleBackup lane row outcome (decide moved) with stage := stage } := by
  cases outcome with
  | recorded =>
    refine folded_follows checked rfl rfl rfl rfl rfl rfl working ?_ unchecked
    by_cases landed : moved
    · exact .inr ⟨by simp [settleBackup, landed], landed⟩
    · exact .inl (by simp [settleBackup, landed])
  | settled => exact folded_follows checked rfl rfl rfl rfl rfl rfl working (.inl rfl) unchecked
  | held => exact folded_follows checked rfl rfl rfl rfl rfl rfl working (.inl rfl) unchecked
  | locked => exact folded_follows checked rfl rfl rfl rfl rfl rfl working (.inl rfl) unchecked

end FillRun

/-- A sweep takes its next lane, and the vault is not locked. -/
def FillEvent.startsLane : FillEvent → Bool
  | .lane live _ => live
  | _ => false

namespace FillRun

/-- The lane a comm sweep starts next is not that of a conversation of which a clear was lost. -/
def SparesNext (run : FillRun) : Prop :=
  run.stage = .conversations → ∀ swept ∈ run.conversations.head?, ∀ lost ∈ run.lostClears,
    lost.1 ≠ swept.conversationId

instance (run : FillRun) : Decidable run.SparesNext :=
  inferInstanceAs (Decidable (run.stage = .conversations → ∀ swept ∈ run.conversations.head?,
    ∀ lost ∈ run.lostClears, lost.1 ≠ swept.conversationId))

theorem moved_on {moved spared : Prop} {run : FillRun} (report : FillReport) {stage : FillStage}
    (addresses : List String) (conversations : List Swept) (lanes : List Lane) (idle : stage.lane = none)
    (unchecked : stage.isChecked = false) :
    run.Follows moved spared { run with
      report := report, stage := stage, addresses := addresses, conversations := conversations, lanes := lanes } := by
  refine Follows.of_same rfl rfl rfl rfl rfl rfl ?_ rfl ?_
  · intro worked member
    rw [idle] at member
    cases member
  · intro checked
    rw [unchecked] at checked
    cases checked

theorem stayed {moved spared : Prop} {run : FillRun} {stage : FillStage} (holds dealt : List (Lane × FillRow))
    (working : ∀ worked ∈ stage.lane, worked ∈ run.stage.lane) (unchecked : stage.isChecked = false) :
    run.Follows moved spared { run with stage := stage, holds := holds, dealt := dealt } := by
  refine Follows.of_same rfl rfl rfl rfl rfl rfl working rfl ?_
  intro checked
  rw [unchecked] at checked
  cases checked

theorem noted {moved spared : Prop} {run : FillRun} (addresses : List String) (conversations : List Swept)
    (lanes : List Lane) (dealt : List (Lane × FillRow)) :
    run.Follows moved spared { run with
      addresses := addresses, conversations := conversations, lanes := lanes, dealt := dealt } :=
  Follows.of_same rfl rfl rfl rfl rfl rfl (fun _ member => member) rfl Or.inl

theorem check_lane {stage checked : FillStage} (passes : stage.check = some checked) : checked.lane = stage.lane := by
  unfold FillStage.check at passes
  split at passes
  · cases passes
    rfl
  · cases passes
    rfl
  · cases passes
    rfl
  · split at passes
    · cases passes
    · cases passes
      rfl
  · cases passes

theorem Move.follows {moved : Prop} [Decidable moved] {run next : FillRun} {event : FillEvent}
    (move : run.Move moved event next) : run.Follows moved (event.startsLane = true → run.SparesNext) next := by
  cases move with
  | askBackups owner now stage =>
    exact (noted _ _ _ _).trans (startLane_follows now fun _ other => nomatch other)
  | failBackups e now stage => exact moved_on _ _ _ _ rfl rfl
  | lockBackups owner now lanes stage backups => exact (noted _ _ _ _).trans (skipLanes_follows _ _ rfl rfl)
  | page paged => exact page_follows paged
  | read opened => exact read_follows opened
  | check passes still =>
    refine Follows.of_same rfl rfl rfl rfl rfl rfl ?_ rfl fun _ => .inr still
    intro worked member
    rw [← check_lane passes]
    exact member
  | skipRow stage => exact stayed _ _ (by rw [stage]; exact fun _ member => member) rfl
  | foldBackup folded stage =>
    exact settleBackup_follows _ _ _ (by rw [stage]; rfl) (by rw [stage]; exact fun _ member => member) rfl
  | foldRow folded stage =>
    exact settle_follows _ _ _ (by rw [stage]; rfl) (by rw [stage]; exact fun _ member => member) rfl
  | coverNone write stage => exact closeLane_follows (by rw [stage]; rfl) _ _ rfl rfl
  | cover write stage still =>
    refine (noted _ _ _ _).trans (closeLane_follows ?_ _ _ rfl rfl)
    rw [stage]
    rfl
  | restore stage complete => exact stayed _ _ (by rw [stage]; exact fun _ member => member) rfl
  | cutShort stage cut => exact stayed _ _ (by rw [stage]; exact fun _ member => member) rfl
  | noBackup stage => exact stayed _ _ (by rw [stage]; exact fun _ member => member) rfl
  | restored stage => exact stayed _ _ (by rw [stage]; exact fun _ member => member) rfl
  | closeLane stage =>
    refine closeLane_follows (by rw [stage]; rfl) _ _ ?_ ?_
    · split <;> rfl
    · split <;> rfl
  | sweep stage distinct => exact moved_on _ _ _ _ rfl rfl
  | endAddresses live now stage spent => exact moved_on _ _ _ _ rfl rfl
  | nextAddress now stage queued =>
    exact (noted _ _ _ _).trans (startLane_follows now fun _ other => nomatch other)
  | lockAddresses now stage some_left => exact (noted _ _ _ _).trans (skipLanes_follows _ _ rfl rfl)
  | list stage distinct => exact moved_on _ _ _ _ rfl rfl
  | endConversations live now stage spent => exact moved_on _ _ _ _ rfl rfl
  | nextConversation now stage queued =>
    refine (noted _ _ _ _).trans (startLane_follows now ?_)
    intro spares _ time lost
    refine spares rfl stage _ ?_ _ lost rfl
    rw [queued]
    exact rfl
  | lockConversations now stage some_left => exact (noted _ _ _ _).trans (skipLanes_follows _ _ rfl rfl)

end FillRun

namespace FillState

/-- Where a sweep takes its next lane, it is not that of a conversation of which a clear was lost. -/
def Spares (s : FillState) (event : FillEvent) : Prop :=
  event.startsLane = true → ∀ run ∈ s.run, run.SparesNext

instance (s : FillState) (event : FillEvent) : Decidable (s.Spares event) :=
  inferInstanceAs (Decidable (event.startsLane = true → ∀ run ∈ s.run, run.SparesNext))

end FillState

theorem lookup_foldl_erase (keys : List String) (map : KeyMap String Nat) (key : String) :
    (keys.foldl (fun map key => map.erase key) map).lookup key =
      if key ∈ keys then none else map.lookup key := by
  induction keys generalizing map with
  | nil => simp
  | cons first rest ih =>
    rw [List.foldl_cons, ih]
    by_cases same : key = first
    · subst same
      simp
    · simp [same, AList.lookup_erase_ne same]

namespace Erasure

theorem floor_le_mutate (erasure : Erasure) (cursors : FillCursors) :
    cursors.floorUnixMs ≤ (erasure.mutate cursors).floorUnixMs := by
  cases erasure with
  | wipe now => exact le_max_left _ _
  | clear conversationId now => exact le_refl _
  | block conversationIds => exact le_refl _

theorem clear_mutate_startAt (cursors : FillCursors) (conversationId : String) (now : Nat) (other : String) :
    ((Erasure.clear conversationId now).mutate cursors).startAt ⟨.comms, other⟩ =
      max (cursors.startAt ⟨.comms, other⟩) (if other = conversationId then now else 0) := by
  by_cases same : other = conversationId
  · subst same
    simp [mutate, FillCursors.startAt, FillCursors.cursorOf, FillCursors.lanes, max_comm, max_left_comm]
  · simp [mutate, FillCursors.startAt, FillCursors.cursorOf, FillCursors.lanes, same,
      AList.lookup_insert_ne same]

theorem block_mutate_startAt (cursors : FillCursors) {conversationIds : List String} {other : String}
    (spared : other ∉ conversationIds) :
    ((Erasure.block conversationIds).mutate cursors).startAt ⟨.comms, other⟩ =
      cursors.startAt ⟨.comms, other⟩ := by
  simp [mutate, FillCursors.startAt, FillCursors.cursorOf, FillCursors.lanes, lookup_foldl_erase, spared]

end Erasure

namespace FillState

def runs (s : FillState) : List FillRun := s.run.toList ++ s.finished.map FinishedRun.run

/-- What holds of every run, in flight or ended. -/
structure Fair (s : FillState) (run : FillRun) : Prop where
  erasures : run.erasures ≤ s.erasures
  climbs : run.Climbs
  late : run.late ≤ 1
  floors : ∀ sealed ∈ s.seals, sealed.place ≤ run.erasures → sealed.floor ≤ run.began.floorUnixMs
  cleared : ∀ sealed ∈ s.seals, sealed.place ≤ run.erasures →
    ∀ conversationId now, sealed.erasure = .clear conversationId now →
      now ≤ run.began.startAt ⟨.comms, conversationId⟩ ∨ (conversationId, now) ∈ run.lostClears

/-- The generation tells a run whether an erasure has landed since it read the cursors. -/
structure InStep (s : FillState) (run : FillRun) : Prop where
  fair : s.Fair run
  generation : s.epoch + run.erasures = run.epoch + s.erasures
  began : run.erasures = s.erasures → run.began = s.cursors ∧ run.lostClears = s.lostClears
  stops : run.Stops (s.epoch ≠ run.epoch)

structure Guarded (s : FillState) : Prop where
  seals : ∀ sealed ∈ s.seals, sealed.place ≤ s.erasures
  wiped : ∀ sealed ∈ s.seals, ∀ now, sealed.erasure = .wipe now → now ≤ sealed.floor
  floors : ∀ sealed ∈ s.seals, sealed.floor ≤ s.cursors.floorUnixMs
  cleared : ∀ sealed ∈ s.seals, ∀ conversationId now, sealed.erasure = .clear conversationId now →
    now ≤ s.cursors.startAt ⟨.comms, conversationId⟩ ∨ (conversationId, now) ∈ s.lostClears
  saves : ∀ saved ∈ s.saves, saved.savedAfter = saved.readAfter
  running : ∀ run ∈ s.run, s.InStep run
  finished : ∀ ended ∈ s.finished, s.Fair ended.run

theorem mem_clears {s : FillState} {conversationId : String} {now : Nat} :
    (conversationId, now) ∈ s.clears ↔ ∃ sealed ∈ s.seals, sealed.erasure = .clear conversationId now := by
  rw [clears, List.mem_filterMap]
  constructor
  · rintro ⟨⟨erasure, place⟩, member, found⟩
    cases erasure <;> cases found
    exact ⟨_, member, rfl⟩
  · rintro ⟨sealed, member, same⟩
    exact ⟨sealed, member, by rw [same]⟩

theorem InStep.same_erasures {s : FillState} {run : FillRun} (inStep : s.InStep run) (same : s.epoch = run.epoch) :
    run.erasures = s.erasures := by
  have := inStep.generation
  omega

theorem InStep.of_follows {s : FillState} {spared : Prop} {run next : FillRun} (inStep : s.InStep run)
    (follows : run.Follows (s.epoch ≠ run.epoch) spared next) : s.InStep next := by
  have stops := follows.stops inStep.stops
  refine ⟨⟨?_, follows.climbs inStep.fair.climbs, stops.1, ?_, ?_⟩, ?_, ?_, ?_⟩
  · rw [follows.erasures]
    exact inStep.fair.erasures
  · rw [follows.erasures, follows.began]
    exact inStep.fair.floors
  · rw [follows.erasures, follows.began, follows.lostClears]
    exact inStep.fair.cleared
  · rw [follows.erasures, follows.epoch]
    exact inStep.generation
  · rw [follows.erasures, follows.began, follows.lostClears]
    exact inStep.began
  · rw [follows.epoch]
    exact stops

theorem Fair.of_report {s : FillState} {run : FillRun} (fair : s.Fair run) (report : FillReport) :
    s.Fair { run with report := report } :=
  ⟨fair.erasures, ⟨fair.climbs.floor, fair.climbs.cursors, fair.climbs.starts, fair.climbs.working⟩, fair.late,
    fair.floors, fair.cleared⟩

theorem Fair.of_same {s next : FillState} {run : FillRun} (fair : s.Fair run) (erasures : next.erasures = s.erasures)
    (seals : next.seals = s.seals) : next.Fair run := by
  refine ⟨?_, fair.climbs, fair.late, ?_, ?_⟩
  · rw [erasures]
    exact fair.erasures
  · rw [seals]
    exact fair.floors
  · rw [seals]
    exact fair.cleared

theorem InStep.of_same {s next : FillState} {run : FillRun} (inStep : s.InStep run) (epoch : next.epoch = s.epoch)
    (erasures : next.erasures = s.erasures) (seals : next.seals = s.seals) (cursors : next.cursors = s.cursors)
    (lostClears : next.lostClears = s.lostClears) : next.InStep run := by
  refine ⟨inStep.fair.of_same erasures seals, ?_, ?_, ?_⟩
  · rw [epoch, erasures]
    exact inStep.generation
  · rw [erasures, cursors, lostClears]
    exact inStep.began
  · rw [epoch]
    exact inStep.stops

/-- A run in step that saves has read the cursors it writes over, and only raised them. -/
theorem Guarded.of_ran {s next : FillState} {event : FillEvent} {run : FillRun} (guarded : s.Guarded) (running : s.run = some run)
    (ran : s.Ran run event next) : next.Guarded := by
  have inStep := guarded.running run running
  have finishing (ended : FinishedRun) (fair : s.Fair ended.run) :
      ∀ other ∈ s.finished ++ [ended], s.Fair other.run := by
    intro other member
    obtain earlier | last := List.mem_append.mp member
    · exact guarded.finished other earlier
    · rw [List.mem_singleton.mp last]
      exact fair
  have saving (same : s.epoch = run.epoch) :
      ∀ saved ∈ (⟨run.erasures, s.erasures⟩ : FillSave) :: s.saves, saved.savedAfter = saved.readAfter := by
    intro saved member
    obtain rfl | earlier := List.mem_cons.mp member
    · exact (inStep.same_erasures same).symm
    · exact guarded.saves saved earlier
  cases ran with
  | moves after move =>
    refine ⟨guarded.seals, guarded.wiped, guarded.floors, guarded.cleared, guarded.saves, ?_, ?_⟩
    · intro run member
      cases member
      exact (inStep.of_follows move.follows).of_same rfl rfl rfl rfl rfl
    · exact fun ended member => (guarded.finished ended member).of_same rfl rfl
  | proves after stash move same =>
    refine ⟨guarded.seals, guarded.wiped, guarded.floors, guarded.cleared, saving same, ?_, ?_⟩
    · intro run member
      cases member
      exact (inStep.of_follows move.follows).of_same rfl rfl rfl rfl rfl
    · exact fun ended member => (guarded.finished ended member).of_same rfl rfl
  | ends report complete =>
    refine ⟨guarded.seals, guarded.wiped, guarded.floors, guarded.cleared, guarded.saves, fun _ member => (nomatch member), ?_⟩
    intro ended member
    exact (finishing ⟨{ run with report := report }, some report, none⟩ (inStep.fair.of_report report) ended member).of_same rfl rfl
  | saves same stage =>
    have erasures := inStep.same_erasures same
    obtain ⟨began, lostClears⟩ := inStep.began erasures
    have climbs := inStep.fair.climbs
    have placed (sealed : Seal) (member : sealed ∈ s.seals) : sealed.place ≤ run.erasures := by
      rw [erasures]
      exact guarded.seals sealed member
    refine ⟨guarded.seals, guarded.wiped, ?_, ?_, saving same, fun _ member => (nomatch member), ?_⟩
    · intro sealed member
      change sealed.floor ≤ run.cursors.floorUnixMs
      rw [climbs.floor]
      exact inStep.fair.floors sealed member (placed sealed member)
    · intro sealed member conversationId now clear
      change now ≤ run.cursors.startAt ⟨.comms, conversationId⟩ ∨ (conversationId, now) ∈ s.lostClears
      rw [← lostClears]
      obtain above | lost := inStep.fair.cleared sealed member (placed sealed member) conversationId now clear
      · exact .inl (above.trans (FillCursors.startAt_mono climbs.floor (climbs.cursors _)))
      · exact .inr lost
    · intro ended member
      exact (finishing ⟨run, some run.report, some run.cursors⟩ inStep.fair ended member).of_same rfl rfl

/-- A run that began before an erasure keeps what it owes to the earlier ones. -/
theorem Fair.sealErasure {s : FillState} {run : FillRun} (fair : s.Fair run) (erasure : Erasure)
    (write : DurableWrite) : (s.sealErasure erasure write).Fair run := by
  have earlier : ∀ sealed ∈ (s.sealErasure erasure write).seals, sealed.place ≤ run.erasures → sealed ∈ s.seals := by
    intro sealed member placed
    have before := fair.erasures
    simp only [FillState.sealErasure] at member
    split at member
    · obtain rfl | old := List.mem_cons.mp member
      · dsimp only at placed
        omega
      · exact old
    · exact member
  refine ⟨fair.erasures.trans (Nat.le_succ _), fair.climbs, fair.late, ?_, ?_⟩
  · intro sealed member placed
    exact fair.floors sealed (earlier sealed member placed) placed
  · intro sealed member placed
    exact fair.cleared sealed (earlier sealed member placed) placed

theorem InStep.sealErasure {s : FillState} {run : FillRun} (inStep : s.InStep run) (erasure : Erasure)
    (write : DurableWrite) : (s.sealErasure erasure write).InStep run := by
  have before := inStep.fair.erasures
  have generation := inStep.generation
  refine ⟨inStep.fair.sealErasure erasure write, ?_, ?_, ?_⟩
  · change s.epoch + 1 + run.erasures = run.epoch + (s.erasures + 1)
    omega
  · intro same
    change run.erasures = s.erasures + 1 at same
    omega
  · refine ⟨inStep.stops.1, fun one => ⟨?_, (inStep.stops.2 one).2⟩⟩
    change s.epoch + 1 ≠ run.epoch
    omega

/-- A durable clear is above its time after the erasure too, or lost to it. -/
theorem cleared_mutate {s : FillState} (guarded : s.Guarded) (erasure : Erasure) {conversationId : String}
    {now : Nat} (durable : (conversationId, now) ∈ s.clears) :
    now ≤ (erasure.mutate s.cursors).startAt ⟨.comms, conversationId⟩ ∨
      (conversationId, now) ∈ s.lost erasure (erasure.mutate s.cursors) := by
  obtain ⟨sealed, member, clear⟩ := mem_clears.mp durable
  have kept := guarded.cleared sealed member conversationId now clear
  cases erasure with
  | wipe time =>
    by_cases below : ((Erasure.wipe time).mutate s.cursors).floorUnixMs < now
    · right
      exact List.mem_filter.mpr ⟨List.mem_append_left _ durable, decide_eq_true below⟩
    · left
      exact (Nat.le_of_not_lt below).trans (le_max_right _ _)
  | clear other time =>
    rw [Erasure.clear_mutate_startAt]
    obtain above | lost := kept
    · exact .inl (above.trans (le_max_left _ _))
    · by_cases again : conversationId = other ∧ now ≤ time
      · left
        rw [if_pos again.1]
        exact again.2.trans (le_max_right _ _)
      · right
        apply List.mem_filter.mpr ⟨lost, ?_⟩
        simpa [imp_iff_not_or] using again
  | block conversationIds =>
    by_cases removed : conversationId ∈ conversationIds
    · by_cases below : s.cursors.floorUnixMs < now
      · right
        apply List.mem_append_left
        apply List.mem_filter.mpr ⟨durable, ?_⟩
        simp [removed, Erasure.mutate, below]
      · left
        exact (Nat.le_of_not_lt below).trans (le_max_right _ _)
    · rw [Erasure.block_mutate_startAt s.cursors removed]
      obtain above | lost := kept
      · exact .inl above
      · exact .inr (List.mem_append_right _ lost)

theorem Guarded.sealErasure {s : FillState} (guarded : s.Guarded) (erasure : Erasure) (write : DurableWrite) :
    (s.sealErasure erasure write).Guarded := by
  have sealing (sealed : Seal) (member : sealed ∈ (s.sealErasure erasure write).seals) :
      sealed ∈ s.seals ∨ (sealed = ⟨erasure, s.erasures + 1, (erasure.mutate s.cursors).floorUnixMs⟩ ∧ write = .saved) := by
    simp only [FillState.sealErasure] at member
    split at member
    · next saved =>
      subst saved
      obtain rfl | old := List.mem_cons.mp member
      · exact .inr ⟨rfl, rfl⟩
      · exact .inl old
    · exact .inl member
  refine ⟨?_, ?_, ?_, ?_, guarded.saves, ?_, ?_⟩
  · intro sealed member
    obtain old | ⟨rfl, _⟩ := sealing sealed member
    · exact (guarded.seals sealed old).trans (Nat.le_succ _)
    · exact le_refl _
  · intro sealed member now wipe
    obtain old | ⟨rfl, rfl⟩ := sealing sealed member
    · exact guarded.wiped sealed old now wipe
    · change erasure = .wipe now at wipe
      subst wipe
      exact le_max_right _ _
  · intro sealed member
    change sealed.floor ≤ (if write.lands = true then erasure.mutate s.cursors else s.cursors).floorUnixMs
    obtain old | ⟨rfl, rfl⟩ := sealing sealed member
    · have before := guarded.floors sealed old
      split
      · exact before.trans (erasure.floor_le_mutate _)
      · exact before
    · exact le_refl _
  · intro sealed member conversationId now clear
    change now ≤ (if write.lands = true then erasure.mutate s.cursors else s.cursors).startAt ⟨.comms, conversationId⟩ ∨
      (conversationId, now) ∈ if write.lands = true then
        s.lost erasure (if write.lands = true then erasure.mutate s.cursors else s.cursors) else s.lostClears
    obtain old | ⟨rfl, rfl⟩ := sealing sealed member
    · split
      · exact cleared_mutate guarded erasure (mem_clears.mpr ⟨sealed, old, clear⟩)
      · exact guarded.cleared sealed old conversationId now clear
    · change erasure = .clear conversationId now at clear
      left
      change now ≤ (erasure.mutate s.cursors).startAt ⟨.comms, conversationId⟩
      rw [clear, Erasure.clear_mutate_startAt, if_pos rfl]
      exact le_max_right _ _
  · intro run running
    exact (guarded.running run running).sealErasure erasure write
  · intro ended member
    exact (guarded.finished ended member).sealErasure erasure write

theorem begin_inStep {s : FillState} (guarded : s.Guarded) :
    s.InStep (.begin s.epoch s.cursors s.erasures s.lostClears) := by
  refine ⟨⟨le_refl _, ⟨rfl, fun _ => le_refl _, fun _ member => (nomatch member), fun _ member => (nomatch member)⟩,
    Nat.zero_le _, ?_, ?_⟩, rfl, fun _ => ⟨rfl, rfl⟩, Nat.zero_le _, ?_⟩
  · exact fun sealed member _ => guarded.floors sealed member
  · exact fun sealed member _ => guarded.cleared sealed member
  · exact fun one => nomatch one

theorem Guarded.of_stash {s : FillState} (guarded : s.Guarded) (stash : StashState) :
    Guarded { s with stash := stash } := by
  refine ⟨guarded.seals, guarded.wiped, guarded.floors, guarded.cleared, guarded.saves, ?_, ?_⟩
  · exact fun run running => (guarded.running run running).of_same rfl rfl rfl rfl rfl
  · exact fun ended member => (guarded.finished ended member).of_same rfl rfl

theorem Guarded.step {s next : FillState} {event : FillEvent} (guarded : s.Guarded)
    (steps : s.step event = some next) : next.Guarded := by
  have stepped (runs : (s.run.bind fun run => s.runStep run event) = some next) : next.Guarded := by
    obtain ⟨run, running, happens⟩ := Option.bind_eq_some_iff.mp runs
    exact guarded.of_ran running (runStep_ran happens)
  cases event with
  | erase erasure write =>
    cases steps
    exact guarded.sealErasure erasure write
  | relaunch =>
    cases steps
    refine ⟨guarded.seals, guarded.wiped, guarded.floors, guarded.cleared, guarded.saves, fun _ member => (nomatch member), ?_⟩
    intro ended member
    obtain earlier | last := List.mem_append.mp member
    · exact (guarded.finished ended earlier).of_same rfl rfl
    · obtain ⟨run, running, rfl⟩ := List.mem_map.mp last
      exact (guarded.running run (Option.mem_toList.mp running)).fair.of_same rfl rfl
  | dropStash =>
    cases steps
    exact guarded.of_stash _
  | backup state write =>
    cases steps
    cases write with
    | saved => exact guarded.of_stash _
    | kept => exact guarded
    | torn => exact guarded.of_stash _
  | begin =>
    simp only [FillState.step] at steps
    split at steps
    · cases steps
    · cases steps
      refine ⟨guarded.seals, guarded.wiped, guarded.floors, guarded.cleared, guarded.saves, ?_, ?_⟩
      · intro run running
        cases running
        exact (begin_inStep guarded).of_same rfl rfl rfl rfl rfl
      · exact fun ended member => (guarded.finished ended member).of_same rfl rfl
  | _ => exact stepped steps

theorem launch_guarded (cursors : FillCursors) (stash : StashState) : (launch cursors stash).Guarded := by
  refine ⟨?_, ?_, ?_, ?_, ?_, ?_, ?_⟩ <;> exact fun _ member => (nomatch member)

theorem floor_le_step {s next : FillState} {event : FillEvent} (guarded : s.Guarded)
    (steps : s.step event = some next) : s.cursors.floorUnixMs ≤ next.cursors.floorUnixMs := by
  have stepped (runs : (s.run.bind fun run => s.runStep run event) = some next) :
      s.cursors.floorUnixMs ≤ next.cursors.floorUnixMs := by
    obtain ⟨run, running, happens⟩ := Option.bind_eq_some_iff.mp runs
    have inStep := guarded.running run running
    cases runStep_ran happens with
    | moves after move => exact le_refl _
    | proves after stash move same => exact le_refl _
    | ends report complete => exact le_refl _
    | saves same stage =>
      change s.cursors.floorUnixMs ≤ run.cursors.floorUnixMs
      rw [inStep.fair.climbs.floor, (inStep.began (inStep.same_erasures same)).1]
  cases event with
  | erase erasure write =>
    cases steps
    change s.cursors.floorUnixMs ≤ (if write.lands = true then erasure.mutate s.cursors else s.cursors).floorUnixMs
    split
    · exact erasure.floor_le_mutate _
    · exact le_refl _
  | relaunch =>
    cases steps
    exact le_refl _
  | dropStash =>
    cases steps
    exact le_refl _
  | backup state write =>
    cases steps
    cases write <;> exact le_refl _
  | begin =>
    simp only [FillState.step] at steps
    split at steps <;> cases steps
    exact le_refl _
  | _ => exact stepped steps

def Spared (s : FillState) : Prop := ∀ run ∈ s.runs, run.Spares

theorem Spared.of_runs {s next : FillState} (spared : s.Spared) (same : ∀ run ∈ next.runs, run ∈ s.runs) :
    next.Spared :=
  fun run member => spared run (same run member)

theorem Spared.step {s next : FillState} {event : FillEvent} (spared : s.Spared) (spares : s.Spares event)
    (steps : s.step event = some next) : next.Spared := by
  have stepped (runs : (s.run.bind fun run => s.runStep run event) = some next) : next.Spared := by
    obtain ⟨run, running, happens⟩ := Option.bind_eq_some_iff.mp runs
    have before : run.Spares := spared run (List.mem_append_left _ (Option.mem_toList.mpr running))
    have ended (other : FillRun) (member : other ∈ s.finished.map FinishedRun.run) : other.Spares :=
      spared other (List.mem_append_right _ member)
    cases runStep_ran happens with
    | moves after move =>
      intro other member
      obtain rfl | earlier := List.mem_cons.mp member
      · exact move.follows.spares (fun starts => spares starts run running) before
      · exact ended other earlier
    | proves after stash move same =>
      intro other member
      obtain rfl | earlier := List.mem_cons.mp member
      · exact move.follows.spares (fun starts => spares starts run running) before
      · exact ended other earlier
    | ends report complete =>
      intro other member
      change other ∈ (s.finished ++ [_]).map FinishedRun.run at member
      rw [List.map_append] at member
      obtain earlier | last := List.mem_append.mp member
      · exact ended other earlier
      · rw [List.mem_singleton.mp last]
        exact before
    | saves same stage =>
      intro other member
      change other ∈ (s.finished ++ [_]).map FinishedRun.run at member
      rw [List.map_append] at member
      obtain earlier | last := List.mem_append.mp member
      · exact ended other earlier
      · rw [List.mem_singleton.mp last]
        exact before
  cases event with
  | erase erasure write =>
    cases steps
    exact spared
  | relaunch =>
    cases steps
    refine spared.of_runs ?_
    intro run member
    have among : run ∈ s.finished.map FinishedRun.run ++ s.run.toList := by
      simpa [runs, List.map_append] using member
    exact List.mem_append.mpr (List.mem_append.mp among).symm
  | dropStash =>
    cases steps
    exact spared
  | backup state write =>
    cases steps
    cases write <;> exact spared
  | begin =>
    simp only [FillState.step] at steps
    split at steps <;> cases steps
    intro run member
    obtain rfl | earlier := List.mem_cons.mp member
    · exact fun _ member => (nomatch member)
    · exact spared run (List.mem_append_right _ earlier)
  | _ => exact stepped steps

/-- What no fill undoes: it saves only what it read after the last erasure; a run that began after a wipe
    or a clear starts no lane below it; and one that was under way records one row at most. -/
structure Durable (s : FillState) : Prop where
  saves : ∀ saved ∈ s.saves, saved.savedAfter = saved.readAfter
  wiped : ∀ sealed ∈ s.seals, ∀ now, sealed.erasure = .wipe now → now ≤ sealed.floor ∧
    ∀ run ∈ s.runs, sealed.place ≤ run.erasures → ∀ started ∈ run.starts, sealed.floor ≤ started.2
  cleared : ∀ sealed ∈ s.seals, ∀ conversationId now, sealed.erasure = .clear conversationId now →
    ∀ run ∈ s.runs, sealed.place ≤ run.erasures →
      ∀ started ∈ run.starts, started.1 = ⟨.comms, conversationId⟩ → now ≤ started.2
  late : ∀ run ∈ s.runs, run.late ≤ 1

theorem Guarded.durable {s : FillState} (guarded : s.Guarded) (spared : s.Spared) : s.Durable := by
  have fair : ∀ run ∈ s.runs, s.Fair run := by
    intro run member
    obtain running | ended := List.mem_append.mp member
    · exact (guarded.running run (Option.mem_toList.mp running)).fair
    · obtain ⟨last, among, rfl⟩ := List.mem_map.mp ended
      exact guarded.finished last among
  refine ⟨guarded.saves, ?_, ?_, fun run member => (fair run member).late⟩
  · intro sealed durable now wipe
    refine ⟨guarded.wiped sealed durable now wipe, ?_⟩
    intro run member placed started starts
    calc sealed.floor ≤ run.began.floorUnixMs := (fair run member).floors sealed durable placed
      _ ≤ run.began.startAt started.1 := le_max_right _ _
      _ ≤ started.2 := (fair run member).climbs.starts started starts
  · intro sealed durable conversationId now clear run member placed started starts same
    obtain above | lost := (fair run member).cleared sealed durable placed conversationId now clear
    · rw [← same] at above
      exact above.trans ((fair run member).climbs.starts started starts)
    · have kept := spared run member started starts (by rw [same]) now
      rw [same] at kept
      exact absurd lost kept

theorem erased_history_stays_erased (cursors : FillCursors) (stash : StashState) (events later : List FillEvent)
    (s final : FillState) (ran : Machine.run step (launch cursors stash) events = some s)
    (goes : Machine.run step s later = some final)
    (spares : Meets step Spares (launch cursors stash) (events ++ later)) :
    final.Durable ∧ s.cursors.floorUnixMs ≤ final.cursors.floorUnixMs := by
  have guarded : s.Guarded :=
    run_invariant (fun _ _ _ held steps => held.step steps) (launch_guarded cursors stash) ran
  have spared : final.Spared := by
    refine run_invariant_meeting (fun _ _ _ held met steps => held.step met steps) ?_ spares
      (by rw [run_append, ran, Option.bind_some, goes])
    intro run member
    cases member
  have keeps (before : FillState) (event : FillEvent) (after : FillState)
      (held : before.Guarded ∧ s.cursors.floorUnixMs ≤ before.cursors.floorUnixMs)
      (steps : before.step event = some after) :
      after.Guarded ∧ s.cursors.floorUnixMs ≤ after.cursors.floorUnixMs :=
    ⟨held.1.step steps, held.2.trans (floor_le_step held.1 steps)⟩
  have kept := run_invariant keeps ⟨guarded, le_refl _⟩ goes
  exact ⟨kept.1.durable spared, kept.2⟩

def clearedThenBlocked : List FillEvent :=
  [.erase (.clear "talk" 100) .saved, .erase (.block ["talk"]) .saved, .begin,
    .backups true (.ok "own") 200, .page (.ok []), .close, .check, .cover .saved, .sweep (.ok []), .lane true 200,
    .list [⟨"talk", "friend", "alias"⟩], .lane true 200]

theorem block_loses_a_clear :
    ¬ ∀ (cursors : FillCursors) (stash : StashState) (events : List FillEvent) (s : FillState),
      Machine.run step (launch cursors stash) events = some s → s.Durable := by
  intro stays
  have happens : ∃ s ∈ Machine.run step (launch .empty .default) clearedThenBlocked,
      ∃ sealed ∈ s.seals, ∃ run ∈ s.runs, sealed.erasure = .clear "talk" 100 ∧ sealed.place ≤ run.erasures ∧
        (⟨.comms, "talk"⟩, 0) ∈ run.starts := by
    decide +kernel
  obtain ⟨s, reached, sealed, durable, run, member, clear, placed, starts⟩ := happens
  have above := (stays _ _ _ s reached).cleared sealed durable "talk" 100 clear run member placed _ starts rfl
  exact absurd above (by decide)

/-- A wipe under way of a fill that has one row left to fold, and a whole fill after it. -/
def wipedMidway : List FillEvent :=
  [.begin, .backups true (.ok "own") 200, .page (.ok []), .close, .check, .cover .saved, .sweep (.ok ["mine"]),
    .lane true 200, .page (.ok [⟨"t", 50, "00", "friend"⟩, ⟨"u", 60, "00", "friend"⟩]), .check]

def wipeAndRefill : List FillEvent :=
  [.erase (.wipe 100) .saved, .fold .recorded, .check, .begin, .backups true (.ok "own") 200, .page (.ok []), .close,
    .check, .cover .saved, .sweep (.ok []), .lane true 200, .list [⟨"talk", "friend", "alias"⟩], .lane true 200]

theorem erased_history_stays_erased_midway :
    ∃ s final, Machine.run step (launch .empty .default) wipedMidway = some s ∧
      Machine.run step s wipeAndRefill = some final ∧ final.Durable ∧ final.cursors.floorUnixMs = 100 := by
  have happens : ∃ s ∈ Machine.run step (launch .empty .default) wipedMidway,
      ∃ final ∈ Machine.run step s wipeAndRefill, final.cursors.floorUnixMs = 100 := by
    decide +kernel
  obtain ⟨s, reached, final, later, floor⟩ := happens
  have spares : Meets step Spares (launch .empty .default) (wipedMidway ++ wipeAndRefill) := by
    decide +kernel
  exact ⟨s, final, reached, later, (erased_history_stays_erased _ _ _ _ s final reached later spares).1, floor⟩

end FillState

end Kaspaverse.Transport
