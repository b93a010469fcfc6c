import Mathlib
import Kaspaverse.Link.Hunt

namespace Kaspaverse.Link

namespace DagMonitor

variable {s next : DagMonitor}

/-- How the socket a swap hunt runs behind stands to it. -/
def Leaves (s : DagMonitor) (bind : BoundSocket) : SwapWhy → Prop
  | .asked => True
  | .silent gen _ asked => gen = bind.gen ∧ asked ≤ s.swapsAsked
  | .moved gen asked _ => gen = bind.gen ∧ s.networkMovedUnder bind = true ∧ asked ≤ s.swapsAsked

/-- Whatever is bound while a swap hunt is under way is the socket it set out to leave. -/
def Behind (s : DagMonitor) (mode : RaceMode) : Prop :=
  ∀ incumbent why bind, mode = .swap incumbent why → s.bound = some bind →
    bind.announced = true ∧ bind.url = incumbent ∧ s.Leaves bind why

/-- A hunt that the loop's head will make another one. -/
def Recast (s : DagMonitor) (mode : RaceMode) : Prop :=
  (s.joinedByTap mode).isSome = true ∨ (s.recastIfMoved mode).isSome = true

structure Hunts (s : DagMonitor) (hunt : Hunt) : Prop where
  holds : ∀ winner stale, hunt.place = .holding winner stale → winner ∉ roundExclusions [] hunt.mode
  dials : ∀ gen bind, hunt.place = .dialing gen → s.bound = some bind → bind.gen = gen
  behind : (∀ gen, hunt.place ≠ .dialing gen) → s.Behind hunt.mode
  races : hunt.place = .racing → hunt.mode ≠ .cold → hunt.emptyRounds < SWAP_HUNT_ROUNDS
  pauses : hunt.place = .pausing → hunt.mode ≠ .cold → s.isConnected = true →
    hunt.emptyRounds < SWAP_HUNT_ROUNDS ∨ s.Recast hunt.mode

/-- A socket whose swap is due has been silent for the deadline in force. -/
def Due (s : DagMonitor) (bind : BoundSocket) : Prop :=
  ∃ heard deadline, bind.silence.heard = some heard ∧ s.silenceDeadline = some deadline ∧
    heard + deadline ≤ s.monoMs

structure Standing (s : DagMonitor) : Prop where
  link : s.isConnected = s.bound.any BoundSocket.announced
  clock : 1 ≤ s.monoMs ∧ s.networkMovedMonoMs ≤ s.monoMs
  budget : s.silenceBackoff ≤ 2
  due : ∀ bind, s.bound = some bind → bind.swapDue = true → bind.announced = true ∧ s.Due bind
  hunting : ∀ hunt, s.hunt = some hunt → s.Hunts hunt

/-- An unpaused monitor with nothing bound is hunting. -/
def Searching (s : DagMonitor) : Prop := s.paused = false → s.bound = none → s.hunt.isSome = true

theorem standing_start : start.Standing where
  link := rfl
  clock := ⟨Nat.le_refl _, Nat.zero_le _⟩
  budget := Nat.zero_le _
  due := by simp [start]
  hunting := by
    intro hunt found
    cases found
    exact ⟨by simp, by simp, by simp [Behind], by simp, by simp⟩

section Later

/-- What bears on a hunt under way: its incumbent stays the one it was or goes, and nothing is taken back. -/
structure Later (s next : DagMonitor) : Prop where
  socket : ∀ bind, next.bound = some bind → ∃ before, s.bound = some before ∧ bind.gen = before.gen ∧
    bind.url = before.url ∧
    (before.announced = true → bind.announced = true ∧ bind.connectedMonoMs = before.connectedMonoMs)
  asked : s.swapsAsked ≤ next.swapsAsked
  moved : ∀ bind, s.networkMovedUnder bind = true → next.networkMovedUnder bind = true

theorem Later.refl (s : DagMonitor) : Later s s :=
  ⟨fun bind bound => ⟨bind, bound, rfl, rfl, fun announced => ⟨announced, rfl⟩⟩, Nat.le_refl _, fun _ => id⟩

theorem networkMovedUnder_congr {bind before : BoundSocket}
    (same : bind.connectedMonoMs = before.connectedMonoMs) :
    s.networkMovedUnder bind = s.networkMovedUnder before := by
  simp [networkMovedUnder, same]

variable {mode : RaceMode} {hunt : Hunt}

theorem Behind.later (behind : s.Behind mode) (later : Later s next) : next.Behind mode := by
  intro incumbent why bind is_ bound
  obtain ⟨before, was, gen, url, up⟩ := later.socket bind bound
  obtain ⟨announced, from_, leaves⟩ := behind incumbent why before is_ was
  obtain ⟨still, connected⟩ := up announced
  refine ⟨still, url.trans from_, ?_⟩
  cases why with
  | asked => exact True.intro
  | silent => exact ⟨leaves.1.trans gen.symm, leaves.2.trans later.asked⟩
  | moved =>
    refine ⟨leaves.1.trans gen.symm, ?_, leaves.2.2.trans later.asked⟩
    rw [networkMovedUnder_congr connected]
    exact later.moved before leaves.2.1

theorem Recast.later (recast : s.Recast mode) (behind : s.Behind mode) (later : Later s next)
    {bind : BoundSocket} (bound : next.bound = some bind) : next.Recast mode := by
  obtain ⟨before, was, gen, url, up⟩ := later.socket bind bound
  cases mode with
  | cold => simp [Recast, joinedByTap, recastIfMoved] at recast
  | swap incumbent why =>
    obtain ⟨announced, from_, leaves⟩ := behind incumbent why before rfl was
    obtain ⟨-, connected⟩ := up announced
    have asked := later.asked
    have moves : (s.recastIfMoved (.swap incumbent why)).isSome = true →
        (next.recastIfMoved (.swap incumbent why)).isSome = true := by
      intro moved
      cases why with
      | moved => cases moved
      | _ =>
        simp only [recastIfMoved, was, Option.isSome_map, Option.isSome_filter, Option.any_some,
          Bool.and_eq_true, decide_eq_true_eq] at moved
        simp only [recastIfMoved, bound, Option.isSome_map, Option.isSome_filter, Option.any_some,
          Bool.and_eq_true, decide_eq_true_eq]
        refine ⟨url.trans moved.1, ?_⟩
        rw [networkMovedUnder_congr connected]
        exact later.moved before moved.2
    refine recast.imp ?_ moves
    intro joined
    cases why with
    | asked => cases joined
    | silent gen ticks asked' =>
      have bounded := leaves.2
      simp only [joinedByTap, silenceHuntWasAsked, decide_eq_true_eq] at joined ⊢
      split at joined
      · rw [if_pos (by omega)]
        rfl
      · cases joined
    | moved gen asked' tapped =>
      have bounded := leaves.2.2
      cases tapped with
      | true => cases joined
      | false =>
        simp only [joinedByTap, silenceHuntWasAsked, decide_eq_true_eq] at joined ⊢
        split at joined
        · rw [if_pos (by omega)]
          rfl
        · cases joined

theorem Hunts.later (hunts : s.Hunts hunt) (later : Later s next)
    (was : s.isConnected = s.bound.any BoundSocket.announced)
    (link : next.isConnected = next.bound.any BoundSocket.announced) : next.Hunts hunt where
  holds := hunts.holds
  dials := by
    intro gen bind place bound
    obtain ⟨before, was, same, _⟩ := later.socket bind bound
    exact same.trans (hunts.dials gen before place was)
  behind := fun place => (hunts.behind place).later later
  races := hunts.races
  pauses := by
    intro place swap connected
    have behind := hunts.behind (fun gen same => by rw [place] at same; cases same)
    cases bound : next.bound with
    | none => simp [link, bound] at connected
    | some bind =>
      obtain ⟨before, was_, _⟩ := later.socket bind bound
      have up : s.isConnected = true := by
        cases mode : hunt.mode with
        | cold => exact absurd mode swap
        | swap incumbent why => simp [was, was_, (behind incumbent why before mode was_).1]
      exact (hunts.pauses place swap up).imp_right fun recast => recast.later behind later bound

theorem Standing.later (standing : s.Standing) (later : Later s next)
    (link : next.isConnected = next.bound.any BoundSocket.announced)
    (clock : 1 ≤ next.monoMs ∧ next.networkMovedMonoMs ≤ next.monoMs) (budget : next.silenceBackoff ≤ 2)
    (due : ∀ bind, next.bound = some bind → bind.swapDue = true → bind.announced = true ∧ next.Due bind)
    (same : next.hunt = s.hunt) : next.Standing where
  link := link
  clock := clock
  budget := budget
  due := due
  hunting := fun hunt found => (standing.hunting hunt (same ▸ found)).later later standing.link link

end Later

section Writes

variable {mode : RaceMode} {bind : BoundSocket}

@[simp] theorem retireBind_bound : s.retireBind.bound = none := by
  unfold retireBind
  split <;> simp_all

@[simp] theorem retireBind_hunt : s.retireBind.hunt = s.hunt := by
  unfold retireBind
  split <;> rfl

@[simp] theorem retireBind_paused : s.retireBind.paused = s.paused := by
  unfold retireBind
  split <;> rfl

@[simp] theorem retireBind_silenceBackoff : s.retireBind.silenceBackoff = s.silenceBackoff := by
  unfold retireBind
  split <;> rfl

theorem retireBind_later : Later s s.retireBind where
  socket := by simp
  asked := by
    unfold retireBind
    split <;> exact Nat.le_refl _
  moved := by
    intro bind moved
    unfold retireBind
    split <;> exact moved

theorem Standing.retireBind_isConnected (standing : s.Standing) : s.retireBind.isConnected = false := by
  have link := standing.link
  unfold retireBind
  split
  next none_ => simpa [none_] using link
  · rfl

theorem Standing.retireBind (standing : s.Standing) : s.retireBind.Standing := by
  apply standing.later retireBind_later
  · simp [standing.retireBind_isConnected]
  · unfold DagMonitor.retireBind
    split <;> exact standing.clock
  · simpa using standing.budget
  · simp
  · exact retireBind_hunt

@[simp] theorem spawnRaceWith_hunt : (s.spawnRaceWith mode).hunt.isSome = true := by
  unfold spawnRaceWith
  split <;> simp_all

@[simp] theorem spawnRaceWith_bound : (s.spawnRaceWith mode).bound = s.bound := by
  unfold spawnRaceWith
  split <;> rfl

@[simp] theorem spawnRaceWith_silenceBackoff : (s.spawnRaceWith mode).silenceBackoff = s.silenceBackoff := by
  unfold spawnRaceWith
  split <;> rfl

/-- A monitor that differs in its hunt alone. -/
theorem Standing.hunt (standing : s.Standing) {hunt : Option Hunt}
    (hunts : ∀ one, hunt = some one → s.Hunts one) : { s with hunt := hunt }.Standing where
  link := standing.link
  clock := standing.clock
  budget := standing.budget
  due := standing.due
  hunting := by
    intro one found
    have here := hunts one found
    exact ⟨here.holds, here.dials, here.behind, here.races, here.pauses⟩

theorem Standing.spawn (standing : s.Standing) (behind : s.Behind mode) : (s.spawnRaceWith mode).Standing := by
  unfold spawnRaceWith
  split
  · exact standing
  · apply standing.hunt
    intro one found
    cases found
    exact ⟨by simp, by simp, fun _ => behind, by simp, fun _ _ _ => .inl (by decide : 0 < SWAP_HUNT_ROUNDS)⟩

theorem behind_cold : s.Behind .cold := by
  intro incumbent why bind is_
  cases is_

theorem Standing.unpaused (standing : s.Standing) (paused : Bool) : { s with paused := paused }.Standing :=
  standing.later ⟨(Later.refl s).socket, Nat.le_refl _, fun _ => id⟩ standing.link standing.clock standing.budget
    standing.due rfl

theorem Standing.hardReconnect (standing : s.Standing) : s.hardReconnect.Standing :=
  standing.retireBind.spawn behind_cold

end Writes

section Head

variable {mode : RaceMode} {hunt : Hunt} {rounds : Nat}

theorem joinedByTap_behind {theirs : RaceMode} (behind : s.Behind mode)
    (joined : s.joinedByTap mode = some theirs) : s.Behind theirs ∧ theirs ≠ .cold := by
  cases mode with
  | cold => cases joined
  | swap incumbent why =>
    cases why with
    | asked => cases joined
    | silent gen ticks asked =>
      simp only [joinedByTap] at joined
      split at joined <;> cases joined
      refine ⟨?_, by simp⟩
      intro from_ why bind same bound
      cases same
      obtain ⟨announced, url, -⟩ := behind _ _ bind rfl bound
      exact ⟨announced, url, True.intro⟩
    | moved gen asked tapped =>
      cases tapped with
      | true => cases joined
      | false =>
        simp only [joinedByTap] at joined
        split at joined <;> cases joined
        refine ⟨?_, by simp⟩
        intro from_ why bind same bound
        cases same
        obtain ⟨announced, url, gen, moved, -⟩ := behind _ _ bind rfl bound
        exact ⟨announced, url, gen, moved, Nat.le_refl _⟩

theorem recastIfMoved_behind {moved : RaceMode} (behind : s.Behind mode)
    (recast : s.recastIfMoved mode = some moved) : s.Behind moved ∧ moved ≠ .cold := by
  cases mode with
  | cold => cases recast
  | swap incumbent why =>
    cases why with
    | moved => cases recast
    | _ =>
      simp only [recastIfMoved] at recast
      obtain ⟨bind, found, rfl⟩ := Option.map_eq_some_iff.mp recast
      obtain ⟨bound, holds⟩ := Option.filter_eq_some_iff.mp found
      simp only [Bool.and_eq_true, decide_eq_true_eq] at holds
      refine ⟨?_, by simp⟩
      intro from_ why other same bound'
      cases same
      rw [bound] at bound'
      cases bound'
      obtain ⟨announced, url, leaves⟩ := behind _ _ bind rfl bound
      refine ⟨announced, url, rfl, holds.2, ?_⟩
      first
        | exact leaves.2
        | exact Nat.le_refl _

theorem degradeLostSwap_cases {connected : Bool} :
    degradeLostSwap mode connected = .cold ∨ degradeLostSwap mode connected = mode ∧ connected = true := by
  cases mode with
  | cold => exact .inl rfl
  | swap incumbent why =>
    cases connected with
    | true => exact .inr ⟨rfl, rfl⟩
    | false => exact .inl rfl

/-- The loop's head keeps a hunt behind the socket it set out to leave, and within its rounds. -/
theorem head_hunts (behind : s.Behind mode)
    (few : mode ≠ .cold → s.isConnected = true → rounds < SWAP_HUNT_ROUNDS ∨ s.Recast mode)
    (goes : s.head mode rounds = some hunt) : s.Hunts hunt := by
  simp only [DagMonitor.head] at goes
  split at goes
  · cases goes
  split at goes
  · cases goes
  cases goes
  have degraded : s.Behind (degradeLostSwap mode s.isConnected) := by
    rcases @degradeLostSwap_cases mode s.isConnected with cold | ⟨same, -⟩
    · rw [cold]
      exact behind_cold
    · rw [same]
      exact behind
  have joined : s.Behind ((s.joinedByTap (degradeLostSwap mode s.isConnected)).getD
      (degradeLostSwap mode s.isConnected)) := by
    cases theirs : s.joinedByTap (degradeLostSwap mode s.isConnected) with
    | none => exact degraded
    | some theirs' => exact (joinedByTap_behind degraded theirs).1
  refine ⟨by simp, by simp, fun _ => ?_, fun _ swap => ?_, by simp⟩
  · simp only
    cases moved : s.recastIfMoved ((s.joinedByTap (degradeLostSwap mode s.isConnected)).getD
      (degradeLostSwap mode s.isConnected)) with
    | none => exact joined
    | some moved' => exact (recastIfMoved_behind joined moved).1
  · simp only at swap ⊢
    have zero : 0 < SWAP_HUNT_ROUNDS := by decide
    cases moved : s.recastIfMoved ((s.joinedByTap (degradeLostSwap mode s.isConnected)).getD
      (degradeLostSwap mode s.isConnected)) with
    | some moved' => exact zero
    | none =>
      rw [moved] at swap
      cases theirs : s.joinedByTap (degradeLostSwap mode s.isConnected) with
      | some theirs' => exact zero
      | none =>
        -- neither re-cast: the mode is the one it came with, and so are its rounds
        rw [theirs] at swap moved
        rcases @degradeLostSwap_cases mode s.isConnected with cold | ⟨same, connected⟩
        · exact absurd cold swap
        · rw [same] at swap theirs moved
          simp only [same, if_true, Option.isSome_none, Bool.false_eq_true, if_false]
          rcases few swap connected with few | recast
          · exact few
          · simp only [Option.getD_none] at moved
            simp [Recast, theirs, moved] at recast

theorem head_unbound (none_ : s.bound = none) (standing : s.Standing) (goes : s.head mode rounds = some hunt) :
    s.Hunts hunt := by
  have down : s.isConnected = false := by simp [standing.link, none_]
  apply head_hunts _ _ goes
  · intro incumbent why bind _ bound
    rw [none_] at bound
    cases bound
  · intro _ connected
    rw [down] at connected
    cases connected

/-- A loop's head that ends its hunt leaves a monitor that is paused or has a socket. -/
theorem head_none (ends : s.head mode rounds = none) (link : s.isConnected = s.bound.any BoundSocket.announced) :
    s.paused = true ∨ s.bound ≠ none := by
  cases paused : s.paused with
  | true => exact .inl rfl
  | false =>
    refine .inr fun none_ => ?_
    have down : s.isConnected = false := by simp [link, none_]
    have cold : degradeLostSwap mode false = .cold := by
      cases mode <;> rfl
    simp [DagMonitor.head, down, cold, mayBindFromRace, paused, silentIncumbentIsBack] at ends

end Head

section Install

variable {mode : RaceMode} {bind : BoundSocket} {winner : String} {armed : Bool}

theorem silenceDeadline_isSome : s.silenceDeadline.isSome = true ↔ s.silenceBackoff < 2 :=
  silenceDeadlineAfter_isSome

theorem Due.few (due : s.Due bind) : s.silenceBackoff < 2 := by
  obtain ⟨heard, deadline, -, on, -⟩ := due
  exact silenceDeadline_isSome.mp (by simp [on])

/-- The gate lets a silence hunt's winner in over its incumbent once the swap stage fell on it. -/
theorem swapDue_of_cause (standing : s.Standing) (behind : s.Behind mode)
    (gate : s.installGate mode = some .install) (cause : s.retireCause mode = .silenceSwap)
    (bound : s.bound = some bind) : bind.swapDue = true := by
  cases mode with
  | cold => cases cause
  | swap incumbent why =>
    cases why with
    | asked => cases cause
    | moved => cases cause
    | silent gen ticks asked =>
      obtain ⟨announced, -, gens, -⟩ := behind _ _ bind rfl bound
      simp only [retireCause] at cause
      split at cause
      · cases cause
      next unasked =>
        split at cause
        · cases cause
        next still =>
          have live : s.isConnected = true := by simp [standing.link, bound, announced]
          have unmoved : s.networkMovedUnder bind = false := by simpa [bound] using still
          have unjoined : s.joinedByTap (.swap incumbent (.silent gen ticks asked)) = none := by
            simp [joinedByTap, unasked]
          have current : (s.currentBind gen).filter (fun _ => s.isConnected) = some bind := by
            simp [currentBind, bound, gens, live]
          simp only [installGate, unjoined, current, unmoved, Bool.or_false] at gate
          cases due : bind.swapDue with
          | true => rfl
          | false => split at gate <;> simp_all

theorem noteSilenceSwapLanded_standing (standing : s.Standing) (none_ : s.bound = none)
    (few : s.silenceBackoff < 2) : s.noteSilenceSwapLanded.Standing :=
  standing.later ⟨(Later.refl s).socket, Nat.le_refl _, fun _ => id⟩ standing.link standing.clock few
    (fun bind bound => by rw [noteSilenceSwapLanded, none_] at bound; cases bound) rfl

@[simp] theorem retireLeaving_bound : (s.retireLeaving mode).bound = none := by
  unfold retireLeaving
  split <;> simp [noteSilenceSwapLanded]

@[simp] theorem retireLeaving_paused : (s.retireLeaving mode).paused = s.paused := by
  unfold retireLeaving
  split <;> simp [noteSilenceSwapLanded]

theorem retireLeaving_silenceBackoff : (s.retireLeaving mode).silenceBackoff =
    s.silenceBackoff + if s.retireCause mode = .silenceSwap ∧ s.bound.isSome then 1 else 0 := by
  unfold retireLeaving
  split <;> simp [noteSilenceSwapLanded]

theorem Standing.retireLeaving (standing : s.Standing) (behind : s.Behind mode)
    (gate : s.installGate mode = some .install) : (s.retireLeaving mode).Standing := by
  unfold DagMonitor.retireLeaving
  split
  next landed =>
    apply noteSilenceSwapLanded_standing standing.retireBind retireBind_bound
    obtain ⟨cause, some_⟩ := landed
    obtain ⟨bind, bound⟩ := Option.isSome_iff_exists.mp some_
    have due := swapDue_of_cause standing behind gate cause bound
    simpa using (standing.due bind bound due).2.few
  · exact standing.retireBind

theorem Standing.installed (standing : s.Standing) (behind : s.Behind mode)
    (gate : s.installGate mode = some .install) : (s.installBindLeaving winner mode armed).Standing := by
  have retired := standing.retireLeaving behind gate
  unfold installBindLeaving
  split
  · exact {
      link := by
        have down := retired.link
        rw [retireLeaving_bound] at down
        exact down
      clock := retired.clock
      budget := retired.budget
      due := by
        intro bind bound due
        cases bound
        cases due
      hunting := by
        intro hunt found
        cases found
        refine ⟨by simp, ?_, by simp, by simp, by simp⟩
        intro gen bind place bound
        cases place
        cases bound
        rfl }
  · exact retired.hunt fun one goes => head_unbound retireLeaving_bound retired goes

end Install

section Judged

variable {hunt : Hunt} {winner : String} {held : Option Held} {e : Event}

theorem roundExclusions_subset {demoted : List String} {mode : RaceMode}
    (clear : winner ∉ roundExclusions demoted mode) : winner ∉ roundExclusions [] mode := by
  cases mode with
  | cold => simp [roundExclusions]
  | swap incumbent why =>
    cases why with
    | moved gen asked tapped =>
      cases tapped <;> simp only [roundExclusions, List.mem_cons, not_or] at clear ⊢
      · simp
      · exact ⟨clear.1, by simp⟩
    | _ =>
      simp only [roundExclusions, List.mem_cons, not_or] at clear ⊢
      exact ⟨clear.1, by simp⟩

theorem mayBindFromRace_false {mode : RaceMode} (standing : s.Standing) (barred : s.mayBindFromRace mode = false) :
    s.paused = true ∨ s.bound ≠ none := by
  by_cases none_ : s.bound = none
  · have down : s.isConnected = false := by simp [standing.link, none_]
    cases mode <;> simp_all [mayBindFromRace]
  · exact .inr none_

theorem bound_of_back {mode : RaceMode} (back : s.silentIncumbentIsBack mode = true) : s.bound ≠ none := by
  intro none_
  cases mode with
  | cold => cases back
  | swap incumbent why => cases why <;> simp [silentIncumbentIsBack, currentBind, none_] at back

theorem installGate_standDown {mode : RaceMode} (standing : s.Standing)
    (out : s.installGate mode = some .standDown) : s.paused = true ∨ s.bound ≠ none := by
  unfold installGate at out
  split at out
  next barred => exact mayBindFromRace_false standing (by simpa using barred)
  · split at out
    · split at out
      · cases out
      · split at out
        next back => exact .inr (bound_of_back back)
        · split at out
          · cases out
          · split at out <;> cases out
    · cases out

/-- All that a winner in hand comes with. -/
structure Judged (s : DagMonitor) (e : Event) (hunt : Hunt) (winner : String) (held : Option Held) : Prop where
  hunts : s.hunt = some hunt
  waits : ∀ gen, hunt.place ≠ .dialing gen
  clear : winner ∉ roundExclusions [] hunt.mode
  gate : held = some .install → s.installGate hunt.mode = some .install
  out : held = some .standDown → s.paused = true ∨ s.bound ≠ none
  step : ∃ stale armed, s.step e = some (s.follow hunt.mode winner (.holding winner stale) armed held)

theorem judged_spec (standing : s.Standing) (found : s.judged e = some (hunt, winner, held)) :
    s.Judged e hunt winner held := by
  cases e with
  | raced demoted won armed =>
    cases won with
    | none => cases found
    | some won =>
      have here := found
      simp only [judged, Option.map_eq_some_iff, Prod.mk.injEq] at found
      obtain ⟨racing, filtered, rfl, rfl, rfl⟩ := found
      obtain ⟨hunting, holds⟩ := Option.filter_eq_some_iff.mp filtered
      simp only [decide_eq_true_eq] at holds
      refine ⟨hunting, by simp [holds.1], roundExclusions_subset holds.2, ?_, ?_, ?_⟩
      · intro install
        split at install
        · cases install
        · exact install
      · intro out
        split at out
        next barred =>
          rcases Bool.or_eq_true_iff.mp barred with barred | back
          · exact mayBindFromRace_false standing (by simpa using barred)
          · exact .inr (bound_of_back back)
        · exact installGate_standDown standing out
      · exact ⟨s.monoMs + s.holdLimit, armed, by rw [step, here]; rfl⟩
  | held armed =>
    have here := found
    simp only [judged, Option.bind_eq_some_iff] at found
    obtain ⟨holding, hunting, found⟩ := found
    split at found
    next won stale place =>
      simp only [Option.some.injEq, Prod.mk.injEq] at found
      obtain ⟨rfl, rfl, rfl⟩ := found
      refine ⟨hunting, by simp [place], (standing.hunting _ hunting).holds _ _ place, ?_, ?_, ?_⟩
      · intro install
        cases gate : s.installGate holding.mode with
        | some held => simpa [gate] using install
        | none => simp [gate] at install
      · intro out
        cases gate : s.installGate holding.mode with
        | some held =>
          rw [gate] at out
          cases out
          exact installGate_standDown standing gate
        | none => simp [gate] at out
      · exact ⟨stale, armed, by rw [step, here, ← place]; rfl⟩
    · cases found
  | _ => cases found

theorem Standing.follow {mode : RaceMode} {stale : Nat} {armed : Bool} (standing : s.Standing)
    (behind : s.Behind mode) (clear : winner ∉ roundExclusions [] mode)
    (gate : held = some .install → s.installGate mode = some .install) :
    (s.follow mode winner (.holding winner stale) armed held).Standing := by
  have few : mode ≠ .cold → s.isConnected = true → 0 < SWAP_HUNT_ROUNDS ∨ s.Recast mode :=
    fun _ _ => .inl (by decide)
  have again : { s with hunt := s.head mode 0 }.Standing :=
    standing.hunt fun one goes => head_hunts behind few goes
  cases held with
  | none =>
    apply standing.hunt
    intro one found
    cases found
    refine ⟨?_, by simp, fun _ => behind, by simp, by simp⟩
    intro other stale same
    cases same
    exact clear
  | some held =>
    cases held with
    | standDown => exact standing.hunt fun one found => by cases found
    | stale => exact again
    | install =>
      simp only [DagMonitor.follow]
      split
      · exact again
      · exact standing.installed behind (gate rfl)

theorem follow_searching {mode : RaceMode} {hold : RacePlace} {armed : Bool} (standing : s.Standing)
    (behind : s.Behind mode) (gate : held = some .install → s.installGate mode = some .install)
    (out : held = some .standDown → s.paused = true ∨ s.bound ≠ none) :
    (s.follow mode winner hold armed held).Searching := by
  have again : { s with hunt := s.head mode 0 }.Searching := by
    intro unpaused none_
    cases ends : s.head mode 0 with
    | some hunt => simp
    | none => rcases head_none ends standing.link with paused | bound <;> simp_all
  cases held with
  | none => exact fun _ _ => rfl
  | some held =>
    cases held with
    | standDown =>
      intro unpaused none_
      rcases out rfl with paused | bound <;> simp_all [DagMonitor.follow]
    | stale => exact again
    | install =>
      simp only [DagMonitor.follow]
      split
      · exact again
      · unfold installBindLeaving
        split
        · exact fun _ _ => rfl
        · intro unpaused none_
          have retired := standing.retireLeaving behind (gate rfl)
          cases ends : (s.retireLeaving mode).head mode 0 with
          | some hunt => simp
          | none => rcases head_none ends retired.link with paused | bound <;> simp_all

end Judged

section Step

variable {bind : BoundSocket} {e : Event}

theorem Due.later (due : s.Due bind) (backoff : next.silenceBackoff = s.silenceBackoff) (mono : s.monoMs ≤ next.monoMs)
    {after : BoundSocket} (heard : after.silence.heard = bind.silence.heard) : next.Due after := by
  obtain ⟨since, deadline, is_, on, late⟩ := due
  exact ⟨since, deadline, heard.trans is_, by rw [silenceDeadline, backoff]; exact on, late.trans mono⟩

theorem Standing.onConnected (standing : s.Standing) (bound : s.bound = some bind) (fresh : bind.announced = false)
    (came : Came) : (s.onConnected bind came).Standing := by
  cases came with
  | refused => exact standing.retireBind.spawn behind_cold
  | unsubscribed => exact standing
  | published =>
    refine standing.later ⟨?_, Nat.le_refl _, fun _ => id⟩ rfl standing.clock standing.budget ?_ rfl
    · intro after same
      cases same
      exact ⟨bind, bound, rfl, rfl, fun announced => by rw [fresh] at announced; cases announced⟩
    · intro after same due
      cases same
      have announced := (standing.due bind bound due).1
      rw [fresh] at announced
      cases announced

theorem Standing.onDisconnected (standing : s.Standing) (bound : s.bound = some bind) :
    (s.onDisconnected bind).Standing := by
  have link := standing.link
  rw [bound] at link
  unfold DagMonitor.onDisconnected
  split
  next down =>
    -- an unannounced socket: nothing but its clock moves
    have unheard : bind.announced = false := by simpa [link] using down
    refine standing.later ⟨?_, Nat.le_refl _, fun _ => id⟩ link standing.clock standing.budget ?_ rfl
    · intro after same
      cases same
      exact ⟨bind, bound, rfl, rfl, fun announced => ⟨announced, rfl⟩⟩
    · intro after same due
      cases same
      have announced := (standing.due bind bound due).1
      rw [unheard] at announced
      cases announced
  · have gone : { s with bound := some { bind with silence := .down } }.retireBind = s.retireBind := by
      simp [DagMonitor.retireBind, bound]
    simp only [gone]
    split
    · exact standing.retireBind
    · exact standing.retireBind.spawn behind_cold

theorem Standing.onTick (standing : s.Standing) (bound : s.bound = some bind) : (s.onTick bind).Standing := by
  have link := standing.link
  rw [bound] at link
  refine standing.later ⟨?_, Nat.le_refl _, fun _ => id⟩ link standing.clock ?_ ?_ rfl
  · intro after same
    cases same
    exact ⟨bind, bound, rfl, rfl, fun announced => ⟨announced, rfl⟩⟩
  · have budget := standing.budget
    simp only [DagMonitor.onTick]
    split <;> omega
  · intro after same due
    cases same
    cases due

/-- A socket's own clock moves, and its swap may be due. -/
theorem Standing.clocked (standing : s.Standing) (bound : s.bound = some bind) {silence : SilenceClock} {due : Bool}
    (heard : silence.heard = bind.silence.heard)
    (fell : due = true → bind.swapDue = true ∨ bind.announced = true ∧ s.Due bind) :
    { s with bound := some { bind with silence := silence, swapDue := due } }.Standing := by
  have link := standing.link
  rw [bound] at link
  refine standing.later ⟨?_, Nat.le_refl _, fun _ => id⟩ link standing.clock standing.budget ?_ rfl
  · intro after same
    cases same
    exact ⟨bind, bound, rfl, rfl, fun announced => ⟨announced, rfl⟩⟩
  · intro after same is_
    cases same
    have held : bind.announced = true ∧ s.Due bind := by
      rcases fell is_ with was | now
      · exact standing.due bind bound was
      · exact now
    exact ⟨held.1, held.2.later rfl (Nat.le_refl _) heard⟩

theorem silent_behind (bound : s.bound = some bind) (announced : bind.announced = true) (ticks : Nat) :
    s.Behind (.swap bind.url (.silent bind.gen ticks s.swapsAsked)) := by
  intro incumbent why other same found
  cases same
  rw [bound] at found
  cases found
  exact ⟨announced, rfl, rfl, Nat.le_refl _⟩

theorem Standing.onStage (standing : s.Standing) (bound : s.bound = some bind) {stage : SilenceStage}
    (due : stage = .swap → s.Due bind) : (s.onStage bind stage).Standing := by
  have heard : (bind.silence.fire stage).heard = bind.silence.heard := by
    cases stage <;> rfl
  have still : { s with bound := some { bind with silence := bind.silence.fire stage } }.Standing :=
    standing.clocked bound heard fun is_ => .inl is_
  simp only [DagMonitor.onStage]
  split
  · exact still
  next up =>
    simp only [Bool.or_eq_true, Bool.not_eq_true', not_or, Bool.not_eq_false, Bool.not_eq_true] at up
    cases stage with
    | predial =>
      apply still.spawn
      exact @silent_behind _ { bind with silence := bind.silence.fire .predial } rfl up.1.2 _
    | swap =>
      have swap := @Standing.clocked _ _ standing bound _ true heard fun _ => .inr ⟨up.1.2, due rfl⟩
      apply swap.spawn
      exact @silent_behind _ { bind with swapDue := true, silence := bind.silence.fire .swap } rfl up.1.2 _

theorem due_of_next {fell : Nat} {stage : SilenceStage}
    (found : bind.silence.next s.silenceDeadline = some (fell, stage)) (late : fell ≤ s.monoMs) :
    stage = .swap → s.Due bind := by
  rintro rfl
  obtain ⟨heard, deadline, is_, on, -, -, same⟩ := SilenceClock.next_some found
  refine ⟨heard, deadline, is_, on, ?_⟩
  simp only [SilenceStage.after] at same
  omega

theorem Standing.noteNetwork (standing : s.Standing) (event : NetworkEvent) : (s.noteNetwork event).Standing := by
  unfold DagMonitor.noteNetwork
  split
  · refine standing.later ⟨(Later.refl s).socket, Nat.le_refl _, ?_⟩ standing.link ⟨standing.clock.1, Nat.le_refl _⟩
      standing.budget standing.due rfl
    intro bind moved
    have clock := standing.clock
    simp only [networkMovedUnder, Bool.and_eq_true, decide_eq_true_eq] at moved ⊢
    omega
  · exact standing.later ⟨(Later.refl s).socket, Nat.le_refl _, fun _ => id⟩ standing.link standing.clock
      standing.budget standing.due rfl

theorem Standing.onNetwork (standing : s.Standing) : s.onNetwork.Standing := by
  unfold DagMonitor.onNetwork
  split
  · exact standing
  split
  next connected =>
    split
    next moved =>
      obtain ⟨bind, bound, moved⟩ := (Option.any_eq_true _ _).mp moved
      have announced : bind.announced = true := by
        have link := standing.link
        simpa [bound, connected] using link.symm
      simp only [huntOffMovedNetwork, bound]
      apply standing.spawn
      intro incumbent why other same found
      cases same
      rw [bound] at found
      cases found
      exact ⟨announced, rfl, rfl, moved, Nat.le_refl _⟩
    · exact standing
  · exact standing.spawn behind_cold

theorem Standing.tap (standing : s.Standing) : s.tap.Standing := by
  have live := standing.unpaused false
  simp only [DagMonitor.tap]
  split
  · exact live.hardReconnect
  next bind found =>
    obtain ⟨bound, connected⟩ := Option.filter_eq_some_iff.mp found
    have announced : bind.announced = true := by
      have link := live.link
      simpa [bound, connected] using link.symm
    have asked : { s with paused := false, swapsAsked := s.swapsAsked + 1 }.Standing :=
      live.later ⟨(Later.refl s).socket, Nat.le_succ _, fun _ => id⟩ live.link live.clock live.budget live.due rfl
    apply asked.spawn
    intro incumbent why other same found
    cases same
    rw [show s.bound = some bind from bound] at found
    cases found
    exact ⟨announced, rfl, True.intro⟩

/-- Where a dial leaves the monitor. -/
theorem dialed_spec (standing : s.Standing) {came : Bool} (happens : s.step (.dialed came) = some next) :
    next.Standing ∧ next.Searching := by
  obtain ⟨hunt, hunting, goes⟩ := Option.bind_eq_some_iff.mp happens
  have hunts := standing.hunting hunt hunting
  have ended : ∀ t : DagMonitor, t.Standing → { t with hunt := none }.Standing :=
    fun t stands => stands.hunt fun one found => by cases found
  have again : ∀ t : DagMonitor, t.Standing → t.bound = none → { t with hunt := t.head hunt.mode 0 }.Standing ∧
      { t with hunt := t.head hunt.mode 0 }.Searching := by
    intro t stands none_
    refine ⟨stands.hunt fun one goes => head_unbound none_ stands goes, ?_⟩
    intro unpaused _
    cases ends : t.head hunt.mode 0 with
    | some hunt => simp
    | none => rcases head_none ends stands.link with paused | bound <;> simp_all
  split at goes
  next gen place =>
    cases goes
    cases came with
    | false => simpa using again s.retireBind standing.retireBind retireBind_bound
    | true =>
      simp only [if_true]
      split
      next paused =>
        refine ⟨ended _ standing.retireBind, ?_⟩
        intro unpaused
        simp [paused] at unpaused
      · split
        next current =>
          refine ⟨ended _ standing, ?_⟩
          intro _ none_
          simp only at none_
          simp [currentBind, none_] at current
        next gone =>
          have none_ : s.bound = none := by
            cases bound : s.bound with
            | none => rfl
            | some bind => simp [currentBind, bound, hunts.dials gen bind place bound] at gone
          exact again s standing none_
  · cases goes

/-- Where a winner in hand leaves the monitor. -/
theorem judged_step {hunt : Hunt} {winner : String} {held : Option Held} (standing : s.Standing)
    (found : s.judged e = some (hunt, winner, held)) (happens : s.step e = some next) :
    next.Standing ∧ next.Searching := by
  have judged := judged_spec standing found
  obtain ⟨stale, armed, goes⟩ := judged.step
  rw [goes] at happens
  cases happens
  have behind := (standing.hunting hunt judged.hunts).behind judged.waits
  exact ⟨standing.follow behind judged.clear judged.gate, follow_searching standing behind judged.gate judged.out⟩

theorem raced_none (standing : s.Standing) {demoted : List String} {armed : Bool}
    (happens : s.step (.raced demoted none armed) = some next) : next.Standing ∧ next.Searching := by
  obtain ⟨hunt, racing, rfl⟩ := Option.map_eq_some_iff.mp happens
  obtain ⟨hunting, place⟩ := Option.filter_eq_some_iff.mp racing
  simp only [decide_eq_true_eq] at place
  have hunts := standing.hunting hunt hunting
  by_cases spent : s.swapHuntSpent hunt.mode (hunt.emptyRounds + 1) = true
  · rw [if_pos spent]
    refine ⟨standing.hunt fun one found => (by cases found), ?_⟩
    intro _ none_
    have down : s.isConnected = false := by simp [standing.link, show s.bound = none from none_]
    simp [swapHuntSpent, swapHuntExhausted, down] at spent
  · rw [if_neg spent]
    refine ⟨?_, fun _ _ => rfl⟩
    apply standing.hunt
    intro one found
    cases found
    refine ⟨by simp, by simp, fun _ => hunts.behind (by simp [place]), by simp, ?_⟩
    intro _ swap connected
    simp only [swapHuntSpent, swapHuntExhausted, connected, Bool.true_and, Bool.and_eq_true, Bool.not_eq_true',
      Bool.or_eq_false_iff, decide_eq_true_eq, not_and, Nat.not_le] at spent
    simp only [Recast]
    by_cases joined : (s.joinedByTap hunt.mode).isSome = true
    · exact .inr (.inl joined)
    · by_cases moved : (s.recastIfMoved hunt.mode).isSome = true
      · exact .inr (.inr moved)
      · exact .inl (spent ⟨⟨by simpa using joined, by simpa using moved⟩, swap⟩)

theorem round_spec (standing : s.Standing) (happens : s.step .round = some next) :
    next.Standing ∧ next.Searching := by
  obtain ⟨hunt, found, rfl⟩ := Option.map_eq_some_iff.mp happens
  obtain ⟨hunting, place⟩ := Option.filter_eq_some_iff.mp found
  simp only [decide_eq_true_eq] at place
  have hunts := standing.hunting hunt hunting
  refine ⟨standing.hunt fun one goes => head_hunts (hunts.behind (by simp [place])) (hunts.pauses place) goes, ?_⟩
  intro unpaused none_
  cases ends : s.head hunt.mode hunt.emptyRounds with
  | some hunt => simp
  | none => rcases head_none ends standing.link with paused | bound <;> simp_all

theorem spawned_searching {mode : RaceMode} : (s.spawnRaceWith mode).Searching := fun _ _ => spawnRaceWith_hunt

theorem bound_of_connected (standing : s.Standing) (connected : s.isConnected = true) : s.bound ≠ none := by
  intro none_
  have link := standing.link
  rw [connected, none_] at link
  cases link

theorem step_spec (standing : s.Standing) (searching : s.Searching) (happens : s.step e = some next) :
    next.Standing ∧ next.Searching := by
  cases e with
  | elapse ms =>
    cases happens
    refine ⟨?_, searching⟩
    have clock := standing.clock
    refine standing.later ⟨(Later.refl s).socket, Nat.le_refl _, fun _ => id⟩ standing.link ?_ standing.budget ?_ rfl
    · simp only
      omega
    · intro bind bound due
      have was := standing.due bind bound due
      exact ⟨was.1, @Due.later _ { s with monoMs := s.monoMs + ms } _ was.2 rfl (Nat.le_add_right _ _) _ rfl⟩
  | pause =>
    cases happens
    refine ⟨(standing.unpaused true).retireBind, ?_⟩
    intro unpaused
    simp at unpaused
  | resume =>
    cases happens
    have live := standing.unpaused false
    simp only
    split
    next connected => exact ⟨live, fun _ none_ => absurd none_ (bound_of_connected live connected)⟩
    · exact ⟨live.spawn behind_cold, spawned_searching⟩
  | tap =>
    cases happens
    refine ⟨standing.tap, ?_⟩
    simp only [DagMonitor.tap]
    split
    · exact spawned_searching
    · exact spawned_searching
  | stalled silent =>
    cases happens
    have live := standing.unpaused false
    simp only [stalled]
    split
    · exact ⟨live.spawn behind_cold, spawned_searching⟩
    next up =>
      split
      · exact ⟨live.retireBind.hardReconnect, spawned_searching⟩
      · refine ⟨live, fun _ none_ => ?_⟩
        simp [show s.bound = none from none_] at up
  | hardReconnect =>
    cases happens
    exact ⟨standing.hardReconnect, spawned_searching⟩
  | network event =>
    cases happens
    have rest : ∀ event, (s.noteNetwork event).onNetwork.Standing ∧ (s.noteNetwork event).onNetwork.Searching := by
      intro event
      refine ⟨(standing.noteNetwork event).onNetwork, ?_⟩
      have marked : (s.noteNetwork event).Searching := by
        unfold noteNetwork
        split <;> exact searching
      unfold onNetwork
      split
      · exact marked
      · split
        · split
          · unfold huntOffMovedNetwork
            split
            · exact marked
            · exact spawned_searching
          · exact marked
        · exact spawned_searching
    cases event with
    | lost =>
      exact ⟨standing.later ⟨(Later.refl s).socket, Nat.le_refl _, fun _ => id⟩ standing.link standing.clock
        standing.budget standing.due rfl, searching⟩
    | changed => exact ⟨standing, searching⟩
    | available => exact rest .available
    | moved => exact rest .moved
  | connected came =>
    obtain ⟨bind, found, rfl⟩ := Option.map_eq_some_iff.mp happens
    obtain ⟨bound, fresh⟩ := Option.filter_eq_some_iff.mp found
    refine ⟨standing.onConnected bound (by simpa using fresh) came, ?_⟩
    cases came with
    | refused => exact spawned_searching
    | unsubscribed => exact searching
    | published => exact fun _ none_ => by cases none_
  | disconnected =>
    obtain ⟨bind, bound, rfl⟩ := Option.map_eq_some_iff.mp happens
    refine ⟨standing.onDisconnected bound, ?_⟩
    unfold onDisconnected
    split
    · exact fun _ none_ => by cases none_
    · split
      next paused =>
        intro unpaused
        simp [paused] at unpaused
      · exact spawned_searching
  | tick =>
    obtain ⟨bind, bound, rfl⟩ := Option.map_eq_some_iff.mp happens
    exact ⟨standing.onTick bound, fun _ none_ => by cases none_⟩
  | due explained =>
    obtain ⟨bind, bound, goes⟩ := Option.bind_eq_some_iff.mp happens
    obtain ⟨⟨fell, stage⟩, found, goes⟩ := Option.bind_eq_some_iff.mp goes
    by_cases late : fell ≤ s.monoMs
    · rw [if_pos late, Option.some.injEq] at goes
      split at goes
      · cases goes
        exact ⟨standing.clocked bound rfl fun is_ => .inl is_, fun _ none_ => by cases none_⟩
      · cases goes
        refine ⟨standing.onStage bound (due_of_next found late), ?_⟩
        unfold onStage
        simp only
        split
        · exact fun _ none_ => by cases none_
        · split <;> exact spawned_searching
    · rw [if_neg late] at goes
      cases goes
  | round => exact round_spec standing happens
  | raced demoted winner armed =>
    cases winner with
    | none => exact raced_none standing happens
    | some winner =>
      obtain ⟨⟨hunt, won, held⟩, found, _⟩ := Option.map_eq_some_iff.mp happens
      exact judged_step standing found happens
  | held armed =>
    obtain ⟨⟨hunt, won, held⟩, found, _⟩ := Option.map_eq_some_iff.mp happens
    exact judged_step standing found happens
  | dialed came => exact dialed_spec standing happens

theorem run_spec {es : List Event} (ran : Machine.run step start es = some s) : s.Standing ∧ s.Searching := by
  refine Machine.run_history (p := fun _ (s : DagMonitor) => s.Standing ∧ s.Searching) ?_ ?_ ran
  · exact ⟨standing_start, fun _ _ => rfl⟩
  · exact fun done e mid next _ holds happens => step_spec holds.1 holds.2 happens

end Step

end DagMonitor

end Kaspaverse.Link
