import Mathlib
import Kaspaverse.Link.Leaving

namespace Kaspaverse.Link

namespace DagMonitor

variable {s next : DagMonitor} {e : Event} {es : List Event}

section Comes

variable {mode : RaceMode} {winner : String}

/-- A winner comes in from a hunt behind the socket it set out to leave, by the gate, and is not ruled out. -/
theorem comesIn_spec (standing : s.Standing) (comes : s.comesIn e = some (mode, winner)) :
    s.Behind mode ∧ winner ∉ roundExclusions [] mode ∧ s.installGate mode = some .install ∧
      s.tapRulesOut mode winner = false ∧ (∃ hunt, s.hunt = some hunt ∧ hunt.mode = mode ∧
        ∀ gen, hunt.place ≠ .dialing gen) ∧
      ∃ armed, s.step e = some (s.installBindLeaving winner mode armed) := by
  obtain ⟨⟨hunt, won, held⟩, found, comes⟩ := Option.bind_eq_some_iff.mp comes
  simp only at comes
  split at comes
  next install =>
    cases comes
    obtain ⟨rfl, unruled⟩ := install
    have judged := judged_spec standing found
    obtain ⟨stale, armed, goes⟩ := judged.step
    refine ⟨(standing.hunting hunt judged.hunts).behind judged.waits, judged.clear, judged.gate rfl, unruled,
      ⟨hunt, judged.hunts, rfl, judged.waits⟩, armed, ?_⟩
    rw [goes]
    simp [follow, unruled]
  · cases comes

theorem comesIn_none {hunt : Hunt} {held : Option Held} (found : s.judged e = some (hunt, winner, held))
    (stays : s.comesIn e = none) (hold : RacePlace) (armed : Bool) :
    (s.follow hunt.mode winner hold armed held).bound = s.bound ∧
      (s.follow hunt.mode winner hold armed held).silenceBackoff = s.silenceBackoff := by
  simp only [comesIn, found, Option.bind_some, ite_eq_right_iff, reduceCtorEq, imp_false, not_and,
    Bool.not_eq_false] at stays
  cases held with
  | none => exact ⟨rfl, rfl⟩
  | some held =>
    cases held with
    | install => simp [follow, stays rfl]
    | _ => exact ⟨rfl, rfl⟩

@[simp] theorem installBindLeaving_silenceBackoff {armed : Bool} :
    (s.installBindLeaving winner mode armed).silenceBackoff = (s.retireLeaving mode).silenceBackoff := by
  unfold installBindLeaving
  split <;> rfl

end Comes

section Stays

/-- What a step that lets no winner in does to the bound socket and to the budget. -/
structure Stays (s : DagMonitor) (e : Event) (next : DagMonitor) : Prop where
  bound : ∀ bind, next.bound = some bind → ∃ before, s.bound = some before ∧ before.gen = bind.gen
  backoff : next.silenceBackoff = if (s.holds e).isSome then 0 else s.silenceBackoff

theorem Stays.same (quiet : s.holds e = none) (bound : next.bound = s.bound ∨ next.bound = none)
    (backoff : next.silenceBackoff = s.silenceBackoff) : s.Stays e next := by
  refine ⟨?_, by rw [quiet, backoff]; rfl⟩
  intro bind found
  rcases bound with same | none_
  · exact ⟨bind, same ▸ found, rfl⟩
  · rw [none_] at found
    cases found

/-- A socket's news to its own monitor. -/
theorem Stays.clocked {bind : BoundSocket} (quiet : s.holds e = none) (bound : s.bound = some bind)
    (found : next.bound.map BoundSocket.gen = some bind.gen) (backoff : next.silenceBackoff = s.silenceBackoff) :
    s.Stays e next := by
  refine ⟨?_, by rw [quiet, backoff]; rfl⟩
  intro other same
  rw [same] at found
  exact ⟨bind, bound, (Option.some.inj found).symm⟩

theorem stays_of_step (happens : s.step e = some next) (stays : s.comesIn e = none) : s.Stays e next := by
  cases e with
  | elapse ms =>
    cases happens
    exact .same rfl (.inl rfl) rfl
  | pause =>
    cases happens
    exact .same rfl (.inr (by simp)) (by simp)
  | resume =>
    cases happens
    simp only
    split
    · exact .same rfl (.inl rfl) rfl
    · exact .same rfl (.inl (by simp)) (by simp)
  | tap =>
    cases happens
    simp only [tap]
    split
    · exact .same rfl (.inr (by simp [hardReconnect])) (by simp [hardReconnect])
    · exact .same rfl (.inl (by simp)) (by simp)
  | stalled silent =>
    cases happens
    simp only [stalled]
    split
    · exact .same rfl (.inl (by simp)) (by simp)
    · split
      · exact .same rfl (.inr (by simp [hardReconnect])) (by simp [hardReconnect])
      · exact .same rfl (.inl rfl) rfl
  | hardReconnect =>
    cases happens
    exact .same rfl (.inr (by simp [hardReconnect])) (by simp [hardReconnect])
  | network event =>
    cases happens
    have marked : ∀ event, (s.noteNetwork event).bound = s.bound ∧
        (s.noteNetwork event).silenceBackoff = s.silenceBackoff := by
      intro event
      unfold noteNetwork
      split <;> exact ⟨rfl, rfl⟩
    have rest : ∀ event, (s.noteNetwork event).onNetwork.bound = s.bound ∧
        (s.noteNetwork event).onNetwork.silenceBackoff = s.silenceBackoff := by
      intro event
      rw [← (marked event).1, ← (marked event).2]
      unfold onNetwork huntOffMovedNetwork
      split
      · exact ⟨rfl, rfl⟩
      · split
        · split
          · split
            · exact ⟨rfl, rfl⟩
            · exact ⟨spawnRaceWith_bound, spawnRaceWith_silenceBackoff⟩
          · exact ⟨rfl, rfl⟩
        · exact ⟨spawnRaceWith_bound, spawnRaceWith_silenceBackoff⟩
    cases event with
    | lost => exact .same rfl (.inl rfl) rfl
    | changed => exact .same rfl (.inl rfl) rfl
    | available => exact .same rfl (.inl (rest .available).1) (rest .available).2
    | moved => exact .same rfl (.inl (rest .moved).1) (rest .moved).2
  | connected came =>
    obtain ⟨bind, found, rfl⟩ := Option.map_eq_some_iff.mp happens
    obtain ⟨bound, -⟩ := Option.filter_eq_some_iff.mp found
    cases came with
    | refused => exact .same rfl (.inr (by simp [onConnected])) (by simp [onConnected])
    | unsubscribed => exact .same rfl (.inl rfl) rfl
    | published => exact .clocked rfl bound rfl rfl
  | disconnected =>
    obtain ⟨bind, bound, rfl⟩ := Option.map_eq_some_iff.mp happens
    simp only [onDisconnected]
    split
    · exact .clocked rfl bound rfl rfl
    · split
      · exact .same rfl (.inr (by simp)) (by simp)
      · exact .same rfl (.inr (by simp)) (by simp)
  | tick =>
    obtain ⟨bind, bound, rfl⟩ := Option.map_eq_some_iff.mp happens
    refine ⟨?_, ?_⟩
    · intro other same
      cases same
      exact ⟨bind, bound, rfl⟩
    · simp only [onTick, holds, bound]
      cases held : (bind.silence.tick s.monoMs).2 <;> simp [held]
  | due explained =>
    obtain ⟨bind, bound, goes⟩ := Option.bind_eq_some_iff.mp happens
    obtain ⟨⟨fell, stage⟩, found, goes⟩ := Option.bind_eq_some_iff.mp goes
    split at goes
    · rw [Option.some.injEq] at goes
      split at goes
      · cases goes
        exact .clocked rfl bound rfl rfl
      · cases goes
        unfold onStage
        simp only
        split
        · exact .clocked rfl bound rfl rfl
        · split
          · exact .clocked rfl bound (by simp) (by simp)
          · exact .clocked rfl bound (by simp) (by simp)
    · cases goes
  | round =>
    obtain ⟨hunt, _, rfl⟩ := Option.map_eq_some_iff.mp happens
    exact .same rfl (.inl rfl) rfl
  | raced demoted winner armed =>
    cases winner with
    | none =>
      obtain ⟨hunt, _, rfl⟩ := Option.map_eq_some_iff.mp happens
      exact .same rfl (.inl rfl) rfl
    | some winner =>
      obtain ⟨⟨hunt, won, held⟩, found, rfl⟩ := Option.map_eq_some_iff.mp happens
      have still := comesIn_none found stays
      exact .same rfl (.inl (still _ _).1) (still _ _).2
  | held armed =>
    obtain ⟨⟨hunt, won, held⟩, found, rfl⟩ := Option.map_eq_some_iff.mp happens
    have still := comesIn_none found stays
    exact .same rfl (.inl (still _ _).1) (still _ _).2
  | dialed came =>
    obtain ⟨hunt, _, goes⟩ := Option.bind_eq_some_iff.mp happens
    split at goes
    · cases goes
      split
      · split
        · exact .same rfl (.inr (by simp)) (by simp)
        · split
          · exact .same rfl (.inl rfl) rfl
          · exact .same rfl (.inl rfl) rfl
      · exact .same rfl (.inr (by simp)) (by simp)
    · cases goes

theorem holds_of_comesIn {found : RaceMode × String} (comes : s.comesIn e = some found) : s.holds e = none := by
  cases e with
  | tick => cases comes
  | _ => rfl

/-- The budget is what the silence's swaps spend and a link that held gives back. -/
theorem backoff_of_step (standing : s.Standing) (happens : s.step e = some next) :
    next.silenceBackoff =
      (if (s.holds e).isSome then 0 else s.silenceBackoff) + if (s.silenceSwaps e).isSome then 1 else 0 := by
  cases comes : s.comesIn e with
  | none => simp [(stays_of_step happens comes).backoff, silenceSwaps, comes]
  | some found =>
    obtain ⟨mode, winner⟩ := found
    obtain ⟨-, -, -, -, -, armed, goes⟩ := comesIn_spec standing comes
    rw [goes] at happens
    cases happens
    rw [installBindLeaving_silenceBackoff, retireLeaving_silenceBackoff, holds_of_comesIn comes]
    simp only [silenceSwaps, comes, Option.bind_some, Option.isSome_none, Bool.false_eq_true, if_false]
    by_cases cause : s.retireCause mode = .silenceSwap
    · cases s.bound <;> simp [cause]
    · simp [cause]

end Stays

section Budget

variable {before : List Event} {mid : DagMonitor}

/-- The sockets that the silence's swaps retire from here on. -/
def swapsLanded (s : DagMonitor) (es : List Event) : List Nat := Machine.emitted step silenceSwaps s es

/-- The times the link is said to hold from here on. -/
def linksHeld (s : DagMonitor) (es : List Event) : List Nat := Machine.emitted step holds s es

/-- Silence's swaps cannot chain: in any stretch of a run, two at most land before the link holds, and two after
    each time it has. -/
theorem silence_swaps_are_budgeted (reached : Machine.run step start before = some mid)
    (ran : Machine.run step mid es = some s) :
    s.silenceBackoff ≤ 2 ∧ (mid.swapsLanded es).length ≤ 2 * (mid.linksHeld es).length + s.silenceBackoff := by
  have both := Machine.run_history (p := fun done (s : DagMonitor) => s.Standing ∧ s.Searching ∧
    (mid.swapsLanded done).length ≤ 2 * (mid.linksHeld done).length + s.silenceBackoff)
    ⟨(run_spec reached).1, (run_spec reached).2, by simp [swapsLanded]⟩ ?_ ran
  · exact ⟨both.1.budget, both.2.2⟩
  · intro done e last next later ih happens
    obtain ⟨standing, searching, counted⟩ := ih
    have budget := standing.budget
    have backoff := backoff_of_step standing happens
    have onward := step_spec standing searching happens
    refine ⟨onward.1, onward.2, ?_⟩
    rw [swapsLanded, linksHeld, Machine.emitted_snoc later, Machine.emitted_snoc later, List.length_append,
      List.length_append, backoff]
    simp only [swapsLanded, linksHeld] at counted
    cases last.silenceSwaps e <;> cases last.holds e <;> simp at counted ⊢ <;> omega

end Budget

section Cause

/-- The user's own hunt, or one that a tap has made the user's. -/
def Asks (s : DagMonitor) : SwapWhy → Prop
  | .asked => True
  | .silent _ _ asked => asked ≠ s.swapsAsked
  | .moved _ _ _ => False

/-- The hunt under way behind the socket is the user's. -/
def TheUsers (s : DagMonitor) (gen : Nat) : Prop :=
  ∃ hunt incumbent why bind, s.hunt = some hunt ∧ (∀ gen, hunt.place ≠ .dialing gen) ∧
    hunt.mode = .swap incumbent why ∧ s.bound = some bind ∧ bind.gen = gen ∧ s.Asks why

/-- The user taps while the socket is the live one. -/
def Taps (s : DagMonitor) (e : Event) (gen : Nat) : Prop :=
  e = .tap ∧ s.isConnected = true ∧ s.bound.map BoundSocket.gen = some gen

variable {gen : Nat} {mode : RaceMode}

theorem Asks.congr {why : SwapWhy} (asked : next.swapsAsked = s.swapsAsked) (asks : next.Asks why) : s.Asks why := by
  cases why <;> simp_all [Asks]

theorem TheUsers.same (users : next.TheUsers gen) (hunt : next.hunt = s.hunt)
    (asked : next.swapsAsked = s.swapsAsked)
    (bound : ∀ bind, next.bound = some bind → ∃ before, s.bound = some before ∧ before.gen = bind.gen) :
    s.TheUsers gen := by
  obtain ⟨one, incumbent, why, bind, hunting, waits, is_, found, rfl, asks⟩ := users
  obtain ⟨before, was, same⟩ := bound bind found
  exact ⟨one, incumbent, why, before, hunt ▸ hunting, waits, is_, was, same, asks.congr asked⟩

/-- The bound socket's own news leaves a hunt whose it was. -/
theorem TheUsers.clocked (users : next.TheUsers gen) (hunt : next.hunt = s.hunt)
    (asked : next.swapsAsked = s.swapsAsked) {bind : BoundSocket} (bound : s.bound = some bind)
    (found : next.bound.map BoundSocket.gen = some bind.gen) : s.TheUsers gen := by
  apply users.same hunt asked
  intro other same
  rw [same] at found
  exact ⟨bind, bound, (Option.some.inj found).symm⟩

theorem not_theUsers (none_ : s.bound = none) : ¬ s.TheUsers gen := by
  rintro ⟨one, incumbent, why, bind, _, _, _, found, _⟩
  rw [none_] at found
  cases found

theorem TheUsers.spawn (users : (s.spawnRaceWith mode).TheUsers gen)
    (unasked : ∀ incumbent why, mode = .swap incumbent why → ¬ s.Asks why) : s.TheUsers gen := by
  obtain ⟨one, incumbent, why, bind, hunting, waits, is_, found, same, asks⟩ := users
  unfold spawnRaceWith at hunting found asks
  split at hunting
  next other is_other =>
    simp only [is_other] at found asks
    exact ⟨one, incumbent, why, bind, hunting, waits, is_, found, same, asks⟩
  next free =>
    simp only [free] at found asks
    cases hunting
    exact absurd asks (unasked incumbent why is_)

theorem recastIfMoved_asks {moved : RaceMode} (recast : s.recastIfMoved mode = some moved) {incumbent : String}
    {why : SwapWhy} (is_ : moved = .swap incumbent why) : ¬ s.Asks why := by
  subst is_
  cases mode with
  | cold => cases recast
  | swap incumbent before =>
    cases before with
    | moved => cases recast
    | _ =>
      obtain ⟨bind, _, same⟩ := Option.map_eq_some_iff.mp recast
      cases same
      exact id

theorem joinedByTap_asks {theirs : RaceMode} (joined : s.joinedByTap mode = some theirs) {incumbent : String}
    {why : SwapWhy} (is_ : theirs = .swap incumbent why) (asks : s.Asks why) :
    ∃ before, mode = .swap incumbent before ∧ s.Asks before := by
  subst is_
  cases mode with
  | cold => cases joined
  | swap incumbent before =>
    cases before with
    | asked => cases joined
    | silent gen ticks asked =>
      simp only [joinedByTap, silenceHuntWasAsked, decide_eq_true_eq] at joined
      split at joined
      next later =>
        cases joined
        exact ⟨_, rfl, fun same => later same.symm⟩
      · cases joined
    | moved gen asked tapped =>
      cases tapped with
      | true => cases joined
      | false =>
        simp only [joinedByTap] at joined
        split at joined
        · cases joined
          cases asks
        · cases joined

/-- No hunt becomes the user's at the loop's head that was not already. -/
theorem head_asks {rounds : Nat} {one : Hunt} (goes : s.head mode rounds = some one) {incumbent : String}
    {why : SwapWhy} (is_ : one.mode = .swap incumbent why) (asks : s.Asks why) :
    ∃ incumbent before, mode = .swap incumbent before ∧ s.Asks before := by
  simp only [head] at goes
  split at goes
  · cases goes
  split at goes
  · cases goes
  cases goes
  have late : ∀ theirs : RaceMode, (s.recastIfMoved theirs).getD theirs = .swap incumbent why →
      theirs = .swap incumbent why := by
    intro theirs same
    cases moved : s.recastIfMoved theirs with
    | none => simpa [moved] using same
    | some moved' =>
      rw [moved, Option.getD_some] at same
      exact absurd asks (recastIfMoved_asks moved same)
  have theirs := late _ is_
  have degraded : ∃ incumbent before, degradeLostSwap mode s.isConnected = .swap incumbent before ∧
      s.Asks before := by
    cases joined : s.joinedByTap (degradeLostSwap mode s.isConnected) with
    | none => exact ⟨incumbent, why, by simpa [joined] using theirs, asks⟩
    | some joined' =>
      rw [joined, Option.getD_some] at theirs
      obtain ⟨before, was, asked⟩ := joinedByTap_asks joined theirs asks
      exact ⟨incumbent, before, was, asked⟩
  obtain ⟨from_, before, was, asked⟩ := degraded
  rcases @degradeLostSwap_cases mode s.isConnected with cold | ⟨same, -⟩
  · rw [cold] at was
    cases was
  · exact ⟨from_, before, same ▸ was, asked⟩

theorem theUsers_head {hunt : Hunt} {rounds : Nat} (hunting : s.hunt = some hunt)
    (waits : ∀ gen, hunt.place ≠ .dialing gen)
    (users : { s with hunt := s.head hunt.mode rounds }.TheUsers gen) : s.TheUsers gen := by
  obtain ⟨one, incumbent, why, bind, goes, _, is_, found, same, asks⟩ := users
  have asks : s.Asks why := asks.congr rfl
  obtain ⟨from_, before, was, asked⟩ := head_asks goes is_ asks
  exact ⟨hunt, from_, before, bind, hunting, waits, was, found, same, asked⟩

theorem theUsers_follow {hunt : Hunt} {winner : String} {held : Option Held} {stale : Nat} {armed : Bool}
    (hunting : s.hunt = some hunt) (waits : ∀ gen, hunt.place ≠ .dialing gen)
    (users : (s.follow hunt.mode winner (.holding winner stale) armed held).TheUsers gen) : s.TheUsers gen := by
  cases held with
  | none =>
    obtain ⟨one, incumbent, why, bind, goes, _, is_, found, same, asks⟩ := users
    cases goes
    exact ⟨hunt, incumbent, why, bind, hunting, waits, is_, found, same, asks.congr rfl⟩
  | some held =>
    cases held with
    | standDown =>
      obtain ⟨one, _, _, _, goes, _⟩ := users
      cases goes
    | stale => exact theUsers_head hunting waits users
    | install =>
      simp only [follow] at users
      split at users
      · exact theUsers_head hunting waits users
      · unfold installBindLeaving at users
        split at users
        · obtain ⟨one, _, _, _, goes, dials, _⟩ := users
          cases goes
          exact absurd rfl (dials _)
        · exact absurd users (not_theUsers retireLeaving_bound)

theorem unasked_cold (t : DagMonitor) : ∀ incumbent why, RaceMode.cold = .swap incumbent why → ¬ t.Asks why := by
  intro incumbent why is_
  cases is_

theorem same_bound (s : DagMonitor) :
    ∀ bind, s.bound = some bind → ∃ before, s.bound = some before ∧ before.gen = bind.gen :=
  fun bind found => ⟨bind, found, rfl⟩

/-- A hunt becomes the user's by a tap alone. -/
theorem theUsers_of_step (standing : s.Standing) (happens : s.step e = some next) (users : next.TheUsers gen) :
    s.TheUsers gen ∨ s.Taps e gen := by
  cases e with
  | elapse ms =>
    cases happens
    exact .inl (users.same rfl rfl (same_bound s))
  | pause =>
    cases happens
    exact absurd users (not_theUsers retireBind_bound)
  | resume =>
    cases happens
    simp only at users
    split at users
    · exact .inl (users.same rfl rfl (same_bound s))
    · exact .inl ((users.spawn (unasked_cold _)).same rfl rfl (same_bound s))
  | tap =>
    cases happens
    simp only [tap] at users
    split at users
    · exact absurd users (not_theUsers (by simp [hardReconnect]))
    next bind found =>
      obtain ⟨bound, connected⟩ := Option.filter_eq_some_iff.mp found
      obtain ⟨_, _, _, other, _, _, _, was, same, _⟩ := users
      rw [spawnRaceWith_bound, show s.bound = some bind from bound] at was
      cases was
      refine .inr ⟨rfl, connected, ?_⟩
      rw [show s.bound = some bind from bound, Option.map_some, same]
  | stalled silent =>
    cases happens
    simp only [stalled] at users
    split at users
    · exact .inl ((users.spawn (unasked_cold _)).same rfl rfl (same_bound s))
    · split at users
      · exact absurd users (not_theUsers (by simp [hardReconnect]))
      · exact .inl (users.same rfl rfl (same_bound s))
  | hardReconnect =>
    cases happens
    exact absurd users (not_theUsers (by simp [hardReconnect]))
  | network event =>
    cases happens
    have marked : ∀ event, (s.noteNetwork event).TheUsers gen → s.TheUsers gen := by
      intro event marked
      unfold noteNetwork at marked
      split at marked <;> exact marked.same rfl rfl (same_bound s)
    have rest : ∀ event, (s.noteNetwork event).onNetwork.TheUsers gen → s.TheUsers gen := by
      intro event after
      apply marked event
      unfold onNetwork huntOffMovedNetwork at after
      split at after
      · exact after
      · split at after
        · split at after
          · split at after
            · exact after
            · refine after.spawn ?_
              intro incumbent why is_
              cases is_
              exact id
          · exact after
        · exact after.spawn (unasked_cold _)
    cases event with
    | lost => exact .inl (users.same rfl rfl (same_bound s))
    | changed => exact .inl (users.same rfl rfl (same_bound s))
    | available => exact .inl (rest .available users)
    | moved => exact .inl (rest .moved users)
  | connected came =>
    obtain ⟨bind, found, rfl⟩ := Option.map_eq_some_iff.mp happens
    obtain ⟨bound, -⟩ := Option.filter_eq_some_iff.mp found
    cases came with
    | refused => exact absurd users (not_theUsers (by simp [onConnected]))
    | unsubscribed => exact .inl (users.same rfl rfl (same_bound s))
    | published => exact .inl (users.clocked rfl rfl bound rfl)
  | disconnected =>
    obtain ⟨bind, bound, rfl⟩ := Option.map_eq_some_iff.mp happens
    simp only [onDisconnected] at users
    split at users
    · exact .inl (users.clocked rfl rfl bound rfl)
    · split at users
      · exact absurd users (not_theUsers retireBind_bound)
      · exact absurd users (not_theUsers (by simp))
  | tick =>
    obtain ⟨bind, bound, rfl⟩ := Option.map_eq_some_iff.mp happens
    exact .inl (users.clocked rfl rfl bound rfl)
  | due explained =>
    obtain ⟨bind, bound, goes⟩ := Option.bind_eq_some_iff.mp happens
    obtain ⟨⟨fell, stage⟩, found, goes⟩ := Option.bind_eq_some_iff.mp goes
    have fresh : ∀ incumbent why, RaceMode.swap bind.url (.silent bind.gen bind.ticks s.swapsAsked) =
        .swap incumbent why → ∀ t : DagMonitor, t.swapsAsked = s.swapsAsked → ¬ t.Asks why := by
      intro incumbent why is_ t asked asks
      cases is_
      exact asks asked.symm
    split at goes
    · rw [Option.some.injEq] at goes
      split at goes
      · cases goes
        exact .inl (users.clocked rfl rfl bound rfl)
      · cases goes
        simp only [onStage] at users
        split at users
        · exact .inl (users.clocked rfl rfl bound rfl)
        · split at users
          · exact .inl ((users.spawn fun incumbent why is_ => fresh incumbent why is_ _ rfl).clocked rfl rfl bound rfl)
          · exact .inl ((users.spawn fun incumbent why is_ => fresh incumbent why is_ _ rfl).clocked rfl rfl bound rfl)
    · cases goes
  | round =>
    obtain ⟨hunt, found, rfl⟩ := Option.map_eq_some_iff.mp happens
    obtain ⟨hunting, place⟩ := Option.filter_eq_some_iff.mp found
    simp only [decide_eq_true_eq] at place
    exact .inl (theUsers_head hunting (by simp [place]) users)
  | raced demoted winner armed =>
    cases winner with
    | none =>
      obtain ⟨hunt, found, rfl⟩ := Option.map_eq_some_iff.mp happens
      obtain ⟨hunting, place⟩ := Option.filter_eq_some_iff.mp found
      simp only [decide_eq_true_eq] at place
      obtain ⟨one, incumbent, why, bind, goes, _, is_, found, same, asks⟩ := users
      simp only at goes
      split at goes
      · cases goes
      · cases goes
        exact .inl ⟨hunt, incumbent, why, bind, hunting, by simp [place], is_, found, same, asks.congr rfl⟩
    | some winner =>
      obtain ⟨⟨hunt, won, held⟩, found, _⟩ := Option.map_eq_some_iff.mp happens
      have judged := judged_spec standing found
      obtain ⟨stale, armed, goes⟩ := judged.step
      rw [goes] at happens
      cases happens
      exact .inl (theUsers_follow judged.hunts judged.waits users)
  | held armed =>
    obtain ⟨⟨hunt, won, held⟩, found, _⟩ := Option.map_eq_some_iff.mp happens
    have judged := judged_spec standing found
    obtain ⟨stale, armed, goes⟩ := judged.step
    rw [goes] at happens
    cases happens
    exact .inl (theUsers_follow judged.hunts judged.waits users)
  | dialed came =>
    obtain ⟨hunt, hunting, goes⟩ := Option.bind_eq_some_iff.mp happens
    split at goes
    next gen' place =>
      cases goes
      cases came with
      | false =>
        refine absurd users (not_theUsers ?_)
        simp
      | true =>
        simp only [if_true] at users
        split at users
        · exact absurd users (not_theUsers (by simp))
        · split at users
          · obtain ⟨one, _, _, _, goes, _⟩ := users
            cases goes
          next gone =>
            refine absurd users (not_theUsers ?_)
            cases bound : s.bound with
            | none => simp
            | some bind =>
              simp [currentBind, bound, (standing.hunting hunt hunting).dials gen' bind place bound] at gone
    · cases goes

/-- A tap of the run that found the socket live. -/
def Tapped (es : List Event) (gen : Nat) : Prop := ∃ mid e, Machine.Passes step start es mid e ∧ mid.Taps e gen

theorem run_users (ran : Machine.run step start es = some s) (users : s.TheUsers gen) : Tapped es gen := by
  refine Machine.run_history (p := fun done (s : DagMonitor) => s.TheUsers gen → Tapped done gen) ?_ ?_ ran users
  · rintro ⟨_, _, _, bind, _, _, _, bound, _⟩
    cases bound
  · intro done e mid next reached ih happens users
    rcases theUsers_of_step (run_spec reached).1 happens users with before | taps
    · obtain ⟨early, one, passes, taps⟩ := ih before
      exact ⟨early, one, passes.snoc e, taps⟩
    · exact ⟨mid, e, .last reached e, taps⟩

/-- A socket gives way to another only to a hunt's winner, and while it is live only for cause: another node, for a
    user who tapped on it or for a silence that ran to the deadline in force, or any, on a network it is not on. -/
theorem a_live_socket_gives_way_for_cause (ran : Machine.run step start es = some s)
    (happens : s.step e = some next) {bind other : BoundSocket} (live : s.isConnected = true)
    (bound : s.bound = some bind) (replaced : next.bound = some other) (another : other.gen ≠ bind.gen) :
    ∃ incumbent why, s.comesIn e = some (.swap incumbent why, other.url) ∧
      (other.url = bind.url → s.retireCause (.swap incumbent why) = .networkSwap) ∧
      match s.retireCause (.swap incumbent why) with
      | .superseded => Tapped es bind.gen
      | .networkSwap => s.networkMovedUnder bind = true
      | .silenceSwap => s.Due bind := by
  have standing := (run_spec ran).1
  cases comes : s.comesIn e with
  | none =>
    obtain ⟨before, was, same⟩ := (stays_of_step happens comes).bound other replaced
    rw [bound] at was
    cases was
    exact absurd same.symm another
  | some found =>
    obtain ⟨mode, winner⟩ := found
    obtain ⟨behind, clear, gate, unruled, ⟨hunt, hunting, is_, waits⟩, armed, goes⟩ := comesIn_spec standing comes
    have url : winner = other.url := by
      rw [goes] at happens
      cases happens
      unfold installBindLeaving at replaced
      split at replaced
      · cases replaced
        rfl
      · simp at replaced
    subst url
    cases mode with
    | cold => simp [installGate, mayBindFromRace, live] at gate
    | swap incumbent why =>
      obtain ⟨announced, rfl, leaves⟩ := behind _ _ bind rfl bound
      refine ⟨bind.url, why, rfl, ?_, ?_⟩
      · intro same
        cases why with
        | moved => rfl
        | _ => simp [roundExclusions, same] at clear
      · cases cause : s.retireCause (.swap bind.url why) with
        | superseded =>
          apply run_users ran
          refine ⟨hunt, bind.url, why, bind, hunting, waits, is_, bound, rfl, ?_⟩
          cases why with
          | asked => exact True.intro
          | moved => cases cause
          | silent gen ticks asked =>
            simp only [retireCause] at cause
            split at cause
            next later =>
              simp only [silenceHuntWasAsked, decide_eq_true_eq] at later
              exact fun same => later same.symm
            · split at cause <;> cases cause
        | networkSwap =>
          cases why with
          | asked => cases cause
          | moved => exact leaves.2.1
          | silent gen ticks asked =>
            simp only [retireCause] at cause
            split at cause
            · cases cause
            · split at cause
              next moved => simpa [bound] using moved
              · cases cause
        | silenceSwap => exact (standing.due bind bound (swapDue_of_cause standing behind gate cause bound)).2

end Cause

/-- An unpaused monitor with nothing bound is hunting, whatever its hunts and their dials came to, and a swap hunt
    begins no round with its rounds spent. -/
theorem never_dark_without_a_hunt (ran : Machine.run step start es = some s) :
    (s.paused = false → s.bound = none → s.hunt.isSome = true) ∧
      ∀ hunt, s.hunt = some hunt → hunt.place = .racing → hunt.mode ≠ .cold → hunt.emptyRounds < SWAP_HUNT_ROUNDS := by
  obtain ⟨standing, searching⟩ := run_spec ran
  exact ⟨searching, fun hunt hunting => (standing.hunting hunt hunting).races⟩

section Sample

/-- A socket comes up and falls silent; its replacement is found at the pre-dial and held. -/
def silentBehindWinner : List Event :=
  [.round, .raced [] (some "wss://quiet.example") true, .connected .published, .dialed true, .elapse 3000,
    .due false, .round, .raced [] (some "wss://fresh.example") true, .elapse 6000, .due false]

theorem silence_swaps_are_budgeted_silentBehindWinner :
    ∃ s, Machine.run step start (silentBehindWinner ++ [.held true]) = some s ∧
      start.swapsLanded (silentBehindWinner ++ [.held true]) = [1] ∧
      s.silenceBackoff ≤ 2 ∧ (start.swapsLanded (silentBehindWinner ++ [.held true])).length ≤
        2 * (start.linksHeld (silentBehindWinner ++ [.held true])).length + s.silenceBackoff := by
  have goes : (Machine.run step start (silentBehindWinner ++ [.held true])).isSome = true := by decide +kernel
  obtain ⟨s, ran⟩ := Option.isSome_iff_exists.mp goes
  have nothing : Machine.run step start [] = some start := rfl
  exact ⟨s, ran, by decide +kernel, silence_swaps_are_budgeted nothing ran⟩

theorem a_live_socket_gives_way_for_cause_silentBehindWinner :
    ∃ s bind why, Machine.run step start silentBehindWinner = some s ∧ s.bound = some bind ∧
      s.comesIn (.held true) = some (.swap "wss://quiet.example" why, "wss://fresh.example") ∧
      s.retireCause (.swap "wss://quiet.example" why) = .silenceSwap ∧ s.Due bind := by
  have runs : (Machine.run step start silentBehindWinner).any (fun s =>
      (s.bound.any fun bind => (s.step (.held true)).any fun next => next.bound.any fun other =>
        decide (other.gen ≠ bind.gen)) && s.isConnected &&
      decide (s.comesIn (.held true) =
        some (.swap "wss://quiet.example" (.silent 1 0 0), "wss://fresh.example")) &&
      decide (s.retireCause (.swap "wss://quiet.example" (.silent 1 0 0)) = .silenceSwap)) = true := by
    decide +kernel
  obtain ⟨s, ran, facts⟩ := (Option.any_eq_true _ _).mp runs
  simp only [Bool.and_eq_true, decide_eq_true_eq] at facts
  obtain ⟨⟨⟨replaced, live⟩, comes⟩, cause⟩ := facts
  obtain ⟨bind, bound, rest⟩ := (Option.any_eq_true _ _).mp replaced
  obtain ⟨next, happens, rest⟩ := (Option.any_eq_true _ _).mp rest
  obtain ⟨other, found, rest⟩ := (Option.any_eq_true _ _).mp rest
  obtain ⟨incumbent, why, is_, -, for_⟩ :=
    a_live_socket_gives_way_for_cause ran happens live bound found (of_decide_eq_true rest)
  simp only [comes, Option.some.injEq, Prod.mk.injEq, RaceMode.swap.injEq] at is_
  obtain ⟨⟨rfl, rfl⟩, -⟩ := is_
  rw [cause] at for_
  exact ⟨s, bind, _, ran, bound, comes, cause, for_⟩

theorem never_dark_without_a_hunt_silentBehindWinner :
    ∃ s, Machine.run step start (silentBehindWinner ++ [.disconnected, .held false]) = some s ∧
      s.hunt.isSome = true := by
  have goes : (Machine.run step start (silentBehindWinner ++ [.disconnected, .held false])).any (fun s =>
      !s.paused && s.bound.isNone) = true := by decide +kernel
  obtain ⟨s, ran, dark⟩ := (Option.any_eq_true _ _).mp goes
  simp only [Bool.and_eq_true, Bool.not_eq_true', Option.isNone_iff_eq_none] at dark
  exact ⟨s, ran, (never_dark_without_a_hunt ran).1 dark.1 dark.2⟩

end Sample

end DagMonitor

end Kaspaverse.Link
