import Mathlib.Data.List.Dedup
import Kaspaverse.Link.Race

namespace Kaspaverse.Link

open Core

namespace Event

def failure (event : Event) : Option Text :=
  match event.what with
  | .probeFailed url _ => some url
  | _ => none

def success (event : Event) : Option ProbeOutcome :=
  match event.what with
  | .probeHealthy found => some found
  | _ => none

/-- The address whose probe the event ends. -/
def ended (event : Event) : Option Text :=
  match event.what with
  | .probeFailed url _ => some url
  | .probeHealthy found => some found.url
  | _ => none

def endsGrace (event : Event) : Bool :=
  match event.what with
  | .graceOver => true
  | _ => false

end Event

def failures (events : List Event) : List Text := events.filterMap Event.failure

def successes (events : List Event) : List ProbeOutcome := events.filterMap Event.success

/-- The successes that come before the wait for them ends. -/
def heard (events : List Event) : List ProbeOutcome := successes (events.takeWhile fun event => !event.endsGrace)

def ended (events : List Event) : List Text := events.filterMap Event.ended

section Entering

variable {entry : Entry}

theorem mem_entered {urls entered : List Text} {url : Text} :
    url ∈ urls.foldl (fun entered url => if url ∈ entered then entered else entered ++ [url]) entered ↔
      url ∈ entered ∨ url ∈ urls := by
  induction urls generalizing entered with
  | nil => simp
  | cons first urls ih =>
    rw [List.foldl_cons, ih, List.mem_cons]
    by_cases held : first ∈ entered
    · rw [if_pos held]
      constructor
      · rintro (before | later)
        · exact Or.inl before
        · exact Or.inr (Or.inr later)
      · rintro (before | rfl | later)
        · exact Or.inl before
        · exact Or.inl held
        · exact Or.inr later
    · rw [if_neg held, List.mem_append, List.mem_singleton, or_assoc]

theorem nodup_entered {urls entered : List Text} (distinct : entered.Nodup) :
    (urls.foldl (fun entered url => if url ∈ entered then entered else entered ++ [url]) entered).Nodup := by
  induction urls generalizing entered with
  | nil => exact distinct
  | cons first urls ih =>
    rw [List.foldl_cons]
    apply ih
    split
    · exact distinct
    next fresh =>
      rw [List.nodup_append]
      refine ⟨distinct, List.nodup_singleton first, ?_⟩
      intro a held b new same
      rw [List.mem_singleton.mp new] at same
      exact fresh (same ▸ held)

theorem Entry.nodup_immediate (entry : Entry) : entry.immediate.Nodup := nodup_entered List.nodup_nil

theorem Entry.mem_immediate {url : Text} :
    url ∈ entry.immediate ↔ url ∈ entry.cached.toList ++ entry.pantry ∧ url ∉ entry.excluded := by
  rw [Entry.immediate, mem_entered, List.mem_filter, decide_eq_true_eq]
  simp

end Entering

/-- Who may be dialed and who was, and that each probe ends once. -/
structure Fair (entry : Entry) (events : List Event) (round : Round) : Prop where
  seen : ∀ url, url ∈ round.seen ↔ url ∈ round.probed
  once : round.probed.Nodup
  allowed : ∀ url ∈ round.probed, url ∉ entry.excluded ∧ (url ∈ entry.immediate ∨ candidateUrlIsClean url = true)
  dialed : ∀ url, url ∈ round.probed ↔ url ∈ ended events ∨ url ∈ round.dialing
  apart : ∀ url ∈ ended events, url ∉ round.dialing
  endedOnce : (ended events).Nodup

theorem fair_start (entry : Entry) : Fair entry [] (Round.start entry) := by
  have rows : ((entry.immediate.map fun url => (url, Lane.immediate)).map Prod.fst).Nodup := by
    rw [List.map_map]
    exact (List.map_id _).symm ▸ entry.nodup_immediate
  constructor
  · intro url
    simp [Round.start]
  · exact entry.nodup_immediate
  · intro url member
    exact ⟨(Entry.mem_immediate.mp member).2, Or.inl member⟩
  · intro url
    simp only [Round.start, ended, List.filterMap_nil, List.not_mem_nil, false_or, KeyMap.mem_iff_lookup,
      KeyMap.lookup_ofRows rows, List.mem_map, Prod.mk.injEq]
    constructor
    · intro member
      exact ⟨.immediate, url, member, rfl, rfl⟩
    · rintro ⟨lane, other, member, rfl, -⟩
      exact member
  · intro url member
    cases member
  · exact List.nodup_nil

/-- An event that ends no probe and starts none leaves the round fair. -/
theorem Fair.silent {entry : Entry} {events : List Event} {round after : Round} (fair : Fair entry events round)
    {event : Event} (silent : event.ended = none) (seen : after.seen = round.seen) (probed : after.probed = round.probed)
    (dialing : after.dialing = round.dialing) : Fair entry (events ++ [event]) after := by
  have same : ended (events ++ [event]) = ended events := by
    simp [ended, silent]
  constructor
  · rw [seen, probed]
    exact fair.seen
  · rw [probed]
    exact fair.once
  · rw [probed]
    exact fair.allowed
  · rw [probed, same, dialing]
    exact fair.dialed
  · rw [same, dialing]
    exact fair.apart
  · rw [same]
    exact fair.endedOnce

theorem Fair.endProbe {entry : Entry} {events : List Event} {round after : Round} (fair : Fair entry events round)
    {event : Event} {url : Text} (ends : event.ended = some url) (flying : url ∈ round.dialing)
    (seen : after.seen = round.seen) (probed : after.probed = round.probed)
    (dialing : after.dialing = round.dialing.erase url) : Fair entry (events ++ [event]) after := by
  have grown : ended (events ++ [event]) = ended events ++ [url] := by
    simp [ended, ends]
  have fresh : url ∉ ended events := fun before => fair.apart url before flying
  constructor
  · rw [seen, probed]
    exact fair.seen
  · rw [probed]
    exact fair.once
  · rw [probed]
    exact fair.allowed
  · intro other
    rw [probed, grown, dialing, fair.dialed, List.mem_append, List.mem_singleton, AList.mem_erase]
    by_cases own : other = url
    · subst own
      simp [flying]
    · simp [own]
  · intro other member
    rw [dialing, AList.mem_erase]
    rw [grown, List.mem_append, List.mem_singleton] at member
    rcases member with before | same
    · exact fun still => fair.apart other before still.2
    · exact fun still => still.1 same
  · rw [grown, List.nodup_append]
    refine ⟨fair.endedOnce, List.nodup_singleton url, ?_⟩
    intro a before b last same
    rw [List.mem_singleton.mp last] at same
    exact fresh (same ▸ before)

theorem Fair.dial {entry : Entry} {events : List Event} {round after : Round} (fair : Fair entry events round)
    {event : Event} {url : Text} (silent : event.ended = none) (clean : candidateUrlIsClean url = true)
    (allowed : url ∉ entry.excluded) (fresh : url ∉ round.seen) (seen : after.seen = insert url round.seen)
    (probed : after.probed = round.probed ++ [url]) (dialing : after.dialing = round.dialing.insert url .fetched) :
    Fair entry (events ++ [event]) after := by
  have same : ended (events ++ [event]) = ended events := by
    simp [ended, silent]
  have new : url ∉ round.probed := fun before => fresh ((fair.seen url).mpr before)
  constructor
  · intro other
    rw [seen, probed, Finset.mem_insert, fair.seen, List.mem_append, List.mem_singleton, or_comm]
  · rw [probed, List.nodup_append]
    refine ⟨fair.once, List.nodup_singleton url, ?_⟩
    intro a before b last same
    rw [List.mem_singleton.mp last] at same
    exact new (same ▸ before)
  · intro other member
    rw [probed, List.mem_append, List.mem_singleton] at member
    rcases member with before | rfl
    · exact fair.allowed other before
    · exact ⟨allowed, Or.inr clean⟩
  · intro other
    rw [probed, same, dialing, List.mem_append, List.mem_singleton, fair.dialed, AList.mem_insert, or_assoc]
    tauto
  · intro other member
    rw [same] at member
    rw [dialing, AList.mem_insert]
    rintro (rfl | still)
    · exact new ((fair.dialed other).mpr (Or.inl member))
    · exact fair.apart other member still
  · rw [same]
    exact fair.endedOnce

theorem Fair.take {entry : Entry} {events : List Event} {round : Round} (fair : Fair entry events round) {event : Event}
    (silent : event.ended = none) (url : Text) : Fair entry (events ++ [event]) (round.take entry url) := by
  unfold Round.take
  split
  · exact fair.silent silent rfl rfl rfl
  next clean =>
    split
    · exact fair.silent silent rfl rfl rfl
    next allowed =>
      split
      · exact fair.silent silent rfl rfl rfl
      next fresh => exact fair.dial silent (Bool.not_eq_false _ ▸ clean) allowed fresh rfl rfl rfl

theorem step_fair {entry : Entry} {events : List Event} {round after : Round} (fair : Fair entry events round)
    {event : Event} (stepped : round.step entry event = some after) : Fair entry (events ++ [event]) after := by
  obtain ⟨now, what⟩ := event
  simp only [Round.step] at stepped
  split at stepped
  · cases stepped
  have timed : Fair entry events { round with clock := now } :=
    ⟨fair.seen, fair.once, fair.allowed, fair.dialed, fair.apart, fair.endedOnce⟩
  cases what with
  | walkFailed text =>
    simp only [Round.happen] at stepped
    split at stepped
    · cases stepped
    · cases stepped
      exact timed.silent rfl rfl rfl rfl
  | walkNamed url =>
    simp only [Round.happen] at stepped
    split at stepped
    · cases stepped
    · cases stepped
      exact timed.take rfl url
  | probeFailed url text =>
    obtain ⟨lane, flying, rfl⟩ := Option.map_eq_some_iff.mp stepped
    exact timed.endProbe rfl (KeyMap.mem_of_lookup flying) rfl rfl rfl
  | probeHealthy found =>
    obtain ⟨lane, flying, rfl⟩ := Option.map_eq_some_iff.mp stepped
    exact timed.endProbe rfl (KeyMap.mem_of_lookup flying) rfl rfl rfl
  | graceOver =>
    simp only [Round.happen] at stepped
    split at stepped
    · split at stepped
      · cases stepped
        exact timed.silent rfl rfl rfl rfl
      · cases stepped
    · cases stepped
  | drained =>
    simp only [Round.happen] at stepped
    split at stepped
    · cases stepped
    · split at stepped
      · cases stepped
        exact timed.silent rfl rfl rfl rfl
      · cases stepped

theorem run_fair {entry : Entry} {events : List Event} {round : Round}
    (ran : Machine.run (Round.step entry) (Round.start entry) events = some round) : Fair entry events round :=
  Machine.run_history (p := Fair entry) (fair_start entry)
    (fun _ _ _ _ _ fair stepped => step_fair fair stepped) ran

/-- An immediate candidate still in flight at the first answer, and ranked before it. -/
def Rival (entry : Entry) (before : List Event) (first : ProbeOutcome) (other : Text) : Prop :=
  (other ∈ entry.immediate ∧ other ∉ failures before ∧ other ≠ first.url) ∧
    ∃ rank, entry.rankOf other = some rank ∧ ∀ best, entry.rankOf first.url = some best → rank < best

theorem mem_waiting {entry : Entry} {before : List Event} {first : ProbeOutcome} {other : Text} :
    other ∈ entry.waiting first.url (failures before).toFinset ↔ Rival entry before first other := by
  simp only [Entry.waiting, List.mem_filter, Bool.and_eq_true, decide_eq_true_eq, List.mem_toFinset, Rival, Entry.better]
  cases ranked : entry.rankOf other with
  | none => simp
  | some rank =>
    cases entry.rankOf first.url with
    | none =>
      simp
      tauto
    | some best =>
      simp
      tauto

/-- The first answer, unless rivals of it were heard: then one of the best ranked of these. -/
structure Wins (entry : Entry) (before : List Event) (first : ProbeOutcome) (heard : List ProbeOutcome)
    (winner : ProbeOutcome) : Prop where
  stands : (∀ other ∈ heard, ¬ Rival entry before first other.url) → winner = first
  yields : (∃ other ∈ heard, Rival entry before first other.url) →
    winner ∈ heard ∧ Rival entry before first winner.url ∧
      ∀ other ∈ heard, Rival entry before first other.url → ∀ rank best, entry.rankOf other.url = some rank →
        entry.rankOf winner.url = some best → best ≤ rank

theorem wins_first (entry : Entry) (before : List Event) (first : ProbeOutcome) : Wins entry before first [] first := by
  constructor
  · intro _
    rfl
  · rintro ⟨other, member, -⟩
    cases member

theorem Wins.deaf {entry : Entry} {before : List Event} {first winner : ProbeOutcome} {heard : List ProbeOutcome}
    (wins : Wins entry before first heard winner) {other : ProbeOutcome} (plain : ¬ Rival entry before first other.url) :
    Wins entry before first (heard ++ [other]) winner := by
  constructor
  · intro none_
    exact wins.stands fun earlier member => none_ earlier (List.mem_append_left _ member)
  · rintro ⟨rival, member, rivals⟩
    have within : rival ∈ heard := by
      rcases List.mem_append.mp member with before | last
      · exact before
      · rw [List.mem_singleton.mp last] at rivals
        exact absurd rivals plain
    obtain ⟨mine, named, least⟩ := wins.yields ⟨rival, within, rivals⟩
    refine ⟨List.mem_append_left _ mine, named, ?_⟩
    intro another listed challenges
    rcases List.mem_append.mp listed with before | last
    · exact least another before challenges
    · rw [List.mem_singleton.mp last] at challenges
      exact absurd challenges plain

/-- A rival that ranks before the best so far takes its place. -/
theorem Wins.overtaken {entry : Entry} {before : List Event} {first winner : ProbeOutcome} {heard : List ProbeOutcome}
    (wins : Wins entry before first heard winner) {other : ProbeOutcome} (rival : Rival entry before first other.url)
    {rank : Nat} (ranked : entry.rankOf other.url = some rank)
    (better : Entry.better rank (entry.rankOf winner.url) = true) : Wins entry before first (heard ++ [other]) other := by
  constructor
  · intro none_
    exact absurd rival (none_ other (by simp))
  · intro _
    refine ⟨by simp, rival, ?_⟩
    intro another listed challenges itsRank best itsRanked same
    rw [ranked] at same
    cases same
    rcases List.mem_append.mp listed with before | last
    · obtain ⟨-, named, least⟩ := wins.yields ⟨another, before, challenges⟩
      obtain ⟨-, held, holds, -⟩ := named
      have below := least another before challenges itsRank held itsRanked holds
      rw [holds] at better
      have less : rank < held := of_decide_eq_true better
      omega
    · rw [List.mem_singleton.mp last, ranked] at itsRanked
      cases itsRanked
      exact Nat.le_refl _

/-- A rival that does not leaves it there. -/
theorem Wins.kept {entry : Entry} {before : List Event} {first winner : ProbeOutcome} {heard : List ProbeOutcome}
    (wins : Wins entry before first heard winner) {other : ProbeOutcome} (rival : Rival entry before first other.url)
    {rank : Nat} (ranked : entry.rankOf other.url = some rank)
    (worse : Entry.better rank (entry.rankOf winner.url) = false) : Wins entry before first (heard ++ [other]) winner := by
  have some_ : ∃ earlier ∈ heard, Rival entry before first earlier.url := by
    by_contra none_
    push Not at none_
    -- The first answer would still be best, and a rival ranks before it.
    rw [wins.stands none_] at worse
    obtain ⟨-, its, itsRanked, below⟩ := rival
    rw [ranked] at itsRanked
    cases itsRanked
    cases firstRank : entry.rankOf first.url with
    | none =>
      rw [firstRank] at worse
      cases worse
    | some best =>
      rw [firstRank] at worse
      have less := below best firstRank
      simp [Entry.better] at worse
      omega
  obtain ⟨mine, named, least⟩ := wins.yields some_
  constructor
  · intro none_
    exact absurd rival (none_ other (by simp))
  · intro _
    refine ⟨List.mem_append_left _ mine, named, ?_⟩
    intro another listed challenges itsRank best itsRanked holds
    rcases List.mem_append.mp listed with before | last
    · exact least another before challenges itsRank best itsRanked holds
    · rw [List.mem_singleton.mp last, ranked] at itsRanked
      cases itsRanked
      rw [holds] at worse
      simp [Entry.better] at worse
      exact worse

/-- A round's events up to and behind its first success. -/
structure Split (events before after : List Event) (now : Nat) (first : ProbeOutcome) : Prop where
  here : events = before ++ ⟨now, .probeHealthy first⟩ :: after
  none_before : successes before = []

/-- The wait is not over before its time. -/
def Patient (now : Nat) (after : List Event) : Prop :=
  ∀ event ∈ after, event.endsGrace = true → now + PREFER_GRACE ≤ event.now

/-- Nothing more can count for the winner. -/
def Settled (entry : Entry) (before after : List Event) (first : ProbeOutcome) (idle : Bool) : Prop :=
  entry.waiting first.url (failures before).toFinset = [] ∨ (∃ event ∈ after, event.endsGrace = true) ∨ idle = true

structure Graced (entry : Entry) (events before after : List Event) (now : Nat) (first : ProbeOutcome)
    (outcome : RaceOutcome) (waiting : List Text) (best : ProbeOutcome) (bestRank : Option Nat) (deadline : Nat) :
    Prop where
  split : Split events before after now first
  failed : outcome.failed.map Prod.fst = failures before
  open_ : ∀ event ∈ after, event.endsGrace = false
  waits : waiting = entry.waiting first.url (failures before).toFinset
  ranked : bestRank = entry.rankOf best.url
  wins : Wins entry before first (successes after) best
  due : deadline = now + PREFER_GRACE

structure Decided (entry : Entry) (events before after : List Event) (now : Nat) (first : ProbeOutcome)
    (idle : Bool) (outcome : RaceOutcome) (winner : ProbeOutcome) : Prop where
  split : Split events before after now first
  failed : outcome.failed.map Prod.fst = failures before
  won : outcome.winner = some winner
  wins : Wins entry before first (heard after) winner
  patient : Patient now after
  settled : Settled entry before after first idle

/-- What a round has collected, phase by phase, told by its events. -/
def Account (entry : Entry) (events : List Event) (round : Round) : Prop :=
  match round.phase with
  | .collecting outcome finished =>
    successes events = [] ∧ outcome.winner = none ∧ outcome.failed.map Prod.fst = failures events ∧
      finished = (failures events).toFinset
  | .grace outcome waiting best bestRank deadline =>
    ∃ before after now first, Graced entry events before after now first outcome waiting best bestRank deadline
  | .returned outcome =>
    (successes events = [] ∧ outcome.winner = none ∧ outcome.failed.map Prod.fst = failures events ∧ round.idle = true) ∨
      ∃ before after now first winner, Decided entry events before after now first round.idle outcome winner

theorem account_start (entry : Entry) : Account entry [] (Round.start entry) :=
  ⟨rfl, rfl, rfl, rfl⟩

theorem Split.snoc {events before after : List Event} {now : Nat} {first : ProbeOutcome}
    (split : Split events before after now first) (event : Event) :
    Split (events ++ [event]) before (after ++ [event]) now first := by
  constructor
  · rw [split.here, List.append_assoc, List.cons_append]
  · exact split.none_before

theorem heard_snoc {after : List Event} (event : Event) (closed : ∃ earlier ∈ after, earlier.endsGrace = true) :
    heard (after ++ [event]) = heard after := by
  obtain ⟨earlier, member, ends⟩ := closed
  have stops : ¬ ∀ event ∈ after, (!event.endsGrace) = true := by
    intro never
    have open_ := never earlier member
    rw [ends] at open_
    cases open_
  rw [heard, List.takeWhile_append, if_neg, heard]
  intro whole
  apply stops
  intro other listed
  have same : after.takeWhile (fun event => !event.endsGrace) = after :=
    (List.takeWhile_prefix _).eq_of_length whole
  rw [← same] at listed
  exact List.mem_takeWhile_imp (p := fun event : Event => !event.endsGrace) listed

theorem heard_open {after : List Event} (open_ : ∀ event ∈ after, event.endsGrace = false) :
    heard after = successes after := by
  rw [heard, List.takeWhile_eq_self_iff.mpr]
  intro event member
  rw [open_ event member]
  rfl

theorem heard_grown {after : List Event} (open_ : ∀ event ∈ after, event.endsGrace = false) (event : Event) :
    heard (after ++ [event]) = if event.endsGrace then successes after else successes after ++ event.success.toList := by
  have whole : ∀ earlier ∈ after, (!earlier.endsGrace) = true := by
    intro earlier member
    rw [open_ earlier member]
    rfl
  rw [heard, List.takeWhile_append_of_pos whole]
  cases ends : event.endsGrace with
  | true => simp [ends]
  | false =>
    cases found : event.success with
    | none => simp [ends, successes, found]
    | some outcome => simp [ends, successes, found]

theorem heard_silent {after : List Event} {event : Event} (silent : event.success = none) :
    heard (after ++ [event]) = heard after := by
  by_cases open_ : ∀ earlier ∈ after, earlier.endsGrace = false
  · rw [heard_grown open_, heard_open open_, silent]
    split
    · rfl
    · exact List.append_nil _
  · push Not at open_
    obtain ⟨earlier, member, ends⟩ := open_
    exact heard_snoc event ⟨earlier, member, Bool.not_eq_false _ ▸ ends⟩

theorem Patient.snoc {now : Nat} {after : List Event} (patient : Patient now after) {event : Event}
    (timely : event.endsGrace = true → now + PREFER_GRACE ≤ event.now) : Patient now (after ++ [event]) := by
  intro other member ends
  rcases List.mem_append.mp member with before | last
  · exact patient other before ends
  · rw [List.mem_singleton.mp last] at ends ⊢
    exact timely ends

theorem Settled.busy {entry : Entry} {before after : List Event} {first : ProbeOutcome} {idle next : Bool}
    (settled : Settled entry before after first idle) (busy : idle = false) (event : Event) :
    Settled entry before (after ++ [event]) first next := by
  rcases settled with none_ | ⟨earlier, member, ends⟩ | still
  · exact Or.inl none_
  · exact Or.inr (Or.inl ⟨earlier, List.mem_append_left _ member, ends⟩)
  · rw [still] at busy
    cases busy

/-- What a round that has returned keeps as its tasks go on. -/
theorem Decided.snoc {entry : Entry} {events before after : List Event} {now : Nat} {first winner : ProbeOutcome}
    {idle next : Bool} {outcome : RaceOutcome}
    (decided : Decided entry events before after now first idle outcome winner) (busy : idle = false)
    {event : Event} (goesOn : event.endsGrace = false) :
    Decided entry (events ++ [event]) before (after ++ [event]) now first next outcome winner := by
  have patient : Patient now (after ++ [event]) := by
    apply decided.patient.snoc
    rw [goesOn]
    intro ends
    cases ends
  refine ⟨decided.split.snoc event, decided.failed, decided.won, ?_, patient, decided.settled.busy busy event⟩
  cases found : event.success with
  | none =>
    rw [heard_silent found]
    exact decided.wins
  | some other =>
    rcases decided.settled with none_ | closed | still
    · by_cases open_ : ∀ earlier ∈ after, earlier.endsGrace = false
      · have plain : ¬ Rival entry before first other.url := by
          rw [← mem_waiting, none_]
          exact List.not_mem_nil
        have wins := decided.wins
        rw [heard_open open_] at wins
        rw [heard_grown open_, goesOn, found]
        exact wins.deaf plain
      · push Not at open_
        obtain ⟨earlier, member, ends⟩ := open_
        rw [heard_snoc event ⟨earlier, member, Bool.not_eq_false _ ▸ ends⟩]
        exact decided.wins
    · rw [heard_snoc event closed]
      exact decided.wins
    · rw [still] at busy
      cases busy

theorem failures_snoc (events : List Event) (event : Event) :
    failures (events ++ [event]) = failures events ++ event.failure.toList := by
  cases failed : event.failure <;> simp [failures, failed]

theorem successes_snoc (events : List Event) (event : Event) :
    successes (events ++ [event]) = successes events ++ event.success.toList := by
  cases found : event.success <;> simp [successes, found]

theorem Graced.silent {entry : Entry} {events before after : List Event} {now : Nat} {first best : ProbeOutcome}
    {outcome : RaceOutcome} {waiting : List Text} {bestRank : Option Nat} {deadline : Nat}
    (graced : Graced entry events before after now first outcome waiting best bestRank deadline) {event : Event}
    (goesOn : event.endsGrace = false) (silent : event.success = none) :
    Graced entry (events ++ [event]) before (after ++ [event]) now first outcome waiting best bestRank deadline := by
  refine ⟨graced.split.snoc event, graced.failed, ?_, graced.waits, graced.ranked, ?_, graced.due⟩
  · intro other member
    rcases List.mem_append.mp member with earlier | last
    · exact graced.open_ other earlier
    · rw [List.mem_singleton.mp last]
      exact goesOn
  · rw [successes_snoc, silent]
    simpa using graced.wins

/-- A task that ends without a healthy answer, or starts a dial. -/
theorem account_silent {entry : Entry} {events : List Event} {round after : Round} (account : Account entry events round)
    (busy : round.idle = false) {event : Event} (goesOn : event.endsGrace = false) (silent : event.success = none)
    (phase : (after.phase = round.phase ∧ event.failure = none) ∨
      ∃ loss : RaceLoss, after.phase = round.phase.lose loss ∧ event.failure = loss.struck.map Prod.fst) :
    Account entry (events ++ [event]) after := by
  unfold Account at account ⊢
  cases was : round.phase with
  | collecting outcome finished =>
    rw [was] at account phase
    obtain ⟨none_, won, failed, gone⟩ := account
    have still : successes (events ++ [event]) = [] := by
      rw [successes_snoc, none_, silent]
      rfl
    rcases phase with ⟨same, failure⟩ | ⟨loss, lost, failure⟩
    · rw [same]
      have grown : failures (events ++ [event]) = failures events := by
        rw [failures_snoc, failure]
        exact List.append_nil _
      rw [grown]
      exact ⟨still, won, failed, gone⟩
    · rw [lost, failures_snoc, failure]
      refine ⟨still, won, ?_, ?_⟩
      · rw [List.map_append, failed]
        cases loss.struck <;> rfl
      · rw [gone]
        cases loss.struck with
        | none => simp
        | some struck =>
          ext url
          simp only [Option.elim_some, Option.map_some, Option.toList_some, Finset.mem_insert, List.mem_toFinset,
            List.mem_append, List.mem_singleton]
          exact or_comm
  | grace outcome waiting best bestRank deadline =>
    have same : after.phase = .grace outcome waiting best bestRank deadline := by
      rcases phase with ⟨same, -⟩ | ⟨loss, lost, -⟩
      · exact same.trans was
      · rw [lost, was]
        rfl
    rw [was] at account
    rw [same]
    obtain ⟨before, behind, now, first, graced⟩ := account
    exact ⟨before, behind ++ [event], now, first, graced.silent goesOn silent⟩
  | returned outcome =>
    have same : after.phase = .returned outcome := by
      rcases phase with ⟨same, -⟩ | ⟨loss, lost, -⟩
      · exact same.trans was
      · rw [lost, was]
        rfl
    rw [was] at account
    rw [same]
    rcases account with ⟨-, -, -, idle⟩ | ⟨before, behind, now, first, winner, decided⟩
    · rw [idle] at busy
      cases busy
    · exact Or.inr ⟨before, behind ++ [event], now, first, winner, decided.snoc busy goesOn⟩

/-- A healthy answer within the wait. -/
theorem Graced.answer {entry : Entry} {events before after : List Event} {start : Nat} {first best : ProbeOutcome}
    {outcome : RaceOutcome} {waiting : List Text} {bestRank : Option Nat} {deadline : Nat}
    (graced : Graced entry events before after start first outcome waiting best bestRank deadline) (now : Nat)
    (found : ProbeOutcome) :
    ∃ best' bestRank', Phase.win entry now found (.grace outcome waiting best bestRank deadline) =
        .grace outcome waiting best' bestRank' deadline ∧
      Graced entry (events ++ [⟨now, .probeHealthy found⟩]) before (after ++ [⟨now, .probeHealthy found⟩]) start first
        outcome waiting best' bestRank' deadline := by
  have grown : successes (after ++ [⟨now, .probeHealthy found⟩]) = successes after ++ [found] := successes_snoc _ _
  have kept {best' : ProbeOutcome} {bestRank' : Option Nat} (ranked : bestRank' = entry.rankOf best'.url)
      (wins : Wins entry before first (successes after ++ [found]) best') :
      Graced entry (events ++ [⟨now, .probeHealthy found⟩]) before (after ++ [⟨now, .probeHealthy found⟩]) start first
        outcome waiting best' bestRank' deadline := by
    refine ⟨graced.split.snoc _, graced.failed, ?_, graced.waits, ranked, grown ▸ wins, graced.due⟩
    intro other member
    rcases List.mem_append.mp member with earlier | last
    · exact graced.open_ other earlier
    · rw [List.mem_singleton.mp last]
      rfl
  by_cases awaited : found.url ∈ waiting
  · have rival : Rival entry before first found.url := by
      rw [graced.waits] at awaited
      exact mem_waiting.mp awaited
    obtain ⟨rank, ranked, -⟩ := rival.2
    cases better : Entry.better rank bestRank with
    | true =>
      refine ⟨found, some rank, ?_, kept ranked.symm ?_⟩
      · simp [Phase.win, awaited, ranked, better]
      · rw [graced.ranked] at better
        exact graced.wins.overtaken rival ranked better
    | false =>
      refine ⟨best, bestRank, ?_, kept graced.ranked ?_⟩
      · simp [Phase.win, awaited, ranked, better]
      · rw [graced.ranked] at better
        exact graced.wins.kept rival ranked better
  · refine ⟨best, bestRank, ?_, kept graced.ranked ?_⟩
    · simp [Phase.win, awaited]
    · apply graced.wins.deaf
      rw [← mem_waiting, ← graced.waits]
      exact awaited

theorem account_success {entry : Entry} {events : List Event} {round after : Round}
    (account : Account entry events round) (busy : round.idle = false) {now : Nat} {found : ProbeOutcome}
    (phase : after.phase = round.phase.win entry now found) :
    Account entry (events ++ [⟨now, .probeHealthy found⟩]) after := by
  unfold Account at account ⊢
  cases was : round.phase with
  | collecting outcome finished =>
    rw [was] at account phase
    obtain ⟨none_, won, failed, gone⟩ := account
    have split : Split (events ++ [⟨now, .probeHealthy found⟩]) events [] now found := ⟨rfl, none_⟩
    simp only [Phase.win] at phase
    split at phase
    next nobody =>
      rw [phase]
      refine Or.inr ⟨events, [], now, found, found, split, failed, rfl, wins_first entry events found, ?_, ?_⟩
      · intro event member
        cases member
      · exact Or.inl (gone ▸ nobody)
    next =>
      rw [phase]
      refine ⟨events, [], now, found, split, failed, ?_, by rw [gone], rfl, wins_first entry events found, rfl⟩
      intro event member
      cases member
  | grace outcome waiting best bestRank deadline =>
    rw [was] at account phase
    obtain ⟨before, behind, start, first, graced⟩ := account
    obtain ⟨best', bestRank', next, still⟩ := graced.answer now found
    rw [phase, next]
    exact ⟨before, _, start, first, still⟩
  | returned outcome =>
    rw [was] at account phase
    have same : after.phase = .returned outcome := phase
    rw [same]
    rcases account with ⟨-, -, -, idle⟩ | ⟨before, behind, start, first, winner, decided⟩
    · rw [idle] at busy
      cases busy
    · exact Or.inr ⟨before, _, start, first, winner, decided.snoc busy rfl⟩

theorem account_graceOver {entry : Entry} {events : List Event} {round after : Round}
    (account : Account entry events round) {now deadline : Nat} {outcome : RaceOutcome} {waiting : List Text}
    {best : ProbeOutcome} {bestRank : Option Nat} (was : round.phase = .grace outcome waiting best bestRank deadline)
    (due : deadline ≤ now) (phase : after.phase = round.phase.close) :
    Account entry (events ++ [⟨now, .graceOver⟩]) after := by
  rw [was] at phase
  unfold Account at account ⊢
  rw [was] at account
  rw [phase]
  obtain ⟨before, behind, start, first, graced⟩ := account
  have heardAll : heard (behind ++ [⟨now, .graceOver⟩]) = successes behind := heard_grown graced.open_ _
  have patient : Patient start behind := by
    intro event member ends
    rw [graced.open_ event member] at ends
    cases ends
  refine Or.inr ⟨before, _, start, first, best, graced.split.snoc _, graced.failed, rfl, ?_, patient.snoc ?_, ?_⟩
  · rw [heardAll]
    exact graced.wins
  · intro _
    rw [← graced.due]
    exact due
  · exact Or.inr (Or.inl ⟨_, List.mem_append_right _ (List.mem_singleton_self _), rfl⟩)

theorem account_drained {entry : Entry} {events : List Event} {round after : Round}
    (account : Account entry events round) (now : Nat) (goingOn : ∀ outcome, round.phase ≠ .returned outcome)
    (idle : after.idle = true) (phase : after.phase = round.phase.close) :
    Account entry (events ++ [⟨now, .drained⟩]) after := by
  unfold Account at account ⊢
  have still : failures (events ++ [⟨now, .drained⟩]) = failures events := by
    rw [failures_snoc]
    exact List.append_nil _
  have silent : successes (events ++ [⟨now, .drained⟩]) = successes events := by
    rw [successes_snoc]
    exact List.append_nil _
  cases was : round.phase with
  | collecting outcome finished =>
    rw [was] at account phase
    rw [phase]
    obtain ⟨none_, won, failed, -⟩ := account
    exact Or.inl ⟨silent.trans none_, won, failed.trans still.symm, idle⟩
  | grace outcome waiting best bestRank deadline =>
    rw [was] at account phase
    rw [phase]
    obtain ⟨before, behind, start, first, graced⟩ := account
    have patient : Patient start behind := by
      intro event member ends
      rw [graced.open_ event member] at ends
      cases ends
    refine Or.inr ⟨before, _, start, first, best, graced.split.snoc _, graced.failed, rfl, ?_, patient.snoc ?_, ?_⟩
    · rw [heard_silent rfl, heard_open graced.open_]
      exact graced.wins
    · intro ends
      cases ends
    · exact Or.inr (Or.inr idle)
  | returned outcome => exact absurd was (goingOn outcome)

theorem busy_of_walking {round : Round} (walking : round.walking ≠ 0) : round.idle = false := by
  simp [Round.idle, walking]

theorem busy_of_dialing {round : Round} {url : Text} {lane : Lane} (flying : round.dialing.lookup url = some lane) :
    round.idle = false := by
  have some_ : round.dialing.entries ≠ [] := by
    intro none_
    have member := KeyMap.mem_entries_iff.mpr flying
    rw [none_] at member
    cases member
  simp [Round.idle, some_]

theorem take_phase (entry : Entry) (round : Round) (url : Text) :
    (round.take entry url).phase = round.phase ∨
      ∃ loss : RaceLoss, (round.take entry url).phase = round.phase.lose loss ∧ loss.struck = none := by
  unfold Round.take
  split
  · exact Or.inr ⟨_, rfl, rfl⟩
  · split
    · exact Or.inr ⟨_, rfl, rfl⟩
    · split
      · exact Or.inr ⟨_, rfl, rfl⟩
      · exact Or.inl rfl

theorem step_account {entry : Entry} {events : List Event} {round after : Round}
    (account : Account entry events round) {event : Event} (stepped : round.step entry event = some after) :
    Account entry (events ++ [event]) after := by
  obtain ⟨now, what⟩ := event
  simp only [Round.step] at stepped
  split at stepped
  · cases stepped
  have timed : Account entry events { round with clock := now } := by
    cases round
    exact account
  cases what with
  | walkFailed text =>
    simp only [Round.happen] at stepped
    split at stepped
    · cases stepped
    next walking =>
      cases stepped
      exact account_silent timed (busy_of_walking walking) rfl rfl (Or.inr ⟨_, rfl, rfl⟩)
  | walkNamed url =>
    simp only [Round.happen] at stepped
    split at stepped
    · cases stepped
    next walking =>
      cases stepped
      apply account_silent timed (busy_of_walking walking) rfl rfl
      rcases take_phase entry { round with clock := now } url with same | ⟨loss, lost, blameless⟩
      · exact Or.inl ⟨same, rfl⟩
      · exact Or.inr ⟨loss, lost, by rw [blameless]; rfl⟩
  | probeFailed url text =>
    obtain ⟨lane, flying, rfl⟩ := Option.map_eq_some_iff.mp stepped
    apply account_silent timed (busy_of_dialing flying) rfl rfl
    exact Or.inr ⟨Round.probeLoss lane url text, rfl, by cases lane <;> rfl⟩
  | probeHealthy found =>
    obtain ⟨lane, flying, rfl⟩ := Option.map_eq_some_iff.mp stepped
    exact account_success timed (busy_of_dialing flying) rfl
  | graceOver =>
    simp only [Round.happen] at stepped
    split at stepped
    next outcome waiting best bestRank deadline was =>
      split at stepped
      next due =>
        cases stepped
        exact account_graceOver timed was due rfl
      next => cases stepped
    next => cases stepped
  | drained =>
    simp only [Round.happen] at stepped
    split at stepped
    next => cases stepped
    next goingOn =>
      split at stepped
      next idle =>
        cases stepped
        exact account_drained timed now goingOn idle rfl
      next => cases stepped

theorem run_account {entry : Entry} {events : List Event} {round : Round}
    (ran : Machine.run (Round.step entry) (Round.start entry) events = some round) : Account entry events round :=
  Machine.run_history (p := Account entry) (account_start entry)
    (fun _ _ _ _ _ account stepped => step_account account stepped) ran

/-- A round that has not returned can go on. -/
theorem round_goes_on (entry : Entry) (round : Round) (goingOn : ∀ outcome, round.phase ≠ .returned outcome) :
    ∃ event after, round.step entry event = some after := by
  by_cases walking : round.walking = 0
  · cases flying : round.dialing.entries with
    | nil =>
      have idle : round.idle = true := by
        simp [Round.idle, walking, flying]
      refine ⟨⟨round.clock, .drained⟩, { round with phase := round.phase.close }, ?_⟩
      rw [Round.step, if_neg (Nat.lt_irrefl _)]
      obtain ⟨clock, seen, walks, dialing, probed, phase⟩ := round
      cases phase with
      | returned outcome => exact absurd rfl (goingOn outcome)
      | collecting | grace => exact if_pos idle
    | cons first rest =>
      have member : first ∈ round.dialing.entries := by
        rw [flying]
        exact List.mem_cons_self
      have held : round.dialing.lookup first.1 = some first.2 := KeyMap.mem_entries_iff.mp member
      refine ⟨⟨round.clock, .probeFailed first.1 []⟩, ?_⟩
      rw [Round.step, if_neg (Nat.lt_irrefl _)]
      exact ⟨_, Option.map_eq_some_iff.mpr ⟨first.2, held, rfl⟩⟩
  · refine ⟨⟨round.clock, .walkFailed []⟩, ?_⟩
    rw [Round.step, if_neg (Nat.lt_irrefl _)]
    exact ⟨_, if_neg walking⟩

theorem ended_eq_failures {events : List Event} (none_ : successes events = []) : ended events = failures events := by
  induction events with
  | nil => rfl
  | cons event events ih =>
    obtain ⟨now, what⟩ := event
    cases what with
    | probeHealthy found => cases none_
    | probeFailed url text => exact congrArg (url :: ·) (ih none_)
    | walkFailed | walkNamed | graceOver | drained => exact ih none_

theorem Split.eq {events before after before' after' : List Event} {now now' : Nat} {first first' : ProbeOutcome}
    (split : Split events before after now first) (other : Split events before' after' now' first') :
    before = before' ∧ now = now' ∧ first = first' ∧ after = after' := by
  have front {before after : List Event} {now : Nat} {first : ProbeOutcome} (split : Split events before after now first) :
      events.takeWhile (fun event => event.success.isNone) = before := by
    have quiet : ∀ event ∈ before, event.success.isNone = true := by
      intro event member
      cases found : event.success with
      | none => rfl
      | some outcome =>
        have heard : outcome ∈ successes before := List.mem_filterMap.mpr ⟨event, member, found⟩
        rw [split.none_before] at heard
        cases heard
    rw [split.here, List.takeWhile_append_of_pos quiet, List.takeWhile_cons_of_neg (by simp [Event.success]),
      List.append_nil]
  have same : before = before' := (front split).symm.trans (front other)
  subst same
  have behind := split.here.symm.trans other.here
  have rest := List.append_cancel_left behind
  cases rest
  exact ⟨rfl, rfl, rfl, rfl⟩

/-- A round is fair, accounts for every node it dialed, and chooses the first answer or the best that overtakes it. -/
theorem race_round_accounts {entry : Entry} {events : List Event} {round : Round}
    (ran : Machine.run (Round.step entry) (Round.start entry) events = some round) :
    (round.probed.Nodup ∧ ∀ url ∈ round.probed,
      url ∉ entry.excluded ∧ (url ∈ entry.immediate ∨ candidateUrlIsClean url = true)) ∧
    (∀ outcome, round.phase = .returned outcome → successes events = [] →
      outcome.winner = none ∧ (outcome.failed.map Prod.fst).Perm round.probed) ∧
    (∀ outcome before after now first, round.phase = .returned outcome →
      events = before ++ ⟨now, .probeHealthy first⟩ :: after → successes before = [] →
        outcome.failed.map Prod.fst = failures before ∧ (failures before).Nodup ∧ Patient now after ∧
          ∃ winner, outcome.winner = some winner ∧ Wins entry before first (heard after) winner) := by
  have fair := run_fair ran
  have account := run_account ran
  refine ⟨⟨fair.once, fair.allowed⟩, ?_, ?_⟩
  · intro outcome returned none_
    rw [Account, returned] at account
    rcases account with ⟨-, won, failed, idle⟩ | ⟨before, after, now, first, winner, decided⟩
    · refine ⟨won, ?_⟩
      have grounded : ∀ url, url ∉ round.dialing := by
        intro url flying
        obtain ⟨lane, held⟩ := KeyMap.mem_iff_lookup.mp flying
        rw [busy_of_dialing held] at idle
        cases idle
      have once := fair.endedOnce
      rw [ended_eq_failures none_] at once
      rw [failed, List.perm_ext_iff_of_nodup once fair.once]
      intro url
      rw [fair.dialed, ended_eq_failures none_]
      constructor
      · exact Or.inl
      · rintro (ended | flying)
        · exact ended
        · exact absurd flying (grounded url)
    · have heard : first ∈ successes events := by
        rw [decided.split.here]
        exact List.mem_filterMap.mpr ⟨⟨now, .probeHealthy first⟩, by simp, rfl⟩
      rw [none_] at heard
      cases heard
  · intro outcome before after now first returned here none_
    have split : Split events before after now first := ⟨here, none_⟩
    rw [Account, returned] at account
    rcases account with ⟨silent, -⟩ | ⟨before', after', now', first', winner, decided⟩
    · have heard : first ∈ successes events := by
        rw [here]
        exact List.mem_filterMap.mpr ⟨⟨now, .probeHealthy first⟩, by simp, rfl⟩
      rw [silent] at heard
      cases heard
    · obtain ⟨rfl, rfl, rfl, rfl⟩ := split.eq decided.split
      have once : (failures before).Nodup := by
        have all := fair.endedOnce
        rw [here, ended, List.filterMap_append] at all
        rw [← ended_eq_failures none_]
        exact (List.nodup_append.mp all).1
      exact ⟨decided.failed, once, decided.patient, winner, decided.won, decided.wins⟩

section Overtaken

def eva : Text := "wss://eva".toList

def ivy : Text := "wss://ivy".toList

def nina : Text := "wss://nina".toList

/-- The cached node is unranked, and one of the pantry is ranked. -/
def ranked : Entry := ⟨some eva, [ivy, eva], ∅, 1, .ofRows [(ivy, 40)]⟩

def answer (url : Text) : ProbeOutcome := ⟨url, [], 0, 1, 40⟩

/-- The ranked node answers in the wait, and a fetched one is left to the reaper. -/
def overtaking : List Event :=
  [⟨5, .walkNamed nina⟩, ⟨10, .probeHealthy (answer eva)⟩, ⟨90, .probeHealthy (answer ivy)⟩, ⟨260, .graceOver⟩,
    ⟨400, .probeFailed nina []⟩]

theorem race_round_accounts_overtaken : ∃ round outcome,
    Machine.run (Round.step ranked) (Round.start ranked) overtaking = some round ∧ round.phase = .returned outcome ∧
    outcome.winner = some (answer ivy) ∧ outcome.failed.map Prod.fst = [] ∧ round.probed.Nodup := by
  have law := @race_round_accounts ranked overtaking _ rfl
  have told := law.2.2 _ [⟨5, .walkNamed nina⟩] _ 10 (answer eva) rfl rfl rfl
  exact ⟨_, _, rfl, rfl, rfl, told.1, law.1.1⟩

end Overtaken

end Kaspaverse.Link
