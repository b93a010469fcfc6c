import Mathlib
import Kaspaverse.Library.Machine
import Kaspaverse.Library.Emitted

namespace Kaspaverse.Link

/-- In milliseconds. -/
def SILENCE_DEADLINE : Nat := 9 * 1000
def WATCHDOG_STALL : Nat := 30 * 1000
def PREDIAL_FLOOR : Nat := 3 * 1000
def PREDIAL_LEAD : Nat := 6 * 1000
def SILENCE_HOLD_RESET : Nat := 60 * 1000

/-- The deadline doubles with each silence swap the link has not held through, until it is off. -/
def silenceDeadlineAfter (landed : Nat) : Option Nat :=
  let deadline := SILENCE_DEADLINE * 2 ^ min landed 16
  if deadline < WATCHDOG_STALL then some deadline else none

def predialAfter (deadline : Nat) : Nat := max (deadline - PREDIAL_LEAD) PREDIAL_FLOOR

inductive SilenceStage
  | predial
  | swap
deriving DecidableEq

/-- The silence deadline's clock of one socket. -/
structure SilenceClock where
  heard : Option Nat
  scored : Bool
  predialed : Bool
  fired : Bool
  extended : Bool
  cleanSince : Option Nat
  held : Bool
deriving DecidableEq

namespace SilenceClock

def down : SilenceClock := ⟨none, false, false, false, false, none, false⟩

def up (now : Nat) : SilenceClock := { down with heard := some now, cleanSince := some now }

variable (clock : SilenceClock)

/-- A tick, and whether it is the first of its clean stretch past `SILENCE_HOLD_RESET`. -/
def tick (now : Nat) : SilenceClock × Bool :=
  match clock.heard with
  | none => (clock, false)
  | some heard =>
    let quiet := decide (SILENCE_DEADLINE ≤ now - heard)
    let cleanSince := if quiet then some now else clock.cleanSince
    let said := if quiet then false else clock.held
    let held := !said && cleanSince.any fun clean => decide (SILENCE_HOLD_RESET ≤ now - clean)
    (⟨some now, true, false, false, false, cleanSince, said || held⟩, held)

/-- The next stage and when it falls. -/
def next (deadline : Option Nat) : Option (Nat × SilenceStage) :=
  if clock.fired then none
  else deadline.bind fun deadline => clock.heard.map fun heard =>
    let start := heard + if clock.extended then deadline else 0
    if clock.predialed then (start + deadline, .swap) else (start + predialAfter deadline, .predial)

def extend : SilenceClock := { clock with extended := true }

def fire : SilenceStage → SilenceClock
  | .predial => { clock with predialed := true }
  | .swap => { clock with predialed := true, fired := true }

end SilenceClock

/-- What a socket's own task feeds its clock. A stage falls by the swaps that have landed so far, and is
    put off while a page of ours may explain the silence. -/
inductive Beat
  | up
  | tick
  | down
  | due (landed : Nat) (explained : Bool)
deriving DecidableEq

/-- What the clock answers. -/
inductive Answer
  | held
  | stage (stage : SilenceStage)
  | extended
deriving DecidableEq

def Answer.fallen : Answer → Option SilenceStage
  | .stage fell => some fell
  | _ => none

/-- A clock and the time. -/
structure Listening where
  clock : SilenceClock
  now : Nat
deriving DecidableEq

namespace Listening

def start : Listening := ⟨SilenceClock.down, 0⟩

variable (s : Listening)

/-- A beat, some time after the last one. -/
def step : Nat × Beat → Option Listening
  | (elapsed, beat) =>
    let now := s.now + elapsed
    match beat with
    | .up => some ⟨.up now, now⟩
    | .tick => some ⟨(s.clock.tick now).1, now⟩
    | .down => some ⟨.down, now⟩
    | .due landed explained => (s.clock.next (silenceDeadlineAfter landed)).bind fun next =>
      if next.1 ≤ now then some ⟨if !s.clock.extended && explained then s.clock.extend else s.clock.fire next.2, now⟩
      else none

def answer : Nat × Beat → Option Answer
  | (elapsed, .tick) => if (s.clock.tick (s.now + elapsed)).2 then some .held else none
  | (_, .due landed explained) => (s.clock.next (silenceDeadlineAfter landed)).map fun next =>
    if !s.clock.extended && explained then .extended else .stage next.2
  | _ => none

/-- The clock's answers over a run, each with its time. -/
def answers (s : Listening) (es : List (Nat × Beat)) : List (Nat × Answer) :=
  Machine.emitted step (fun s e => (s.answer e).map fun answer => (s.now + e.1, answer)) s es

end Listening

theorem silenceDeadlineAfter_ge {landed deadline : Nat} (on : silenceDeadlineAfter landed = some deadline) :
    SILENCE_DEADLINE ≤ deadline ∧ deadline < WATCHDOG_STALL := by
  unfold silenceDeadlineAfter at on
  simp only at on
  split at on <;> cases on
  exact ⟨Nat.le_mul_of_pos_right _ (Nat.pow_pos (by decide)), ‹_›⟩

/-- Two swaps turn the deadline off. -/
theorem silenceDeadlineAfter_isSome {landed : Nat} : (silenceDeadlineAfter landed).isSome = true ↔ landed < 2 := by
  rcases landed with _ | _ | landed
  · decide
  · decide
  · have large : 4 ≤ 2 ^ min (landed + 1 + 1) 16 := by
      calc 4 = 2 ^ 2 := rfl
        _ ≤ 2 ^ min (landed + 1 + 1) 16 := Nat.pow_le_pow_right (by decide) (by omega)
    have past : ¬ SILENCE_DEADLINE * 2 ^ min (landed + 1 + 1) 16 < WATCHDOG_STALL := by
      have reach := Nat.mul_le_mul_left SILENCE_DEADLINE large
      have enough : WATCHDOG_STALL ≤ SILENCE_DEADLINE * 4 := by decide
      omega
    have off : silenceDeadlineAfter (landed + 1 + 1) = none := if_neg past
    simp [off]

theorem predialAfter_bounds {deadline : Nat} (long : SILENCE_DEADLINE ≤ deadline) :
    PREDIAL_FLOOR ≤ predialAfter deadline ∧ predialAfter deadline ≤ deadline := by
  unfold predialAfter PREDIAL_FLOOR PREDIAL_LEAD SILENCE_DEADLINE at *
  omega

/-- How long into a silence a stage falls. -/
def SilenceStage.after (deadline : Nat) : SilenceStage → Nat
  | predial => predialAfter deadline
  | swap => deadline

namespace SilenceClock

variable {clock : SilenceClock} {deadline : Option Nat} {due : Nat} {stage : SilenceStage}

/-- The stage this silence is at. -/
def atStage (clock : SilenceClock) : SilenceStage := if clock.predialed then .swap else .predial

theorem next_some (found : clock.next deadline = some (due, stage)) :
    ∃ heard limit, clock.heard = some heard ∧ deadline = some limit ∧ clock.fired = false ∧ stage = clock.atStage ∧
      due = heard + (if clock.extended then limit else 0) + stage.after limit := by
  unfold next at found
  split at found
  · cases found
  next unfired =>
    obtain ⟨limit, on, found⟩ := Option.bind_eq_some_iff.mp found
    obtain ⟨heard, is_, found⟩ := Option.map_eq_some_iff.mp found
    refine ⟨heard, limit, is_, on, by simpa using unfired, ?_⟩
    simp only at found
    cases predialed : clock.predialed <;>
      simp only [predialed, if_true, Bool.false_eq_true, if_false, Prod.mk.injEq] at found <;>
      simp [atStage, predialed, ← found.1, ← found.2, SilenceStage.after]

end SilenceClock

namespace Listening

variable {s next : Listening} {elapsed landed : Nat} {explained : Bool}

/-- All that a stage falling does. -/
theorem step_due (happens : s.step (elapsed, .due landed explained) = some next) :
    ∃ heard deadline, s.clock.heard = some heard ∧ s.clock.fired = false ∧
      silenceDeadlineAfter landed = some deadline ∧ next.now = s.now + elapsed ∧
      heard + (if s.clock.extended then deadline else 0) + s.clock.atStage.after deadline ≤ next.now ∧
      (s.clock.extended = false ∧ next.clock = s.clock.extend ∧
          s.answer (elapsed, .due landed explained) = some .extended ∨
        next.clock = s.clock.fire s.clock.atStage ∧
          s.answer (elapsed, .due landed explained) = some (.stage s.clock.atStage)) := by
  simp only [step] at happens
  obtain ⟨⟨due, stage⟩, found, took⟩ := Option.bind_eq_some_iff.mp happens
  have answered : s.answer (elapsed, .due landed explained) =
      some (if !s.clock.extended && explained then .extended else .stage stage) := by
    simp [answer, found]
  obtain ⟨heard, deadline, is_, on, unfired, rfl, fell⟩ := SilenceClock.next_some found
  by_cases late : due ≤ s.now + elapsed
  · rw [if_pos late] at took
    cases took
    refine ⟨heard, deadline, is_, unfired, on, rfl, fell ▸ late, ?_⟩
    rw [answered]
    cases off : !s.clock.extended && explained with
    | true =>
      simp only [Bool.and_eq_true, Bool.not_eq_true'] at off
      exact .inl ⟨off.1, rfl, rfl⟩
    | false => exact .inr ⟨rfl, rfl⟩
  · rw [if_neg late] at took
    cases took

/-- What a silence has had so far: its stages in order, each once, and one extension. -/
def Staged (clock : SilenceClock) (said : List Answer) : Prop :=
  said.count .extended = clock.extended.toNat ∧ (clock.fired = true → clock.predialed = true) ∧
    said.filterMap Answer.fallen = if clock.fired then [.predial, .swap] else if clock.predialed then [.predial] else []

theorem Staged.due {said : List Answer} (staged : Staged s.clock said)
    (happens : s.step (elapsed, .due landed explained) = some next) :
    Staged next.clock (said ++ (s.answer (elapsed, .due landed explained)).toList) := by
  obtain ⟨counted, order, stages⟩ := staged
  obtain ⟨heard, deadline, _, unfired, _, _, _, ⟨fresh, moved, answered⟩ | ⟨moved, answered⟩⟩ := step_due happens
  · rw [answered, moved]
    refine ⟨?_, order, ?_⟩
    · simp [counted, fresh, SilenceClock.extend]
    · have none_ : [Answer.extended].filterMap Answer.fallen = [] := rfl
      rw [Option.toList_some, List.filterMap_append, stages, none_, List.append_nil]
      rfl
  · rw [answered, moved]
    cases predialed : s.clock.predialed <;>
      simp_all [SilenceClock.atStage, SilenceClock.fire, Staged, List.count_append, Answer.fallen]

/-- A silence's stages: no sooner than the floor, the swap no sooner than the deadline, an extended one a
    deadline later than that. -/
def Timely (heard : Nat) (extended : Bool) : Nat × Answer → Prop
  | (now, .stage .predial) => heard + PREDIAL_FLOOR + (if extended then SILENCE_DEADLINE else 0) ≤ now
  | (now, .stage .swap) => heard + SILENCE_DEADLINE + (if extended then SILENCE_DEADLINE else 0) ≤ now
  | _ => True

def isDue : Nat × Beat → Bool
  | (_, .due _ _) => true
  | _ => false

/-- The answers to one more beat. -/
theorem answers_snoc {first : List (Nat × Beat)} {mid : Listening} (ran : Machine.run step s first = some mid)
    (e : Nat × Beat) :
    answers s (first ++ [e]) = answers s first ++ ((mid.answer e).map fun answer => (mid.now + e.1, answer)).toList :=
  Machine.emitted_snoc ran e

/-- The silence that began at `heard`, with what it has had. -/
structure Silent (heard : Nat) (s : Listening) (said : List (Nat × Answer)) : Prop where
  since : s.clock.heard = some heard
  staged : Staged s.clock (said.map Prod.snd)
  timely : ∀ early one late, said = early ++ one :: late → Timely heard (decide (.extended ∈ early.map Prod.snd)) one

theorem Silent.due {heard : Nat} {said : List (Nat × Answer)} (silent : Silent heard s said)
    (happens : s.step (elapsed, .due landed explained) = some next) :
    Silent heard next (said ++ ((s.answer (elapsed, .due landed explained)).map fun answer =>
      (s.now + elapsed, answer)).toList) := by
  have staged := silent.staged.due happens
  obtain ⟨since, deadline, is_, _, on, now, late, cases_⟩ := step_due happens
  have same : since = heard := Option.some.inj (is_.symm.trans silent.since)
  subst same
  have long := (silenceDeadlineAfter_ge on).1
  have floor := predialAfter_bounds long
  have extended : decide (Answer.extended ∈ said.map Prod.snd) = s.clock.extended := by
    have counted := silent.staged.1
    cases extended : s.clock.extended with
    | true =>
      rw [extended] at counted
      exact decide_eq_true (List.count_pos_iff.mp (by rw [counted]; decide))
    | false =>
      rw [extended] at counted
      exact decide_eq_false (List.count_eq_zero.mp counted)
  refine ⟨?_, ?_, ?_⟩
  · rcases cases_ with ⟨_, moved, _⟩ | ⟨moved, _⟩
    · rw [moved]
      exact is_
    · rw [moved]
      cases s.clock.atStage <;> exact is_
  · rw [List.map_append]
    cases answered : s.answer (elapsed, .due landed explained) with
    | none => simpa [answered] using staged
    | some answer => simpa [answered] using staged
  · rcases cases_ with ⟨_, _, answered⟩ | ⟨_, answered⟩
    · rw [answered]
      intro early one late_ shape
      rcases Machine.snoc_eq_append_cons.mp shape with ⟨-, rfl, -⟩ | ⟨rest, rfl, before⟩
      · exact True.intro
      · exact silent.timely early one rest before
    · rw [answered]
      intro early one late_ shape
      rcases Machine.snoc_eq_append_cons.mp shape with ⟨rfl, rfl, -⟩ | ⟨rest, rfl, before⟩
      · rw [extended]
        rw [now] at late
        cases stage : s.clock.atStage <;> rw [stage] at late <;> simp only [SilenceStage.after] at late <;>
          simp only [Timely] <;> cases put_off : s.clock.extended <;>
          simp only [put_off, if_true, Bool.false_eq_true, if_false] at late ⊢ <;> omega
      · exact silent.timely early one rest before

/-- A sign of life starts a silence afresh. -/
theorem silent_of_spoke {e : Nat × Beat} (alive : e.2 = .up ∨ e.2 = .tick) (happens : s.step e = some next)
    (up : next.clock.heard ≠ none) : Silent next.now next [] := by
  obtain ⟨elapsed, beat⟩ := e
  rcases alive with rfl | rfl
  · cases happens
    exact ⟨rfl, by simp [Staged, SilenceClock.up, SilenceClock.down], by simp⟩
  · simp only [step] at happens
    cases happens
    cases heard : s.clock.heard with
    | none => simp [SilenceClock.tick, heard] at up
    | some since =>
      refine ⟨?_, ?_, by simp⟩
      · simp [SilenceClock.tick, heard]
      · simp [Staged, SilenceClock.tick, heard]

/-- Between two signs of life, a socket's silence falls through its stages once, in order and not too soon. -/
theorem a_silence_runs_its_stages {after : List (Nat × Beat)} {e : Nat × Beat} {spoke : Listening}
    (alive : e.2 = .up ∨ e.2 = .tick) (heard : s.step e = some spoke) (up : spoke.clock.heard ≠ none)
    (silent : ∀ beat ∈ after, isDue beat = true) {final : Listening} (ran : Machine.run step spoke after = some final) :
    ((answers spoke after).map Prod.snd).count .extended ≤ 1 ∧
    ((answers spoke after).map Prod.snd).filterMap Answer.fallen <+: [.predial, .swap] ∧
    ∀ early one late, answers spoke after = early ++ one :: late →
      Timely spoke.now (decide (.extended ∈ early.map Prod.snd)) one := by
  have all := Machine.run_history
    (p := fun done t => (∀ beat ∈ done, isDue beat = true) → Silent spoke.now t (answers spoke done))
    (fun _ => silent_of_spoke alive heard up) ?_ ran silent
  · obtain ⟨-, ⟨counted, order, stages⟩, timely⟩ := all
    refine ⟨?_, ?_, timely⟩
    · rw [counted]
      exact Bool.toNat_le _
    · rw [stages]
      cases final.clock.fired <;> cases final.clock.predialed <;> decide
  · intro done beat mid next reached_ ih happens only
    obtain ⟨elapsed, kind⟩ := beat
    have due := only (elapsed, kind) (by simp)
    rw [answers_snoc reached_]
    cases kind with
    | due landed explained =>
      exact (ih fun other member => only other (List.mem_append_left _ member)).due happens
    | _ => cases due

section Held

/-- Nothing but ticks within the base deadline of one another, and stages falling. -/
def Clean (s : Listening) : Nat × Beat → Prop
  | (elapsed, .tick) => ∀ heard, s.clock.heard = some heard → s.now + elapsed - heard < SILENCE_DEADLINE
  | (_, .due _ _) => True
  | _ => False

/-- The clean stretch a clock is in began with a sign of life, and has been said to hold once at most. -/
def Stretch (es : List (Nat × Beat)) (s : Listening) (clean : Nat) : Prop :=
  ∃ before rest began, es = before ++ rest ∧ Machine.run step start before = some began ∧ began.now = clean ∧
    began.clock.heard = some clean ∧ Machine.Meets step Clean began rest ∧
    ((answers began rest).map Prod.snd).count .held = s.clock.held.toNat

theorem Stretch.more {es : List (Nat × Beat)} {clean : Nat} (stretch : Stretch es s clean) {e : Nat × Beat}
    (ran : Machine.run step start es = some s) (stays : Clean s e)
    (counts : next.clock.held.toNat = s.clock.held.toNat + (s.answer e).toList.count .held) :
    Stretch (es ++ [e]) next clean := by
  obtain ⟨before, rest, began, rfl, reached, now, heard, meets, counted⟩ := stretch
  rw [Machine.run_append, reached, Option.bind_some] at ran
  refine ⟨before, rest ++ [e], began, by simp, reached, now, heard, ?_, ?_⟩
  · apply Machine.meets_append meets
    intro mid reached_
    rw [ran] at reached_
    cases reached_
    exact ⟨stays, fun _ _ => True.intro⟩
  · rw [answers_snoc ran, List.map_append, List.count_append, counted, counts]
    cases s.answer e <;> simp

theorem tick_answer {elapsed : Nat} {heard : Nat} (is_ : s.clock.heard = some heard) :
    (s.clock.tick (s.now + elapsed)).1.held.toNat =
      (if SILENCE_DEADLINE ≤ s.now + elapsed - heard then 0 else s.clock.held.toNat) +
        (s.answer (elapsed, .tick)).toList.count .held := by
  by_cases quiet : SILENCE_DEADLINE ≤ s.now + elapsed - heard
  · have short : ¬ SILENCE_HOLD_RESET ≤ 0 := by decide
    simp [answer, SilenceClock.tick, is_, quiet, short]
  · simp only [answer, SilenceClock.tick, is_, quiet, decide_false, Bool.false_eq_true, if_false]
    cases s.clock.held <;> cases s.clock.cleanSince.any fun clean =>
      decide (SILENCE_HOLD_RESET ≤ s.now + elapsed - clean) <;> simp

theorem run_stretch {es : List (Nat × Beat)} (ran : Machine.run step start es = some s) :
    (s.clock.heard = none → s.clock.cleanSince = none) ∧
      ∀ clean, s.clock.cleanSince = some clean → Stretch es s clean := by
  refine Machine.run_history (p := fun es s => (s.clock.heard = none → s.clock.cleanSince = none) ∧
    ∀ clean, s.clock.cleanSince = some clean → Stretch es s clean) ?_ ?_ ran
  · exact ⟨fun _ => rfl, fun clean none_ => by cases none_⟩
  · intro done e mid next reached ih happens
    have last : Machine.run step start (done ++ [e]) = some next := by
      rw [Machine.run_append, reached]
      simp [Machine.run_cons, happens]
    obtain ⟨elapsed, beat⟩ := e
    cases beat with
    | up =>
      cases happens
      refine ⟨by simp [SilenceClock.up], ?_⟩
      intro clean is_
      cases is_
      exact ⟨_, [], _, (List.append_nil _).symm, last, rfl, rfl, True.intro, rfl⟩
    | down =>
      cases happens
      exact ⟨fun _ => rfl, fun clean none_ => by cases none_⟩
    | due landed explained =>
      obtain ⟨heard, _, is_, _, _, _, _, cases_⟩ := step_due happens
      have same : next.clock.heard = mid.clock.heard ∧ next.clock.cleanSince = mid.clock.cleanSince ∧
          next.clock.held = mid.clock.held ∧ (mid.answer (elapsed, .due landed explained)).toList.count .held = 0 := by
        rcases cases_ with ⟨_, moved, answered⟩ | ⟨moved, answered⟩
        · rw [moved, answered]
          exact ⟨rfl, rfl, rfl, rfl⟩
        · rw [moved, answered]
          cases mid.clock.atStage <;> exact ⟨rfl, rfl, rfl, rfl⟩
      refine ⟨by rw [same.1, is_]; simp, ?_⟩
      intro clean began
      rw [same.2.1] at began
      exact (ih.2 clean began).more reached True.intro (by rw [same.2.2.1, same.2.2.2, Nat.add_zero])
    | tick =>
      cases heard : mid.clock.heard with
      | none =>
        have still := ih.1 heard
        cases happens
        simp only [SilenceClock.tick, heard]
        exact ⟨fun _ => still, fun clean is_ => by rw [still] at is_; cases is_⟩
      | some since =>
        have counted := @tick_answer _ elapsed _ heard
        cases happens
        refine ⟨by simp [SilenceClock.tick, heard], ?_⟩
        intro clean is_
        by_cases quiet : SILENCE_DEADLINE ≤ mid.now + elapsed - since
        · simp only [SilenceClock.tick, heard, quiet, decide_true, if_true, Option.some.injEq] at is_
          refine ⟨_, [], _, (List.append_nil _).symm, last, is_, ?_, True.intro, ?_⟩
          · simp [SilenceClock.tick, heard, is_]
          · rw [if_pos quiet] at counted
            rw [counted]
            have short : ¬ SILENCE_HOLD_RESET ≤ 0 := by decide
            simp [answer, SilenceClock.tick, heard, quiet, short, answers]
        · simp only [SilenceClock.tick, heard, quiet, decide_false, Bool.false_eq_true, if_false] at is_
          refine (ih.2 clean is_).more reached ?_ ?_
          · intro other same
            rw [heard] at same
            cases same
            omega
          · rw [if_neg quiet] at counted
            exact counted

/-- The link is said to hold at a tick that ends a minute on one socket without a quiet spell of the base
    deadline, and once in such a stretch. -/
theorem held_is_a_clean_minute {es : List (Nat × Beat)} (ran : Machine.run step start es = some s)
    {e : Nat × Beat} (said : s.answer e = some .held) :
    ∃ before rest began, es = before ++ rest ∧ Machine.run step start before = some began ∧
      began.clock.heard = some began.now ∧ began.now + SILENCE_HOLD_RESET ≤ s.now + e.1 ∧
      Machine.Meets step Clean began (rest ++ [e]) ∧ .held ∉ (answers began rest).map Prod.snd := by
  obtain ⟨elapsed, beat⟩ := e
  have ticks : beat = .tick := by
    cases beat with
    | tick => rfl
    | due landed explained =>
      simp only [answer, Option.map_eq_some_iff] at said
      obtain ⟨_, _, same⟩ := said
      split at same <;> cases same
    | up | down => cases said
  subst ticks
  cases heard : s.clock.heard with
  | none => simp [answer, SilenceClock.tick, heard] at said
  | some since =>
    by_cases quiet : SILENCE_DEADLINE ≤ s.now + elapsed - since
    · have short : ¬ SILENCE_HOLD_RESET ≤ 0 := by decide
      simp [answer, SilenceClock.tick, heard, quiet, short] at said
    · simp only [answer, SilenceClock.tick, heard, quiet, decide_false, Bool.false_eq_true, if_false, Bool.and_eq_true,
        Bool.not_eq_true', ite_eq_left_iff, reduceCtorEq, imp_false, not_not] at said
      obtain ⟨unsaid, long⟩ := said
      obtain ⟨clean, is_, minute⟩ := (Option.any_eq_true _ _).mp long
      obtain ⟨before, rest, began, rfl, reached, now, up, meets, counted⟩ := (run_stretch ran).2 clean is_
      refine ⟨before, rest, began, rfl, reached, now ▸ up, ?_, ?_, ?_⟩
      · have := of_decide_eq_true minute
        have positive : 0 < SILENCE_HOLD_RESET := by decide
        omega
      · apply Machine.meets_append meets
        intro mid reached_
        rw [Machine.run_append, reached, Option.bind_some, reached_] at ran
        cases ran
        refine ⟨?_, fun _ _ => True.intro⟩
        intro other same
        rw [heard] at same
        cases same
        omega
      · rw [unsaid] at counted
        exact List.count_eq_zero.mp counted

end Held

section Sample

/-- A socket ticks for a minute and goes silent under a page of ours. -/
def quietUnderPage : List (Nat × Beat) :=
  (0, .up) :: List.replicate 12 (5000, .tick)

theorem a_silence_runs_its_stages_quietUnderPage :
    ∃ spoke final, Machine.run step start quietUnderPage = some spoke ∧
      Machine.run step spoke [(3000, .due 0 true), (9000, .due 0 true), (6000, .due 0 false)] = some final ∧
      ((answers spoke [(3000, .due 0 true), (9000, .due 0 true), (6000, .due 0 false)]).map Prod.snd).filterMap
        Answer.fallen <+: [.predial, .swap] := by
  have runs : (Machine.run step start ((0, .up) :: List.replicate 11 (5000, .tick))).any (fun s =>
      (s.step (5000, .tick)).any fun spoke => decide (Machine.run step start quietUnderPage = some spoke) &&
        decide (spoke.clock.heard ≠ none) && (Machine.run step spoke
          [(3000, .due 0 true), (9000, .due 0 true), (6000, .due 0 false)]).isSome) = true := by
    decide +kernel
  obtain ⟨s, _, rest⟩ := (Option.any_eq_true _ _).mp runs
  obtain ⟨spoke, heard, facts⟩ := (Option.any_eq_true _ _).mp rest
  obtain ⟨early, goes⟩ := (Bool.and_eq_true _ _).mp facts
  obtain ⟨whole, up⟩ := (Bool.and_eq_true _ _).mp early
  obtain ⟨final, ran⟩ := Option.isSome_iff_exists.mp goes
  refine ⟨spoke, final, of_decide_eq_true whole, ran, ?_⟩
  exact (a_silence_runs_its_stages (.inr rfl) heard (of_decide_eq_true up) (by decide) ran).2.1

theorem held_is_a_clean_minute_quietUnderPage :
    ∃ s, Machine.run step start ((0, .up) :: List.replicate 11 (5000, .tick)) = some s ∧
      s.answer (5000, .tick) = some .held ∧
      ∃ before rest began, ((0, .up) :: List.replicate 11 (5000, .tick)) = before ++ rest ∧
        Machine.run step start before = some began ∧ began.clock.heard = some began.now ∧
        began.now + SILENCE_HOLD_RESET ≤ s.now + 5000 ∧
        Machine.Meets step Clean began (rest ++ [(5000, .tick)]) ∧ .held ∉ (answers began rest).map Prod.snd := by
  have runs : (Machine.run step start ((0, .up) :: List.replicate 11 (5000, .tick))).any (fun s =>
      decide (s.answer (5000, .tick) = some .held)) = true := by
    decide +kernel
  obtain ⟨s, ran, said⟩ := (Option.any_eq_true _ _).mp runs
  exact ⟨s, ran, of_decide_eq_true said, held_is_a_clean_minute ran (of_decide_eq_true said)⟩

end Sample

end Listening

end Kaspaverse.Link
