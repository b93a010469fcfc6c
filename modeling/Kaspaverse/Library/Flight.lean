import Mathlib.Logic.Function.Basic
import Mathlib.Tactic.Common
import Kaspaverse.Library.Machine

namespace Kaspaverse.Flight

/-- Where a party is in a single flight that drains the requests left behind it. -/
inductive Stage (ω : Type*)
  | away
  /-- its request stored, about to take the flag -/
  | taking
  | draining
  | working (at_ : ω)
  | releasing
  | rereading
  | done
  /-- dropped in its work, its guard with it -/
  | dropped

namespace Stage

variable {ω : Type*}

/-- It has the flag. -/
def Flies : Stage ω → Prop
  | draining | working _ | releasing => True
  | _ => False

/-- It has asked and not left. -/
def Active : Stage ω → Prop
  | taking | draining | working _ | releasing | rereading => True
  | _ => False

theorem Flies.active {stage : Stage ω} (flies : stage.Flies) : stage.Active := by
  cases stage <;> trivial

end Stage

/-- The parties' shared flags and their places. -/
structure Flights (ι ω : Type*) where
  pending : Bool
  flying : Bool
  stage : ι → Stage ω

/-- What one party does next, the answer of each read or swap with it. -/
inductive Move (ω : Type*)
  | report
  | take
  /-- the flag was held -/
  | defer
  | begin_
  /-- nothing was pending -/
  | idle
  | go (onward : ω)
  | finish
  | release
  /-- a request came before the flag went down -/
  | again
  | leave
  | drop

variable {ι ω : Type*} [DecidableEq ι]

namespace Flights

def start : Flights ι ω := ⟨false, false, fun _ => .away⟩

def put (flights : Flights ι ω) (i : ι) (stage : Stage ω) : Flights ι ω :=
  { flights with stage := Function.update flights.stage i stage }

@[simp] theorem put_pending (flights : Flights ι ω) (i : ι) (stage : Stage ω) :
    (flights.put i stage).pending = flights.pending := rfl

@[simp] theorem put_flying (flights : Flights ι ω) (i : ι) (stage : Stage ω) :
    (flights.put i stage).flying = flights.flying := rfl

@[simp] theorem put_same (flights : Flights ι ω) (i : ι) (stage : Stage ω) :
    (flights.put i stage).stage i = stage := by simp [put]

theorem put_other (flights : Flights ι ω) {i j : ι} (other : j ≠ i) (stage : Stage ω) :
    (flights.put i stage).stage j = flights.stage j := by simp [put, other]

variable (first : ω)

/-- One step of one party; a pass begins at `first`. -/
def step (flights : Flights ι ω) : ι × Move ω → Option (Flights ι ω)
  | (i, move) =>
    match flights.stage i, move with
    | .away, .report => some { flights.put i .taking with pending := true }
    | .taking, .take => if flights.flying then none else some { flights.put i .draining with flying := true }
    | .taking, .defer => if flights.flying then some (flights.put i .done) else none
    | .draining, .begin_ => if flights.pending then some { flights.put i (.working first) with pending := false } else none
    | .draining, .idle => if flights.pending then none else some (flights.put i .releasing)
    | .working _, .go onward => some (flights.put i (.working onward))
    | .working _, .finish => some (flights.put i .draining)
    | .releasing, .release => some { flights.put i .rereading with flying := false }
    | .rereading, .again => if flights.pending then some (flights.put i .taking) else none
    | .rereading, .leave => if flights.pending then none else some (flights.put i .done)
    | .working _, .drop => some { flights.put i .dropped with flying := false }
    | _, _ => none

end Flights

open Flights

variable {first : ω}

/-- All that a step can do. -/
inductive Steps (first : ω) (flights : Flights ι ω) (i : ι) : Move ω → Flights ι ω → Prop
  | report (here : flights.stage i = .away) : Steps first flights i .report { flights.put i .taking with pending := true }
  | take (here : flights.stage i = .taking) (free : flights.flying = false) :
      Steps first flights i .take { flights.put i .draining with flying := true }
  | defer (here : flights.stage i = .taking) (held : flights.flying = true) :
      Steps first flights i .defer (flights.put i .done)
  | begin_ (here : flights.stage i = .draining) (asked : flights.pending = true) :
      Steps first flights i .begin_ { flights.put i (.working first) with pending := false }
  | idle (here : flights.stage i = .draining) (none_ : flights.pending = false) :
      Steps first flights i .idle (flights.put i .releasing)
  | go {at_ : ω} (here : flights.stage i = .working at_) (onward : ω) :
      Steps first flights i (.go onward) (flights.put i (.working onward))
  | finish {at_ : ω} (here : flights.stage i = .working at_) : Steps first flights i .finish (flights.put i .draining)
  | release (here : flights.stage i = .releasing) :
      Steps first flights i .release { flights.put i .rereading with flying := false }
  | again (here : flights.stage i = .rereading) (asked : flights.pending = true) :
      Steps first flights i .again (flights.put i .taking)
  | leave (here : flights.stage i = .rereading) (none_ : flights.pending = false) :
      Steps first flights i .leave (flights.put i .done)
  | drop {at_ : ω} (here : flights.stage i = .working at_) :
      Steps first flights i .drop { flights.put i .dropped with flying := false }

theorem steps_of_step {flights next : Flights ι ω} {i : ι} {move : Move ω}
    (stepped : step first flights (i, move) = some next) : Steps first flights i move next := by
  cases here : flights.stage i <;> cases move <;> simp only [step, here] at stepped <;>
    first
    | contradiction
    | (split at stepped <;> cases stepped <;> constructor <;> simp_all)
    | (cases stepped; constructor <;> assumption)

/-- The flag is up exactly while a party has it, and one party at most has it. -/
def OneFlies (flying : Bool) (stage : ι → Stage ω) : Prop :=
  (flying = true ↔ ∃ i, (stage i).Flies) ∧ ∀ i j, (stage i).Flies → (stage j).Flies → i = j

namespace OneFlies

variable {flying : Bool} {stage : ι → Stage ω} {i : ι} {last : Stage ω}

theorem flies_update (j : ι) :
    (Function.update stage i last j).Flies ↔ j = i ∧ last.Flies ∨ j ≠ i ∧ (stage j).Flies := by
  by_cases same : j = i
  · subst same
    simp
  · simp [same]

theorem aside (one : OneFlies flying stage) (before : ¬ (stage i).Flies) (after : ¬ last.Flies) :
    OneFlies flying (Function.update stage i last) := by
  have same : ∀ j, (Function.update stage i last j).Flies ↔ (stage j).Flies := by
    intro j
    rw [flies_update]
    by_cases here : j = i
    · subst here
      simp [before, after]
    · simp [here]
  simpa [OneFlies, same] using one

theorem onward (one : OneFlies flying stage) (before : (stage i).Flies) (after : last.Flies) :
    OneFlies flying (Function.update stage i last) := by
  have same : ∀ j, (Function.update stage i last j).Flies ↔ (stage j).Flies := by
    intro j
    rw [flies_update]
    by_cases here : j = i
    · subst here
      simp [before, after]
    · simp [here]
  simpa [OneFlies, same] using one

theorem up (one : OneFlies false stage) (after : last.Flies) : OneFlies true (Function.update stage i last) := by
  have none_ : ∀ j, ¬ (stage j).Flies := by
    intro j flies
    exact absurd (one.1.mpr ⟨j, flies⟩) (by decide)
  constructor
  · simp only [true_iff]
    exact ⟨i, by simpa using after⟩
  · intro j k first second
    rw [flies_update] at first second
    simp only [none_, and_false, or_false] at first second
    exact first.1.trans second.1.symm

theorem down (one : OneFlies flying stage) (before : (stage i).Flies) (after : ¬ last.Flies) :
    OneFlies false (Function.update stage i last) := by
  have none_ : ∀ j, ¬ (Function.update stage i last j).Flies := by
    intro j flies
    rw [flies_update] at flies
    simp only [after, and_false, false_or] at flies
    exact flies.1 (one.2 j i flies.2 before)
  constructor
  · simp [none_]
  · intro j k flies
    exact absurd flies (none_ j)

end OneFlies

theorem Steps.one_flies {flights next : Flights ι ω} {i : ι} {move : Move ω}
    (steps : Steps first flights i move next) (one : OneFlies flights.flying flights.stage) :
    OneFlies next.flying next.stage := by
  cases steps with
  | report here => exact one.aside (by simp [here, Stage.Flies]) (by simp [Stage.Flies])
  | take here free =>
    rw [free] at one
    exact one.up trivial
  | defer here => exact one.aside (by simp [here, Stage.Flies]) (by simp [Stage.Flies])
  | begin_ here => exact one.onward (by simp [here, Stage.Flies]) trivial
  | idle here => exact one.onward (by simp [here, Stage.Flies]) trivial
  | go here => exact one.onward (by simp [here, Stage.Flies]) trivial
  | finish here => exact one.onward (by simp [here, Stage.Flies]) trivial
  | release here => exact one.down (by simp [here, Stage.Flies]) (by simp [Stage.Flies])
  | again here => exact one.aside (by simp [here, Stage.Flies]) (by simp [Stage.Flies])
  | leave here => exact one.aside (by simp [here, Stage.Flies]) (by simp [Stage.Flies])
  | drop here => exact one.down (by simp [here, Stage.Flies]) (by simp [Stage.Flies])

omit [DecidableEq ι] in
theorem one_flies_start : OneFlies (start : Flights ι ω).flying (start : Flights ι ω).stage := by
  simp [OneFlies, start, Stage.Flies]

theorem run_one_flies {flights : Flights ι ω} {moves : List (ι × Move ω)}
    (ran : Machine.run (step first) start moves = some flights) : OneFlies flights.flying flights.stage :=
  Machine.run_invariant (fun _ _ _ one stepped => (steps_of_step stepped).one_flies one) one_flies_start ran

section Served

/-- Some party has asked and not left, and what it asked for is still pending. -/
def Waits (flights : Flights ι ω) : Prop := flights.pending = true ∧ ∃ i, (flights.stage i).Active

theorem Steps.waits {flights next : Flights ι ω} {i : ι} {move : Move ω} (steps : Steps first flights i move next)
    (one : OneFlies flights.flying flights.stage) (waits : Waits flights) (starts : move ≠ .begin_)
    (kept : move ≠ .drop) : Waits next := by
  obtain ⟨asked, j, active⟩ := waits
  have other {stage : Stage ω} (k : ι) (moved : k ≠ i) (there : (flights.stage k).Active) :
      ∃ k, ((flights.put i stage).stage k).Active := ⟨k, by rw [put_other flights moved]; exact there⟩
  have here {stage : Stage ω} (there : stage.Active) : ∃ k, ((flights.put i stage).stage k).Active :=
    ⟨i, by simpa using there⟩
  cases steps with
  | report => exact ⟨rfl, here trivial⟩
  | take => exact ⟨asked, here trivial⟩
  | defer at_ held =>
    -- the flag is another's, who has yet to look again
    obtain ⟨k, flies⟩ := one.1.mp held
    refine ⟨asked, other k ?_ flies.active⟩
    intro same
    rw [same, at_] at flies
    exact flies
  | begin_ => exact absurd rfl starts
  | idle _ none_ =>
    rw [asked] at none_
    cases none_
  | go => exact ⟨asked, here trivial⟩
  | finish => exact ⟨asked, here trivial⟩
  | release => exact ⟨asked, here trivial⟩
  | again => exact ⟨asked, here trivial⟩
  | leave _ none_ =>
    rw [asked] at none_
    cases none_
  | drop => exact absurd rfl kept

/-- Each request is followed by a pass that began after it, once every party has left and none was dropped. -/
theorem served {flights : Flights ι ω} {before after : List (ι × Move ω)} {i : ι}
    (ran : Machine.run (step first) start (before ++ (i, .report) :: after) = some flights)
    (kept : ∀ j, (j, Move.drop) ∉ after) (left : ∀ j, ¬ (flights.stage j).Active) : ∃ j, (j, Move.begin_) ∈ after := by
  rw [Machine.run_append] at ran
  obtain ⟨early, reached, later⟩ := Option.bind_eq_some_iff.mp ran
  obtain ⟨asked, reports, rest⟩ := Machine.run_cons_some later
  have one := (steps_of_step reports).one_flies (run_one_flies reached)
  have waits : Waits asked := by
    cases steps_of_step reports with
    | report => exact ⟨rfl, i, by simp [Stage.Active]⟩
  have follows := @Machine.run_history (Flights ι ω) (ι × Move ω) (step first)
    (fun done s => (∀ m ∈ done, m ∈ after) →
      OneFlies s.flying s.stage ∧ ((∃ j, (j, Move.begin_) ∈ done) ∨ Waits s))
    asked flights after (fun _ => ⟨one, .inr waits⟩) ?_ rest
  · obtain ⟨-, started | waiting⟩ := follows fun _ member => member
    · exact started
    · obtain ⟨-, j, active⟩ := waiting
      exact absurd active (left j)
  · intro done m mid next _ ih stepped inside
    obtain ⟨one, old⟩ := ih fun other member => inside other (List.mem_append_left _ member)
    have steps : Steps first mid m.1 m.2 next := steps_of_step stepped
    refine ⟨steps.one_flies one, ?_⟩
    rcases old with ⟨j, started⟩ | waiting
    · exact .inl ⟨j, List.mem_append_left _ started⟩
    · by_cases starts : m.2 = .begin_
      · exact .inl ⟨m.1, by simp [← starts]⟩
      · refine .inr (steps.waits one waiting starts ?_)
        intro dropped
        apply kept m.1
        rw [← dropped]
        exact inside m (by simp)

def isReport : ι × Move ω → Bool
  | (_, .report) => true
  | _ => false

def isBegin : ι × Move ω → Bool
  | (_, .begin_) => true
  | _ => false

/-- No pass runs that nobody asked for. -/
theorem begun_le {flights : Flights ι ω} {moves : List (ι × Move ω)}
    (ran : Machine.run (step first) start moves = some flights) :
    moves.countP isBegin + flights.pending.toNat ≤ moves.countP isReport := by
  refine Machine.run_history (p := fun done s => done.countP isBegin + s.pending.toNat ≤ done.countP isReport)
    (by simp [start]) ?_ ran
  intro done m mid next _ ih stepped
  have steps : Steps first mid m.1 m.2 next := steps_of_step stepped
  rw [List.countP_append, List.countP_append]
  obtain ⟨i, move⟩ := m
  cases steps <;> simp_all [List.countP_cons, isBegin, isReport]
  omega

end Served

end Kaspaverse.Flight
