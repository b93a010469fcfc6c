import Mathlib
import Kaspaverse.Library.Machine

namespace Kaspaverse.WalletLane

/-- In nanoseconds, as the clock counts. -/
def SILENCE_DEADLINE : Nat := 9 * 10 ^ 9

def LANE_STEP_WITHIN : Nat := 9 * 10 ^ 9

def LANE_HOLD_WITHIN : Nat := 18 * 10 ^ 9

def LANE_QUIET_AFTER : Nat := SILENCE_DEADLINE

/-- The one quiet rule: no frame admitted, or none for longer than the bound. -/
def quietAt (lastAdmitted : Option Nat) (now : Nat) : Bool :=
  lastAdmitted.all fun at_ => decide (LANE_QUIET_AFTER < now - at_)

theorem quietAt_later {lastAdmitted : Option Nat} {now later : Nat} (le : now ≤ later)
    (quiet : quietAt lastAdmitted now = true) : quietAt lastAdmitted later = true := by
  cases lastAdmitted with
  | none => rfl
  | some at_ =>
    simp only [quietAt, Option.all_some, decide_eq_true_eq] at quiet ⊢
    omega

/-- A frame of the node's; a `UtxosChanged` is told apart by what it holds. -/
inductive Notification
  | utxosChanged (added : Nat)
  | virtualDaaScoreChanged (score : Nat)
  | other
  deriving DecidableEq

structure Gate where
  epoch : Nat
  /-- The `UtxosChanged` handed over, each with when, oldest first. -/
  outstanding : List (Nat × Nat)
  lastAdmitted : Option Nat
  newestDaa : Nat
  retired : Bool
  deriving DecidableEq

namespace Gate

def new : Gate := ⟨1, [], none, 0, false⟩

/-- The frames handed over that the processor has not released. -/
def held (gate : Gate) (released : Finset Nat) : List (Nat × Nat) :=
  gate.outstanding.filter fun entry => decide (entry.2 ∉ released)

def prune (gate : Gate) (released : Finset Nat) : Gate := { gate with outstanding := gate.held released }

/-- The gate after a frame it lets pass, and whether that wakes the supervisor; `none` drops it. -/
def admitNotification (gate : Gate) (released : Finset Nat) (now epoch : Nat) (notification : Notification) :
    Option (Bool × Gate) :=
  if gate.retired || gate.epoch != epoch then none
  else
    let wasQuiet := quietAt gate.lastAdmitted now
    let stamped := { gate.prune released with lastAdmitted := some now }
    let held := !stamped.outstanding.isEmpty
    let admitted := match notification with
      | .utxosChanged added => { stamped with outstanding := stamped.outstanding ++ [(now, added)] }
      | .virtualDaaScoreChanged score => { stamped with newestDaa := max stamped.newestDaa score }
      | .other => stamped
    some ((!held && !admitted.outstanding.isEmpty) || (held && wasQuiet), admitted)

def sever (gate : Gate) : Gate := { gate with epoch := gate.epoch + 1 }

def retire (gate : Gate) : Gate := { gate with retired := true }

def quiet (gate : Gate) (now : Nat) : Bool := quietAt gate.lastAdmitted now

def oldest (gate : Gate) (released : Finset Nat) : Option Nat := (gate.held released).head?.map (·.1)

/-- The held-frame witness. -/
def heldStalled (gate : Gate) (released : Finset Nat) (now : Nat) : Bool :=
  !gate.quiet now && (gate.oldest released).any fun at_ => decide (at_ + LANE_HOLD_WITHIN ≤ now)

def heldDeadline (gate : Gate) (released : Finset Nat) (now : Nat) : Option Nat :=
  if gate.quiet now then none else (gate.oldest released).map (· + LANE_HOLD_WITHIN)

end Gate

/-- How far the supervisor's look is: its wake armed, the clock read, the verdict read, the deadline
    read. -/
inductive Look
  | idle
  | armed
  | timed (looked : Nat)
  | judged (looked : Nat) (stalled : Bool)
  | done (looked : Nat) (stalled : Bool) (deadline : Option Nat)
  deriving DecidableEq

/-- A gate, the clock, the frames released, and the supervisor's look with its wake. -/
structure Watch where
  gate : Gate
  now : Nat
  released : Finset Nat
  look : Look
  woken : Bool
  deriving DecidableEq

inductive WatchEvent
  | offer (epoch : Nat) (notification : Notification)
  | release (added : Nat)
  | elapse (by_ : Nat)
  | sever
  | retire
  /-- what else wakes the lane's supervisor -/
  | change
  | arm
  | time
  | readStalled
  | readDeadline
  deriving DecidableEq

namespace Watch

def start (now : Nat) : Watch := ⟨.new, now, ∅, .idle, false⟩

def held (watch : Watch) : List (Nat × Nat) := watch.gate.held watch.released

def quiet (watch : Watch) : Bool := watch.gate.quiet watch.now

/-- A frame offered is one its sender still holds. -/
def alive (watch : Watch) : Notification → Bool
  | .utxosChanged added => decide (added ∉ watch.released)
  | _ => true

def step (watch : Watch) : WatchEvent → Option Watch
  | .offer epoch notification =>
    if watch.alive notification then
      match watch.gate.admitNotification watch.released watch.now epoch notification with
      | none => some watch
      | some (wakes, gate) => some { watch with gate := gate, woken := watch.woken || wakes }
    else none
  | .release added => some { watch with released := insert added watch.released }
  | .elapse by_ => some { watch with now := watch.now + by_ }
  | .sever => some { watch with gate := watch.gate.sever }
  | .retire => some { watch with gate := watch.gate.retire }
  | .change => some { watch with woken := true }
  | .arm => some { watch with look := .armed, woken := false }
  | .time =>
    match watch.look with
    | .armed => some { watch with look := .timed watch.now }
    | _ => none
  | .readStalled =>
    match watch.look with
    | .timed looked =>
      some { watch with
        gate := watch.gate.prune watch.released
        look := .judged looked (watch.gate.heldStalled watch.released watch.now) }
    | _ => none
  | .readDeadline =>
    match watch.look with
    | .judged looked stalled =>
      some { watch with
        gate := watch.gate.prune watch.released
        look := .done looked stalled (watch.gate.heldDeadline watch.released watch.now) }
    | _ => none

/-- What a look still owes in the state, when it has read no verdict and no wake is pending. -/
def Owes (watch : Watch) : Look → Prop
  | .idle | .armed => True
  | .timed looked => looked ≤ watch.now
  | .judged looked _ => looked ≤ watch.now ∧
    (watch.quiet = true ∨ ∀ entry ∈ watch.held, looked < entry.1 + LANE_HOLD_WITHIN)
  | .done looked _ deadline => watch.quiet = true ∨ watch.held = [] ∨
    ∃ at_, deadline = some at_ ∧ looked < at_ ∧ at_ ≤ watch.now + LANE_HOLD_WITHIN ∧
      ∀ entry ∈ watch.held, at_ ≤ entry.1 + LANE_HOLD_WITHIN

/-- The verdict a look read. -/
def Look.verdict : Look → Bool
  | .judged _ stalled | .done _ stalled _ => stalled
  | _ => false

structure Inv (watch : Watch) : Prop where
  ordered : watch.gate.outstanding.Pairwise fun earlier later => earlier.1 ≤ later.1
  past : ∀ entry ∈ watch.gate.outstanding, entry.1 ≤ watch.now
  owes : Look.verdict watch.look = true ∨ watch.woken = true ∨ watch.Owes watch.look

theorem Owes.later {before after : Watch} (later : before.now ≤ after.now)
    (silence : before.quiet = true → after.quiet = true)
    (fewer : ∀ entry ∈ after.held, entry ∈ before.held) {look : Look} (owes : before.Owes look) :
    after.Owes look := by
  cases look with
  | idle | armed => exact True.intro
  | timed looked => exact Nat.le_trans owes later
  | judged looked stalled =>
    refine ⟨Nat.le_trans owes.1 later, owes.2.imp silence ?_⟩
    intro young entry member
    exact young entry (fewer entry member)
  | done looked stalled deadline =>
    rcases owes with quiet | none | ⟨at_, isAt, ahead, near, within⟩
    · exact Or.inl (silence quiet)
    · right; left
      apply List.eq_nil_iff_forall_not_mem.mpr
      intro entry member
      have before := fewer entry member
      rw [none] at before
      cases before
    · right; right
      refine ⟨at_, isAt, ahead, by omega, ?_⟩
      intro entry member
      exact within entry (fewer entry member)

end Watch

namespace Gate

variable {gate next : Gate} {released : Finset Nat} {now epoch : Nat} {notification : Notification}
  {wakes : Bool}

theorem mem_held {entry : Nat × Nat} :
    entry ∈ gate.held released ↔ entry ∈ gate.outstanding ∧ entry.2 ∉ released := by
  rw [held, List.mem_filter, decide_eq_true_iff]

theorem held_sublist : (gate.held released).Sublist gate.outstanding := List.filter_sublist

@[simp] theorem held_prune : (gate.prune released).held released = gate.held released := by
  simp [held, prune]

/-- What an admission does: it drops what was released, stamps the gate, files a `UtxosChanged`, and
    wakes the supervisor for a first frame held or a quiet socket speaking with one held. -/
theorem admit_some (did : gate.admitNotification released now epoch notification = some (wakes, next)) :
    ∃ fresh, (fresh = [] ∨ ∃ added, notification = .utxosChanged added ∧ fresh = [(now, added)]) ∧
      next.outstanding = gate.held released ++ fresh ∧ next.lastAdmitted = some now ∧
      (wakes = true ↔ (gate.held released = [] ∧ next.outstanding ≠ []) ∨
        (gate.held released ≠ [] ∧ gate.quiet now = true)) := by
  unfold admitNotification at did
  split at did
  · cases did
  · have wakesWhen : ∀ list : List (Nat × Nat), ((!(!(gate.held released).isEmpty) && !list.isEmpty) ||
        (!(gate.held released).isEmpty && quietAt gate.lastAdmitted now)) = true ↔
        (gate.held released = [] ∧ list ≠ []) ∨
          (gate.held released ≠ [] ∧ gate.quiet now = true) := by
      intro list
      simp [quiet]
    cases notification with
    | utxosChanged added =>
      cases did
      exact ⟨[(now, added)], Or.inr ⟨added, rfl, rfl⟩, rfl, rfl, wakesWhen _⟩
    | virtualDaaScoreChanged score =>
      cases did
      exact ⟨[], Or.inl rfl, (List.append_nil _).symm, rfl, wakesWhen _⟩
    | other =>
      cases did
      exact ⟨[], Or.inl rfl, (List.append_nil _).symm, rfl, wakesWhen _⟩

end Gate

namespace Watch

variable {watch next : Watch}

theorem start_inv (now : Nat) : (start now).Inv :=
  ⟨List.Pairwise.nil, (fun _ none => nomatch none), Or.inr (Or.inr True.intro)⟩

/-- An admission keeps what a look owes, or wakes the supervisor. -/
theorem Inv.admitted (inv : watch.Inv) {epoch : Nat} {notification : Notification} {wakes : Bool}
    {gate : Gate} (alive : watch.alive notification = true)
    (did : watch.gate.admitNotification watch.released watch.now epoch notification = some (wakes, gate)) :
    ({ watch with gate := gate, woken := watch.woken || wakes } : Watch).Inv := by
  obtain ⟨fresh, isFresh, outstanding, stamped, wakesWhen⟩ := Gate.admit_some did
  have recent : ∀ entry ∈ fresh, entry.1 = watch.now ∧ entry.2 ∉ watch.released := by
    intro entry member
    rcases isFresh with rfl | ⟨added, rfl, rfl⟩
    · cases member
    · rw [List.mem_singleton.mp member]
      exact ⟨rfl, of_decide_eq_true alive⟩
  have old : ∀ entry ∈ watch.held, entry.1 ≤ watch.now := by
    intro entry member
    exact inv.past entry (Gate.mem_held.mp member).1
  have listed : ∀ entry ∈ gate.outstanding, entry ∈ watch.held ∨ entry ∈ fresh := by
    intro entry member
    rw [outstanding] at member
    exact List.mem_append.mp member
  constructor
  · change gate.outstanding.Pairwise _
    rw [outstanding, List.pairwise_append]
    refine ⟨inv.ordered.sublist Gate.held_sublist, ?_, ?_⟩
    · rcases isFresh with rfl | ⟨added, rfl, rfl⟩
      · exact List.Pairwise.nil
      · exact List.pairwise_singleton _ _
    · intro earlier before later member
      rw [(recent later member).1]
      exact old earlier before
  · intro entry member
    rcases listed entry member with before | new
    · exact old entry before
    · exact Nat.le_of_eq (recent entry new).1
  · rcases inv.owes with read | pending | owes
    · exact Or.inl read
    · right; left
      change (watch.woken || wakes) = true
      rw [pending, Bool.true_or]
    · right
      by_cases wakeful : wakes = true
      · left
        change (watch.woken || wakes) = true
        rw [wakeful, Bool.or_true]
      · right
        have silent := mt wakesWhen.mpr wakeful
        rw [not_or, not_and, not_and] at silent
        have inHeld : ∀ entry ∈ gate.held watch.released, entry ∈ watch.held ∨ entry ∈ fresh := by
          intro entry member
          exact listed entry (Gate.mem_held.mp member).1
        change Owes _ watch.look
        revert owes
        cases watch.look with
        | idle | armed => exact fun _ => True.intro
        | timed looked => exact fun owes => owes
        | judged looked stalled =>
          intro owes
          refine ⟨owes.1, Or.inr ?_⟩
          intro entry member
          have hold : 0 < LANE_HOLD_WITHIN := by decide
          rcases inHeld entry member with before | new
          · rcases owes.2 with quiet | young
            · exact absurd quiet (silent.2 (List.ne_nil_of_mem before))
            · exact young entry before
          · have at_ := (recent entry new).1
            have reached : looked ≤ watch.now := owes.1
            omega
        | done looked stalled deadline =>
          intro owes
          right
          by_cases empty : watch.held = []
          · left
            have nothing : gate.outstanding = [] := not_not.mp (silent.1 empty)
            change gate.held watch.released = []
            rw [Gate.held, nothing]
            rfl
          · right
            rcases owes with quiet | none | ⟨at_, isAt, ahead, near, within⟩
            · exact absurd quiet (silent.2 empty)
            · exact absurd none empty
            · refine ⟨at_, isAt, ahead, near, ?_⟩
              intro entry member
              rcases inHeld entry member with before | new
              · exact within entry before
              · rw [(recent entry new).1]
                exact near

/-- The oldest frame held was handed over no later than any other. -/
theorem Inv.oldest (inv : watch.Inv) {at_ : Nat}
    (first : watch.gate.oldest watch.released = some at_) :
    at_ ≤ watch.now ∧ ∀ entry ∈ watch.held, at_ ≤ entry.1 := by
  have ordered : watch.held.Pairwise fun earlier later => earlier.1 ≤ later.1 :=
    inv.ordered.sublist Gate.held_sublist
  unfold Gate.oldest at first
  change (watch.held.head?).map _ = _ at first
  cases listed : watch.held with
  | nil =>
    rw [listed] at first
    cases first
  | cons head rest =>
    rw [listed] at first ordered
    cases first
    have member : head ∈ watch.held := by
      rw [listed]
      exact List.mem_cons_self
    refine ⟨inv.past head (Gate.mem_held.mp member).1, ?_⟩
    intro entry inside
    rcases List.mem_cons.mp inside with rfl | later
    · exact Nat.le_refl _
    · exact (List.pairwise_cons.mp ordered).1 entry later

theorem oldest_none (none : watch.gate.oldest watch.released = none) : watch.held = [] := by
  unfold Gate.oldest at none
  exact List.head?_eq_none_iff.mp (Option.map_eq_none_iff.mp none)

/-- A step that only lets time pass, frames go or the socket change keeps the invariant. -/
theorem Inv.later (inv : watch.Inv) (later : watch.now ≤ next.now) (look : next.look = watch.look)
    (woken : watch.woken = true → next.woken = true)
    (silence : next.gate.lastAdmitted = watch.gate.lastAdmitted)
    (fewer : next.gate.outstanding.Sublist watch.gate.outstanding)
    (held : ∀ entry ∈ next.held, entry ∈ watch.held) : next.Inv := by
  refine ⟨inv.ordered.sublist fewer, ?_, ?_⟩
  · intro entry member
    exact Nat.le_trans (inv.past entry (fewer.subset member)) later
  · rw [look]
    have quiet : watch.quiet = true → next.quiet = true := by
      intro quiet
      change quietAt next.gate.lastAdmitted next.now = true
      rw [silence]
      exact quietAt_later later quiet
    exact inv.owes.imp_right (Or.imp woken (Owes.later later quiet held))

theorem Inv.judged (inv : watch.Inv) {looked : Nat} (look : watch.look = .timed looked) :
    ({ watch with
      gate := watch.gate.prune watch.released
      look := .judged looked (watch.gate.heldStalled watch.released watch.now) } : Watch).Inv := by
  refine ⟨inv.ordered.sublist Gate.held_sublist, ?_, ?_⟩
  · intro entry member
    exact inv.past entry (Gate.mem_held.mp member).1
  · have owes := inv.owes
    rw [look] at owes
    rcases owes with read | pending | reached
    · cases read
    · exact Or.inr (Or.inl pending)
    · cases stalled : watch.gate.heldStalled watch.released watch.now with
      | true => exact Or.inl rfl
      | false =>
        right; right
        refine ⟨reached, ?_⟩
        by_cases quiet : watch.quiet = true
        · exact Or.inl quiet
        · right
          intro entry member
          change entry ∈ (watch.gate.prune watch.released).held watch.released at member
          rw [Gate.held_prune] at member
          have talking : watch.gate.quiet watch.now = false := Bool.eq_false_iff.mpr quiet
          rw [Gate.heldStalled, talking, Bool.not_false, Bool.true_and] at stalled
          cases first : watch.gate.oldest watch.released with
          | none =>
            have nothing := oldest_none first
            change entry ∈ watch.held at member
            rw [nothing] at member
            cases member
          | some at_ =>
            rw [first, Option.any_some, decide_eq_false_iff_not] at stalled
            have older := (inv.oldest first).2 entry member
            have clock : looked ≤ watch.now := reached
            omega

theorem Inv.done (inv : watch.Inv) {looked : Nat} {stalled : Bool}
    (look : watch.look = .judged looked stalled) :
    ({ watch with
      gate := watch.gate.prune watch.released
      look := .done looked stalled (watch.gate.heldDeadline watch.released watch.now) } : Watch).Inv := by
  refine ⟨inv.ordered.sublist Gate.held_sublist, ?_, ?_⟩
  · intro entry member
    exact inv.past entry (Gate.mem_held.mp member).1
  · have owes := inv.owes
    rw [look] at owes
    rcases owes with read | pending | ⟨reached, either⟩
    · exact Or.inl read
    · exact Or.inr (Or.inl pending)
    · right; right
      by_cases quiet : watch.quiet = true
      · exact Or.inl quiet
      · right
        have talking : watch.gate.quiet watch.now = false := Bool.eq_false_iff.mpr quiet
        change (watch.gate.prune watch.released).held watch.released = [] ∨ _
        rw [Gate.held_prune]
        cases first : watch.gate.oldest watch.released with
        | none => exact Or.inl (oldest_none first)
        | some at_ =>
          right
          obtain ⟨before, oldest⟩ := inv.oldest first
          refine ⟨at_ + LANE_HOLD_WITHIN, ?_, ?_, ?_, ?_⟩
          · simp [Gate.heldDeadline, talking, first]
          · -- the oldest frame held is one the verdict read as young
            have young := either.resolve_left quiet
            unfold Gate.oldest at first
            obtain ⟨head, isHead, rfl⟩ := Option.map_eq_some_iff.mp first
            exact young head (List.mem_of_head? isHead)
          · exact Nat.add_le_add_right before _
          · intro entry member
            change entry ∈ (watch.gate.prune watch.released).held watch.released at member
            rw [Gate.held_prune] at member
            exact Nat.add_le_add_right (oldest entry member) _

theorem Inv.step (inv : watch.Inv) {event : WatchEvent} (happens : watch.step event = some next) :
    next.Inv := by
  cases event with
  | offer epoch notification =>
    simp only [Watch.step] at happens
    split at happens
    case isTrue alive =>
      split at happens
      case h_1 =>
        cases happens
        exact inv
      case h_2 wakes gate did =>
        cases happens
        exact inv.admitted alive did
    case isFalse => cases happens
  | release added =>
    cases happens
    have fewer : ∀ entry ∈ ({ watch with released := insert added watch.released } : Watch).held,
        entry ∈ watch.held := by
      intro entry member
      obtain ⟨listed, kept⟩ := Gate.mem_held.mp member
      exact Gate.mem_held.mpr ⟨listed, fun old => kept (Finset.mem_insert_of_mem old)⟩
    exact inv.later (Nat.le_refl _) rfl id rfl (List.Sublist.refl _) fewer
  | elapse by_ =>
    cases happens
    exact inv.later (Nat.le_add_right _ _) rfl id rfl (List.Sublist.refl _) fun _ member => member
  | sever | retire =>
    cases happens
    exact inv.later (Nat.le_refl _) rfl id rfl (List.Sublist.refl _) fun _ member => member
  | change =>
    cases happens
    exact inv.later (Nat.le_refl _) rfl (fun _ => rfl) rfl (List.Sublist.refl _) fun _ member => member
  | arm =>
    cases happens
    exact ⟨inv.ordered, inv.past, Or.inr (Or.inr True.intro)⟩
  | time =>
    simp only [Watch.step] at happens
    split at happens
    · cases happens
      exact ⟨inv.ordered, inv.past, Or.inr (Or.inr (Nat.le_refl _))⟩
    · cases happens
  | readStalled =>
    simp only [Watch.step] at happens
    split at happens
    case h_1 looked look =>
      cases happens
      exact inv.judged look
    case h_2 => cases happens
  | readDeadline =>
    simp only [Watch.step] at happens
    split at happens
    case h_1 looked stalled look =>
      cases happens
      exact inv.done look
    case h_2 => cases happens

theorem inv_of_run {now : Nat} {events : List WatchEvent}
    (ran : Machine.run step (start now) events = some watch) : watch.Inv :=
  Machine.run_invariant (fun _ _ _ inv happens => inv.step happens) (start_inv now) ran

/-- No held-frame verdict is missed: behind a look, a frame held past its bound on a talking socket
    was judged, or a wake is pending, or a deadline the look armed has passed. -/
theorem no_verdict_is_missed {now : Nat} {events : List WatchEvent}
    (ran : Machine.run step (start now) events = some watch) :
    (∀ looked stalled deadline, watch.look = .done looked stalled deadline →
      (∃ entry ∈ watch.held, LANE_HOLD_WITHIN ≤ watch.now - entry.1) → watch.quiet = false →
      stalled = true ∨ watch.woken = true ∨
        ∃ at_, deadline = some at_ ∧ looked < at_ ∧ at_ ≤ watch.now) ∧
    ∀ (epoch : Nat) (notification : Notification) (wakes : Bool) (gate : Gate),
      watch.alive notification = true →
      watch.gate.admitNotification watch.released watch.now epoch notification = some (wakes, gate) →
      (wakes = true ↔ (watch.held = [] ∧ gate.held watch.released ≠ []) ∨
        (watch.held ≠ [] ∧ watch.quiet = true)) := by
  constructor
  · intro looked stalled deadline look ⟨entry, member, long⟩ talking
    have owes := (inv_of_run ran).owes
    rw [look] at owes
    rcases owes with read | pending | quiet | none | ⟨at_, isAt, ahead, _, within⟩
    · exact Or.inl read
    · exact Or.inr (Or.inl pending)
    · rw [talking] at quiet
      cases quiet
    · rw [none] at member
      cases member
    · right; right
      have bound := within entry member
      have hold : 0 < LANE_HOLD_WITHIN := by decide
      exact ⟨at_, isAt, ahead, by omega⟩
  · intro epoch notification wakes gate alive did
    obtain ⟨fresh, isFresh, outstanding, _, wakesWhen⟩ := Gate.admit_some did
    have kept : gate.held watch.released = gate.outstanding := by
      rw [Gate.held, outstanding, List.filter_append]
      have before : (watch.gate.prune watch.released).held watch.released =
          watch.gate.held watch.released :=
        Gate.held_prune
      have new : (fresh.filter fun entry => decide (entry.2 ∉ watch.released)) = fresh := by
        apply List.filter_eq_self.mpr
        intro entry member
        rcases isFresh with rfl | ⟨added, rfl, rfl⟩
        · cases member
        · rw [List.mem_singleton.mp member]
          exact alive
      rw [new]
      exact congrArg (· ++ fresh) before
    rw [kept]
    exact wakesWhen

/-- A frame held behind a look, on a socket that spoke halfway to its bound. -/
def waiting : Watch where
  gate := ⟨1, [(0, 1)], some LANE_QUIET_AFTER, 5, false⟩
  now := LANE_HOLD_WITHIN
  released := ∅
  look := .done 0 false (some LANE_HOLD_WITHIN)
  woken := false

theorem no_verdict_is_missed_waiting : ∃ at_, some LANE_HOLD_WITHIN = some at_ ∧ at_ ≤ waiting.now := by
  have ran : Machine.run step (start 0) [.offer 1 (.utxosChanged 1), .arm, .time, .readStalled,
      .readDeadline, .elapse LANE_QUIET_AFTER, .offer 1 (.virtualDaaScoreChanged 5),
      .elapse (LANE_HOLD_WITHIN - LANE_QUIET_AFTER)] = some waiting := by
    decide +kernel
  rcases (no_verdict_is_missed ran).1 0 false (some LANE_HOLD_WITHIN) rfl
    ⟨(0, 1), by decide +kernel, by decide +kernel⟩ (by decide +kernel) with
    read | pending | ⟨at_, isAt, _, passed⟩
  · cases read
  · cases pending
  · exact ⟨at_, isAt, passed⟩

end Watch

end Kaspaverse.WalletLane
