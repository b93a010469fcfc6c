import Mathlib
import Kaspaverse.Library.Flight
import Kaspaverse.Library.Emitted

namespace Kaspaverse.Link

/-- How many re-announces a socket has, one after each wait. -/
def LANE_REANNOUNCE_AFTER : List Nat := [2, 5]

def LANE_REBIND_WINDOW_SECS : Nat := 600

/-- The bound socket, as the wallet lane's recovery reads it. -/
structure LaneSocket where
  gen : Nat
  publishes : Nat
  laneReannounced : Nat
  announced : Bool
deriving DecidableEq

/-- The physical socket: a redial under one generation is another one. -/
abbrev SocketId := Nat × Nat

def LaneSocket.id (bind : LaneSocket) : SocketId := (bind.gen, bind.publishes)

inductive LaneRecovery
  | queued
  | notDark
  | socketGone
  | recovered (reannounced : Nat)
  | rebound
  | gaveUp
  | rebuilt
  | rebuildsSpent
deriving DecidableEq

/-- How far `announced_live_socket` is with its reads. -/
inductive Look
  | paused
  | connected
  | bound
deriving DecidableEq

def Look.left : Look → Nat
  | paused => 3
  | connected => 2
  | bound => 1

/-- Where a check is in `recover_wallet_lane_once`. It holds the socket it began on, how many turns of
    its loop are left and how many re-announces it has made. -/
inductive Check
  | dead
  | up
  | finding (look : Look)
  | waiting (socket : SocketId) (turns reannounced : Nat)
  | deadAfter (socket : SocketId) (turns reannounced : Nat)
  | upAfter (socket : SocketId) (turns reannounced : Nat)
  | reannouncing (socket : SocketId) (turns reannounced : Nat)
  /-- past the `paused` read, before the lock -/
  | locking (socket : SocketId) (turns reannounced : Nat)
  /-- the lane came up: is the socket bound still -/
  | settling (socket : SocketId) (reannounced : Nat) (look : Look)
  /-- and its count -/
  | counting (socket : SocketId) (reannounced : Nat)
  | judging (socket : SocketId) (look : Look)
  | timing
  | weighing (now : Nat)
  | stamping (now : Nat)
  | rebinding
  | redialing
  | rebuilding
deriving DecidableEq

/-- The link's side of a check: what it reads and writes. -/
structure LaneLink where
  paused : Bool
  isConnected : Bool
  bound : Option LaneSocket
  nextGen : Nat
  /-- the processor's own "negotiated" bit -/
  up : Bool
  /-- the supervisor found the lane dead -/
  dead : Bool
  reboundAt : Nat
  now : Nat

namespace LaneLink

def start : LaneLink := ⟨false, false, none, 0, false, false, 0, 0⟩

variable (lane : LaneLink)

/-- One read of `announced_live_socket`, and what it has found once it is through. -/
def look : Look → Look ⊕ Option SocketId
  | .paused => if lane.paused then .inr none else .inl .connected
  | .connected => if lane.isConnected then .inl .bound else .inr none
  | .bound => .inr ((lane.bound.filter fun bind => bind.announced).map LaneSocket.id)

/-- The whole read, with nothing between its parts. -/
def announcedLiveSocket : Option SocketId :=
  if lane.paused || !lane.isConnected then none
  else (lane.bound.filter fun bind => bind.announced).map LaneSocket.id

/-- The socket's own count, while it is the one bound. -/
def countOf (socket : SocketId) : Option Nat :=
  (lane.bound.filter fun bind => decide (bind.id = socket)).map LaneSocket.laneReannounced

/-- `wallet_lane_known_dark`. -/
def knownDark : Bool :=
  ((lane.announcedLiveSocket).bind lane.countOf).any fun reannounced => decide (0 < reannounced)

/-- A socket retired, or never replaced: out it goes. -/
def retire : LaneLink := match lane.bound with
  | none => lane
  | some _ => { lane with bound := none, isConnected := false }

/-- What the rest of the link may do to it at any time. -/
inductive Event
  /-- the processor's bit and the supervisor's -/
  | lane (up dead : Bool)
  | clock (now : Nat)
  | pause (paused : Bool)
  | retire
  /-- `install_bind_after`, its incumbent retired before -/
  | install
  /-- `on_connected` of the bind's own socket -/
  | publish (gen : Nat)
  /-- a pinned socket's drop: the link stands down, then the bind -/
  | standDown
  | unannounce (gen : Nat)

def onBound (gen : Nat) (change : LaneSocket → LaneSocket) : Option LaneSocket :=
  lane.bound.map fun bind => if bind.gen = gen then change bind else bind

def apply : Event → LaneLink
  | .lane up dead => { lane with up := up, dead := dead }
  | .clock now => { lane with now := now }
  | .pause paused => { lane with paused := paused }
  | .retire => lane.retire
  | .install => { lane with bound := some ⟨lane.nextGen + 1, 0, 0, false⟩, nextGen := lane.nextGen + 1 }
  | .publish gen =>
    if (lane.bound.map LaneSocket.gen) = some gen then
      { lane with
        isConnected := true
        bound := lane.onBound gen fun bind =>
          { bind with publishes := bind.publishes + 1, laneReannounced := 0, announced := true } }
    else lane
  | .standDown => { lane with isConnected := false }
  | .unannounce gen => { lane with bound := lane.onBound gen fun bind => { bind with announced := false } }

/-- Prove the lane dark on the socket and re-announce it, under the lock. -/
def reannounce (socket : SocketId) : Option (LaneLink × Bool) :=
  match lane.bound.filter fun bind => decide (bind.id = socket) && bind.announced && lane.isConnected with
  | none => none
  | some bind =>
    if LANE_REANNOUNCE_AFTER.length ≤ bind.laneReannounced then some (lane, false)
    else some ({ lane with bound := some { bind with laneReannounced := bind.laneReannounced + 1 } }, true)

end LaneLink

namespace Check

/-- The next read, write or wait of a check: what it leaves of the lane, and where it stands or what it found.
    A rebuild's answer is the wallet lane's own. -/
def step (lane : LaneLink) (answer : LaneRecovery) : Check → LaneLink × (Check ⊕ LaneRecovery)
  | dead => (lane, if lane.dead then .inl rebuilding else .inl up)
  | up => (lane, if lane.up then .inr .notDark else .inl (finding .paused))
  | finding look =>
    (lane, match lane.look look with
      | .inl look => .inl (finding look)
      | .inr none => .inr .socketGone
      | .inr (some socket) => .inl (waiting socket LANE_REANNOUNCE_AFTER.length 0))
  | waiting socket turns reannounced => (lane, .inl (deadAfter socket turns reannounced))
  | deadAfter socket turns reannounced =>
    (lane, .inl (if lane.dead then rebuilding else upAfter socket turns reannounced))
  | upAfter socket turns reannounced =>
    (lane, .inl (if lane.up then settling socket reannounced .paused
      else match turns with
        | 0 => judging socket .paused
        | turns + 1 => reannouncing socket turns reannounced))
  | reannouncing socket turns reannounced =>
    (lane, if lane.paused then .inr .socketGone else .inl (locking socket turns reannounced))
  | locking socket turns reannounced =>
    match lane.reannounce socket with
    | none => (lane, .inr .socketGone)
    | some (next, true) => (next, .inl (waiting socket turns (reannounced + 1)))
    -- the socket's budget is spent: straight to the last wait
    | some (next, false) => (next, .inl (waiting socket 0 reannounced))
  | settling socket reannounced look =>
    (lane, match lane.look look with
      | .inl look => .inl (settling socket reannounced look)
      | .inr found => if found = some socket then .inl (counting socket reannounced) else .inr .socketGone)
  | counting socket reannounced =>
    (lane, .inr (match lane.countOf socket with
      | none => .socketGone
      | some 0 => .notDark
      | some _ => .recovered reannounced))
  | judging socket look =>
    (lane, match lane.look look with
      | .inl look => .inl (judging socket look)
      | .inr found => if found = some socket then .inl timing else .inr .socketGone)
  | timing => (lane, .inl (weighing lane.now))
  | weighing now =>
    (lane, if lane.reboundAt ≠ 0 ∧ now - lane.reboundAt < LANE_REBIND_WINDOW_SECS then .inr .gaveUp
      else .inl (stamping now))
  | stamping now => ({ lane with reboundAt := now }, .inl rebinding)
  | rebinding => (lane.retire, .inl redialing)
  | redialing => (lane, .inr .rebound)
  | rebuilding => (lane, .inr answer)

/-- The socket that a check's step re-announces. -/
def reannounces (lane : LaneLink) : Check → Option SocketId
  | locking socket _ _ => if (lane.reannounce socket).any Prod.snd then some socket else none
  | _ => none

/-- The rebind that a check's step stamps. -/
def stamps : Check → Option Nat
  | stamping now => some now
  | _ => none

/-- The socket a check is about, and how often it has re-announced it. -/
def made : Check → Option (SocketId × Nat)
  | waiting socket _ reannounced | deadAfter socket _ reannounced | upAfter socket _ reannounced
  | reannouncing socket _ reannounced | locking socket _ reannounced | settling socket reannounced _
  | counting socket reannounced => some (socket, reannounced)
  | _ => none

/-- The steps a check has left at most. -/
def left : Check → Nat
  | dead => 26
  | up => 25
  | finding look => 21 + look.left
  | waiting _ turns _ => 11 + 5 * turns
  | deadAfter _ turns _ => 10 + 5 * turns
  | upAfter _ turns _ => 9 + 5 * turns
  | reannouncing _ turns _ => 13 + 5 * turns
  | locking _ turns _ => 12 + 5 * turns
  | settling _ _ look => 1 + look.left
  | counting _ _ => 1
  | judging _ look => 5 + look.left
  | timing => 5
  | weighing _ => 4
  | stamping _ => 3
  | rebinding => 2
  | redialing => 1
  | rebuilding => 1

end Check

/-- The link's side of the lane, and the reports' calls. -/
structure Recovery (ι : Type) where
  lane : LaneLink
  flights : Flight.Flights ι Check

/-- A report that got past the door is one call; a check's own step is the `check` of it. -/
inductive RecoveryEvent (ι : Type)
  | lane (event : LaneLink.Event)
  | flight (i : ι) (move : Flight.Move Check)
  | check (i : ι) (answer : LaneRecovery)

namespace Recovery

open Flight

variable {ι : Type}

def start : Recovery ι := ⟨LaneLink.start, Flights.start⟩

section Step

variable [DecidableEq ι] (s : Recovery ι)

def checking (i : ι) : Option Check :=
  match s.flights.stage i with
  | .working check => some check
  | _ => none

/-- What a call does on its own account, a check's steps apart. -/
def plain : Move Check → Bool
  | .go _ | .finish => false
  | _ => true

/-- The call's move that an event is. -/
def move : RecoveryEvent ι → Option (ι × Move Check)
  | .lane _ => none
  | .flight i move => some (i, move)
  | .check i answer => (s.checking i).map fun check =>
    (i, (check.step s.lane answer).2.elim Move.go fun _ => Move.finish)

def step : RecoveryEvent ι → Option (Recovery ι)
  | .lane event => some { s with lane := s.lane.apply event }
  | .flight i move =>
    if plain move then (s.flights.step Check.dead (i, move)).map fun flights => { s with flights := flights } else none
  | .check i answer => (s.checking i).bind fun check =>
    (s.flights.step Check.dead (i, (check.step s.lane answer).2.elim Move.go fun _ => Move.finish)).map fun flights =>
      ⟨(check.step s.lane answer).1, flights⟩

/-- The socket that an event re-announces. -/
def reannounced : RecoveryEvent ι → Option SocketId
  | .check i _ => (s.checking i).bind (Check.reannounces s.lane)
  | _ => none

/-- When an event stamps a rebind. -/
def rebound : RecoveryEvent ι → Option Nat
  | .check i _ => (s.checking i).bind Check.stamps
  | _ => none

end Step

variable [DecidableEq ι]

def reannounces (es : List (RecoveryEvent ι)) : List SocketId := Machine.emitted step reannounced start es

def rebinds (es : List (RecoveryEvent ι)) : List Nat := Machine.emitted step rebound start es

end Recovery

section Check

variable {lane next : LaneLink} {answer : LaneRecovery} {check : Check}

/-- All that a check does to the lane. -/
inductive Acts (lane : LaneLink) : LaneLink → Option SocketId → Option Nat → Prop
  | rest : Acts lane lane none none
  | reannounce (bind : LaneSocket) (bound : lane.bound = some bind) (spare : bind.laneReannounced < 2) :
      Acts lane { lane with bound := some { bind with laneReannounced := bind.laneReannounced + 1 } } (some bind.id) none
  | stamp (now : Nat) : Acts lane { lane with reboundAt := now } none (some now)
  | retire : Acts lane lane.retire none none

theorem LaneLink.reannounce_some {socket : SocketId} {did : Bool} (happens : lane.reannounce socket = some (next, did)) :
    ∃ bind, lane.bound = some bind ∧ bind.id = socket ∧
      (did = true ∧ bind.laneReannounced < 2 ∧
        next = { lane with bound := some { bind with laneReannounced := bind.laneReannounced + 1 } } ∨
       did = false ∧ next = lane) := by
  unfold reannounce at happens
  split at happens
  · cases happens
  next bind found =>
    obtain ⟨bound, holds⟩ := Option.filter_eq_some_iff.mp found
    simp only [Bool.and_eq_true, decide_eq_true_eq] at holds
    refine ⟨bind, bound, holds.1.1, ?_⟩
    split at happens
    · cases happens
      exact .inr ⟨rfl, rfl⟩
    next spare =>
      cases happens
      refine .inl ⟨rfl, ?_, rfl⟩
      simpa [LANE_REANNOUNCE_AFTER] using spare

theorem Check.acts (lane : LaneLink) (answer : LaneRecovery) (check : Check) :
    Acts lane (check.step lane answer).1 (check.reannounces lane) check.stamps := by
  cases check with
  | locking socket turns reannounced =>
    simp only [Check.step, Check.reannounces, Check.stamps]
    cases happens : lane.reannounce socket with
    | none => exact .rest
    | some found =>
      obtain ⟨next, did⟩ := found
      obtain ⟨bind, bound, rfl, ⟨rfl, spare, rfl⟩ | ⟨rfl, rfl⟩⟩ := LaneLink.reannounce_some happens
      · exact .reannounce bind bound spare
      · exact .rest
  | stamping now => exact .stamp now
  | rebinding => exact .retire
  | _ => exact .rest

theorem Check.step_left {onward : Check} (goes : (check.step lane answer).2 = .inl onward) :
    onward.left < check.left := by
  have looks : ∀ look onward, lane.look look = .inl onward → onward.left < look.left := by
    intro look onward found
    cases look <;> simp only [LaneLink.look] at found
    · split at found <;> cases found
      decide
    · split at found <;> cases found
      decide
    · cases found
  have at_least : ∀ look : Look, 1 ≤ look.left := by
    intro look
    cases look <;> decide
  cases check with
  | dead =>
    simp only [Check.step] at goes
    split at goes <;> cases goes <;> decide
  | up =>
    simp only [Check.step] at goes
    split at goes <;> cases goes
    decide
  | finding look =>
    simp only [Check.step] at goes
    cases found : lane.look look with
    | inl further =>
      simp only [found, Sum.inl.injEq] at goes
      subst goes
      have := looks look further found
      simp only [Check.left]
      omega
    | inr socket =>
      cases socket <;> simp only [found, reduceCtorEq, Sum.inl.injEq] at goes
      subst goes
      have := at_least look
      simp only [Check.left, LANE_REANNOUNCE_AFTER, List.length_cons, List.length_nil]
      omega
  | waiting socket turns reannounced =>
    cases goes
    simp only [Check.left]
    omega
  | deadAfter socket turns reannounced =>
    simp only [Check.step, Sum.inl.injEq] at goes
    subst goes
    split <;> simp only [Check.left] <;> omega
  | upAfter socket turns reannounced =>
    simp only [Check.step, Sum.inl.injEq] at goes
    subst goes
    split
    · simp only [Check.left, Look.left]
      omega
    · cases turns <;> simp only [Check.left, Look.left] <;> omega
  | reannouncing socket turns reannounced =>
    simp only [Check.step] at goes
    split at goes <;> cases goes
    simp only [Check.left]
    omega
  | locking socket turns reannounced =>
    simp only [Check.step] at goes
    split at goes <;> cases goes <;> simp only [Check.left] <;> omega
  | settling socket reannounced look =>
    simp only [Check.step] at goes
    cases found : lane.look look with
    | inl further =>
      simp only [found, Sum.inl.injEq] at goes
      subst goes
      have := looks look further found
      simp only [Check.left]
      omega
    | inr other =>
      simp only [found] at goes
      split at goes <;> cases goes
      have := at_least look
      simp only [Check.left]
      omega
  | judging socket look =>
    simp only [Check.step] at goes
    cases found : lane.look look with
    | inl further =>
      simp only [found, Sum.inl.injEq] at goes
      subst goes
      have := looks look further found
      simp only [Check.left]
      omega
    | inr other =>
      simp only [found] at goes
      split at goes <;> cases goes
      have := at_least look
      simp only [Check.left]
      omega
  | weighing now =>
    simp only [Check.step] at goes
    split at goes <;> cases goes
    simp only [Check.left]
    omega
  | timing =>
    cases goes
    simp [Check.left]
  | stamping now =>
    cases goes
    simp [Check.left]
  | rebinding =>
    cases goes
    simp [Check.left]
  | counting => cases goes
  | redialing => cases goes
  | rebuilding => cases goes

theorem Check.step_stamping {now : Nat} (goes : (check.step lane answer).2 = .inl (.stamping now)) :
    (check.step lane answer).1 = lane ∧ (lane.reboundAt ≠ 0 → lane.reboundAt + LANE_REBIND_WINDOW_SECS ≤ now) := by
  cases check with
  | weighing then_ =>
    refine ⟨rfl, ?_⟩
    intro nonzero
    simp only [Check.step] at goes
    split at goes
    · cases goes
    next room =>
      cases goes
      unfold LANE_REBIND_WINDOW_SECS at *
      omega
  | dead | up | finding | reannouncing | deadAfter =>
    simp only [Check.step] at goes
    split at goes <;> cases goes
  | settling | judging =>
    simp only [Check.step] at goes
    split at goes
    · cases goes
    · split at goes <;> cases goes
  | upAfter socket turns reannounced =>
    simp only [Check.step] at goes
    split at goes
    · cases goes
    · cases turns <;> cases goes
  | locking =>
    simp only [Check.step] at goes
    split at goes <;> cases goes
  | _ => cases goes

theorem Check.step_recovered {n : Nat} (asked : check ≠ .rebuilding)
    (ends : (check.step lane answer).2 = .inr (.recovered n)) :
    ∃ socket, check = .counting socket n ∧ ∃ count, lane.countOf socket = some count ∧ 0 < count := by
  cases check with
  | counting socket reannounced =>
    simp only [Check.step, Sum.inr.injEq] at ends
    split at ends
    · cases ends
    · cases ends
    next count positive found =>
      cases ends
      exact ⟨socket, rfl, count, found, Nat.pos_of_ne_zero positive⟩
  | rebuilding => exact absurd rfl asked
  | dead | up | finding | reannouncing | weighing =>
    simp only [Check.step] at ends
    split at ends <;> cases ends
  | settling | judging =>
    simp only [Check.step] at ends
    split at ends
    · cases ends
    · split at ends <;> cases ends
  | locking =>
    simp only [Check.step] at ends
    split at ends <;> cases ends
  | _ => cases ends

theorem Check.step_made {onward : Check} (goes : (check.step lane answer).2 = .inl onward) {socket : SocketId}
    {n : Nat} (made : onward.made = some (socket, n)) :
    n = 0 ∨ check.made = some (socket, n) ∨
      ∃ m, n = m + 1 ∧ check.made = some (socket, m) ∧ check.reannounces lane = some socket := by
  cases check with
  | dead | up | reannouncing | weighing =>
    simp only [Check.step] at goes
    split at goes <;> cases goes <;> simp_all [Check.made]
  | finding look =>
    simp only [Check.step] at goes
    split at goes <;> cases goes <;> simp_all [Check.made]
  | settling other reannounced look =>
    simp only [Check.step] at goes
    split at goes
    · cases goes
      simp_all [Check.made]
    · split at goes <;> cases goes
      simp_all [Check.made]
  | judging other look =>
    simp only [Check.step] at goes
    split at goes
    · cases goes
      simp_all [Check.made]
    · split at goes <;> cases goes
      simp_all [Check.made]
  | waiting => cases goes; simp_all [Check.made]
  | deadAfter other turns reannounced =>
    simp only [Check.step, Sum.inl.injEq] at goes
    subst goes
    split at made <;> simp_all [Check.made]
  | upAfter other turns reannounced =>
    simp only [Check.step, Sum.inl.injEq] at goes
    subst goes
    split at made
    · simp_all [Check.made]
    · cases turns <;> simp_all [Check.made]
  | locking other turns reannounced =>
    simp only [Check.step] at goes
    split at goes
    · cases goes
    next found =>
      cases goes
      simp only [Check.made, Option.some.injEq, Prod.mk.injEq] at made
      obtain ⟨rfl, rfl⟩ := made
      exact .inr (.inr ⟨reannounced, rfl, rfl, by simp [Check.reannounces, found]⟩)
    next found =>
      cases goes
      simp_all [Check.made]
  | timing | stamping | rebinding => cases goes; simp_all [Check.made]
  | counting | redialing | rebuilding => cases goes

end Check

section Budget

/-- No physical socket has had more than its re-announces, and the bound one counts its own. -/
structure Budgeted (reannounces : List SocketId) (lane : LaneLink) : Prop where
  issued : ∀ socket ∈ reannounces, socket.1 ≤ lane.nextGen
  bound : ∀ bind, lane.bound = some bind → bind.gen ≤ lane.nextGen ∧
    (∀ socket ∈ reannounces, socket.1 = bind.gen → socket.2 ≤ bind.publishes) ∧
    reannounces.count bind.id = bind.laneReannounced
  two : ∀ socket, reannounces.count socket ≤ 2

variable {lane next : LaneLink} {reannounces : List SocketId}

theorem budgeted_start : Budgeted [] LaneLink.start := by
  constructor <;> simp [LaneLink.start]

theorem Budgeted.quiet (budget : Budgeted reannounces lane) (gens : next.nextGen = lane.nextGen)
    (bound : next.bound = lane.bound ∨ next.bound = none) : Budgeted reannounces next := by
  refine ⟨by rw [gens]; exact budget.issued, ?_, budget.two⟩
  intro bind is_
  rw [gens]
  rcases bound with same | gone
  · exact budget.bound bind (same ▸ is_)
  · rw [gone] at is_
    cases is_

theorem Budgeted.retire (budget : Budgeted reannounces lane) : Budgeted reannounces lane.retire := by
  unfold LaneLink.retire
  split
  · exact budget
  · exact budget.quiet rfl (.inr rfl)

@[simp] theorem LaneLink.retire_reboundAt (lane : LaneLink) : lane.retire.reboundAt = lane.reboundAt := by
  unfold retire
  split <;> rfl

@[simp] theorem LaneLink.apply_reboundAt (event : LaneLink.Event) : (lane.apply event).reboundAt = lane.reboundAt := by
  cases event with
  | retire => exact lane.retire_reboundAt
  | publish gen =>
    simp only [apply]
    split <;> rfl
  | _ => rfl

theorem Budgeted.apply (budget : Budgeted reannounces lane) (event : LaneLink.Event) :
    Budgeted reannounces (lane.apply event) := by
  cases event with
  | lane | clock | pause | standDown => exact budget.quiet rfl (.inl rfl)
  | retire => exact budget.retire
  | install =>
    refine ⟨fun socket member => Nat.le_succ_of_le (budget.issued socket member), ?_, budget.two⟩
    intro bind is_
    simp only [LaneLink.apply, Option.some.injEq] at is_
    subst is_
    have fresh : ∀ socket ∈ reannounces, socket.1 ≠ lane.nextGen + 1 := by
      intro socket member
      have := budget.issued socket member
      omega
    refine ⟨le_refl _, fun socket member same => absurd same (fresh socket member), ?_⟩
    exact List.count_eq_zero.mpr fun member => fresh _ member rfl
  | publish gen =>
    simp only [LaneLink.apply]
    split
    next here =>
      cases old : lane.bound with
      | none => simp [old] at here
      | some bind =>
        simp only [old, Option.map_some, Option.some.injEq] at here
        subst here
        obtain ⟨low, published, _⟩ := budget.bound bind old
        refine ⟨budget.issued, ?_, budget.two⟩
        intro new is_
        simp only [LaneLink.onBound, old, Option.map_some, if_true, Option.some.injEq] at is_
        subst is_
        refine ⟨low, ?_, ?_⟩
        · intro socket member same
          exact Nat.le_succ_of_le (published socket member same)
        · apply List.count_eq_zero.mpr
          intro member
          have := published _ member rfl
          simp only [LaneSocket.id] at this
          omega
    · exact budget
  | unannounce gen =>
    cases old : lane.bound with
    | none =>
      refine budget.quiet rfl (.inl ?_)
      simp [LaneLink.apply, LaneLink.onBound, old]
    | some bind =>
      obtain ⟨low, published, counted⟩ := budget.bound bind old
      refine ⟨budget.issued, ?_, budget.two⟩
      intro new is_
      simp only [LaneLink.apply, LaneLink.onBound, old, Option.map_some, Option.some.injEq] at is_
      subst is_
      by_cases same : bind.gen = gen
      · simp only [same, if_true]
        rw [← same]
        exact ⟨low, published, counted⟩
      · simp only [same, if_false]
        exact ⟨low, published, counted⟩

theorem Budgeted.acts {did : Option SocketId} {stamped : Option Nat} (budget : Budgeted reannounces lane)
    (acts : Acts lane next did stamped) : Budgeted (reannounces ++ did.toList) next := by
  cases acts with
  | rest => simpa using budget
  | stamp =>
    rw [Option.toList_none, List.append_nil]
    exact budget.quiet rfl (.inl rfl)
  | retire => simpa using budget.retire
  | reannounce bind bound spare =>
    obtain ⟨low, published, counted⟩ := budget.bound bind bound
    refine ⟨?_, ?_, ?_⟩
    · intro socket member
      rcases List.mem_append.mp member with old | new
      · exact budget.issued socket old
      · simp only [Option.toList_some, List.mem_singleton] at new
        rw [new]
        exact low
    · intro other is_
      cases is_
      refine ⟨low, ?_, ?_⟩
      · intro socket member same
        rcases List.mem_append.mp member with old | new
        · exact published socket old same
        · simp only [Option.toList_some, List.mem_singleton] at new
          rw [new]
          exact le_refl _
      · rw [List.count_append]
        simp only [LaneSocket.id] at counted ⊢
        simp [counted]
    · intro socket
      rw [List.count_append]
      by_cases same : socket = bind.id
      · rw [same, counted]
        simp only [Option.toList_some, List.count_singleton_self]
        omega
      · have other : List.count socket [bind.id] = 0 := by
          simpa [List.count_singleton] using Ne.symm same
        simp only [Option.toList_some, other, Nat.add_zero]
        exact budget.two socket

end Budget

namespace Recovery

open Flight

variable {ι : Type} [DecidableEq ι] {s next : Recovery ι}

/-- All that an event does: to the lane, to a call's place, or both by a check's own step. -/
inductive Does (s : Recovery ι) : RecoveryEvent ι → Recovery ι → Prop
  | lane (event : LaneLink.Event) : Does s (.lane event) { s with lane := s.lane.apply event }
  | flight {i : ι} {move : Move Check} {flights : Flights ι Check} (own : plain move = true)
      (steps : Steps Check.dead s.flights i move flights) : Does s (.flight i move) { s with flights := flights }
  | onward {i : ι} {answer : LaneRecovery} {check onward : Check} (here : s.flights.stage i = .working check)
      (goes : (check.step s.lane answer).2 = .inl onward) :
      Does s (.check i answer) ⟨(check.step s.lane answer).1, s.flights.put i (.working onward)⟩
  | found {i : ι} {answer outcome : LaneRecovery} {check : Check} (here : s.flights.stage i = .working check)
      (ends : (check.step s.lane answer).2 = .inr outcome) :
      Does s (.check i answer) ⟨(check.step s.lane answer).1, s.flights.put i .draining⟩

omit [DecidableEq ι] in
theorem checking_some {i : ι} {check : Check} :
    s.checking i = some check ↔ s.flights.stage i = .working check := by
  unfold checking
  cases s.flights.stage i <;> simp

theorem does_of_step {event : RecoveryEvent ι} (happens : s.step event = some next) : Does s event next := by
  cases event with
  | lane event =>
    cases happens
    exact .lane event
  | flight i move =>
    simp only [step] at happens
    split at happens
    next own =>
      obtain ⟨flights, moved, rfl⟩ := Option.map_eq_some_iff.mp happens
      exact .flight own (steps_of_step moved)
    · cases happens
  | check i answer =>
    simp only [step] at happens
    obtain ⟨check, here, took⟩ := Option.bind_eq_some_iff.mp happens
    rw [checking_some] at here
    obtain ⟨flights, moved, rfl⟩ := Option.map_eq_some_iff.mp took
    cases goes : (check.step s.lane answer).2 with
    | inl onward =>
      simp only [goes, Flights.step, here, Sum.elim_inl] at moved
      cases moved
      exact .onward here goes
    | inr outcome =>
      simp only [goes, Flights.step, here, Sum.elim_inr] at moved
      cases moved
      exact .found here goes

/-- Where a check stands after an event, it stood before, or it has just begun, or the event was its own step. -/
theorem Does.checking {event : RecoveryEvent ι} (does : Does s event next) {j : ι} {check : Check}
    (stands : next.flights.stage j = .working check) :
    (s.flights.stage j = .working check ∧ ∀ answer, event ≠ .check j answer) ∨ check = .dead ∨
      ∃ answer before, event = .check j answer ∧ s.flights.stage j = .working before ∧
        (before.step s.lane answer).2 = .inl check := by
  cases does with
  | lane => exact .inl ⟨stands, by simp⟩
  | flight own steps =>
    rename_i i move flights
    by_cases same : j = i
    · subst same
      cases steps <;> simp_all [plain]
    · refine .inl ⟨?_, by simp⟩
      cases steps <;> simpa [Flights.put, same] using stands
  | onward here goes =>
    rename_i i answer before onward
    by_cases same : j = i
    · subst same
      simp only [Flights.put_same, Stage.working.injEq] at stands
      exact .inr (.inr ⟨answer, before, rfl, here, stands ▸ goes⟩)
    · refine .inl ⟨?_, by simpa using Ne.symm same⟩
      rwa [Flights.put_other _ same] at stands
  | found here ends =>
    rename_i i answer outcome before
    by_cases same : j = i
    · subst same
      simp at stands
    · refine .inl ⟨?_, by simpa using Ne.symm same⟩
      rwa [Flights.put_other _ same] at stands

theorem Does.one_flies {event : RecoveryEvent ι} (does : Does s event next)
    (one : OneFlies s.flights.flying s.flights.stage) : OneFlies next.flights.flying next.flights.stage := by
  cases does with
  | lane => exact one
  | flight own steps => exact steps.one_flies one
  | onward here goes =>
    rename_i i answer check onward
    have steps : Steps Check.dead s.flights i (.go onward) (s.flights.put i (.working onward)) := .go here onward
    exact steps.one_flies one
  | found here ends =>
    rename_i i answer outcome check
    have steps : Steps Check.dead s.flights i .finish (s.flights.put i .draining) := .finish here
    exact steps.one_flies one

/-- The lane with what the checks have done to it so far. -/
structure Holds (reannounces : List SocketId) (rebinds : List Nat) (s : Recovery ι) : Prop where
  one : OneFlies s.flights.flying s.flights.stage
  budget : Budgeted reannounces s.lane
  last : s.lane.reboundAt = rebinds.getLast?.getD 0
  apart : rebinds.IsChain fun earlier later => earlier ≠ 0 → earlier + LANE_REBIND_WINDOW_SECS ≤ later
  stamping : ∀ i now, s.flights.stage i = .working (.stamping now) →
    s.lane.reboundAt ≠ 0 → s.lane.reboundAt + LANE_REBIND_WINDOW_SECS ≤ now
  own : ∀ i check socket n, s.flights.stage i = .working check → check.made = some (socket, n) →
    n ≤ reannounces.count socket

omit [DecidableEq ι] in
theorem holds_start : Holds [] [] (start : Recovery ι) :=
  ⟨one_flies_start, budgeted_start, rfl, .nil, by simp [start, Flights.start], by simp [start, Flights.start]⟩

omit [DecidableEq ι] in
theorem Holds.checked {reannounces : List SocketId} {rebinds : List Nat} (holds : Holds reannounces rebinds s) {i : ι}
    {answer : LaneRecovery} {check : Check} {flights : Flights ι Check} (here : s.flights.stage i = .working check)
    (one : OneFlies flights.flying flights.stage)
    (places : ∀ j onward, flights.stage j = .working onward →
      j = i ∧ (check.step s.lane answer).2 = .inl onward ∨ j ≠ i ∧ s.flights.stage j = .working onward) :
    Holds (reannounces ++ (check.reannounces s.lane).toList) (rebinds ++ check.stamps.toList)
      ⟨(check.step s.lane answer).1, flights⟩ := by
  have acts := Check.acts s.lane answer check
  -- no other check stands anywhere
  have mine : ∀ j onward, flights.stage j = .working onward → (check.step s.lane answer).2 = .inl onward := by
    intro j onward stands
    rcases places j onward stands with ⟨-, goes⟩ | ⟨other, there⟩
    · exact goes
    · exact absurd (holds.one.2 j i (by rw [there]; trivial) (by rw [here]; trivial)) other
  refine ⟨one, holds.budget.acts acts, ?_, ?_, ?_, ?_⟩
  · have last := holds.last
    simp only
    generalize (check.step s.lane answer).1 = after at acts
    generalize check.reannounces s.lane = did at acts
    generalize check.stamps = stamped at acts
    cases acts with
    | rest | reannounce => simpa using last
    | stamp now => simp
    | retire => simpa using last
  · cases check with
    | stamping now =>
      simp only [Check.stamps, Option.toList_some]
      refine List.isChain_append.mpr ⟨holds.apart, .singleton _, ?_⟩
      intro earlier ends later starts nonzero
      simp only [List.head?_cons, Option.mem_def, Option.some.injEq] at starts
      have last := holds.last
      rw [Option.mem_def.mp ends, Option.getD_some] at last
      have room := holds.stamping i now here
      rw [last] at room
      rw [← starts]
      exact room nonzero
    | _ => simpa [Check.stamps] using holds.apart
  · intro j now stands nonzero
    obtain ⟨same, room⟩ := Check.step_stamping (mine j _ stands)
    simp only [same] at nonzero ⊢
    exact room nonzero
  · intro j onward socket n stands made
    rw [List.count_append]
    rcases Check.step_made (mine j _ stands) made with rfl | old | ⟨m, rfl, old, did⟩
    · exact Nat.zero_le _
    · exact Nat.le_add_right_of_le (holds.own i check socket n here old)
    · have := holds.own i check socket m here old
      rw [did]
      simp only [Option.toList_some, List.count_singleton_self]
      omega

theorem Holds.step {reannounces : List SocketId} {rebinds : List Nat} {event : RecoveryEvent ι}
    (holds : Holds reannounces rebinds s) (does : Does s event next) :
    Holds (reannounces ++ (s.reannounced event).toList) (rebinds ++ (s.rebound event).toList) next := by
  have one := does.one_flies holds.one
  have place := @Does.checking ι _ s next event does
  cases does with
  | lane event =>
    simp only [reannounced, rebound, Option.toList_none, List.append_nil]
    refine ⟨one, holds.budget.apply event, ?_, holds.apart, ?_, holds.own⟩
    · rw [LaneLink.apply_reboundAt]
      exact holds.last
    · simp only [LaneLink.apply_reboundAt]
      exact holds.stamping
  | flight own steps =>
    simp only [reannounced, rebound, Option.toList_none, List.append_nil]
    refine ⟨one, holds.budget, holds.last, holds.apart, ?_, ?_⟩
    · intro j now stands
      rcases place stands with ⟨old, -⟩ | began | ⟨_, _, same, _⟩
      · exact holds.stamping j now old
      · cases began
      · cases same
    · intro j check socket n stands made
      rcases place stands with ⟨old, -⟩ | began | ⟨_, _, same, _⟩
      · exact holds.own j check socket n old made
      · rw [began] at made
        cases made
      · cases same
  | onward here goes =>
    rename_i i answer check onward
    have stands : s.checking i = some check := checking_some.mpr here
    simp only [reannounced, rebound, stands, Option.bind_some]
    apply holds.checked here one
    intro j other there
    by_cases same : j = i
    · subst same
      simp only [Flights.put_same, Stage.working.injEq] at there
      exact .inl ⟨rfl, there ▸ goes⟩
    · rw [Flights.put_other _ same] at there
      exact .inr ⟨same, there⟩
  | found here ends =>
    rename_i i answer outcome check
    have stands : s.checking i = some check := checking_some.mpr here
    simp only [reannounced, rebound, stands, Option.bind_some]
    apply holds.checked here one
    intro j other there
    by_cases same : j = i
    · subst same
      simp at there
    · rw [Flights.put_other _ same] at there
      exact .inr ⟨same, there⟩

section Runs

variable {es : List (RecoveryEvent ι)}

theorem run_holds (ran : Machine.run step start es = some s) : Holds (reannounces es) (rebinds es) s := by
  refine Machine.run_history (p := fun done s => Holds (reannounces done) (rebinds done) s) holds_start ?_ ran
  intro done e mid next reached holds happens
  rw [reannounces, rebinds, Machine.emitted_snoc reached, Machine.emitted_snoc reached]
  exact holds.step (does_of_step happens)

/-- The calls' moves alone are a run of the flights. -/
theorem run_flights (ran : Machine.run step start es = some s) :
    Machine.run (Flights.step Check.dead) Flights.start (Machine.emitted step move start es) = some s.flights := by
  refine Machine.run_part (f := fun s : Recovery ι => s.flights) ?_ ran
  intro s event next happens
  cases event with
  | lane event =>
    cases happens
    rfl
  | flight i move =>
    simp only [step] at happens
    split at happens
    · obtain ⟨flights, moved, rfl⟩ := Option.map_eq_some_iff.mp happens
      exact moved
    · cases happens
  | check i answer =>
    simp only [step] at happens
    obtain ⟨check, here, took⟩ := Option.bind_eq_some_iff.mp happens
    obtain ⟨flights, moved, rfl⟩ := Option.map_eq_some_iff.mp took
    simpa [move, here] using moved

def isReport : RecoveryEvent ι → Bool
  | .flight _ .report => true
  | _ => false

def isBegin : RecoveryEvent ι → Bool
  | .flight _ .begin_ => true
  | _ => false

def isCheck : RecoveryEvent ι → Bool
  | .check _ _ => true
  | _ => false

omit [DecidableEq ι] in
theorem move_counts (s : Recovery ι) (e : RecoveryEvent ι) :
    (s.move e).any Flight.isReport = isReport e ∧ (s.move e).any Flight.isBegin = isBegin e := by
  cases e with
  | lane => exact ⟨rfl, rfl⟩
  | flight i move => cases move <;> exact ⟨rfl, rfl⟩
  | check i answer =>
    simp only [move]
    cases s.checking i with
    | none => exact ⟨rfl, rfl⟩
    | some check => cases goes : (check.step s.lane answer).2 <;> simp [goes, Flight.isReport, Flight.isBegin, isReport, isBegin]

/-- No check begins that nobody asked for. -/
theorem begun_le_reports (ran : Machine.run step start es = some s) : es.countP isBegin ≤ es.countP isReport := by
  have counted := Flight.begun_le (run_flights ran)
  rw [Machine.countP_emitted (fun s e => (move_counts s e).1) ran,
    Machine.countP_emitted (fun s e => (move_counts s e).2) ran] at counted
  omega

/-- A check's steps are those it has left at most, for each that began. -/
theorem checks_le (ran : Machine.run step start es = some s) : es.countP isCheck ≤ 26 * es.countP isBegin := by
  have bound := Machine.run_history (p := fun done (s : Recovery ι) =>
    OneFlies s.flights.flying s.flights.stage ∧ done.countP isCheck ≤ 26 * done.countP isBegin ∧
      ∀ i check, s.flights.stage i = .working check → done.countP isCheck + check.left ≤ 26 * done.countP isBegin)
    ⟨one_flies_start, by simp, by simp [start, Flights.start]⟩ ?_ ran
  · exact bound.2.1
  · intro done e mid next _ ih happens
    obtain ⟨one, whole, each⟩ := ih
    have does := does_of_step happens
    have place := @Does.checking ι _ mid next e does
    refine ⟨does.one_flies one, ?_⟩
    rw [List.countP_append, List.countP_append]
    cases does with
    | lane event =>
      simp only [List.countP_singleton, isCheck, isBegin, Bool.false_eq_true, if_false, Nat.add_zero]
      exact ⟨whole, each⟩
    | flight own steps =>
      rename_i i move flights
      simp only [List.countP_singleton, isCheck, Bool.false_eq_true, if_false, Nat.add_zero]
      refine ⟨by omega, ?_⟩
      intro j check stands
      by_cases began : move = .begin_
      · subst began
        simp only [isBegin, if_true]
        have fresh : check = .dead := by
          rcases place stands with ⟨old, -⟩ | fresh | ⟨_, _, same, _⟩
          · cases steps with
            | begin_ here asked =>
              have same := one.2 j i (by rw [old]; trivial) (by rw [here]; trivial)
              rw [same, here] at old
              cases old
          · exact fresh
          · cases same
        rw [fresh]
        simp only [Check.left]
        omega
      · rcases place stands with ⟨old, -⟩ | fresh | ⟨_, _, same, _⟩
        · have := each j check old
          omega
        · subst fresh
          by_cases mine : j = i
          · subst mine
            cases steps <;> simp_all [plain]
          · have old : mid.flights.stage j = .working .dead := by
              cases steps <;> simpa [Flights.put, mine] using stands
            have := each j .dead old
            omega
        · cases same
    | onward here goes =>
      rename_i i answer check onward
      have spent := each i check here
      have less := Check.step_left goes
      simp only [List.countP_singleton, isCheck, isBegin, if_true, Bool.false_eq_true, if_false, Nat.add_zero]
      refine ⟨by omega, ?_⟩
      intro j other stands
      by_cases same : j = i
      · subst same
        simp only [Flights.put_same, Stage.working.injEq] at stands
        subst stands
        omega
      · rw [Flights.put_other _ same] at stands
        exact absurd (one.2 j i (by rw [stands]; trivial) (by rw [here]; trivial)) same
    | found here ends =>
      rename_i i answer outcome check
      have spent := each i check here
      have positive : 1 ≤ check.left := by
        cases check <;> simp only [Check.left] <;> omega
      simp only [List.countP_singleton, isCheck, isBegin, if_true, Bool.false_eq_true, if_false, Nat.add_zero]
      refine ⟨by omega, ?_⟩
      intro j other stands
      by_cases same : j = i
      · subst same
        simp at stands
      · rw [Flights.put_other _ same] at stands
        exact absurd (one.2 j i (by rw [stands]; trivial) (by rw [here]; trivial)) same

end Runs

section Sample

/-- A lane dark on a live socket: two re-announces and a rebind, twice within the window. -/
def darkLane : List (RecoveryEvent Nat) :=
  [.lane .install, .lane (.publish 1), .lane (.clock 1000), .flight 0 .report, .flight 0 .take, .flight 0 .begin_] ++
    List.replicate 26 (.check 0 .rebuilt) ++
    [.lane .install, .lane (.publish 2), .flight 1 .report, .flight 1 .defer, .flight 0 .begin_, .lane (.clock 1100)] ++
    List.replicate 23 (.check 0 .rebuilt) ++ [.flight 0 .idle, .flight 0 .release, .flight 0 .leave]

end Sample

end Recovery

end Kaspaverse.Link
