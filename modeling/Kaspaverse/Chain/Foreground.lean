import Mathlib
import Kaspaverse.Library.Leases
import Kaspaverse.Library.Emitted

namespace Kaspaverse.Chain

open Leases

/-- The sends that hold the socket, each until its deadline. -/
structure Claims where
  nextId : Nat
  live : List (Nat × Nat)

namespace Claims

variable (claims : Claims) (now : Nat)

/-- The claims still live. `until` drops the rest whenever it is asked. -/
def retainLive : Claims := { claims with live := claims.live.filter fun claim => decide (now < claim.2) }

/-- The latest deadline among claims still live. -/
def until_ : Option Nat := ((claims.retainLive now).live.map Prod.snd).max?

def claim (hold : Nat) : Claims := ⟨claims.nextId + 1, claims.live ++ [(claims.nextId + 1, now + hold)]⟩

/-- A claim's deadline is moved where it stands, or the claim is taken again. -/
def setDeadline (id deadline : Nat) : List (Nat × Nat) → List (Nat × Nat)
  | [] => [(id, deadline)]
  | claim :: rest => if claim.1 = id then (claim.1, deadline) :: rest else claim :: setDeadline id deadline rest

def renew (id hold : Nat) : Claims := { claims with live := setDeadline id (now + hold) claims.live }

def release (id : Nat) : Claims := { claims with live := claims.live.filter fun claim => decide (claim.1 ≠ id) }

def start : Claims := ⟨0, []⟩

/-- The claims stand for these leases, those that have run out apart. -/
structure Backs (held : Held Nat) : Prop where
  nodup : (claims.live.map Prod.fst).Nodup
  issued : ∀ id deadline, held id = some deadline → id ≤ claims.nextId
  live : ∀ id deadline, (id, deadline) ∈ claims.live → held id = some deadline
  kept : ∀ id deadline, held id = some deadline → now < deadline → (id, deadline) ∈ claims.live

variable {claims now} {held : Held Nat} {id hold : Nat}

theorem backs_start : Claims.start.Backs now (Leases.held []) := by
  constructor <;> simp [start]

theorem mem_retainLive {claim : Nat × Nat} :
    claim ∈ (claims.retainLive now).live ↔ claim ∈ claims.live ∧ now < claim.2 := by
  simp [retainLive]

theorem mem_setDeadline {id deadline : Nat} {live : List (Nat × Nat)} (nodup : (live.map Prod.fst).Nodup)
    {claim : Nat × Nat} :
    claim ∈ setDeadline id deadline live ↔ claim = (id, deadline) ∨ claim.1 ≠ id ∧ claim ∈ live := by
  induction live with
  | nil => simp [setDeadline]
  | cons first rest ih =>
    rw [List.map_cons, List.nodup_cons] at nodup
    unfold setDeadline
    by_cases same : first.1 = id
    · have others : ∀ claim ∈ rest, claim.1 ≠ id := by
        intro claim member about
        apply nodup.1
        rw [same, ← about]
        exact List.mem_map_of_mem member
      simp only [same, if_true, List.mem_cons]
      constructor
      · rintro (rfl | member)
        · simp
        · exact .inr ⟨others claim member, .inr member⟩
      · rintro (rfl | ⟨other, rfl | member⟩)
        · simp
        · exact absurd same other
        · exact .inr member
    · simp only [same, if_false, List.mem_cons, ih nodup.2]
      by_cases here : claim = first
      · subst here
        simp [same]
      · simp [here]

theorem map_setDeadline (id deadline : Nat) (live : List (Nat × Nat)) :
    (setDeadline id deadline live).map Prod.fst =
      if id ∈ live.map Prod.fst then live.map Prod.fst else live.map Prod.fst ++ [id] := by
  induction live with
  | nil => simp [setDeadline]
  | cons first rest ih =>
    unfold setDeadline
    by_cases same : first.1 = id
    · simp [same]
    · rw [if_neg same, List.map_cons, ih]
      by_cases inside : id ∈ rest.map Prod.fst
      · simp [inside]
      · have outside : ¬ id ∈ (first :: rest).map Prod.fst := by
          rw [List.map_cons, List.mem_cons]
          rintro (here | there)
          · exact same here.symm
          · exact inside there
        rw [if_neg inside, if_neg outside]
        simp

namespace Backs

theorem later (backs : claims.Backs now held) (elapsed : Nat) : claims.Backs (now + elapsed) held :=
  ⟨backs.nodup, backs.issued, backs.live, fun id deadline is_ ahead => backs.kept id deadline is_ (by omega)⟩

theorem retainLive (backs : claims.Backs now held) : (claims.retainLive now).Backs now held where
  nodup := backs.nodup.sublist (List.filter_sublist.map Prod.fst)
  issued := backs.issued
  live id deadline member := backs.live id deadline (mem_retainLive.mp member).1
  kept id deadline is_ ahead := mem_retainLive.mpr ⟨backs.kept id deadline is_ ahead, ahead⟩

theorem fresh (backs : claims.Backs now held) : held (claims.nextId + 1) = none := by
  cases found : held (claims.nextId + 1) with
  | none => rfl
  | some deadline =>
    have := backs.issued _ _ found
    omega

theorem claim (backs : claims.Backs now held) (hold : Nat) :
    (claims.claim now hold).Backs now ((Change.grant (claims.nextId + 1) (now + hold)).apply held) where
  nodup := by
    simp only [Claims.claim, List.map_append, List.map_cons, List.map_nil, List.nodup_append]
    refine ⟨backs.nodup, by simp, ?_⟩
    intro id member other new
    rw [List.mem_singleton.mp new]
    obtain ⟨⟨id, deadline⟩, inside, rfl⟩ := List.mem_map.mp member
    have := backs.issued _ _ (backs.live _ _ inside)
    simp only [ne_eq]
    omega
  issued id deadline is_ := by
    by_cases same : id = claims.nextId + 1
    · simp [Claims.claim, same]
    · rw [Change.apply_other _ (by simpa [Change.of] using Ne.symm same)] at is_
      have := backs.issued id deadline is_
      simp only [Claims.claim]
      omega
  live id deadline member := by
    simp only [Claims.claim, List.mem_append, List.mem_singleton, Prod.mk.injEq] at member
    rcases member with old | ⟨rfl, rfl⟩
    · have before := backs.live id deadline old
      rw [Change.apply_other, before]
      intro same
      simp only [Change.of] at same
      rw [← same, backs.fresh] at before
      cases before
    · simp [Change.apply]
  kept id deadline is_ ahead := by
    simp only [Claims.claim, List.mem_append, List.mem_singleton, Prod.mk.injEq]
    by_cases same : id = claims.nextId + 1
    · subst same
      simp only [Change.apply, Function.update_self, Option.some.injEq] at is_
      exact .inr ⟨rfl, is_.symm⟩
    · rw [Change.apply_other _ (by simpa [Change.of] using Ne.symm same)] at is_
      exact .inl (backs.kept id deadline is_ ahead)

theorem renew (backs : claims.Backs now held) (issued : id ≤ claims.nextId) (hold : Nat) :
    (claims.renew now id hold).Backs now ((Change.grant id (now + hold)).apply held) where
  nodup := by
    simp only [Claims.renew]
    rw [map_setDeadline]
    split
    · exact backs.nodup
    next outside => exact List.nodup_append.mpr ⟨backs.nodup, by simp, by
        intro other member last new
        rw [List.mem_singleton.mp new]
        intro same
        exact outside (same ▸ member)⟩
  issued other deadline is_ := by
    by_cases same : other = id
    · rw [same]
      exact issued
    · rw [Change.apply_other _ (by simpa [Change.of] using Ne.symm same)] at is_
      exact backs.issued other deadline is_
  live other deadline member := by
    rcases (mem_setDeadline backs.nodup).mp member with same | ⟨apart, old⟩
    · cases same
      simp [Change.apply]
    · rw [Change.apply_other _ (by simpa [Change.of] using Ne.symm apart)]
      exact backs.live other deadline old
  kept other deadline is_ ahead := by
    apply (mem_setDeadline backs.nodup).mpr
    by_cases same : other = id
    · subst same
      simp only [Change.apply, Function.update_self, Option.some.injEq] at is_
      exact .inl (by rw [is_])
    · rw [Change.apply_other _ (by simpa [Change.of] using Ne.symm same)] at is_
      exact .inr ⟨same, backs.kept other deadline is_ ahead⟩

theorem release (backs : claims.Backs now held) (id : Nat) :
    (claims.release id).Backs now ((Change.giveBack id).apply held) where
  nodup := backs.nodup.sublist (List.filter_sublist.map Prod.fst)
  issued other deadline is_ := by
    by_cases same : other = id
    · simp [Change.apply, same] at is_
    · rw [Change.apply_other _ (by simpa [Change.of] using Ne.symm same)] at is_
      exact backs.issued other deadline is_
  live other deadline member := by
    simp only [Claims.release, List.mem_filter, decide_eq_true_eq] at member
    rw [Change.apply_other _ (by simpa [Change.of] using Ne.symm member.2)]
    exact backs.live other deadline member.1
  kept other deadline is_ ahead := by
    by_cases same : other = id
    · simp [Change.apply, same] at is_
    · rw [Change.apply_other _ (by simpa [Change.of] using Ne.symm same)] at is_
      simp only [Claims.release, List.mem_filter, decide_eq_true_eq]
      exact ⟨backs.kept other deadline is_ ahead, same⟩

/-- No claim is live exactly when every lease has run out. -/
theorem until_none (backs : claims.Backs now held) :
    claims.until_ now = none ↔ ∀ id deadline, held id = some deadline → deadline ≤ now := by
  rw [until_, List.max?_eq_none_iff, List.map_eq_nil_iff, List.eq_nil_iff_forall_not_mem]
  constructor
  · intro none_ id deadline is_
    by_contra ahead
    exact none_ _ (mem_retainLive.mpr ⟨backs.kept id deadline is_ (by omega), by omega⟩)
  · intro out claim member
    obtain ⟨inside, ahead⟩ := mem_retainLive.mp member
    have := out claim.1 claim.2 (backs.live _ _ inside)
    omega

/-- Else the walk waits for the last of those that have not. -/
theorem until_some (backs : claims.Backs now held) {deadline : Nat} (waits : claims.until_ now = some deadline) :
    now < deadline ∧ (∃ id, held id = some deadline) ∧ ∀ id other, held id = some other → other ≤ deadline := by
  obtain ⟨member, greatest⟩ := List.max?_eq_some_iff.mp waits
  obtain ⟨⟨id, _⟩, inside, rfl⟩ := List.mem_map.mp member
  obtain ⟨old, ahead⟩ := mem_retainLive.mp inside
  refine ⟨ahead, ⟨id, backs.live _ _ old⟩, ?_⟩
  intro other last is_
  by_cases out : last ≤ now
  · simp only at ahead ⊢
    omega
  · exact greatest last (List.mem_map_of_mem (mem_retainLive.mpr ⟨backs.kept other last is_ (by omega), by
      simp only
      omega⟩))

end Backs

end Claims

/-- In milliseconds. -/
def REVIEW_HOLD : Nat := 20 * 1000
def ACCEPTANCE_HOLD : Nat := 15 * 1000

/-- Where a call of the bridge about a send's claim is. -/
inductive ClaimCall
  | away
  /-- `review_claim` has its claim and has not put it in the slot -/
  | reviewing (id : Nat)
  /-- `review_into_commit` has taken the slot -/
  | committing (review : Option Nat)
  | committed (id : Nat)
  /-- `release_at_acceptance` waits for the acceptance, or its time -/
  | awaiting (id deadline : Nat)
  | releasing (id : Nat)
  /-- it has released, and has not woken the walks yet -/
  | notifying
  | done
deriving DecidableEq

/-- Where a walk is in `wait_turn`, and whether it has been woken since it registered. -/
inductive Turn
  | away
  | entering
  | enabled (woken : Bool)
  | asleep (deadline : Nat) (woken : Bool)
  | passed
deriving DecidableEq

def Turn.woken : Turn → Turn
  | enabled _ => enabled true
  | asleep deadline _ => asleep deadline true
  | turn => turn

/-- The claim it has in hand. -/
def ClaimCall.claim : ClaimCall → Option Nat
  | reviewing id | committing (some id) | committed id | awaiting id _ | releasing id => some id
  | _ => none

inductive ClaimAct
  | review
  | stash
  | unreview
  | commit
  | hold
  /-- the broadcast's answer, with a txid and a tracker to wait for it or not -/
  | answer (waits : Bool)
  | accepted
  | lapse
  | retain
  | notify

inductive TurnAct
  | arrive
  | enable
  | look
  | wake
  | leave
  | drop

inductive ForegroundEvent (κ ι : Type)
  | tick (elapsed : Nat)
  | send (k : κ) (act : ClaimAct)
  | walk (i : ι) (act : TurnAct)

/-- The claims, the review's slot, the calls on them and the walks that wait. -/
structure Foreground (κ ι : Type) where
  claims : Claims
  now : Nat
  slot : Option Nat
  calls : κ → ClaimCall
  walks : ι → Turn

namespace Foreground

variable {κ ι : Type}

def start : Foreground κ ι := ⟨Claims.start, 0, none, fun _ => .away, fun _ => .away⟩

section Step

variable [DecidableEq κ] [DecidableEq ι] (s : Foreground κ ι)

def goto (k : κ) (call : ClaimCall) : Foreground κ ι := { s with calls := Function.update s.calls k call }

def turn (i : ι) (turn : Turn) : Foreground κ ι := { s with walks := Function.update s.walks i turn }

/-- `release`, once the caller has an id to give back. -/
def giveBack (k : κ) : Option Nat → Foreground κ ι
  | some id => s.goto k (.releasing id)
  | none => s.goto k .done

def sendStep (k : κ) : ClaimCall → ClaimAct → Option (Foreground κ ι)
  | .away, .review =>
    some { s.goto k (.reviewing (s.claims.nextId + 1)) with claims := s.claims.claim s.now REVIEW_HOLD }
  | .reviewing id, .stash => some { s.giveBack k s.slot with slot := some id }
  | .away, .unreview => some { s.giveBack k s.slot with slot := none }
  | .away, .commit => some { s.goto k (.committing s.slot) with slot := none }
  | .committing (some id), .hold =>
    some { s.goto k (.committed id) with claims := s.claims.renew s.now id ACCEPTANCE_HOLD }
  | .committing none, .hold =>
    some { s.goto k (.committed (s.claims.nextId + 1)) with claims := s.claims.claim s.now ACCEPTANCE_HOLD }
  | .committed id, .answer true =>
    some { s.goto k (.awaiting id (s.now + ACCEPTANCE_HOLD)) with
      claims := s.claims.renew s.now id ACCEPTANCE_HOLD }
  | .committed id, .answer false => some (s.goto k (.releasing id))
  | .awaiting id _, .accepted => some (s.goto k (.releasing id))
  | .awaiting id deadline, .lapse => if deadline ≤ s.now then some (s.goto k (.releasing id)) else none
  | .releasing id, .retain => some { s.goto k .notifying with claims := s.claims.release id }
  | .notifying, .notify => some { s.goto k .done with walks := fun i => (s.walks i).woken }
  | _, _ => none

def walkStep (i : ι) : Turn → TurnAct → Option (Foreground κ ι)
  | .away, .arrive => some (s.turn i .entering)
  | .entering, .enable => some (s.turn i (.enabled false))
  | .enabled woken, .look =>
    let turn := (s.claims.until_ s.now).elim Turn.passed fun deadline => .asleep deadline woken
    some { s.turn i turn with claims := s.claims.retainLive s.now }
  | .asleep deadline woken, .wake => if woken || decide (deadline ≤ s.now) then some (s.turn i .entering) else none
  | .passed, .leave => some (s.turn i .away)
  | .entering, .drop | .enabled _, .drop | .asleep _ _, .drop => some (s.turn i .away)
  | _, _ => none

def step : ForegroundEvent κ ι → Option (Foreground κ ι)
  | .tick elapsed => some { s with now := s.now + elapsed }
  | .send k act => s.sendStep k (s.calls k) act
  | .walk i act => s.walkStep i (s.walks i) act

/-- The claim an event takes, renews or releases. -/
def change : ForegroundEvent κ ι → Option (Change Nat)
  | .send k act =>
    match s.calls k, act with
    | .away, .review => some (.grant (s.claims.nextId + 1) (s.now + REVIEW_HOLD))
    | .committing (some id), .hold => some (.grant id (s.now + ACCEPTANCE_HOLD))
    | .committing none, .hold => some (.grant (s.claims.nextId + 1) (s.now + ACCEPTANCE_HOLD))
    | .committed id, .answer true => some (.grant id (s.now + ACCEPTANCE_HOLD))
    | .releasing id, .retain => some (.giveBack id)
    | _, _ => none
  | _ => none

/-- Who has a claim: the review's slot or a call. -/
def hand : Option κ → Option Nat
  | none => s.slot
  | some k => (s.calls k).claim

end Step

variable [DecidableEq κ]

/-- All that an event does to the claims, the clock and the hands. -/
inductive Shift (s : Foreground κ ι) : Foreground κ ι → Option (Change Nat) → Prop
  | tick (elapsed : Nat) : Shift s { s with now := s.now + elapsed } none
  | stay {next : Foreground κ ι} (claims : next.claims = s.claims ∨ next.claims = s.claims.retainLive s.now)
      (now : next.now = s.now) (same : next.hand = s.hand) : Shift s next none
  | pass {next : Foreground κ ι} (claims : next.claims = s.claims) (now : next.now = s.now) (k : κ)
      (passed : next.hand = s.hand ∘ Equiv.swap none (some k)) : Shift s next none
  | claim {next : Foreground κ ι} (k : κ) (hold : Nat) (least : ACCEPTANCE_HOLD ≤ hold) (most : hold ≤ REVIEW_HOLD)
      (claims : next.claims = s.claims.claim s.now hold) (now : next.now = s.now) (free : s.hand (some k) = none)
      (taken : next.hand = Function.update s.hand (some k) (some (s.claims.nextId + 1))) :
      Shift s next (some (.grant (s.claims.nextId + 1) (s.now + hold)))
  | renew {next : Foreground κ ι} (k : κ) (id : Nat) (claims : next.claims = s.claims.renew s.now id ACCEPTANCE_HOLD)
      (now : next.now = s.now) (has : s.hand (some k) = some id) (same : next.hand = s.hand) :
      Shift s next (some (.grant id (s.now + ACCEPTANCE_HOLD)))
  | release {next : Foreground κ ι} (k : κ) (id : Nat) (claims : next.claims = s.claims.release id)
      (now : next.now = s.now) (has : s.hand (some k) = some id)
      (gone : next.hand = Function.update s.hand (some k) none) (tells : next.calls k = .notifying) : Shift s next (some (.giveBack id))

section Shift

variable {s next : Foreground κ ι} {k : κ} {call : ClaimCall}

theorem hand_update (call : ClaimCall) (called : next.calls = Function.update s.calls k call) (slot : next.slot = s.slot) :
    next.hand = Function.update s.hand (some k) call.claim := by
  funext who
  cases who with
  | none => simpa [hand] using slot
  | some other =>
    by_cases same : other = k
    · subst same
      simp [hand, called]
    · simp [hand, called, same]

theorem hand_same (called : next.calls = Function.update s.calls k call) (slot : next.slot = s.slot)
    (claim : call.claim = (s.calls k).claim) : next.hand = s.hand := by
  rw [hand_update call called slot, claim]
  exact Function.update_eq_self (some k) s.hand

theorem hand_swap (called : next.calls = Function.update s.calls k call) (given : call.claim = s.slot)
    (slot : next.slot = (s.calls k).claim) : next.hand = s.hand ∘ Equiv.swap none (some k) := by
  funext who
  cases who with
  | none => simpa [hand] using slot
  | some other =>
    by_cases same : other = k
    · subst same
      simp [hand, called, given]
    · rw [Function.comp_apply, Equiv.swap_apply_of_ne_of_ne (by simp) (by simpa using same)]
      simp [hand, called, same]

theorem giveBack_calls (claim : Option Nat) : ∃ call : ClaimCall, call.claim = claim ∧
    (s.giveBack k claim).calls = Function.update s.calls k call := by
  cases claim with
  | none => exact ⟨.done, rfl, rfl⟩
  | some id => exact ⟨.releasing id, rfl, rfl⟩

@[simp] theorem giveBack_claims (claim : Option Nat) : (s.giveBack k claim).claims = s.claims := by
  cases claim <;> rfl

@[simp] theorem giveBack_now (claim : Option Nat) : (s.giveBack k claim).now = s.now := by
  cases claim <;> rfl

@[simp] theorem giveBack_walks (claim : Option Nat) : (s.giveBack k claim).walks = s.walks := by
  cases claim <;> rfl

variable [DecidableEq ι]

theorem walk_shift {i : ι} {turn : Turn} {act : TurnAct} (walks : s.walkStep i turn act = some next) :
    Shift s next none := by
  cases turn <;> cases act <;> simp only [walkStep, reduceCtorEq] at walks <;>
    first
    | (cases walks; exact .stay (.inl rfl) rfl rfl)
    | (cases walks; exact .stay (.inr rfl) rfl rfl)
    | (split at walks <;> cases walks; exact .stay (.inl rfl) rfl rfl)

/-- A call of a send moves its own place alone, and only a notice touches the walks. -/
theorem send_spec {act : ClaimAct} (happens : s.step (.send k act) = some next) :
    Shift s next (s.change (.send k act)) ∧ (∃ call, next.calls = Function.update s.calls k call) ∧
      (act = .notify ∨ next.walks = s.walks) := by
  simp only [step] at happens
  simp only [change]
  cases call : s.calls k with
  | away =>
    rw [call] at happens
    cases act <;> simp only [sendStep, reduceCtorEq] at happens
    case review =>
      cases happens
      exact ⟨.claim k REVIEW_HOLD (by decide) (le_refl _) rfl rfl (by simp [hand, call, ClaimCall.claim])
        (hand_update (.reviewing _) rfl rfl), ⟨_, rfl⟩, .inr rfl⟩
    case unreview =>
      cases happens
      obtain ⟨other, claim, called⟩ := giveBack_calls (s := s) (k := k) s.slot
      exact ⟨.pass (by simp) (by simp) k (hand_swap called claim (by simp [call, ClaimCall.claim])), ⟨_, called⟩,
        .inr (by simp)⟩
    case commit =>
      cases happens
      refine ⟨.pass rfl rfl k (hand_swap rfl ?_ (by simp [call, ClaimCall.claim])), ⟨_, rfl⟩, .inr rfl⟩
      cases s.slot <;> rfl
  | reviewing id =>
    rw [call] at happens
    cases act <;> simp only [sendStep, reduceCtorEq] at happens
    cases happens
    obtain ⟨other, claim, called⟩ := giveBack_calls (s := s) (k := k) s.slot
    exact ⟨.pass (by simp) (by simp) k (hand_swap called claim (by simp [call, ClaimCall.claim])), ⟨_, called⟩,
      .inr (by simp)⟩
  | committing review =>
    rw [call] at happens
    cases review with
    | none =>
      cases act <;> simp only [sendStep, reduceCtorEq] at happens
      cases happens
      exact ⟨.claim k ACCEPTANCE_HOLD (le_refl _) (by decide) rfl rfl (by simp [hand, call, ClaimCall.claim])
        (hand_update (.committed _) rfl rfl), ⟨_, rfl⟩, .inr rfl⟩
    | some id =>
      cases act <;> simp only [sendStep, reduceCtorEq] at happens
      cases happens
      exact ⟨.renew k id rfl rfl (by simp [hand, call, ClaimCall.claim])
        (hand_same rfl rfl (by simp [call, ClaimCall.claim])), ⟨_, rfl⟩, .inr rfl⟩
  | committed id =>
    rw [call] at happens
    cases act with
    | answer waits =>
      cases waits <;> simp only [sendStep] at happens <;> cases happens
      · exact ⟨.stay (.inl rfl) rfl (hand_same rfl rfl (by simp [call, ClaimCall.claim])), ⟨_, rfl⟩, .inr rfl⟩
      · exact ⟨.renew k id rfl rfl (by simp [hand, call, ClaimCall.claim])
          (hand_same rfl rfl (by simp [call, ClaimCall.claim])), ⟨_, rfl⟩, .inr rfl⟩
    | _ => simp [sendStep] at happens
  | awaiting id deadline =>
    rw [call] at happens
    cases act <;> simp only [sendStep, reduceCtorEq] at happens
    · cases happens
      exact ⟨.stay (.inl rfl) rfl (hand_same rfl rfl (by simp [call, ClaimCall.claim])), ⟨_, rfl⟩, .inr rfl⟩
    · split at happens <;> cases happens
      exact ⟨.stay (.inl rfl) rfl (hand_same rfl rfl (by simp [call, ClaimCall.claim])), ⟨_, rfl⟩, .inr rfl⟩
  | releasing id =>
    rw [call] at happens
    cases act <;> simp only [sendStep, reduceCtorEq] at happens
    cases happens
    exact ⟨.release k id rfl rfl (by simp [hand, call, ClaimCall.claim]) (hand_update .notifying rfl rfl)
      (Function.update_self ..), ⟨_, rfl⟩, .inr rfl⟩
  | notifying =>
    rw [call] at happens
    cases act <;> simp only [sendStep, reduceCtorEq] at happens
    cases happens
    exact ⟨.stay (.inl rfl) rfl (hand_same rfl rfl (by simp [call, ClaimCall.claim])), ⟨_, rfl⟩, .inl rfl⟩
  | done =>
    rw [call] at happens
    cases act <;> simp [sendStep] at happens

theorem step_shift {event : ForegroundEvent κ ι} (happens : s.step event = some next) :
    Shift s next (s.change event) := by
  cases event with
  | tick elapsed =>
    cases happens
    exact .tick elapsed
  | walk i act => exact walk_shift happens
  | send k act => exact (send_spec happens).1

theorem walk_walks {i j : ι} {act : TurnAct} (happens : s.step (.walk i act) = some next) (other : j ≠ i) :
    next.walks j = s.walks j := by
  simp only [step] at happens
  cases walk : s.walks i <;> rw [walk] at happens <;> cases act <;> simp only [walkStep, reduceCtorEq] at happens <;>
    first
    | (cases happens; simp [turn, other])
    | (split at happens <;> cases happens; simp [turn, other])

theorem tells_still {event : ForegroundEvent κ ι} (happens : s.step event = some next)
    (tells : s.calls k = .notifying) (quiet : event ≠ .send k .notify) : next.calls k = .notifying := by
  cases event with
  | tick elapsed =>
    cases happens
    exact tells
  | walk i act =>
    simp only [step] at happens
    cases walk : s.walks i <;> rw [walk] at happens <;> cases act <;> simp only [walkStep, reduceCtorEq] at happens <;>
      first
      | (cases happens; exact tells)
      | (split at happens <;> cases happens; exact tells)
  | send other act =>
    by_cases same : other = k
    · subst same
      simp only [step, tells] at happens
      cases act <;> simp_all [sendStep]
    · obtain ⟨call, called⟩ := (send_spec happens).2.1
      rw [called, Function.update_of_ne (Ne.symm same)]
      exact tells

end Shift

/-- Each lease is in one hand. -/
structure Sound (held : Held Nat) (s : Foreground κ ι) : Prop where
  backs : s.claims.Backs s.now held
  soon : ∀ id deadline, held id = some deadline → deadline ≤ s.now + REVIEW_HOLD
  hands : ∀ id, (∃ deadline, held id = some deadline) ↔ ∃ who, s.hand who = some id
  one : ∀ who other id, s.hand who = some id → s.hand other = some id → who = other

section Sound

variable {s next : Foreground κ ι} {held : Held Nat}

omit [DecidableEq κ] in
theorem sound_start : Sound (Leases.held []) (start : Foreground κ ι) := by
  have none_ : ∀ who id, (start : Foreground κ ι).hand who ≠ some id := by
    intro who id
    cases who <;> simp [hand, start, ClaimCall.claim]
  exact ⟨Claims.backs_start, by simp, by simp [none_], by simp [none_]⟩

theorem Shift.now_le {change : Option (Change Nat)} (shift : Shift s next change) : s.now ≤ next.now := by
  cases shift <;> simp_all

omit [DecidableEq κ] in
theorem Sound.grant (sound : Sound held s) {id deadline : Nat} {claims : Claims} {hands : Option κ → Option Nat}
    (backs : claims.Backs next.now ((Change.grant id deadline).apply held)) (claims_ : next.claims = claims)
    (now : next.now = s.now) (soon : deadline ≤ s.now + REVIEW_HOLD) (hand : next.hand = hands)
    (given : ∀ other, (∃ who, hands who = some other) ↔ other = id ∨ ∃ who, s.hand who = some other)
    (one : ∀ who other claim, hands who = some claim → hands other = some claim → who = other) :
    Sound ((Change.grant id deadline).apply held) next := by
  refine ⟨claims_ ▸ backs, ?_, ?_, hand ▸ one⟩
  · intro other last is_
    by_cases same : other = id
    · subst same
      simp only [Change.apply, Function.update_self, Option.some.injEq] at is_
      omega
    · rw [Change.apply_other _ (by simpa [Change.of] using Ne.symm same)] at is_
      have := sound.soon other last is_
      omega
  · intro other
    rw [hand, given]
    by_cases same : other = id
    · subst same
      simp [Change.apply]
    · rw [Change.apply_other _ (by simpa [Change.of] using Ne.symm same), sound.hands]
      simp [same]

theorem Shift.sound {change : Option (Change Nat)} (shift : Shift s next change) (sound : Sound held s) :
    Sound (change.elim held fun made => made.apply held) next := by
  obtain ⟨backs, soon, hands, one⟩ := sound
  cases shift with
  | tick elapsed =>
    refine ⟨backs.later elapsed, ?_, hands, one⟩
    intro id deadline is_
    have := soon id deadline is_
    simp only
    omega
  | stay claims now same =>
    refine ⟨?_, by rw [now]; exact soon, by rw [same]; exact hands, by rw [same]; exact one⟩
    rw [now]
    rcases claims with kept | pruned
    · rw [kept]
      exact backs
    · rw [pruned]
      exact backs.retainLive
  | pass claims now k passed =>
    refine ⟨by rw [now, claims]; exact backs, by rw [now]; exact soon, ?_, ?_⟩
    · intro id
      simp only [Option.elim_none]
      rw [hands, passed]
      exact ((Equiv.swap none (some k)).exists_congr_left (p := fun who => s.hand who = some id)).trans (by simp)
    · intro who other id first second
      rw [passed] at first second
      exact (Equiv.swap none (some k)).injective (one _ _ id first second)
  | claim k hold least most claims now free taken =>
    have fresh : ∀ who, s.hand who ≠ some (s.claims.nextId + 1) := by
      intro who has
      obtain ⟨deadline, is_⟩ := (hands _).mpr ⟨who, has⟩
      rw [backs.fresh] at is_
      cases is_
    refine Sound.grant ⟨backs, soon, hands, one⟩ (by rw [now]; exact backs.claim hold) claims now (by omega) taken ?_ ?_
    · intro other
      constructor
      · rintro ⟨who, has⟩
        by_cases same : who = some k
        · subst same
          simp only [Function.update_self, Option.some.injEq] at has
          exact .inl has.symm
        · rw [Function.update_of_ne same] at has
          exact .inr ⟨who, has⟩
      · rintro (rfl | ⟨who, has⟩)
        · exact ⟨some k, by simp⟩
        · refine ⟨who, ?_⟩
          rw [Function.update_of_ne, has]
          rintro rfl
          rw [free] at has
          cases has
    · intro who other id first second
      by_cases here : who = some k <;> by_cases there : other = some k
      · rw [here, there]
      · rw [here, Function.update_self] at first
        rw [Function.update_of_ne there, ← first] at second
        exact absurd second (fresh other)
      · rw [there, Function.update_self] at second
        rw [Function.update_of_ne here, ← second] at first
        exact absurd first (fresh who)
      · rw [Function.update_of_ne here] at first
        rw [Function.update_of_ne there] at second
        exact one who other id first second
  | renew k id claims now has same =>
    obtain ⟨deadline, is_⟩ := (hands id).mpr ⟨some k, has⟩
    refine Sound.grant ⟨backs, soon, hands, one⟩ (by rw [now]; exact backs.renew (backs.issued id deadline is_) _) claims
      now (Nat.add_le_add_left (by decide) _) same ?_ one
    intro other
    constructor
    · exact .inr
    · rintro (rfl | held_)
      · exact ⟨some k, has⟩
      · exact held_
  | release k id claims now has gone =>
    have after : ∀ who other, next.hand who = some other ↔ other ≠ id ∧ s.hand who = some other := by
      intro who other
      rw [gone]
      by_cases same : who = some k
      · subst same
        simp only [Function.update_self, reduceCtorEq, false_iff, not_and]
        intro apart there
        rw [has] at there
        cases there
        exact apart rfl
      · rw [Function.update_of_ne same]
        constructor
        · intro there
          refine ⟨?_, there⟩
          rintro rfl
          exact same (one who (some k) _ there has)
        · exact And.right
    refine ⟨by rw [now, claims]; exact backs.release id, ?_, ?_, ?_⟩
    · intro other deadline is_
      by_cases same : other = id
      · simp [Change.apply, same] at is_
      · simp only [Option.elim_some] at is_
        rw [Change.apply_other _ (by simpa [Change.of] using Ne.symm same)] at is_
        rw [now]
        exact soon other deadline is_
    · intro other
      simp only [Option.elim_some, after]
      by_cases same : other = id
      · simp [Change.apply, same]
      · rw [Change.apply_other _ (by simpa [Change.of] using Ne.symm same), hands]
        simp [same]
    · intro who other claim first second
      exact one who other claim ((after who claim).mp first).2 ((after other claim).mp second).2

end Sound

section Runs

variable [DecidableEq ι] {s : Foreground κ ι} {es : List (ForegroundEvent κ ι)}

/-- The leases out after a run. -/
def leases (es : List (ForegroundEvent κ ι)) : Held Nat := Leases.held (Machine.emitted step change start es)

theorem leases_snoc {mid : Foreground κ ι} (ran : Machine.run step start es = some mid) (e : ForegroundEvent κ ι) :
    leases (es ++ [e]) = (mid.change e).elim (leases es) fun made => made.apply (leases es) := by
  rw [leases, Machine.emitted_snoc ran]
  cases mid.change e with
  | none => simp [leases]
  | some made => simp [leases, Leases.held_snoc]

theorem run_sound (ran : Machine.run step start es = some s) : Sound (leases es) s := by
  refine Machine.run_history (p := fun done s => Sound (leases done) s) sound_start ?_ ran
  intro done e mid next reached sound happens
  rw [leases_snoc reached]
  exact (step_shift happens).sound sound

theorem look_passes {i : ι} {woken : Bool} (registered : s.walks i = .enabled woken) :
    (s.step (.walk i .look)).map (fun next => next.walks i) = some .passed ↔ s.claims.until_ s.now = none := by
  rw [step, registered]
  cases found : s.claims.until_ s.now <;> simp [walkStep, turn, found]

/-- A claim holds the socket for its time whatever the other sends do, unless its holder gives it back. -/
theorem Sound.holds {held : Held Nat} (sound : Sound held s) {id deadline : Nat} (is_ : held id = some deadline) (within : s.now < deadline) (i : ι) :
    (s.step (.walk i .look)).map (fun next => next.walks i) ≠ some .passed := by
  intro passes
  cases walk : s.walks i with
  | enabled woken =>
    have out := sound.backs.until_none.mp ((look_passes walk).mp passes) id deadline is_
    omega
  | _ => simp [step, walk, walkStep] at passes

omit [DecidableEq ι] in
theorem Shift.bound {next : Foreground κ ι} {change : Option (Change Nat)} {held : Held Nat} {id bound : Nat}
    (shift : Shift s next change) (soon : bound ≤ s.now + ACCEPTANCE_HOLD)
    (holds : id ≤ s.claims.nextId ∧ ∀ deadline, held id = some deadline → bound ≤ deadline) :
    id ≤ next.claims.nextId ∧
      ∀ deadline, (change.elim held fun made => made.apply held) id = some deadline → bound ≤ deadline := by
  obtain ⟨issued, last⟩ := holds
  cases shift with
  | tick => exact ⟨issued, last⟩
  | stay claims =>
    refine ⟨?_, last⟩
    rcases claims with same | same <;> rw [same]
    · exact issued
    · exact issued
  | pass claims =>
    rw [claims]
    exact ⟨issued, last⟩
  | claim k hold least _ claims =>
    rw [claims]
    refine ⟨Nat.le_succ_of_le issued, ?_⟩
    intro deadline is_
    simp only [Option.elim_some] at is_
    rw [Change.apply_other _ (by simp only [Change.of]; omega)] at is_
    exact last deadline is_
  | renew k other claims =>
    rw [claims]
    refine ⟨issued, ?_⟩
    intro deadline is_
    by_cases same : id = other
    · simp [Change.apply, same] at is_
      omega
    · simp only [Option.elim_some] at is_
      rw [Change.apply_other _ (by simpa [Change.of] using Ne.symm same)] at is_
      exact last deadline is_
  | release k other claims =>
    rw [claims]
    refine ⟨issued, ?_⟩
    intro deadline is_
    by_cases same : id = other
    · simp [Change.apply, same] at is_
    · simp only [Option.elim_some] at is_
      rw [Change.apply_other _ (by simpa [Change.of] using Ne.symm same)] at is_
      exact last deadline is_

/-- A walk goes on exactly when every claim that a send has in hand has run out, and each claim is in
    one send's hand. One taken or renewed holds the socket for the acceptance's time, unless the send
    that has it gives it back. -/
theorem a_send_goes_first (ran : Machine.run step start es = some s) :
    (∀ who other id, s.hand who = some id → s.hand other = some id → who = other) ∧
    (∀ i woken, s.walks i = .enabled woken →
      ((s.step (.walk i .look)).map (fun next => next.walks i) = some .passed ↔
        ∀ who id, s.hand who = some id → ∃ deadline, leases es id = some deadline ∧ deadline ≤ s.now)) ∧
    ∀ before e after mid id deadline, es = before ++ e :: after → Machine.run step start before = some mid →
      mid.change e = some (.grant id deadline) → (∃ who, s.hand who = some id) → s.now < mid.now + ACCEPTANCE_HOLD →
      ∀ i, (s.step (.walk i .look)).map (fun next => next.walks i) ≠ some .passed := by
  have sound := run_sound ran
  refine ⟨sound.one, ?_, ?_⟩
  · intro i woken registered
    rw [look_passes registered, sound.backs.until_none]
    constructor
    · intro out who id has
      obtain ⟨deadline, is_⟩ := (sound.hands id).mpr ⟨who, has⟩
      exact ⟨deadline, is_, out id deadline is_⟩
    · intro out id deadline is_
      obtain ⟨who, has⟩ := (sound.hands id).mp ⟨deadline, is_⟩
      obtain ⟨last, same, past⟩ := out who id has
      rw [is_] at same
      cases same
      exact past
  · intro before e after mid id deadline shape reached granted held within i
    subst shape
    rw [Machine.run_append, reached, Option.bind_some] at ran
    obtain ⟨taken, happens, rest⟩ := Machine.run_cons_some ran
    have early := run_sound reached
    have first : Machine.run step start (before ++ [e]) = some taken := by
      rw [Machine.run_append, reached]
      simp [Machine.run_cons, happens]
    -- from here on the claim's deadline never moves back
    have follows := Machine.run_history (p := fun done t => mid.now ≤ t.now ∧ id ≤ t.claims.nextId ∧
      ∀ last, leases (before ++ [e] ++ done) id = some last → mid.now + ACCEPTANCE_HOLD ≤ last) ?_ ?_ rest
    · obtain ⟨-, -, late⟩ := follows
      obtain ⟨who, has⟩ := held
      obtain ⟨last, is_⟩ := (sound.hands id).mpr ⟨who, has⟩
      refine sound.holds is_ ?_ i
      have := late last (by simpa using is_)
      omega
    · have shift := step_shift happens
      rw [granted] at shift
      have made : leases (before ++ [e]) = (Change.grant id deadline).apply (leases before) := by
        rw [leases_snoc reached, granted]
        rfl
      refine ⟨shift.now_le, ?_⟩
      rw [List.append_nil, made]
      simp only [Change.apply, Function.update_self, Option.some.injEq, forall_eq']
      cases shift with
      | claim k hold least most claims now =>
        rw [claims]
        exact ⟨le_refl _, by omega⟩
      | renew k _ claims now has =>
        rw [claims]
        obtain ⟨old, is_⟩ := (early.hands id).mpr ⟨_, has⟩
        exact ⟨early.backs.issued id old is_, le_refl _⟩
    · intro done other t next reached_ ih stepped
      obtain ⟨later, bound⟩ := ih
      have through : Machine.run step start (before ++ [e] ++ done) = some t := by
        rw [Machine.run_append, first]
        exact reached_
      have shift := step_shift stepped
      refine ⟨later.trans shift.now_le, ?_⟩
      rw [← List.append_assoc, leases_snoc through]
      exact shift.bound (by omega) bound

/-- The walk's last look at the claims, and no notice since that it has not heard. -/
theorem asleep_since (ran : Machine.run step start es = some s) {i : ι} {deadline : Nat} {woken : Bool}
    (sleeps : s.walks i = .asleep deadline woken) :
    ∃ before after mid, es = before ++ .walk i .look :: after ∧ Machine.run step start before = some mid ∧
      mid.claims.until_ mid.now = some deadline ∧ (woken = false → ∀ k, .send k .notify ∉ after) := by
  refine Machine.run_history (p := fun done (t : Foreground κ ι) => ∀ deadline woken,
    t.walks i = .asleep deadline woken → ∃ before after mid, done = before ++ .walk i .look :: after ∧
      Machine.run step start before = some mid ∧ mid.claims.until_ mid.now = some deadline ∧
      (woken = false → ∀ k, .send k .notify ∉ after)) ?_ ?_ ran deadline woken sleeps
  · intro deadline woken sleeps
    cases sleeps
  · intro done e mid next reached ih happens deadline woken sleeps
    have on (old : mid.walks i = .asleep deadline woken) (quiet : ∀ k, .send k .notify ≠ e) :
        ∃ before after mid, done ++ [e] = before ++ .walk i .look :: after ∧
          Machine.run step start before = some mid ∧ mid.claims.until_ mid.now = some deadline ∧
          (woken = false → ∀ k, .send k .notify ∉ after) := by
      obtain ⟨before, after, looked, rfl, reached, waits, unheard⟩ := ih deadline woken old
      refine ⟨before, after ++ [e], looked, by simp, reached, waits, ?_⟩
      intro unwoken k member
      rcases List.mem_append.mp member with early | last
      · exact unheard unwoken k early
      · exact quiet k (List.mem_singleton.mp last)
    cases e with
    | tick elapsed =>
      cases happens
      exact on sleeps (by simp)
    | send k act =>
      by_cases tells : act = .notify
      · subst tells
        cases call : mid.calls k <;> simp only [step, call, sendStep, reduceCtorEq] at happens
        cases happens
        simp only at sleeps
        cases old : mid.walks i with
        | asleep since before =>
          rw [old] at sleeps
          cases sleeps
          obtain ⟨before, after, looked, rfl, reached, waits, -⟩ := ih deadline _ old
          exact ⟨before, after ++ [.send k .notify], looked, by simp, reached, waits, by simp⟩
        | _ => simp [old, Turn.woken] at sleeps
      · rw [(send_spec happens).2.2.resolve_left tells] at sleeps
        exact on sleeps (by simp [Ne.symm tells])
    | walk j act =>
      by_cases other : j = i
      · subst other
        cases old : mid.walks j <;> cases act <;> simp only [step, old, walkStep, reduceCtorEq] at happens
        case enabled.look before =>
          cases happens
          simp only [turn, Function.update_self] at sleeps
          cases waits : mid.claims.until_ mid.now with
          | none => simp [waits] at sleeps
          | some last =>
            simp only [waits, Option.elim_some, Turn.asleep.injEq] at sleeps
            refine ⟨done, [], mid, rfl, reached, ?_, by simp⟩
            rw [waits, sleeps.1]
        case asleep.wake =>
          split at happens <;> cases happens
          simp [turn] at sleeps
        all_goals
          cases happens
          simp [turn] at sleeps
      · rw [walk_walks happens (Ne.symm other)] at sleeps
        exact on sleeps (by simp)

/-- With every notice given, the claims in hand at a walk's look are in hand still if it heard of no notice. -/
theorem hands_stay {looked : Foreground κ ι} {after : List (ForegroundEvent κ ι)}
    (ran : Machine.run step looked after = some s) (unheard : ∀ k, .send k .notify ∉ after) :
    (∃ k, s.calls k = .notifying) ∨ ∀ id, (∃ who, looked.hand who = some id) → ∃ who, s.hand who = some id := by
  refine Machine.run_history (p := fun done (t : Foreground κ ι) => (∀ k, .send k .notify ∉ done) →
    (∃ k, t.calls k = .notifying) ∨ ∀ id, (∃ who, looked.hand who = some id) → ∃ who, t.hand who = some id)
    ?_ ?_ ran unheard
  · intro _
    exact .inr fun id has => has
  · intro done e mid next _ ih happens unheard
    rcases ih (fun k member => unheard k (List.mem_append_left _ member)) with ⟨k, tells⟩ | stay
    · left
      refine ⟨k, ?_⟩
      apply tells_still happens tells
      rintro rfl
      exact unheard k (by simp)
    · have shift := step_shift happens
      generalize mid.change e = made at shift
      cases shift with
      | tick => exact .inr stay
      | stay _ _ same | renew _ _ _ _ _ same =>
        rw [same]
        exact .inr stay
      | pass _ _ k passed =>
        right
        intro id has
        obtain ⟨who, there⟩ := stay id has
        exact ⟨Equiv.swap none (some k) who, by simp [passed, there]⟩
      | claim k _ _ _ _ _ free taken =>
        right
        intro id has
        obtain ⟨who, there⟩ := stay id has
        refine ⟨who, ?_⟩
        rw [taken, Function.update_of_ne, there]
        rintro rfl
        rw [free] at there
        cases there
      | release k _ _ _ _ _ tells => exact .inl ⟨k, tells⟩

/-- A walk asleep sleeps no longer than a review holds from when it looked, and it wakes at once unless
    a claim that it saw is in a send's hand still, or has just been given back. -/
theorem no_wake_is_lost (ran : Machine.run step start es = some s) {i : ι} {deadline : Nat} {woken : Bool}
    (sleeps : s.walks i = .asleep deadline woken) :
    ∃ before after mid, es = before ++ .walk i .look :: after ∧ Machine.run step start before = some mid ∧
      deadline ≤ mid.now + REVIEW_HOLD ∧
      ((s.step (.walk i .wake)).isSome = true ∨ (∃ k, s.calls k = .notifying) ∨
        ∃ who id, leases before id = some deadline ∧ s.hand who = some id) := by
  obtain ⟨before, after, mid, rfl, reached, waits, unheard⟩ := asleep_since ran sleeps
  have sound := run_sound reached
  obtain ⟨_, ⟨id, is_⟩, _⟩ := sound.backs.until_some waits
  refine ⟨before, after, mid, rfl, reached, sound.soon id deadline is_, ?_⟩
  cases woken with
  | true => exact .inl (by simp [step, sleeps, walkStep])
  | false =>
    right
    rw [Machine.run_append, reached, Option.bind_some] at ran
    rcases hands_stay ran (by simpa using unheard rfl) with tells | stay
    · exact .inl tells
    · obtain ⟨who, has⟩ := stay id ((sound.hands id).mp ⟨deadline, is_⟩)
      exact .inr ⟨who, id, is_, has⟩

end Runs

section Sample

/-- A review takes the socket and a walk falls asleep behind it; five seconds later it is committed. -/
def reviewed : List (ForegroundEvent Nat Nat) :=
  [.send 0 .review, .send 0 .stash, .walk 0 .arrive, .walk 0 .enable, .walk 0 .look, .tick 5000, .send 1 .commit]

def committed : List (ForegroundEvent Nat Nat) :=
  reviewed ++ [.send 1 .hold, .tick 14999, .walk 1 .arrive, .walk 1 .enable]

theorem a_send_goes_first_committed : ∃ s, Machine.run step start committed = some s ∧
    s.walks 1 = .enabled false ∧ ∀ i, (s.step (.walk i .look)).map (fun next => next.walks i) ≠ some .passed := by
  have ends : (Machine.run step start committed).any (fun s => decide (s.walks 1 = .enabled false ∧
      s.hand (some 1) = some 1 ∧ s.now = 19999)) = true := by
    decide +kernel
  obtain ⟨s, ran, facts⟩ := (Option.any_eq_true _ _).mp ends
  obtain ⟨registered, has, clock⟩ := of_decide_eq_true facts
  have early : (Machine.run step start reviewed).any (fun mid => decide (mid.now = 5000 ∧
      mid.calls 1 = .committing (some 1))) = true := by
    decide +kernel
  obtain ⟨mid, reached, facts⟩ := (Option.any_eq_true _ _).mp early
  obtain ⟨time, taken⟩ := of_decide_eq_true facts
  have granted : mid.change (.send 1 .hold) = some (.grant 1 (mid.now + ACCEPTANCE_HOLD)) := by
    simp [change, taken]
  refine ⟨s, ran, registered, (a_send_goes_first ran).2.2 reviewed (.send 1 .hold) _ mid 1 _ rfl reached granted
    ⟨some 1, has⟩ ?_⟩
  rw [clock, time]
  decide

theorem no_wake_is_lost_committed : ∃ s, Machine.run step start committed = some s ∧
    ∃ before after mid, committed = before ++ .walk 0 .look :: after ∧ Machine.run step start before = some mid ∧
      20000 ≤ mid.now + REVIEW_HOLD ∧
      ((s.step (.walk 0 .wake)).isSome = true ∨ (∃ k, s.calls k = .notifying) ∨
        ∃ who id, leases before id = some 20000 ∧ s.hand who = some id) := by
  have ends : (Machine.run step start committed).any (fun s => decide (s.walks 0 = .asleep 20000 false)) = true := by
    decide +kernel
  obtain ⟨s, ran, facts⟩ := (Option.any_eq_true _ _).mp ends
  exact ⟨s, ran, no_wake_is_lost ran (of_decide_eq_true facts)⟩

end Sample

end Foreground

end Kaspaverse.Chain
