import Kaspaverse.Library.Machine
import Kaspaverse.Transport.Store

namespace Kaspaverse.Transport.Keys

abbrev KeySlot := KeyBranch × Nat

/-- How many addresses of each branch, receive first. -/
abbrev Window := Nat × Nat

/-- A window's slots, the receive branch's first. -/
def slotsOf (window : Window) : List KeySlot :=
  (List.range window.1).map (KeyBranch.receive, ·) ++ (List.range window.2).map (KeyBranch.change, ·)

/-- The hub's watched set and key slots as one replaceable value. -/
structure KeyWindow where
  watched : List String
  slots : List KeySlot
  deriving DecidableEq

def KeyWindow.build (window : Window) (addresses : List String) : KeyWindow := ⟨addresses, slotsOf window⟩

section Derive

-- the wallet's address at a slot
variable (address : KeySlot → String)

def deriveWalletAddresses (window : Window) : List String :=
  (List.range window.1).map (fun index => address (.receive, index)) ++
    (List.range window.2).map fun index => address (.change, index)

theorem derived_at_slots (window : Window) :
    deriveWalletAddresses address window = (slotsOf window).map address := by
  simp [deriveWalletAddresses, slotsOf, Function.comp_def]

end Derive

/-- Where a call to widen is: it holds the hub it found, and once compared, that hub is to be widened. -/
inductive Widening
  | entered (hub : Nat)
  | passed (hub : Nat)
  | derived (hub : Nat) (addresses : List String)
  | returned
  deriving DecidableEq

/-- Where a start of the transport is. -/
inductive Starting
  | began
  | read (window : Window)
  | derived (window : Window) (addresses : List String)
  | ended
  deriving DecidableEq

/-- The hubs installed, the last one the static's; the calls to widen, each with the window it was
    given; and the starts. -/
structure Hubs where
  hubs : List KeyWindow
  calls : List (Window × Widening)
  starts : List Starting
  deriving DecidableEq

inductive Step
  /-- a call to widen begins, and takes the hub there is -/
  | widen (given : Window)
  | compare (call : Nat)
  /-- the vault answers, or is locked -/
  | derive (call : Nat) (unlocked : Bool)
  | publish (call : Nat)
  /-- a start begins; one that finds a hub whose decryptor answers is done -/
  | start (live : Bool)
  | readWindow (start : Nat) (window : Window)
  | deriveStart (start : Nat) (unlocked : Bool)
  | install (start : Nat)
  deriving DecidableEq

namespace Hubs

def empty : Hubs := ⟨[], [], []⟩

/-- The hub's window. -/
def current (s : Hubs) : Option KeyWindow := s.hubs.getLast?

def setCall (s : Hubs) (call : Nat) (given : Window) (stage : Widening) : Hubs :=
  { s with calls := s.calls.set call (given, stage) }

def setStart (s : Hubs) (start : Nat) (stage : Starting) : Hubs :=
  { s with starts := s.starts.set start stage }

variable (address : KeySlot → String)

def step (s : Hubs) : Step → Option Hubs
  | .widen given =>
    let stage := match s.hubs with
      | [] => .returned
      | _ :: _ => .entered (s.hubs.length - 1)
    some { s with calls := s.calls ++ [(given, stage)] }
  | .compare call =>
    match s.calls[call]? with
    | some (given, .entered hub) =>
      match s.hubs[hub]? with
      | some keys =>
        if given.1 + given.2 ≤ keys.slots.length then some (s.setCall call given .returned)
        else some (s.setCall call given (.passed hub))
      | none => none
    | _ => none
  | .derive call unlocked =>
    match s.calls[call]? with
    | some (given, .passed hub) =>
      if unlocked then some (s.setCall call given (.derived hub (deriveWalletAddresses address given)))
      else some (s.setCall call given .returned)
    | _ => none
  | .publish call =>
    match s.calls[call]? with
    | some (given, .derived hub addresses) =>
      some { s.setCall call given .returned with hubs := s.hubs.set hub (.build given addresses) }
    | _ => none
  | .start live =>
    some { s with starts := s.starts ++ [if live && !s.hubs.isEmpty then .ended else .began] }
  | .readWindow start window =>
    match s.starts[start]? with
    | some .began => some (s.setStart start (.read window))
    | _ => none
  | .deriveStart start unlocked =>
    match s.starts[start]? with
    | some (.read window) =>
      if unlocked then some (s.setStart start (.derived window (deriveWalletAddresses address window)))
      else some (s.setStart start .ended)
    | _ => none
  | .install start =>
    match s.starts[start]? with
    | some (.derived window addresses) =>
      some { s.setStart start .ended with hubs := s.hubs ++ [.build window addresses] }
    | _ => none

/-- The current hub has every slot of the window. -/
def covers (s : Hubs) (window : Window) : Bool :=
  s.current.all fun keys => (slotsOf window).all fun slot => decide (slot ∈ keys.slots)

/-- The window has every slot of the current hub. -/
def within (s : Hubs) (window : Window) : Bool :=
  s.current.all fun keys => keys.slots.all fun slot => decide (slot ∈ slotsOf window)

/-- What keeps every slot: a call that returns on the total was given no slot the hub lacks; one that
    publishes finds the hub it took still current and narrower on both branches; a vault answers; and
    a start installs a window read since the hub's own and since the windows of the calls returned. -/
def orderly (s : Hubs) : Step → Bool
  | .widen _ | .start _ | .readWindow .. | .deriveStart .. => true
  | .compare call =>
    match s.calls[call]? with
    | some (given, .entered hub) =>
      match s.hubs[hub]? with
      | some keys => decide (keys.slots.length < given.1 + given.2) || s.covers given
      | none => true
    | _ => true
  | .derive call unlocked =>
    match s.calls[call]? with
    | some (given, .passed _) => unlocked || s.covers given
    | _ => true
  | .publish call =>
    match s.calls[call]? with
    | some (given, .derived hub _) =>
      if hub + 1 = s.hubs.length then s.within given else s.covers given
    | _ => true
  | .install start =>
    match s.starts[start]? with
    | some (.derived window _) =>
      s.within window && s.calls.all fun call =>
        decide (call.2 ≠ .returned) || (slotsOf call.1).all fun slot => decide (slot ∈ slotsOf window)
    | _ => true

/-- What one hub's slots and addresses are, in every state reached. -/
structure Built (s : Hubs) : Prop where
  hubs : ∀ keys ∈ s.hubs, ∃ window, keys = .build window (deriveWalletAddresses address window)
  calls : ∀ given hub addresses, (given, .derived hub addresses) ∈ s.calls →
    addresses = deriveWalletAddresses address given
  starts : ∀ window addresses, .derived window addresses ∈ s.starts →
    addresses = deriveWalletAddresses address window

variable {address} {s next : Hubs}

theorem built_empty : Built address empty :=
  ⟨(fun _ none => nomatch none), (fun _ _ _ none => nomatch none), fun _ _ none => nomatch none⟩

theorem Built.setCall (built : Built address s) (call : Nat) {given : Window} {stage : Widening}
    (own : ∀ hub addresses, stage = .derived hub addresses →
      addresses = deriveWalletAddresses address given) : Built address (s.setCall call given stage) := by
  refine ⟨built.hubs, ?_, built.starts⟩
  intro window hub addresses member
  rcases List.mem_or_eq_of_mem_set member with before | moved
  · exact built.calls window hub addresses before
  · cases moved
    exact own hub addresses rfl

theorem Built.setStart (built : Built address s) (start : Nat) {stage : Starting}
    (own : ∀ window addresses, stage = .derived window addresses →
      addresses = deriveWalletAddresses address window) : Built address (s.setStart start stage) := by
  refine ⟨built.hubs, built.calls, ?_⟩
  intro window addresses member
  rcases List.mem_or_eq_of_mem_set member with before | moved
  · exact built.starts window addresses before
  · exact own window addresses moved.symm

theorem built_step (s : Hubs) (event : Step) (next : Hubs) (built : Built address s)
    (happens : s.step address event = some next) : Built address next := by
  cases event with
  | widen given =>
    cases happens
    refine ⟨built.hubs, ?_, built.starts⟩
    intro window hub addresses member
    rcases List.mem_append.mp member with before | new
    · exact built.calls window hub addresses before
    · have same := (Prod.mk.inj (List.mem_singleton.mp new)).2
      split at same <;> cases same
  | compare call =>
    simp only [step] at happens
    split at happens
    case h_2 => cases happens
    case h_1 given hub found =>
      split at happens
      case h_2 => cases happens
      case h_1 keys _ =>
        split at happens
        all_goals
          cases happens
          apply built.setCall
          intro _ _ none
          cases none
  | derive call unlocked =>
    simp only [step] at happens
    split at happens
    case h_2 => cases happens
    case h_1 given hub found =>
      split at happens
      all_goals
        cases happens
        apply built.setCall
        intro hub addresses same
        cases same
      rfl
  | publish call =>
    simp only [step] at happens
    split at happens
    case h_2 => cases happens
    case h_1 given hub addresses found =>
      cases happens
      have moved : Built address (s.setCall call given .returned) :=
        built.setCall call fun _ _ none => nomatch none
      refine ⟨?_, moved.calls, moved.starts⟩
      intro keys member
      rcases List.mem_or_eq_of_mem_set member with before | published
      · exact built.hubs keys before
      · refine ⟨given, ?_⟩
        rw [published, built.calls given hub addresses (List.mem_of_getElem? found)]
  | start live =>
    cases happens
    refine ⟨built.hubs, built.calls, ?_⟩
    intro window addresses member
    rcases List.mem_append.mp member with before | new
    · exact built.starts window addresses before
    · have same := List.mem_singleton.mp new
      split at same <;> cases same
  | readWindow start window =>
    simp only [step] at happens
    split at happens
    case h_2 => cases happens
    case h_1 =>
      cases happens
      apply built.setStart
      intro _ _ none
      cases none
  | deriveStart start unlocked =>
    simp only [step] at happens
    split at happens
    case h_2 => cases happens
    case h_1 window found =>
      split at happens
      all_goals
        cases happens
        apply built.setStart
        intro window addresses same
        cases same
      rfl
  | install start =>
    simp only [step] at happens
    split at happens
    case h_2 => cases happens
    case h_1 window addresses found =>
      cases happens
      have moved : Built address (s.setStart start .ended) :=
        built.setStart start fun _ _ none => nomatch none
      refine ⟨?_, moved.calls, moved.starts⟩
      intro keys member
      rcases List.mem_append.mp member with before | installed
      · exact built.hubs keys before
      · refine ⟨window, ?_⟩
        rw [List.mem_singleton.mp installed,
          built.starts window addresses (List.mem_of_getElem? found)]

theorem covers_iff {window : Window} : s.covers window = true ↔
    ∀ keys, s.current = some keys → ∀ slot ∈ slotsOf window, slot ∈ keys.slots := by
  simp only [covers, Option.all_eq_true, List.all_eq_true, decide_eq_true_eq]

theorem within_iff {window : Window} : s.within window = true ↔
    ∀ keys, s.current = some keys → ∀ slot ∈ keys.slots, slot ∈ slotsOf window := by
  simp only [within, Option.all_eq_true, List.all_eq_true, decide_eq_true_eq]

/-- The hub's window has every slot it had. -/
def Grows (s next : Hubs) : Prop :=
  ∀ keys, s.current = some keys → ∃ later, next.current = some later ∧
    ∀ slot ∈ keys.slots, slot ∈ later.slots

theorem Grows.refl (s : Hubs) : Grows s s := fun keys held => ⟨keys, held, fun _ slot => slot⟩

theorem Grows.trans {final : Hubs} (first : Grows s next) (second : Grows next final) :
    Grows s final := by
  intro keys held
  obtain ⟨mid, atMid, one⟩ := first keys held
  obtain ⟨last, atLast, two⟩ := second mid atMid
  exact ⟨last, atLast, fun slot member => two slot (one slot member)⟩

theorem Grows.of_hubs (same : next.hubs = s.hubs) : Grows s next := by
  intro keys held
  refine ⟨keys, ?_, fun _ slot => slot⟩
  rw [current, same]
  exact held

/-- Every call that returned has its window in the hub's. -/
def Answered (s : Hubs) : Prop := ∀ given, (given, .returned) ∈ s.calls → s.covers given = true

theorem Answered.setCall (answered : Answered s) (call : Nat) {given : Window} {stage : Widening}
    (own : stage = .returned → s.covers given = true) : Answered (s.setCall call given stage) := by
  intro window member
  rcases List.mem_or_eq_of_mem_set member with before | moved
  · exact answered window before
  · cases moved
    exact own rfl

theorem covers_of_grows {window : Window} (grows : Grows s next) (some_ : s.hubs ≠ [])
    (covered : s.covers window = true) : next.covers window = true := by
  obtain ⟨keys, held⟩ : ∃ keys, s.current = some keys := ⟨_, List.getLast?_eq_some_getLast some_⟩
  obtain ⟨later, atLater, kept⟩ := grows keys held
  apply covers_iff.mpr
  intro other found slot member
  rw [atLater] at found
  cases found
  exact kept slot (covers_iff.mp covered keys held slot member)

theorem getLast?_set {α : Type*} (list : List α) (i : Nat) (a : α) :
    (list.set i a).getLast? = if i + 1 = list.length then some a else list.getLast? := by
  rw [List.getLast?_eq_getElem?, List.getLast?_eq_getElem?, List.length_set, List.getElem?_set]
  by_cases last : i + 1 = list.length
  · have index : i = list.length - 1 := by omega
    have inside : i < list.length := by omega
    rw [if_pos last, if_pos index, if_pos inside]
  · rw [if_neg last]
    split
    case isTrue same =>
      have empty : list = [] := List.eq_nil_of_length_eq_zero (by omega)
      subst empty
      rfl
    case isFalse => rfl

theorem answered_empty : Answered empty := by
  intro given none
  cases none

/-- A window at least as wide on both branches is published over the current hub, or an old hub's is. -/
theorem published_keeps {call hub : Nat} {given : Window} (answered : Answered s)
    (fits : (if hub + 1 = s.hubs.length then s.within given else s.covers given) = true)
    (addresses : List String) :
    let next := { s.setCall call given .returned with hubs := s.hubs.set hub (.build given addresses) }
    Grows s next ∧ Answered next := by
  intro next
  have now : next.current = if hub + 1 = s.hubs.length then some (.build given addresses) else s.current :=
    getLast?_set s.hubs hub _
  have grows : Grows s next := by
    intro keys held
    rw [now]
    split
    case isTrue last =>
      rw [if_pos last] at fits
      exact ⟨.build given addresses, rfl, within_iff.mp fits keys held⟩
    case isFalse => exact ⟨keys, held, fun _ slot => slot⟩
  refine ⟨grows, ?_⟩
  have covered : next.covers given = true := by
    apply covers_iff.mpr
    intro keys held slot member
    rw [now] at held
    split at held
    case isTrue =>
      cases held
      exact member
    case isFalse stale =>
      rw [if_neg stale] at fits
      exact covers_iff.mp fits keys held slot member
  intro window member
  rcases List.mem_or_eq_of_mem_set member with before | moved
  · by_cases some_ : s.hubs = []
    · apply covers_iff.mpr
      intro keys held
      rw [now, current, some_] at held
      simp at held
    · exact covers_of_grows grows some_ (answered window before)
  · cases moved
    exact covered

theorem orderly_step {event : Step} (answered : Answered s) (fits : s.orderly event = true)
    (happens : s.step address event = some next) : Grows s next ∧ Answered next := by
  cases event with
  | widen given =>
    cases happens
    refine ⟨Grows.of_hubs rfl, ?_⟩
    intro window member
    rcases List.mem_append.mp member with before | new
    · exact answered window before
    · have same := (Prod.mk.inj (List.mem_singleton.mp new)).2
      split at same
      case h_1 none =>
        apply covers_iff.mpr
        intro keys held
        change s.hubs.getLast? = some keys at held
        rw [none] at held
        cases held
      case h_2 => cases same
  | compare call =>
    simp only [step] at happens
    simp only [orderly] at fits
    split at happens
    case h_2 => cases happens
    case h_1 given hub found =>
      simp only [found] at fits
      split at happens
      case h_2 => cases happens
      case h_1 keys held =>
        simp only [held, Bool.or_eq_true, decide_eq_true_eq] at fits
        split at happens
        case isTrue returns =>
          cases happens
          refine ⟨Grows.of_hubs rfl, answered.setCall call fun _ => ?_⟩
          rcases fits with wider | covered
          · omega
          · exact covered
        case isFalse =>
          cases happens
          exact ⟨Grows.of_hubs rfl, answered.setCall call fun none => nomatch none⟩
  | derive call unlocked =>
    simp only [step] at happens
    simp only [orderly] at fits
    split at happens
    case h_2 => cases happens
    case h_1 given hub found =>
      simp only [found, Bool.or_eq_true] at fits
      split at happens
      case isTrue =>
        cases happens
        exact ⟨Grows.of_hubs rfl, answered.setCall call fun none => nomatch none⟩
      case isFalse locked =>
        cases happens
        exact ⟨Grows.of_hubs rfl, answered.setCall call fun _ => fits.resolve_left locked⟩
  | publish call =>
    simp only [step] at happens
    simp only [orderly] at fits
    split at happens
    case h_2 => cases happens
    case h_1 given hub addresses found =>
      simp only [found] at fits
      cases happens
      apply published_keeps answered
      rw [← fits]
  | start live =>
    cases happens
    exact ⟨Grows.of_hubs rfl, answered⟩
  | readWindow start window =>
    simp only [step] at happens
    split at happens
    case h_2 => cases happens
    case h_1 =>
      cases happens
      exact ⟨Grows.of_hubs rfl, answered⟩
  | deriveStart start unlocked =>
    simp only [step] at happens
    split at happens
    case h_2 => cases happens
    case h_1 window found =>
      split at happens
      all_goals
        cases happens
        exact ⟨Grows.of_hubs rfl, answered⟩
  | install start =>
    simp only [step] at happens
    simp only [orderly] at fits
    split at happens
    case h_2 => cases happens
    case h_1 window addresses found =>
      simp only [found, Bool.and_eq_true, List.all_eq_true, Bool.or_eq_true, decide_eq_true_eq] at fits
      cases happens
      have now : (s.hubs ++ [KeyWindow.build window addresses]).getLast? =
          some (.build window addresses) := List.getLast?_concat
      refine ⟨?_, ?_⟩
      · intro keys held
        exact ⟨.build window addresses, now, within_iff.mp fits.1 keys held⟩
      · intro given member
        apply covers_iff.mpr
        intro keys held slot inside
        change (s.hubs ++ [_]).getLast? = _ at held
        rw [now] at held
        cases held
        rcases fits.2 (given, .returned) member with busy | narrower
        · exact absurd rfl busy
        · exact narrower slot inside

theorem orderly_run {final : Hubs} {events : List Step} (answered : Answered s)
    (meets : Machine.Meets (step address) (fun s event => s.orderly event = true) s events)
    (ran : Machine.run (step address) s events = some final) : Grows s final ∧ Answered final := by
  induction events generalizing s with
  | nil =>
    cases ran
    exact ⟨Grows.refl _, answered⟩
  | cons event events ih =>
    obtain ⟨next, happens, later⟩ := Machine.run_cons_some ran
    obtain ⟨grows, kept⟩ := orderly_step answered meets.1 happens
    obtain ⟨onward, last⟩ := ih kept (meets.2 next happens) later
    exact ⟨grows.trans onward, last⟩

theorem watched_at_slots {events : List Step} (ran : Machine.run (step address) empty events = some s)
    {keys : KeyWindow} (held : keys ∈ s.hubs) : keys.watched = keys.slots.map address := by
  have built : Built address s := Machine.run_invariant built_step built_empty ran
  obtain ⟨window, rfl⟩ := built.hubs keys held
  exact derived_at_slots address window

def slotText (slot : KeySlot) : String := (if slot.1 = .receive then "r" else "c") ++ toString slot.2

/-- A start that reads its window before a widening finds no hub yet. -/
def earlyWidening : List Step :=
  [.start false, .readWindow 0 (2, 1), .widen (3, 1), .deriveStart 0 true, .install 0]

/-- A call that widens the window a start installed. -/
def lateWidening : List Step :=
  [.start false, .readWindow 0 (2, 1), .deriveStart 0 true, .install 0, .widen (3, 1), .compare 0,
    .derive 0 true, .publish 0]

end Hubs

end Kaspaverse.Transport.Keys
