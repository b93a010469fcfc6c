import Mathlib
import Kaspaverse.Transport.Pending

namespace Kaspaverse.Transport

variable {π : Type}

/-- The nonce of the plan a commit has taken. -/
def Committing.holding : Committing π → Option Nat
  | .took nonce _ _ | .sending nonce _ _ _ => some nonce
  | _ => none

def Committing.isTook : Committing π → Bool
  | .took _ _ _ => true
  | _ => false

/-- What a commit has read so far is what its nonce was prepared as. -/
def Committing.Faithful (prepared : KeyMap Nat (π × TransportIntent)) (slot : Option (Nat × TransportIntent)) :
    Committing π → Prop
  | .checking nonce target => ∃ plan intent, prepared.lookup nonce = some (plan, intent) ∧
      intent.target = some target
  | .refusing _ => True
  | .ready nonce checked seen =>
    if seen then ∃ plan intent, prepared.lookup nonce = some (plan, intent) ∧ intent.target = checked
    else checked = none
  | .took nonce plan checked => ∃ intent, prepared.lookup nonce = some (plan, intent) ∧
      slot = some (nonce, intent) ∧ intent.target = checked
  | .sending nonce plan checked intent => ∃ folded, prepared.lookup nonce = some (plan, folded) ∧
      intent = some folded ∧ folded.target = checked

namespace Pending

variable {s next : Pending π} {event : Event π}

/-- The plan of this nonce has been taken. -/
def Spent (s : Pending π) (nonce : Nat) : Prop :=
  (∃ id call, s.commits.lookup id = some call ∧ call.holding = some nonce) ∨
    nonce ∈ s.broadcasts.map Broadcast.nonce

/-- A commit has taken its plan and not its intent yet. -/
def betweenTakes (s : Pending π) : Bool := s.commits.values.any Committing.isTook

/-- A commit finds its own intent stored beside the plan it takes, and an Accept's did so when it
    read the invitation; between its two takes nobody stores or clears an intent. -/
def paired (s : Pending π) : Event π → Bool
  | .takePlan id =>
    match s.commits.lookup id with
    | some (.ready nonce _ seen) =>
      !(s.plan.any fun slot => slot.1 = nonce) ||
        s.intent.any fun slot => decide (slot.1 = nonce) && (slot.2.target.isNone || seen)
    | _ => true
  | .storeIntent _ | .abandonIntent => !s.betweenTakes
  | _ => true

/-- What carries the run: a plan is in one place, and a commit that has taken it has what its
    nonce was prepared as. -/
structure Folds (s : Pending π) : Prop where
  issued : ∀ nonce content, s.prepared.lookup nonce = some content → nonce < s.nonce
  plan : ∀ nonce plan, s.plan = some (nonce, plan) →
    (∃ intent, s.prepared.lookup nonce = some (plan, intent)) ∧ nonce ∉ s.prepares ∧ ¬ s.Spent nonce
  intent : ∀ nonce intent, s.intent = some (nonce, intent) →
    ∃ plan, s.prepared.lookup nonce = some (plan, intent)
  prepares : ∀ nonce preparing, s.prepares.lookup nonce = some preparing →
    s.prepared.lookup nonce = some (preparing.plan, preparing.intent) ∧ ¬ s.Spent nonce
  apart : ∀ id other call call' nonce, s.commits.lookup id = some call → s.commits.lookup other = some call' →
    call.holding = some nonce → call'.holding = some nonce → id = other
  unsent : ∀ id call nonce, s.commits.lookup id = some call → call.holding = some nonce →
    nonce ∉ s.broadcasts.map Broadcast.nonce
  once : (s.broadcasts.map Broadcast.nonce).Nodup
  commits : ∀ id call, s.commits.lookup id = some call → call.Faithful s.prepared s.intent
  broadcasts : ∀ b ∈ s.broadcasts, ∃ intent, s.prepared.lookup b.nonce = some (b.plan, intent) ∧
    b.intent = some intent ∧ b.checked = intent.target

theorem folds_launch : (launch : Pending π).Folds where
  issued := fun _ _ found => nomatch found
  plan := fun _ _ found => nomatch found
  intent := fun _ _ found => nomatch found
  prepares := fun _ _ found => nomatch found
  apart := fun _ _ _ _ _ found => nomatch found
  unsent := fun _ _ _ found => nomatch found
  once := List.nodup_nil
  commits := fun _ _ found => nomatch found
  broadcasts := fun _ member => nomatch member

theorem Faithful.holding {prepared : KeyMap Nat (π × TransportIntent)} {slot : Option (Nat × TransportIntent)}
    {call : Committing π} {nonce : Nat} (faithful : call.Faithful prepared slot)
    (holds : call.holding = some nonce) : ∃ content, prepared.lookup nonce = some content := by
  cases call with
  | took held plan checked =>
    cases holds
    obtain ⟨intent, found, _⟩ := faithful
    exact ⟨_, found⟩
  | sending held plan checked intent =>
    cases holds
    obtain ⟨folded, found, _⟩ := faithful
    exact ⟨_, found⟩
  | checking _ _ => cases holds
  | refusing _ => cases holds
  | ready _ _ _ => cases holds

/-- A call that has not taken its plan, or has its intent too, does not look at the slot any more. -/
theorem Faithful.frame {prepared later : KeyMap Nat (π × TransportIntent)}
    {slot after : Option (Nat × TransportIntent)} {call : Committing π} (faithful : call.Faithful prepared slot)
    (kept : ∀ nonce content, prepared.lookup nonce = some content → later.lookup nonce = some content)
    (same : call.isTook = true → after = slot) : call.Faithful later after := by
  cases call with
  | checking nonce target =>
    obtain ⟨plan, intent, found, held⟩ := faithful
    exact ⟨plan, intent, kept _ _ found, held⟩
  | refusing nonce => exact True.intro
  | ready nonce checked seen =>
    cases seen with
    | false => exact faithful
    | true =>
      obtain ⟨plan, intent, found, held⟩ := faithful
      exact ⟨plan, intent, kept _ _ found, held⟩
  | took nonce plan checked =>
    obtain ⟨intent, found, stored, held⟩ := faithful
    exact ⟨intent, kept _ _ found, (same rfl).trans stored, held⟩
  | sending nonce plan checked intent =>
    obtain ⟨folded, found, taken, held⟩ := faithful
    exact ⟨folded, kept _ _ found, taken, held⟩

theorem Folds.spent (folds : s.Folds) {nonce : Nat} (spent : s.Spent nonce) :
    ∃ content, s.prepared.lookup nonce = some content := by
  rcases spent with ⟨id, call, found, holds⟩ | member
  · exact Faithful.holding (folds.commits id call found) holds
  · obtain ⟨b, sent, rfl⟩ := List.mem_map.mp member
    obtain ⟨intent, found, _⟩ := folds.broadcasts b sent
    exact ⟨_, found⟩

theorem not_took (open_ : s.betweenTakes = false) {id : Nat} {call : Committing π}
    (found : s.commits.lookup id = some call) : call.isTook = false := by
  have none := List.any_eq_false.mp open_ call (KeyMap.mem_values_iff.mpr ⟨id, found⟩)
  exact Bool.eq_false_iff.mpr none

section Steps

/-- A step that prepares, stores and broadcasts nothing. -/
theorem Folds.quiet (folds : s.Folds) (nonce : s.nonce ≤ next.nonce) (prepared : next.prepared = s.prepared)
    (prepares : next.prepares = s.prepares) (broadcasts : next.broadcasts = s.broadcasts)
    (plan : ∀ slot, next.plan = some slot → s.plan = some slot)
    (intent : ∀ slot, next.intent = some slot → s.intent = some slot)
    (commits : ∀ id call, next.commits.lookup id = some call → call.Faithful s.prepared next.intent ∧
      ∀ nonce, call.holding = some nonce → ∃ before, s.commits.lookup id = some before ∧
        before.holding = some nonce) : next.Folds := by
  have unspent : ∀ nonce, ¬ s.Spent nonce → ¬ next.Spent nonce := by
    rintro nonce free (⟨id, call, found, holds⟩ | sent)
    · obtain ⟨before, at_, held⟩ := (commits id call found).2 nonce holds
      exact free (.inl ⟨id, before, at_, held⟩)
    · exact free (.inr (broadcasts ▸ sent))
  refine ⟨?_, ?_, ?_, ?_, ?_, ?_, broadcasts ▸ folds.once, ?_, ?_⟩
  · rw [prepared]
    exact fun nonce' content found => Nat.lt_of_lt_of_le (folds.issued nonce' content found) nonce
  · intro nonce held found
    obtain ⟨known, stored, free⟩ := folds.plan nonce held (plan _ found)
    rw [prepared, prepares]
    exact ⟨known, stored, unspent nonce free⟩
  · intro nonce held found
    rw [prepared]
    exact folds.intent nonce held (intent _ found)
  · intro nonce preparing found
    rw [prepares] at found
    rw [prepared]
    obtain ⟨known, free⟩ := folds.prepares nonce preparing found
    exact ⟨known, unspent nonce free⟩
  · intro id other call call' nonce found found' holds holds'
    obtain ⟨before, at_, held⟩ := (commits id call found).2 nonce holds
    obtain ⟨before', at', held'⟩ := (commits other call' found').2 nonce holds'
    exact folds.apart id other before before' nonce at_ at' held held'
  · intro id call nonce found holds
    obtain ⟨before, at_, held⟩ := (commits id call found).2 nonce holds
    rw [broadcasts]
    exact folds.unsent id before nonce at_ held
  · intro id call found
    rw [prepared]
    exact (commits id call found).1
  · rw [prepared, broadcasts]
    exact folds.broadcasts

theorem Folds.stay (folds : s.Folds) (slot : next.commits = s.commits)
    (same : ∀ id call, s.commits.lookup id = some call → call.isTook = true → next.intent = s.intent) :
    ∀ id call, next.commits.lookup id = some call → call.Faithful s.prepared next.intent ∧
      ∀ nonce, call.holding = some nonce → ∃ before, s.commits.lookup id = some before ∧
        before.holding = some nonce := by
  intro id call found
  rw [slot] at found
  exact ⟨Faithful.frame (folds.commits id call found) (fun _ _ held => held) (same id call found),
    fun nonce holds => ⟨call, found, holds⟩⟩

/-- One call moves on, without a plan it did not have. -/
theorem Folds.moves (folds : s.Folds) {id : Nat} {call : Committing π}
    (slot : next.commits = s.commits.insert id call) (faithful : call.Faithful s.prepared next.intent)
    (holds : ∀ nonce, call.holding = some nonce → ∃ before, s.commits.lookup id = some before ∧
      before.holding = some nonce)
    (same : ∀ other before, s.commits.lookup other = some before → other ≠ id → before.isTook = true →
      next.intent = s.intent) :
    ∀ id call, next.commits.lookup id = some call → call.Faithful s.prepared next.intent ∧
      ∀ nonce, call.holding = some nonce → ∃ before, s.commits.lookup id = some before ∧
        before.holding = some nonce := by
  intro other before found
  rw [slot] at found
  rcases KeyMap.lookup_insert_some.mp found with ⟨rfl, rfl⟩ | ⟨apart, at_⟩
  · exact ⟨faithful, holds⟩
  · exact ⟨Faithful.frame (folds.commits other before at_) (fun _ _ held => held) (same other before at_ apart),
      fun nonce held => ⟨before, at_, held⟩⟩

theorem Folds.ends (folds : s.Folds) {id : Nat} (slot : next.commits = s.commits.erase id)
    (intent : next.intent = s.intent) :
    ∀ id call, next.commits.lookup id = some call → call.Faithful s.prepared next.intent ∧
      ∀ nonce, call.holding = some nonce → ∃ before, s.commits.lookup id = some before ∧
        before.holding = some nonce := by
  intro other call found
  rw [slot] at found
  have at_ := (KeyMap.lookup_erase_some.mp found).2
  exact ⟨Faithful.frame (folds.commits other call at_) (fun _ _ held => held) fun _ => intent,
    fun nonce holds => ⟨call, at_, holds⟩⟩

theorem Folds.allot (folds : s.Folds) (plan : π) (intent : TransportIntent)
    (happens : s.step (.allot plan intent) = some next) : next.Folds := by
  cases happens
  have old : ∀ nonce content, s.prepared.lookup nonce = some content → nonce ≠ s.nonce :=
    fun nonce content found => Nat.ne_of_lt (folds.issued nonce content found)
  have kept : ∀ nonce content, s.prepared.lookup nonce = some content →
      (s.prepared.insert s.nonce (plan, intent)).lookup nonce = some content :=
    fun nonce content found => (AList.lookup_insert_ne (old nonce content found)).trans found
  refine ⟨?_, ?_, ?_, ?_, folds.apart, folds.unsent, folds.once, ?_, ?_⟩
  · intro nonce content found
    rcases KeyMap.lookup_insert_some.mp found with ⟨rfl, _⟩ | ⟨_, before⟩
    · exact Nat.lt_succ_self _
    · exact Nat.lt_succ_of_lt (folds.issued nonce content before)
  · intro nonce held found
    obtain ⟨⟨known, at_⟩, stored, free⟩ := folds.plan nonce held found
    refine ⟨⟨known, kept _ _ at_⟩, ?_, free⟩
    rw [AList.mem_insert, not_or]
    exact ⟨old _ _ at_, stored⟩
  · intro nonce held found
    obtain ⟨known, at_⟩ := folds.intent nonce held found
    exact ⟨known, kept _ _ at_⟩
  · intro nonce preparing found
    rcases KeyMap.lookup_insert_some.mp found with ⟨rfl, rfl⟩ | ⟨_, before⟩
    · refine ⟨AList.lookup_insert _, ?_⟩
      intro spent
      obtain ⟨content, at_⟩ := folds.spent spent
      exact old _ content at_ rfl
    · obtain ⟨at_, free⟩ := folds.prepares nonce preparing before
      exact ⟨kept _ _ at_, free⟩
  · exact fun id call found => Faithful.frame (folds.commits id call found) kept fun _ => rfl
  · intro b member
    obtain ⟨held, at_, rest⟩ := folds.broadcasts b member
    exact ⟨held, kept _ _ at_, rest⟩

theorem Folds.storeIntent (folds : s.Folds) {nonce : Nat} (open_ : s.betweenTakes = false)
    (happens : s.step (.storeIntent nonce) = some next) : next.Folds := by
  unfold step at happens
  simp only at happens
  split at happens
  next plan intent preparing =>
    cases happens
    obtain ⟨known, free⟩ := folds.prepares nonce _ preparing
    refine ⟨folds.issued, ?_, ?_, ?_, folds.apart, folds.unsent, folds.once, ?_, folds.broadcasts⟩
    · intro other held found
      obtain ⟨at_, stored, unspent⟩ := folds.plan other held found
      refine ⟨at_, ?_, unspent⟩
      rw [AList.mem_insert, not_or]
      exact ⟨fun same => stored (same ▸ KeyMap.mem_of_lookup preparing), stored⟩
    · intro other held found
      cases found
      exact ⟨plan, known⟩
    · intro other held found
      rcases KeyMap.lookup_insert_some.mp found with ⟨rfl, rfl⟩ | ⟨_, before⟩
      · exact ⟨known, free⟩
      · exact folds.prepares other held before
    · intro id call found
      apply Faithful.frame (folds.commits id call found) fun _ _ held => held
      intro took
      rw [not_took open_ found] at took
      cases took
  · cases happens

theorem Folds.storePlan (folds : s.Folds) {nonce : Nat} (happens : s.step (.storePlan nonce) = some next) :
    next.Folds := by
  unfold step at happens
  simp only at happens
  split at happens
  next plan intent preparing =>
    cases happens
    obtain ⟨known, free⟩ := folds.prepares nonce _ preparing
    refine ⟨folds.issued, ?_, folds.intent, ?_, folds.apart, folds.unsent, folds.once, folds.commits,
      folds.broadcasts⟩
    · intro other held found
      cases found
      exact ⟨⟨intent, known⟩, fun member => (AList.mem_erase.mp member).1 rfl, free⟩
    · exact fun other held found => folds.prepares other held (KeyMap.lookup_erase_some.mp found).2
  · cases happens

theorem pendingAcceptTarget_some {slot : Option (Nat × TransportIntent)} {nonce : Nat} {target : String}
    (reads : pendingAcceptTarget slot nonce = some target) :
    ∃ intent, slot = some (nonce, intent) ∧ intent.target = some target := by
  unfold pendingAcceptTarget at reads
  split at reads
  next stored conversationId contactAddress myAlias reseal timestampMs =>
    split at reads
    next same =>
      cases reads
      exact ⟨_, by rw [same], rfl⟩
    · cases reads
  · cases reads

theorem pendingAcceptTarget_none {slot : Option (Nat × TransportIntent)} {nonce : Nat} {intent : TransportIntent}
    (reads : pendingAcceptTarget slot nonce = none) (held : slot = some (nonce, intent)) :
    intent.target = none := by
  subst held
  cases intent with
  | accept conversationId contactAddress myAlias reseal timestampMs =>
    rw [pendingAcceptTarget, if_pos rfl] at reads
    cases reads
  | _ => rfl

theorem Folds.commit (folds : s.Folds) {id nonce : Nat} (happens : s.step (.commit id nonce) = some next) :
    next.Folds := by
  unfold step at happens
  simp only at happens
  split at happens
  · cases happens
  · cases happens
    refine folds.quiet (Nat.le_refl _) rfl rfl rfl (fun _ same => same) (fun _ same => same)
      (folds.moves rfl ?_ ?_ fun _ _ _ _ _ => rfl)
    · split
      next target reads =>
        obtain ⟨intent, held, aims⟩ := pendingAcceptTarget_some reads
        obtain ⟨plan, known⟩ := folds.intent _ _ held
        exact ⟨plan, intent, known, aims⟩
      next reads =>
        change if (s.intent.any fun slot => decide (slot.1 = nonce)) = true then _ else _
        split
        next seen =>
          obtain ⟨⟨held, intent⟩, stored, same⟩ := (Option.any_eq_true _ _).mp seen
          obtain rfl : held = nonce := of_decide_eq_true same
          obtain ⟨plan, known⟩ := folds.intent _ _ stored
          exact ⟨plan, intent, known, pendingAcceptTarget_none reads stored⟩
        · rfl
    · intro held holds
      split at holds <;> cases holds

theorem Folds.check (folds : s.Folds) {id : Nat} (happens : s.step (.check id) = some next) : next.Folds := by
  unfold step at happens
  simp only at happens
  split at happens
  next nonce target at_ =>
    generalize guardRefuses s.store target = missing at happens
    cases happens
    refine folds.quiet (Nat.le_refl _) rfl rfl rfl (fun _ same => same) (fun _ same => same)
      (folds.moves rfl ?_ ?_ fun _ _ _ _ _ => rfl)
    · cases missing with
      | true => exact True.intro
      | false =>
        obtain ⟨plan, intent, known, aims⟩ := folds.commits id _ at_
        exact ⟨plan, intent, known, aims⟩
    · intro held holds
      cases missing <;> cases holds
  · cases happens

theorem Folds.takePlan (folds : s.Folds) {id : Nat} (fits : s.paired (.takePlan id) = true)
    (happens : s.step (.takePlan id) = some next) : next.Folds := by
  unfold step at happens
  simp only at happens
  split at happens
  next nonce checked seen at_ =>
    split at happens
    next plan stash takes =>
      cases happens
      obtain ⟨held, rfl⟩ := takeStashed_ok takes
      obtain ⟨⟨known, found⟩, unstored, free⟩ := folds.plan nonce plan held
      have stored : ∃ intent, s.intent = some (nonce, intent) ∧ (intent.target = none ∨ seen = true) := by
        simp only [paired, at_, held, Option.any_some, decide_true, Bool.not_true, Bool.false_or] at fits
        obtain ⟨⟨other, intent⟩, slot, both⟩ := (Option.any_eq_true _ _).mp fits
        simp only [Bool.and_eq_true, decide_eq_true_eq, Bool.or_eq_true, Option.isNone_iff_eq_none] at both
        exact ⟨intent, by rw [slot, both.1], both.2⟩
      obtain ⟨intent, slot, covered⟩ := stored
      obtain ⟨plan', prepared⟩ := folds.intent nonce intent slot
      have aims : intent.target = checked := by
        have read := folds.commits id _ at_
        cases seen with
        | true =>
          obtain ⟨_, held', prepared', aims⟩ := read
          rw [prepared] at prepared'
          cases prepared'
          exact aims
        | false =>
          rcases covered with none | early
          · exact none.trans (Eq.symm read)
          · cases early
      rw [found] at prepared
      cases prepared
      have spends : ∀ other, other ≠ nonce → ¬ s.Spent other →
          ¬ Spent { s with plan := none, commits := s.commits.insert id (.took nonce plan checked) } other := by
        rintro other apart unspent (⟨id', call, held, holds⟩ | sent)
        · rcases KeyMap.lookup_insert_some.mp held with ⟨_, rfl⟩ | ⟨_, before⟩
          · cases holds
            exact apart rfl
          · exact unspent (.inl ⟨id', call, before, holds⟩)
        · exact unspent (.inr sent)
      refine ⟨folds.issued, fun _ _ gone => (nomatch gone), folds.intent, ?_, ?_, ?_, folds.once, ?_,
        folds.broadcasts⟩
      · intro other preparing held'
        obtain ⟨at', unspent⟩ := folds.prepares other preparing held'
        refine ⟨at', spends other ?_ unspent⟩
        rintro rfl
        exact unstored (KeyMap.mem_of_lookup held')
      · intro one other call call' shared found' found'' holds holds'
        rcases KeyMap.lookup_insert_some.mp found' with ⟨rfl, rfl⟩ | ⟨_, before⟩
        · rcases KeyMap.lookup_insert_some.mp found'' with ⟨rfl, _⟩ | ⟨_, before'⟩
          · rfl
          · cases holds
            exact absurd (.inl ⟨other, call', before', holds'⟩) free
        · rcases KeyMap.lookup_insert_some.mp found'' with ⟨rfl, rfl⟩ | ⟨_, before'⟩
          · cases holds'
            exact absurd (.inl ⟨one, call, before, holds⟩) free
          · exact folds.apart one other call call' shared before before' holds holds'
      · intro other call shared found' holds
        rcases KeyMap.lookup_insert_some.mp found' with ⟨rfl, rfl⟩ | ⟨_, before⟩
        · cases holds
          exact fun sent => free (.inr sent)
        · exact folds.unsent other call shared before holds
      · intro other call found'
        rcases KeyMap.lookup_insert_some.mp found' with ⟨rfl, rfl⟩ | ⟨_, before⟩
        · exact ⟨known, found, slot, aims⟩
        · exact folds.commits other call before
    next e stash takes =>
      cases happens
      have same := (takeStashed_error takes).1
      exact folds.quiet (Nat.le_refl _) rfl rfl rfl (fun _ held => same ▸ held) (fun _ held => held)
        (folds.ends rfl rfl)
  · cases happens

theorem Folds.takeIntent (folds : s.Folds) {id : Nat} (happens : s.step (.takeIntent id) = some next) :
    next.Folds := by
  unfold step at happens
  simp only at happens
  split at happens
  next nonce plan checked at_ =>
    cases happens
    obtain ⟨intent, known, slot, aims⟩ := folds.commits id _ at_
    have takes : Pending.takeIntent s.intent nonce = (some intent, none) := by
      rw [slot, Pending.takeIntent]
      exact if_pos rfl
    refine folds.quiet (Nat.le_refl _) rfl rfl rfl (fun _ same => same) ?_ (folds.moves rfl ?_ ?_ ?_)
    · intro held found
      simp only [takes] at found
      cases found
    · simp only [takes]
      exact ⟨intent, known, rfl, aims⟩
    · rintro held ⟨⟩
      exact ⟨_, at_, rfl⟩
    · intro other before found apart took
      -- two calls between their takes would hold the one intent that is stored
      cases before with
      | took nonce' plan' checked' =>
        obtain ⟨intent', _, slot', _⟩ := folds.commits other _ found
        rw [slot] at slot'
        cases slot'
        exact absurd (folds.apart other id _ _ nonce found at_ rfl rfl) apart
      | _ => cases took
  · cases happens

theorem Folds.broadcast (folds : s.Folds) {id : Nat} {outcome : SendOutcome}
    (happens : s.step (.broadcast id outcome) = some next) : next.Folds := by
  unfold step at happens
  simp only at happens
  split at happens
  next nonce plan checked intent at_ =>
    cases happens
    obtain ⟨folded, known, rfl, aims⟩ := folds.commits id _ at_
    have spent : s.Spent nonce := .inl ⟨id, _, at_, rfl⟩
    have spends : ∀ other, ¬ s.Spent other → ¬ Spent { s with
        commits := s.commits.erase id
        broadcasts := ⟨nonce, plan, checked, some folded, outcome⟩ :: s.broadcasts } other := by
      rintro other unspent (⟨id', call, held, holds⟩ | sent)
      · exact unspent (.inl ⟨id', call, (KeyMap.lookup_erase_some.mp held).2, holds⟩)
      · rcases List.mem_cons.mp sent with rfl | before
        · exact unspent spent
        · exact unspent (.inr before)
    refine ⟨folds.issued, ?_, folds.intent, ?_, ?_, ?_, ?_, ?_, ?_⟩
    · intro other held found
      obtain ⟨at', stored, free⟩ := folds.plan other held found
      exact ⟨at', stored, spends other free⟩
    · intro other preparing found
      obtain ⟨at', free⟩ := folds.prepares other preparing found
      exact ⟨at', spends other free⟩
    · intro one other call call' shared found found' holds holds'
      exact folds.apart one other call call' shared (KeyMap.lookup_erase_some.mp found).2
        (KeyMap.lookup_erase_some.mp found').2 holds holds'
    · intro other call shared found holds sent
      obtain ⟨apart, before⟩ := KeyMap.lookup_erase_some.mp found
      rcases List.mem_cons.mp sent with rfl | earlier
      · exact apart (folds.apart other id call _ _ before at_ holds rfl)
      · exact folds.unsent other call shared before holds earlier
    · exact List.nodup_cons.mpr ⟨folds.unsent id _ nonce at_ rfl, folds.once⟩
    · exact fun other call found => folds.commits other call (KeyMap.lookup_erase_some.mp found).2
    · intro b member
      rcases List.mem_cons.mp member with rfl | before
      · exact ⟨folded, known, rfl, aims.symm⟩
      · exact folds.broadcasts b before
  · cases happens

theorem step_folds (folds : s.Folds) (fits : s.paired event = true) (happens : s.step event = some next) :
    next.Folds := by
  cases event with
  | payment =>
    cases happens
    exact folds.quiet (Nat.le_succ _) rfl rfl rfl (fun _ same => same) (fun _ same => same)
      (folds.stay rfl fun _ _ _ _ => rfl)
  | allot plan intent => exact folds.allot plan intent happens
  | storeIntent nonce => exact folds.storeIntent (Bool.not_eq_true' _ ▸ fits) happens
  | storePlan nonce => exact folds.storePlan happens
  | abandonPlan =>
    cases happens
    exact folds.quiet (Nat.le_refl _) rfl rfl rfl (fun _ gone => nomatch gone) (fun _ same => same)
      (folds.stay rfl fun _ _ _ _ => rfl)
  | abandonIntent =>
    simp only [step] at happens
    split at happens
    · cases happens
    · cases happens
      refine folds.quiet (Nat.le_refl _) rfl rfl rfl (fun _ same => same) (fun _ gone => nomatch gone)
        (folds.stay rfl ?_)
      intro id call found took
      rw [not_took ((Bool.not_eq_true' _).mp fits) found] at took
      cases took
  | hub store =>
    cases happens
    exact folds.quiet (Nat.le_refl _) rfl rfl rfl (fun _ same => same) (fun _ same => same)
      (folds.stay rfl fun _ _ _ _ => rfl)
  | commit id nonce => exact folds.commit happens
  | check id => exact folds.check happens
  | refuse id =>
    simp only [step] at happens
    split at happens
    · cases happens
      exact folds.quiet (Nat.le_refl _) rfl rfl rfl (fun _ gone => nomatch gone) (fun _ same => same)
        (folds.ends rfl rfl)
    · cases happens
  | takePlan id => exact folds.takePlan fits happens
  | takeIntent id => exact folds.takeIntent happens
  | broadcast id outcome => exact folds.broadcast happens

end Steps

section Runs

/-- What every broadcast so far folded, and what a stale nonce leaves alone. -/
structure FoldedAsPrepared (s : Pending π) : Prop where
  broadcasts : ∀ b ∈ s.broadcasts, ∃ intent, s.prepared.lookup b.nonce = some (b.plan, intent) ∧
    b.intent = some intent ∧ b.checked = intent.target ∧
    ∀ txid, b.outcome.clean = true → b.outcome.finalTxid = some txid → b.applied = some (intent, txid)
  once : (s.broadcasts.map Broadcast.nonce).Nodup
  stale : ∀ id nonce checked seen next, s.commits.lookup id = some (.ready nonce checked seen) →
    (∀ plan, s.plan ≠ some (nonce, plan)) → s.step (.takePlan id) = some next →
      next.plan = s.plan ∧ next.intent = s.intent ∧ id ∉ next.commits

theorem stale_leaves {id nonce : Nat} {checked : Option String} {seen : Bool}
    (ready : s.commits.lookup id = some (.ready nonce checked seen))
    (stale : ∀ plan, s.plan ≠ some (nonce, plan)) (happens : s.step (.takePlan id) = some next) :
    next.plan = s.plan ∧ next.intent = s.intent ∧ id ∉ next.commits := by
  unfold step at happens
  simp only [ready] at happens
  split at happens
  next plan stash takes => exact absurd (takeStashed_ok takes).1 (stale plan)
  next e stash takes =>
    cases happens
    exact ⟨(takeStashed_error takes).1, rfl, fun member => (AList.mem_erase.mp member).1 rfl⟩

/-- Every run of prepares, abandons and commits in which each commit finds its own intent beside the
    plan it takes, and nobody touches the intents between its two takes. -/
theorem committed_plan_folds_as_prepared {events : List (Event π)}
    (meets : Machine.Meets step (fun s event => s.paired event = true) launch events)
    (happens : Machine.run step launch events = some s) : s.FoldedAsPrepared := by
  have folds : s.Folds :=
    Machine.run_invariant_meeting (fun _ _ _ folds fits moved => step_folds folds fits moved) folds_launch
      meets happens
  refine ⟨?_, folds.once, fun _ _ _ _ _ ready stale moved => stale_leaves ready stale moved⟩
  intro b member
  obtain ⟨intent, known, taken, aims⟩ := folds.broadcasts b member
  refine ⟨intent, known, taken, aims, ?_⟩
  intro txid clean final
  rw [Broadcast.applied, clean, taken, final]

section Sample

def sampleRow : ConversationRecord :=
  ⟨"conv", "kaspa:them", "", some "a1", .pendingInbound, false, .receive, 0, 1, 1, none⟩

def sampleAccept : TransportIntent := .accept "conv" "kaspa:them" "b2" [] 9

theorem none_filed {T : Type} (keyOf : T → String) (key : String) (record : T)
    (found : (∅ : KeyMap String T).lookup key = some record) : keyOf record = key := by
  cases found

def sampleStore : TransportStore :=
  ⟨⟨∅, ∅, none_filed ConversationRecord.conversationId⟩, ⟨∅, ∅, none_filed MessageRecord.txid⟩⟩

def sampleHub : Option TransportStore :=
  some { sampleStore with conversations := sampleStore.conversations.insert sampleRow }

def sent : SendOutcome := ⟨some "tx", 1, 1, false, none, false⟩

def commitOf (id nonce : Nat) : List (Event Nat) :=
  [.commit id nonce, .check id, .takePlan id, .takeIntent id, .broadcast id sent]

/-- An Accept is prepared, abandoned for a second one, and that one is committed while the first
    one's commit comes too late. -/
def oneAtATime : List (Event Nat) :=
  [.hub sampleHub, .allot 10 sampleAccept, .storeIntent 1, .storePlan 1, .abandonPlan, .abandonIntent,
    .allot 11 sampleAccept, .storeIntent 2, .storePlan 2, .commit 7 1, .takePlan 7] ++ commitOf 8 2

theorem committed_plan_folds_as_prepared_oneAtATime :
    ∃ s : Pending Nat, Machine.run step launch oneAtATime = some s ∧
      ∃ b ∈ s.broadcasts, b.plan = 11 ∧ b.checked = some "conv" ∧ b.applied = some (sampleAccept, "tx") := by
  have meets : Machine.Meets step (fun s event => s.paired event = true) launch oneAtATime := by
    decide +kernel
  have all : (Machine.run step launch oneAtATime).any (fun s =>
      decide (s.broadcasts.map (fun b => (b.nonce, b.plan, b.outcome)) = [(2, 11, sent)] ∧
        s.prepared.lookup 2 = some (11, sampleAccept))) = true := by
    decide +kernel
  obtain ⟨s, happens, facts⟩ := (Option.any_eq_true _ _).mp all
  obtain ⟨listed, prepared⟩ := of_decide_eq_true facts
  obtain ⟨b, sends⟩ : ∃ b, s.broadcasts = [b] := by
    have one := congrArg List.length listed
    rw [List.length_map] at one
    exact List.length_eq_one_iff.mp one
  rw [sends] at listed
  cases b with
  | mk nonce plan checked intent outcome =>
    cases listed
    obtain ⟨folded, known, _, aims, applied⟩ :=
      (committed_plan_folds_as_prepared meets happens).broadcasts _ (by rw [sends]; exact List.mem_cons_self)
    rw [prepared] at known
    cases known
    exact ⟨s, happens, _, by rw [sends]; exact List.mem_cons_self, rfl, aims, applied "tx" rfl rfl⟩

/-- Two prepares at once: the Accept's intent is stored first and its plan last. -/
def crossed : List (Event Nat) :=
  [.hub (some sampleStore), .allot 10 sampleAccept, .allot 11 .bcast, .storeIntent 1, .storeIntent 2, .storePlan 2,
    .storePlan 1, .commit 7 1, .takePlan 7, .takeIntent 7, .broadcast 7 sent]

/-- The commit broadcasts the Accept's plan with no guard, though its invitation is gone, and folds
    nothing. -/
theorem crossed_prepares_fold_nothing :
    ∃ s : Pending Nat, Machine.run step launch crossed = some s ∧
      s.prepared.lookup 1 = some (10, sampleAccept) ∧ acceptTargetMissing sampleStore "conv" = true ∧
      s.broadcasts = [⟨1, 10, none, none, sent⟩] ∧ (∀ b ∈ s.broadcasts, b.applied = none) ∧
      ¬ s.FoldedAsPrepared := by
  have all : (Machine.run step launch crossed).any (fun s =>
      decide (s.prepared.lookup 1 = some (10, sampleAccept) ∧ s.broadcasts = [⟨1, 10, none, none, sent⟩])) =
        true := by
    decide +kernel
  obtain ⟨s, happens, facts⟩ := (Option.any_eq_true _ _).mp all
  obtain ⟨prepared, sends⟩ := of_decide_eq_true facts
  refine ⟨s, happens, prepared, rfl, sends, ?_, ?_⟩
  · rw [sends]
    intro b member
    rw [List.mem_singleton.mp member]
    rfl
  · intro folded
    obtain ⟨intent, _, taken, _⟩ := folded.broadcasts ⟨1, 10, none, none, sent⟩ (by rw [sends]; exact List.mem_cons_self)
    cases taken

end Sample

end Runs

end Pending

end Kaspaverse.Transport
