import Kaspaverse.Transport.HubRows

namespace Kaspaverse.Transport

namespace Hub

variable {chain : Chain} {s next : Hub} {id other : ℕ} {o : Oracle} {act : Act} {acts first rest : List Act}
  {e : Event}

section Calls

/-- The sections of prepares and commits, each the last of its call. -/
def Late : Act → Prop
  | .prepareHandshake _ | .prepareComm _ | .prepareAccept _ | .prepareAcceptNamed _ _ _ | .prepareStash | .allot _
  | .storeIntent _ _ | .storePlan _ _ | .commit _ | .commitCheck _ _ | .takePlan _ | .takeIntent _ _
  | .broadcast _ _ | .apply _ _ => True
  | _ => False

def Trails : List Act → Prop
  | [] => True
  | act :: rest => (Late act → rest = []) ∧ Trails rest

theorem trails_append (early : ∀ act ∈ first, ¬ Late act) (trails : Trails rest) : Trails (first ++ rest) := by
  induction first with
  | nil => exact trails
  | cons act first ih =>
    refine ⟨fun late => absurd late (early act List.mem_cons_self), ?_⟩
    exact ih fun other member => early other (List.mem_cons_of_mem _ member)

theorem trails_early (early : ∀ act ∈ acts, ¬ Late act) : Trails acts := by
  rw [← List.append_nil acts]
  exact trails_append early True.intro

theorem trails_one (act : Act) : Trails [act] := ⟨fun _ => rfl, True.intro⟩

theorem trails_unless {p : Prop} [Decidable p] (act : Act) : Trails (if p then [] else [act]) := by
  split
  · exact True.intro
  · exact trails_one act

theorem perform_early (early : ¬ Late act) : ∀ other ∈ (s.perform chain o act).2, ¬ Late other := by
  intro other member late
  cases perform_next member with
  | note _ txid => exact late
  | _ => first | exact late | exact early True.intro

theorem perform_trails : Trails (s.perform chain o act).2 := by
  by_cases late : Late act
  · cases act with
    | prepareHandshake address =>
      unfold perform prepareHandshake
      dsimp only
      split
      · exact True.intro
      · split
        · split
          · exact True.intro
          · exact trails_one _
        · split
          · exact True.intro
          · exact trails_one _
    | prepareComm id =>
      unfold perform prepareComm
      dsimp only
      split
      · exact True.intro
      · split
        · exact trails_one _
        · exact True.intro
    | prepareAccept id =>
      unfold perform prepareAccept
      dsimp only
      split
      · exact True.intro
      · split
        · exact True.intro
        · split
          · split
            · exact trails_one _
            · exact True.intro
          · exact True.intro
    | prepareAcceptNamed id theirAlias txid =>
      unfold perform prepareAcceptNamed
      dsimp only
      split
      · exact True.intro
      · split
        · exact ⟨fun released => released.elim, trails_unless _⟩
        · exact trails_one _
    | prepareStash =>
      unfold perform prepareStash
      dsimp only
      split
      · exact True.intro
      · exact trails_one _
    | allot intent =>
      unfold perform
      dsimp only
      split
      · exact trails_one _
      · exact True.intro
    | commit nonce =>
      unfold perform commit
      dsimp only
      split <;> exact trails_one _
    | commitCheck nonce target =>
      unfold perform commitCheck
      dsimp only
      split
      · exact ⟨fun abandons => abandons.elim, trails_one _⟩
      · exact trails_one _
    | takePlan nonce =>
      unfold perform takePlan
      dsimp only
      split
      · split
        · exact trails_one _
        · exact True.intro
      · exact True.intro
    | broadcast built intent =>
      unfold perform broadcast
      dsimp only
      split
      · exact trails_one _
      · exact True.intro
    | apply intent txid =>
      apply trails_early
      intro other member late
      cases perform_next member with
      | _ => exact late
    | storeIntent nonce intent => exact trails_one _
    | storePlan nonce built => exact True.intro
    | takeIntent nonce built => exact trails_one _
    | _ => exact late.elim
  · exact trails_early (perform_early late)

/-- The sections a call comes in with. -/
def Arrives (acts : List Act) : Prop :=
  (∃ call : Call, acts = call.acts) ∨ (∃ row : FillRow, acts = row.acts) ∨ ∃ run txid, acts = [.stashLoad run txid]

theorem Arrives.trails (arrives : Arrives acts) : Trails acts := by
  rcases arrives with ⟨call, rfl⟩ | ⟨row, rfl⟩ | ⟨run, txid, rfl⟩
  · cases call with
    | abandon | clear _ => exact ⟨fun late => late.elim, trails_one _⟩
    | wipe | start =>
      apply trails_early
      intro act member late
      simp only [Call.acts, List.mem_cons, List.not_mem_nil, or_false] at member
      rcases member with rfl | rfl | rfl | rfl | rfl | rfl | rfl <;> exact late
    | _ => exact trails_one _
  · cases row <;> exact trails_one _
  · exact trails_one _

theorem lookup_setCall (s : Hub) (id other : ℕ) (acts : List Act) : (s.setCall id acts).calls.lookup other =
    if other = id then (if acts = [] then none else some acts) else s.calls.lookup other := by
  unfold setCall
  dsimp only
  by_cases same : other = id
  · subst same
    rw [if_pos rfl]
    split
    · rw [if_pos rfl]
      exact AList.lookup_erase _ _
    case h_2 some_ =>
      rw [if_neg some_]
      exact AList.lookup_insert _
  · rw [if_neg same]
    split
    · exact AList.lookup_erase_ne same
    · exact AList.lookup_insert_ne same

theorem Performed.calls (performed : Performed chain s id o act rest next) (other : ℕ) :
    next.calls.lookup other = if other = id then
      (if (s.perform chain o act).2 ++ rest = [] then none else some ((s.perform chain o act).2 ++ rest))
      else s.calls.lookup other := by
  rw [performed.after, lookup_setCall]
  have same : ((s.perform chain o act).1.mint (draws o act)).calls = s.calls := perform_frame.1
  rw [same]

theorem trails_performed (trails : ∀ id acts, s.calls.lookup id = some acts → Trails acts)
    (performed : Performed chain s id o act rest next) :
    ∀ other acts, next.calls.lookup other = some acts → Trails acts := by
  have trailing := trails id _ performed.head
  intro other acts found
  rw [performed.calls] at found
  split at found
  · split at found
    · cases found
    · cases found
      by_cases late : Late act
      · rw [trailing.1 late, List.append_nil]
        exact perform_trails
      · exact trails_append (perform_early late) trailing.2
  · exact trails other acts found

/-- No other step moves a call, but a restart, which ends them all. -/
theorem idle_calls (steps : step chain s e = some next) (idle : ∀ id o, e ≠ .perform id o) :
    (e = .restart ∧ next.calls = ∅) ∨ next.calls = s.calls ∨ ∃ id acts, s.calls.lookup id = none ∧ acts ≠ [] ∧
      Arrives acts ∧ next.calls = s.calls.insert id acts := by
  cases e with
  | perform id o => exact absurd rfl (idle id o)
  | call id call =>
    simp only [step] at steps
    split at steps
    · cases steps
    case isFalse enters =>
      cases steps
      refine .inr (.inr ⟨id, call.acts, AList.lookup_eq_none.mpr fun inside => enters (.inl inside), ?_,
        .inl ⟨call, rfl⟩, ?_⟩)
      · cases call <;> exact List.cons_ne_nil _ _
      · unfold setCall
        dsimp only
        split
        case h_1 empty => cases call <;> cases empty
        case h_2 => rfl
  | fillBegin run =>
    simp only [step] at steps
    split at steps
    · cases steps
    · cases steps
      exact .inr (.inl rfl)
  | fillCheck run =>
    simp only [step] at steps
    split at steps
    · cases steps
      exact .inr (.inl rfl)
    · cases steps
  | fillFold run id row =>
    simp only [step] at steps
    split at steps
    · split at steps
      · cases steps
      case isFalse absent =>
        cases steps
        refine .inr (.inr ⟨id, row.acts, AList.lookup_eq_none.mpr absent, ?_, .inr (.inl ⟨row, rfl⟩), ?_⟩)
        · cases row <;> exact List.cons_ne_nil _ _
        · cases row <;> rfl
    · cases steps
  | fillProve run id txid =>
    simp only [step] at steps
    split at steps
    case isTrue walks =>
      cases steps
      exact .inr (.inr ⟨id, _, AList.lookup_eq_none.mpr walks.2, List.cons_ne_nil _ _, .inr (.inr ⟨run, txid, rfl⟩),
        rfl⟩)
    · cases steps
  | restart =>
    cases steps
    exact .inl ⟨rfl, rfl⟩

theorem idle_arrives (steps : step chain s e = some next) (idle : ∀ id o, e ≠ .perform id o) (alive : e ≠ .restart)
    (found : next.calls.lookup id = some acts) : s.calls.lookup id = some acts ∨ Arrives acts := by
  rcases idle_calls steps idle with ⟨restarts, _⟩ | same | ⟨_, _, _, _, arrives, same⟩
  · exact absurd restarts alive
  · rw [same] at found
    exact .inl found
  · rw [same] at found
    rcases KeyMap.lookup_insert_some.mp found with ⟨_, rfl⟩ | ⟨_, before⟩
    · exact .inr arrives
    · exact .inl before

theorem idle_stays (steps : step chain s e = some next) (idle : ∀ id o, e ≠ .perform id o) (alive : e ≠ .restart)
    (found : s.calls.lookup id = some acts) : next.calls.lookup id = some acts := by
  rcases idle_calls steps idle with ⟨restarts, _⟩ | same | ⟨entering, _, absent, _, _, same⟩
  · exact absurd restarts alive
  · rw [same]
    exact found
  · rw [same]
    refine (AList.lookup_insert_ne ?_).trans found
    rintro rfl
    rw [absent] at found
    cases found

theorem Performed.steps (performed : Performed chain s id o act rest next) :
    step chain s (.perform id o) = some next := by
  unfold step
  simp only [performed.head]
  rw [if_pos performed.answers, performed.after]

end Calls

/-- The row of an id is not waiting for an accept, and none of this id will. -/
def Settled (s : Hub) (id : String) : Prop :=
  id ∈ s.minted ∧ ∀ row, s.store.conversation id = some row → row.status ≠ .pendingInbound

theorem minted_step (steps : step chain s e = some next) : s.minted ⊆ next.minted := by
  rcases step_cases steps with ⟨_, _, _, _, _, performed⟩ | idle
  · rw [performed.minted]
    exact Finset.subset_union_right
  · rw [idle.minted]

theorem Settled.step {id : String} (settled : s.Settled id) (known : s.Known chain)
    (steps : step chain s e = some next) : next.Settled id := by
  refine ⟨minted_step steps settled.1, ?_⟩
  intro row found waits
  rcases step_cases steps with ⟨_, _, _, _, _, performed⟩ | idle
  · rcases (performed.written known).waits id row found waits with ⟨old, before, waited⟩ | ⟨_, fresh⟩
    · exact settled.2 old before waited
    · exact fresh settled.1
  · have same : next.store = s.store := congrArg Filing.store idle.filing
    rw [same] at found
    exact settled.2 row found waits

/-- An accept that is folded settles its row, if there still is one. -/
theorem apply_settles {intent : TransportIntent} {txid conversationId : String}
    (performed : Performed chain s id o (.apply intent txid) rest next) (aims : intent.target = some conversationId)
    (minted : conversationId ∈ s.minted) : next.Settled conversationId := by
  refine ⟨minted_step performed.steps minted, ?_⟩
  intro row found
  rw [performed.after] at found
  cases intent with
  | accept target address myAlias reseal timestampMs =>
    cases aims
    change ((s.applyAccept conversationId address myAlias reseal timestampMs txid o).1.store.conversation
      conversationId) = some row at found
    unfold applyAccept at found
    split at found
    case h_1 missing =>
      rw [missing] at found
      cases found
    case h_2 existing present =>
      have filed := TransportStore.conversation_id present
      simp only [TransportStore.conversation_recordMessage, TransportStore.conversation_put, filed, if_true] at found
      cases found
      exact fun waits => nomatch waits
  | _ => cases aims

end Hub

def HANDSHAKE_BOND_SOMPI : ℕ := 20000000

/-- What an accept was prepared on: its handshake, what our own record says it paid us, and the sender
    our node named. -/
structure Quote where
  handshakeTxid : String
  received : ℕ
  sender : String
deriving DecidableEq

/-- A refund that may have left the wallet, and whether the network has accepted it. -/
structure Refund where
  conversationId : String
  contactAddress : String
  quote : Quote
  landed : Bool
deriving DecidableEq

/-- How far the commit of an accept is: past the guard, with the plan, or broadcast and to be folded. -/
inductive Accepting
  | checked (nonce : ℕ) (conversationId : String)
  | taken (refund : Refund)
  | sent (refund : Refund)
deriving DecidableEq

namespace Accepting

def conversationId : Accepting → String
  | .checked _ conversationId => conversationId
  | .taken refund | .sent refund => refund.conversationId

def refund : Accepting → Option Refund
  | .checked _ _ => none
  | .taken refund | .sent refund => some refund

/-- The refund of a commit that was cut off with its plan in hand. -/
def unanswered : Accepting → Option Refund
  | .taken refund => some refund
  | _ => none

end Accepting

/-- The hub, our record of what each transaction paid us, and the refunds since the last wipe. The other
    fields are history, which nothing reads: what each call and the stored plan were quoted, and how far
    each commit of an accept is. -/
structure Bonds where
  hub : Hub
  activity : KeyMap String ℕ
  quotes : KeyMap ℕ Quote
  plan : Quote
  commits : KeyMap ℕ Accepting
  refunds : List Refund

namespace Bonds

def unquoted : Quote := ⟨"", 0, ""⟩

def received (s : Bonds) (txid : String) : ℕ := (s.activity.lookup txid).getD 0

/-- The bond must have been received before an accept is prepared. -/
def priced (s : Bonds) (o : Oracle) : Act → Oracle
  | .prepareAcceptNamed _ _ txid => { o with ok := o.ok && decide (HANDSHAKE_BOND_SOMPI ≤ s.received txid) }
  | _ => o

/-- What a section of a call does to the refunds. `out` says whether a broadcast that was not answered
    clean sent something. -/
def follow (s : Bonds) (id : ℕ) (o : Oracle) (out : Bool) (hub : Hub) : Act → Bonds
  | .prepareAcceptNamed _ _ txid =>
    { s with
      hub := hub
      quotes := match o.sender with
        | some sender => s.quotes.insert id ⟨txid, s.received txid, sender⟩
        | none => s.quotes }
  | .storePlan _ _ => { s with hub := hub, plan := (s.quotes.lookup id).getD unquoted }
  | .commitCheck nonce target =>
    if Pending.acceptTargetMissing s.hub.store target then { s with hub := hub }
    else { s with hub := hub, commits := s.commits.insert id (.checked nonce target) }
  | .takePlan nonce =>
    match s.hub.plan with
    | some (stored, .accept conversationId contactAddress _ _ _) =>
      { s with
        hub := hub
        commits := if stored = nonce then
            s.commits.insert id (.taken ⟨conversationId, contactAddress, s.plan, false⟩)
          else s.commits.erase id }
    | _ => { s with hub := hub, commits := s.commits.erase id }
  | .broadcast _ intent =>
    match s.commits.lookup id with
    | some (.taken refund) =>
      { s with
        hub := hub
        refunds := if o.ok || out then refund :: s.refunds else s.refunds
        commits := if o.ok && intent.isSome then s.commits.insert id (.sent refund) else s.commits.erase id }
    | _ => { s with hub := hub }
  | .apply _ _ => { s with hub := hub, commits := s.commits.erase id }
  | .wipeStore => { s with hub := hub, refunds := [] }
  | _ => { s with hub := hub }

inductive Event
  /-- a step of the hub, and the calls whose broadcasts sent something without a clean answer -/
  | hub (event : Hub.Event) (out : List ℕ)
  /-- our record of a transaction that pays us -/
  | paid (txid : String) (received : ℕ)
  /-- the network accepts a refund that left -/
  | land (i : ℕ)

def step (chain : Chain) (s : Bonds) : Event → Option Bonds
  | .hub (.perform id o) out =>
    match s.hub.calls.lookup id with
    | some (act :: _) =>
      (Hub.step chain s.hub (.perform id (s.priced o act))).map fun hub =>
        s.follow id (s.priced o act) (decide (id ∈ out)) hub act
    | _ => none
  | .hub .restart out =>
    (Hub.step chain s.hub .restart).map fun hub =>
      { s with
        hub := hub
        quotes := ∅
        plan := unquoted
        commits := ∅
        refunds := out.dedup.filterMap (fun id => (s.commits.lookup id).bind Accepting.unanswered) ++ s.refunds }
  | .hub event _ => (Hub.step chain s.hub event).map fun hub => { s with hub := hub }
  | .paid txid received => some { s with activity := s.activity.insert txid received }
  | .land i =>
    match s.refunds[i]? with
    | some refund => some { s with refunds := s.refunds.set i { refund with landed := true } }
    | none => none

def launch : Bonds := ⟨Hub.launch, ∅, ∅, unquoted, ∅, []⟩

/-- At most one refund of each handshake is accepted. -/
def AtMostOne (s : Bonds) : Prop :=
  ∀ handshakeTxid, (s.refunds.filter fun r => r.landed && decide (r.quote.handshakeTxid = handshakeTxid)).length ≤ 1

/-- Every refund pays the sender our node named for its handshake, which paid us the bond. -/
def PaysBack (chain : Chain) (s : Bonds) : Prop :=
  ∀ r ∈ s.refunds, r.contactAddress = chain.sender r.quote.handshakeTxid ∧ HANDSHAKE_BOND_SOMPI ≤ r.quote.received

/-- What a section must find for the guard to hold. -/
def settles (s : Bonds) (id : ℕ) (o : Oracle) (out : Bool) : Act → Prop
  | .commitCheck _ target => ∀ commit ∈ s.commits.values, commit.conversationId ≠ target
  | .takePlan nonce =>
    match s.hub.plan with
    | some (stored, .accept conversationId _ _ _ _) =>
      stored = nonce → s.commits.lookup id = some (.checked nonce conversationId) ∧
        ∀ r ∈ s.refunds ++ s.commits.values.filterMap Accepting.refund,
          r.quote.handshakeTxid = s.plan.handshakeTxid → r.conversationId = conversationId
    | _ => True
  | .takeIntent nonce built =>
    ((s.commits.lookup id).bind Accepting.refund).isSome → (Pending.takeIntent s.hub.intent nonce).1 = some built
  | .broadcast _ _ => ((s.commits.lookup id).bind Accepting.refund).isSome → out = true → o.ok = true
  | _ => True

/-- No two commits of one invitation overlap, the commit that takes an accept's plan passed the guard for
    it and finds its intent, a refund that leaves is answered and folded before the process ends, and no
    other row of its handshake was refunded. -/
def Settles (s : Bonds) : Event → Prop
  | .hub (.perform id o) out =>
    match s.hub.calls.lookup id with
    | some (act :: _) => s.settles id o (decide (id ∈ out)) act
    | _ => True
  | .hub .restart _ => ∀ commit ∈ s.commits.values, commit.refund = none
  | _ => True

instance decidableSettlesSection (s : Bonds) (id : ℕ) (o : Oracle) (out : Bool) (act : Act) :
    Decidable (s.settles id o out act) := by
  cases act
  case commitCheck nonce target =>
    exact inferInstanceAs (Decidable (∀ commit ∈ s.commits.values, commit.conversationId ≠ target))
  case takePlan nonce =>
    dsimp only [settles]
    split <;> infer_instance
  case takeIntent nonce built =>
    dsimp only [settles]
    infer_instance
  case broadcast built intent =>
    dsimp only [settles]
    infer_instance
  all_goals exact .isTrue True.intro

instance decidableSettles (s : Bonds) : ∀ e, Decidable (s.Settles e)
  | .hub (.perform id o) out =>
    match found : s.hub.calls.lookup id with
    | some (act :: _) => decidable_of_iff (s.settles id o (decide (id ∈ out)) act) (by simp only [Settles, found])
    | some [] => .isTrue (by simp only [Settles, found])
    | none => .isTrue (by simp only [Settles, found])
  | .hub .restart _ => inferInstanceAs (Decidable (∀ commit ∈ s.commits.values, commit.refund = none))
  | .hub (.call _ _) _ | .hub (.fillBegin _) _ | .hub (.fillCheck _) _ | .hub (.fillFold _ _ _) _
  | .hub (.fillProve _ _ _) _ | .paid _ _ | .land _ => .isTrue True.intro

section Frames

variable {chain : Chain} {s next : Bonds} {id : ℕ} {o : Oracle} {out : Bool} {hub : Hub} {act : Act}

@[simp] theorem follow_hub : (s.follow id o out hub act).hub = hub := by
  unfold follow
  split
  case h_3 => split <;> rfl
  case h_4 => split <;> rfl
  case h_5 => split <;> rfl
  all_goals rfl

theorem follow_quotes
    (other : ∀ conversationId theirAlias txid, act ≠ .prepareAcceptNamed conversationId theirAlias txid) :
    (s.follow id o out hub act).quotes = s.quotes := by
  unfold follow
  split
  case h_1 => exact absurd rfl (other _ _ _)
  case h_3 => split <;> rfl
  case h_4 => split <;> rfl
  case h_5 => split <;> rfl
  all_goals rfl

theorem follow_plan (other : ∀ nonce built, act ≠ .storePlan nonce built) :
    (s.follow id o out hub act).plan = s.plan := by
  unfold follow
  split
  case h_2 => exact absurd rfl (other _ _)
  case h_3 => split <;> rfl
  case h_4 => split <;> rfl
  case h_5 => split <;> rfl
  all_goals rfl

/-- A step of the hub is a section of a call, a restart, or no call's. -/
theorem step_hub {event : Hub.Event} {outs : List ℕ} (steps : step chain s (.hub event outs) = some next) :
    (∃ id o act rest hub, event = .perform id o ∧
      Hub.Performed chain s.hub id (s.priced o act) act rest hub ∧
        next = s.follow id (s.priced o act) (decide (id ∈ outs)) hub act) ∨
    (event = .restart ∧ ∃ hub, Hub.step chain s.hub .restart = some hub ∧ next = { s with
        hub := hub
        quotes := ∅
        plan := unquoted
        commits := ∅
        refunds := outs.dedup.filterMap (fun id => (s.commits.lookup id).bind Accepting.unanswered) ++ s.refunds }) ∨
    (event ≠ .restart ∧ (∀ id o, event ≠ .perform id o) ∧ ∃ hub, Hub.step chain s.hub event = some hub ∧
      next = { s with hub := hub }) := by
  cases event with
  | perform id o =>
    simp only [step] at steps
    split at steps
    case h_1 act rest found =>
      obtain ⟨hub, happens, rfl⟩ := Option.map_eq_some_iff.mp steps
      obtain ⟨head, tail, performed⟩ := Hub.step_perform happens
      have same := performed.head
      rw [found] at same
      cases same
      exact .inl ⟨id, o, act, rest, hub, rfl, performed, rfl⟩
    case h_2 => cases steps
  | restart =>
    unfold step at steps
    obtain ⟨hub, happens, rfl⟩ := Option.map_eq_some_iff.mp steps
    exact .inr (.inl ⟨rfl, hub, happens, rfl⟩)
  | call _ _ | fillBegin _ | fillCheck _ | fillFold _ _ _ | fillProve _ _ _ =>
    unfold step at steps
    obtain ⟨hub, happens, rfl⟩ := Option.map_eq_some_iff.mp steps
    exact .inr (.inr ⟨(nomatch ·), fun _ _ same => (nomatch same), hub, happens, rfl⟩)

end Frames

section Quoted

variable {chain : Chain} {s next : Bonds} {id : ℕ} {o : Oracle} {out : Bool} {hub : Hub} {act : Act}
  {rest : List Act}

def Quote.Pays (chain : Chain) (quote : Quote) (address : String) : Prop :=
  address = chain.sender quote.handshakeTxid ∧ HANDSHAKE_BOND_SOMPI ≤ quote.received

/-- Whom an accept pays. -/
def refunds? : TransportIntent → Option String
  | .accept _ contactAddress _ _ _ => some contactAddress
  | _ => none

/-- Whom the accept pays that a section prepares. -/
def refunding : Act → Option String
  | .allot intent | .storeIntent _ intent | .storePlan _ intent => refunds? intent
  | _ => none

/-- What a prepare has of an accept pays back what its call was quoted, and so does every refund. -/
structure Quoted (chain : Chain) (s : Bonds) : Prop where
  trails : ∀ id acts, s.hub.calls.lookup id = some acts → Hub.Trails acts
  calls : ∀ id acts act address, s.hub.calls.lookup id = some acts → act ∈ acts → refunding act = some address →
    Quote.Pays chain ((s.quotes.lookup id).getD unquoted) address
  plan : ∀ stored address, s.hub.plan = some stored → refunds? stored.2 = some address →
    Quote.Pays chain s.plan address
  commits : ∀ id commit r, s.commits.lookup id = some commit → commit.refund = some r →
    Quote.Pays chain r.quote r.contactAddress
  refunds : ∀ r ∈ s.refunds, Quote.Pays chain r.quote r.contactAddress

theorem arrives_refunding {acts : List Act} (arrives : Hub.Arrives acts) (member : act ∈ acts) :
    refunding act = none := by
  rcases arrives with ⟨call, rfl⟩ | ⟨row, rfl⟩ | ⟨run, txid, rfl⟩
  · cases call with
    | abandon | clear _ | wipe | start =>
      simp only [Hub.Call.acts, List.mem_cons, List.not_mem_nil, or_false] at member
      rcases member with rfl | rfl | rfl | rfl | rfl | rfl | rfl <;> rfl
    | _ =>
      rw [List.mem_singleton.mp member]
      rfl
  · cases row <;> (rw [List.mem_singleton.mp member]; rfl)
  · rw [List.mem_singleton.mp member]
    rfl

theorem named_ok {h : Hub} {conversationId theirAlias txid address : String} {other : Act}
    (handed : other ∈ (h.perform chain o (.prepareAcceptNamed conversationId theirAlias txid)).2)
    (pays : refunding other = some address) : o.sender = some address ∧ o.ok = true := by
  cases named : o.sender.filter fun sender => o.ok && (chain.mainnet sender).isSome with
  | none =>
    unfold Hub.perform Hub.prepareAcceptNamed at handed
    simp only [named] at handed
    cases handed
  | some sender =>
    obtain ⟨answer, passes⟩ := Option.filter_eq_some_iff.mp named
    cases Hub.perform_next handed with
    | note | removeArchiveRow | release => cases pays
    | @allotAccept answered _ _ _ isAnswer =>
      cases pays
      exact ⟨isAnswer, ((Bool.and_eq_true _ _).mp passes).1⟩

theorem performs_refunding {h : Hub} {other : Act} {address : String} (handed : other ∈ (h.perform chain o act).2)
    (pays : refunding other = some address) : refunding act = some address ∨
      ∃ conversationId theirAlias txid, act = .prepareAcceptNamed conversationId theirAlias txid := by
  cases Hub.perform_next handed with
  | storeIntent intent => exact .inl pays
  | storePlan nonce intent => exact .inl pays
  | allotAccept conversationId theirAlias txid answer => exact .inr ⟨_, _, _, rfl⟩
  | _ => cases pays

theorem priced_ok {conversationId theirAlias txid : String}
    (ok : (s.priced o (.prepareAcceptNamed conversationId theirAlias txid)).ok = true) :
    HANDSHAKE_BOND_SOMPI ≤ s.received txid :=
  of_decide_eq_true ((Bool.and_eq_true _ _).mp ok).2

/-- A commit after a section was there, or is the section's own and pays what was quoted. -/
theorem Quoted.commits_follow (quoted : Quoted chain s) {other : ℕ} {commit : Accepting} {r : Refund}
    (found : (s.follow id o out hub act).commits.lookup other = some commit) (has : commit.refund = some r) :
    Quote.Pays chain r.quote r.contactAddress := by
  unfold follow at found
  split at found
  case h_3 nonce target =>
    split at found
    · exact quoted.commits _ _ _ found has
    · rcases KeyMap.lookup_insert_some.mp found with ⟨rfl, rfl⟩ | ⟨_, before⟩
      · cases has
      · exact quoted.commits _ _ _ before has
  case h_4 nonce =>
    split at found
    case h_1 stored conversationId contactAddress _ _ _ plan =>
      simp only at found
      split at found
      · rcases KeyMap.lookup_insert_some.mp found with ⟨rfl, rfl⟩ | ⟨_, before⟩
        · cases has
          exact quoted.plan _ contactAddress plan rfl
        · exact quoted.commits _ _ _ before has
      · exact quoted.commits _ _ _ (KeyMap.lookup_erase_some.mp found).2 has
    case h_2 => exact quoted.commits _ _ _ (KeyMap.lookup_erase_some.mp found).2 has
  case h_5 =>
    split at found
    case h_1 refund taken =>
      simp only at found
      split at found
      · rcases KeyMap.lookup_insert_some.mp found with ⟨rfl, rfl⟩ | ⟨_, before⟩
        · cases has
          exact quoted.commits _ _ _ taken rfl
        · exact quoted.commits _ _ _ before has
      · exact quoted.commits _ _ _ (KeyMap.lookup_erase_some.mp found).2 has
    case h_2 => exact quoted.commits _ _ _ found has
  case h_6 => exact quoted.commits _ _ _ (KeyMap.lookup_erase_some.mp found).2 has
  all_goals exact quoted.commits _ _ _ found has

/-- A section leaves the refunds, ends them, or broadcasts the one its commit holds. -/
theorem refunds_follow : (s.follow id o out hub act).refunds = s.refunds ∨
    (s.follow id o out hub act).refunds = [] ∨
    ∃ r built intent, (s.follow id o out hub act).refunds = r :: s.refunds ∧
      s.commits.lookup id = some (.taken r) ∧ act = .broadcast built intent ∧ (o.ok || out) = true := by
  unfold follow
  split
  case h_3 => split <;> exact .inl rfl
  case h_4 => split <;> exact .inl rfl
  case h_5 built intent =>
    split
    case h_1 refund taken =>
      simp only
      split
      case isTrue sends => exact .inr (.inr ⟨refund, built, intent, rfl, taken, rfl, sends⟩)
      case isFalse => exact .inl rfl
    case h_2 => exact .inl rfl
  case h_7 => exact .inr (.inl rfl)
  all_goals exact .inl rfl

theorem mem_follow {r : Refund} (member : r ∈ (s.follow id o out hub act).refunds) :
    r ∈ s.refunds ∨ (s.commits.lookup id = some (.taken r) ∧ ∃ built intent, act = .broadcast built intent) := by
  rcases refunds_follow with
    same | none_ | ⟨sent, built, intent, sends, taken, section_, _⟩
  · rw [same] at member
    exact .inl member
  · rw [none_] at member
    cases member
  · rw [sends] at member
    rcases List.mem_cons.mp member with rfl | before
    · exact .inr ⟨taken, built, intent, section_⟩
    · exact .inl before

theorem Quoted.follow (quoted : Quoted chain s)
    (performed : Hub.Performed chain s.hub id (s.priced o act) act rest hub) :
    Quoted chain (s.follow id (s.priced o act) out hub act) := by
  have trailing := quoted.trails id _ performed.head
  refine ⟨?_, ?_, ?_, fun other commit r found has => quoted.commits_follow found has, ?_⟩
  · rw [follow_hub]
    exact Hub.trails_performed quoted.trails performed
  · intro other acts one address found member pays
    rw [follow_hub, performed.calls] at found
    split at found
    case isTrue same =>
      subst same
      split at found
      · cases found
      · cases found
        rcases List.mem_append.mp member with handed | behind
        · rcases performs_refunding handed pays with before | ⟨conversationId, theirAlias, txid, rfl⟩
          · rw [follow_quotes]
            · exact quoted.calls _ _ act address performed.head List.mem_cons_self before
            · rintro _ _ _ rfl
              cases before
          · obtain ⟨answer, ok⟩ := named_ok handed pays
            have truly := ((Bool.and_eq_true _ _).mp performed.answers).1
            simp only [Hub.asks, answer, Option.all_some, decide_eq_true_eq] at truly
            have priced := priced_ok ok
            unfold Bonds.follow
            simp only [answer, AList.lookup_insert, Option.getD_some]
            exact ⟨truly, priced⟩
        · have early : ¬ Hub.Late act := by
            intro late
            rw [trailing.1 late] at behind
            cases behind
          rw [follow_quotes]
          · exact quoted.calls _ _ one address performed.head (List.mem_cons_of_mem _ behind) pays
          · rintro _ _ _ rfl
            exact early True.intro
    case isFalse apart =>
      have same : (s.follow id (s.priced o act) out hub act).quotes.lookup other = s.quotes.lookup other := by
        unfold Bonds.follow
        split
        case h_1 =>
          split
          · exact AList.lookup_insert_ne apart
          · rfl
        case h_3 => split <;> rfl
        case h_4 => split <;> rfl
        case h_5 => split <;> rfl
        all_goals rfl
      rw [same]
      exact quoted.calls other acts one address found member pays
  · intro stored address found pays
    rw [follow_hub, performed.after] at found
    rcases Hub.perform_slots.1 stored found with before | stores
    · rcases Classical.em (∃ nonce built, act = .storePlan nonce built) with ⟨nonce, built, rfl⟩ | other
      · cases found
        unfold Bonds.follow
        exact quoted.calls id _ (.storePlan nonce built) address performed.head List.mem_cons_self pays
      · rw [follow_plan fun nonce built same => other ⟨nonce, built, same⟩]
        exact quoted.plan stored address before pays
    · subst stores
      unfold Bonds.follow
      exact quoted.calls id _ _ address performed.head List.mem_cons_self pays
  · intro r member
    rcases mem_follow member with before | ⟨taken, _⟩
    · exact quoted.refunds r before
    · exact quoted.commits id _ r taken rfl

theorem mem_land {i : ℕ} {refund r : Refund} (found : s.refunds[i]? = some refund)
    (member : r ∈ s.refunds.set i { refund with landed := true }) :
    r ∈ s.refunds ∨ r = { refund with landed := true } ∧ refund ∈ s.refunds := by
  rcases List.mem_or_eq_of_mem_set member with before | lands
  · exact .inl before
  · exact .inr ⟨lands, List.mem_of_getElem? found⟩

theorem Quoted.step {e : Event} (quoted : Quoted chain s) (steps : step chain s e = some next) :
    Quoted chain next := by
  cases e with
  | hub event outs =>
    rcases step_hub steps with ⟨id, o, act, rest, hub, _, performed, rfl⟩ | ⟨rfl, hub, happens, rfl⟩ |
      ⟨alive, idle, hub, happens, rfl⟩
    · exact quoted.follow performed
    · cases happens
      refine ⟨?_, ?_, ?_, ?_, ?_⟩
      · intro id acts found
        cases found
      · intro id acts act address found
        cases found
      · intro stored address found
        cases found
      · intro id commit r found
        cases found
      · intro r member
        rcases List.mem_append.mp member with lost | before
        · obtain ⟨id, _, held⟩ := List.mem_filterMap.mp lost
          obtain ⟨commit, found, cut⟩ := Option.bind_eq_some_iff.mp held
          cases commit with
          | taken refund =>
            cases cut
            exact quoted.commits id _ r found rfl
          | checked _ _ | sent _ => cases cut
        · exact quoted.refunds r before
    · have arrives : ∀ id acts, hub.calls.lookup id = some acts →
          s.hub.calls.lookup id = some acts ∨ Hub.Arrives acts :=
        fun _ _ => Hub.idle_arrives happens idle alive
      have plan : ∀ stored, hub.plan = some stored → s.hub.plan = some stored := by
        intro stored found
        rcases Hub.step_cases happens with ⟨id, o, _, _, performs, _⟩ | still
        · exact absurd performs (idle id o)
        · rcases still.plan with same | gone
          · exact same.symm.trans found
          · rw [gone] at found
            cases found
      refine ⟨?_, ?_, ?_, quoted.commits, quoted.refunds⟩
      · intro id acts found
        rcases arrives id acts found with before | arrives
        · exact quoted.trails id acts before
        · exact arrives.trails
      · intro id acts act address found member pays
        rcases arrives id acts found with before | arrives
        · exact quoted.calls id acts act address before member pays
        · rw [arrives_refunding arrives member] at pays
          cases pays
      · exact fun stored address found pays => quoted.plan stored address (plan stored found) pays
  | paid txid received =>
    cases steps
    exact ⟨quoted.trails, quoted.calls, quoted.plan, quoted.commits, quoted.refunds⟩
  | land i =>
    simp only [Bonds.step] at steps
    split at steps
    case h_1 refund found =>
      cases steps
      refine ⟨quoted.trails, quoted.calls, quoted.plan, quoted.commits, ?_⟩
      intro r member
      rcases mem_land found member with before | ⟨rfl, held⟩
      · exact quoted.refunds r before
      · exact quoted.refunds refund held
    case h_2 => cases steps

theorem quoted_launch : Quoted chain launch := by
  refine ⟨?_, ?_, ?_, ?_, List.forall_mem_nil _⟩
  · intro id acts found
    cases found
  · intro id acts act address found
    cases found
  · intro stored address found
    cases found
  · intro id commit r found
    cases found

end Quoted

section Once

variable {chain : Chain} {s next : Bonds} {id : ℕ} {o : Oracle} {out : Bool} {hub : Hub} {act : Act}
  {rest : List Act}

/-- What a commit of an accept has left to do. -/
def Stands : Accepting → List Act → Prop
  | .checked nonce _, acts => acts = [.takePlan nonce]
  | .taken refund, acts => ∃ built, built.target = some refund.conversationId ∧
      ((∃ nonce, acts = [.takeIntent nonce built]) ∨ acts = [.broadcast built (some built)])
  | .sent refund, acts => ∃ intent txid, intent.target = some refund.conversationId ∧ acts = [.apply intent txid]

/-- One commit for each invitation, none of them of one that was refunded, and one refund for each
    handshake, whose row is settled or about to be. -/
structure Once (chain : Chain) (s : Bonds) : Prop where
  known : s.hub.Known chain
  trails : ∀ id acts, s.hub.calls.lookup id = some acts → Hub.Trails acts
  stands : ∀ id commit, s.commits.lookup id = some commit →
    ∃ acts, s.hub.calls.lookup id = some acts ∧ Stands commit acts
  minted : ∀ id commit, s.commits.lookup id = some commit → commit.conversationId ∈ s.hub.minted
  apart : ∀ id other commit held, s.commits.lookup id = some commit → s.commits.lookup other = some held →
    commit.conversationId = held.conversationId → id = other
  alone : ∀ id other r held, s.commits.lookup id = some (.taken r) → s.commits.lookup other = some (.taken held) →
    r.quote.handshakeTxid = held.quote.handshakeTxid → id = other
  fresh : ∀ id nonce conversationId, s.commits.lookup id = some (.checked nonce conversationId) →
    ∀ r ∈ s.refunds, r.conversationId ≠ conversationId
  unsent : ∀ id r, s.commits.lookup id = some (.taken r) →
    ∀ earlier ∈ s.refunds, earlier.quote.handshakeTxid ≠ r.quote.handshakeTxid
  settled : ∀ r ∈ s.refunds, s.hub.Settled r.conversationId ∨
    ∃ id held, s.commits.lookup id = some (.sent held) ∧ held.conversationId = r.conversationId
  once : (s.refunds.map fun r => r.quote.handshakeTxid).Nodup

/-- How a section moves the commit of its call on. -/
inductive Moves (s : Bonds) (id : ℕ) (o : Oracle) : Act → Accepting → Prop
  | checks {nonce : ℕ} {target : String} (there : Pending.acceptTargetMissing s.hub.store target = false) :
    Moves s id o (.commitCheck nonce target) (.checked nonce target)
  | takes {nonce : ℕ} {conversationId contactAddress myAlias : String} {reseal : List UInt8} {timestampMs : ℕ}
    (plan : s.hub.plan = some (nonce, .accept conversationId contactAddress myAlias reseal timestampMs)) :
    Moves s id o (.takePlan nonce) (.taken ⟨conversationId, contactAddress, s.plan, false⟩)
  | stays {nonce : ℕ} {built : TransportIntent} {refund : Refund}
    (taken : s.commits.lookup id = some (.taken refund)) :
    Moves s id o (.takeIntent nonce built) (.taken refund)
  | sends {built : TransportIntent} {intent : Option TransportIntent} {refund : Refund}
    (taken : s.commits.lookup id = some (.taken refund)) (ok : o.ok = true) (found : intent.isSome = true) :
    Moves s id o (.broadcast built intent) (.sent refund)

theorem Once.stands_here (once : Once chain s) (performed : Hub.Performed chain s.hub id o act rest hub)
    {commit : Accepting} (found : s.commits.lookup id = some commit) : Stands commit (act :: rest) := by
  obtain ⟨acts, at_, stands⟩ := once.stands id commit found
  rw [performed.head] at at_
  cases at_
  exact stands

/-- A commit after a section is of another call, or moves on with it. -/
theorem Once.moves (once : Once chain s) (performed : Hub.Performed chain s.hub id o act rest hub) {other : ℕ}
    {commit : Accepting} (found : (s.follow id o out hub act).commits.lookup other = some commit) :
    (other ≠ id ∧ s.commits.lookup other = some commit) ∨ (other = id ∧ Moves s id o act commit) := by
  -- a commit that the section does not move is at its `takeIntent`
  have stays : s.commits.lookup other = some commit → (∀ nonce, act ≠ .takePlan nonce) →
      (∀ intent txid, act ≠ .apply intent txid) →
      (∀ built intent r, act = .broadcast built intent → s.commits.lookup id ≠ some (.taken r)) →
      (other ≠ id ∧ s.commits.lookup other = some commit) ∨ (other = id ∧ Moves s id o act commit) := by
    intro before noTake noApply noSend
    by_cases same : other = id
    · subst same
      have stands := once.stands_here performed before
      cases commit with
      | checked nonce target =>
        cases stands
        exact absurd rfl (noTake nonce)
      | taken r =>
        obtain ⟨built, _, ⟨nonce, is⟩ | is⟩ := stands
        · cases is
          exact .inr ⟨rfl, .stays before⟩
        · cases is
          exact absurd before (noSend built _ r rfl)
      | sent r =>
        obtain ⟨intent, txid, _, is⟩ := stands
        cases is
        exact absurd rfl (noApply intent txid)
    · exact .inl ⟨same, before⟩
  unfold follow at found
  split at found
  case h_3 nonce target =>
    split at found
    · exact stays found (fun _ same => nomatch same) (fun _ _ same => nomatch same) (fun _ _ _ same => nomatch same)
    case isFalse there =>
      rcases KeyMap.lookup_insert_some.mp found with ⟨rfl, rfl⟩ | away
      · exact .inr ⟨rfl, .checks (Bool.eq_false_iff.mpr there)⟩
      · exact .inl away
  case h_4 nonce =>
    split at found
    case h_1 stored conversationId contactAddress _ _ _ plan =>
      simp only at found
      split at found
      case isTrue own =>
        subst own
        rcases KeyMap.lookup_insert_some.mp found with ⟨rfl, rfl⟩ | away
        · exact .inr ⟨rfl, .takes plan⟩
        · exact .inl away
      case isFalse => exact .inl (KeyMap.lookup_erase_some.mp found)
    case h_2 => exact .inl (KeyMap.lookup_erase_some.mp found)
  case h_5 built intent =>
    split at found
    case h_1 refund taken =>
      simp only at found
      split at found
      case isTrue clean =>
        obtain ⟨ok, has⟩ := (Bool.and_eq_true _ _).mp clean
        rcases KeyMap.lookup_insert_some.mp found with ⟨rfl, rfl⟩ | away
        · exact .inr ⟨rfl, .sends taken ok has⟩
        · exact .inl away
      case isFalse => exact .inl (KeyMap.lookup_erase_some.mp found)
    case h_2 free =>
      exact stays found (fun _ same => nomatch same) (fun _ _ same => nomatch same) fun _ _ r _ taken => free r taken
  case h_6 => exact .inl (KeyMap.lookup_erase_some.mp found)
  case h_8 _ _ _ noTake noSend noApply _ =>
    exact stays found noTake noApply fun built intent _ same => (noSend built intent same).elim
  all_goals
    exact stays found (fun _ same => nomatch same) (fun _ _ same => nomatch same) fun _ _ _ same => nomatch same

theorem waits_of_there {store : TransportStore} {target : String}
    (there : Pending.acceptTargetMissing store target = false) :
    ∃ row, store.conversation target = some row ∧ row.status = .pendingInbound := by
  unfold Pending.acceptTargetMissing at there
  cases present : store.conversations.records.lookup target with
  | none =>
    rw [present] at there
    cases there
  | some row =>
    rw [present] at there
    refine ⟨row, present, ?_⟩
    simpa using there

theorem follow_elsewhere {other : ℕ} (apart : other ≠ id) :
    (s.follow id o out hub act).commits.lookup other = s.commits.lookup other := by
  unfold follow
  split
  case h_3 =>
    split
    · rfl
    · exact AList.lookup_insert_ne apart
  case h_4 =>
    split
    · simp only
      split
      · exact AList.lookup_insert_ne apart
      · exact AList.lookup_erase_ne apart
    · exact AList.lookup_erase_ne apart
  case h_5 =>
    split
    · simp only
      split
      · exact AList.lookup_insert_ne apart
      · exact AList.lookup_erase_ne apart
    · rfl
  case h_6 => exact AList.lookup_erase_ne apart
  all_goals rfl

theorem settles_take {nonce : ℕ} {conversationId contactAddress myAlias : String} {reseal : List UInt8}
    {timestampMs : ℕ} (settles : s.settles id o out (.takePlan nonce))
    (plan : s.hub.plan = some (nonce, .accept conversationId contactAddress myAlias reseal timestampMs)) :
    s.commits.lookup id = some (.checked nonce conversationId) ∧
      ∀ r ∈ s.refunds ++ s.commits.values.filterMap Accepting.refund,
        r.quote.handshakeTxid = s.plan.handshakeTxid → r.conversationId = conversationId := by
  unfold Bonds.settles at settles
  rw [plan] at settles
  exact settles rfl

theorem settles_priced (settles : s.settles id o out act) : s.settles id (s.priced o act) out act := by
  cases act with
  | prepareAcceptNamed _ _ _ => exact True.intro
  | _ => exact settles

theorem Moves.before {commit : Accepting} (moves : Moves s id o act commit) (settles : s.settles id o out act) :
    (∃ nonce target, act = .commitCheck nonce target ∧ commit = .checked nonce target) ∨
      ∃ held, s.commits.lookup id = some held ∧ held.conversationId = commit.conversationId := by
  cases moves with
  | checks there => exact .inl ⟨_, _, rfl, rfl⟩
  | takes plan => exact .inr ⟨_, (settles_take settles plan).1, rfl⟩
  | stays taken => exact .inr ⟨_, taken, rfl⟩
  | sends taken ok found => exact .inr ⟨_, taken, rfl⟩

theorem Once.apart_follow (once : Once chain s) (performed : Hub.Performed chain s.hub id o act rest hub)
    (settles : s.settles id o out act) {other next : ℕ} {commit held : Accepting}
    (found : (s.follow id o out hub act).commits.lookup other = some commit)
    (found_held : (s.follow id o out hub act).commits.lookup next = some held)
    (same : commit.conversationId = held.conversationId) : other = next := by
  -- of two commits at most one moves, and the other one was there
  have one : ∀ {j : ℕ} {mover stander : Accepting}, Moves s id o act mover → s.commits.lookup j = some stander →
      mover.conversationId = stander.conversationId → id = j := by
    intro j mover stander moves stood same
    rcases moves.before settles with ⟨nonce, target, rfl, rfl⟩ | ⟨before, was, is⟩
    · have member : stander ∈ s.commits.values := KeyMap.mem_values_iff.mpr ⟨j, stood⟩
      exact absurd same.symm (settles stander member)
    · exact once.apart id j before stander was stood (is.trans same)
  rcases once.moves performed found with ⟨away, before⟩ | ⟨rfl, moves⟩
  · rcases once.moves performed found_held with ⟨_, before_held⟩ | ⟨rfl, moves⟩
    · exact once.apart other next commit held before before_held same
    · exact (one moves before same.symm).symm
  · rcases once.moves performed found_held with ⟨_, before_held⟩ | ⟨rfl, _⟩
    · exact one moves before_held same
    · rfl

theorem Once.stands_follow (once : Once chain s) (performed : Hub.Performed chain s.hub id o act rest hub)
    (settles : s.settles id o out act) {other : ℕ} {commit : Accepting}
    (found : (s.follow id o out hub act).commits.lookup other = some commit) :
    ∃ acts, hub.calls.lookup other = some acts ∧ Stands commit acts := by
  rw [performed.calls]
  rcases once.moves performed found with ⟨away, before⟩ | ⟨rfl, moves⟩
  · rw [if_neg away]
    exact once.stands other commit before
  · rw [if_pos rfl]
    have alone : Hub.Late act → rest = [] := (once.trails other _ performed.head).1
    cases moves with
    | @checks nonce target there =>
      refine ⟨[.takePlan nonce], ?_, rfl⟩
      rw [alone True.intro, List.append_nil]
      unfold Hub.perform Hub.commitCheck
      simp [there]
    | @takes nonce conversationId contactAddress myAlias reseal timestampMs plan =>
      refine ⟨[.takeIntent nonce (.accept conversationId contactAddress myAlias reseal timestampMs)], ?_, _, rfl,
        .inl ⟨nonce, rfl⟩⟩
      rw [alone True.intro, List.append_nil]
      unfold Hub.perform Hub.takePlan
      simp [plan]
    | @stays nonce built refund taken =>
      have taken_intent : (Pending.takeIntent s.hub.intent nonce).1 = some built := by
        apply settles
        rw [taken]
        rfl
      obtain ⟨held, aims, ⟨_, is⟩ | is⟩ := once.stands_here performed taken
      · cases is
        refine ⟨[.broadcast built (some built)], ?_, built, aims, .inr rfl⟩
        unfold Hub.perform Hub.takeIntent
        simp [taken_intent]
      · cases is
    | @sends built intent refund taken ok has =>
      obtain ⟨held, aims, ⟨_, is⟩ | is⟩ := once.stands_here performed taken
      · cases is
      · cases is
        refine ⟨[.apply built o.txid], ?_, built, _, aims, rfl⟩
        unfold Hub.perform Hub.broadcast
        simp [ok]

theorem Once.minted_follow (once : Once chain s) (performed : Hub.Performed chain s.hub id o act rest hub)
    (settles : s.settles id o out act) {other : ℕ} {commit : Accepting}
    (found : (s.follow id o out hub act).commits.lookup other = some commit) :
    commit.conversationId ∈ hub.minted := by
  apply Hub.minted_step performed.steps
  rcases once.moves performed found with ⟨_, before⟩ | ⟨rfl, moves⟩
  · exact once.minted other commit before
  · rcases moves.before settles with ⟨nonce, target, rfl, rfl⟩ | ⟨before, was, is⟩
    · cases moves with
      | checks there =>
        obtain ⟨row, present, _⟩ := waits_of_there there
        exact once.known.minted target row present
    · rw [← is]
      exact once.minted other before was

theorem Once.fresh_follow (once : Once chain s) (performed : Hub.Performed chain s.hub id o act rest hub)
    (settles : s.settles id o out act) {other nonce : ℕ} {conversationId : String}
    (found : (s.follow id o out hub act).commits.lookup other = some (.checked nonce conversationId))
    {r : Refund} (member : r ∈ (s.follow id o out hub act).refunds) : r.conversationId ≠ conversationId := by
  intro same
  rcases mem_follow member with before | ⟨taken, built, intent, rfl⟩
  · rcases once.moves performed found with ⟨_, stood⟩ | ⟨rfl, moves⟩
    · exact once.fresh other nonce conversationId stood r before same
    · cases moves with
      | checks there =>
        obtain ⟨row, present, waits⟩ := waits_of_there there
        rcases once.settled r before with settled | ⟨j, held, sent, is⟩
        · exact settled.2 row (same ▸ present) waits
        · have inside : Accepting.sent held ∈ s.commits.values := KeyMap.mem_values_iff.mpr ⟨j, sent⟩
          exact settles _ inside (is.trans same)
  · rcases once.moves performed found with ⟨away, stood⟩ | ⟨_, moves⟩
    · exact away (once.apart other id _ _ stood taken same.symm)
    · cases moves

theorem Once.unsent_follow (once : Once chain s) (performed : Hub.Performed chain s.hub id o act rest hub)
    (settles : s.settles id o out act) {other : ℕ} {r : Refund}
    (found : (s.follow id o out hub act).commits.lookup other = some (.taken r))
    {earlier : Refund} (member : earlier ∈ (s.follow id o out hub act).refunds) :
    earlier.quote.handshakeTxid ≠ r.quote.handshakeTxid := by
  intro same
  rcases mem_follow member with before | ⟨taken, built, intent, rfl⟩
  · rcases once.moves performed found with ⟨_, stood⟩ | ⟨rfl, moves⟩
    · exact once.unsent other r stood earlier before same
    · cases moves with
      | takes plan =>
        obtain ⟨checked, others⟩ := settles_take settles plan
        exact once.fresh other _ _ checked earlier before (others earlier (List.mem_append_left _ before) same)
      | stays taken => exact once.unsent other r taken earlier before same
  · rcases once.moves performed found with ⟨away, stood⟩ | ⟨_, moves⟩
    · exact away (once.alone other id r earlier stood taken same.symm)
    · cases moves

theorem Once.alone_follow (once : Once chain s) (performed : Hub.Performed chain s.hub id o act rest hub)
    (settles : s.settles id o out act) {other next : ℕ} {r held : Refund}
    (found : (s.follow id o out hub act).commits.lookup other = some (.taken r))
    (found_held : (s.follow id o out hub act).commits.lookup next = some (.taken held))
    (same : r.quote.handshakeTxid = held.quote.handshakeTxid) : other = next := by
  have one : ∀ {j : ℕ} {mover stander : Refund}, Moves s id o act (.taken mover) →
      s.commits.lookup j = some (.taken stander) → mover.quote.handshakeTxid = stander.quote.handshakeTxid →
        id = j := by
    intro j mover stander moves stood same
    cases moves with
    | takes plan =>
      obtain ⟨checked, others⟩ := settles_take settles plan
      have inside : stander ∈ s.commits.values.filterMap Accepting.refund :=
        List.mem_filterMap.mpr ⟨_, KeyMap.mem_values_iff.mpr ⟨j, stood⟩, rfl⟩
      have row := others stander (List.mem_append_right _ inside) same.symm
      exact once.apart id j _ _ checked stood row.symm
    | stays taken => exact once.alone id j mover stander taken stood same
  rcases once.moves performed found with ⟨_, before⟩ | ⟨rfl, moves⟩
  · rcases once.moves performed found_held with ⟨_, before_held⟩ | ⟨rfl, moves⟩
    · exact once.alone other next r held before before_held same
    · exact (one moves before same.symm).symm
  · rcases once.moves performed found_held with ⟨_, before_held⟩ | ⟨rfl, _⟩
    · exact one moves before_held same
    · rfl

/-- What leaves is answered, and its commit goes on to fold it. -/
theorem Once.sends (once : Once chain s) (performed : Hub.Performed chain s.hub id o act rest hub)
    (settles : s.settles id o out act) {r : Refund} (taken : s.commits.lookup id = some (.taken r))
    {built : TransportIntent} {intent : Option TransportIntent} (section_ : act = .broadcast built intent)
    (leaves : (o.ok || out) = true) : (s.follow id o out hub act).commits.lookup id = some (.sent r) := by
  subst section_
  have ok : o.ok = true := by
    cases sent : out with
    | false =>
      rw [sent, Bool.or_false] at leaves
      exact leaves
    | true =>
      refine settles ?_ sent
      rw [taken]
      rfl
  obtain ⟨held, _, ⟨_, is⟩ | is⟩ := once.stands_here performed taken
  · cases is
  · cases is
    unfold follow
    simp [taken, ok]

theorem Once.settled_follow (once : Once chain s) (performed : Hub.Performed chain s.hub id o act rest hub)
    (settles : s.settles id o out act) {r : Refund} (member : r ∈ (s.follow id o out hub act).refunds) :
    hub.Settled r.conversationId ∨ ∃ other held,
      (s.follow id o out hub act).commits.lookup other = some (.sent held) ∧
        held.conversationId = r.conversationId := by
  have before_settles : r ∈ s.refunds → hub.Settled r.conversationId ∨ ∃ other held,
      (s.follow id o out hub act).commits.lookup other = some (.sent held) ∧
        held.conversationId = r.conversationId := by
    intro before
    rcases once.settled r before with settled | ⟨j, held, sent, is⟩
    · exact .inl (settled.step once.known performed.steps)
    · by_cases same : j = id
      · subst same
        obtain ⟨intent, txid, aims, here⟩ := once.stands_here performed sent
        cases here
        rw [← is]
        exact .inl (Hub.apply_settles performed aims (once.minted _ _ sent))
      · exact .inr ⟨j, held, (follow_elsewhere same).trans sent, is⟩
  rcases refunds_follow with same | none_ | ⟨sent, built, intent, adds, taken, section_, leaves⟩
  · rw [same] at member
    exact before_settles member
  · rw [none_] at member
    cases member
  · rw [adds] at member
    rcases List.mem_cons.mp member with rfl | before
    · exact .inr ⟨id, r, once.sends performed settles taken section_ leaves, rfl⟩
    · exact before_settles before

theorem Once.follow (once : Once chain s) (performed : Hub.Performed chain s.hub id o act rest hub)
    (settles : s.settles id o out act) : Once chain (s.follow id o out hub act) := by
  refine ⟨?_, ?_, ?_, ?_, fun _ _ _ _ => once.apart_follow performed settles,
    fun _ _ _ _ => once.alone_follow performed settles,
    fun _ _ _ found _ => once.fresh_follow performed settles found,
    fun _ _ found _ => once.unsent_follow performed settles found, ?_, ?_⟩
  · rw [follow_hub]
    exact step_known once.known performed.steps
  · rw [follow_hub]
    exact Hub.trails_performed once.trails performed
  · rw [follow_hub]
    exact fun _ _ => once.stands_follow performed settles
  · rw [follow_hub]
    exact fun _ _ => once.minted_follow performed settles
  · rw [follow_hub]
    exact fun _ => once.settled_follow performed settles
  · rcases refunds_follow with same | none_ | ⟨sent, built, intent, adds, taken, _, _⟩
    · rw [same]
      exact once.once
    · rw [none_]
      exact List.nodup_nil
    · rw [adds, List.map_cons, List.nodup_cons]
      refine ⟨?_, once.once⟩
      intro inside
      obtain ⟨earlier, before, same⟩ := List.mem_map.mp inside
      exact once.unsent id sent taken earlier before same

theorem Once.step {e : Event} (once : Once chain s) (settles : s.Settles e) (steps : step chain s e = some next) :
    Once chain next := by
  cases e with
  | hub event outs =>
    rcases step_hub steps with ⟨id, o, act, rest, hub, rfl, performed, rfl⟩ | ⟨rfl, hub, happens, rfl⟩ |
      ⟨alive, idle, hub, happens, rfl⟩
    · apply once.follow performed
      have met : (match s.hub.calls.lookup id with
        | some (act :: _) => s.settles id o (decide (id ∈ outs)) act
        | _ => True) := settles
      rw [performed.head] at met
      exact settles_priced met
    · -- nothing is cut off: what left is folded
      have ended : ∀ id commit, s.commits.lookup id = some commit → commit.refund = none :=
        fun id commit found => settles commit (KeyMap.mem_values_iff.mpr ⟨id, found⟩)
      have lost : outs.dedup.filterMap (fun id => (s.commits.lookup id).bind Accepting.unanswered) = [] := by
        rw [List.filterMap_eq_nil_iff]
        intro id _
        cases found : s.commits.lookup id with
        | none => rfl
        | some commit =>
          cases commit with
          | checked _ _ | sent _ => rfl
          | taken r => cases ended id _ found
      refine ⟨step_known once.known happens, ?_, ?_, ?_, ?_, ?_, ?_, ?_, ?_, ?_⟩
      · cases happens
        intro id acts found
        cases found
      · intro id commit found
        cases found
      · intro id commit found
        cases found
      · intro id other commit held found
        cases found
      · intro id other r held found
        cases found
      · intro id nonce conversationId found
        cases found
      · intro id r found
        cases found
      · intro r member
        simp only [lost, List.nil_append] at member
        rcases once.settled r member with settled | ⟨id, held, sent, _⟩
        · exact .inl (settled.step once.known happens)
        · cases ended id _ sent
      · simp only [lost, List.nil_append]
        exact once.once
    · refine ⟨step_known once.known happens, ?_, ?_, ?_, once.apart, once.alone, once.fresh, once.unsent, ?_,
        once.once⟩
      · intro id acts found
        rcases Hub.idle_arrives happens idle alive found with before | arrives
        · exact once.trails id acts before
        · exact arrives.trails
      · intro id commit found
        obtain ⟨acts, at_, stands⟩ := once.stands id commit found
        exact ⟨acts, Hub.idle_stays happens idle alive at_, stands⟩
      · exact fun id commit found => Hub.minted_step happens (once.minted id commit found)
      · intro r member
        exact (once.settled r member).imp_left fun settled => settled.step once.known happens
  | paid txid received =>
    cases steps
    exact ⟨once.known, once.trails, once.stands, once.minted, once.apart, once.alone, once.fresh, once.unsent,
      once.settled, once.once⟩
  | land i =>
    simp only [Bonds.step] at steps
    split at steps
    case h_1 refund found =>
      cases steps
      -- a refund that lands is the one that left
      have was : ∀ r ∈ s.refunds.set i { refund with landed := true }, ∃ before ∈ s.refunds,
          before.conversationId = r.conversationId ∧ before.quote = r.quote := by
        intro r member
        rcases mem_land found member with before | ⟨rfl, held⟩
        · exact ⟨r, before, rfl, rfl⟩
        · exact ⟨refund, held, rfl, rfl⟩
      refine ⟨once.known, once.trails, once.stands, once.minted, once.apart, once.alone, ?_, ?_, ?_, ?_⟩
      · intro id nonce conversationId checked r member
        obtain ⟨before, held, same, _⟩ := was r member
        rw [← same]
        exact once.fresh id nonce conversationId checked before held
      · intro id r taken earlier member
        obtain ⟨before, held, _, same⟩ := was earlier member
        rw [← same]
        exact once.unsent id r taken before held
      · intro r member
        obtain ⟨before, held, same, _⟩ := was r member
        rw [← same]
        exact once.settled before held
      · have same : (s.refunds.set i { refund with landed := true }).map (fun r => r.quote.handshakeTxid) =
            s.refunds.map fun r => r.quote.handshakeTxid := by
          rw [List.map_set]
          apply List.ext_getElem?
          intro j
          rw [List.getElem?_set]
          split
          case isTrue here =>
            subst here
            rw [List.getElem?_map, found]
            split
            · rfl
            case isFalse short =>
              rw [List.length_map] at short
              exact absurd (List.getElem?_eq_some_iff.mp found).1 short
          case isFalse => rfl
        rw [same]
        exact once.once
    case h_2 => cases steps

theorem once_launch : Once chain launch := by
  refine ⟨launch_known, ?_, ?_, ?_, ?_, ?_, ?_, ?_, List.forall_mem_nil _, List.nodup_nil⟩
  · intro id acts found
    cases found
  · intro id commit found
    cases found
  · intro id commit found
    cases found
  · intro id other commit held found
    cases found
  · intro id other r held found
    cases found
  · intro id nonce conversationId found
    cases found
  · intro id r found
    cases found

theorem Once.atMostOne (once : Once chain s) : s.AtMostOne := by
  intro handshakeTxid
  have all : (s.refunds.map fun r => r.quote.handshakeTxid).count handshakeTxid ≤ 1 :=
    List.nodup_iff_count_le_one.mp once.once handshakeTxid
  refine le_trans ?_ all
  rw [List.count, List.countP_map, List.countP_eq_length_filter]
  refine (List.Sublist.length_le ?_)
  apply List.monotone_filter_right
  intro r landed
  exact (Bool.and_eq_true _ _).mp landed |>.2

end Once

section Sample

def sampleInvitation : InboundHandshake :=
  ⟨"bond", some [1], some ⟨"theirs", none, none, 3⟩, none, none, .node, .ciphMsg⟩

def later : Oracle := { Hub.calm with freshId := "another" }

/-- A call runs so many of its sections. -/
def calls (id sections : ℕ) (call : Hub.Call) (o : Oracle) (out : List ℕ) : List Event :=
  (Hub.Event.call id call :: Hub.performs id sections o).map fun event => .hub event out

def invited : List Event :=
  calls 1 5 (.inboundHandshake sampleInvitation) Hub.calm [] ++ [.paid "bond" HANDSHAKE_BOND_SOMPI]

/-- A first broadcast the node refuses, and a second accept that is answered: a third is not prepared. -/
def retried : List Event :=
  invited ++ calls 2 5 (.prepareAccept "fresh") later [] ++ calls 3 5 (.commit 1) { later with ok := false } [] ++
    calls 4 5 (.prepareAccept "fresh") later [] ++ calls 5 6 (.commit 2) later [] ++
      calls 6 1 (.prepareAccept "fresh") later [] ++ [.land 0]

/-- The first broadcast is never answered, so the invitation still waits. -/
def unansweredTwice : List Event :=
  invited ++ calls 2 5 (.prepareAccept "fresh") later [] ++ calls 3 5 (.commit 1) { later with ok := false } [3] ++
    calls 4 5 (.prepareAccept "fresh") later [] ++ calls 5 6 (.commit 2) later [] ++ [.land 0, .land 1]

end Sample

end Bonds

end Kaspaverse.Transport
