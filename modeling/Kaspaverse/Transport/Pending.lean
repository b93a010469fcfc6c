import Kaspaverse.Library.Machine
import Kaspaverse.Transport.Store

namespace Kaspaverse.Transport

/-- What a clean commit folds into the transport store. -/
inductive TransportIntent
  | bcast
  | handshake (conversation : ConversationRecord) (reseal : List UInt8) (timestampMs : Nat)
  | accept (conversationId contactAddress myAlias : String) (reseal : List UInt8) (timestampMs : Nat)
  | comm (conversationId aliasOnWire : String) (reseal : List UInt8) (sealedTo : KeyBranch × Nat)
      (timestampMs : Nat) (wire : WireNamespace)
  | selfStash (covered : List String) (timestampMs : Nat)
deriving DecidableEq

/-- The invitation an Accept refunds. -/
def TransportIntent.target : TransportIntent → Option String
  | .accept conversationId _ _ _ _ => some conversationId
  | _ => none

structure SendOutcome where
  finalTxid : Option String
  submitted : Nat
  total : Nat
  isPartial : Bool
  error : Option String
  unanswered : Bool
deriving DecidableEq

def SendOutcome.clean (outcome : SendOutcome) : Bool := !outcome.isPartial && outcome.error.isNone

/-- A prepare that has its nonce. It stores its intent first and its plan behind it. -/
structure Preparing (π : Type) where
  plan : π
  intent : TransportIntent
  stored : Bool
deriving DecidableEq

/-- Where a commit of a nonce is. `checked` is the invitation its accept guard found in place, and
    `seen`, which nothing reads, whether that nonce's intent was stored when the guard read it. -/
inductive Committing (π : Type)
  | checking (nonce : Nat) (target : String)
  | refusing (nonce : Nat)
  | ready (nonce : Nat) (checked : Option String) (seen : Bool)
  | took (nonce : Nat) (plan : π) (checked : Option String)
  | sending (nonce : Nat) (plan : π) (checked : Option String) (intent : Option TransportIntent)
deriving DecidableEq

/-- A plan that was broadcast, and what its commit had of the intent. -/
structure Broadcast (π : Type) where
  nonce : Nat
  plan : π
  checked : Option String
  intent : Option TransportIntent
  outcome : SendOutcome
deriving DecidableEq

/-- What a commit hands to `apply_intent`. -/
def Broadcast.applied {π : Type} (b : Broadcast π) : Option (TransportIntent × String) :=
  match b.outcome.clean, b.intent, b.outcome.finalTxid with
  | true, some intent, some txid => some (intent, txid)
  | _, _, _ => none

/-- The two stashes and the calls in flight. The last two fields are history, which nothing reads:
    what each nonce was prepared as, and what was broadcast. -/
structure Pending (π : Type) where
  nonce : Nat
  plan : Option (Nat × π)
  intent : Option (Nat × TransportIntent)
  store : Option TransportStore
  prepares : KeyMap Nat (Preparing π)
  abandons : Nat
  commits : KeyMap Nat (Committing π)
  prepared : KeyMap Nat (π × TransportIntent)
  broadcasts : List (Broadcast π)

namespace Pending

variable {π : Type}

def launch : Pending π := ⟨1, none, none, none, ∅, 0, ∅, ∅, []⟩

/-- The invitation a stashed Accept would refund, if the stash under the nonce is one. -/
def pendingAcceptTarget (slot : Option (Nat × TransportIntent)) (nonce : Nat) : Option String :=
  match slot with
  | some (stored, .accept conversationId _ _ _ _) => if stored = nonce then some conversationId else none
  | _ => none

def acceptTargetMissing (store : TransportStore) (conversationId : String) : Bool :=
  !(store.conversations.records.lookup conversationId).any fun c => c.status = .pendingInbound

/-- The guard refuses without a hub too. -/
def guardRefuses (store : Option TransportStore) (conversationId : String) : Bool :=
  match store with
  | some store => acceptTargetMissing store conversationId
  | none => true

def takeIntent (slot : Option (Nat × TransportIntent)) (nonce : Nat) :
    Option TransportIntent × Option (Nat × TransportIntent) :=
  match slot with
  | some (stored, intent) => if stored = nonce then (some intent, none) else (none, slot)
  | none => (none, none)

def takeStashed (stash : Option (Nat × π)) (nonce : Nat) : Except String π × Option (Nat × π) :=
  match stash with
  | some (stored, prepared) =>
    if stored = nonce then (.ok prepared, none)
    else (.error "this send is no longer current — please review and confirm again", stash)
  | none => (.error "nothing to send — please start the send again", none)

theorem takeStashed_ok {stash after : Option (ℕ × π)} {nonce : ℕ} {plan : π}
    (takes : takeStashed stash nonce = (.ok plan, after)) : stash = some (nonce, plan) ∧ after = none := by
  unfold takeStashed at takes
  split at takes
  case h_1 stored prepared =>
    split at takes
    case isTrue same =>
      cases takes
      exact ⟨by rw [same], rfl⟩
    case isFalse => cases takes
  case h_2 => cases takes

theorem takeStashed_error {stash after : Option (ℕ × π)} {nonce : ℕ} {said : String}
    (takes : takeStashed stash nonce = (.error said, after)) :
    after = stash ∧ ∀ plan, stash ≠ some (nonce, plan) := by
  unfold takeStashed at takes
  split at takes
  case h_1 stored prepared =>
    split at takes
    case isTrue => cases takes
    case isFalse other =>
      cases takes
      refine ⟨rfl, ?_⟩
      intro plan same
      cases same
      exact other rfl
  case h_2 =>
    cases takes
    exact ⟨rfl, fun _ same => nomatch same⟩

inductive Event (π : Type)
  /-- a payment takes a nonce of the same space -/
  | payment
  | allot (plan : π) (intent : TransportIntent)
  | storeIntent (nonce : Nat)
  | storePlan (nonce : Nat)
  | abandonPlan
  | abandonIntent
  /-- the hub opens, closes, or folds something into its store -/
  | hub (store : Option TransportStore)
  | commit (id nonce : Nat)
  | check (id : Nat)
  | refuse (id : Nat)
  | takePlan (id : Nat)
  | takeIntent (id : Nat)
  | broadcast (id : Nat) (outcome : SendOutcome)

/-- One critical section of one call. -/
def step (s : Pending π) : Event π → Option (Pending π)
  | .payment => some { s with nonce := s.nonce + 1 }
  | .allot plan intent =>
    some { s with
      nonce := s.nonce + 1
      prepares := s.prepares.insert s.nonce ⟨plan, intent, false⟩
      prepared := s.prepared.insert s.nonce (plan, intent) }
  | .storeIntent nonce =>
    match s.prepares.lookup nonce with
    | some ⟨plan, intent, false⟩ =>
      some { s with
        intent := some (nonce, intent), prepares := s.prepares.insert nonce ⟨plan, intent, true⟩ }
    | _ => none
  | .storePlan nonce =>
    match s.prepares.lookup nonce with
    | some ⟨plan, _, true⟩ =>
      some { s with plan := some (nonce, plan), prepares := s.prepares.erase nonce }
    | _ => none
  | .abandonPlan => some { s with plan := none, abandons := s.abandons + 1 }
  | .abandonIntent =>
    if s.abandons = 0 then none else some { s with intent := none, abandons := s.abandons - 1 }
  | .hub store => some { s with store := store }
  | .commit id nonce =>
    if id ∈ s.commits then none
    else
      some { s with commits := s.commits.insert id (
        match pendingAcceptTarget s.intent nonce with
        | some target => .checking nonce target
        | none => .ready nonce none (s.intent.any fun slot => slot.1 = nonce)) }
  | .check id =>
    match s.commits.lookup id with
    | some (.checking nonce target) =>
      some { s with
        commits := s.commits.insert id (
          if guardRefuses s.store target then .refusing nonce else .ready nonce (some target) true) }
    | _ => none
  | .refuse id =>
    -- the refusal abandons whatever is stashed by then
    match s.commits.lookup id with
    | some (.refusing _) =>
      some { s with plan := none, abandons := s.abandons + 1, commits := s.commits.erase id }
    | _ => none
  | .takePlan id =>
    match s.commits.lookup id with
    | some (.ready nonce checked _) =>
      match takeStashed s.plan nonce with
      | (.ok plan, stash) =>
        some { s with plan := stash, commits := s.commits.insert id (.took nonce plan checked) }
      | (.error _, stash) => some { s with plan := stash, commits := s.commits.erase id }
    | _ => none
  | .takeIntent id =>
    match s.commits.lookup id with
    | some (.took nonce plan checked) =>
      let (intent, slot) := Pending.takeIntent s.intent nonce
      some { s with intent := slot, commits := s.commits.insert id (.sending nonce plan checked intent) }
    | _ => none
  | .broadcast id outcome =>
    match s.commits.lookup id with
    | some (.sending nonce plan checked intent) =>
      some { s with
        commits := s.commits.erase id
        broadcasts := ⟨nonce, plan, checked, intent, outcome⟩ :: s.broadcasts }
    | _ => none

end Pending

end Kaspaverse.Transport
